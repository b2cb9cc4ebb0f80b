import SourceOutline.CommandLine
import SourceOutline.Files.Tree
import SourceOutline.Proofs.Json.OneLine
import SourceOutline.Proofs.Response.Fitting

/-!
# Batches of files

`analyze` and `validate` take many files at once. Files that cannot be read are left out of what is
printed, so it is not by its place in the list that a result belongs to a path. `Accounts` relates
the paths of a batch to its results: going through both in order, a path that cannot be read has no
result, and every other path has one, as often as it is given.

**Main result** (`outcome_of_batch`): on every file system and with every configuration, what is
printed accounts for all paths, in one JSON array for `analyze` and in a line for each for
`validate`, and nothing is printed only where a folder cannot be collected or no path can be read.
-/

namespace SourceOutline.CommandLine

open Json

/-! ### What is said of a batch -/

/-- How a run ends that may be broken off by a fault. -/
def Outcome.ofRun : Except FileFault Outcome → Outcome
  | .ok outcome => outcome
  | .error fault => .failed fault

/-- How the run of an invocation ends. -/
def Invocation.outcome [CharacterNames] (files : FileAccess Id) (input : ByteArray)
    (invocation : Invocation) : Outcome :=
  .ofRun (invocation.run files (pure input : Id ByteArray)).run

/-- What the program does with arguments that are an invocation is the run of that. -/
theorem run_of_arguments [CharacterNames] {files : FileAccess Id} {input : ByteArray}
    {arguments : List String} {invocation : Invocation}
    (h : Invocation.ofArguments arguments = .ok invocation) :
    run files (pure input : Id ByteArray) arguments = invocation.outcome files input := by
  rw [run, h]
  dsimp only
  rw [Invocation.outcome]
  cases (invocation.run files (pure input : Id ByteArray)).run with
  | ok outcome => rfl
  | error fault => rfl

/-- A run that prints nothing and ends with a message and the status of a failure. -/
def Outcome.IsFailure (outcome : Outcome) : Prop :=
  outcome.status = 1 ∧ outcome.printout = "" ∧ outcome.message?.isSome = true

variable {α : Type} {files : FileAccess Id}

/-- The results of a batch, in the order of its paths: none for a path that cannot be read as text,
and one for any other. -/
inductive Accounts (files : FileAccess Id) (tells : SourceFile → α → Prop) :
    (paths : List String) → (results : List α) → Prop
  | done : Accounts files tells [] []
  | skipped {path : String} {paths : List String} {results : List α}
    (h : files.text? path = none) (rest : Accounts files tells paths results) :
    Accounts files tells (path :: paths) results
  | told {path text : String} {result : α} {paths : List String} {results : List α}
    (h : files.text? path = some text) (htells : tells ⟨path, text⟩ result)
    (rest : Accounts files tells paths results) :
    Accounts files tells (path :: paths) (result :: results)

/-- A path that cannot be read has no result. -/
theorem accounts_cons_of_none {tells : SourceFile → α → Prop} {path : String}
    {paths : List String} {results : List α} (h : files.text? path = none) :
    Accounts files tells (path :: paths) results ↔ Accounts files tells paths results := by
  constructor
  · intro haccounts
    cases haccounts with
    | skipped _ rest => exact rest
    | told htext => exact absurd (htext.symm.trans h) nofun
  · exact .skipped h

/-- A path that can be read has the first result. -/
theorem accounts_cons_of_some {tells : SourceFile → α → Prop} {path text : String}
    {paths : List String} {results : List α} (h : files.text? path = some text) :
    Accounts files tells (path :: paths) results ↔ ∃ result others, results = result :: others ∧
      tells ⟨path, text⟩ result ∧ Accounts files tells paths others := by
  constructor
  · intro haccounts
    cases haccounts with
    | skipped hnone _ => exact absurd (h.symm.trans hnone) nofun
    | told htext htells rest =>
      obtain rfl := Option.some.inj (h.symm.trans htext)
      exact ⟨_, _, rfl, htells, rest⟩
  · rintro ⟨result, others, rfl, htells, rest⟩
    exact .told h htells rest

/-- The paths collected in folders, one folder after the other. -/
def collected (files : FileAccess Id) (excluded folders : List String) : List String :=
  folders.flatMap fun folder =>
    match files.collect excluded folder with
    | .ok paths => paths
    | .error _ => []

/-- What is told of a path: the path itself, and then all that is said of the text, of which nothing
goes by that name. -/
def TellsOf (path : String) (said result : Json) : Prop :=
  ∃ members, said = .object members ∧ "path" ∉ members.map (·.1) ∧
    result = .object (("path", .string path) :: members)

/-- Whether no text has more characters than numbers of 64 bits can count. -/
def TextsFit (files : FileAccess Id) (paths : List String) : Prop :=
  ∀ path ∈ paths, ∀ text, files.text? path = some text → text.length < maxWhole

/-- How `analyze` ends that is given files and folders. -/
structure AnalyzesBatch [CharacterNames] (files : FileAccess Id) (config : Config)
    (inputs folders : List String) (compact : Bool) (outcome : Outcome) : Prop where
  /-- It fails exactly where a folder cannot be collected, or none of the paths can be read. -/
  isFailure_iff : outcome.IsFailure ↔
    (∃ folder ∈ folders, ∃ fault, files.collect config.scan.exclude folder = .error fault) ∨
      ∀ path ∈ inputs ++ collected files config.scan.exclude folders, files.text? path = none
  /-- Else it prints one array, with the path and the analysis of each text that can be read. -/
  prints : ¬ outcome.IsFailure → ∃ results,
    outcome = .printed ((Json.array results).render (layoutOf config.output compact) ++ "\n") ∧
    Accounts files
      (fun file => TellsOf file.path (AnalysisResponse.ofText file.text.toList).toJson)
      (inputs ++ collected files config.scan.exclude folders) results ∧
    (TextsFit files (inputs ++ collected files config.scan.exclude folders) →
      Json.parse outcome.printout.toList = .ok (.array results))

/-- How `validate` ends that is given files. -/
structure ValidatesBatch [CharacterNames] (files : FileAccess Id) (inputs : List String)
    (outcome : Outcome) : Prop where
  /-- It fails exactly where none of the paths can be read. -/
  isFailure_iff : outcome.IsFailure ↔ ∀ path ∈ inputs, files.text? path = none
  /-- Else it prints a line with one value for each text that can be read: its path, and whether it
  is a program. -/
  prints : ¬ outcome.IsFailure → ∃ lines, outcome = .printed (unlines lines) ∧
    Accounts files
      (fun file line => '\n' ∉ line.toList ∧ ∃ result,
        TellsOf file.path (ValidationResponse.ofText file.text.toList).toJson result ∧
        line = result.render .compact ∧
        (file.text.length < maxWhole → Json.parse line.toList = .ok result))
      inputs lines

/-! ### Reading files -/

/-- The files that can be read. -/
def readable (files : FileAccess Id) (paths : List String) : List SourceFile :=
  paths.filterMap fun path => (files.text? path).map fun text => ⟨path, text⟩

theorem readable_eq_nil_iff {paths : List String} :
    readable files paths = [] ↔ ∀ path ∈ paths, files.text? path = none := by
  rw [readable, List.filterMap_eq_nil_iff]
  exact forall₂_congr fun path _ => Option.map_eq_none_iff

theorem length_lt_of_mem_readable {paths : List String} {file : SourceFile}
    (hfit : TextsFit files paths) (h : file ∈ readable files paths) :
    file.text.length < maxWhole := by
  obtain ⟨path, hpath, hfile⟩ := List.mem_filterMap.mp h
  obtain ⟨text, htext, rfl⟩ := Option.map_eq_some_iff.mp hfile
  exact hfit path hpath text htext

/-- The results of the files that can be read account for all paths. -/
theorem accounts_map_readable {tells : SourceFile → α → Prop} {result : SourceFile → α}
    (h : ∀ file, tells file (result file)) (paths : List String) :
    Accounts files tells paths ((readable files paths).map result) := by
  induction paths with
  | nil => exact .done
  | cons path paths ih =>
    cases htext : files.text? path with
    | none =>
      have hskip : readable files (path :: paths) = readable files paths :=
        List.filterMap_cons_none (by rw [htext]; rfl)
      rw [hskip]
      exact .skipped htext ih
    | some text =>
      have htold : readable files (path :: paths) = ⟨path, text⟩ :: readable files paths :=
        List.filterMap_cons_some (by rw [htext]; rfl)
      rw [htold]
      exact .told htext (h _) ih

/-- If a step only looks something up, all steps together pick out what is there. -/
private theorem filterMapM_eq_pure {m : Type → Type} [Monad m] [LawfulMonad m] {α β : Type}
    {step : α → m (Option β)} (pick : α → Option β) (h : ∀ a, step a = pure (pick a))
    (items : List α) : items.filterMapM step = pure (items.filterMap pick) := by
  have hloop : ∀ (items : List α) (picked : List β),
      List.filterMapM.loop step items picked = pure (picked.reverse ++ items.filterMap pick) := by
    intro items
    induction items with
    | nil =>
      intro picked
      rw [List.filterMapM.loop, List.filterMap_nil, List.append_nil]
    | cons item items ih =>
      intro picked
      rw [List.filterMapM.loop, h, pure_bind]
      cases hpick : pick item with
      | none => rw [List.filterMap_cons_none hpick, ← ih]
      | some result =>
        rw [List.filterMap_cons_some hpick, List.append_cons, ← List.reverse_cons, ← ih]
  exact hloop items []

/-- Reading files fails only where none of them can be read. -/
theorem run_readSources (files : FileAccess Id) (paths : List String) :
    (readSources files paths).run = if readable files paths = [] then .error .noSources
      else .ok (readable files paths) := by
  rw [readSources, filterMapM_eq_pure fun path => (files.text? path).map fun text => ⟨path, text⟩,
    pure_bind]
  · show ExceptT.run (if (readable files paths).isEmpty then throw FileFault.noSources
      else pure (readable files paths)) = _
    cases readable files paths with
    | nil => rfl
    | cons file others => rfl
  · exact fun _ => rfl

/-- Folders are collected one after the other, as long as none of them fails. -/
theorem run_mapM_collect (files : FileAccess Id) (excluded folders : List String) :
    let run := (folders.mapM fun folder => ExceptT.mk (files.collect excluded folder)).run
    (∃ fault, run = .error fault ∧
      ∃ folder ∈ folders, ∃ fault, files.collect excluded folder = .error fault) ∨
    ∃ found : List (List String), run = .ok found ∧
      found.flatten = collected files excluded folders ∧
      ∀ folder ∈ folders, ∀ fault, files.collect excluded folder ≠ .error fault := by
  dsimp only
  induction folders with
  | nil => exact .inr ⟨[], rfl, rfl, nofun⟩
  | cons folder folders ih =>
    rw [List.mapM_cons, ExceptT.run_bind, ExceptT.run_mk]
    cases hfolder : files.collect excluded folder with
    | error fault => exact .inl ⟨fault, rfl, folder, List.mem_cons_self, fault, hfolder⟩
    | ok paths =>
      rcases ih with ⟨fault, hfault, other, hother, hfails⟩ | ⟨found, hfound, hflatten, hall⟩
      · refine .inl ⟨fault, ?_, other, List.mem_cons_of_mem _ hother, hfails⟩
        show ExceptT.run (_ >>= _) = _
        rw [ExceptT.run_bind, hfault]
        rfl
      · refine .inr ⟨paths :: found, ?_, ?_, ?_⟩
        · show ExceptT.run (_ >>= _) = _
          rw [ExceptT.run_bind, hfound]
          rfl
        · rw [List.flatten_cons, hflatten, collected, collected, List.flatMap_cons, hfolder]
        · rw [List.forall_mem_cons]
          refine ⟨fun fault h => ?_, hall⟩
          rw [hfolder] at h
          cases h

/-! ### What is told of a file -/

theorem tellsOf_analysis [CharacterNames] (file : SourceFile) :
    TellsOf file.path (AnalysisResponse.ofText file.text.toList).toJson
      (file.analysis.toJson AnalysisResponse.toJson) := by
  rw [FileResponse.toJson, SourceFile.analysis]
  cases AnalysisResponse.ofText file.text.toList with
  | success flag report => exact ⟨_, rfl, by simp, rfl⟩
  | failure flag message line column => exact ⟨_, rfl, by simp, rfl⟩

theorem tellsOf_validation [CharacterNames] (file : SourceFile) :
    TellsOf file.path (ValidationResponse.ofText file.text.toList).toJson
      (file.validation.toJson ValidationResponse.toJson) :=
  ⟨_, rfl, by simp, rfl⟩

/-- The path in front leaves a value regular. -/
theorem TellsOf.regular {path : String} {said result : Json} {levels : Nat}
    (h : TellsOf path said result) (hsaid : Regular (levels + 1) said) :
    Regular (levels + 1) result := by
  obtain ⟨members, rfl, hpath, rfl⟩ := h
  cases hsaid with
  | object hkeys hvalues =>
    refine .object ?_ (.members_cons (.string _) hvalues)
    rw [List.map_cons, List.nodup_cons]
    exact ⟨hpath, hkeys⟩

/-! ### What is printed -/

/-- A regular value that is printed on lines of its own is read back as it is. -/
theorem parse_printed {json : Json} {levels : Nat} (h : Regular levels json)
    (hlevels : levels < depthLimit) (layout : Layout) :
    Json.parse (json.render layout ++ "\n").toList = .ok json := by
  have hspells : SpellsDocument json (json.render layout ++ "\n").toList := by
    rw [String.toList_append]
    exact (spellsDocument_render h layout).append_blanks (List.forall_mem_singleton.mpr rfl)
  exact parse_of_spells hspells h hlevels

theorem regular_analysis [CharacterNames] {file : SourceFile}
    (hlength : file.text.length < maxWhole) :
    Regular 5 (file.analysis.toJson AnalysisResponse.toJson) := by
  have hconcur := concur file.text.toList
  rw [← String.length_toList] at hlength
  exact (tellsOf_analysis file).regular
    (AnalysisResponse.regular_toJson (fits_of_concur hconcur hlength).1)

theorem regular_validation [CharacterNames] {file : SourceFile}
    (hlength : file.text.length < maxWhole) :
    Regular 2 (file.validation.toJson ValidationResponse.toJson) := by
  have hconcur := concur file.text.toList
  rw [← String.length_toList] at hlength
  exact (tellsOf_validation file).regular
    (ValidationResponse.regular_toJson (fits_of_concur hconcur hlength).2)

/-! ### Runs -/

variable {input : ByteArray} {config : Config} {asked : Option String}

/-- Once the settings are read, a run prints what it makes, or fails as that does. -/
private theorem run_printed (hload : Config.load files asked = .ok config)
    (making : Config → ExceptT FileFault Id String) :
    (ExceptT.mk (Config.load files asked) >>= fun config =>
      making config >>= fun text => pure (Outcome.printed text)).run =
      (making config).run.map Outcome.printed := by
  rw [hload, ExceptT.run_bind, ExceptT.run_mk]
  show ExceptT.run (_ >>= _) = _
  rw [ExceptT.run_bind]
  cases (making config).run with
  | ok text => rfl
  | error fault => rfl

theorem outcome_analyze [CharacterNames] (hload : Config.load files asked = .ok config)
    (inputs folders : List String) (compact : Bool) :
    Invocation.outcome files input ⟨.analyze inputs folders compact, asked⟩ = .ofRun
      ((runAnalyze files (pure input : Id ByteArray) config inputs folders compact).run.map
        .printed) :=
  congrArg Outcome.ofRun (run_printed hload fun config =>
    runAnalyze files (pure input : Id ByteArray) config inputs folders compact)

theorem outcome_validate [CharacterNames] (hload : Config.load files asked = .ok config)
    (inputs : List String) :
    Invocation.outcome files input ⟨.validate inputs, asked⟩ = .ofRun
      ((runValidate files (pure input : Id ByteArray) inputs).run.map .printed) :=
  congrArg Outcome.ofRun (run_printed hload fun _ =>
    runValidate files (pure input : Id ByteArray) inputs)

theorem unlines_singleton (line : String) : unlines [line] = line ++ "\n" := by
  rw [unlines, List.map_singleton, String.join_cons, String.join_nil,
    String.append_empty]

/-- What `analyze` comes to on files and folders. -/
private theorem run_runAnalyze [CharacterNames] (files : FileAccess Id) (input : ByteArray)
    (config : Config) {inputs folders : List String} (hgiven : inputs ≠ [] ∨ folders ≠ [])
    (compact : Bool) :
    let run := (runAnalyze files (pure input : Id ByteArray) config inputs folders compact).run
    let sources := readable files (inputs ++ collected files config.scan.exclude folders)
    (∃ fault, run = .error fault ∧
      ((∃ folder ∈ folders, ∃ fault, files.collect config.scan.exclude folder = .error fault) ∨
        sources = [])) ∨
    run = .ok ((Json.array (sources.map (·.analysis.toJson AnalysisResponse.toJson))).render
        (layoutOf config.output compact) ++ "\n") ∧
      (∀ folder ∈ folders, ∀ fault, files.collect config.scan.exclude folder ≠ .error fault) ∧
      sources ≠ [] := by
  intro run sources
  have hnot : (inputs.isEmpty && folders.isEmpty) = false := by
    rw [Bool.and_eq_false_iff, List.isEmpty_eq_false_iff, List.isEmpty_eq_false_iff]
    exact hgiven
  have hrun : run = ExceptT.run (
      (folders.mapM fun folder => ExceptT.mk (files.collect config.scan.exclude folder)) >>=
        fun found => readSources files (inputs ++ found.flatten) >>= fun sources =>
          pure (unlines [(Json.array ((SourceFile.analyses sources).map
            (·.toJson AnalysisResponse.toJson))).render (layoutOf config.output compact)])) := by
    simp only [run, runAnalyze, hnot, Bool.false_eq_true, if_false]
  rw [hrun, ExceptT.run_bind]
  rcases run_mapM_collect files config.scan.exclude folders with
    ⟨fault, hfault, hfails⟩ | ⟨found, hfound, hflatten, hall⟩
  · rw [hfault]
    exact .inl ⟨fault, rfl, .inl hfails⟩
  · rw [hfound]
    show (∃ fault, ExceptT.run (_ >>= _) = _ ∧ _) ∨ ExceptT.run (_ >>= _) = _ ∧ _
    rw [ExceptT.run_bind, hflatten, run_readSources]
    by_cases hnone : readable files (inputs ++ collected files config.scan.exclude folders) = []
    · rw [if_pos hnone]
      exact .inl ⟨_, rfl, .inr hnone⟩
    · rw [if_neg hnone]
      refine .inr ⟨?_, hall, hnone⟩
      rw [← unlines_singleton]
      exact congrArg (fun reports => Except.ok (unlines
        [(Json.array reports).render (layoutOf config.output compact)])) List.map_map

/-- What `validate` comes to on files. -/
private theorem run_runValidate [CharacterNames] (files : FileAccess Id) (input : ByteArray)
    {inputs : List String} (hgiven : inputs ≠ []) :
    let run := (runValidate files (pure input : Id ByteArray) inputs).run
    let sources := readable files inputs
    (∃ fault, run = .error fault ∧ sources = []) ∨
    run = .ok (unlines (sources.map fun file =>
        (file.validation.toJson ValidationResponse.toJson).render .compact)) ∧ sources ≠ [] := by
  intro run sources
  have hrun : run = ExceptT.run (readSources files inputs >>= fun sources =>
      pure (unlines (sources.map fun file =>
        (file.validation.toJson ValidationResponse.toJson).render .compact))) := by
    simp only [run, runValidate, List.isEmpty_eq_false_iff.mpr hgiven, Bool.false_eq_true, if_false]
  rw [hrun, ExceptT.run_bind, run_readSources]
  by_cases hnone : readable files inputs = []
  · rw [if_pos hnone]
    exact .inl ⟨_, rfl, hnone⟩
  · rw [if_neg hnone]
    exact .inr ⟨rfl, hnone⟩

theorem Outcome.isFailure_failed (fault : FileFault) : (Outcome.failed fault).IsFailure :=
  ⟨rfl, rfl, rfl⟩

theorem Outcome.not_isFailure_printed (text : String) : ¬ (Outcome.printed text).IsFailure :=
  fun h => absurd h.1 Nat.zero_ne_one

/-- **An analysis of a batch** is one array. -/
theorem analyzesBatch_outcome [CharacterNames] (hload : Config.load files asked = .ok config)
    {inputs folders : List String} (hgiven : inputs ≠ [] ∨ folders ≠ []) (compact : Bool) :
    AnalyzesBatch files config inputs folders compact
      (Invocation.outcome files input ⟨.analyze inputs folders compact, asked⟩) := by
  rw [outcome_analyze hload]
  rcases run_runAnalyze files input config hgiven compact with
    ⟨fault, hrun, hcause⟩ | ⟨hrun, hall, hsome⟩
  · rw [hrun]
    refine ⟨iff_of_true (Outcome.isFailure_failed fault) ?_, fun h =>
      absurd (Outcome.isFailure_failed fault) h⟩
    rwa [readable_eq_nil_iff] at hcause
  · rw [hrun]
    refine ⟨iff_of_false (Outcome.not_isFailure_printed _) ?_, fun _ => ⟨_, rfl,
      accounts_map_readable tellsOf_analysis _, fun hfit => ?_⟩⟩
    · rintro (⟨folder, hfolder, fault, hfault⟩ | hnone)
      · exact hall folder hfolder fault hfault
      · exact hsome (readable_eq_nil_iff.mpr hnone)
    · have hregular : Regular 6 (.array ((readable files
          (inputs ++ collected files config.scan.exclude folders)).map
            (·.analysis.toJson AnalysisResponse.toJson))) := by
        refine .array fun result hresult => ?_
        obtain ⟨file, hfile, rfl⟩ := List.mem_map.mp hresult
        exact regular_analysis (length_lt_of_mem_readable hfit hfile)
      exact parse_printed hregular (by decide) _

/-- **A validation of a batch** is a line for each file. -/
theorem validatesBatch_outcome [CharacterNames] (hload : Config.load files asked = .ok config)
    {inputs : List String} (hgiven : inputs ≠ []) :
    ValidatesBatch files inputs (Invocation.outcome files input ⟨.validate inputs, asked⟩) := by
  rw [outcome_validate hload]
  rcases run_runValidate files input hgiven with ⟨fault, hrun, hnone⟩ | ⟨hrun, hsome⟩
  · rw [hrun]
    exact ⟨iff_of_true (Outcome.isFailure_failed fault) (readable_eq_nil_iff.mp hnone), fun h =>
      absurd (Outcome.isFailure_failed fault) h⟩
  · rw [hrun]
    refine ⟨iff_of_false (Outcome.not_isFailure_printed _) fun hnone =>
      hsome (readable_eq_nil_iff.mpr hnone), fun _ => ⟨_, rfl, accounts_map_readable ?_ _⟩⟩
    refine fun file => ⟨?_, _, tellsOf_validation file, rfl, fun hlength => ?_⟩
    · exact fun hfeed => absurd (oneLine_render_compact _ _ hfeed) (by decide)
    · have hregular := regular_validation hlength
      exact parse_of_spells (spellsDocument_render hregular .compact) hregular (by decide)

/-- **Batches are accounted for**, on every file system, with every configuration that can be read
and for all lists of files and folders. What is printed depends neither on the number of workers nor
on the input. -/
theorem outcome_of_batch [CharacterNames] (hload : Config.load files asked = .ok config) :
    (∀ inputs folders compact, inputs ≠ [] ∨ folders ≠ [] →
      AnalyzesBatch files config inputs folders compact
        (Invocation.outcome files input ⟨.analyze inputs folders compact, asked⟩)) ∧
    ∀ inputs, inputs ≠ [] →
      ValidatesBatch files inputs (Invocation.outcome files input ⟨.validate inputs, asked⟩) :=
  ⟨fun _ _ compact hgiven => analyzesBatch_outcome hload hgiven compact,
    fun _ hgiven => validatesBatch_outcome hload hgiven⟩

/-- A program, a file that is no text, and a folder with a file that is no program. -/
private def sampleTree : FileTree where
  top := .directory [("b.py", .file "x = 1\n".toUTF8), ("c.py", .file ⟨#[0xff]⟩),
    ("d", .directory [("e.py", .file "(".toUTF8)])]

/-- A file that is given twice is told of twice, and one that is no text is left out between. -/
theorem outcome_of_batch_twice :
    let files := sampleTree.access
    let outcome := Invocation.outcome files .empty
      ⟨.analyze ["b.py", "c.py", "b.py"] ["d"] true, none⟩
    Config.load files none = .ok {} ∧ ¬ outcome.IsFailure ∧ ∃ first second third,
      outcome = .printed ((Json.array [first, second, third]).render .compact ++ "\n") ∧
      TellsOf "b.py" (AnalysisResponse.ofText "x = 1\n".toList).toJson first ∧
      TellsOf "b.py" (AnalysisResponse.ofText "x = 1\n".toList).toJson second ∧
      TellsOf "d/e.py" (AnalysisResponse.ofText "(".toList).toJson third := by
  intro files outcome
  have hload : Config.load files none = .ok {} := rfl
  have hcollected : collected files ({} : Config).scan.exclude ["d"] = ["d/e.py"] := by
    decide +kernel
  obtain ⟨hfails, hprints⟩ := (outcome_of_batch hload).1 ["b.py", "c.py", "b.py"] ["d"] true
    (.inl (List.cons_ne_nil _ _))
  have hnot : ¬ outcome.IsFailure := by
    rw [hfails]
    rintro (⟨folder, hfolder, fault, hfault⟩ | hnone)
    · obtain rfl := List.mem_singleton.mp hfolder
      rw [collected, List.flatMap_singleton, hfault] at hcollected
      cases hcollected
    · exact absurd (hnone "b.py" List.mem_cons_self) nofun
  obtain ⟨results, houtcome, haccounts, -⟩ := hprints hnot
  rw [hcollected, List.cons_append, accounts_cons_of_some rfl] at haccounts
  obtain ⟨first, results, rfl, hfirst, haccounts⟩ := haccounts
  rw [List.cons_append, accounts_cons_of_none rfl, List.cons_append,
    accounts_cons_of_some rfl] at haccounts
  obtain ⟨second, results, rfl, hsecond, haccounts⟩ := haccounts
  rw [List.nil_append, accounts_cons_of_some rfl] at haccounts
  obtain ⟨third, results, rfl, hthird, haccounts⟩ := haccounts
  cases haccounts with
  | done => exact ⟨hload, hnot, first, second, third, houtcome, hfirst, hsecond, hthird⟩

end SourceOutline.CommandLine
