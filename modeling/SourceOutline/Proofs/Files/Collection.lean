import Mathlib.Data.List.Lex
import Mathlib.Data.List.Nodup
import SourceOutline.Files.Collection
import SourceOutline.Proofs.Files.Tree

/-!
# What a collection finds

Names lead to a Python source (`FileTree.Leads`) if they are those of directories, one in the other
and none of them excluded or a link, and then that of something other than a directory, a stem with
`.py` or `.pyi` behind it. All that is collected below a directory is found there, whatever the
order in which a file system lists it (`mem_pythonSources_iff`), and no names are found twice
(`nodup_pythonSources`).

**Main result** (`collect_eq_sources`): in a proper file tree, the collection below a root that
leads to a directory gives the paths of all Python sources in it, each once, ascending by their
names. Any file system that has the same entries there gives the same, in whatever order it lists
them. Links are not followed below the root, so the tree may have them lead in a circle.
-/

namespace SourceOutline

namespace FileTree

variable {excluded : List String} {name : String} {names : List String} {entry : Entry}
  {entries inner : List (String × Entry)}

/-! ### Where Python sources are -/

/-- The names that lead from a directory to the Python sources in it. -/
inductive Leads (excluded : List String) : List (String × Entry) → List String → Prop
  | here {entries : List (String × Entry)} {stem suffix : String} {entry : Entry}
    (hentry : (stem ++ suffix, entry) ∈ entries) (hkind : ∀ inner, entry ≠ .directory inner)
    (hstem : stem ≠ "") (hsuffix : suffix = ".py" ∨ suffix = ".pyi") :
    Leads excluded entries [stem ++ suffix]
  | inside {entries inner : List (String × Entry)} {name : String} {names : List String}
    (hentry : (name, .directory inner) ∈ entries) (hname : name ∉ excluded)
    (h : Leads excluded inner names) : Leads excluded entries (name :: names)

theorem Leads.mono {others : List (String × Entry)} (h : Leads excluded entries names)
    (hsubset : entries ⊆ others) : Leads excluded others names := by
  cases h with
  | here hentry hkind hstem hsuffix => exact .here (hsubset hentry) hkind hstem hsuffix
  | inside hentry hname h => exact .inside (hsubset hentry) hname h

theorem leads_cons_iff {first : String × Entry} :
    Leads excluded (first :: entries) names ↔
      Leads excluded [first] names ∨ Leads excluded entries names := by
  constructor
  · intro h
    cases h with
    | here hentry hkind hstem hsuffix =>
      rcases List.mem_cons.mp hentry with hfirst | hrest
      · exact .inl (.here (List.mem_singleton.mpr hfirst) hkind hstem hsuffix)
      · exact .inr (.here hrest hkind hstem hsuffix)
    | inside hentry hname h =>
      rcases List.mem_cons.mp hentry with hfirst | hrest
      · exact .inl (.inside (List.mem_singleton.mpr hfirst) hname h)
      · exact .inr (.inside hrest hname h)
  · rintro (h | h)
    · exact h.mono (List.cons_subset_cons _ (List.nil_subset _))
    · exact h.mono (List.subset_cons_self _ _)

/-- What leads to a source in a directory leads there through its name. -/
theorem leads_directory_iff :
    Leads excluded [(name, .directory inner)] names ↔
      name ∉ excluded ∧ ∃ more, names = name :: more ∧ Leads excluded inner more := by
  constructor
  · intro h
    cases h with
    | here hentry hkind hstem hsuffix =>
      obtain ⟨rfl, rfl⟩ := Prod.mk.inj (List.mem_singleton.mp hentry)
      exact absurd rfl (hkind inner)
    | @inside _ _ _ more hentry hname h =>
      obtain ⟨rfl, hinner⟩ := Prod.mk.inj (List.mem_singleton.mp hentry)
      obtain rfl := Entry.directory.inj hinner
      exact ⟨hname, more, rfl, h⟩
  · rintro ⟨hname, more, rfl, h⟩
    exact .inside (List.mem_singleton_self _) hname h

/-- What is no directory is a source or not by its name. -/
theorem leads_source_iff (hkind : ∀ inner, entry ≠ .directory inner) :
    Leads excluded [(name, entry)] names ↔ Path.isPythonName name = true ∧ names = [name] := by
  rw [Path.isPythonName_iff]
  constructor
  · intro h
    cases h with
    | @here _ stem suffix _ hentry _ hstem hsuffix =>
      obtain ⟨rfl, rfl⟩ := Prod.mk.inj (List.mem_singleton.mp hentry)
      exact ⟨⟨stem, suffix, hstem, hsuffix, rfl⟩, rfl⟩
    | @inside _ inner _ _ hentry hname h =>
      obtain ⟨rfl, rfl⟩ := Prod.mk.inj (List.mem_singleton.mp hentry)
      exact absurd rfl (hkind inner)
  · rintro ⟨⟨stem, suffix, hstem, hsuffix, rfl⟩, rfl⟩
    exact .here (List.mem_singleton_self _) hkind hstem hsuffix

/-- In a proper directory, only names lead to sources. -/
theorem Leads.isName (h : Leads excluded entries names)
    (hproper : (Entry.directory entries).IsProper) : ∀ name ∈ names, Path.IsName name := by
  induction h with
  | here hentry _ _ _ =>
    cases hproper with
    | directory _ hnames _ => exact List.forall_mem_singleton.mpr (hnames _ hentry)
  | inside hentry _ _ ih =>
    cases hproper with
    | directory _ hnames hentries =>
      exact List.forall_mem_cons.mpr ⟨hnames _ hentry, ih (hentries _ hentry)⟩

/-! ### What is found in a listing -/

variable {listing : Listing} {listings : List (String × Listing)}

private theorem mem_named_iff :
    names ∈ (if Path.isPythonName name then [[name]] else []) ↔
      Path.isPythonName name = true ∧ names = [name] := by
  split
  · next h => simp [h]
  · next h => simp [h]

private theorem nodup_named (name : String) :
    (if Path.isPythonName name then [[name]] else []).Nodup := by
  split
  · exact List.nodup_singleton _
  · exact .nil

mutual

/-- What is found in the listing of an entry is what leads to a source in it. -/
theorem mem_sourcesOf_iff : ∀ {entry : Entry} {listing : Listing}, Lists excluded entry listing →
    ∀ name names : _,
      names ∈ Listing.sourcesOf excluded name listing ↔ Leads excluded [(name, entry)] names
  | .file content, _, .file, name, names => by
    have hkind : ∀ inner, Entry.file content ≠ .directory inner := nofun
    rw [leads_source_iff hkind]
    exact mem_named_iff
  | .link target, _, .link, name, names => by
    have hkind : ∀ inner, Entry.link target ≠ .directory inner := nofun
    rw [leads_source_iff hkind]
    exact mem_named_iff
  | .directory entries, .directory listings, .directory horder hlists, name, names => by
    have hinner : ∀ more, more ∈ Listing.pythonSources excluded listings ↔
        Leads excluded entries more := by
      intro more
      rw [mem_pythonSources_iff hlists more]
      exact ⟨fun h => h.mono horder.symm.subset, fun h => h.mono horder.subset⟩
    rw [leads_directory_iff, Listing.sourcesOf]
    split
    · next hname =>
      have hname := List.contains_iff_mem.mp hname
      exact ⟨fun hmem => absurd hmem List.not_mem_nil, fun h => absurd hname h.1⟩
    · next hname =>
      rw [List.contains_iff_mem] at hname
      rw [List.mem_map]
      constructor
      · rintro ⟨more, hmore, rfl⟩
        exact ⟨hname, more, rfl, (hinner more).mp hmore⟩
      · rintro ⟨-, more, rfl, hmore⟩
        exact ⟨more, (hinner more).mpr hmore, rfl⟩

/-- **What is found in the listing of a directory is what leads to a source in it.** -/
theorem mem_pythonSources_iff : ∀ {entries : List (String × Entry)}
    {listings : List (String × Listing)}, ListsAll excluded entries listings → ∀ names : _,
      names ∈ Listing.pythonSources excluded listings ↔ Leads excluded entries names
  | _, _, .nil, names => by
    rw [Listing.pythonSources]
    exact ⟨fun h => absurd h List.not_mem_nil, fun h => by cases h <;> contradiction⟩
  | (name, _) :: _, _, .cons hfirst hrest, names => by
    rw [Listing.pythonSources, List.mem_append, leads_cons_iff, mem_sourcesOf_iff hfirst name names,
      mem_pythonSources_iff hrest names]
  | (name, .directory inner) :: _, (_, .directory others) :: _, .skip hskip hrest, names => by
    -- Nothing is found in what is excluded, whatever is listed, and nothing in it counts.
    have hnone : Listing.sourcesOf excluded name (.directory others) = [] := by
      rw [Listing.sourcesOf, if_pos (List.contains_iff_mem.mpr hskip)]
    have hnot : ¬ Leads excluded [(name, .directory inner)] names :=
      fun h => (leads_directory_iff.mp h).1 hskip
    rw [Listing.pythonSources, hnone, List.nil_append, leads_cons_iff,
      mem_pythonSources_iff hrest names]
    exact ⟨.inr, fun h => h.resolve_left hnot⟩

end

/-- All that is found in an entry begins with its name. -/
private theorem exists_tail_of_mem_sourcesOf (h : names ∈ Listing.sourcesOf excluded name listing) :
    ∃ more, names = name :: more := by
  cases listing with
  | file => exact ⟨[], (mem_named_iff.mp h).2⟩
  | link => exact ⟨[], (mem_named_iff.mp h).2⟩
  | directory entries =>
    rw [Listing.sourcesOf] at h
    split at h
    · exact absurd h List.not_mem_nil
    · obtain ⟨more, _, rfl⟩ := List.mem_map.mp h
      exact ⟨more, rfl⟩

/-- All that is found in a directory begins with one of the names in it. -/
private theorem exists_tail_of_mem_pythonSources
    (h : names ∈ Listing.pythonSources excluded listings) :
    ∃ name ∈ listings.map (·.1), ∃ more, names = name :: more := by
  induction listings with
  | nil =>
    rw [Listing.pythonSources] at h
    exact absurd h List.not_mem_nil
  | cons first rest ih =>
    rw [Listing.pythonSources, List.mem_append] at h
    rw [List.map_cons]
    rcases h with h | h
    · exact ⟨first.1, List.mem_cons_self, exists_tail_of_mem_sourcesOf h⟩
    · obtain ⟨name, hname, htail⟩ := ih h
      exact ⟨name, List.mem_cons_of_mem _ hname, htail⟩

/-- What is found in an entry and what is found in those behind it differ in the first name. -/
private theorem disjoint_sources (h : name ∉ listings.map (·.1)) :
    (Listing.sourcesOf excluded name listing).Disjoint
      (Listing.pythonSources excluded listings) := by
  intro names hfirst hrest
  obtain ⟨more, rfl⟩ := exists_tail_of_mem_sourcesOf hfirst
  obtain ⟨other, hother, _, heq⟩ := exists_tail_of_mem_pythonSources hrest
  rw [(List.cons.inj heq).1] at h
  exact h hother

mutual

/-- No names are found twice in a proper entry. -/
theorem nodup_sourcesOf : ∀ {entry : Entry} {listing : Listing}, Lists excluded entry listing →
    entry.IsProper → ∀ name, (Listing.sourcesOf excluded name listing).Nodup
  | _, _, .file, _, name => nodup_named name
  | _, _, .link, _, name => nodup_named name
  | _, .directory listings, .directory horder hlists, .directory hdistinct _ hentries, name => by
    rw [Listing.sourcesOf]
    split
    · exact .nil
    · have hinner := nodup_pythonSources hlists ((horder.map _).nodup hdistinct)
        fun entry hentry => hentries entry (horder.symm.subset hentry)
      exact hinner.map fun _ _ heq => (List.cons.inj heq).2

/-- **No names are found twice in a listing of proper entries with distinct names.** -/
theorem nodup_pythonSources : ∀ {entries : List (String × Entry)}
    {listings : List (String × Listing)}, ListsAll excluded entries listings →
    (entries.map (·.1)).Nodup → (∀ entry ∈ entries, entry.2.IsProper) →
      (Listing.pythonSources excluded listings).Nodup
  | _, _, .nil, _, _ => by
    rw [Listing.pythonSources]
    exact .nil
  | _, _, .cons hfirst hrest, hdistinct, hentries => by
    rw [List.map_cons, List.nodup_cons] at hdistinct
    rw [List.forall_mem_cons] at hentries
    have hrests := nodup_pythonSources hrest hdistinct.2 hentries.2
    -- Two that are equal would be found below the same name, and this is the only entry with it.
    rw [← hrest.map_fst] at hdistinct
    rw [Listing.pythonSources]
    exact (nodup_sourcesOf hfirst hentries.1 _).append hrests (disjoint_sources hdistinct.1)
  | _, _, .skip hskip hrest, hdistinct, hentries => by
    rw [List.map_cons, List.nodup_cons] at hdistinct
    rw [List.forall_mem_cons] at hentries
    rw [Listing.pythonSources, Listing.sourcesOf, if_pos (List.contains_iff_mem.mpr hskip)]
    exact nodup_pythonSources hrest hdistinct.2 hentries.2

end

/-- What is found in a directory, in whatever order it is listed, is what leads to a source. -/
theorem mem_pythonSources_of_lists
    (h : Lists excluded (.directory entries) (.directory listings)) (names : List String) :
    names ∈ Listing.pythonSources excluded listings ↔ Leads excluded entries names := by
  cases h with
  | directory horder hlists =>
    rw [mem_pythonSources_iff hlists names]
    exact ⟨fun h => h.mono horder.symm.subset, fun h => h.mono horder.subset⟩

theorem nodup_pythonSources_of_lists
    (h : Lists excluded (.directory entries) (.directory listings))
    (hproper : (Entry.directory entries).IsProper) :
    (Listing.pythonSources excluded listings).Nodup := by
  cases h with
  | directory horder hlists =>
    cases hproper with
    | directory hdistinct _ hentries =>
      exact nodup_pythonSources hlists ((horder.map _).nodup hdistinct)
        fun entry hentry => hentries entry (horder.symm.subset hentry)

/-- Two listings of a directory have the same sources in them. -/
theorem perm_pythonSources {others : List (String × Listing)}
    (h : Lists excluded (.directory entries) (.directory listings))
    (hothers : Lists excluded (.directory entries) (.directory others))
    (hproper : (Entry.directory entries).IsProper) :
    (Listing.pythonSources excluded listings).Perm (Listing.pythonSources excluded others) := by
  refine (List.perm_ext_iff_of_nodup (nodup_pythonSources_of_lists h hproper)
    (nodup_pythonSources_of_lists hothers hproper)).mpr fun names => ?_
  rw [mem_pythonSources_of_lists h, mem_pythonSources_of_lists hothers]

end FileTree

/-! ### Sorted names -/

section Sorting

variable {paths others : List (List String)}

/-- Sorted names follow one another: none comes before one in front of it. -/
private theorem pairwise_not_lex_sortNames (paths : List (List String)) :
    (sortNames paths).Pairwise fun names later => ¬ List.Lex (· < ·) later names := by
  have hlex : ∀ names later : List String,
      (!later.lex names) = true ↔ ¬ List.Lex (· < ·) later names := by
    intro names later
    rw [Bool.not_eq_true', ← Bool.not_eq_true, List.lex_eq_true_iff_lex]
    simp only [decide_eq_true_eq]
  have hsorted : (sortNames paths).Pairwise fun names later => (!later.lex names) = true := by
    refine List.pairwise_mergeSort (fun first second third h h' => ?_)
      (fun first second => ?_) paths
    · rw [hlex] at h h' ⊢
      intro hlt
      -- If the second is not the first, it comes after it, and so after the third as well.
      rcases eq_or_ne first second with rfl | hne
      · exact h' hlt
      · have hfirst : List.Lex (· < ·) first second :=
          by_contra fun hnot => hne (Std.Trichotomous.trichotomous first second hnot h)
        exact h' (List.lex_trans String.lt_trans hlt hfirst)
    · rw [Bool.or_eq_true, hlex, hlex]
      by_cases h : List.Lex (· < ·) second first
      · exact .inr (List.lex_asymm (Std.Asymm.asymm _ _) h)
      · exact .inl h
  exact hsorted.imp fun h => (hlex _ _).mp h

/-- **Distinct names ascend when they are sorted.** -/
theorem pairwise_sortNames (h : paths.Nodup) :
    (sortNames paths).Pairwise (List.Lex (· < ·)) := by
  have hdistinct : (sortNames paths).Nodup := (List.mergeSort_perm _ _).nodup_iff.mpr h
  refine ((pairwise_not_lex_sortNames paths).and hdistinct).imp ?_
  rintro names later ⟨hnot, hne⟩
  exact by_contra fun hlt => hne (Std.Trichotomous.trichotomous names later hlt hnot)

/-- The order of names does not matter when they are sorted. -/
theorem sortNames_eq_of_perm (h : paths.Perm others) : sortNames paths = sortNames others := by
  refine List.Perm.eq_of_pairwise (fun names later _ _ hnot hnot' => ?_)
    (pairwise_not_lex_sortNames paths) (pairwise_not_lex_sortNames others) ?_
  · exact Std.Trichotomous.trichotomous names later hnot' hnot
  · exact ((List.mergeSort_perm _ _).trans h).trans (List.mergeSort_perm _ _).symm

end Sorting

/-! ### The paths of a collection -/

/-- The names of a path below a root are those of the root and then those below it. -/
theorem names_pathBelow {names : List String} (h : ∀ name ∈ names, Path.IsName name)
    (root : String) : Path.names (pathBelow root names) = Path.names root ++ names := by
  induction names generalizing root with
  | nil => exact (List.append_nil _).symm
  | cons name names ih =>
    rw [List.forall_mem_cons] at h
    rw [pathBelow, List.foldl_cons, ← pathBelow, ih h.2, Path.names_join h.1, List.append_assoc]
    rfl

/-- Paths below one root ascend if the names behind those of the root do. -/
theorem pairwise_map_pathBelow {paths : List (List String)}
    (hsorted : paths.Pairwise (List.Lex (· < ·)))
    (hnames : ∀ names ∈ paths, ∀ name ∈ names, Path.IsName name) (root : String) :
    (paths.map (pathBelow root)).Pairwise
      (fun path later => List.Lex (· < ·) (Path.names path) (Path.names later)) := by
  rw [List.pairwise_map]
  refine hsorted.imp_of_mem fun {names later} hmem hlater hlex => ?_
  rw [names_pathBelow (hnames names hmem), names_pathBelow (hnames later hlater)]
  exact hlex.append_left _ _

theorem isExcluded_iff {excluded : List String} {root : String} :
    isExcluded excluded root = true ↔ ∃ last ∈ excluded, Path.lastName? root = some last := by
  rw [isExcluded]
  cases Path.lastName? root with
  | none => simp
  | some last => simp

private theorem sourcesBelow_of_isExcluded {excluded : List String} {root : String}
    (h : isExcluded excluded root = true) (listings : List (String × Listing)) :
    sourcesBelow excluded root (some (.directory listings)) = .ok [] := by
  rw [sourcesBelow, h]
  rfl

private theorem sourcesBelow_of_not_isExcluded {excluded : List String} {root : String}
    (h : isExcluded excluded root = false) (listings : List (String × Listing)) :
    sourcesBelow excluded root (some (.directory listings)) =
      .ok ((sortNames (Listing.pythonSources excluded listings)).map (pathBelow root)) := by
  rw [sourcesBelow, h]
  rfl

/-- What is collected depends on nothing but the listing of the root. -/
theorem FileAccess.collect_eq {m : Type → Type} [Monad m] [LawfulMonad m] {files : FileAccess m}
    {excluded : List String} {root : String} {listing : Option Listing}
    (h : files.listing? excluded root = pure listing) :
    files.collect excluded root = pure (sourcesBelow excluded root listing) := by
  rw [FileAccess.collect, h, pure_bind]

namespace FileTree

/-- **The collection below a directory gives the paths of all Python sources in it**, each once,
ascending by their names one by one: those of something other than a directory that is reached from
the root through directories, where no name on the way is excluded and the last is a stem with `.py`
or `.pyi` behind it. Below a root that is excluded itself there are none. In whatever order another
file system lists the same entries, what is collected is the same. The search always ends, as no
link below the root is followed, wherever it leads. -/
theorem collect_eq_sources {tree : FileTree} (htree : tree.top.IsProper) {root : String}
    {entries : List (String × Entry)} (hroot : tree.resolve? root = some (.directory entries))
    (excluded : List String) :
    ∃ paths : List String,
      tree.access.collect excluded root = .ok paths ∧
      paths.Pairwise (fun path later => List.Lex (· < ·) (Path.names path) (Path.names later)) ∧
      (∀ path, path ∈ paths ↔
        (∀ last, Path.lastName? root = some last → last ∉ excluded) ∧
          ∃ names, Leads excluded entries names ∧ path = pathBelow root names) ∧
      ∀ {m : Type → Type} [Monad m] [LawfulMonad m] (files : FileAccess m)
        (listings : List (String × Listing)),
        files.listing? excluded root = pure (some (.directory listings)) →
        isExcluded excluded root = true ∨
          Lists excluded (.directory entries) (.directory listings) →
        files.collect excluded root = pure (.ok paths) := by
  have hproper := isProper_of_resolve? htree hroot
  -- The tree is one of the file systems that have these entries.
  have hlists : Lists excluded (.directory entries) (.directory (Entry.listings entries)) :=
    lists_listing excluded (.directory entries)
  have hlisting : tree.access.listing? excluded root =
      pure (some (.directory (Entry.listings entries))) := by
    change (tree.resolve? root).map Entry.listing = _
    rw [hroot]
    rfl
  have hcollect : tree.access.collect excluded root = _ := FileAccess.collect_eq hlisting
  cases hexcluded : isExcluded excluded root with
  | true =>
    rw [sourcesBelow_of_isExcluded hexcluded] at hcollect
    refine ⟨[], hcollect, .nil, fun path => ?_, fun files listings h _ => ?_⟩
    · obtain ⟨last, hlast, hroot⟩ := isExcluded_iff.mp hexcluded
      exact ⟨fun h => absurd h List.not_mem_nil, fun h => absurd hlast (h.1 last hroot)⟩
    · rw [FileAccess.collect_eq h, sourcesBelow_of_isExcluded hexcluded]
  | false =>
    have hlast : ∀ last, Path.lastName? root = some last → last ∉ excluded := by
      intro last hroot hlast
      rw [isExcluded_iff.mpr ⟨last, hlast, hroot⟩] at hexcluded
      cases hexcluded
    rw [sourcesBelow_of_not_isExcluded hexcluded] at hcollect
    have hmem : ∀ names, names ∈ sortNames (Listing.pythonSources excluded
        (Entry.listings entries)) ↔ Leads excluded entries names := fun names =>
      List.mem_mergeSort.trans (mem_pythonSources_of_lists hlists names)
    refine ⟨_, hcollect, ?_, fun path => ?_, fun files listings h hothers => ?_⟩
    · have hsorted := pairwise_sortNames (nodup_pythonSources_of_lists hlists hproper)
      exact pairwise_map_pathBelow hsorted
        (fun names hnames => ((hmem names).mp hnames).isName hproper) root
    · rw [List.mem_map]
      constructor
      · rintro ⟨names, hnames, rfl⟩
        exact ⟨hlast, names, (hmem names).mp hnames, rfl⟩
      · rintro ⟨-, names, hleads, rfl⟩
        exact ⟨names, (hmem names).mpr hleads, rfl⟩
    · have hothers := hothers.resolve_left Bool.false_ne_true
      rw [FileAccess.collect_eq h, sourcesBelow_of_not_isExcluded hexcluded,
        sortNames_eq_of_perm (perm_pythonSources hothers hlists hproper)]

/-- The entries of a directory with a link to itself. -/
def looped : List (String × Entry) :=
  [("z.pyi", .file .empty), ("self", .link "../pkg"), ("a.py", .link "self/a.py"),
    (".py", .file .empty)]

/-- A tree with links that lead in circles, and a link to its sources. -/
def looping : FileTree where
  top := .directory
    [("code", .link "src"),
      ("src", .directory
        [("pkg.py", .file .empty), ("venv", .directory [("lib.py", .file .empty)]),
          ("pkg", .directory looped)])]

theorem collect_eq_sources_looping :
    looping.top.IsProper ∧ ∃ entries, looping.resolve? "code" = some (.directory entries) ∧
      ∃ paths, looping.access.collect ["venv"] "code" = .ok paths ∧ "code/pkg/a.py" ∈ paths := by
  have hlooped : (Entry.directory looped).IsProper :=
    .directory (by decide) (by decide) (List.forall_mem_cons.mpr ⟨.file, List.forall_mem_cons.mpr
      ⟨.link, List.forall_mem_cons.mpr ⟨.link, List.forall_mem_singleton.mpr .file⟩⟩⟩)
  have hexcluded : (Entry.directory [("lib.py", .file .empty)]).IsProper :=
    .directory (by decide) (by decide) (List.forall_mem_singleton.mpr .file)
  have hproper : looping.top.IsProper :=
    .directory (by decide) (by decide) (List.forall_mem_cons.mpr ⟨.link,
      List.forall_mem_singleton.mpr (.directory (by decide) (by decide) (List.forall_mem_cons.mpr
        ⟨.file, List.forall_mem_cons.mpr ⟨hexcluded, List.forall_mem_singleton.mpr hlooped⟩⟩))⟩)
  have hroot : looping.resolve? "code" = some (.directory _) := rfl
  obtain ⟨paths, hcollect, _, hmem, _⟩ := collect_eq_sources hproper hroot ["venv"]
  -- The link is taken for its name, wherever it leads.
  have hlink : ("a" ++ ".py", Entry.link "self/a.py") ∈ looped := .tail _ (.tail _ (.head _))
  have hsource : Leads ["venv"] looped ["a" ++ ".py"] :=
    .here hlink nofun (by decide) (.inl rfl)
  have hlast : ∀ last, Path.lastName? "code" = some last → last ∉ ["venv"] := by
    intro last hlast
    obtain rfl : "code" = last := Option.some_inj.mp hlast
    decide
  have hpath : "code/pkg/a.py" ∈ paths := by
    refine (hmem _).mpr ⟨hlast, ["pkg", "a" ++ ".py"], ?_, by decide⟩
    exact .inside (.tail _ (.tail _ (.head _))) (by decide) hsource
  exact ⟨hproper, _, hroot, paths, hcollect, hpath⟩

end FileTree

end SourceOutline
