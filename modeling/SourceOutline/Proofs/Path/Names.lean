import Mathlib.Data.List.TakeWhile
import SourceOutline.Path
import SourceOutline.Text.Split

/-!
# Names in paths

A name in a directory (`Path.IsName`) is one segment of a path, and one that leads somewhere. So a
name that is put behind a path stands as it is behind the names of the path (`names_join`).

A name is one for Python source exactly if it is a stem, which is not empty, with `.py` or `.pyi`
behind it (`isPythonName_iff`). That stem may have points in it, at its front and its end as well.
-/

namespace SourceOutline.Path

/-- The names that something in a directory can have. -/
structure IsName (name : String) : Prop where
  ne_empty : name ≠ ""
  ne_here : name ≠ "."
  ne_up : name ≠ ".."
  noSlash : '/' ∉ name.toList

instance (name : String) : Decidable (IsName name) :=
  decidable_of_iff (name ≠ "" ∧ name ≠ "." ∧ name ≠ ".." ∧ '/' ∉ name.toList)
    ⟨fun ⟨hempty, hhere, hup, hslash⟩ => ⟨hempty, hhere, hup, hslash⟩,
      fun ⟨hempty, hhere, hup, hslash⟩ => ⟨hempty, hhere, hup, hslash⟩⟩

variable {name directory : String}

theorem IsName.staysHere (h : IsName name) : staysHere name = false := by
  rw [Path.staysHere, Bool.or_eq_false_iff, beq_eq_false_iff_ne, beq_eq_false_iff_ne]
  exact ⟨h.ne_empty, h.ne_here⟩

/-! ### Joined paths -/

/-- What stands in front of a slash and what stands behind it are segments of their own. -/
theorem segments_of_slash {path front behind : String} (h : path = front ++ "/" ++ behind) :
    segments path = segments front ++ segments behind := by
  have htext : path.toList = front.toList ++ '/' :: behind.toList := by
    rw [h, String.toList_append, String.toList_append, List.append_assoc]
    rfl
  rw [segments, htext, Text.split_append, List.map_append, segments, segments]

theorem segments_of_isName (h : IsName name) : segments name = [name] := by
  rw [segments, Text.split_of_notMem h.noSlash, List.map_singleton, String.ofList_toList]

/-- What stands behind the last slash of a path that ends with it is empty. -/
private theorem exists_of_endsWithSlash (h : directory.toList.getLast? = some '/') :
    ∃ front, directory = front ++ "/" := by
  obtain ⟨front, hfront⟩ := List.getLast?_eq_some_iff.mp h
  refine ⟨String.ofList front, String.toList_inj.mp ?_⟩
  rw [hfront, String.toList_append, String.toList_ofList]
  rfl

theorem names_of_slash {path front behind : String} (h : path = front ++ "/" ++ behind) :
    names path = names front ++ names behind := by
  rw [names, segments_of_slash h, List.filter_append]
  rfl

theorem names_of_isName (h : IsName name) : names name = [name] := by
  have hstays : (!staysHere name) = true := by rw [h.staysHere]; rfl
  rw [names, segments_of_isName h]
  exact List.filter_cons_of_pos hstays

/-- **A name that is joined to a path stands behind the names of the path.** -/
theorem names_join (h : IsName name) (directory : String) :
    names (join directory name) = names directory ++ [name] := by
  unfold join
  split
  · next hend =>
    rw [Bool.or_eq_true, decide_eq_true_eq, beq_iff_eq] at hend
    rcases hend with rfl | hend
    · rw [String.empty_append, names_of_isName h]
      rfl
    · -- The segment behind the last slash is empty, so nothing is lost when the name takes its
      -- place.
      obtain ⟨front, rfl⟩ := exists_of_endsWithSlash hend
      have hdirectory : names (front ++ "/") = names front ++ names "" :=
        names_of_slash String.append_empty.symm
      have hempty : names "" = [] := rfl
      calc names (front ++ "/" ++ name)
          = names front ++ names name := names_of_slash rfl
        _ = names front ++ [name] := by rw [names_of_isName h]
        _ = names (front ++ "/") ++ [name] := by rw [hdirectory, hempty, List.append_nil]
  · calc names (directory ++ "/" ++ name)
        = names directory ++ names name := names_of_slash rfl
      _ = names directory ++ [name] := by rw [names_of_isName h]

/-! ### Names for Python source -/

/-- What stands behind the last point of a name is its extension, if something stands before it. -/
theorem extension?_of_point {stem extension : List Char} (hextension : '.' ∉ extension)
    (h : name.toList = stem ++ '.' :: extension) :
    extension? name = if stem = [] then none else some (String.ofList extension) := by
  have hreverse : name.toList.reverse = extension.reverse ++ '.' :: stem.reverse := by
    rw [h, List.reverse_append, List.reverse_cons, List.append_assoc]
    rfl
  have hfront : ∀ c ∈ extension.reverse, (c != '.') = true :=
    fun c hc => bne_iff_ne.mpr fun heq => hextension (heq ▸ List.mem_reverse.mp hc)
  have hdrop : name.toList.reverse.dropWhile (· != '.') = '.' :: stem.reverse := by
    rw [hreverse, List.dropWhile_append_of_pos hfront]
    rfl
  have htake : name.toList.reverse.takeWhile (· != '.') = extension.reverse := by
    rw [hreverse, List.takeWhile_append_of_pos hfront]
    exact List.append_nil _
  cases hstem : stem.reverse with
  | nil =>
    rw [hstem] at hdrop
    simp only [extension?, hdrop]
    rw [if_pos (List.reverse_eq_nil_iff.mp hstem)]
  | cons c rest =>
    have hne : stem ≠ [] := fun hnil => by simp [hnil] at hstem
    rw [hstem] at hdrop
    simp only [extension?, hdrop]
    rw [htake, List.reverse_reverse, if_neg hne]

/-- A name without a point has no extension. -/
theorem extension?_of_notMem (h : '.' ∉ name.toList) : extension? name = none := by
  have hdrop : name.toList.reverse.dropWhile (· != '.') = [] :=
    List.dropWhile_eq_nil_iff.mpr fun c hc =>
      bne_iff_ne.mpr fun heq => h (heq ▸ List.mem_reverse.mp hc)
  simp only [extension?, hdrop]

/-- What stands around the last point of a name. -/
private theorem exists_lastPoint (h : '.' ∈ name.toList) :
    ∃ stem extension, '.' ∉ extension ∧ name.toList = stem ++ '.' :: extension := by
  obtain ⟨front, behind, hreverse, hfront⟩ :=
    List.eq_append_cons_of_mem (List.mem_reverse.mpr h)
  refine ⟨behind.reverse, front.reverse, fun hmem => hfront (List.mem_reverse.mp hmem), ?_⟩
  rw [← List.reverse_reverse name.toList, hreverse, List.reverse_append, List.reverse_cons,
    List.append_assoc]
  rfl

/-- **A name is one for Python source if it is a stem with `.py` or `.pyi` behind it.** -/
theorem isPythonName_iff :
    isPythonName name = true ↔
      ∃ stem suffix, stem ≠ "" ∧ (suffix = ".py" ∨ suffix = ".pyi") ∧ name = stem ++ suffix := by
  constructor
  · intro h
    by_cases hpoint : '.' ∈ name.toList
    · obtain ⟨stem, extension, hextension, hname⟩ := exists_lastPoint hpoint
      rw [isPythonName, extension?_of_point hextension hname] at h
      split at h
      · next found hfound =>
        split at hfound
        · cases hfound
        next hstem =>
        obtain rfl := Option.some_inj.mp hfound
        refine ⟨String.ofList stem, "." ++ String.ofList extension, ?_, ?_, ?_⟩
        · intro hempty
          exact hstem (by simpa using congrArg String.toList hempty)
        · have hmem := List.contains_iff_mem.mp h
          simp only [pythonExtensions, List.mem_cons, List.not_mem_nil, or_false] at hmem
          rcases hmem with hmem | hmem <;> simp [hmem]
        · refine String.toList_inj.mp ?_
          simp [hname]
      · cases h
    · rw [isPythonName, extension?_of_notMem hpoint] at h
      cases h
  · rintro ⟨stem, suffix, hstem, hsuffix, rfl⟩
    have hne : stem.toList ≠ [] := fun hnil => hstem (String.toList_inj.mp hnil)
    -- Both suffixes are a point and an extension without one.
    rcases hsuffix with rfl | rfl
    · have hname : (stem ++ ".py").toList = stem.toList ++ '.' :: "py".toList := by
        simp
      rw [isPythonName, extension?_of_point (by decide) hname, if_neg hne]
      rfl
    · have hname : (stem ++ ".pyi").toList = stem.toList ++ '.' :: "pyi".toList := by
        simp
      rw [isPythonName, extension?_of_point (by decide) hname, if_neg hne]
      rfl

end SourceOutline.Path
