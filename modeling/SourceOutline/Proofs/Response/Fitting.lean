import SourceOutline.Proofs.Analysis.Agreement
import SourceOutline.Proofs.Report.Filing
import SourceOutline.Proofs.Response.RoundTrip

/-!
# Responses about a text fit

All numbers in what is said about a text are lines and columns of it, so they are at most one beyond
its length. **Main result** (`fits_of_concur`): where the length is below the largest number of 64
bits, which it is for every text in the memory of a machine, the responses about the text fit, and
are read back as they were written.
-/

namespace SourceOutline

open Json

/-! ### Reports -/

namespace Report

theorem fits_empty : ({} : Report).Fits := by
  intro category entry hentry
  cases category <;> exact absurd hentry List.not_mem_nil

theorem Fits.append {front back : Report} (hfront : front.Fits) (hback : back.Fits) :
    (front ++ back).Fits := by
  intro category entry hentry
  rw [entries_append, List.mem_append] at hentry
  exact hentry.elim (hfront category entry) (hback category entry)

/-- What one construct adds is told on its own line. -/
theorem line_of_mem_ofKind {line : Nat} {kind : Node.Kind} {category : Category} {entry : Entry}
    (h : entry ∈ (ofKind line kind).entries category) : entry.line = line := by
  cases kind with
  | assign targets =>
    rw [ofKind, ofAssignment] at h
    split at h
    · cases category <;> exact absurd h List.not_mem_nil
    · cases category <;> simp_all [entries, Entry.line]
  | _ => cases category <;> simp_all [ofKind, entries, Entry.line]

theorem fits_ofNodes {nodes : List Node} (h : ∀ node ∈ nodes, node.position.line ≤ maxWhole) :
    (ofNodes nodes).Fits := by
  induction nodes with
  | nil => exact fits_empty
  | cons node rest ih =>
    rw [List.forall_mem_cons] at h
    rw [ofNodes_cons, ofEntries_classify]
    refine Fits.append (fun category entry hentry => ?_) (ih h.2)
    rw [line_of_mem_ofKind hentry]
    exact h.1

end Report

/-! ### Responses -/

/-- **The responses about a text fit** if it is not longer than the numbers go. -/
theorem fits_of_concur [CharacterNames] {text : List Char} {analysis : AnalysisResponse}
    {validation : ValidationResponse} (h : Concur text analysis validation)
    (hlength : text.length < maxWhole) : analysis.Fits ∧ validation.Fits := by
  have hbound : ∀ {position : Position}, position.IsIn text →
      position.line ≤ maxWhole ∧ position.column ≤ maxWhole := by
    intro position hposition
    have hle := hposition.le_length
    omega
  cases h with
  | program _ hnodes =>
    refine ⟨?_, nofun⟩
    rw [AnalysisResponse.Fits, Report.ofTree_eq_ofNodes]
    exact Report.fits_ofNodes fun node hnode => (hbound (hnodes node hnode)).1
  | error hposition =>
    have hle := hbound hposition
    have hnumbers : (∀ n ∈ some _, n ≤ maxWhole) ∧ ∀ n ∈ some _, n ≤ maxWhole :=
      ⟨fun n hn => Option.mem_some.mp hn ▸ hle.1, fun n hn => Option.mem_some.mp hn ▸ hle.2⟩
    refine ⟨hnumbers, fun error herror => ?_⟩
    obtain rfl := Option.mem_some.mp herror
    exact hnumbers

end SourceOutline
