/-!
# Splitting text

`split` cuts a text at a separator. A text without one is its only part (`split_of_notMem`), and a
separator between two texts makes the parts of the one those in front of the parts of the other
(`split_append`).
-/

namespace SourceOutline.Text

/-- The parts of a text between separators. There is one more than there are separators. -/
def split (separator : Char) : List Char → List (List Char)
  | [] => [[]]
  | c :: rest =>
    match split separator rest with
    | [] => [[c]]
    | part :: parts => if c = separator then [] :: part :: parts else (c :: part) :: parts

/-- There is always a part. -/
theorem split_ne_nil (separator : Char) (text : List Char) : split separator text ≠ [] := by
  cases text with
  | nil => simp [split]
  | cons c rest =>
    simp only [split]
    split
    · simp
    · split <;> simp

variable {separator : Char}

/-- A text without the separator is its only part. -/
theorem split_of_notMem {text : List Char} (h : separator ∉ text) :
    split separator text = [text] := by
  induction text with
  | nil => rfl
  | cons c text ih =>
    rw [List.mem_cons, not_or] at h
    rw [split, ih h.2]
    exact if_neg (Ne.symm h.1)

/-- The part in front of the first separator is the first part. -/
theorem split_append_cons {part : List Char} (h : separator ∉ part)
    (text : List Char) :
    split separator (part ++ separator :: text) = part :: split separator text := by
  induction part with
  | nil =>
    rw [List.nil_append, split]
    split
    · next hnil => exact absurd hnil (split_ne_nil _ _)
    · next first others hsplit => rw [if_pos rfl, hsplit]
  | cons c part ih =>
    rw [List.mem_cons, not_or] at h
    rw [List.cons_append, split, ih h.2]
    exact if_neg (Ne.symm h.1)

/-- The parts of two texts with a separator between them are those of the one and of the other. -/
theorem split_append (front behind : List Char) :
    split separator (front ++ separator :: behind) =
      split separator front ++ split separator behind := by
  induction front with
  | nil => exact split_append_cons List.not_mem_nil behind
  | cons c front ih =>
    rw [List.cons_append, split, split, ih]
    -- There is a first part of the front, and what `c` does to it is the same on both sides.
    cases hparts : split separator front with
    | nil => exact absurd hparts (split_ne_nil _ _)
    | cons part parts =>
      by_cases hc : c = separator
      · simp only [List.cons_append, if_pos hc]
      · simp only [List.cons_append, if_neg hc]

end SourceOutline.Text
