import SourceOutline.Proofs.Outline.Keyword
import SourceOutline.Proofs.Position.Inside

/-!
# The search behind decorators, without a step that fails

The keyword of a decorated definition can also be looked for with slices of the text and a running
offset (`Outline.keywordOffset?`): cut the text behind the last decorator, find the line feed there,
cut behind it, and go through what is left line by line, adding up the bytes of the lines. Here
every step that could fail is checked, and gives nothing where it does: a cut inside a character or
past the end, a running offset at which the line that is looked at does not stand, and a line whose
code is longer than the line.

**Main result** (`Outline.keywordOffset_eq_search`): if the last decorator ends at a boundary of the
text, no step fails, and the search finds the offset that the outline takes: that of the first
character that is no blank on the first line that is **neither blank nor a comment**
(`Outline.IsPassedOver`), among the lines behind the first line feed; or where the definition
starts, if there is no such line or no line feed.
-/

namespace SourceOutline

namespace Text

/-! ### Cutting a text -/

/-- The text from a byte offset on, which must not be inside a character or past the end. -/
def sliceFrom? : (offset : Nat) → List Char → Option (List Char)
  | 0, text => some text
  | _ + 1, [] => none
  | offset + 1, c :: rest =>
    if c.utf8Size ≤ offset + 1 then sliceFrom? (offset + 1 - c.utf8Size) rest else none

/-- The number of bytes in front of the first character of a kind. -/
def find? (wanted : Char) : List Char → Option Nat
  | [] => none
  | c :: rest => if c = wanted then some 0 else (find? wanted rest).map (c.utf8Size + ·)

/-- The lines of a text that line feeds end, each with its own. Behind the last line feed there is a
line only if there is text. -/
def feedLines : List Char → List (List Char)
  | [] => []
  | c :: rest => if c = '\n' then [c] :: feedLines rest else consLine c (feedLines rest)

theorem sliceFrom?_width (front behind : List Char) :
    sliceFrom? (width front) (front ++ behind) = some behind := by
  induction front with
  | nil => rw [width_nil, List.nil_append, sliceFrom?]
  | cons c front ih =>
    have hc : 0 < c.utf8Size := Char.utf8Size_pos c
    obtain ⟨bytes, hbytes⟩ : ∃ bytes, width (c :: front) = bytes + 1 :=
      Nat.exists_eq_succ_of_ne_zero (by rw [width_cons]; omega)
    have hfits : c.utf8Size ≤ bytes + 1 := by
      rw [← hbytes, width_cons]
      exact Nat.le_add_right _ _
    have hleft : bytes + 1 - c.utf8Size = width front := by
      rw [← hbytes, width_cons, Nat.add_sub_cancel_left]
    rw [hbytes, List.cons_append, sliceFrom?, if_pos hfits, hleft, ih]

theorem find?_of_notMem {wanted : Char} {text : List Char} (h : wanted ∉ text) :
    find? wanted text = none := by
  induction text with
  | nil => rfl
  | cons c text ih =>
    rw [List.mem_cons, not_or] at h
    rw [find?, if_neg (Ne.symm h.1), ih h.2, Option.map_none]

theorem find?_append_cons {wanted : Char} {front : List Char} (h : wanted ∉ front)
    (behind : List Char) : find? wanted (front ++ wanted :: behind) = some (width front) := by
  induction front with
  | nil => rw [List.nil_append, find?, if_pos rfl, width_nil]
  | cons c front ih =>
    rw [List.mem_cons, not_or] at h
    rw [List.cons_append, find?, if_neg (Ne.symm h.1), ih h.2, Option.map_some, width_cons]

/-- What stands in front of the first line feed is the first line, with it. -/
theorem feedLines_append_cons {line : List Char} (h : '\n' ∉ line) (rest : List Char) :
    feedLines (line ++ '\n' :: rest) = (line ++ ['\n']) :: feedLines rest := by
  induction line with
  | nil => rw [List.nil_append, feedLines, if_pos rfl, List.nil_append]
  | cons c line ih =>
    rw [List.mem_cons, not_or] at h
    rw [List.cons_append, feedLines, if_neg (Ne.symm h.1), ih h.2, consLine, List.cons_append]

/-- A text without a line feed is one line, or none if it is empty. -/
theorem feedLines_of_notMem {line : List Char} (h : '\n' ∉ line) :
    feedLines line = if line = [] then [] else [line] := by
  induction line with
  | nil => rfl
  | cons c line ih =>
    rw [List.mem_cons, not_or] at h
    rw [feedLines, if_neg (Ne.symm h.1), ih h.2, if_neg (List.cons_ne_nil c line)]
    split
    next hnil => rw [consLine, hnil]
    next => rw [consLine]

end Text

namespace Outline

open Text

/-! ### Steps that are checked -/

/-- Goes through lines up to the first that has code, with the offset that each should be at. -/
def searchLines? (text : List Char) (start : Nat) : (offset : Nat) → (lines : List (List Char)) →
    Option Nat
  | _, [] => some start
  | offset, line :: lines => do
    let rest ← sliceFrom? offset text
    if line.isPrefixOf rest then
      let code := trimStart line
      if !(trimEnd code).isEmpty && code.head? != some '#' then
        if width code ≤ width line then some (offset + (width line - width code)) else none
      else searchLines? text start (offset + width line) lines
    else none

/-- Where a definition is placed, if no step of the search for it fails. -/
def keywordOffset? (text : List Char) (start : Nat) (decorators : List Span) : Option Nat :=
  match decorators.getLast? with
  | none => some start
  | some last => do
    let behind ← sliceFrom? last.stop text
    match find? '\n' behind with
    | none => some start
    | some feed =>
      let offset := last.stop + (feed + 1)
      let rest ← sliceFrom? offset text
      searchLines? text start offset (feedLines rest)

variable {text : List Char} {start : Nat}

/-- A line that stands at the offset decides if it has code. -/
private theorem searchLines?_of_code {front line behind : List Char}
    (htext : text = front ++ (line ++ behind)) (hcode : isCodeLine line = true)
    (lines : List (List Char)) :
    searchLines? text start (width front) (line :: lines) =
      some (codeOffset (width front) line) := by
  obtain ⟨blanks, c, rest, rfl, hblanks, hc⟩ := isCodeLine_iff.mp hcode
  have hprefix : (blanks ++ c :: rest).isPrefixOf (blanks ++ c :: rest ++ behind) = true :=
    List.isPrefixOf_iff_prefix.mpr (List.prefix_append _ _)
  have hle : width (trimStart (blanks ++ c :: rest)) ≤ width (blanks ++ c :: rest) := by
    rw [trimStart_append_cons hblanks hc.1, width_append]
    exact Nat.le_add_left _ _
  rw [isCodeLine] at hcode
  simp only [searchLines?, htext, sliceFrom?_width, Option.bind_eq_bind, Option.bind_some, hprefix,
    if_true, hcode, if_pos hle]
  rfl

/-- A line that stands at the offset is passed over if it has no code, and the next one stands
behind it. -/
private theorem searchLines?_of_not_code {front line behind : List Char}
    (htext : text = front ++ (line ++ behind)) (hcode : isCodeLine line = false)
    (lines : List (List Char)) :
    searchLines? text start (width front) (line :: lines) =
      searchLines? text start (width (front ++ line)) lines := by
  have hprefix : line.isPrefixOf (line ++ behind) = true :=
    List.isPrefixOf_iff_prefix.mpr (List.prefix_append _ _)
  rw [isCodeLine] at hcode
  simp only [searchLines?, htext, sliceFrom?_width, Option.bind_eq_bind, Option.bind_some, hprefix,
    if_true, hcode, Bool.false_eq_true, if_false, width_append]

/-- **The lines are where the running offset says**, and the search through them finds the first
code. -/
theorem searchLines?_feedLines {front rest : List Char} (htext : text = front ++ rest) :
    searchLines? text start (width front) (feedLines rest) =
      some ((firstCode? (width front) [] rest).getD start) := by
  induction rest using alongSearch generalizing front with
  | code line rest hline hcode hrest =>
    rw [firstCode?_of_code hline hcode hrest, Option.getD_some]
    rcases hrest with rfl | ⟨behind, rfl⟩
    · have hne : line ≠ [] := by
        rintro rfl
        exact absurd hcode (by decide)
      rw [List.append_nil, feedLines_of_notMem hline, if_neg hne]
      exact searchLines?_of_code htext hcode []
    · have hcode' : isCodeLine (line ++ ['\n']) = true := by
        rw [isCodeLine_append_lineFeed, hcode]
      have hoffset : codeOffset (width front) (line ++ ['\n']) = codeOffset (width front) line := by
        obtain ⟨blanks, c, more, rfl, hblanks, hc⟩ := isCodeLine_iff.mp hcode
        rw [List.append_assoc, List.cons_append, codeOffset_append_cons _ hblanks hc.1,
          codeOffset_append_cons _ hblanks hc.1]
      rw [feedLines_append_cons hline, ← hoffset]
      have htext' : text = front ++ (line ++ ['\n'] ++ behind) := by
        rw [htext, List.append_assoc line, List.singleton_append]
      exact searchLines?_of_code htext' hcode' _
  | last line hline hcode =>
    rw [firstCode?_lastLine hline hcode, Option.getD_none, feedLines_of_notMem hline]
    split
    · rfl
    · rw [← List.append_nil line] at htext
      exact searchLines?_of_not_code htext hcode []
  | next line rest hline hcode ih =>
    have hcode' : isCodeLine (line ++ ['\n']) = false := by
      rw [isCodeLine_append_lineFeed, hcode]
    have htext' : text = front ++ (line ++ ['\n'] ++ rest) := by
      rw [htext, List.append_assoc line, List.singleton_append]
    rw [feedLines_append_cons hline, searchLines?_of_not_code htext' hcode',
      ih (by rw [htext', List.append_assoc front]), firstCode?_of_not_code hline hcode,
      ← width_append]

/-! ### Which line is found -/

/-- The lines that the search passes over: those that hold nothing but blanks, and those on which
blanks lead to a comment. -/
inductive IsPassedOver : List Char → Prop
  | blank {line : List Char} (h : ∀ c ∈ line, isBlank c = true) : IsPassedOver line
  | comment {blanks : List Char} (h : ∀ c ∈ blanks, isBlank c = true) (comment : List Char) :
    IsPassedOver (blanks ++ '#' :: comment)

theorem isPassedOver_iff {line : List Char} : IsPassedOver line ↔ isCodeLine line = false := by
  constructor
  · rintro (h | ⟨h, comment⟩)
    · exact isCodeLine_of_allBlank (List.all_eq_true.mpr h)
    · rw [isCodeLine_append_cons (List.all_eq_true.mpr h) (by decide)]
      rfl
  · intro h
    rcases allBlank_or_exists line with hblank | ⟨blanks, c, rest, rfl, hblanks, hc⟩
    · exact .blank (List.all_eq_true.mp hblank)
    · rw [isCodeLine_append_cons hblanks hc, bne_eq_false_iff_eq] at h
      subst h
      exact .comment (List.all_eq_true.mp hblanks) rest

/-- The search through lines passes over all of them, or over those in front of the one that has
the code. -/
theorem firstCode?_cases (offset : Nat) (rest : List Char) :
    ((∀ line ∈ feedLines rest, IsPassedOver line) ∧ firstCode? offset [] rest = none) ∨
      ∃ passed blanks c code others,
        feedLines rest = passed ++ (blanks ++ c :: code) :: others ∧
          (∀ line ∈ passed, IsPassedOver line) ∧ (∀ b ∈ blanks, isBlank b = true) ∧
          isBlank c = false ∧ c ≠ '#' ∧
          firstCode? offset [] rest = some (offset + width (passed.flatten ++ blanks)) := by
  induction rest using alongSearch generalizing offset with
  | code line rest hline hcode hrest =>
    have hfirst := firstCode?_of_code hline hcode hrest offset
    obtain ⟨blanks, c, code, rfl, hblanks, hc⟩ := isCodeLine_iff.mp hcode
    rw [codeOffset_append_cons offset hblanks hc.1] at hfirst
    have hall := List.all_eq_true.mp hblanks
    rcases hrest with rfl | ⟨behind, rfl⟩
    · refine .inr ⟨[], blanks, c, code, [], ?_, nofun, hall, hc.1, hc.2, hfirst⟩
      rw [List.append_nil, feedLines_of_notMem hline, if_neg (by simp), List.nil_append]
    · refine .inr ⟨[], blanks, c, code ++ ['\n'], feedLines behind, ?_, nofun, hall, hc.1, hc.2,
        hfirst⟩
      rw [feedLines_append_cons hline, List.append_assoc, List.cons_append, List.nil_append]
  | last line hline hcode =>
    refine .inl ⟨?_, firstCode?_lastLine hline hcode offset⟩
    rw [feedLines_of_notMem hline]
    split
    · exact nofun
    · exact List.forall_mem_singleton.mpr (isPassedOver_iff.mpr hcode)
  | next line rest hline hcode ih =>
    have hline' : IsPassedOver (line ++ ['\n']) :=
      isPassedOver_iff.mpr (by rw [isCodeLine_append_lineFeed, hcode])
    rw [feedLines_append_cons hline, firstCode?_of_not_code hline hcode]
    rcases ih (offset + width (line ++ ['\n'])) with
      ⟨hall, hnone⟩ | ⟨passed, blanks, c, code, others, hlines, hpassed, hblanks, hc, hhash, hsome⟩
    · exact .inl ⟨List.forall_mem_cons.mpr ⟨hline', hall⟩, hnone⟩
    · refine .inr ⟨(line ++ ['\n']) :: passed, blanks, c, code, others, by rw [hlines]; rfl,
        List.forall_mem_cons.mpr ⟨hline', hpassed⟩, hblanks, hc, hhash, ?_⟩
      rw [hsome, List.flatten_cons, List.append_assoc (line ++ ['\n']),
        width_append (line ++ ['\n']), Nat.add_assoc]

/-- **The search behind decorators does not fail, and finds the first code.** Let `front` be the
text up to the end of the last decorator. No cut of the text is inside a character, and each line
that is looked at stands at the running offset. If no line feed is behind the decorator, or only
lines that are passed over are behind the first one, the offset found is that of the definition's
start. Otherwise it is the offset of a character that is neither a blank nor begins a comment, with
blanks in front of it on its line, and in front of this line, up to the first line feed, only lines
that are passed over. -/
theorem keywordOffset_eq_search {decorators : List Span} {last : Span}
    (hlast : decorators.getLast? = some last) (hstop : IsBoundary text last.stop) (start : Nat) :
    let found := keywordOffset text start decorators
    keywordOffset? text start decorators = some found ∧
      ∃ front behind, text = front ++ behind ∧ width front = last.stop ∧
        ('\n' ∉ behind ∧ found = start ∨
          ∃ line rest, behind = line ++ '\n' :: rest ∧ '\n' ∉ line ∧
            ((∀ line ∈ feedLines rest, IsPassedOver line) ∧ found = start ∨
              ∃ passed blanks c code others,
                feedLines rest = passed ++ (blanks ++ c :: code) :: others ∧
                  (∀ line ∈ passed, IsPassedOver line) ∧ (∀ b ∈ blanks, isBlank b = true) ∧
                  isBlank c = false ∧ c ≠ '#' ∧
                  found = width (front ++ line ++ ['\n'] ++ passed.flatten ++ blanks))) := by
  intro found
  obtain ⟨front, behind, rfl, hfront⟩ := hstop
  rcases keywordOffset_append hlast hfront.symm behind start with
    ⟨hnone, hoffset⟩ | ⟨line, rest, rfl, hline, hoffset⟩
  · refine ⟨?_, front, behind, rfl, hfront, .inl ⟨hnone, hoffset⟩⟩
    simp only [keywordOffset?, hlast, ← hfront, sliceFrom?_width, Option.bind_eq_bind,
      Option.bind_some, find?_of_notMem hnone]
    rw [← hoffset]
  · have htext : front ++ (line ++ '\n' :: rest) = front ++ line ++ ['\n'] ++ rest := by
      simp only [List.append_assoc, List.singleton_append]
    have hrest : last.stop + (width line + 1) = width (front ++ line ++ ['\n']) := by
      rw [← hfront, width_append, width_append, Nat.add_assoc]
      rfl
    constructor
    · have hsearch : searchLines? _ start _ (feedLines rest) = _ := searchLines?_feedLines htext
      have hslice := sliceFrom?_width (front ++ line ++ ['\n']) rest
      rw [← htext] at hslice
      simp only [keywordOffset?, hlast, ← hfront, sliceFrom?_width, Option.bind_eq_bind,
        Option.bind_some, find?_append_cons hline]
      rw [hfront, hrest, hslice, Option.bind_some, hsearch, ← hoffset]
    · refine ⟨front, _, rfl, hfront, .inr ⟨line, rest, rfl, hline, ?_⟩⟩
      rcases firstCode?_cases (width (front ++ line ++ ['\n'])) rest with
        ⟨hall, hnone⟩ |
          ⟨passed, blanks, c, code, others, hlines, hpassed, hblanks, hc, hhash, hsome⟩
      · rw [hnone, Option.getD_none] at hoffset
        exact .inl ⟨hall, hoffset⟩
      · rw [hsome, Option.getD_some, ← width_append,
          ← List.append_assoc (front ++ line ++ ['\n'])] at hoffset
        exact .inr ⟨passed, blanks, c, code, others, hlines, hpassed, hblanks, hc, hhash, hoffset⟩

/-- Behind the line of a decorator come a line with a blank of two bytes and a comment, and then a
blank of three bytes and the keyword. -/
theorem keywordOffset_eq_search_wideBlanks :
    let text := "@é # x\r\n\u00a0\n\t# note\n\u3000class A: pass".toList
    let decorators : List Span := [⟨1, 3⟩]
    decorators.getLast? = some ⟨1, 3⟩ ∧ IsBoundary text 3 ∧
      keywordOffset? text 0 decorators = some (keywordOffset text 0 decorators) ∧
      keywordOffset text 0 decorators = 23 := by
  intro text decorators
  have hstop : IsBoundary text 3 :=
    ⟨"@é".toList, " # x\r\n\u00a0\n\t# note\n\u3000class A: pass".toList, by decide, by decide⟩
  have hlast : decorators.getLast? = some ⟨1, 3⟩ := rfl
  exact ⟨hlast, hstop, (keywordOffset_eq_search hlast hstop 0).1, by decide⟩

end Outline

end SourceOutline
