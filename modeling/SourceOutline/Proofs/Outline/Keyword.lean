import SourceOutline.Outline
import SourceOutline.Proofs.Position.Lines
import SourceOutline.Text.Split

/-!
# Where the text shows the keyword of a decorated definition

The keyword is looked for line by line, behind the first line feed after the last decorator. A text
read that way falls into a **margin** of lines without code and of the blanks in front of the first
code (`Outline.IsMargin`), and what comes behind. The search finds a character exactly if a margin
leads to it and it is code (`firstCode?_margin`, `exists_margin_of_firstCode?`), and it finds
nothing exactly if no line has code (`firstCode?_eq_none_iff`); the latter two by induction along
the search, from line to line (`alongSearch`).

**Main result** (`keywordOffset_eq_iff`): let `gap` be the text between the end of the last
decorator and the keyword, and `code` the text from the keyword on. The offset found is that of the
keyword if and only if either the gap is a line feed's line and then a margin, or no line behind the
first line feed has code at all, in which case the search falls back on where the definition starts
(`Outline.ShowsKeyword`). Whatever the gap is, the search does not go past the keyword if a line
feed is in front of it and no comment leads to it (`keywordOffset_le`).
-/

namespace SourceOutline

namespace Text

/-- What can follow a line: nothing, or its line feed and a text. -/
def EndsLine (text : List Char) : Prop :=
  text = [] ∨ ∃ behind, text = '\n' :: behind

/-- Every text begins with a line. -/
theorem exists_line (text : List Char) :
    ∃ line rest, text = line ++ rest ∧ '\n' ∉ line ∧ EndsLine rest := by
  by_cases h : '\n' ∈ text
  · obtain ⟨line, behind, htext, hline⟩ := List.eq_append_cons_of_mem h
    exact ⟨line, '\n' :: behind, htext, hline, .inr ⟨behind, rfl⟩⟩
  · exact ⟨text, [], (List.append_nil text).symm, h, .inl rfl⟩

/-- What stands in front of the first line feed is determined. -/
theorem line_unique {line line' rest rest' : List Char} (hline : '\n' ∉ line)
    (hline' : '\n' ∉ line') (h : line ++ '\n' :: rest = line' ++ '\n' :: rest') :
    line = line' ∧ rest = rest' := by
  have hsplit := congrArg (split '\n') h
  rw [split_append_cons hline, split_append_cons hline', List.cons.injEq] at hsplit
  obtain rfl := hsplit.1
  exact ⟨rfl, (List.cons.inj (List.append_cancel_left h)).2⟩

/-- A line is blank, or blanks lead to its first other character. -/
theorem allBlank_or_exists (line : List Char) :
    allBlank line = true ∨ ∃ blanks c rest, line = blanks ++ c :: rest ∧
      allBlank blanks = true ∧ isBlank c = false := by
  have hsplit : line.takeWhile isBlank ++ trimStart line = line := List.takeWhile_append_dropWhile
  cases hcode : trimStart line with
  | nil => exact .inl (trimStart_eq_nil_iff.mp hcode)
  | cons c rest =>
    have hc := List.head?_dropWhile_not isBlank line
    rw [← trimStart, hcode] at hc
    refine .inr ⟨line.takeWhile isBlank, c, rest, by rw [← hcode, hsplit], List.all_takeWhile, ?_⟩
    simpa using hc

end Text

namespace Outline

open Text

/-! ### Lines with code -/

theorem isCodeLine_of_allBlank {line : List Char} (h : allBlank line = true) :
    isCodeLine line = false := by
  rw [isCodeLine, trimStart_eq_nil_iff.mpr h]
  rfl

/-- Behind its blanks a line goes on with code unless a comment begins there. -/
theorem isCodeLine_append_cons {blanks rest : List Char} {c : Char}
    (hblanks : allBlank blanks = true) (hc : isBlank c = false) :
    isCodeLine (blanks ++ c :: rest) = (c != '#') := by
  have hend : (trimEnd (c :: rest)).isEmpty = false := by
    rw [List.isEmpty_eq_false_iff, Ne, trimEnd_eq_nil_iff, allBlank, List.all_cons, hc]
    exact Bool.false_ne_true
  rw [isCodeLine, trimStart_append_cons hblanks hc, hend, Bool.eq_iff_iff]
  simp

/-- Whether a line can have its code begin with the character. -/
def BeginsCode (c : Char) : Prop :=
  isBlank c = false ∧ c ≠ '#'

/-- A line has code if blanks lead to a character that code begins with. -/
theorem isCodeLine_iff {line : List Char} :
    isCodeLine line = true ↔
      ∃ blanks c rest, line = blanks ++ c :: rest ∧ allBlank blanks = true ∧ BeginsCode c := by
  constructor
  · intro h
    rcases allBlank_or_exists line with hblank | ⟨blanks, c, rest, hline, hblanks, hc⟩
    · rw [isCodeLine_of_allBlank hblank] at h
      exact absurd h Bool.false_ne_true
    · rw [hline, isCodeLine_append_cons hblanks hc, bne_iff_ne] at h
      exact ⟨blanks, c, rest, hline, hblanks, hc, h⟩
  · rintro ⟨blanks, c, rest, rfl, hblanks, hc, hhash⟩
    rw [isCodeLine_append_cons hblanks hc, bne_iff_ne]
    exact hhash

/-- The code of a line is found behind its blanks. -/
theorem codeOffset_append_cons {blanks rest : List Char} {c : Char} (offset : Nat)
    (hblanks : allBlank blanks = true) (hc : isBlank c = false) :
    codeOffset offset (blanks ++ c :: rest) = offset + width blanks := by
  rw [codeOffset, trimStart_append_cons hblanks hc, width_append, Nat.add_sub_cancel]

/-- A blank at its end does not make a line one with code, or one without. -/
theorem isCodeLine_append_blank {blank : Char} (h : isBlank blank = true) (line : List Char) :
    isCodeLine (line ++ [blank]) = isCodeLine line := by
  rcases allBlank_or_exists line with hblank | ⟨blanks, c, rest, rfl, hblanks, hc⟩
  · have hall : allBlank (line ++ [blank]) = true := by
      rw [allBlank, List.all_append, ← allBlank, hblank, List.all_cons, h]
      rfl
    rw [isCodeLine_of_allBlank hblank, isCodeLine_of_allBlank hall]
  · rw [List.append_assoc, List.cons_append, isCodeLine_append_cons hblanks hc,
      isCodeLine_append_cons hblanks hc]

theorem isCodeLine_append_lineFeed (line : List Char) :
    isCodeLine (line ++ ['\n']) = isCodeLine line :=
  isCodeLine_append_blank (by decide) line

/-! ### Reading on from line to line -/

/-- Lines without code, and behind them the blanks that the next line begins with. -/
inductive IsMargin : List Char → Prop
  | blanks {blanks : List Char} (h : allBlank blanks = true) (hline : '\n' ∉ blanks) :
    IsMargin blanks
  | line {line margin : List Char} (hline : '\n' ∉ line) (h : isCodeLine line = false)
    (rest : IsMargin margin) : IsMargin (line ++ '\n' :: margin)

private theorem width_append_lineFeed (line rest : List Char) :
    width (line ++ '\n' :: rest) = width (line ++ ['\n']) + width rest := by
  rw [← width_append, List.append_assoc, List.singleton_append]

theorem codeOffset_add (more offset : Nat) (line : List Char) :
    codeOffset (more + offset) line = more + codeOffset offset line :=
  Nat.add_assoc _ _ _

/-- The first code is looked for in the same way wherever the text begins. -/
theorem firstCode?_add (more offset : Nat) (line text : List Char) :
    firstCode? (more + offset) line text = (firstCode? offset line text).map (more + ·) := by
  induction text generalizing offset line with
  | nil =>
    rw [firstCode?, firstCode?, codeOffset_add]
    split <;> rfl
  | cons c text ih =>
    rw [firstCode?, firstCode?]
    simp only [codeOffset_add, Nat.add_assoc, ih]
    split
    · split <;> rfl
    · rfl

theorem firstCode?_eq_map (offset : Nat) (line text : List Char) :
    firstCode? offset line text = (firstCode? 0 line text).map (offset + ·) :=
  firstCode?_add offset 0 line text

/-- The characters of a line are gathered before anything is said about it. -/
private theorem firstCode?_append {line : List Char} (hline : '\n' ∉ line) (offset : Nat)
    (read rest : List Char) :
    firstCode? offset read (line ++ rest) = firstCode? offset (line.reverse ++ read) rest := by
  induction line generalizing read with
  | nil => rfl
  | cons c line ih =>
    rw [List.mem_cons, not_or] at hline
    calc firstCode? offset read (c :: (line ++ rest))
      _ = firstCode? offset (c :: read) (line ++ rest) := by
        rw [firstCode?, if_neg (Ne.symm hline.1)]
      _ = firstCode? offset (line.reverse ++ c :: read) rest := ih hline.2 _
      _ = firstCode? offset ((c :: line).reverse ++ read) rest := by
        rw [List.reverse_cons, List.append_assoc, List.singleton_append]

/-- A line with code decides. -/
theorem firstCode?_of_code {line rest : List Char} (hline : '\n' ∉ line)
    (hcode : isCodeLine line = true) (hrest : EndsLine rest) (offset : Nat) :
    firstCode? offset [] (line ++ rest) = some (codeOffset offset line) := by
  rw [firstCode?_append hline, List.append_nil]
  rcases hrest with rfl | ⟨behind, rfl⟩
  · rw [firstCode?, List.reverse_reverse, if_pos hcode]
  · obtain ⟨blanks, c, more, rfl, hblanks, hc⟩ := isCodeLine_iff.mp hcode
    rw [firstCode?, if_pos rfl]
    simp only [List.reverse_cons, List.reverse_reverse, isCodeLine_append_lineFeed, hcode, if_true]
    rw [List.append_assoc, List.cons_append, codeOffset_append_cons offset hblanks hc.1,
      codeOffset_append_cons offset hblanks hc.1]

/-- A line without code is passed over. -/
theorem firstCode?_of_not_code {line : List Char} (hline : '\n' ∉ line)
    (hcode : isCodeLine line = false) (offset : Nat) (rest : List Char) :
    firstCode? offset [] (line ++ '\n' :: rest) =
      firstCode? (offset + width (line ++ ['\n'])) [] rest := by
  rw [firstCode?_append hline, firstCode?, if_pos rfl, List.append_nil]
  simp only [List.reverse_cons, List.reverse_reverse, isCodeLine_append_lineFeed, hcode,
    Bool.false_eq_true, if_false]

/-- If the only line of a text has no code, nothing is found. -/
theorem firstCode?_lastLine {line : List Char} (hline : '\n' ∉ line)
    (hcode : isCodeLine line = false) (offset : Nat) : firstCode? offset [] line = none := by
  have h := firstCode?_append hline offset [] []
  rw [List.append_nil, List.append_nil] at h
  rw [h, firstCode?, List.reverse_reverse, if_neg (by simp [hcode])]

/-- **Induction along the search**: it ends at a line with code or behind the last line, and goes on
behind any other. -/
@[elab_as_elim]
theorem alongSearch {motive : List Char → Prop}
    (code : ∀ line rest, '\n' ∉ line → isCodeLine line = true → EndsLine rest →
      motive (line ++ rest))
    (last : ∀ line, '\n' ∉ line → isCodeLine line = false → motive line)
    (next : ∀ line rest, '\n' ∉ line → isCodeLine line = false → motive rest →
      motive (line ++ '\n' :: rest))
    (text : List Char) : motive text := by
  induction hlength : text.length using Nat.strongRecOn generalizing text with
  | ind length ih =>
    obtain ⟨line, rest, rfl, hline, hrest⟩ := exists_line text
    cases hcode : isCodeLine line with
    | true => exact code line rest hline hcode hrest
    | false =>
      rcases hrest with rfl | ⟨behind, rfl⟩
      · rw [List.append_nil]
        exact last line hline hcode
      · rw [List.length_append, List.length_cons] at hlength
        exact next line behind hline hcode (ih behind.length (by omega) behind rfl)

/-- **A margin leads to the code behind it.** -/
theorem firstCode?_margin {margin rest : List Char} {c : Char} (h : IsMargin margin)
    (hc : BeginsCode c) (offset : Nat) :
    firstCode? offset [] (margin ++ c :: rest) = some (offset + width margin) := by
  induction h generalizing offset with
  | @blanks blanks hblanks hline =>
    -- The line with the code goes on to the first line feed behind the character.
    obtain ⟨more, behind, rfl, hmore, hbehind⟩ := exists_line rest
    have hfeed : '\n' ∉ blanks ++ c :: more := by
      rw [List.mem_append, List.mem_cons]
      rintro (hmem | rfl | hmem)
      · exact hline hmem
      · exact absurd hc.1 (by decide)
      · exact hmore hmem
    have hcode : isCodeLine (blanks ++ c :: more) = true :=
      isCodeLine_iff.mpr ⟨blanks, c, more, rfl, hblanks, hc⟩
    rw [← List.cons_append, ← List.append_assoc, firstCode?_of_code hfeed hcode hbehind,
      codeOffset_append_cons offset hblanks hc.1]
  | @line line margin hline hcode _ ih =>
    calc firstCode? offset [] (line ++ '\n' :: margin ++ c :: rest)
      _ = firstCode? (offset + width (line ++ ['\n'])) [] (margin ++ c :: rest) := by
        rw [List.append_assoc, List.cons_append, firstCode?_of_not_code hline hcode]
      _ = some (offset + width (line ++ ['\n']) + width margin) := ih _
      _ = some (offset + width (line ++ '\n' :: margin)) := by
        rw [width_append_lineFeed line margin, Nat.add_assoc]

/-- What is found is code, and a margin leads to it. -/
theorem exists_margin_of_firstCode? {offset found : Nat} {text : List Char}
    (h : firstCode? offset [] text = some found) :
    ∃ margin c rest, text = margin ++ c :: rest ∧ IsMargin margin ∧ BeginsCode c ∧
      found = offset + width margin := by
  induction text using alongSearch generalizing offset with
  | code line rest hline hcode hrest =>
    obtain ⟨blanks, c, more, rfl, hblanks, hc⟩ := isCodeLine_iff.mp hcode
    rw [firstCode?_of_code hline hcode hrest, codeOffset_append_cons offset hblanks hc.1,
      Option.some_inj] at h
    exact ⟨blanks, c, more ++ rest, by rw [List.append_assoc, List.cons_append],
      .blanks hblanks fun hmem => hline (List.mem_append_left _ hmem), hc, h.symm⟩
  | last line hline hcode =>
    rw [firstCode?_lastLine hline hcode] at h
    exact absurd h (Option.some_ne_none found).symm
  | next line rest hline hcode ih =>
    rw [firstCode?_of_not_code hline hcode] at h
    obtain ⟨margin, c, more, rfl, hmargin, hc, hfound⟩ := ih h
    refine ⟨line ++ '\n' :: margin, c, more, by rw [List.append_assoc, List.cons_append],
      .line hline hcode hmargin, hc, ?_⟩
    rw [hfound, width_append_lineFeed line margin, Nat.add_assoc]

/-- Up to a character that begins code, a line has code there at the latest, unless a comment leads
to the character. -/
private theorem exists_code_of_not_comment {line : List Char} {c : Char} (hc : BeginsCode c)
    (hcomment : ∀ before comment, line ≠ before ++ '#' :: comment) (rest : List Char) :
    ∃ blanks d more, line ++ c :: rest = blanks ++ d :: more ∧ allBlank blanks = true ∧
      BeginsCode d ∧ width blanks ≤ width line := by
  rcases allBlank_or_exists line with hblank | ⟨blanks, d, more, rfl, hblanks, hd⟩
  · exact ⟨line, c, rest, rfl, hblank, hc, Nat.le_refl _⟩
  · have hhash : d ≠ '#' := fun h => hcomment blanks more (by rw [h])
    refine ⟨blanks, d, more ++ c :: rest, by rw [List.append_assoc, List.cons_append], hblanks,
      ⟨hd, hhash⟩, ?_⟩
    rw [width_append]
    exact Nat.le_add_right _ _

/-- **A character that begins code is not missed**: the search ends there at the latest, unless a
comment on the line leads to it. -/
theorem exists_firstCode?_le {c : Char} (hc : BeginsCode c) (rest : List Char) {front : List Char}
    (hcomment : ∀ before comment, front = before ++ '#' :: comment → '\n' ∈ comment)
    (offset : Nat) :
    ∃ found, firstCode? offset [] (front ++ c :: rest) = some found ∧ offset ≤ found ∧
      found ≤ offset + width front := by
  induction hlength : front.length using Nat.strongRecOn generalizing offset front with
  | ind length ih =>
    obtain ⟨line, behind, rfl, hline, rfl | ⟨behind, rfl⟩⟩ := exists_line front
    · -- The character is on the first line.
      rw [List.append_nil] at hcomment ⊢
      have hhash : ∀ before comment, line ≠ before ++ '#' :: comment := fun before comment h =>
        hline (h ▸ List.mem_append_right _ (List.mem_cons_of_mem _ (hcomment before comment h)))
      obtain ⟨more, tail, rfl, hmore, htail⟩ := exists_line rest
      obtain ⟨blanks, d, others, heq, hblanks, hd, hwidth⟩ :=
        exists_code_of_not_comment hc hhash more
      have hfeed : '\n' ∉ line ++ c :: more := by
        rw [List.mem_append, List.mem_cons]
        rintro (hmem | rfl | hmem)
        · exact hline hmem
        · exact absurd hc.1 (by decide)
        · exact hmore hmem
      have hcode : isCodeLine (line ++ c :: more) = true :=
        isCodeLine_iff.mpr ⟨blanks, d, others, heq, hblanks, hd⟩
      refine ⟨offset + width blanks, ?_, Nat.le_add_right _ _, Nat.add_le_add_left hwidth _⟩
      rw [← List.cons_append, ← List.append_assoc, firstCode?_of_code hfeed hcode htail, heq,
        codeOffset_append_cons offset hblanks hd.1]
    · cases hcode : isCodeLine line with
      | true =>
        -- The first line has code itself, in front of its line feed.
        obtain ⟨blanks, d, more, rfl, hblanks, hd⟩ := isCodeLine_iff.mp hcode
        refine ⟨offset + width blanks, ?_, Nat.le_add_right _ _, ?_⟩
        · rw [List.append_assoc _ ('\n' :: behind), List.cons_append,
            firstCode?_of_code hline hcode (.inr ⟨_, rfl⟩),
            codeOffset_append_cons offset hblanks hd.1]
        · simp only [width_append]
          omega
      | false =>
        have hshorter : behind.length < length := by
          rw [← hlength, List.length_append, List.length_cons]
          omega
        have hbehind : ∀ before comment, behind = before ++ '#' :: comment → '\n' ∈ comment := by
          rintro before comment rfl
          exact hcomment (line ++ '\n' :: before) comment
            (by rw [List.append_assoc, List.cons_append])
        obtain ⟨found, hfound, hle, hle'⟩ :=
          ih _ hshorter hbehind (offset + width (line ++ ['\n'])) rfl
        refine ⟨found, ?_, Nat.le_trans (Nat.le_add_right _ _) hle, ?_⟩
        · rw [List.append_assoc, List.cons_append, firstCode?_of_not_code hline hcode, hfound]
        · rw [width_append_lineFeed line behind, ← Nat.add_assoc]
          exact hle'

/-- Nothing is found exactly where no line has code. -/
theorem firstCode?_eq_none_iff {offset : Nat} {text : List Char} :
    firstCode? offset [] text = none ↔ ∀ line ∈ split '\n' text, isCodeLine line = false := by
  induction text using alongSearch generalizing offset with
  | code line rest hline hcode hrest =>
    have hfirst : line ∈ split '\n' (line ++ rest) := by
      rcases hrest with rfl | ⟨behind, rfl⟩
      · rw [List.append_nil, split_of_notMem hline]
        exact List.mem_singleton_self line
      · rw [split_append_cons hline]
        exact List.mem_cons_self
    rw [firstCode?_of_code hline hcode hrest]
    exact iff_of_false (Option.some_ne_none _) fun hall =>
      absurd (hall line hfirst) (by simp [hcode])
  | last line hline hcode =>
    rw [firstCode?_lastLine hline hcode, split_of_notMem hline]
    simp [hcode]
  | next line rest hline hcode ih =>
    rw [firstCode?_of_not_code hline hcode, split_append_cons hline, ih]
    simp [hcode]

/-! ### The keyword of a definition -/

theorem afterLineFeed?_of_notMem {text : List Char} (h : '\n' ∉ text) (offset : Nat) :
    afterLineFeed? offset text = none := by
  induction text generalizing offset with
  | nil => rfl
  | cons c text ih =>
    rw [List.mem_cons, not_or] at h
    rw [afterLineFeed?, if_neg (Ne.symm h.1), ih h.2]

theorem afterLineFeed?_append {line : List Char} (h : '\n' ∉ line) (offset : Nat)
    (rest : List Char) :
    afterLineFeed? offset (line ++ '\n' :: rest) =
      some (offset + width (line ++ ['\n']), rest) := by
  induction line generalizing offset with
  | nil =>
    rw [List.nil_append, afterLineFeed?, if_pos rfl]
    rfl
  | cons c line ih =>
    rw [List.mem_cons, not_or] at h
    calc afterLineFeed? offset (c :: (line ++ '\n' :: rest))
      _ = afterLineFeed? (offset + c.utf8Size) (line ++ '\n' :: rest) := by
        rw [afterLineFeed?, if_neg (Ne.symm h.1)]
      _ = some (offset + c.utf8Size + width (line ++ ['\n']), rest) := ih h.2 _
      _ = some (offset + width (c :: line ++ ['\n']), rest) := by
        rw [List.cons_append, width_cons, Nat.add_assoc]

/-- The next line feed is looked for in the same way wherever the text begins. -/
theorem afterLineFeed?_add (more offset : Nat) (text : List Char) :
    afterLineFeed? (more + offset) text =
      (afterLineFeed? offset text).map fun found => (more + found.1, found.2) := by
  induction text generalizing offset with
  | nil => rfl
  | cons c text ih =>
    rw [afterLineFeed?, afterLineFeed?, Nat.add_assoc, Nat.add_assoc, ih]
    split <;> rfl

/-- Whether the search for the keyword behind the last decorator arrives at it, where `gap` is the
text between the two and `code` the text from the keyword on: the gap is what remains of a line, its
line feed and a margin; or else no line behind the first line feed has code, so that nothing is
found and the start of the definition counts. -/
def ShowsKeyword (gap code : List Char) : Prop :=
  (∃ line margin, gap = line ++ '\n' :: margin ∧ '\n' ∉ line ∧ IsMargin margin) ∨
    ∀ line ∈ (split '\n' (gap ++ code)).tail, isCodeLine line = false

variable {decorators : List Span} {last : Span}

/-- What the search behind the last decorator comes to, line by line. -/
theorem keywordOffset_append (hlast : decorators.getLast? = some last)
    {front : List Char} (hstop : last.stop = width front) (behind : List Char) (start : Nat) :
    ('\n' ∉ behind ∧ keywordOffset (front ++ behind) start decorators = start) ∨
      ∃ line rest, behind = line ++ '\n' :: rest ∧ '\n' ∉ line ∧
        keywordOffset (front ++ behind) start decorators =
          (firstCode? (width (front ++ line ++ ['\n'])) [] rest).getD start := by
  rw [keywordOffset, hlast]
  simp only [hstop, dropBytes_width_append]
  obtain ⟨line, rest, rfl, hline, rfl | ⟨rest, rfl⟩⟩ := exists_line behind
  · rw [List.append_nil, afterLineFeed?_of_notMem hline]
    exact .inl ⟨hline, rfl⟩
  · rw [afterLineFeed?_append hline]
    refine .inr ⟨line, rest, rfl, hline, ?_⟩
    rw [List.append_assoc, width_append front]

/-- The search arrives between two characters of the text. -/
theorem isBoundary_keywordOffset (hlast : decorators.getLast? = some last)
    {front behind : List Char} (hstop : last.stop = width front) {start : Nat}
    (hstart : IsBoundary (front ++ behind) start) :
    IsBoundary (front ++ behind) (keywordOffset (front ++ behind) start decorators) := by
  rcases keywordOffset_append hlast hstop behind start with
    ⟨-, hoffset⟩ | ⟨line, rest, rfl, -, hoffset⟩
  · rw [hoffset]
    exact hstart
  · rw [hoffset]
    cases hfound : firstCode? (width (front ++ line ++ ['\n'])) [] rest with
    | none => exact hstart
    | some found =>
      obtain ⟨margin, c, more, rfl, -, -, rfl⟩ := exists_margin_of_firstCode? hfound
      refine ⟨front ++ line ++ ['\n'] ++ margin, c :: more, ?_, width_append _ _⟩
      simp only [List.append_assoc, List.cons_append, List.nil_append]

/-- **The search goes no further than the keyword**, and not back behind the last decorator, if a
line feed is between the two and no comment leads to the keyword. -/
theorem keywordOffset_le (hlast : decorators.getLast? = some last) {front gap : List Char}
    {c : Char} (hstop : last.stop = width front) (hc : BeginsCode c) (rest : List Char)
    (hfeed : '\n' ∈ gap)
    (hcomment : ∀ before comment, gap = before ++ '#' :: comment → '\n' ∈ comment) (start : Nat) :
    width front ≤ keywordOffset (front ++ (gap ++ c :: rest)) start decorators ∧
      keywordOffset (front ++ (gap ++ c :: rest)) start decorators ≤ width (front ++ gap) := by
  obtain ⟨line, margin, rfl, hline⟩ := List.eq_append_cons_of_mem hfeed
  rcases keywordOffset_append hlast hstop (line ++ '\n' :: margin ++ c :: rest) start with
    ⟨hnone, -⟩ | ⟨line', behind, hbehind, hline', hoffset⟩
  · exact absurd (List.mem_append_left _ hfeed) hnone
  · rw [List.append_assoc, List.cons_append] at hbehind
    obtain ⟨rfl, rfl⟩ := line_unique hline hline' hbehind
    have hmargin : ∀ before comment, margin = before ++ '#' :: comment → '\n' ∈ comment := by
      rintro before comment rfl
      exact hcomment (line ++ '\n' :: before) comment
        (by rw [List.append_assoc, List.cons_append])
    obtain ⟨found, hfound, hle, hle'⟩ :=
      exists_firstCode?_le hc rest hmargin (width (front ++ line ++ ['\n']))
    rw [hoffset, hfound, Option.getD_some]
    simp only [width_append, width_cons, width_nil] at hle hle' ⊢
    omega

/-- **The keyword is found exactly where the text shows it.** -/
theorem keywordOffset_eq_iff (hlast : decorators.getLast? = some last) {front gap rest : List Char}
    {c : Char} (hstop : last.stop = width front) (hc : BeginsCode c) :
    keywordOffset (front ++ (gap ++ c :: rest)) (width (front ++ gap)) decorators =
      width (front ++ gap) ↔ ShowsKeyword gap (c :: rest) := by
  rcases keywordOffset_append hlast hstop (gap ++ c :: rest) (width (front ++ gap)) with
    ⟨hline, hoffset⟩ | ⟨line, behind, hbehind, hline, hoffset⟩
  · rw [hoffset, ShowsKeyword, split_of_notMem hline]
    exact iff_of_true rfl (.inr fun _ hmem => absurd hmem List.not_mem_nil)
  · rw [hoffset, ShowsKeyword, hbehind, split_append_cons hline, List.tail_cons]
    cases hfound : firstCode? (width (front ++ line ++ ['\n'])) [] behind with
    | none => exact iff_of_true rfl (.inr (firstCode?_eq_none_iff.mp hfound))
    | some found =>
      have hcode : ¬ ∀ line ∈ split '\n' behind, isCodeLine line = false := fun hall =>
        absurd (firstCode?_eq_none_iff.mpr hall) (hfound ▸ Option.some_ne_none found)
      rw [or_iff_left hcode, Option.getD_some]
      constructor
      · -- As many bytes lead to what was found as to the keyword, so the same text does.
        rintro rfl
        obtain ⟨margin, d, more, rfl, hmargin, -, hwidth⟩ := exists_margin_of_firstCode? hfound
        have htext : gap ++ c :: rest = (line ++ '\n' :: margin) ++ d :: more := by
          rw [hbehind, List.append_assoc, List.cons_append]
        have hgap : width gap = width (line ++ '\n' :: margin) := by
          simp only [width_append, width_cons, width_nil] at hwidth ⊢
          omega
        exact ⟨line, margin, (eq_of_width_eq htext hgap).1, hline, hmargin⟩
      · rintro ⟨line', margin, rfl, hline', hmargin⟩
        rw [List.append_assoc, List.cons_append] at hbehind
        obtain ⟨rfl, hrest⟩ := line_unique hline' hline hbehind
        rw [← hrest, firstCode?_margin hmargin hc, Option.some_inj] at hfound
        rw [← hfound]
        simp only [width_append, width_cons, width_nil]
        omega

end Outline

end SourceOutline
