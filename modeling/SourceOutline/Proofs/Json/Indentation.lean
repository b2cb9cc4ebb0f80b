import SourceOutline.Json.Tree
import SourceOutline.Proofs.Json.OneLine

/-!
# Lines and their indentation

A reader that goes through a JSON text knows at each character whether it is between the parts of
the text or in a string, and how many brackets are open (`Scan`). From this it can tell which blanks
mean nothing (`withoutBlanks`), and how deep a line is nested that begins there (`Laid`).

**Main result** (`laidOut_render_pretty`): the text on many lines is the text on one line with
blanks that mean nothing, and each line of it is indented by the depth that it is nested at.

A text is taken apart in segments: `Lays` says of a segment where the reader is behind it, what is
left of it without blanks, and that it is laid out. Segments are put together by `Lays.append`.
-/

namespace SourceOutline.Json

/-! ### Reading along a text -/

/-- Whether a character is an opening bracket. -/
def opens (c : Char) : Bool :=
  c == '[' || c == '{'

/-- Whether a character is a closing bracket. -/
def closes (c : Char) : Bool :=
  c == ']' || c == '}'

theorem opens_iff {c : Char} : opens c = true ↔ c = '[' ∨ c = '{' := by
  simp [opens]

theorem closes_iff {c : Char} : closes c = true ↔ c = ']' ∨ c = '}' := by
  simp [closes]

/-- Where a reader of a text is, and how many brackets are open there. -/
inductive Scan where
  /-- Between the parts of the text, or in a word or a number. -/
  | between (depth : Nat)
  | inString (depth : Nat)
  /-- In a string, behind a backslash. -/
  | escaped (depth : Nat)
  deriving Repr, DecidableEq

namespace Scan

/-- Where the reader is behind one more character. -/
def next : Scan → Char → Scan
  | between depth, c =>
    if c = '"' then inString depth
    else if opens c then between (depth + 1)
    else if closes c then between (depth - 1)
    else between depth
  | inString depth, c =>
    if c = '"' then between depth else if c = '\\' then escaped depth else inString depth
  | escaped depth, _ => inString depth

/-- Where the reader is behind a text. -/
def after (scan : Scan) (text : List Char) : Scan :=
  text.foldl next scan

theorem after_cons (scan : Scan) (c : Char) (text : List Char) :
    scan.after (c :: text) = (scan.next c).after text := rfl

theorem after_append (scan : Scan) (s t : List Char) :
    scan.after (s ++ t) = (scan.after s).after t :=
  List.foldl_append

/-- Whether a character is a blank that means nothing. -/
def skips : Scan → Char → Bool
  | between _, c => isSpace c
  | inString _, _ => false
  | escaped _, _ => false

end Scan

/-- The text without the blanks that mean nothing. -/
def withoutBlanks : Scan → List Char → List Char
  | _, [] => []
  | scan, c :: rest =>
    if scan.skips c then withoutBlanks (scan.next c) rest
    else c :: withoutBlanks (scan.next c) rest

theorem withoutBlanks_append (scan : Scan) (s t : List Char) :
    withoutBlanks scan (s ++ t) = withoutBlanks scan s ++ withoutBlanks (scan.after s) t := by
  induction s generalizing scan with
  | nil => rfl
  | cons c s ih =>
    rw [List.cons_append, withoutBlanks, withoutBlanks, ih, Scan.after_cons]
    split <;> rfl

/-! ### Lines -/

/-- What stands around a character of a text that is laid out on lines, with so many blanks for each
level of nesting. -/
structure Laid (indent : Nat) (before : List Char) (scan : Scan) (c : Char) (behind : List Char) :
    Prop where
  /-- Behind a line feed there are the blanks of the depth and no others. In front of a closing
  bracket this is the depth outside of the brackets. -/
  lineFeed : c = '\n' → ∃ depth d rest, behind = List.replicate (indent * depth) ' ' ++ d :: rest ∧
    isSpace d = false ∧ scan = .between (if closes d then depth + 1 else depth)
  /-- Behind an opening bracket there is its closing one, or what is inside begins on a new line. -/
  opening : opens c = true → ∀ depth, scan = .between depth →
    (∃ d rest, behind = d :: rest ∧ closes d = true) ∨
      ∃ d rest, behind = newLine indent (depth + 1) ++ d :: rest ∧ closes d = false
  /-- A closing bracket is right behind its opening one, or on a line of its own. -/
  closing : closes c = true → ∀ depth, scan = .between (depth + 1) →
    (∃ front d, before = front ++ [d] ∧ opens d = true) ∨
      ∃ front, before = front ++ newLine indent depth
  /-- Behind a comma a new line begins. -/
  comma : c = ',' → ∀ depth, scan = .between depth → ∃ rest, behind = newLine indent depth ++ rest

/-- Whether a text is laid out on lines, for a reader that is at `start` in front of it. -/
def LaidOut (indent : Nat) (start : Scan) (text : List Char) : Prop :=
  ∀ before c behind, text = before ++ c :: behind →
    Laid indent before (start.after before) c behind

variable {indent : Nat} {start middle stop : Scan}

/-- What stands further away does not matter. -/
theorem Laid.extend {before behind : List Char} {scan : Scan} {c : Char}
    (h : Laid indent before scan c behind) (front back : List Char) :
    Laid indent (front ++ before) scan c (behind ++ back) where
  lineFeed hc := by
    obtain ⟨depth, d, rest, rfl, hd⟩ := h.lineFeed hc
    exact ⟨depth, d, rest ++ back, by rw [List.append_assoc, List.cons_append], hd⟩
  opening hc depth hscan := by
    obtain ⟨d, rest, rfl, hd⟩ | ⟨d, rest, rfl, hd⟩ := h.opening hc depth hscan
    · exact .inl ⟨d, rest ++ back, List.cons_append, hd⟩
    · exact .inr ⟨d, rest ++ back, by rw [List.append_assoc, List.cons_append], hd⟩
  closing hc depth hscan := by
    obtain ⟨inner, d, rfl, hd⟩ | ⟨inner, rfl⟩ := h.closing hc depth hscan
    · exact .inl ⟨front ++ inner, d, by rw [List.append_assoc], hd⟩
    · exact .inr ⟨front ++ inner, by rw [List.append_assoc]⟩
  comma hc depth hscan := by
    obtain ⟨rest, rfl⟩ := h.comma hc depth hscan
    exact ⟨rest ++ back, List.append_assoc _ _ _⟩

/-- In strings no character but a line feed matters. -/
theorem Laid.of_scan_ne {before behind : List Char} {scan : Scan} {c : Char} (hfeed : c ≠ '\n')
    (hscan : ∀ depth, scan ≠ .between depth) : Laid indent before scan c behind where
  lineFeed hc := absurd hc hfeed
  opening _ depth h := absurd h (hscan depth)
  closing _ depth h := absurd h (hscan (depth + 1))
  comma _ depth h := absurd h (hscan depth)

/-- Whether a character does not matter anywhere. -/
def isFree (c : Char) : Bool :=
  c != '\n' && !opens c && !closes c && c != ','

theorem isFree_iff {c : Char} :
    isFree c = true ↔ c ≠ '\n' ∧ opens c = false ∧ closes c = false ∧ c ≠ ',' := by
  simp [isFree, and_assoc]

theorem Laid.of_isFree {before behind : List Char} {scan : Scan} {c : Char}
    (h : isFree c = true) : Laid indent before scan c behind := by
  obtain ⟨hfeed, hopens, hcloses, hcomma⟩ := isFree_iff.mp h
  exact ⟨fun hc => absurd hc hfeed, fun hc => absurd hc (ne_true_of_eq_false hopens),
    fun hc => absurd hc (ne_true_of_eq_false hcloses), fun hc => absurd hc hcomma⟩

/-- Whether words and numbers may have a character. -/
def isPlain (c : Char) : Bool :=
  isFree c && !isSpace c && c != '"'

theorem isPlain_iff {c : Char} :
    isPlain c = true ↔ isFree c = true ∧ isSpace c = false ∧ c ≠ '"' := by
  simp [isPlain, and_assoc]

theorem isPlain_of_mem_numerals {c : Char} (h : c ∈ numerals) : isPlain c = true := by
  have hall : numerals.all isPlain = true := by decide
  exact List.all_eq_true.mp hall c h

/-- At a line feed only what is behind it matters. -/
theorem Laid.of_lineFeed {before behind : List Char} {scan : Scan}
    (h : ∃ depth d rest, behind = List.replicate (indent * depth) ' ' ++ d :: rest ∧
      isSpace d = false ∧ scan = .between (if closes d then depth + 1 else depth)) :
    Laid indent before scan '\n' behind :=
  ⟨fun _ => h, nofun, nofun, nofun⟩

/-- At an opening bracket only what is behind it matters. -/
theorem Laid.of_opens {before behind : List Char} {scan : Scan} {c : Char} (hc : opens c = true)
    (h : ∀ depth, scan = .between depth → (∃ d rest, behind = d :: rest ∧ closes d = true) ∨
      ∃ d rest, behind = newLine indent (depth + 1) ++ d :: rest ∧ closes d = false) :
    Laid indent before scan c behind := by
  rcases opens_iff.mp hc with rfl | rfl <;>
    exact ⟨fun h => absurd h (by decide), fun _ => h, nofun, fun h => absurd h (by decide)⟩

/-- At a closing bracket only what is in front of it matters. -/
theorem Laid.of_closes {before behind : List Char} {scan : Scan} {c : Char} (hc : closes c = true)
    (h : ∀ depth, scan = .between (depth + 1) →
      (∃ front d, before = front ++ [d] ∧ opens d = true) ∨
        ∃ front, before = front ++ newLine indent depth) :
    Laid indent before scan c behind := by
  rcases closes_iff.mp hc with rfl | rfl <;>
    exact ⟨fun h => absurd h (by decide), nofun, fun _ => h, fun h => absurd h (by decide)⟩

theorem LaidOut.nil : LaidOut indent start [] := by
  intro before c behind h
  exact absurd h.symm (List.append_ne_nil_of_right_ne_nil _ (List.cons_ne_nil _ _))

theorem LaidOut.append {s t : List Char} (hs : LaidOut indent start s)
    (ht : LaidOut indent (start.after s) t) : LaidOut indent start (s ++ t) := by
  intro before c behind h
  obtain ⟨between, rfl, hbetween⟩ | ⟨between, rfl, hbetween⟩ := List.append_eq_append_iff.mp h
  · have hlaid := (ht between c behind hbetween).extend s []
    rwa [← Scan.after_append, List.append_nil] at hlaid
  · cases between with
    | nil =>
      have hlaid := (ht [] c behind hbetween.symm).extend before []
      rw [List.append_nil, List.append_nil] at hlaid
      exact hlaid
    | cons d between =>
      obtain ⟨rfl, rfl⟩ := List.cons_eq_cons.mp hbetween
      exact (hs before c between rfl).extend [] t

theorem LaidOut.cons {c : Char} {text : List Char} (hc : Laid indent [] start c text)
    (h : LaidOut indent (start.next c) text) : LaidOut indent start (c :: text) := by
  intro before d behind heq
  cases before with
  | nil =>
    obtain ⟨rfl, rfl⟩ := List.cons_eq_cons.mp heq
    exact hc
  | cons first before =>
    obtain ⟨rfl, rfl⟩ := List.cons_eq_cons.mp heq
    have hlaid := (h before d behind rfl).extend [c] []
    rwa [List.append_nil] at hlaid

/-- Whether a text may be what stands on a line: it begins with no blank, and closes no bracket
there. -/
def BeginsLine (text : List Char) : Prop :=
  ∃ c rest, text = c :: rest ∧ isSpace c = false ∧ closes c = false

theorem BeginsLine.append {s : List Char} (h : BeginsLine s) (t : List Char) :
    BeginsLine (s ++ t) := by
  obtain ⟨c, rest, rfl, hc⟩ := h
  exact ⟨c, rest ++ t, List.cons_append, hc⟩

/-! ### Segments -/

/-- A segment of a text: it takes a reader from `start` to `stop`, `bare` is what it is without
blanks, and it is laid out. -/
structure Lays (indent : Nat) (start : Scan) (text bare : List Char) (stop : Scan) : Prop where
  after_eq : start.after text = stop
  withoutBlanks_eq : withoutBlanks start text = bare
  laidOut : LaidOut indent start text

namespace Lays

variable {text bare s t s' t' : List Char} {c : Char} {depth : Nat}

theorem nil : Lays indent start [] [] start :=
  ⟨rfl, rfl, .nil⟩

theorem append (hs : Lays indent start s s' middle) (ht : Lays indent middle t t' stop) :
    Lays indent start (s ++ t) (s' ++ t') stop where
  after_eq := by rw [Scan.after_append, hs.after_eq, ht.after_eq]
  withoutBlanks_eq := by
    rw [withoutBlanks_append, hs.withoutBlanks_eq, hs.after_eq, ht.withoutBlanks_eq]
  laidOut := hs.laidOut.append (hs.after_eq ▸ ht.laidOut)

/-- A character that is kept. -/
theorem cons (hnext : start.next c = middle) (hkept : start.skips c = false)
    (hc : Laid indent [] start c text) (h : Lays indent middle text bare stop) :
    Lays indent start (c :: text) (c :: bare) stop where
  after_eq := by rw [Scan.after_cons, hnext, h.after_eq]
  withoutBlanks_eq := by
    rw [withoutBlanks, if_neg (ne_true_of_eq_false hkept), hnext, h.withoutBlanks_eq]
  laidOut := .cons hc (hnext ▸ h.laidOut)

/-- A blank that means nothing. -/
theorem skip (hnext : start.next c = middle) (hskipped : start.skips c = true)
    (hc : Laid indent [] start c text) (h : Lays indent middle text bare stop) :
    Lays indent start (c :: text) bare stop where
  after_eq := by rw [Scan.after_cons, hnext, h.after_eq]
  withoutBlanks_eq := by
    rw [withoutBlanks, if_pos hskipped, hnext, h.withoutBlanks_eq]
  laidOut := .cons hc (hnext ▸ h.laidOut)

/-! #### Words, numbers and strings -/

/-- Text that is made of words and numbers. -/
theorem plain (h : ∀ c ∈ text, isPlain c = true) :
    Lays indent (.between depth) text text (.between depth) := by
  induction text with
  | nil => exact nil
  | cons c text ih =>
    obtain ⟨hc, htext⟩ := List.forall_mem_cons.mp h
    obtain ⟨hfree, hspace, hquote⟩ := isPlain_iff.mp hc
    obtain ⟨-, hopens, hcloses, -⟩ := isFree_iff.mp hfree
    have hnext : (Scan.between depth).next c = .between depth := by
      rw [Scan.next, if_neg hquote, if_neg (ne_true_of_eq_false hopens),
        if_neg (ne_true_of_eq_false hcloses)]
    exact cons hnext hspace (.of_isFree hfree) (ih htext)

/-- A character in a string, written as it is. -/
theorem inString (hfeed : c ≠ '\n') (hquote : c ≠ '"') (hescape : c ≠ '\\')
    (h : Lays indent (.inString depth) text bare stop) :
    Lays indent (.inString depth) (c :: text) (c :: bare) stop := by
  have hnext : (Scan.inString depth).next c = .inString depth := by
    rw [Scan.next, if_neg hquote, if_neg hescape]
  exact cons hnext rfl (.of_scan_ne hfeed nofun) h

/-- A backslash in a string, and the character behind it. -/
theorem escape (hfeed : c ≠ '\n') (h : Lays indent (.inString depth) text bare stop) :
    Lays indent (.inString depth) ('\\' :: c :: text) ('\\' :: c :: bare) stop :=
  cons rfl rfl (.of_isFree rfl) (cons rfl rfl (.of_scan_ne hfeed nofun) h)

/-- The characters of a string. -/
theorem escapeChar (c : Char) :
    Lays indent (.inString depth) (escapeChar c) (escapeChar c) (.inString depth) := by
  have hhex : ∀ (n : Nat) {text bare : List Char},
      Lays indent (.inString depth) text bare (.inString depth) →
        Lays indent (.inString depth) (hexDigit n :: text) (hexDigit n :: bare)
          (.inString depth) := by
    have hsmall : ∀ n < 16, n.digitChar ≠ '\n' ∧ n.digitChar ≠ '"' ∧ n.digitChar ≠ '\\' := by
      decide
    intro n text bare h
    obtain ⟨hfeed, hquote, hescape⟩ := hsmall (n % 16) (Nat.mod_lt n (by decide))
    exact inString hfeed hquote hescape h
  unfold Json.escapeChar
  -- The seven characters with a short escape come first.
  iterate 7
    split
    · exact escape (by decide) nil
  split
  · exact escape (by decide) (hhex 0 (hhex 0 (hhex (c.toNat / 16) (hhex c.toNat nil))))
  · next hquote hescape hfeed _ _ _ _ _ => exact inString hfeed hquote hescape nil

/-- A string with its quotes. -/
theorem quote (text : List Char) :
    Lays indent (.between depth) (quote text) (quote text) (.between depth) := by
  have hchars : ∀ text : List Char, Lays indent (.inString depth) (text.flatMap Json.escapeChar)
      (text.flatMap Json.escapeChar) (.inString depth) := by
    intro text
    induction text with
    | nil => exact nil
    | cons c text ih => exact (escapeChar c).append ih
  have hclose : Lays indent (.inString depth) ['"'] ['"'] (.between depth) :=
    cons rfl rfl (.of_isFree rfl) nil
  exact cons rfl rfl (.of_isFree rfl) ((hchars text).append hclose)

/-- A value that is no array and no object. -/
theorem scalarText (value : Json) :
    Lays indent (.between depth) (scalarText value) (scalarText value) (.between depth) := by
  cases value with
  | null => exact plain (List.all_eq_true.mp rfl)
  | bool value => cases value <;> exact plain (List.all_eq_true.mp rfl)
  | number value =>
    exact plain fun c hc => isPlain_of_mem_numerals (text_subset_numerals value hc)
  | string value => exact quote value.toList
  | array | object => exact nil

/-! #### Lines and brackets -/

theorem blanks (n : Nat) (h : Lays indent (.between depth) text bare stop) :
    Lays indent (.between depth) (List.replicate n ' ' ++ text) bare stop := by
  induction n with
  | zero => exact h
  | succ n ih => exact skip rfl rfl (.of_isFree rfl) ih

/-- A text on a new line. -/
theorem line (hbegins : BeginsLine text) (h : Lays indent (.between depth) text bare stop) :
    Lays indent (.between depth) (newLine indent depth ++ text) bare stop := by
  obtain ⟨c, rest, rfl, hspace, hcloses⟩ := hbegins
  refine skip rfl rfl (.of_lineFeed ⟨depth, c, rest, rfl, hspace, ?_⟩) (blanks _ h)
  rw [if_neg (ne_true_of_eq_false hcloses)]

/-- What may be found behind blanks and in front of a last character. -/
private theorem eq_blank_or_last {n : Nat} {before behind : List Char} {d : Char}
    (h : List.replicate n ' ' ++ [c] = before ++ d :: behind) :
    d = ' ' ∨ before = List.replicate n ' ' ∧ d = c := by
  induction n generalizing before with
  | zero =>
    cases before with
    | nil => exact .inr ⟨rfl, (List.cons_eq_cons.mp h).1.symm⟩
    | cons first before =>
      have hnil := (List.cons_eq_cons.mp h).2
      exact absurd hnil.symm (List.append_ne_nil_of_right_ne_nil _ (List.cons_ne_nil _ _))
  | succ n ih =>
    cases before with
    | nil => exact .inl (List.cons_eq_cons.mp h).1.symm
    | cons first before =>
      obtain ⟨rfl, hrest⟩ := List.cons_eq_cons.mp h
      exact (ih hrest).imp id fun h => ⟨congrArg _ h.1, h.2⟩

/-- A closing bracket on a line of its own. -/
theorem close (hc : closes c = true) :
    Lays indent (.between (depth + 1)) (newLine indent depth ++ [c]) [c] (.between depth) := by
  obtain ⟨hspace, hopens, hquote⟩ : isSpace c = false ∧ opens c = false ∧ c ≠ '"' := by
    rcases closes_iff.mp hc with rfl | rfl <;> decide
  have hblanks : Lays indent (.between (depth + 1)) (List.replicate (indent * depth) ' ') []
      (.between (depth + 1)) := by
    rw [← List.append_nil (List.replicate _ _)]
    exact blanks (indent * depth) nil
  have hafter : (Scan.between (depth + 1)).after (newLine indent depth) = .between (depth + 1) :=
    hblanks.after_eq
  have hnext : (Scan.between (depth + 1)).next c = .between depth := by
    rw [Scan.next, if_neg hquote, if_neg (ne_true_of_eq_false hopens), if_pos hc,
      Nat.add_sub_cancel]
  refine ⟨by rw [Scan.after_append, hafter, Scan.after_cons, hnext]; rfl, ?_, ?_⟩
  · have hbare : withoutBlanks (.between (depth + 1)) (newLine indent depth) = [] :=
      hblanks.withoutBlanks_eq
    rw [withoutBlanks_append, hbare, hafter, List.nil_append, withoutBlanks, Scan.skips, hspace]
    rfl
  · intro before d behind heq
    cases before with
    | nil =>
      obtain ⟨rfl, rfl⟩ := List.cons_eq_cons.mp heq
      refine .of_lineFeed ⟨depth, c, [], rfl, hspace, ?_⟩
      rw [if_pos hc]
      rfl
    | cons first before =>
      obtain ⟨rfl, hrest⟩ := List.cons_eq_cons.mp heq
      obtain rfl | ⟨rfl, rfl⟩ := eq_blank_or_last hrest
      · exact .of_isFree rfl
      · -- The bracket itself: in front of it is the whole start of the line.
        refine .of_closes hc fun outer houter => .inr ⟨[], ?_⟩
        have hdepth : Scan.between (depth + 1) = .between (outer + 1) := hafter.symm.trans houter
        cases hdepth
        rfl

/-- Brackets around what begins on a new line. -/
theorem brackets {left right : Char} (hleft : opens left = true) (hright : closes right = true)
    (hbegins : BeginsLine text)
    (h : Lays indent (.between (depth + 1)) (newLine indent (depth + 1) ++ text) bare
      (.between (depth + 1))) :
    Lays indent (.between depth)
      (left :: (newLine indent (depth + 1) ++ text ++ (newLine indent depth ++ [right])))
      (left :: (bare ++ [right])) (.between depth) := by
  obtain ⟨hspace, hquote⟩ : isSpace left = false ∧ left ≠ '"' := by
    rcases opens_iff.mp hleft with rfl | rfl <;> decide
  have hnext : (Scan.between depth).next left = .between (depth + 1) := by
    rw [Scan.next, if_neg hquote, if_pos hleft]
  obtain ⟨c, rest, rfl, -, hc⟩ := hbegins
  refine cons hnext hspace (.of_opens hleft fun outer houter => .inr ?_) (h.append (close hright))
  cases houter
  refine ⟨c, rest ++ (newLine indent depth ++ [right]), ?_, hc⟩
  rw [List.append_assoc, List.cons_append]

/-- Brackets around nothing. -/
theorem emptyBrackets {left right : Char} (hleft : opens left = true)
    (hright : closes right = true) :
    Lays indent (.between depth) [left, right] [left, right] (.between depth) := by
  have hlaidOut : LaidOut indent (.between depth) [left, right] := by
    intro before d behind heq
    match before, heq with
    | [], heq =>
      obtain ⟨rfl, rfl⟩ := List.cons_eq_cons.mp heq
      exact .of_opens hleft fun _ _ => .inl ⟨right, [], rfl, hright⟩
    | [first], heq =>
      obtain ⟨rfl, hrest⟩ := List.cons_eq_cons.mp heq
      obtain ⟨rfl, rfl⟩ := List.cons_eq_cons.mp hrest
      exact .of_closes hright fun _ _ => .inl ⟨[], left, rfl, hleft⟩
    | first :: second :: before, heq =>
      have hnil := (List.cons_eq_cons.mp (List.cons_eq_cons.mp heq).2).2
      exact absurd hnil.symm (List.append_ne_nil_of_right_ne_nil _ (List.cons_ne_nil _ _))
  rcases opens_iff.mp hleft with rfl | rfl <;> rcases closes_iff.mp hright with rfl | rfl <;>
    exact ⟨rfl, rfl, hlaidOut⟩

/-- A key in front of a value. -/
theorem member (key : List Char) (h : Lays indent (.between depth) text bare stop) :
    Lays indent (.between depth) (Json.quote key ++ ':' :: ' ' :: text)
      (Json.quote key ++ ':' :: bare) stop :=
  (quote key).append (cons rfl rfl (.of_isFree rfl) (skip rfl rfl (.of_isFree rfl) h))

/-- A comma in front of a new line. -/
theorem comma (h : Lays indent (.between depth) (newLine indent depth ++ text) bare stop) :
    Lays indent (.between depth) (',' :: (newLine indent depth ++ text)) (',' :: bare) stop := by
  refine cons rfl rfl ⟨fun h => absurd h (by decide), nofun, nofun, fun _ outer houter => ?_⟩ h
  cases houter
  exact ⟨text, rfl⟩

end Lays

/-! ### Values -/

theorem beginsLine_quote (text : List Char) : BeginsLine (quote text) :=
  ⟨'"', _, rfl, rfl, rfl⟩

theorem beginsLine_pretty (indent depth : Nat) (value : Json) :
    BeginsLine (pretty indent depth value) := by
  cases value with
  | null => exact ⟨'n', _, rfl, rfl, rfl⟩
  | bool value => cases value <;> exact ⟨_, _, rfl, rfl, rfl⟩
  | number value =>
    obtain ⟨c, rest, htext⟩ := List.exists_cons_of_ne_nil (text_ne_nil value)
    have hc := text_subset_numerals value (htext ▸ List.mem_cons_self)
    obtain ⟨hfree, hspace, -⟩ := isPlain_iff.mp (isPlain_of_mem_numerals hc)
    exact ⟨c, rest, htext, hspace, (isFree_iff.mp hfree).2.2.1⟩
  | string value => exact beginsLine_quote value.toList
  | array items => cases items <;> exact ⟨'[', _, rfl, rfl, rfl⟩
  | object members => cases members <;> exact ⟨'{', _, rfl, rfl, rfl⟩

/-- Items begin on a new line. -/
theorem prettyItems_eq_newLine (indent depth : Nat) (item : Json) (items : List Json) :
    ∃ text, prettyItems indent depth (item :: items) = newLine indent depth ++ text ∧
      BeginsLine text := by
  have hitem := beginsLine_pretty indent depth item
  cases items with
  | nil => exact ⟨_, rfl, hitem⟩
  | cons next items => exact ⟨_, rfl, hitem.append _⟩

/-- Members begin on a new line. -/
theorem prettyMembers_eq_newLine (indent depth : Nat) (member : String × Json)
    (members : List (String × Json)) :
    ∃ text, prettyMembers indent depth (member :: members) = newLine indent depth ++ text ∧
      BeginsLine text := by
  have hkey := beginsLine_quote member.1.toList
  cases members with
  | nil => exact ⟨_, rfl, hkey.append _⟩
  | cons next members => exact ⟨_, rfl, hkey.append _⟩

mutual

/-- **A value on many lines** is the value on one line with blanks, and laid out at its depth. -/
theorem lays_pretty (indent depth : Nat) : ∀ value : Json,
    Lays indent (.between depth) (pretty indent depth value) (compact value) (.between depth)
  | .array [] => .emptyBrackets rfl rfl
  | .array (item :: items) => by
    obtain ⟨text, htext, hbegins⟩ := prettyItems_eq_newLine indent (depth + 1) item items
    have hitems := lays_prettyItems indent (depth + 1) (item :: items)
    rw [pretty, compact, htext]
    exact .brackets rfl rfl hbegins (htext ▸ hitems)
  | .object [] => .emptyBrackets rfl rfl
  | .object (member :: members) => by
    obtain ⟨text, htext, hbegins⟩ := prettyMembers_eq_newLine indent (depth + 1) member members
    have hmembers := lays_prettyMembers indent (depth + 1) (member :: members)
    rw [pretty, compact, htext]
    exact .brackets rfl rfl hbegins (htext ▸ hmembers)
  | .null => .scalarText .null
  | .bool value => .scalarText (.bool value)
  | .number value => .scalarText (.number value)
  | .string value => .scalarText (.string value)

theorem lays_prettyItems (indent depth : Nat) : ∀ items : List Json,
    Lays indent (.between depth) (prettyItems indent depth items) (compactItems items)
      (.between depth)
  | [] => .nil
  | [item] => .line (beginsLine_pretty indent depth item) (lays_pretty indent depth item)
  | item :: next :: items => by
    obtain ⟨text, htext, -⟩ := prettyItems_eq_newLine indent depth next items
    have hitems := lays_prettyItems indent depth (next :: items)
    rw [htext] at hitems
    have hitem := (lays_pretty indent depth item).append (.comma hitems)
    rw [← htext] at hitem
    exact .line ((beginsLine_pretty indent depth item).append _) hitem

theorem lays_prettyMembers (indent depth : Nat) : ∀ members : List (String × Json),
    Lays indent (.between depth) (prettyMembers indent depth members) (compactMembers members)
      (.between depth)
  | [] => .nil
  | [(key, value)] =>
    .line ((beginsLine_quote key.toList).append _)
      (.member key.toList (lays_pretty indent depth value))
  | (key, value) :: next :: members => by
    obtain ⟨text, htext, -⟩ := prettyMembers_eq_newLine indent depth next members
    have hmembers := lays_prettyMembers indent depth (next :: members)
    rw [htext] at hmembers
    have hmember := (lays_pretty indent depth value).append (.comma hmembers)
    rw [← htext] at hmember
    exact .line ((beginsLine_quote key.toList).append _) (.member key.toList hmember)

end

/-- **The text on many lines differs from the text on one line in blanks that mean nothing**, and
it is laid out: each line is indented by the depth it is nested at. -/
theorem laidOut_render_pretty (value : Json) (indent : Nat) :
    withoutBlanks (.between 0) (render (.pretty indent) value).toList
        = (render .compact value).toList ∧
      LaidOut indent (.between 0) (render (.pretty indent) value).toList := by
  have h := lays_pretty indent 0 value
  rw [render, render, String.toList_ofList, String.toList_ofList]
  exact ⟨h.withoutBlanks_eq, h.laidOut⟩

/-- The bracket in the string opens nothing, and the empty array stays on its line. -/
example : render (.pretty 2) (.array [.string "[ ", .array []]) = "[\n  \"[ \",\n  []\n]" := by
  decide

end SourceOutline.Json
