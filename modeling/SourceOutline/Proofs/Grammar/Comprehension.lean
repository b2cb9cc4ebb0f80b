import SourceOutline.Proofs.Grammar.Expression
import SourceOutline.Proofs.Grammar.Reading
import SourceOutline.Grammar.Statement

/-!
# Loops and comprehensions

**What is read as the target of a loop is read as one everywhere** (`IsLoopTarget.reads`): whatever
the tokens are in which the grammar found it, and with any number of levels that is enough for the
tokens at hand. A rule for the target is all that loops and comprehensions have in common. So the
same tokens make a program that is a loop (`Reads.program_for`), a value that is a comprehension in
any of its four forms (`Reads.atom_comprehension`), and a program that is this value
(`Reads.program_comprehension`).
-/

namespace SourceOutline.Grammar

open Token (Kind)
open Token.Kind (weightAll weightAll_append)
open Grammar.Parser

/-- Tokens that end a value, whatever it is part of. -/
inductive EndsValue : Kind → Prop where
  | newline : EndsValue .newline
  | loop : EndsValue (word .for_)
  | colon : EndsValue colon
  | closing (bracket : Bracket) : EndsValue (closing bracket)

/-- Tokens that begin a name or something in brackets. -/
inductive StartsAtom : Kind → Prop where
  | name (id : String) : StartsAtom (.name id)
  | opening (bracket : Bracket) : StartsAtom (opening bracket)

/-- A loop over something with a name, up to that. -/
def loopOver (target : List Kind) (source : String) : List Kind :=
  word .for_ :: (target ++ [word .in_, .name source])

/-- The displays that can hold a comprehension. -/
inductive Display where
  | list | set | dict | generator
  deriving Repr, DecidableEq

namespace Display

/-- The brackets around the display. -/
def bracket : Display → Bracket
  | list => .square
  | set | dict => .curly
  | generator => .round

/-- What kind of expression a comprehension in such a display is. -/
def form : Display → Expr.Form
  | list => .listComprehension
  | set => .setComprehension
  | dict => .dictComprehension
  | generator => .generator

/-- A name as the element of the display, with itself for a key if it needs one. -/
def element (id : String) : Display → List Kind
  | dict => [.name id, colon, .name id]
  | list | set | generator => [.name id]

/-- A comprehension: an element, and a loop with a target over something with a name. -/
def comprehension (display : Display) (id : String) (target : List Kind) (source : String) :
    List Kind :=
  opening display.bracket ::
    (display.element id ++ (loopOver target source ++ [closing display.bracket]))

end Display

/-- An expression of a form that is no possible target. -/
def IsForm (form : Expr.Form) (placed : Placed) : Prop :=
  ∃ span, placed.expr = .other span form

namespace Reads

variable {α β : Type} {kinds rest : List Kind} {Good : α → Prop}

/-! ### Values -/

section

variable {rules : Rules} {first behind : Kind} {value : Placed} {IsGood : Placed → Prop}

theorem trailers_none (hbehind : EndsValue behind) :
    Reads [] (behind :: rest) (· = value) (trailers rules value) := by
  refine iterate_none (peek ?_)
  cases hbehind <;> exact .pure rfl

theorem conditionalRest_none (hbehind : EndsValue behind) :
    Reads [] (behind :: rest) (· = value) (conditionalRest rules value) := by
  refine refuse ?_ (.pure rfl)
  cases hbehind <;> rfl

theorem placedFrom {start : Nat} {make : Span → Expr} :
    Reads [] rest (fun placed => placed.expr = make placed.span) (placedFrom start make) :=
  lastStop.still fun _ _ => .pure rfl

theorem commaListFrom_none {starts : Kind → Bool} {item : Parser α} {one : α}
    (hbehind : EndsValue behind) :
    Reads [] (behind :: rest) (· = ([one], false)) (commaListFrom one starts item) := by
  refine (iterate_none (refuse ?_ ?_)).last fun found hfound => .pure ?_
  · cases hbehind <;> rfl
  · exact .pure rfl
  · rw [hfound, List.reverse_singleton]

/-- A lone item without a comma. -/
theorem tupleOf_one {item : Parser Placed} (hbehind : EndsValue behind)
    (h : Reads kinds (behind :: rest) IsGood item) :
    Reads kinds (behind :: rest) (fun found => IsGood found.1 ∧ found.2 = true) (tupleOf item) := by
  have hlist : Reads kinds (behind :: rest)
      (fun found => ∃ one, found = ([one], false) ∧ IsGood one) (commaList startsElement item) :=
    h.last fun one hone => (commaListFrom_none hbehind).imp fun _ hfound => ⟨one, hfound, hone⟩
  refine hlist.last fun found hfound => ?_
  obtain ⟨one, rfl, hone⟩ := hfound
  exact .pure ⟨hone, rfl⟩

variable [CharacterNames]

theorem operationRest_none (hbehind : EndsValue behind) :
    Reads [] (behind :: rest) (· = value) (operationRest rules value) := by
  refine lookAny false ?_ (.pure rfl)
  cases hbehind <;> rfl

theorem comparisonRest_none (hbehind : EndsValue behind) :
    Reads [] (behind :: rest) (· = value) (comparisonRest rules value) := by
  refine lookAny false ?_ (.pure rfl)
  cases hbehind <;> rfl

theorem disjunctionRest_none (hbehind : EndsValue behind) :
    Reads [] (behind :: rest) (· = value) (disjunctionRest rules value) := by
  refine lookAny false ?_ (.pure rfl)
  cases hbehind <;> rfl

theorem primary_of_atom (hfirst : StartsAtom first) (hbehind : EndsValue behind)
    (h : Reads (first :: kinds) (behind :: rest) IsGood (atom rules)) :
    Reads (first :: kinds) (behind :: rest) IsGood (primary rules) := by
  refine nextStart.still fun _ _ => refuse ?_ (h.last fun value hvalue => ?_)
  · cases hfirst <;> rfl
  · exact (trailers_none hbehind).imp fun _ hsame => hsame ▸ hvalue

theorem operand_of_atom (hfirst : StartsAtom first) (hbehind : EndsValue behind)
    (h : Reads (first :: kinds) (behind :: rest) IsGood (atom rules)) :
    Reads (first :: kinds) (behind :: rest) IsGood (operand rules) := by
  refine nextStart.still fun _ _ => (manyWhile_nil ?_).still fun signs hsigns => ?_
  · cases hfirst <;> rfl
  · subst hsigns
    exact (primary_of_atom hfirst hbehind h).last fun value hvalue => .pure hvalue

theorem negation_of_atom (hfirst : StartsAtom first) (hbehind : EndsValue behind)
    (h : Reads (first :: kinds) (behind :: rest) IsGood (atom rules)) :
    Reads (first :: kinds) (behind :: rest) IsGood (negation rules) := by
  have hoperation : Reads (first :: kinds) (behind :: rest) IsGood (operation rules) :=
    (operand_of_atom hfirst hbehind h).last fun value hvalue =>
      (operationRest_none hbehind).imp fun _ h => h ▸ hvalue
  refine nextStart.still fun _ _ => (manyWhile_nil ?_).still fun signs hsigns => ?_
  · cases hfirst <;> rfl
  · subst hsigns
    exact hoperation.last fun value hvalue => (comparisonRest_none hbehind).last fun _ h =>
      .pure (h ▸ hvalue)

theorem disjunction_of_atom (hfirst : StartsAtom first) (hbehind : EndsValue behind)
    (h : Reads (first :: kinds) (behind :: rest) IsGood (atom rules)) :
    Reads (first :: kinds) (behind :: rest) IsGood (disjunction rules) :=
  (negation_of_atom hfirst hbehind h).last fun _ hvalue =>
    (disjunctionRest_none hbehind).imp fun _ h => h ▸ hvalue

/-- What is a value by itself is an expression, where a value ends behind it. -/
theorem test_of_atom (hfirst : StartsAtom first) (hbehind : EndsValue behind)
    (h : Reads (first :: kinds) (behind :: rest) IsGood (atom rules)) :
    Reads (first :: kinds) (behind :: rest) IsGood (test rules) := by
  refine lookAt false ?_ ((disjunction_of_atom hfirst hbehind h).last fun _ hvalue =>
    (conditionalRest_none hbehind).imp fun _ h => h ▸ hvalue)
  cases hfirst <;> rfl

theorem atom_name {id : String} :
    Reads [.name id] rest (fun placed => placed.expr = .name placed.span id) (atom rules) :=
  peek (take.last fun _ _ => placedFrom)

theorem testOrStar_of_atom (hfirst : StartsAtom first) (hbehind : EndsValue behind)
    (h : Reads (first :: kinds) (behind :: rest) IsGood (atom rules)) :
    Reads (first :: kinds) (behind :: rest) IsGood (testOrStar rules.next) := by
  refine lookAt false ?_ (test_of_atom hfirst hbehind h)
  cases hfirst <;> rfl

theorem namedTest_name {id : String} (hbehind : EndsValue behind) :
    Reads [.name id] (behind :: rest) (fun _ => True) (namedTest rules.next) := by
  refine peek (second ?_)
  have htest : Reads [.name id] (behind :: rest) (fun _ => True) (test rules) :=
    (test_of_atom (.name id) hbehind atom_name).imp fun _ _ => trivial
  cases hbehind <;> exact htest

theorem starNamed_name {id : String} (hbehind : EndsValue behind) :
    Reads [.name id] (behind :: rest) (fun _ => True) (starNamed rules.next) :=
  lookAt false rfl (namedTest_name hbehind)

end

/-! ### Comprehensions -/

section

variable [CharacterNames] {rules : Rules} {target : List Kind} {source : String} {bracket : Bracket}
  {IsGood : Placed → Prop}

theorem comprehension
    (h : Reads target (word .in_ :: .name source :: closing bracket :: rest) IsGood
      (targetList rules.next)) :
    Reads (loopOver target source) (closing bracket :: rest) (fun _ => True)
      (comprehension rules.next) := by
  have hsource : Reads [.name source] (closing bracket :: rest) (fun _ => True)
      (Grammar.disjunction rules) :=
    (disjunction_of_atom (.name source) (.closing bracket) atom_name).imp fun _ _ => trivial
  have hclause : Reads (loopOver target source) (closing bracket :: rest) (fun _ => True) (do
      Functor.discard (accept? (.keyword .async_))
      Functor.discard (Parser.expect (.keyword .for_))
      Functor.discard (targetList rules.next)
      Functor.discard (Parser.expect (.keyword .in_))
      Functor.discard (Grammar.disjunction rules)
      Functor.discard (manyWhile (· == .keyword .if_) do
        Functor.discard Parser.take
        Grammar.disjunction rules)) := by
    refine (refused ?_).discard.still fun _ _ => expect.discard.step fun _ _ =>
      h.discard.bind fun _ _ => expect.discard.step fun _ _ => hsource.discard.last fun _ _ =>
        (manyWhile_nil ?_).discard
    · rfl
    · rfl
  exact (manyWhile_one (List.cons_ne_nil _ _) rfl rfl hclause).discard

end

/-! ### Displays -/

section

variable [CharacterNames] {rules : Rules} {target : List Kind} {source element : String}
  {IsGood : Placed → Prop}

theorem listDisplay
    (h : Reads target (word .in_ :: .name source :: closing .square :: rest) IsGood
      (targetList rules.next)) :
    Reads (opening .square :: .name element :: (loopOver target source ++ [closing .square])) rest
      (IsForm .listComprehension) (listDisplay rules.next) := by
  refine expect.step fun token _ => refuse rfl ?_
  refine Reads.step (starNamed_name .loop) fun value _ => lookAny true rfl ?_
  refine (comprehension h).bind fun _ _ => expect.discard.last fun _ _ => ?_
  exact placedFrom.imp fun placed hplaced => ⟨placed.span, hplaced⟩

theorem curlyComprehension {form : Expr.Form} {start : Nat}
    (h : Reads target (word .in_ :: .name source :: closing .curly :: rest) IsGood
      (targetList rules.next)) :
    Reads (loopOver target source ++ [closing .curly]) rest (IsForm form)
      (curlyComprehension rules.next start form) := by
  refine (comprehension h).bind fun _ _ => expect.discard.last fun _ _ => ?_
  exact placedFrom.imp fun placed hplaced => ⟨placed.span, hplaced⟩

theorem curlyDisplay_set
    (h : Reads target (word .in_ :: .name source :: closing .curly :: rest) IsGood
      (targetList rules.next)) :
    Reads (opening .curly :: .name element :: (loopOver target source ++ [closing .curly])) rest
      (IsForm .setComprehension) (curlyDisplay rules.next) := by
  refine expect.step fun token _ => refuse rfl (refuse rfl (lookAt false rfl (second ?_)))
  refine Reads.step (namedTest_name .loop) fun value _ => lookAt false rfl ?_
  exact lookAny true rfl (curlyComprehension h)

theorem curlyDisplay_dict
    (h : Reads target (word .in_ :: .name source :: closing .curly :: rest) IsGood
      (targetList rules.next)) :
    Reads (opening .curly :: .name element :: colon :: .name element ::
        (loopOver target source ++ [closing .curly])) rest
      (IsForm .dictComprehension) (curlyDisplay rules.next) := by
  have hvalue : Reads [.name element] (loopOver target source ++ [closing .curly] ++ rest)
      (fun _ => True) rules.next.test :=
    (test_of_atom (.name element) .loop atom_name).imp fun _ _ => trivial
  refine expect.step fun token _ => refuse rfl (refuse rfl (lookAt false rfl (second ?_)))
  refine Reads.step (namedTest_name .colon) fun value _ => lookAt true rfl ?_
  refine take.discard.step fun _ _ => hvalue.discard.step fun _ _ => ?_
  exact lookAny true rfl (curlyComprehension h)

theorem parenthesized
    (h : Reads target (word .in_ :: .name source :: closing .round :: rest) IsGood
      (targetList rules.next)) :
    Reads (opening .round :: .name element :: (loopOver target source ++ [closing .round])) rest
      (IsForm .generator) (parenthesized rules.next) := by
  have hitem : Reads [.name element] (loopOver target source ++ closing .round :: rest)
      (fun _ => True) (enclosedItem rules.next) :=
    lookAt false rfl (second (Reads.last (starNamed_name .loop) fun _ _ => .pure trivial))
  have hcontent : Reads (.name element :: loopOver target source) (closing .round :: rest)
      (· = .generated) (enclosed rules.next) := by
    refine peek (lookAt false rfl (Reads.step hitem fun value _ => lookAny true rfl ?_))
    exact (comprehension h).last fun _ _ => .pure rfl
  refine expect.step fun token _ => ?_
  rw [← List.cons_append]
  refine hcontent.bind fun content hcontent => ?_
  subst hcontent
  refine expect.discard.last fun _ _ => ?_
  rw [ofEnclosed]
  exact placedFrom.imp fun placed hplaced => ⟨placed.span, hplaced⟩

/-- **A comprehension is read wherever a value is.** The target of its loop need only be one that
the grammar reads, and nothing of it is left in what is read. -/
theorem atom_comprehension (display : Display)
    (h : Reads target (word .in_ :: .name source :: closing display.bracket :: rest) IsGood
      (targetList rules.next)) :
    Reads (display.comprehension element target source) rest (IsForm display.form)
      (atom rules.next) := by
  cases display with
  | list => exact peek (listDisplay h)
  | set => exact peek (curlyDisplay_set h)
  | dict => exact peek (curlyDisplay_dict h)
  | generator => exact peek (parenthesized h)

end

/-! ### Statements -/

section

variable {rules : Rules} {first behind : Kind} {IsGood : Placed → Prop}

/-- A line with nothing but one statement. -/
theorem simpleLine {IsStmt : Stmt → Prop} (h : Reads kinds (.newline :: rest) IsStmt
      (simpleStatement rules)) :
    Reads (kinds ++ [.newline]) rest (fun stmts => ∃ stmt, stmts = [stmt] ∧ IsStmt stmt)
      (simpleLine rules) := by
  refine Reads.bind h fun stmt hstmt => (iterate_none (refuse rfl ?_)).still fun stmts hstmts =>
    expect.discard.last fun _ _ => .pure ?_
  · exact .pure rfl
  · subst hstmts
    exact ⟨stmt, rfl, hstmt⟩

theorem simpleStatement_pass :
    Reads [word .pass_] (.newline :: rest) (fun stmt => ∃ start, stmt = .simple start)
      (simpleStatement rules) :=
  nextStart.still fun start _ => peek (lookAny true rfl (take.discard.last fun _ _ =>
    .pure ⟨start, rfl⟩))

variable [CharacterNames]

/-- A value by itself, as a statement of its own. -/
theorem valueStatement (hfirst : StartsAtom first)
    (h : Reads (first :: kinds) (.newline :: rest) IsGood (atom rules)) :
    Reads (first :: kinds) (.newline :: rest) (fun stmt => ∃ start, stmt = .simple start)
      (valueStatement rules.next) := by
  have hvalue := tupleOf_one .newline (testOrStar_of_atom hfirst .newline h)
  have hvalues : ∀ value, Reads [] (.newline :: rest) (· = [value])
      (assignedValues rules.next value) := fun value => iterate_none (refuse rfl (.pure rfl))
  refine nextStart.still fun start _ => lookAt false ?_ (hvalue.last fun found hfound => ?_)
  · cases hfirst <;> rfl
  · obtain ⟨value, isLone⟩ := found
    obtain ⟨-, rfl⟩ := hfound
    refine lookAny false rfl (lookAt false rfl ((hvalues value.expr).last fun values hvalues => ?_))
    subst hvalues
    exact .pure ⟨start, rfl⟩

theorem simpleStatement_of_atom (hfirst : StartsAtom first)
    (h : Reads (first :: kinds) (.newline :: rest) IsGood (atom rules)) :
    Reads (first :: kinds) (.newline :: rest) (fun stmt => ∃ start, stmt = .simple start)
      (simpleStatement rules.next) := by
  have hvalue := valueStatement hfirst h
  refine nextStart.still fun start _ => peek ?_
  cases hfirst with
  | name id => exact lookAny false rfl hvalue
  | opening bracket => exact lookAny false rfl hvalue

/-- The rules of a program for its statements. -/
abbrev topLevel (rules : Rules) (depth : Nat) : Parser (List Stmt) :=
  statements rules (Pattern.level rules.embedded depth)
    (suiteLevel rules (Pattern.level rules.embedded depth) depth)

/-- A program that is one group of statements. -/
theorem program {IsProgram : List Stmt → Prop} {depth : Nat} (hfirst : first ≠ .newline)
    (h : Reads (first :: kinds) [] IsProgram (topLevel rules depth)) :
    Reads (first :: kinds) [] IsProgram (program rules depth) := by
  have hnewline : (some first == some Kind.newline) = false :=
    beq_eq_false_iff_ne.mpr fun hsome => hfirst (Option.some.inj hsome)
  have hpart : Reads (first :: kinds) [] IsProgram
      (do if ← accept? .newline then pure [] else topLevel rules depth) := refuse hnewline h
  refine (manyWhile_one (List.cons_ne_nil first kinds) rfl rfl hpart).last
    fun parts hparts => .pure ?_
  obtain ⟨stmts, rfl, hstmts⟩ := hparts
  rwa [List.flatten_singleton]

theorem topLevel_of_atom {depth : Nat} (hfirst : StartsAtom first)
    (h : Reads (first :: kinds) [.newline] IsGood (atom rules)) :
    Reads (first :: (kinds ++ [.newline])) [] (fun stmts => ∃ start, stmts = [.simple start])
      (topLevel rules.next depth) := by
  have hline : Reads (first :: (kinds ++ [.newline])) []
      (fun stmts => ∃ start, stmts = [.simple start]) (Grammar.simpleLine rules.next) := by
    refine (simpleLine (simpleStatement_of_atom hfirst h)).imp fun stmts hstmts => ?_
    obtain ⟨_, rfl, start, rfl⟩ := hstmts
    exact ⟨start, rfl⟩
  refine nextStart.still fun _ _ => peek ?_
  cases hfirst with
  | name id => exact hline
  | opening bracket => exact hline

/-- A block on the line of its statement, with nothing to do. -/
theorem block_pass {pattern : Parser PatternStart} {depth : Nat} :
    Reads [colon, word .pass_, .newline] rest (fun stmts => ∃ start, stmts = [.simple start])
      (block (suiteLevel rules pattern (depth + 1))) := by
  have hline : Reads [word .pass_, .newline] rest (fun stmts => ∃ start, stmts = [.simple start])
      (Grammar.simpleLine rules) := by
    refine Reads.imp (simpleLine simpleStatement_pass) fun stmts hstmts => ?_
    obtain ⟨_, rfl, start, rfl⟩ := hstmts
    exact ⟨start, rfl⟩
  exact expect.discard.step fun _ _ => refuse rfl hline

theorem testList_name {id : String} (hbehind : EndsValue behind) :
    Reads [.name id] (behind :: rest) (fun _ => True) (testList rules.next) :=
  (tupleOf_one hbehind (testOrStar_of_atom (.name id) hbehind atom_name)).last
    fun _ _ => .pure trivial

/-- A loop over something with a name, with nothing to do. -/
theorem forStatement {pattern : Parser PatternStart} {depth start : Nat} {target : List Kind}
    {source : String}
    (h : Reads target (word .in_ :: .name source :: [colon, word .pass_, .newline]) IsGood
      (targetList rules.next)) :
    Reads (loopOver target source ++ [colon, word .pass_, .newline]) []
      (fun stmt => ∃ placed body, IsGood placed ∧
        stmt = .forLoop start false placed.expr [.simple body] [])
      (forStatement rules.next (suiteLevel rules.next pattern (depth + 1)) start false) := by
  have helse : ∀ suite, Reads [] [] (· = []) (elseBlock suite) :=
    fun suite => refuse rfl (.pure rfl)
  rw [loopOver, List.cons_append, List.append_assoc]
  refine expect.discard.step fun _ _ => h.bind fun placed hplaced => ?_
  refine expect.discard.step fun _ _ => (testList_name .colon).discard.step fun _ _ => ?_
  refine block_pass.last fun stmts hstmts => (helse _).last fun orelse horelse => .pure ?_
  obtain ⟨body, rfl⟩ := hstmts
  subst horelse
  exact ⟨placed, body, hplaced, rfl⟩

theorem topLevel_for {depth : Nat} {target : List Kind} {source : String}
    (h : Reads target (word .in_ :: .name source :: [colon, word .pass_, .newline]) IsGood
      (targetList rules.next)) :
    Reads (loopOver target source ++ [colon, word .pass_, .newline]) []
      (fun stmts => ∃ start placed body, IsGood placed ∧
        stmts = [.forLoop start false placed.expr [.simple body] []])
      (topLevel rules.next (depth + 1)) := by
  refine nextStart.still fun start _ => peek ((forStatement h).last fun stmt hstmt => .pure ?_)
  obtain ⟨placed, body, hplaced, rfl⟩ := hstmt
  exact ⟨start, placed, body, hplaced, rfl⟩

/-- A program that is a loop over something with a name, with nothing to do. -/
theorem program_for {depth : Nat} {target : List Kind} {source : String}
    (h : Reads target (word .in_ :: .name source :: [colon, word .pass_, .newline]) IsGood
      (targetList rules.next)) :
    Reads (loopOver target source ++ [colon, word .pass_, .newline]) []
      (fun stmts => ∃ start placed body, IsGood placed ∧
        stmts = [.forLoop start false placed.expr [.simple body] []])
      (Grammar.program rules.next (depth + 1)) :=
  program Kind.noConfusion (topLevel_for h)

/-- A program that is a comprehension. -/
theorem program_comprehension {depth : Nat} (display : Display) {element source : String}
    {target : List Kind}
    (h : Reads target (word .in_ :: .name source :: closing display.bracket :: [.newline]) IsGood
      (targetList rules.next)) :
    Reads (display.comprehension element target source ++ [.newline]) []
      (fun stmts => ∃ start, stmts = [.simple start])
      (Grammar.program rules.next.next depth) :=
  program Kind.noConfusion (topLevel_of_atom (.opening display.bracket)
    (atom_comprehension display h))

end

end Reads

/-! ### Targets -/

/-- The `for` is not there any more where the target is read. -/
theorem weightAll_loopOver (kinds : List Kind) (source : String) (rest : List Kind) :
    weightAll (loopOver kinds source ++ rest) =
      weightAll (kinds ++ word .in_ :: .name source :: rest) + 1 := by
  have hfor : (word .for_).weight = 1 := rfl
  rw [loopOver, List.cons_append, List.append_assoc, weightAll, hfor]
  exact Nat.add_comm _ _

/-- Neither are the bracket and the element of a comprehension. -/
theorem weightAll_comprehension (display : Display) (element : String) (kinds : List Kind)
    (source : String) (rest : List Kind) :
    weightAll (kinds ++ word .in_ :: .name source :: closing display.bracket :: rest) + 3 ≤
      weightAll (display.comprehension element kinds source ++ rest) := by
  have hopening : (opening display.bracket).weight = 1 := rfl
  have helement : 1 ≤ weightAll (display.element element) := by
    cases display with
    | dict => exact Nat.le_add_left 1 2
    | _ => exact Nat.le_refl 1
  have hloop := weightAll_loopOver kinds source (closing display.bracket :: rest)
  simp only [Display.comprehension, List.cons_append, List.append_assoc, List.nil_append,
    weightAll, weightAll_append (display.element element), hopening, hloop]
  omega

theorem State.load_eq (s : State) : s.load = weightAll s.kinds :=
  rfl

theorem State.ahead_eq (s : State) (distance : Nat) : s.ahead distance = s.kinds[distance]? := by
  rw [ahead, kinds, List.getElem?_map]

theorem State.IsBehind.kinds {s s' : State} {count : Nat} (h : s.IsBehind s' count) :
    s'.kinds = s.kinds.drop count := by
  rw [State.kinds, State.kinds, h.tokens, List.map_drop]

/-- Somewhere, the grammar reads these tokens as the target of a loop over something with the
name. -/
def IsLoopTarget [CharacterNames] (kinds : List Kind) (source : String) (target : Expr) : Prop :=
  ∃ depth s placed s' rest, s.HasRounds ∧
    s.kinds = kinds ++ word .in_ :: .name source :: rest ∧
    targetList (Rules.level depth) s = .ok (placed, s') ∧
    s'.kinds = word .in_ :: .name source :: rest ∧ placed.expr = target

theorem Rules.level_succ [CharacterNames] (depth : Nat) :
    Rules.level (depth + 1) = (Rules.level depth).next :=
  rfl

/-- What is a loop's target somewhere is one everywhere, as long as there are levels enough for what
is left there. -/
theorem IsLoopTarget.reads [CharacterNames] {kinds : List Kind} {source : String} {target : Expr}
    (h : IsLoopTarget kinds source target) {rest : List Kind} {depth : Nat}
    (hdepth : weightAll (kinds ++ word .in_ :: .name source :: rest) < depth) :
    Reads kinds (word .in_ :: .name source :: rest) (fun placed => placed.expr.bare = target.bare)
      (targetList (Rules.level depth)) := by
  obtain ⟨depth₀, s, placed, s', rest₀, hrounds, hkinds, hread, hkinds', rfl⟩ := h
  have hshadow : Shadows Anything depth _ _ _ _ :=
    Shadows.targetList (Rules.level_shadow depth₀ depth (Nat.le_refl depth))
  obtain ⟨c, hbehind, -, hrest⟩ := hshadow trivial hrounds hread
  -- The rule took just the tokens of the target, as what follows was still there.
  have hc : c = kinds.length := by
    have hlength := congrArg List.length hkinds
    have hlength' := congrArg List.length hkinds'
    rw [hbehind.kinds, hkinds] at hlength'
    have hle := hbehind.le
    rw [State.kinds, List.length_map] at hlength
    simp only [List.length_drop, List.length_append, List.length_cons] at hlength hlength'
    omega
  subst hc
  intro t ht
  have hload : t.load < depth := by rwa [State.load_eq, ht.kinds]
  -- It looked no further than at the next two, which are the same in both places.
  have hresembles : s.Resembles t (kinds.length + 2) := by
    refine ⟨fun distance hlt => ?_, fun _ _ => ht.ending⟩
    have hsame : ∀ rest : List Kind, (kinds ++ word .in_ :: .name source :: rest)[distance]? =
        (kinds ++ [word .in_, .name source])[distance]? := by
      intro rest
      have hsplit : kinds ++ word .in_ :: .name source :: rest =
          kinds ++ [word .in_, .name source] ++ rest := by
        rw [List.append_assoc]
        rfl
      rw [hsplit, List.getElem?_append_left]
      rwa [List.length_append]
    rw [State.ahead_eq, State.ahead_eq, hkinds, ht.kinds, hsame rest₀, hsame rest]
  obtain ⟨found, t', hfound, hview, htbehind, -⟩ := hrest ht.hasRounds hload hresembles
  refine ⟨found, t', hfound, hview.symm, ?_, ?_, htbehind.hasRounds ht.hasRounds⟩
  · rw [htbehind.kinds, ht.kinds, List.drop_left]
  · rw [htbehind.ending]
    exact ht.ending

end SourceOutline.Grammar
