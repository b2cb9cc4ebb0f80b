import SourceOutline.Response
import SourceOutline.Proofs.Outline.Definitions
import SourceOutline.Proofs.Position.Inside

/-!
# Analyses and validations of one text

Whether a text is a program, and what is wrong with it if not, is answered by an analysis and by a
validation alike: they differ only in what else they say about a program. Every node of an outline
has a position in the text (`Outline.isIn_of_mem_walk`), whatever the offsets are that come with the
statements; and all errors are **located**, those of the grammar and those of targets: they carry a
position in the text, at whatever offset the fault is reported (`isLocated_ofFault`,
`isLocated_ofTarget`).

**Main result** (`concur_ofText`): for every text the two answers concur, each node of its outline
has a position in the text, and so has the error of a text that is no program.
-/

namespace SourceOutline

namespace Outline

variable {source : Source}

/-- Whether all nodes of some trees are placed at offsets of the source. -/
def AllPlaced (source : Source) (nodes : List Node) : Prop :=
  ∀ node ∈ Node.visit nodes, ∃ offset, node.position = source.position offset

/-- **The nodes of statements are placed at offsets**, with all that is inside them. -/
theorem allPlaced_ofStmts (program : List Stmt) : AllPlaced source (ofStmts source program) := by
  intro node hnode
  rw [Part.ofStmts_eq_map, Part.visit_map_node] at hnode
  obtain ⟨part, -, rfl⟩ := List.mem_map.mp hnode
  exact ⟨_, part.position_node source⟩

/-- **Every node has a position in the text**, whatever the offsets are that the statements
have. -/
theorem isIn_of_mem_walk {text : List Char} {program : List Stmt} {node : Node}
    (h : node ∈ (ofProgram (.ofText text) program).walk) : node.position.IsIn text := by
  rw [ofProgram, Node.walk_mk] at h
  rcases List.mem_cons.mp h with rfl | h
  · exact LineTable.isIn_first text
  · obtain ⟨offset, hposition⟩ := allPlaced_ofStmts program node h
    rw [hposition]
    exact LineTable.isIn_position text offset

end Outline

/-- Whether an error has a position in the text. -/
def SyntaxError.IsLocated (text : List Char) (error : SyntaxError) : Prop :=
  ∃ position, error.position = some position ∧ position.IsIn text

/-- How the answers about a text go together: there is an outline with all its nodes in the text,
and a report made of it, or there is one error, with a position in the text, that both tell. -/
inductive Concur [CharacterNames] (text : List Char) : AnalysisResponse → ValidationResponse → Prop
  | program {tree : Node} (htree : parse text = .ok tree)
    (hnodes : ∀ node ∈ tree.walk, node.position.IsIn text) :
    Concur text (.success true (.ofTree tree)) ⟨true, none⟩
  | error {message : String} {position : Position} (h : position.IsIn text) :
    Concur text (.failure false message (some position.line) (some position.column))
      ⟨false, some ⟨message, some position.line, some position.column⟩⟩

variable {text : List Char}

theorem isLocated_ofFault (fault : Fault) :
    (SyntaxError.ofFault (.ofText text) fault).IsLocated text :=
  ⟨_, rfl, LineTable.isIn_position text fault.offset⟩

theorem isLocated_ofTarget (invalid : InvalidTarget) :
    (SyntaxError.ofTarget (.ofText text) invalid).IsLocated text :=
  ⟨_, rfl, LineTable.isIn_position text invalid.offset⟩

/-- The error of a text that is no program is located. -/
theorem isLocated_of_program [CharacterNames] {error : SyntaxError}
    (h : (Source.ofText text).program = .error error) : error.IsLocated text := by
  rw [Source.program] at h
  split at h
  · next fault _ =>
    obtain rfl := Except.error.inj h
    exact isLocated_ofFault fault
  · split at h
    · next invalid _ =>
      obtain rfl := Except.error.inj h
      exact isLocated_ofTarget invalid
    · cases h

/-- An analysis of a text and its validation go together. -/
theorem concur [CharacterNames] (text : List Char) : Concur text (.ofText text) (.ofText text) := by
  rw [AnalysisResponse.ofText, ValidationResponse.ofText, analyze, validate]
  cases hprogram : (Source.ofText text).program with
  | ok program =>
    have htree : parse text = .ok (Outline.ofProgram (.ofText text) program) := by
      rw [parse, hprogram]
      rfl
    rw [htree]
    exact .program htree fun node hnode => Outline.isIn_of_mem_walk hnode
  | error error =>
    have htree : parse text = .error error := by
      rw [parse, hprogram]
      rfl
    rw [htree]
    obtain ⟨message, position⟩ := error
    obtain ⟨position, rfl, hposition⟩ := isLocated_of_program hprogram
    exact .error hposition

/-- **What is said about a text.** An analysis fails exactly where a validation does, with the same
message, line and column, which are never missing; and every position that is told is one in the
text, at whatever offsets the statements, the faults and the targets are. -/
theorem concur_ofText [CharacterNames] (text : List Char) :
    Concur text (.ofText text) (.ofText text) ∧
    (∀ program, ∀ node ∈ (Outline.ofProgram (.ofText text) program).walk,
      node.position.IsIn text) ∧
    (∀ fault, (SyntaxError.ofFault (.ofText text) fault).IsLocated text) ∧
    ∀ invalid, (SyntaxError.ofTarget (.ofText text) invalid).IsLocated text :=
  ⟨concur text, fun _ _ hnode => Outline.isIn_of_mem_walk hnode, isLocated_ofFault,
    isLocated_ofTarget⟩

/-- An offset inside a character behind a line end of two characters, in front of one past the end
of the text. -/
theorem concur_ofText_midCharacter :
    let text := "a\r\né".toList
    let node := Outline.ofStmt (.ofText text) (.simple 4)
    Concur text (.ofText text) (.ofText text) ∧
      node ∈ (Outline.ofProgram (.ofText text) [.simple 4, .simple 99]).walk ∧
      node.position = ⟨2, 1⟩ ∧ node.position.IsIn text := by
  have hmem : Stmt.simple 4 ∈ Stmt.visit [.simple 4, .simple 99] := by
    rw [Stmt.visit_cons]
    exact List.mem_cons_self
  have hnode : Outline.ofStmt (.ofText "a\r\né".toList) (.simple 4) ∈
      (Outline.ofProgram (.ofText "a\r\né".toList) [.simple 4, .simple 99]).walk :=
    Outline.ofStmt_mem_walk hmem
  obtain ⟨hconcur, hnodes, -⟩ := concur_ofText "a\r\né".toList
  exact ⟨hconcur, hnode, by decide, hnodes _ _ hnode⟩

end SourceOutline
