import SchemaBoard.Proofs.TypeExpr.References

set_option autoImplicit false

/-!
The nodes of a type that is read. Main statement: every node that occurs in it has as many parts as
its kind asks for, and a name that is neither empty nor padded.
-/
namespace SchemaBoard.TypeExpr

open Shape
open Text (Solid)

/-- The shapes a node of a tree is meant to have. -/
def IsWellFormed : TypeExpr → Prop
  | primitive _ => True
  | custom name => name ≠ [] ∧ Text.trim name = name
  | union members | intersection members => 2 ≤ members.length
  | builtIn .array arguments | builtIn .set arguments => arguments.length ≤ 1
  | builtIn .tuple _ => True
  | builtIn .map arguments | builtIn .object arguments =>
    arguments.length = 0 ∨ arguments.length = 2
  | builtIn .generic _ => False

theorem check_of_occurs {check : TypeExpr → Bool} {node type : TypeExpr}
    (all : everywhere check type = true) (occurs : Occurs node type) : check node = true := by
  induction occurs with
  | here => exact check_of_everywhere all
  | within member inside ih => exact ih (everywhere_of_mem_parts all member)

theorem isWellFormed_of_isReadNode {node : TypeExpr} (made : isReadNode node = true) :
    IsWellFormed node := by
  obtain ⟨arity, named⟩ := (Bool.and_eq_true _ _).mp made
  match node with
  | primitive _ => trivial
  | custom name =>
    have solid : Solid name := of_decide_eq_true named
    exact ⟨solid.nonempty, Text.trim_eq_self solid.trimmed⟩
  | union members | intersection members =>
    have several : 2 ≤ members.length := of_decide_eq_true arity
    exact several
  | builtIn .array arguments | builtIn .set arguments =>
    have few : arguments.length ≤ 1 := of_decide_eq_true arity
    exact few
  | builtIn .tuple _ => trivial
  | builtIn .map arguments => exact ((Bool.or_eq_true _ _).mp arity).imp eq_of_beq eq_of_beq
  | builtIn .object arguments => exact ((Bool.or_eq_true _ _).mp arity).imp eq_of_beq eq_of_beq
  | builtIn .generic _ => cases arity

/-- Whatever a text is, every node of the type that it is read as is well formed. -/
theorem isWellFormed_of_occurs_read {text : Text} {node : TypeExpr}
    (occurs : Occurs node (read text)) : IsWellFormed node :=
  isWellFormed_of_isReadNode (check_of_occurs (everywhere_isReadNode_read text) occurs)

/-- A tuple with an empty element, and in it a map that lacks an argument and has a stray operator
in the other one. -/
theorem isWellFormed_of_occurs_read_stray :
    read "[, Map<A |>]".toText =
        builtIn .tuple [builtIn .map [custom "A |".toText, primitive .unknown]] ∧
      IsWellFormed (builtIn .map [custom "A |".toText, primitive .unknown]) ∧
      IsWellFormed (custom "A |".toText) := by
  have tuple : ofText "[, Map<A |>]".toText = .tuple ["Map<A |>".toText] := by decide +kernel
  have map : ofText "Map<A |>".toText = .applied "Map".toText ["A |".toText] := by decide +kernel
  have word : ofText "A |".toText = .word "A |".toText := by decide +kernel
  have inner : read "Map<A |>".toText = builtIn .map [custom "A |".toText, primitive .unknown] := by
    rw [read_eq, map]
    dsimp only
    rw [List.map_singleton, read_eq "A |".toText, word]
    rfl
  have value : read "[, Map<A |>]".toText =
      builtIn .tuple [builtIn .map [custom "A |".toText, primitive .unknown]] := by
    rw [read_eq, tuple]
    dsimp only
    rw [List.map_singleton, inner]
  have outer : Occurs (builtIn .map [custom "A |".toText, primitive .unknown])
      (read "[, Map<A |>]".toText) := value ▸ .within List.mem_cons_self .here
  have leaf : Occurs (custom "A |".toText) (read "[, Map<A |>]".toText) :=
    value ▸ .within List.mem_cons_self (.within List.mem_cons_self .here)
  exact ⟨value, isWellFormed_of_occurs_read outer, isWellFormed_of_occurs_read leaf⟩

end SchemaBoard.TypeExpr
