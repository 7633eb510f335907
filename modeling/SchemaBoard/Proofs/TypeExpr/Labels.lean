import SchemaBoard.Proofs.Text.Lines
import SchemaBoard.Proofs.TypeExpr.Reading
import SchemaBoard.TypeExpr.Label

set_option autoImplicit false

/-!
Labels and source text. Main statement: a type without empty names has the text as its label that it
is written as, and a type that is read has no empty names.
-/
namespace SchemaBoard.TypeExpr

/-- Whether a node names nothing, or with a name that is not empty. -/
def isNamed : TypeExpr → Bool
  | custom name => !name.isEmpty
  | _ => true

theorem isNamed_of_isReadNode (node : TypeExpr) (made : isReadNode node = true) :
    isNamed node = true := by
  obtain ⟨-, named⟩ := (Bool.and_eq_true _ _).mp made
  match node with
  | custom name =>
    have solid : Text.Solid name := of_decide_eq_true named
    simpa [isNamed] using solid.nonempty
  | primitive _ | union _ | intersection _ | builtIn _ _ => rfl

/-- A label that opens with a name and an angle bracket is the name applied to the arguments. -/
theorem append_join_eq_appliedText {opening name : Text} (opens : opening = name ++ [.char '<'])
    (written : List Text) :
    opening ++ Text.join ", ".toText written ++ [.char '>'] = appliedText name written := by
  rw [opens, appliedText, List.append_assoc name, List.singleton_append]

theorem join_pair (first second : Text) :
    Text.join ", ".toText [first, second] = first ++ ", ".toText ++ second := by
  rw [Text.join_cons_cons, Text.join_singleton]

/-- A container has the same label and the same written form over the same arguments. Several
element types of an array are joined inside the one and made a union for the other. -/
theorem containerLabel_eq_containerText (head : Container) (compound : Bool)
    (written : List Text) :
    containerLabel head compound written = containerText head compound written := by
  cases head with
  | array =>
    match written with
    | [] | [_] => rfl
    | one :: other :: rest =>
      have label : containerLabel .array compound (one :: other :: rest) =
          .char '(' :: Text.join " | ".toText (one :: other :: rest) ++ ")[]".toText := rfl
      have text : containerText .array compound (one :: other :: rest) =
          .char '(' :: Text.join unionMark (one :: other :: rest) ++ [.char ')'] ++
            [.char '[', .char ']'] := rfl
      rw [label, text, List.append_assoc, unionMark]
      rfl
  | tuple => rfl
  | set =>
    have opens : "Set<".toText = "Set".toText ++ [.char '<'] := rfl
    rw [containerText, ← append_join_eq_appliedText opens, Text.join_singleton]
    cases written <;> rfl
  | map =>
    have opens : "Map<".toText = "Map".toText ++ [.char '<'] := rfl
    rw [containerText, ← append_join_eq_appliedText opens, join_pair]
    match written with
    | [] | [_] | _ :: _ :: _ => simp [containerLabel]
  | object =>
    have opens : "Record<".toText = "Record".toText ++ [.char '<'] := rfl
    rw [containerText, ← append_join_eq_appliedText opens, join_pair]
    match written with
    | [] | [_] | _ :: _ :: _ => simp [containerLabel]
  | generic =>
    have opens : "Generic<".toText = Container.name .generic ++ [.char '<'] := rfl
    rw [containerText, ← append_join_eq_appliedText opens]
    rfl

theorem label_eq_render {type : TypeExpr} (named : everywhere isNamed type = true) :
    type.label = type.render := by
  induction type using parts_induction with
  | step type ih =>
    obtain ⟨here, inside⟩ := everywhere_iff.mp named
    have parts : ∀ part ∈ type.parts, part.label = part.render :=
      fun part member => ih part member (inside part member)
    cases type with
    | primitive p => rfl
    | custom name =>
      have some : ¬name.isEmpty = true := by simpa [isNamed] using here
      rw [label, render, nameText, if_neg some]
    | union members =>
      have same : members.map label = members.map render := List.map_congr_left parts
      rw [label, render, labels_eq_map, renderAll_eq_map, same, operandText, unionMark]
      cases members <;> rfl
    | intersection members =>
      have same : (members.map fun type => Text.parenthesize type.isChoice type.label) =
          members.map fun type => Text.parenthesize type.isChoice type.render :=
        List.map_congr_left fun part member => by rw [parts part member]
      rw [label, render, groupedLabels_eq_map, renderConjuncts_eq_map, same, operandText,
        intersectionMark]
      cases members <;> rfl
    | builtIn head arguments =>
      have same : arguments.map label = arguments.map render := List.map_congr_left parts
      rw [label, render, labels_eq_map, renderAll_eq_map, same, containerLabel_eq_containerText]

/-- Labels agree with source text wherever no reference has the empty name, and so for everything
that is read. -/
theorem label_agrees :
    (∀ type : TypeExpr, everywhere isNamed type = true → type.label = type.render) ∧
      ∀ text, (read text).label = (read text).render :=
  ⟨fun _ named => label_eq_render named, fun text =>
    label_eq_render (everywhere_mono isNamed_of_isReadNode (everywhere_isReadNode_read text))⟩

/-- An array of several element types, one of which is an intersection with a union in it, and a map
that lacks an argument. -/
theorem label_agrees_nested :
    (builtIn .array
      [intersection [union [custom "A".toText, primitive .null], custom "B".toText],
        builtIn .map [custom "K".toText]]).label =
      "((A | null) & B | Map<K, unknown>)[]".toText ∧
    (builtIn .array
      [intersection [union [custom "A".toText, primitive .null], custom "B".toText],
        builtIn .map [custom "K".toText]]).render =
      "((A | null) & B | Map<K, unknown>)[]".toText := by
  have text : (builtIn .array
      [intersection [union [custom "A".toText, primitive .null], custom "B".toText],
        builtIn .map [custom "K".toText]]).render =
      "((A | null) & B | Map<K, unknown>)[]".toText := by decide +kernel
  exact ⟨(label_agrees.1 _ (by decide)).trans text, text⟩

/-- The empty name is written as unknown and has no label. -/
example : (custom []).label = [] ∧ (custom []).render = "unknown".toText := by decide

end SchemaBoard.TypeExpr
