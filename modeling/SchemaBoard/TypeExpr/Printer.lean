import SchemaBoard.TypeExpr.Basic

set_option autoImplicit false

/-!
Types as source text. An array is written with the suffix `[]`, an object as a record, and missing
arguments are filled in, so every type has a written form.
-/
namespace SchemaBoard.TypeExpr

def unionMark : Text := " | ".toText

def intersectionMark : Text := " & ".toText

/-- A name as it is written; the empty name is unknown. -/
def nameText (name : Text) : Text := if name.isEmpty then "unknown".toText else name

/-- The operands with `mark` between them; without any the type is unknown. -/
def operandText (mark : Text) (written : List Text) : Text :=
  if written.isEmpty then "unknown".toText else Text.join mark written

def appliedText (name : Text) (written : List Text) : Text :=
  name ++ .char '<' :: Text.join ", ".toText written ++ [.char '>']

/-- The element in front of an array suffix: several element types mean any of them. -/
def elementText (compound : Bool) (written : List Text) : Text :=
  match written with
  | [] => "any".toText
  | [element] => Text.parenthesize compound element
  | several => Text.parenthesize true (Text.join unionMark several)

/-- A container, given its written arguments and whether the first of them is compound. -/
def containerText (head : Container) (compound : Bool) (written : List Text) : Text :=
  match head with
  | .array => elementText compound written ++ [.char '[', .char ']']
  | .tuple => .char '[' :: Text.join ", ".toText written ++ [.char ']']
  | .set => appliedText "Set".toText [written.getD 0 "unknown".toText]
  | .map =>
    appliedText "Map".toText [written.getD 0 "unknown".toText, written.getD 1 "unknown".toText]
  | .object =>
    appliedText "Record".toText [written.getD 0 "string".toText, written.getD 1 "unknown".toText]
  | .generic => if written.isEmpty then Container.name .generic
    else appliedText (Container.name .generic) written

mutual

def render : TypeExpr → Text
  | primitive p => p.keyword
  | custom name => nameText name
  | union members => operandText unionMark (renderAll members)
  | intersection members => operandText intersectionMark (renderConjuncts members)
  | builtIn head arguments =>
    containerText head (arguments.head?.any isCompound) (renderAll arguments)

def renderAll : List TypeExpr → List Text
  | [] => []
  | type :: rest => render type :: renderAll rest

/-- Each member of an intersection as source text; a union of several is put in parentheses. -/
def renderConjuncts : List TypeExpr → List Text
  | [] => []
  | type :: rest => Text.parenthesize type.isChoice (render type) :: renderConjuncts rest

end

theorem renderAll_eq_map (types : List TypeExpr) : renderAll types = types.map render := by
  induction types with
  | nil => rfl
  | cons type rest ih => simp [renderAll, ih]

theorem renderConjuncts_eq_map (types : List TypeExpr) :
    renderConjuncts types =
      types.map fun type => Text.parenthesize type.isChoice (render type) := by
  induction types with
  | nil => rfl
  | cons type rest ih => simp [renderConjuncts, ih]

end SchemaBoard.TypeExpr
