import SchemaBoard.TypeExpr.Basic

set_option autoImplicit false

/-!
Members: the named, typed fields that a declaration lists.
-/
namespace SchemaBoard

/-- A named, typed field of a declaration. -/
structure Member where
  /-- The name of the field. -/
  name : Text
  /-- The declared type. -/
  type : TypeExpr
  /-- Whether the field may be absent. -/
  optional : Bool := false
  /-- Whether the field may not be written. -/
  readonly : Bool := false
  /-- The text that documents the field. -/
  comment : Option Text := none
deriving DecidableEq, Repr

end SchemaBoard
