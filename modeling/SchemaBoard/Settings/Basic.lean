import SchemaBoard.Declaration.Basic
import SchemaBoard.Member.Reader

set_option autoImplicit false

/-!
Editor settings: the defaults for boxes that are made without saying more.
-/
namespace SchemaBoard

/-- The defaults for new boxes. -/
structure Settings where
  /-- What the names of new boxes begin with; a number follows. -/
  nameStem : Text := "NewType".toText
  /-- The kind of a box that is made without a kind. -/
  defaultKind : DeclarationKind := .type
  /-- The signatures of the members of a box that is made without properties. -/
  propertyLines : List Text := ["id: string".toText, "name: string".toText]
deriving DecidableEq, Repr

/-- The members of a box that is made without properties. Lines that are no signature are passed
over. -/
def Settings.members (settings : Settings) : List Member :=
  settings.propertyLines.filterMap Member.read?

end SchemaBoard
