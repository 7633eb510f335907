import SchemaBoard.Member.Basic
import SchemaBoard.Text.Blank
import SchemaBoard.TypeExpr.Printer

set_option autoImplicit false

/-!
Members as source text.
-/
namespace SchemaBoard.Member

/-- The written name of a member; a blank one gets a name of its own. -/
def nameText (name : Text) : Text :=
  let trimmed := Text.trim name
  if trimmed.isEmpty then "unnamed".toText else trimmed

def signature (member : Member) : Text :=
  (if member.readonly then "readonly ".toText else []) ++ nameText member.name ++
    (if member.optional then [.char '?'] else []) ++ ": ".toText ++ member.type.render

/-- A member as a signature; its comment is not part of it. -/
def render (member : Member) : Text := member.signature ++ [.char ';']

end SchemaBoard.Member
