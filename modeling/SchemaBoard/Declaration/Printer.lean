import SchemaBoard.Declaration.Basic
import SchemaBoard.Member.Printer
import SchemaBoard.Text.Lines

set_option autoImplicit false

/-!
Declarations as source text. Comment marks inside comment text are broken up, so no comment ends
before its text does.
-/
namespace SchemaBoard.Outline

def commentLines (comment : Text) : List Text :=
  "/**".toText ::
    (Text.lines comment).map (fun line => Text.trimEnd (" * ".toText ++ Text.breakCloses line)) ++
    [" */".toText]

/-- The lines of the comment block of a declaration; an empty comment has none. -/
def headerLines : Option Text → List Text
  | some comment => if comment.isEmpty then [] else commentLines comment
  | none => []

/-- The line that documents a member; an empty comment has none. -/
def memberCommentLines : Option Text → List Text
  | some comment =>
    if comment.isEmpty then []
    else
      ["  /** ".toText ++ Text.breakCloses (Text.join [' '] (Text.lines comment)) ++ " */".toText]
  | none => []

def memberLines (member : Member) : List Text :=
  memberCommentLines member.comment ++ ["  ".toText ++ member.render]

/-- The members as an inline object type. -/
def inlineObject (members : List Member) : Text :=
  "\x7b ".toText ++ Text.join "; ".toText (members.map Member.signature) ++ " \x7d".toText

/-- The right-hand side of an alias: its union if a member of it is not blank, else its
intersection, else its members, else unknown. -/
def aliasRoot (declaration : Declaration) : Text :=
  let union := declaration.unionTypes.filter fun text => !Text.allBlank text
  let intersection := declaration.intersectionTypes.filter fun text => !Text.allBlank text
  if !union.isEmpty then Text.join " | ".toText union
  else if !intersection.isEmpty then Text.join " & ".toText intersection
  else if !declaration.fields.isEmpty then inlineObject declaration.fields
  else "unknown".toText

def nameText (name : Text) : Text := if name.isEmpty then "Unnamed".toText else name

def basesText (bases : List Text) : Text :=
  if bases.isEmpty then [] else " extends ".toText ++ Text.join ", ".toText bases

/-- The lines of a declaration below its comment. An enumeration has an empty body. -/
def bodyLines (declaration : Declaration) : List Text :=
  let name := nameText declaration.name
  match declaration.kind with
  | .type | .synonym =>
    ["type ".toText ++ name ++ " = ".toText ++ aliasRoot declaration ++ [.char ';']]
  | .enum => ["enum ".toText ++ name ++ " \x7b".toText, "\x7d".toText]
  | .interface =>
    ["interface ".toText ++ name ++ basesText declaration.bases ++ " \x7b".toText] ++
      declaration.fields.flatMap memberLines ++ ["\x7d".toText]

def render (declaration : Declaration) : Text :=
  Text.join ['\n'] (headerLines declaration.comment ++ bodyLines declaration)

/-- Declarations as source text, with a blank line between neighbours. -/
def renderAll (declarations : List Declaration) : Text :=
  Text.join ['\n', '\n'] (declarations.map render)

end SchemaBoard.Outline
