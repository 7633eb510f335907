import SchemaBoard.Declaration.Basic
import SchemaBoard.Declaration.Comment
import SchemaBoard.Member.Reader

set_option autoImplicit false

/-!
Reading one declaration. Interfaces and type aliases are supported; for every other form the answer
is that there is none.
-/
namespace SchemaBoard.Outline

/-- The text of one line in front of a line comment. -/
def dropLineComment (line : Text) : Text :=
  match Text.cut? "//".toText line with
  | some (before, _) => before
  | none => line

/-- The members on one line, which semicolons outside all brackets separate. What is no signature is
left out. -/
def lineMembers (line : Text) : List Member :=
  (Text.splitOutside Text.Brackets.withBraces [';'] line).filterMap Member.read?

/-- The comment put on the first of the members, if there is one, and the comment still unused. -/
def document (comment : Option Text) : List Member → List Member × Option Text
  | [] => ([], comment)
  | first :: rest =>
    match comment with
    | some text => ({ first with comment := some text } :: rest, none)
    | none => (first :: rest, none)

/-- The members of the lines of a body. A line that is one doc comment documents the next member
behind it, in place of any earlier comment that is still unused. -/
def readLines : Option Text → List Text → List Member
  | _, [] => []
  | pending, raw :: rest =>
    let line := Text.trim raw
    match Comment.wholeDoc? line with
    | some inside =>
      let comment := Comment.dedent inside
      readLines (if comment.isEmpty then none else some comment) rest
    | none =>
      let (members, unused) := document pending (lineMembers (Text.trim (dropLineComment line)))
      members ++ readLines unused rest

def readMembers (body : Text) : List Member := readLines none (Text.lines body)

/-- Whether a character may stand in the clause behind `extends`. -/
def isBasesChar (c : CodePoint) : Bool :=
  Text.isIdentifierPart c || c == ',' || Text.isBlank c

def commaList (text : Text) : List Text :=
  ((text.splitOn (.char ',')).map Text.trim).filter (· ≠ [])

/-- The names behind `extends` up to the brace that opens a body, and the text from that brace on.
Blanks stand around the word; a clause of blanks alone has two of them at least. -/
def bases? (text : Text) : Option (List Text × Text) :=
  match text with
  | [] => none
  | c :: _ =>
    match "extends".toText.isPrefixOf? (Text.trimStart text) with
    | none => none
    | some rest =>
      let clause := rest.takeWhile (· ≠ .char '{')
      if Text.isBlank c && clause.head?.any Text.isBlank && 1 < clause.length &&
          clause.all isBasesChar then
        some (commaList clause, rest.dropWhile (· ≠ .char '{'))
      else none

/-- What stands in front of the last closing brace, if nothing but blanks and one semicolon behind
them follows it. -/
def beforeLastBrace? (text : Text) : Option Text :=
  match (Text.trimEnd (Text.dropFinal ';' text)).reverse with
  | .char '}' :: rest => some rest.reverse
  | _ => none

/-- The text behind `export`, or the whole text. -/
def afterExport (text : Text) : Text := (Text.afterWord? "export".toText text).getD text

def interface? (text : Text) : Option Declaration :=
  match (Text.afterWord? "interface".toText (afterExport text)).bind Text.identifier? with
  | none => none
  | some (name, rest) =>
    let (bases, rest) := (bases? rest).getD ([], rest)
    match Text.trimStart rest with
    | .char '{' :: body =>
      (beforeLastBrace? body).map fun inside =>
        { name := name, kind := .interface, fields := readMembers inside, bases := bases }
    | _ => none

/-- The alias `name` of the given right-hand side: an object type, a union, an intersection, or any
other type as a union of one member. -/
def ofRightHandSide (name root : Text) : Declaration :=
  match Text.unwrap? '{' '}' root with
  | some inside => { name := name, fields := readMembers inside }
  | none =>
    let alternatives := Text.splitTop ['|'] root
    let conjuncts := Text.splitTop ['&'] root
    if 1 < alternatives.length then { name := name, unionTypes := alternatives }
    else if 1 < conjuncts.length then { name := name, intersectionTypes := conjuncts }
    else { name := name, unionTypes := [root] }

def assigned? (text : Text) : Option Declaration :=
  match (Text.afterWord? "type".toText (afterExport text)).bind Text.identifier? with
  | none => none
  | some (name, rest) =>
    match Text.trimStart rest with
    | .char '=' :: rest =>
      let root := Text.trim (Text.dropFinal ';' (Text.trim rest))
      if root.isEmpty then none else some (ofRightHandSide name root)
    | _ => none

/-- Reads one declaration. A doc comment in front of it becomes its comment. -/
def read? (text : Text) : Option Declaration :=
  let (comment, rest) :=
    match Comment.leadingDoc? (Text.trim text) with
    | some (inside, rest) => (some (Comment.dedent inside), Text.trim rest)
    | none => (none, Text.trim text)
  let body := Comment.dropTrailing rest
  ((interface? body).or (assigned? body)).map fun declaration =>
    { declaration with comment := comment }

end SchemaBoard.Outline
