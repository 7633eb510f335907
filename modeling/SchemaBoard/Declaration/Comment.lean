import SchemaBoard.Text.Blank
import SchemaBoard.Text.Lines

set_option autoImplicit false

/-!
Comments around declarations. A doc comment opens with `/**`; block and line comments that close a
declaration are left out when it is read.
-/
namespace SchemaBoard.Comment

def docOpen : Text := "/**".toText

def blockClose : Text := "*/".toText

/-- A line of a doc comment without the star that starts it and one space behind the star. -/
def dedentLine (line : Text) : Text :=
  match Text.trimStart line with
  | .char '*' :: .char ' ' :: rest => rest
  | .char '*' :: rest => rest
  | _ => line

/-- The text of a doc comment, given what stands between its marks. -/
def dedent (inside : Text) : Text :=
  Text.trim (Text.join ['\n'] ((Text.lines inside).map dedentLine))

/-- The inside of the doc comment that opens the text, and what follows its closing mark. -/
def leadingDoc? (text : Text) : Option (Text × Text) :=
  match docOpen.isPrefixOf? text with
  | some rest => Text.cut? blockClose rest
  | none => none

/-- The inside of a text that is one doc comment from its first character to its last. -/
def wholeDoc? (text : Text) : Option Text :=
  match leadingDoc? text with
  | some (inside, []) => some inside
  | _ => none

/-- Whether the last `/**` of the text is not closed. -/
def leavesOpen (text : Text) : Bool :=
  match Text.afterLast? docOpen text with
  | some rest => (Text.cut? blockClose rest).isNone
  | none => false

mutual

/-- Whether the text holds nothing but blanks and comments. A line comment may stop anywhere on its
line if what is left of the line opens a block comment. -/
def onlyComments : Text → Bool
  | [] => true
  | .char '/' :: .char '*' :: rest => blockThenComments rest
  | .char '/' :: .char '/' :: rest => lineThenComments rest
  | c :: rest => Text.isBlank c && onlyComments rest

/-- Whether a block comment closes here, with nothing but blanks and comments behind it. -/
def blockThenComments : Text → Bool
  | [] => false
  | .char '*' :: .char '/' :: rest => onlyComments rest
  | _ :: rest => blockThenComments rest

/-- Whether a line comment ends here, with nothing but blanks and comments behind it. -/
def lineThenComments : Text → Bool
  | [] => true
  | .char '/' :: .char '*' :: rest => blockThenComments rest || lineThenComments (.char '*' :: rest)
  | c :: rest => if c = '\n' then onlyComments rest else lineThenComments rest

end

/-- The text up to the blanks and comments that end it; blanks alone are kept. -/
def dropTrailing : Text → Text
  | [] => []
  | c :: rest =>
    if onlyComments (c :: rest) && !Text.allBlank (c :: rest) then [] else c :: dropTrailing rest

end SchemaBoard.Comment
