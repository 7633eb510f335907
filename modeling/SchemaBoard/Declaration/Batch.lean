import SchemaBoard.Declaration.Reader
import SchemaBoard.Text.Quoted

set_option autoImplicit false

/-!
Texts that hold several declarations. A line that starts a declaration opens a new block; a doc
comment in front of it goes with it.
-/
namespace SchemaBoard.Batch

def startsDeclaration (line : Text) : Bool :=
  let text := Outline.afterExport (Text.trimStart line)
  ((Text.afterWord? "interface".toText text).or (Text.afterWord? "type".toText text)).any
    fun rest => rest.head?.any Text.isIdentifierStart

/-- Whether a line begins with the star of a comment, behind blanks. -/
def isStarLine (line : Text) : Bool := (Text.trimStart line).head? == some '*'

/-- Whether a line begins with the mark of a doc comment, behind blanks. -/
def opensDoc (line : Text) : Bool := Comment.docOpen.isPrefixOf (Text.trimStart line)

/-- The number of lines of the doc comment that ends with the first line here. The lines come last
one first; every line up to the one that opens the comment has to begin with a star. -/
def docLength? : List Text → Option Nat
  | [] => none
  | line :: above =>
    if opensDoc line then some 1
    else if isStarLine line then (docLength? above).map (· + 1)
    else none

/-- The lines without the doc comment that ends them, and that doc comment with the blank lines
behind it. -/
def takeTrailingDoc (lines : List Text) : List Text × List Text :=
  let blankCount := (lines.reverse.takeWhile Text.allBlank).length
  let upward := lines.reverse.drop blankCount
  let closes := upward.head?.any fun line => Comment.blockClose.isSuffixOf (Text.trimEnd line)
  match if closes then docLength? upward else none with
  | none => (lines, [])
  | some count =>
    let start := lines.length - blankCount - count
    let closedEarly := 1 < count && (lines[start]?.any fun line =>
      (Text.cut? Comment.blockClose line).isSome)
    if closedEarly then (lines, []) else (lines.take start, lines.drop start)

def hasText (lines : List Text) : Bool := lines.any fun line => !Text.allBlank line

/-- The lines cut into blocks; `current` holds the lines of the block that is still growing. -/
def blockLines (current : List Text) : List Text → List (List Text)
  | [] =>
    let (body, doc) := takeTrailingDoc current
    [body, doc].filter hasText
  | line :: rest =>
    if startsDeclaration line && !current.isEmpty then
      let (body, doc) := takeTrailingDoc current
      [body].filter hasText ++ blockLines (doc ++ [line]) rest
    else blockLines (current ++ [line]) rest

/-- Whether a block is no declaration yet: a doc comment is open at its end, or it is nothing but
one. -/
def needsMore (block : Text) : Bool :=
  Comment.leavesOpen block || (Comment.wholeDoc? block).isSome

/-- The blocks with every block that needs more joined to the one behind it. -/
def mergeFrom (block : Text) : List Text → List Text
  | [] => [block]
  | next :: rest =>
    if needsMore block then mergeFrom (block ++ .char '\n' :: next) rest
    else block :: mergeFrom next rest

def merge : List Text → List Text
  | [] => []
  | block :: rest => mergeFrom block rest

/-- The blocks of a text, one for each declaration in it. -/
def split (text : Text) : List Text :=
  merge ((blockLines [] (Text.lines text)).map fun lines => Text.trim (Text.join ['\n'] lines))

/-- The supported declarations of a text, in order. -/
def read (text : Text) : List Declaration := (split text).filterMap Outline.read?

/-- The blocks of a text that are no supported declaration, in order. -/
def unsupported (text : Text) : List Text := (split text).filter fun block =>
  (Outline.read? block).isNone

/-- The note about a block that is left out: its beginning between quotes, cut to sixty
characters. -/
def skipNote (block : Text) : Text :=
  "Skipping unsupported declaration block: ".toText ++ (Text.quoted block).take 60

def notes (text : Text) : List Text := (unsupported text).map skipNote

end SchemaBoard.Batch
