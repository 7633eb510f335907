import SchemaBoard.Text.Basic

set_option autoImplicit false

/-!
Places in a document: what is left to read, and the line and column of its first character.
-/
namespace SchemaBoard.Yaml

def isAllowed (c : CodePoint) : Bool :=
  let n := c.number
  n == 9 || n == 10 || n == 13 || (0x20 ≤ n && n ≤ 0x7E) || n == 0x85 ||
    (0xA0 ≤ n && n ≤ 0xD7FF) || (0xE000 ≤ n && n ≤ 0xFFFD) || 0x10000 ≤ n

/-- Whether a character ends a line of a document. -/
def isBreak (c : CodePoint) : Bool :=
  c == '\n' || c == '\r' || c == '\x85' || c == '\u2028' || c == '\u2029'

/-- Whether a character is a space, a tab or the end of a line. -/
def isGap (c : CodePoint) : Bool := c == ' ' || c == '\t' || isBreak c

/-- The byte order mark, which takes up no column. -/
def byteOrderMark : Char := '\uFEFF'

/-- A place in a document. -/
structure Cursor where
  /-- What is left to read. -/
  rest : Text
  /-- The number of characters in front. -/
  index : Nat := 0
  /-- The number of lines that have ended in front. -/
  line : Nat := 0
  /-- The number of characters of this line in front. -/
  column : Nat := 0

namespace Cursor

def peek (cursor : Cursor) : Option CodePoint := cursor.rest.head?

/-- The character `n` places behind the cursor. -/
def peekAt (cursor : Cursor) (n : Nat) : Option CodePoint := cursor.rest[n]?

/-- Whether the cursor stands at the end of the document or at a character of some set. -/
def atEndOr (cursor : Cursor) (p : CodePoint → Bool) : Bool := cursor.peek.all p

/-- The cursor one character further. A carriage return in front of a line feed ends no line. -/
def next (cursor : Cursor) : Cursor :=
  match cursor.rest with
  | [] => cursor
  | c :: rest =>
    if isBreak c && !(c == '\r' && rest.head? == some '\n') then
      { rest := rest, index := cursor.index + 1, line := cursor.line + 1, column := 0 }
    else
      { rest := rest, index := cursor.index + 1, line := cursor.line
        column := if c == byteOrderMark then cursor.column else cursor.column + 1 }

def skip : Nat → Cursor → Cursor
  | 0, cursor => cursor
  | n + 1, cursor => skip n cursor.next

/-- The characters of some set at the cursor. -/
def run (p : CodePoint → Bool) (cursor : Cursor) : Text := cursor.rest.takeWhile p

def skipWhile (p : CodePoint → Bool) (cursor : Cursor) : Cursor := cursor.skip (cursor.run p).length

/-- The line break at the cursor, as it counts in a text, and the cursor behind it. -/
def lineBreak? (cursor : Cursor) : Option (CodePoint × Cursor) :=
  match cursor.rest with
  | .char '\r' :: .char '\n' :: _ => some ('\n', cursor.skip 2)
  | c :: _ =>
    if c == '\u2028' || c == '\u2029' then some (c, cursor.next)
    else if isBreak c then some ('\n', cursor.next)
    else none
  | [] => none

/-- Whether three characters with nothing or a gap behind them stand at the cursor. -/
def startsMark (mark : Text) (cursor : Cursor) : Bool :=
  match mark.isPrefixOf? cursor.rest with
  | some rest => rest.head?.all isGap
  | none => false

/-- Whether the mark of the start or end of a document stands at the cursor. -/
def atDocumentMark (cursor : Cursor) : Bool :=
  cursor.startsMark ['-', '-', '-'] || cursor.startsMark ['.', '.', '.']

def skipComment (cursor : Cursor) : Cursor :=
  if cursor.peek == some '#' then cursor.skipWhile (fun c => !isBreak c) else cursor

end Cursor
end SchemaBoard.Yaml
