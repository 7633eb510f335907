import SchemaBoard.Text.CodePoint

set_option autoImplicit false

/-!
Texts and their elementary cuts. A text is the list of its code points, so a length counts code
points and every reader below is a recursion on that list. Escapes may name one half of a surrogate
pair; such a half stands in a text like any other code point.
-/
namespace SchemaBoard

/-- A text is the list of its code points. -/
abbrev Text := List CodePoint

end SchemaBoard

def String.toText (string : String) : SchemaBoard.Text :=
  string.toList.map SchemaBoard.CodePoint.char

namespace SchemaBoard.Text

def ofNat (n : Nat) : Text := (Nat.toDigits 10 n).map CodePoint.char

/-- The text as a string, which holds no halves of surrogate pairs: they are replaced. -/
def asString (text : Text) : String := String.ofList (text.map CodePoint.toChar)

/-- The texts in order with `separator` between neighbours. -/
def join (separator : Text) (parts : List Text) : Text := List.intercalate separator parts

/-- The parts before and after the first occurrence of a nonempty `mark`. -/
def cut? (mark : Text) : Text → Option (Text × Text)
  | [] => none
  | c :: rest =>
    match mark.isPrefixOf? (c :: rest) with
    | some after => some ([], after)
    | none => (cut? mark rest).map fun (before, after) => (c :: before, after)

def totalLength : List Text → Nat
  | [] => 0
  | part :: rest => part.length + totalLength rest

/-- Whether a text comes no later than another one, by code points. -/
def isNotBehind (text other : Text) : Bool := !(other < text)

/-- What follows the last occurrence of a nonempty `mark`. -/
def afterLast? (mark : Text) : Text → Option Text
  | [] => none
  | c :: rest =>
    match afterLast? mark rest with
    | some after => some after
    | none => mark.isPrefixOf? (c :: rest)

/-- Every occurrence of `*/` gets a space inside, scanning from the left. -/
def breakCloses : Text → Text
  | .char '*' :: .char '/' :: rest => .char '*' :: .char ' ' :: .char '/' :: breakCloses rest
  | c :: rest => c :: breakCloses rest
  | [] => []

/-- The text in parentheses, if they are needed. -/
def parenthesize (needed : Bool) (text : Text) : Text :=
  if needed then .char '(' :: text ++ [.char ')'] else text

/-- The text without one final character `c`, if it ends in one. -/
def dropFinal (c : CodePoint) (text : Text) : Text :=
  if text.getLast? = some c then text.dropLast else text

end SchemaBoard.Text
