import SchemaBoard.Text.HiddenTable

set_option autoImplicit false

/-!
Texts shown between quotes. Single quotes stand around the text, unless it holds a single quote and
no double one. The quote in use, the backslash and every character without a visible form are
escaped.
-/
namespace SchemaBoard.Text

/-- Whether a character has a visible form; the space has one. -/
def isVisible (c : CodePoint) : Bool :=
  let n := c.number
  if n < 0x80 then 0x20 ≤ n && n < 0x7F else !inRanges n hiddenRanges

def hexDigit (n : Nat) : CodePoint := Nat.digitChar (n % 16)

/-- The last `width` hexadecimal digits of a number. -/
def hexDigits : Nat → Nat → Text
  | 0, _ => []
  | width + 1, n => hexDigits width (n / 16) ++ [hexDigit n]

/-- A character as it stands between two quotes of kind `quote`. -/
def quoteChar (quote c : CodePoint) : Text :=
  if c == quote || c == '\\' then ['\\', c]
  else if c == '\n' then [.char '\\', .char 'n']
  else if c == '\r' then [.char '\\', .char 'r']
  else if c == '\t' then [.char '\\', .char 't']
  else if isVisible c then [c]
  else if c.number < 0x100 then .char '\\' :: .char 'x' :: hexDigits 2 c.number
  else if c.number < 0x10000 then .char '\\' :: .char 'u' :: hexDigits 4 c.number
  else .char '\\' :: .char 'U' :: hexDigits 8 c.number

def quoteFor (text : Text) : CodePoint :=
  if text.contains '\'' && !text.contains '"' then '"' else '\''

def quoted (text : Text) : Text :=
  let quote := quoteFor text
  quote :: text.flatMap (quoteChar quote) ++ [quote]

end SchemaBoard.Text
