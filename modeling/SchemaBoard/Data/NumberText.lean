import SchemaBoard.Data.Checked
import SchemaBoard.Decimal.Literal
import SchemaBoard.Text.Blank

set_option autoImplicit false

/-!
Integers and numbers in texts that come from outside. A text is first read as it is; if that fails
it is read once more without what may stand around and between the digits.
-/
namespace SchemaBoard.Data

/-- The most characters that the sign and the digits of an integer may take up. -/
def integerCapacity : Nat := 4300

/-- An integer in its plain form: digits that do not start with a needless zero, behind a minus sign
if it is negative. Digits beyond the capacity are refused before anything behind them is read. -/
def plainInteger (text : Text) : Except Fault Int :=
  let (negative, body) : Bool × Text :=
    match text with
    | .char '-' :: rest => (true, rest)
    | rest => (false, rest)
  let digits := body.takeWhile CodePoint.isDigit
  match digits with
  | [] => .error .integerUnreadable
  | .char '0' :: _ => if body = [.char '0'] then .ok 0 else .error .integerUnreadable
  | _ =>
    if integerCapacity < digits.length + negative.toNat then .error .integerTooLarge
    else if digits.length < body.length then .error .integerUnreadable
    else .ok (Decimal.withSign negative (Decimal.digitsValue digits))

/-- What is left of an unsigned number that starts with a zero, given the character in front:
further zeros and underscores are passed over. If nothing else follows, the last character is
left. -/
def behindZeros? (last : CodePoint) : Text → Option Text
  | [] => some [last]
  | c :: rest =>
    if c == '0' || c == '_' then behindZeros? c rest
    else if c == '.' then some (last :: c :: rest)
    else if c.isDigit || c == '-' then some (c :: rest)
    else none

/-- The text of a number without leading zeros. It has to start with a digit. -/
def withoutLeadingZeros? : Text → Option Text
  | [] => none
  | c :: rest =>
    if c == '0' then behindZeros? c rest
    else if c.isDigit then some (c :: rest)
    else none

/-- The text without a point that has nothing but zeros behind it, of which there is one at
least. -/
def withoutZeroFraction (text : Text) : Text :=
  match text.dropWhile (· ≠ .char '.') with
  | _ :: .char '0' :: zeros =>
    if zeros.all (· == .char '0') then text.takeWhile (· ≠ .char '.') else text
  | _ => text

def hasDoubleUnderscore : Text → Bool
  | .char '_' :: .char '_' :: _ => true
  | _ :: rest => hasDoubleUnderscore rest
  | [] => false

/-- The text without its underscores, each of which has to stand alone and between other
characters. -/
def withoutUnderscores? (text : Text) : Option Text :=
  if text.contains '_' && text.head? ≠ some '_' && text.getLast? ≠ some '_' &&
      !hasDoubleUnderscore text then
    some (text.filter (· ≠ .char '_'))
  else none

/-- The plain form that a text of an integer is cut down to: without padding, a plus sign, leading
zeros, a fraction of zeros and underscores. -/
def plainForm? (text : Text) : Option Text := do
  let digits ← match Text.unpadded text with
    | .char '-' :: rest => (withoutLeadingZeros? rest).map (.char '-' :: ·)
    | .char '+' :: rest => withoutLeadingZeros? rest
    | rest => withoutLeadingZeros? rest
  let digits := withoutZeroFraction digits
  return (withoutUnderscores? digits).getD digits

def integerOfText (text : Text) : Except Fault Int :=
  match plainInteger text with
  | .error .integerUnreadable =>
    match plainForm? text with
    | some plain => plainInteger plain
    | none => .error .integerUnreadable
  | outcome => outcome

/-- The number in a text: with padding around it, or else with underscores inside. -/
def literalOfText? (text : Text) : Option Decimal.Literal :=
  (Decimal.Literal.read? (Text.unpadded text)).orElse fun _ =>
    (withoutUnderscores? text).bind Decimal.Literal.read?

end SchemaBoard.Data
