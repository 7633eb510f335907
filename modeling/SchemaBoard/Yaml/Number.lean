import SchemaBoard.Decimal.Literal
import SchemaBoard.Text.Blank
import SchemaBoard.Text.DigitTable
import SchemaBoard.Text.Lower
import SchemaBoard.Yaml.Token

set_option autoImplicit false

/-!
Integers and numbers from the text of a scalar. Underscores are passed over, and parts between
colons count in base sixty.
-/
namespace SchemaBoard.Yaml

def digitIn? (base : Nat) (c : CodePoint) : Option Nat :=
  let value := (Text.digitValue? c).orElse fun _ =>
    if 'a' ≤ c && c ≤ 'z' then some (c.number - 87)
    else if 'A' ≤ c && c ≤ 'Z' then some (c.number - 55)
    else none
  value.filter (· < base)

def digitsIn? (base : Nat) (digits : Text) : Option Nat :=
  if digits.isEmpty then none
  else digits.foldlM (fun n c => (digitIn? base c).map fun d => base * n + d) 0

/-- The digits behind the mark of their base, if one stands there. -/
def behindBaseMark (base : Nat) (text : Text) : Text :=
  match text with
  | zero :: mark :: rest =>
    if Text.digitValue? zero == some 0 &&
        ((base == 2 && (mark == 'b' || mark == 'B')) ||
          (base == 8 && (mark == 'o' || mark == 'O')) ||
          (base == 16 && (mark == 'x' || mark == 'X'))) then rest
    else text
  | _ => text

/-- An integer in some base, which may have padding around it, a sign and the mark of its base. The
decimal digits that it starts with are counted before anything behind them is read. -/
def integerIn (base : Nat) (text : Text) : Except Failure Int :=
  let (negative, rest) := Decimal.takeSign (Text.unpadded text)
  let count := (rest.takeWhile fun c => (digitIn? 10 c).isSome).length
  if base = 10 && digitCapacity < count then .error (.tooManyDigits count)
  else
    match digitsIn? base (behindBaseMark base rest) with
    | some n => .ok (Decimal.withSign negative n)
    | none => .error (.notInteger base text)

def integerOf (text : Text) : Except Failure Int :=
  let (negative, body) := Decimal.takeSign (text.filter (· ≠ .char '_'))
  let signed := fun (n : Int) => if negative then -n else n
  match body with
  | [] => .error .noDigits
  | [.char '0'] => .ok 0
  | .char '0' :: .char 'b' :: digits => (integerIn 2 digits).map signed
  | .char '0' :: .char 'x' :: digits => (integerIn 16 digits).map signed
  | .char '0' :: _ => (integerIn 8 body).map signed
  | _ =>
    if body.contains (.char ':') then
      ((body.splitOn (.char ':')).foldlM (fun total part =>
        (integerIn 10 part).map (60 * total + ·)) (0 : Int)).map signed
    else (integerIn 10 body).map signed

/-- A character with a decimal digit of another script made the same digit of ASCII. -/
def plainDigit (c : CodePoint) : CodePoint :=
  match Text.digitValue? c with
  | some value => Nat.digitChar value
  | none => c

/-- A number in decimal notation, which may have padding around it. -/
def numberIn (text : Text) : Except Failure Float :=
  match Decimal.Literal.read? ((Text.unpadded text).map plainDigit) with
  | some literal => .ok literal.toFloat
  | none => .error (.notNumber text)

/-- The least power of sixty that is no double. -/
def weightLimit : Nat := 174

/-- The sum of parts in base sixty, the last of them with weight `60 ^ place`. -/
def sexagesimal : Nat → Float → List Float → Except Failure Float
  | _, total, [] => .ok total
  | place, total, part :: rest =>
    if weightLimit ≤ place then .error .weightOverflow
    else
      sexagesimal (place + 1) (total + part * Float.ofScientific (Nat.pow 60 place) false 0) rest

/-- The number that a scalar stands for, or nothing if it is written as no number, with a point. -/
def numberOf (text : Text) : Except Failure (Option Float) :=
  let joined := Text.lower (text.filter (· ≠ .char '_'))
  let (negative, body) := Decimal.takeSign joined
  let signed := fun (x : Float) => some (if negative then -x else x)
  if joined.isEmpty then .error .noDigits
  else if body == ".inf".toText then .ok (signed (1.0 / 0.0))
  else if body == ".nan".toText then .ok none
  else if body.contains (.char ':') then do
    let parts ← (body.splitOn (.char ':')).mapM numberIn
    return signed (← sexagesimal 0 0.0 parts.reverse)
  else (numberIn body).map signed

end SchemaBoard.Yaml
