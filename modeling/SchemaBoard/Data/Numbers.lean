import SchemaBoard.Data.NumberText
import SchemaBoard.Decimal.Binary

set_option autoImplicit false

/-!
Checks of truth values, integers and numbers. Each of them also takes values of neighbouring kinds
that stand for the same thing, such as the text of a number.
-/
namespace SchemaBoard.Data

/-- The integer that a finite value is, if it is whole. -/
def wholeValue? : Decimal.Binary → Option Int
  | .finite negative mantissa exponent =>
    let (num, den) := Decimal.ratio mantissa exponent
    if num % den = 0 then some (Decimal.withSign negative (num / den)) else none
  | _ => none

def wordLimit : Int := Nat.pow 2 63

def fitsWord (n : Int) : Bool := -wordLimit ≤ n && n < wordLimit

/-- Whether an integer that was found as a floating-point number is small enough to be used. -/
def fitsRealWord (n : Int) : Bool := -wordLimit < n && n < wordLimit

/-- An integer, a whole number, a truth value as one or zero, or the text of an integer. -/
def asInteger : Data → Checked Int
  | integer n => .valid n
  | flag value => .valid (if value then 1 else 0)
  | real x =>
    match Decimal.Binary.ofFloat x with
    | .finite negative mantissa exponent =>
      match wholeValue? (.finite negative mantissa exponent) with
      | some n => if fitsRealWord n then .valid n else .fault .integerTooLarge
      | none => .fault .notWhole
    | _ => .fault .notFinite
  | text value =>
    match integerOfText value with
    | .ok n => .valid n
    | .error fault => .fault fault
  | _ => .fault .notInteger

def trueWords : List Text := ["true", "t", "yes", "y", "on", "1"].map String.toText

def falseWords : List Text := ["false", "f", "no", "n", "off", "0"].map String.toText

def flagOfInteger (n : Int) : Checked Bool :=
  if n = 0 then .valid false else if n = 1 then .valid true else .fault .flagUnreadable

/-- A truth value, one or zero, or a text that stands for one in any letter case. -/
def asFlag : Data → Checked Bool
  | flag value => .valid value
  | integer n => if fitsWord n then flagOfInteger n else .fault .notFlag
  | real x =>
    match wholeValue? (Decimal.Binary.ofFloat x) with
    | some n => if fitsRealWord n then flagOfInteger n else .fault .notFlag
    | none => .fault .notFlag
  | text value =>
    let word := value.map CodePoint.toLower
    if trueWords.contains word then .valid true
    else if falseWords.contains word then .valid false
    else .fault .flagUnreadable
  | _ => .fault .notFlag

/-- A number, an integer that a double can come near to, a truth value as one or zero, or the text
of a number. -/
def asNumber : Data → Checked Float
  | real x => .valid x
  | flag value => .valid (if value then 1.0 else 0.0)
  | integer n =>
    let x := (Decimal.Literal.finite (n < 0) n.natAbs 0).toFloat
    if x.isInf then .fault .notNumber else .valid x
  | text value =>
    match literalOfText? value with
    | some literal => .valid literal.toFloat
    | none => .fault .numberUnreadable
  | _ => .fault .notNumber

end SchemaBoard.Data
