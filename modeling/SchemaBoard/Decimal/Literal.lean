import SchemaBoard.Decimal.Binary
import SchemaBoard.Text.Basic

set_option autoImplicit false

/-!
Decimal numbers in texts: whole numbers and floating-point literals, written in ASCII digits without
anything between them.
-/
namespace SchemaBoard.Decimal

def digitsValue (digits : Text) : Nat := digits.foldl (fun n c => 10 * n + (c.number - 48)) 0

/-- Whether a minus sign starts the text, and the text behind its sign, if it has one. -/
def takeSign : Text → Bool × Text
  | .char '-' :: rest => (true, rest)
  | .char '+' :: rest => (false, rest)
  | rest => (false, rest)

/-- The number that a decimal literal stands for, before rounding. -/
inductive Literal where
  /-- Not a number. -/
  | nan
  /-- An infinity. -/
  | infinite (negative : Bool)
  /-- The number `coefficient * 10 ^ exponent`, with a sign of its own. -/
  | finite (negative : Bool) (coefficient : Nat) (exponent : Int)
deriving DecidableEq, Repr

namespace Literal

/-- The exponent part of a literal: nothing, or `e` with an optional sign and digits. -/
def exponent? : Text → Option Int
  | [] => some 0
  | mark :: rest =>
    if mark == 'e' || mark == 'E' then
      let (negative, digits) := takeSign rest
      if digits.isEmpty || !digits.all CodePoint.isDigit then none
      else some (withSign negative (digitsValue digits))
    else none

def magnitude? (negative : Bool) (text : Text) : Option Literal :=
  let word := text.map CodePoint.toLower
  if word == "inf".toText || word == "infinity".toText then some (infinite negative)
  else if word == "nan".toText then some nan
  else
    let whole := text.takeWhile CodePoint.isDigit
    let (fraction, rest) :=
      match text.dropWhile CodePoint.isDigit with
      | .char '.' :: others =>
        (others.takeWhile CodePoint.isDigit, others.dropWhile CodePoint.isDigit)
      | others => ([], others)
    if whole.isEmpty && fraction.isEmpty then none
    else
      (exponent? rest).map fun exponent =>
        finite negative (digitsValue (whole ++ fraction)) (exponent - fraction.length)

def read? (text : Text) : Option Literal :=
  let (negative, rest) := takeSign text
  magnitude? negative rest

/-- The double nearest to a literal. Beyond four hundred digits on either side of the point it is an
infinity or zero. -/
def toFloat : Literal → Float
  | nan => 0.0 / 0.0
  | infinite negative => if negative then -1.0 / 0.0 else 1.0 / 0.0
  | finite negative coefficient exponent =>
    let size := ((Text.ofNat coefficient).length : Int) + exponent
    let magnitude : Float :=
      if coefficient = 0 || size < -400 then 0.0
      else if 400 < size then 1.0 / 0.0
      else Float.ofScientific coefficient (exponent < 0) exponent.natAbs
    if negative then -magnitude else magnitude

end Literal

/-- Reads a whole number: an optional sign and digits. -/
def wholeNumber? (text : Text) : Option Int :=
  let (negative, digits) := takeSign text
  if digits.isEmpty || !digits.all CodePoint.isDigit then none
  else some (withSign negative (digitsValue digits))

end SchemaBoard.Decimal
