import SchemaBoard.Decimal.Binary
import SchemaBoard.Text.Basic

set_option autoImplicit false

/-!
The shortest decimal that reads back as a given double. For one digit, two digits and so on the two
decimals next to the value are tested; the first number of digits that has a hit wins, and of two
hits the nearer.
-/
namespace SchemaBoard.Decimal

/-- A decimal number without a sign: its digits, the first of them nonzero unless it stands alone,
and the exponent of that first digit in scientific notation. -/
structure Digits where
  digits : Text
  exponent : Int
deriving DecidableEq, Repr

/-- The number of decimal digits of `n`. -/
def digitCount (n : Nat) : Nat := (Text.ofNat n).length

/-- The exponent of the first digit of the positive fraction `num / den`. Below one it is the least
power of ten that brings the fraction up to one. -/
def leadingExponent (num den : Nat) : Int :=
  if den ≤ num then (digitCount (num / den) : Int) - 1
  else -(digitCount ((den + num - 1) / num - 1) : Int)

/-- The double with the given exact parts, widened to the interval of reals that read back as it, in
units of a quarter of its last place: its lower end, itself and its upper end. -/
def interval (mantissa : Nat) (exponent : Int) : Nat × Nat × Nat :=
  (4 * mantissa - (if Binary.isEdge mantissa exponent then 1 else 2), 4 * mantissa,
    4 * mantissa + 2)

/-- Whether a point lies in an interval; its ends belong to it if `closed`. -/
def within (closed : Bool) (low point high : Nat) : Bool :=
  if closed then low ≤ point && point ≤ high else low < point && point < high

/-- The decimals with `count` digits next to the value that read back as it; the nearer one, if both
do. The answer is the coefficient and its exponent of ten. -/
def candidate? (mantissa : Nat) (exponent leading : Int) (count : Nat) : Option (Nat × Int) :=
  let (low, middle, high) := interval mantissa exponent
  let scale := leading - (count : Int) + 1
  let unit := Nat.pow 10 scale.toNat * Nat.pow 2 (2 - exponent).toNat
  let shift := Nat.pow 10 (-scale).toNat * Nat.pow 2 (exponent - 2).toNat
  let below := middle * shift / unit
  let closed := mantissa % 2 == 0
  let hit := fun n => within closed (low * shift) (n * unit) (high * shift)
  if hit below then
    if hit (below + 1) then
      let down := middle * shift - below * unit
      let up := (below + 1) * unit - middle * shift
      if down < up || (down == up && below % 2 == 0) then some (below, scale)
      else some (below + 1, scale)
    else some (below, scale)
  else if hit (below + 1) then some (below + 1, scale)
  else none

/-- The first hit among decimals of `count` digits and more; `fuel` bounds the number of counts. -/
def firstHit (mantissa : Nat) (exponent leading : Int) : Nat → Nat → Nat × Int
  | 0, _ => (0, 0)
  | fuel + 1, count =>
    match candidate? mantissa exponent leading count with
    | some found => found
    | none => firstHit mantissa exponent leading fuel (count + 1)

/-- The digits of `coefficient * 10 ^ scale` without trailing zeros. -/
def Digits.ofScaled (coefficient : Nat) (scale : Int) : Digits :=
  let all := Text.ofNat coefficient
  let kept := (all.reverse.dropWhile (· == .char '0')).reverse
  if coefficient = 0 then ⟨[.char '0'], 0⟩ else ⟨kept, scale + (all.length : Int) - 1⟩

/-- The fewest digits that read back as the positive double of the given exact parts. Seventeen
digits always do. -/
def shortest (mantissa : Nat) (exponent : Int) : Digits :=
  if mantissa = 0 then ⟨[.char '0'], 0⟩
  else
    let (num, den) := ratio mantissa exponent
    let (coefficient, scale) := firstHit mantissa exponent (leadingExponent num den) 17 1
    Digits.ofScaled coefficient scale

end SchemaBoard.Decimal
