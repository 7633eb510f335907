set_option autoImplicit false

/-!
The exact value of a double: an integer times a power of two.
-/
namespace SchemaBoard.Decimal

/-- What the bits of a double stand for. -/
inductive Binary where
  /-- Not a number. -/
  | nan
  /-- An infinity. -/
  | infinite (negative : Bool)
  /-- The number `mantissa * 2 ^ exponent`, with a sign of its own. -/
  | finite (negative : Bool) (mantissa : Nat) (exponent : Int)
deriving DecidableEq, Repr

/-- The least mantissa of a double that is not close to zero; its fraction has fifty-two bits. -/
def leastMantissa : Nat := Nat.pow 2 52

/-- Reads the sign, exponent and fraction bits of a double. -/
def Binary.ofBits (bits : UInt64) : Binary :=
  let n : Nat := bits.toNat
  let negative := n / leastMantissa / 2048 == 1
  let exponent : Nat := n / leastMantissa % 2048
  let fraction := n % leastMantissa
  if exponent = 2047 then if fraction = 0 then infinite negative else nan
  else if exponent = 0 then finite negative fraction (-1074)
  else finite negative (leastMantissa + fraction) ((exponent : Int) - 1075)

def Binary.ofFloat (x : Float) : Binary := ofBits x.toBits

/-- Whether a finite value has the least mantissa of its exponent, so that its lower neighbour is
only half as far away as its upper one. -/
def Binary.isEdge (mantissa : Nat) (exponent : Int) : Bool :=
  mantissa == leastMantissa && -1074 < exponent

/-- The fraction `mantissa * 2 ^ exponent` as a numerator over a denominator. -/
def ratio (mantissa : Nat) (exponent : Int) : Nat × Nat :=
  (mantissa * Nat.pow 2 exponent.toNat, Nat.pow 2 (-exponent).toNat)

def withSign (negative : Bool) (n : Nat) : Int := if negative then -(n : Int) else n

/-- The order of values; infinities stand outside of all others, and nothing is below or above what
is not a number. -/
def Binary.isBelow : Binary → Binary → Bool
  | nan, _ => false
  | _, nan => false
  | infinite negative, infinite other => negative && !other
  | infinite negative, finite .. => negative
  | finite .., infinite negative => !negative
  | finite negative mantissa exponent, finite otherNegative otherMantissa otherExponent =>
    let least := min exponent otherExponent
    withSign negative (mantissa * Nat.pow 2 (exponent - least).toNat) <
      withSign otherNegative (otherMantissa * Nat.pow 2 (otherExponent - least).toNat)

end SchemaBoard.Decimal
