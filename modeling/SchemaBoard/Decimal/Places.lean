import SchemaBoard.Decimal.Style

set_option autoImplicit false

/-!
Decimals with a fixed number of places, rounded from the exact value of a double.
-/
namespace SchemaBoard.Decimal

/-- The integer nearest to `num / den`; a half goes to the even neighbour. -/
def roundEven (num den : Nat) : Nat :=
  let quotient := num / den
  let twice := 2 * (num % den)
  if den < twice || (twice == den && quotient % 2 == 1) then quotient + 1 else quotient

/-- The fraction `num / den` with `places` digits behind the point, of which there is one at
least. -/
def fixed (places num den : Nat) : Text :=
  let unit := Nat.pow 10 places
  let scaled := roundEven (num * unit) den
  Text.ofNat (scaled / unit) ++ .char '.' :: padded places (scaled % unit)

/-- The value of a double with `places` digits behind the point. -/
def Binary.writeFixed (places : Nat) : Binary → Text
  | nan => "nan".toText
  | infinite negative => signed negative "inf".toText
  | finite negative mantissa exponent =>
    let (num, den) := ratio mantissa exponent
    signed negative (fixed places num den)

/-- A duration in seconds as text, to a tenth of a second. -/
def secondsText (seconds : Float) : Text := (Binary.ofFloat seconds).writeFixed 1

end SchemaBoard.Decimal
