import SchemaBoard.Decimal.Shortest

set_option autoImplicit false

/-!
Decimal notation of doubles: which exponents are written out, and how the others are.
-/
namespace SchemaBoard.Decimal

/-- The choices of a written form that the digits of a number leave open. -/
structure Style where
  /-- The least exponent of the first digit that is written positionally. -/
  leastPositional : Int
  /-- The least exponent of the first digit above it that is not written positionally. -/
  scientificFrom : Int
  /-- The least number of digits of a written exponent. -/
  exponentWidth : Nat
  /-- Whether a whole number keeps `.0` in positional form. -/
  keepsPoint : Bool

/-- Coordinates are positional from `1e-4` to below `1e16`, whole numbers keep `.0`, and an exponent
has a sign and two digits at least. -/
def Style.coordinate : Style := ⟨-4, 16, 2, true⟩

def padded (width n : Nat) : Text :=
  let digits := Text.ofNat n
  List.replicate (width - digits.length) (.char '0') ++ digits

def positional (style : Style) (number : Digits) : Text :=
  if number.exponent < 0 then
    .char '0' :: .char '.' :: List.replicate (-number.exponent - 1).toNat (.char '0') ++
      number.digits
  else
    let count := number.exponent.toNat + 1
    let whole := number.digits.take count
    let fraction := number.digits.drop count
    let whole := whole ++ List.replicate (count - whole.length) (.char '0')
    if fraction.isEmpty then if style.keepsPoint then whole ++ [.char '.', .char '0'] else whole
    else whole ++ .char '.' :: fraction

def scientific (style : Style) (number : Digits) : Text :=
  let mantissa : Text :=
    match number.digits with
    | [] => [.char '0']
    | [digit] => [digit]
    | digit :: rest => digit :: .char '.' :: rest
  let sign : CodePoint := if number.exponent < 0 then '-' else '+'
  mantissa ++ .char 'e' :: sign :: padded style.exponentWidth number.exponent.natAbs

/-- The digits in the form that the style gives to their exponent. -/
def Digits.write (style : Style) (number : Digits) : Text :=
  if style.leastPositional ≤ number.exponent && number.exponent < style.scientificFrom then
    positional style number
  else scientific style number

/-- A sign in front of a negative number. -/
def signed (negative : Bool) (text : Text) : Text :=
  if negative then .char '-' :: text else text

/-- The value of a double as the shortest decimal that reads back as it. -/
def Binary.write (style : Style) : Binary → Text
  | nan => "nan".toText
  | infinite negative => signed negative "inf".toText
  | finite negative mantissa exponent =>
    signed negative ((shortest mantissa exponent).write style)

def coordinateText (x : Float) : Text := (Binary.ofFloat x).write .coordinate

end SchemaBoard.Decimal
