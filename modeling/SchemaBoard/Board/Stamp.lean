import SchemaBoard.Text.Basic

set_option autoImplicit false

/-!
Ids and times of boxes and properties.
-/
namespace SchemaBoard

/-- What ids begin with unless something else is asked for. -/
def defaultIdStem : Text := [.char '_']

/-- The id made of thirty-two hexadecimal digits, which are written in lower case. -/
def idOfDigits (stem : Option Text) (digits : Text) : Text :=
  stem.getD defaultIdStem ++ digits.map CodePoint.toLower

/-- The whole milliseconds in a number of nanoseconds, rounded down. -/
def millisecondsOf (nanoseconds : Int) : Int := Int.fdiv nanoseconds 1000000

end SchemaBoard
