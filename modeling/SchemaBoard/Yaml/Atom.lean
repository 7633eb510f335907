import SchemaBoard.Data.Display
import SchemaBoard.Yaml.Bytes
import SchemaBoard.Yaml.Moment

set_option autoImplicit false

/-!
Values without parts, their equality, their order and their text. Only such values are keys.
-/
namespace SchemaBoard.Yaml

/-- A value without parts. -/
inductive Atom where
  | null
  | flag (value : Bool)
  | integer (value : Int)
  | number (value : Float)
  /-- What is no number. Each of them is a value of its own, told from the others by the place where
  it is written; those that are written with a point are one value, which has no place. -/
  | nan (origin : Option Nat)
  | text (value : Text)
  | bytes (value : List Nat)
  | date (value : Date)
  | moment (value : Moment)
deriving Repr

/-- Values that have an order among each other, by what they are ordered by. -/
inductive Rank where
  | nothing
  | quantity (value : Decimal.Binary)
  | text (numbers : List Nat)
  | bytes (value : List Nat)
  | day (ordinal : Nat)
  /-- A moment of an unknown zone. -/
  | clock (microseconds : Int)
  /-- A moment of a known zone. -/
  | instant (microseconds : Int)
deriving Repr

namespace Rank

def isComparable : Rank → Rank → Bool
  | quantity _, quantity _ => true
  | text _, text _ => true
  | bytes _, bytes _ => true
  | day _, day _ => true
  | clock _, clock _ => true
  | instant _, instant _ => true
  | _, _ => false

/-- Whether a value comes before another one of its kind. -/
def isBelow : Rank → Rank → Bool
  | quantity a, quantity b => a.isBelow b
  | text a, text b => a < b
  | bytes a, bytes b => a < b
  | day a, day b => a < b
  | clock a, clock b => a < b
  | instant a, instant b => a < b
  | _, _ => false

/-- Whether two values are the same. Nothing is the same as what is no number. -/
def isSame (a b : Rank) : Bool :=
  match a, b with
  | nothing, nothing => true
  | quantity .nan, _ => false
  | _, quantity .nan => false
  | a, b => a.isComparable b && !a.isBelow b && !b.isBelow a

end Rank

namespace Atom

/-- What a value is ordered by. A truth value counts as one or zero. -/
def rank : Atom → Rank
  | null => .nothing
  | flag value => .quantity (.finite false value.toNat 0)
  | integer n => .quantity (.finite (n < 0) n.natAbs 0)
  | number x => .quantity (Decimal.Binary.ofFloat x)
  | nan _ => .quantity .nan
  | text value => .text (value.map CodePoint.number)
  | bytes value => .bytes value
  | date value => .day value.ordinal
  | moment value =>
    if value.zone.isSome then .instant value.instant else .clock value.clock

def isSame (a b : Atom) : Bool :=
  match a, b with
  | nan origin, nan other => origin == other
  | text value, text other => value == other
  | a, b => a.rank.isSame b.rank

/-- Whether a value can be displayed: an integer must not have too many digits. -/
def isDisplayable : Atom → Bool
  | integer n => n.natAbs < Nat.pow 10 digitCapacity
  | _ => true

def display : Atom → Text
  | null => Data.display .null
  | flag value => Data.display (.flag value)
  | integer n => Data.display (.integer n)
  | number x => Data.display (.real x)
  | nan _ => (Data.display (.real (0.0 / 0.0)))
  | text value => value
  | bytes value => bytesText value
  | date value => value.text
  | moment value => value.text

/-- The values in order, if each two of them have one. -/
def sorted? (atoms : List Atom) : Option (List Atom) :=
  match atoms with
  | [] => some []
  | first :: rest =>
    if rest.all fun atom => first.rank.isComparable atom.rank then
      some (atoms.mergeSort fun a b => !b.rank.isBelow a.rank)
    else none

end Atom
end SchemaBoard.Yaml
