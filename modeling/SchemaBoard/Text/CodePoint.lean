set_option autoImplicit false

/-!
Code points. Main statement: a code point is given by its number.
-/
namespace SchemaBoard

/-- A code point: a character, or one half of a surrogate pair, counted from U+D800 on. -/
inductive CodePoint where
  | char (c : Char)
  | half (offset : Fin 0x800)
deriving DecidableEq, Repr

namespace CodePoint

instance : Coe Char CodePoint := ⟨char⟩

def number : CodePoint → Nat
  | char c => c.toNat
  | half offset => 0xD800 + offset

def ofNumber? (n : Nat) : Option CodePoint :=
  if h : 0xD800 ≤ n ∧ n < 0xE000 then some (half ⟨n - 0xD800, by omega⟩)
  else if n < 0x110000 then some (char (Char.ofNat n))
  else none

instance : LT CodePoint := ⟨fun a b => a.number < b.number⟩

instance : DecidableLT CodePoint := fun a b => inferInstanceAs (Decidable (a.number < b.number))

instance : LE CodePoint := ⟨fun a b => a.number ≤ b.number⟩

instance : DecidableLE CodePoint := fun a b => inferInstanceAs (Decidable (a.number ≤ b.number))

def isDigit : CodePoint → Bool
  | char c => c.isDigit
  | half _ => false

def isAlpha : CodePoint → Bool
  | char c => c.isAlpha
  | half _ => false

def isAlphanum (c : CodePoint) : Bool := c.isAlpha || c.isDigit

def toLower : CodePoint → CodePoint
  | char c => char c.toLower
  | half offset => half offset

/-- The character that stands for a code point that is no character. -/
def replacement : Char := '\uFFFD'

/-- The code point as a character; a half of a pair is replaced. -/
def toChar : CodePoint → Char
  | char c => c
  | half _ => replacement

theorem ofNumber?_number (point : CodePoint) : ofNumber? point.number = some point := by
  cases point with
  | char c =>
    have valid : c.toNat < 0xD800 ∨ 0xDFFF < c.toNat ∧ c.toNat < 0x110000 := c.valid
    have noHalf : ¬(0xD800 ≤ c.toNat ∧ c.toNat < 0xE000) := by omega
    have small : c.toNat < 0x110000 := by omega
    simp only [number, ofNumber?, noHalf, small, Char.ofNat_toNat, dite_false, if_true]
  | half offset =>
    have small := offset.isLt
    have isHalf : 0xD800 ≤ 0xD800 + offset.val ∧ 0xD800 + offset.val < 0xE000 := by omega
    simp only [number, ofNumber?, isHalf, and_self, dite_true, Nat.add_sub_cancel_left]

end CodePoint
end SchemaBoard
