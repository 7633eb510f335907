import SchemaBoard.Text.Basic

set_option autoImplicit false

/-!
Sets of code points given by ascending ranges.
-/
namespace SchemaBoard.Text

/-- Whether `n` lies in one of the ascending ranges; both ends of a range belong to it. -/
def inRanges (n : Nat) : List (Nat × Nat) → Bool
  | [] => false
  | (low, high) :: rest => low ≤ n && (n ≤ high || inRanges n rest)

end SchemaBoard.Text
