import SchemaBoard.Text.Basic

set_option autoImplicit false

/-!
Untyped input: what reaches the library from outside before it is checked.
-/
namespace SchemaBoard

/-- A value of no particular type. -/
inductive Data where
  | null
  | flag (value : Bool)
  | integer (value : Int)
  | real (value : Float)
  | text (value : Text)
  | list (items : List Data)
  | record (fields : List (Text × Data))
deriving Repr

namespace Data

/-- The named values of a record, in the order in which they were given. -/
abbrev Fields := List (Text × Data)

/-- Whether a value counts as nothing: null, false, zero, or without any parts. -/
def isNothing : Data → Bool
  | null => true
  | flag value => !value
  | integer n => n == 0
  | real x => x == 0.0
  | text value => value.isEmpty
  | list items => items.isEmpty
  | record fields => fields.isEmpty

/-- The parts of a value that is gone through part by part: the items of a list, the characters of a
text, the names of a record. Other values have no parts. -/
def parts? : Data → Option (List Data)
  | list items => some items
  | text value => some (value.map fun c => text [c])
  | record fields => some (fields.map fun field => text field.1)
  | _ => none

/-- A value found among named values is smaller than all of them. -/
theorem sizeOf_lookup {fields : Fields} {key : Text} {value : Data}
    (h : fields.lookup key = some value) : sizeOf value < sizeOf fields := by
  induction fields with
  | nil => simp at h
  | cons field rest ih =>
    obtain ⟨name, found⟩ := field
    rw [List.lookup_cons] at h
    split at h
    · obtain rfl := Option.some.inj h
      simp only [List.cons.sizeOf_spec, Prod.mk.sizeOf_spec]
      omega
    · have := ih h
      simp only [List.cons.sizeOf_spec]
      omega

/-- An item of a list found among named values is smaller than all of them. -/
theorem sizeOf_item_lookup {fields : Fields} {key : Text} {items : List Data} {item : Data}
    (h : fields.lookup key = some (list items)) (member : item ∈ items) :
    sizeOf item < sizeOf fields := by
  have outer := sizeOf_lookup h
  have inner := List.sizeOf_lt_of_mem member
  simp only [list.sizeOf_spec] at outer
  omega

end Data
end SchemaBoard
