import SchemaBoard.Data.Basic
import SchemaBoard.Decimal.Style
import SchemaBoard.Text.Quoted

set_option autoImplicit false

/-!
Untyped values as text, as they are shown in a message.
-/
namespace SchemaBoard.Data

def integerText (n : Int) : Text := Decimal.signed (n < 0) (Text.ofNat n.natAbs)

mutual

/-- A value as it is shown in a message; texts stand between quotes. -/
def display : Data → Text
  | null => "None".toText
  | flag value => if value then "True".toText else "False".toText
  | integer n => integerText n
  | real x => Decimal.coordinateText x
  | text value => Text.quoted value
  | list items => .char '[' :: Text.join ", ".toText (displayAll items) ++ [.char ']']
  | record fields => .char '{' :: Text.join ", ".toText (displayFields fields) ++ [.char '}']

def displayAll : List Data → List Text
  | [] => []
  | item :: rest => display item :: displayAll rest

def displayFields : List (Text × Data) → List Text
  | [] => []
  | (name, value) :: rest =>
    (Text.quoted name ++ ": ".toText ++ display value) :: displayFields rest

end

end SchemaBoard.Data
