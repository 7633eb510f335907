import SchemaBoard.Data.Numbers

set_option autoImplicit false

/-!
Conversions of untyped values to truth values and numbers. A session takes them as they are given;
nothing that it keeps depends on which values they accept.
-/
namespace SchemaBoard.Data

/-- The conversions with which truth values, integers and numbers are read from untyped input. -/
class Coercions where
  flag : Data → Checked Bool
  integer : Data → Checked Int
  number : Data → Checked Float

instance : Coercions := ⟨asFlag, asInteger, asNumber⟩

end SchemaBoard.Data
