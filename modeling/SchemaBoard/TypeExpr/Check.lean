import SchemaBoard.Data.Checked
import SchemaBoard.TypeExpr.Basic

set_option autoImplicit false

/-!
Types from untyped input. A type is an object that names its form; the issues inside it are found
behind a step of that name.
-/
namespace SchemaBoard.TypeExpr

mutual

def ofData (data : Data) : Checked TypeExpr :=
  match data with
  | .record fields =>
    match fields.lookup "kind".toText with
    | none => .fault .formAbsent
    | some (.text form) =>
      if form = "primitive".toText then
        Checked.within (.field form)
          (primitive <$> Data.required fields "name".toText (Data.asWord Primitive.ofKeyword?))
      else if form = "custom".toText then
        Checked.within (.field form) (custom <$> Data.required fields "name".toText Data.asText)
      else if form = "union".toText then
        Checked.within (.field form) (union <$> operandsOfData fields "types".toText)
      else if form = "intersection".toText then
        Checked.within (.field form) (intersection <$> operandsOfData fields "types".toText)
      else if form = "builtIn".toText then
        Checked.within (.field form)
          (builtIn <$> Data.required fields "name".toText (Data.asWord Container.ofName?)
            <*> operandsOfData fields "generic_args".toText)
      else .fault .formUnknown
    | some _ => .fault .formUnknown
  | _ => .fault .notType
termination_by sizeOf data

/-- The types in the list of that name; without the field there are none. -/
def operandsOfData (fields : Data.Fields) (name : Text) : Checked (List TypeExpr) :=
  match _found : fields.lookup name with
  | none => .valid []
  | some (.list items) =>
    Checked.within (.field name) (.sequence 0 (items.attach.map fun item => ofData item.1))
  | some _ => Checked.within (.field name) (.fault .notList)
termination_by sizeOf fields
decreasing_by exact Data.sizeOf_item_lookup _found item.2

end

/-- A type from untyped input, where a bare name stands for the primitive or reference of that
name. -/
def ofDataOrName : Data → Checked TypeExpr
  | .text name => .valid (leaf name)
  | data => ofData data

end SchemaBoard.TypeExpr
