import SchemaBoard.Board.Check

set_option autoImplicit false

/-!
Edits: the fields that a patch names, checked. Ids and times are not among them, and a patch that
names them or any unknown field changes nothing there.
-/
namespace SchemaBoard

/-- The fields of a property that an edit sets. -/
structure PropertyEdit where
  name : Option Text := none
  type : Option TypeExpr := none
  optional : Option Bool := none
  readonly : Option Bool := none
  comment : Option (Option Text) := none

def PropertyEdit.ofFields [Data.Coercions] (fields : Data.Fields) : Checked PropertyEdit :=
  PropertyEdit.mk
    <$> Data.ifPresent fields "name".toText Data.asText
    <*> Data.ifPresent fields "type".toText TypeExpr.ofDataOrName
    <*> Data.ifPresent fields "optional".toText Data.Coercions.flag
    <*> Data.ifPresent fields "readonly".toText Data.Coercions.flag
    <*> Data.ifPresent fields "comment".toText Data.asTextOrNull

def PropertyEdit.apply (edit : PropertyEdit) (property : Property) : Property :=
  { name := edit.name.getD property.name
    type := edit.type.getD property.type
    optional := edit.optional.getD property.optional
    readonly := edit.readonly.getD property.readonly
    comment := edit.comment.getD property.comment
    id := property.id }

/-- The fields of a box that an edit sets. -/
structure BoxEdit where
  name : Option Text := none
  kind : Option DeclarationKind := none
  fields : Option (List PropertyDraft) := none
  bases : Option (List Text) := none
  unionTypes : Option (List Text) := none
  intersectionTypes : Option (List Text) := none
  comment : Option (Option Text) := none
  position : Option Position := none

def BoxEdit.ofFields [Data.Coercions] (fields : Data.Fields) : Checked BoxEdit :=
  BoxEdit.mk
    <$> Data.ifPresent fields "name".toText Data.asText
    <*> Data.ifPresent fields "kind".toText DeclarationKind.ofData
    <*> Data.ifPresent fields "properties".toText PropertyDraft.listOfData
    <*> Data.ifPresent fields "extends".toText Data.asTexts
    <*> Data.ifPresent fields "union_types".toText Data.asTexts
    <*> Data.ifPresent fields "intersection_types".toText Data.asTexts
    <*> Data.ifPresent fields "comment".toText Data.asTextOrNull
    <*> Data.ifPresent fields "position".toText Position.ofData

/-- The box with the fields of an edit set, and the number of ids used up then. -/
def BoxEdit.apply (ids : IdSource) (issued : Nat) (edit : BoxEdit) (box : Box) : Box × Nat :=
  let (fields, used) :=
    match edit.fields with
    | some drafts => PropertyDraft.settleAll ids issued drafts
    | none => (box.fields, issued)
  ({ box with
     name := edit.name.getD box.name
     kind := edit.kind.getD box.kind
     fields := fields
     bases := edit.bases.getD box.bases
     unionTypes := edit.unionTypes.getD box.unionTypes
     intersectionTypes := edit.intersectionTypes.getD box.intersectionTypes
     comment := edit.comment.getD box.comment
     position := edit.position.getD box.position }, used)

@[simp] theorem PropertyEdit.apply_id (edit : PropertyEdit) (property : Property) :
    (edit.apply property).id = property.id := rfl

@[simp] theorem BoxEdit.apply_id (ids : IdSource) (issued : Nat) (edit : BoxEdit) (box : Box) :
    (edit.apply ids issued box).1.id = box.id := by
  simp only [BoxEdit.apply]

/-- An edit that sets nothing changes nothing. -/
theorem BoxEdit.apply_empty (ids : IdSource) (issued : Nat) (box : Box) :
    ({} : BoxEdit).apply ids issued box = (box, issued) := rfl

end SchemaBoard
