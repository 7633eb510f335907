import SchemaBoard.Board.Basic
import SchemaBoard.Data.Coercions
import SchemaBoard.TypeExpr.Check

set_option autoImplicit false

/-!
Properties, declarations and boxes from untyped input. Fields are checked in the order in which the
library documents them; unknown fields are passed over.
-/
namespace SchemaBoard

variable [Data.Coercions]

def PropertyDraft.ofFields (fields : Data.Fields) : Checked PropertyDraft :=
  (fun id name type optional readonly comment =>
    { id := id, name := name, type := type, optional := optional, readonly := readonly,
      comment := comment })
    <$> Data.ifPresent fields "id".toText Data.asText
    <*> Data.required fields "name".toText Data.asText
    <*> Data.required fields "type".toText TypeExpr.ofDataOrName
    <*> Data.withDefault fields "optional".toText false Data.Coercions.flag
    <*> Data.withDefault fields "readonly".toText false Data.Coercions.flag
    <*> Data.withDefault fields "comment".toText none Data.asTextOrNull

def PropertyDraft.ofData (data : Data) : Checked PropertyDraft :=
  data.asObject PropertyDraft.ofFields

def PropertyDraft.listOfData : Data → Checked (List PropertyDraft) :=
  Data.asList PropertyDraft.ofData

def DeclarationKind.ofData : Data → Checked DeclarationKind :=
  Data.asWord DeclarationKind.ofWord?

def Data.asTexts : Data → Checked (List Text) := Data.asList Data.asText

def Outline.ofFields (fields : Data.Fields) : Checked OutlineDraft :=
  Outline.mk
    <$> Data.required fields "name".toText Data.asText
    <*> Data.withDefault fields "kind".toText .type DeclarationKind.ofData
    <*> Data.withDefault fields "properties".toText [] PropertyDraft.listOfData
    <*> Data.withDefault fields "extends".toText [] Data.asTexts
    <*> Data.withDefault fields "union_types".toText [] Data.asTexts
    <*> Data.withDefault fields "intersection_types".toText [] Data.asTexts
    <*> Data.withDefault fields "comment".toText none Data.asTextOrNull

def Outline.ofData (data : Data) : Checked OutlineDraft := data.asObject Outline.ofFields

def Position.ofFields (fields : Data.Fields) : Checked Position :=
  Position.mk
    <$> Data.withDefault fields "x".toText 0.0 Data.Coercions.number
    <*> Data.withDefault fields "y".toText 0.0 Data.Coercions.number

def Position.ofData (data : Data) : Checked Position := data.asObject Position.ofFields

def BoxDraft.ofFields (fields : Data.Fields) : Checked BoxDraft :=
  BoxDraft.mk
    <$> Outline.ofFields fields
    <*> Data.ifPresent fields "id".toText Data.asText
    <*> Data.withDefault fields "position".toText {} Position.ofData
    <*> Data.ifPresent fields "created_at".toText Data.Coercions.integer
    <*> Data.ifPresent fields "updated_at".toText Data.Coercions.integer

def BoxDraft.ofData (data : Data) : Checked BoxDraft := data.asObject BoxDraft.ofFields

/-- The entries with their boxes settled, one behind the other. -/
def Board.settleEntries (ids : IdSource) (now : Int) :
    Nat → List (Text × BoxDraft) → List (Text × Box)
  | _, [] => []
  | issued, (key, draft) :: rest =>
    let (box, used) := draft.settle ids now issued
    (key, box) :: settleEntries ids now used rest

def Board.ofFields (ids : IdSource) (now : Int) (fields : Data.Fields) : Checked Board :=
  (fun boxes order version updatedAt =>
    { boxes := settleEntries ids now 0 boxes
      order := order
      version := version
      updatedAt := updatedAt })
    <$> Data.withDefault fields "boxes".toText [] (Data.asMapping BoxDraft.ofData)
    <*> Data.withDefault fields "order".toText [] Data.asTexts
    <*> Data.withDefault fields "version".toText 1 Data.Coercions.integer
    <*> Data.withDefault fields "updated_at".toText now Data.Coercions.integer

/-- A board from untyped input. Ids and times that are left open are filled in. -/
def Board.ofData (ids : IdSource) (now : Int) (data : Data) : Checked Board :=
  data.asObject (Board.ofFields ids now)

end SchemaBoard
