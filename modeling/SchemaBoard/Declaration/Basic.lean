import SchemaBoard.Member.Basic

set_option autoImplicit false

/-!
Declarations: what source text says about one named type. The fields of an outline may be plain
members or members that carry an id.
-/
namespace SchemaBoard

inductive DeclarationKind where
  | interface
  | type
  | enum
  | synonym
deriving DecidableEq, Repr

namespace DeclarationKind

def all : List DeclarationKind := [interface, type, enum, synonym]

def word : DeclarationKind → Text
  | interface => "interface".toText
  | type => "type".toText
  | enum => "enum".toText
  | synonym => "alias".toText

def ofWord? (text : Text) : Option DeclarationKind := all.find? fun k => k.word == text

theorem ofWord?_word (kind : DeclarationKind) : ofWord? kind.word = some kind := by
  cases kind <;> decide

end DeclarationKind

/-- The parts of a declaration, over some notion of its fields. -/
structure Outline (Field : Type) where
  /-- The declared name. -/
  name : Text
  /-- The kind of declaration. -/
  kind : DeclarationKind := .type
  /-- The fields, in order. -/
  fields : List Field := []
  /-- The names that an interface extends. -/
  bases : List Text := []
  /-- The members of an alias that is a union, as source text. -/
  unionTypes : List Text := []
  /-- The members of an alias that is an intersection, as source text. -/
  intersectionTypes : List Text := []
  /-- The text that documents the declaration. -/
  comment : Option Text := none
deriving DecidableEq, Repr

def Outline.map {Field Other : Type} (f : Field → Other) (outline : Outline Field) :
    Outline Other :=
  { name := outline.name
    kind := outline.kind
    fields := outline.fields.map f
    bases := outline.bases
    unionTypes := outline.unionTypes
    intersectionTypes := outline.intersectionTypes
    comment := outline.comment }

/-- What source text can say about one named type. -/
abbrev Declaration := Outline Member

theorem Outline.map_map {Field Other Third : Type} (f : Field → Other) (g : Other → Third)
    (outline : Outline Field) : (outline.map f).map g = outline.map (g ∘ f) := by
  simp [Outline.map]

theorem Outline.map_id {Field : Type} (outline : Outline Field) : outline.map id = outline := by
  simp [Outline.map]

end SchemaBoard
