import SchemaBoard.Declaration.Basic

set_option autoImplicit false

/-!
Boxes: declarations with an id and a place on a board. Drafts are what the outside says about a box
or a property; ids and times that a draft leaves open are filled in when it is settled.
-/
namespace SchemaBoard

/-- A member with the id under which a board knows it. -/
structure Property extends Member where
  id : Text
deriving DecidableEq, Repr

structure Position where
  x : Float := 0.0
  y : Float := 0.0
deriving Repr

/-- A declaration on a board. -/
structure Box extends Outline Property where
  /-- The id under which the board knows the box. -/
  id : Text
  /-- Where the box stands. -/
  position : Position := {}
  /-- When the box was made, in milliseconds. -/
  createdAt : Int
  /-- When the box was last changed, in milliseconds. -/
  updatedAt : Int
deriving Repr

/-- What the box says about its type, without ids, place and times. -/
def Box.declaration (box : Box) : Declaration := box.toOutline.map Property.toMember

/-- A member whose id may be left open. -/
structure PropertyDraft extends Member where
  id : Option Text := none
deriving DecidableEq, Repr

/-- A member as a draft that leaves the id open. -/
def Member.draft (member : Member) : PropertyDraft := { toMember := member }

/-- A declaration whose properties may leave their ids open. -/
abbrev OutlineDraft := Outline PropertyDraft

/-- What the draft says about its type. -/
def Outline.declaration (draft : OutlineDraft) : Declaration := draft.map PropertyDraft.toMember

/-- A box whose id and times may be left open. -/
structure BoxDraft extends Outline PropertyDraft where
  id : Option Text := none
  position : Position := {}
  createdAt : Option Int := none
  updatedAt : Option Int := none
deriving Repr

/-- A supply of ids: the one that is issued after `n` others. -/
abbrev IdSource := Nat → Text

/-- The properties of the drafts, in order. Ids that are left open come from the source, of which
`issued` ids are used up; the answer counts the ids used up then. -/
def PropertyDraft.settleAll (ids : IdSource) (issued : Nat) :
    List PropertyDraft → List Property × Nat
  | [] => ([], issued)
  | draft :: rest =>
    match draft.id with
    | some id =>
      let (settled, used) := settleAll ids issued rest
      ({ toMember := draft.toMember, id := id } :: settled, used)
    | none =>
      let (settled, used) := settleAll ids (issued + 1) rest
      ({ toMember := draft.toMember, id := ids issued } :: settled, used)

/-- The outline with its properties settled, and the number of ids used up then. -/
def Outline.settle (ids : IdSource) (issued : Nat) (draft : OutlineDraft) :
    Outline Property × Nat :=
  let (fields, used) := PropertyDraft.settleAll ids issued draft.fields
  ({ name := draft.name
     kind := draft.kind
     fields := fields
     bases := draft.bases
     unionTypes := draft.unionTypes
     intersectionTypes := draft.intersectionTypes
     comment := draft.comment }, used)

/-- The box of a draft, and the number of ids used up then. The box gets its own id after those of
its properties, and the time `now` where none is given. -/
def BoxDraft.settle (ids : IdSource) (now : Int) (issued : Nat) (draft : BoxDraft) : Box × Nat :=
  let (outline, used) := draft.toOutline.settle ids issued
  let place := fun id used =>
    ({ toOutline := outline
       id := id
       position := draft.position
       createdAt := draft.createdAt.getD now
       updatedAt := draft.updatedAt.getD now : Box }, used)
  match draft.id with
  | some id => place id used
  | none => place (ids used) (used + 1)

theorem PropertyDraft.settleAll_toMember (ids : IdSource) (issued : Nat)
    (drafts : List PropertyDraft) :
    (settleAll ids issued drafts).1.map Property.toMember =
      drafts.map PropertyDraft.toMember := by
  induction drafts generalizing issued with
  | nil => rfl
  | cons draft rest ih =>
    simp only [settleAll]
    split <;> simp [ih]

/-- Settling changes nothing that a declaration says. -/
theorem Outline.settle_declaration (ids : IdSource) (issued : Nat) (draft : OutlineDraft) :
    (draft.settle ids issued).1.map Property.toMember = draft.declaration := by
  simp [Outline.settle, Outline.declaration, Outline.map, PropertyDraft.settleAll_toMember]

end SchemaBoard
