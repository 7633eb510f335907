import Mathlib.Data.List.Forall2
import SchemaBoard.Proofs.Session.Invariant

set_option autoImplicit false

/-!
Commands that write one box, in a second form: what such a command makes of the box that it finds
depends on this box and on the ids issued so far, and on nothing else of the session. Main
statements: a command is done by committing its deed, and further ids decide nothing but the ids of
properties that a patch leaves open.
-/
namespace SchemaBoard

def Property.Alike (same : Text → Text → Prop) (property other : Property) : Prop :=
  other = { property with id := other.id } ∧ same property.id other.id

/-- A box that differs from another one at most in the ids of its properties and in the time of the
last change. -/
structure Box.Alike (same : Text → Text → Prop) (box other : Box) : Prop where
  rest : other = { box with fields := other.fields, updatedAt := other.updatedAt }
  fields : List.Forall₂ (Property.Alike same) box.fields other.fields

/-- The box with the properties of an id changed or, where nothing comes of them, taken out. -/
def Box.alter (id : Text) (change : Property → Option Property) (box : Box) : Box :=
  { box with fields := box.fields.filterMap fun property =>
      if property.id = id then change property else some property }

/-- The edit of a box that a patch asks for, or the refusal of the patch. -/
def BoxEdit.ofPatch [Data.Coercions] : Data → Except Refusal BoxEdit
  | .record fields => Session.accepted (BoxEdit.ofFields fields)
  | _ => .error .patchNotMapping

/-- The edit of a property that a patch asks for, or the refusal of the patch. -/
def PropertyEdit.ofPatch [Data.Coercions] : Data → Except Refusal PropertyEdit
  | .record fields => Session.accepted (PropertyEdit.ofFields fields)
  | _ => .error .patchNotMapping

/-- What a command makes of the box that it finds under its key. -/
inductive Deed where
  /-- Nothing; the command answers all the same. -/
  | leaves (answer : Except Refusal Answer)
  /-- Another box, or none, made from the number of ids issued so far. So many ids are used up for
  it, and the focus is lost on some ids. -/
  | writes (used : Nat) (make : Nat → Option Box) (lost : Text → Bool)

/-- The deed that follows from something checked; a refusal leaves everything as it is. -/
def Deed.following {α : Type} (checked : Except Refusal α) (deed : α → Deed) : Deed :=
  match checked with
  | .ok value => deed value
  | .error refusal => .leaves (.error refusal)

/-- A change of the properties of an id, which are on the box or else it stays as it is. -/
def Deed.onProperty (id : Text) (change : Except Refusal (Property → Option Property))
    (lost : Text → Bool) (box : Box) : Deed :=
  if box.hasProperty id then
    following change fun change => .writes 0 (fun _ => some (box.alter id change)) lost
  else .leaves (.ok .done)

/-- Whether the boxes made from two numbers on are alike, whenever the ids issued from there are
taken for the same. -/
def Deed.IsUniform (ids : IdSource) : Deed → Prop
  | .leaves _ => True
  | .writes used make _ => ∀ (same : Text → Text → Prop) (one other : Nat), (∀ id, same id id) →
      (∀ number < used, same (ids (one + number)) (ids (other + number))) →
      Option.Rel (Box.Alike same) (make one) (make other)

namespace Command

/-- The key of the box that the command replaces or takes off. -/
def writes? : Command → Option Text
  | updateBox key _ | updatePosition key _ _ | updateProperty key _ _ | removeProperty key _
  | removeBox key => some key
  | _ => none

/-- What the command makes of the box that it finds, if it finds one. -/
def deed [Data.Coercions] (ids : IdSource) (command : Command) : Option Box → Deed
  | none => .leaves (.ok .done)
  | some box =>
    match command with
    | updateBox _ patch =>
      .following (BoxEdit.ofPatch patch) fun edit =>
        .writes edit.openIds (fun issued => some (edit.apply ids issued box).1) fun _ => false
    | updatePosition _ x y =>
      .following (Session.accepted (Position.ofFields [("x".toText, x), ("y".toText, y)]))
        fun position => .writes 0 (fun _ => some { box with position := position }) fun _ => false
    | updateProperty _ id patch =>
      .onProperty id ((PropertyEdit.ofPatch patch).map fun edit property =>
        some (edit.apply property)) (fun _ => false) box
    | removeProperty _ id => .onProperty id (.ok fun _ => none) (fun lost => lost = id) box
    | removeBox _ => .writes 0 (fun _ => none) fun lost => box.hasProperty lost
    | _ => .leaves (.ok .done)

end Command

/-- The entries with a box put under a key, or with none there. -/
def Board.place (key : Text) (made : Option Box) (entries : List (Text × Box)) :
    List (Text × Box) :=
  match made with
  | some box => put key box entries
  | none => entries.filter fun entry => entry.1 ≠ key

namespace Session

/-- The session with a box written under a key, or taken off there. The clock is read for a box that
is written, and then for the board. -/
def write (clock : Clock) (key : Text) (made : Option Box) (lost : Text → Bool) (issued : Nat)
    (session : Session) : Session :=
  { session with
    board := Board.touch (clock.reading (if made.isSome then 1 else 0)) { session.board with
      boxes := Board.place key (made.map fun box => { box with updatedAt := clock.reading 0 })
        session.board.boxes
      order := session.board.order.filter fun other => made.isSome || other ≠ key }
    selection := session.selection.filter fun other => made.isSome || other ≠ key
    focus := session.focus.filter fun id => !lost id
    issued := issued }

/-- The session after a deed under a key, with the answer. -/
def commit (clock : Clock) (key : Text) (deed : Deed) (session : Session) :
    Session × Except Refusal Answer :=
  match deed with
  | .leaves answer => (session, answer)
  | .writes used make lost =>
    (session.write clock key (make session.issued) lost (session.issued + used), .ok .done)

end Session

section Settling

variable {ids : IdSource} {same : Text → Text → Prop}

theorem Property.Alike.refl (refl : ∀ id, same id id) (property : Property) :
    property.Alike same property :=
  ⟨rfl, refl property.id⟩

theorem Box.Alike.refl (refl : ∀ id, same id id) (box : Box) : box.Alike same box :=
  ⟨rfl, List.forall₂_same.mpr fun property _ => Property.Alike.refl refl property⟩

/-- The time of the last change does not matter. -/
theorem Box.Alike.withTimes {box other : Box} (alike : box.Alike same other) (now later : Int) :
    Box.Alike same { box with updatedAt := now } { other with updatedAt := later } where
  rest := by rw [alike.rest]
  fields := alike.fields

/-- Properties that are settled from another number on are alike but for the ids issued then. -/
theorem PropertyDraft.forall₂_settleAll (refl : ∀ id, same id id) {one other : Nat}
    {drafts : List PropertyDraft}
    (issued : ∀ number < openIds drafts, same (ids (one + number)) (ids (other + number))) :
    List.Forall₂ (Property.Alike same) (settleAll ids one drafts).1
      (settleAll ids other drafts).1 := by
  induction drafts generalizing one other with
  | nil => exact List.Forall₂.nil
  | cons draft rest ih =>
    obtain ⟨member, id⟩ := draft
    cases id with
    | some id => exact List.Forall₂.cons (Property.Alike.refl refl _) (ih issued)
    | none =>
      have count : openIds (⟨member, none⟩ :: rest) = openIds rest + 1 := by
        simp only [openIds, List.countP_cons, Option.isNone_none, if_true]
      rw [count] at issued
      refine List.Forall₂.cons ⟨rfl, issued 0 (Nat.succ_pos _)⟩ (ih fun number less => ?_)
      have next := issued (number + 1) (Nat.succ_lt_succ less)
      rwa [← Nat.add_assoc, ← Nat.add_assoc, Nat.add_right_comm, Nat.add_right_comm other] at next

theorem BoxEdit.alike_apply (refl : ∀ id, same id id) {one other : Nat} {edit : BoxEdit}
    (box : Box)
    (issued : ∀ number < edit.openIds, same (ids (one + number)) (ids (other + number))) :
    Box.Alike same (edit.apply ids one box).1 (edit.apply ids other box).1 := by
  unfold BoxEdit.openIds at issued
  unfold BoxEdit.apply
  cases patched : edit.fields with
  | none => exact Box.Alike.refl refl _
  | some drafts =>
    rw [patched] at issued
    exact ⟨rfl, PropertyDraft.forall₂_settleAll refl issued⟩

theorem Deed.isUniform_constant (ids : IdSource) (used : Nat) (made : Option Box)
    (lost : Text → Bool) : (Deed.writes used (fun _ => made) lost).IsUniform ids := by
  intro same one other refl _
  cases made with
  | none => exact Option.Rel.none
  | some box => exact Option.Rel.some (Box.Alike.refl refl box)

theorem Deed.isUniform_following {α : Type} {checked : Except Refusal α} {deed : α → Deed}
    (each : ∀ value, (deed value).IsUniform ids) : (following checked deed).IsUniform ids := by
  cases checked with
  | error refusal => trivial
  | ok value => exact each value

theorem Deed.isUniform_onProperty (ids : IdSource) (id : Text)
    (change : Except Refusal (Property → Option Property)) (lost : Text → Bool) (box : Box) :
    (onProperty id change lost box).IsUniform ids := by
  unfold onProperty
  split
  · exact isUniform_following fun change => isUniform_constant ids 0 _ lost
  · trivial

/-- Further ids decide nothing that a command makes but the ids of properties left open. -/
theorem Command.isUniform_deed [Data.Coercions] (ids : IdSource) (command : Command)
    (found : Option Box) : (command.deed ids found).IsUniform ids := by
  cases found with
  | none => trivial
  | some box =>
    cases command with
    | updateBox key patch =>
      refine Deed.isUniform_following fun edit same one other refl issued => ?_
      exact Option.Rel.some (BoxEdit.alike_apply refl box issued)
    | updatePosition key x y =>
      exact Deed.isUniform_following fun position => Deed.isUniform_constant ids 0 _ _
    | updateProperty key id patch => exact Deed.isUniform_onProperty ids id _ _ box
    | removeProperty key id => exact Deed.isUniform_onProperty ids id _ _ box
    | removeBox key => exact Deed.isUniform_constant ids 0 none _
    | _ => trivial

end Settling

namespace Session

section Commits

variable {ids : IdSource} {clock : Clock} {session : Session} {key : Text} {box : Box}

/-- Where another box is written, the order and the selection stay. -/
theorem write_some (clock : Clock) (key : Text) (box : Box) (lost : Text → Bool) (issued : Nat)
    (session : Session) :
    session.write clock key (some box) lost issued =
      { session.replaceBox clock key box with
        focus := session.focus.filter fun id => !lost id
        issued := issued } := by
  have all : ∀ listed : List Text, (listed.filter fun other =>
      (some box).isSome || decide (other ≠ key)) = listed :=
    fun listed => List.filter_eq_self.mpr fun _ _ => rfl
  simp only [write, all]
  rfl

/-- A box that is put in the place of another one takes no focus away. -/
theorem write_replaceBox (clock : Clock) (key : Text) (box : Box) (issued : Nat)
    (session : Session) :
    session.write clock key (some box) (fun _ => false) issued =
      { session.replaceBox clock key box with issued := issued } := by
  have focus : (session.focus.filter fun _ => !false) = session.focus := by
    cases session.focus <;> rfl
  rw [write_some, focus]
  rfl

theorem removeBoxes_singleton (clock : Clock) (found : session.board.get? key = some box) :
    session.removeBoxes clock [key] =
      session.write clock key none (fun id => box.hasProperty id) session.issued := by
  have doomed : [key].filter (fun key => (session.board.get? key).isSome) = [key] := by
    simp [found]
  have apart : ∀ other : Text, (!([key].contains other)) = decide (other ≠ key) := by
    intro other
    simp
  have gone : ∀ id, ([key].filterMap session.board.get? |>.flatMap fun box =>
      box.fields.map Property.id).contains id = box.hasProperty id := by
    intro id
    rw [Bool.eq_iff_iff]
    simp [found, Box.hasProperty]
  unfold removeBoxes
  simp only [doomed, List.isEmpty_cons, Bool.false_eq_true, if_false, gone, apart, Board.removeAll]
  rfl

theorem alter_update (id : Text) (edit : PropertyEdit) (box : Box) :
    box.alter id (fun property => some (edit.apply property)) =
      { box with fields := box.fields.map fun property =>
          if property.id = id then edit.apply property else property } := by
  have single : (fun property : Property =>
      if property.id = id then some (edit.apply property) else some property) =
        some ∘ fun property => if property.id = id then edit.apply property else property := by
    funext property
    exact (apply_ite some _ _ _).symm
  rw [Box.alter, single, List.filterMap_eq_map]

theorem alter_remove (id : Text) (box : Box) :
    box.alter id (fun _ => none) =
      { box with fields := box.fields.filter fun property => property.id ≠ id } := by
  have kept : (fun property : Property => if property.id = id then none else some property) =
      Option.guard fun property => property.id ≠ id := by
    funext property
    by_cases same : property.id = id <;> simp [same, Option.guard]
  rw [Box.alter, kept, List.filterMap_eq_filter]

end Commits

section Perform

variable [Data.Coercions] (ids : IdSource) (clock : Clock) (key id : Text) (session : Session)

theorem performUpdateBox_eq_commit (patch : Data) :
    session.performUpdateBox ids clock key patch = session.commit clock key
      ((Command.updateBox key patch).deed ids (session.board.get? key)) := by
  unfold performUpdateBox
  cases session.board.get? key with
  | none => rfl
  | some box =>
    cases patch with
    | record fields =>
      simp only [Command.deed, BoxEdit.ofPatch]
      cases BoxEdit.ofFields fields with
      | faulty issues => rfl
      | valid edit =>
        simp only [accepted, Deed.following, commit, write_replaceBox, BoxEdit.apply_issued]
    | _ => rfl

theorem performUpdatePosition_eq_commit (x y : Data) :
    session.performUpdatePosition clock key x y = session.commit clock key
      ((Command.updatePosition key x y).deed ids (session.board.get? key)) := by
  unfold performUpdatePosition
  cases session.board.get? key with
  | none => rfl
  | some box =>
    simp only [Command.deed]
    cases Position.ofFields [("x".toText, x), ("y".toText, y)] with
    | faulty issues => rfl
    | valid position =>
      simp only [accepted, Deed.following, commit, write_replaceBox]
      rfl

theorem performUpdateProperty_eq_commit (patch : Data) :
    session.performUpdateProperty clock key id patch = session.commit clock key
      ((Command.updateProperty key id patch).deed ids (session.board.get? key)) := by
  unfold performUpdateProperty
  cases session.board.get? key with
  | none => rfl
  | some box =>
    simp only [Command.deed, Deed.onProperty, all_ne_eq_not_hasProperty]
    cases box.hasProperty id with
    | false => rfl
    | true =>
      cases patch with
      | record fields =>
        simp only [PropertyEdit.ofPatch]
        cases PropertyEdit.ofFields fields with
        | faulty issues => rfl
        | valid edit =>
          simp only [accepted, Except.map, Deed.following, commit, alter_update,
            write_replaceBox, Bool.not_true, Bool.false_eq_true, if_false, if_true]
          rfl
      | _ => rfl

theorem performRemoveProperty_eq_commit :
    session.performRemoveProperty clock key id = session.commit clock key
      ((Command.removeProperty key id).deed ids (session.board.get? key)) := by
  unfold performRemoveProperty
  cases session.board.get? key with
  | none => rfl
  | some box =>
    simp only [Command.deed, Deed.onProperty, all_ne_eq_not_hasProperty]
    cases box.hasProperty id with
    | false => rfl
    | true =>
      simp only [Deed.following, commit, alter_remove, write_some, removeProperty, decide_not,
        Bool.not_true, Bool.false_eq_true, if_false, if_true]
      rfl

theorem removeBox_eq_commit :
    (session.removeBoxes clock [key], Except.ok Answer.done) = session.commit clock key
      ((Command.removeBox key).deed ids (session.board.get? key)) := by
  cases found : session.board.get? key with
  | none =>
    have absent : [key].all (fun key => (session.board.get? key).isNone) = true := by
      simp [found]
    rw [removeBoxes_eq_self clock absent]
    rfl
  | some box =>
    rw [removeBoxes_singleton clock found]
    rfl

/-- A command that writes one box is done by committing its deed. -/
theorem perform_eq_commit {command : Command} {key : Text} (writes : command.writes? = some key)
    (session : Session) :
    session.perform ids clock command =
      session.commit clock key (command.deed ids (session.board.get? key)) := by
  cases command with
  | updateBox box patch =>
    cases writes
    exact performUpdateBox_eq_commit ids clock key session patch
  | updatePosition box x y =>
    cases writes
    exact performUpdatePosition_eq_commit ids clock key session x y
  | updateProperty box property patch =>
    cases writes
    exact performUpdateProperty_eq_commit ids clock key property session patch
  | removeProperty box property =>
    cases writes
    exact performRemoveProperty_eq_commit ids clock key property session
  | removeBox box =>
    cases writes
    exact removeBox_eq_commit ids clock key session
  | _ => cases writes

end Perform

end Session

end SchemaBoard
