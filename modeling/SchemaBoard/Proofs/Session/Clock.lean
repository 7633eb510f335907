import SchemaBoard.Proofs.Session.Invariant
import SchemaBoard.Proofs.Session.Version

set_option autoImplicit false

/-!
What a command writes while the clock moves on. The clock is read anew for every time that is
written: twice for a new box, once for a box that is edited, and once more for the board. Main
statement: a command that does not import changes the board in one of a few ways.
-/
namespace SchemaBoard

namespace Clock

/-- A clock that moves on by one each time that it is read, until it has done so `moves` times. -/
def ticking (start : Int) (moves : Nat) : Clock where
  reading := fun count => start + min count moves
  last := start + moves
  monotone := fun before => by omega
  reading_le_last := fun count => by omega

/-- Whether the clock never goes back: from a time at the start through the clocks of some commands
to the time `now`. -/
def NeverGoesBack (now : Int) : Int → List (Clock × Command) → Prop
  | start, [] => start ≤ now
  | start, (clock, _) :: rest => start ≤ clock.reading 0 ∧ NeverGoesBack now clock.last rest

instance decidableNeverGoesBack (now : Int) :
    (start : Int) → (steps : List (Clock × Command)) → Decidable (NeverGoesBack now start steps)
  | start, [] => inferInstanceAs (Decidable (start ≤ now))
  | start, (clock, _) :: rest =>
    have := decidableNeverGoesBack now clock.last rest
    inferInstanceAs (Decidable (start ≤ clock.reading 0 ∧ NeverGoesBack now clock.last rest))

end Clock

namespace Session

/-- What can become of the board of a session while the clock moves on: it stays, it gets a box with
a fresh id, one of its boxes is replaced, or it loses some. -/
inductive Timed (ids : IdSource) (clock : Clock) (session next : Session) : Prop
  | stays (board : next.board = session.board) (issued : session.issued ≤ next.issued)
  | inserted {box : Box} {number : Nat} (later : session.issued ≤ number)
      (own : box.id = ids number) (createdAt : box.createdAt = clock.reading 0)
      (updatedAt : box.updatedAt = clock.reading 1)
      (board : next.board = session.board.insert (clock.reading 2) box)
      (issued : next.issued = number + 1)
  | replaced {key : Text} {box : Box} (changed : Box) (found : session.board.get? key = some box)
      (id : changed.id = box.id) (createdAt : changed.createdAt = box.createdAt)
      (board : next.board = session.board.replace (clock.reading 1) key
        { changed with updatedAt := clock.reading 0 })
      (issued : session.issued ≤ next.issued)
  | removed (doomed : List Text)
      (board : next.board = session.board.removeAll (clock.reading 0) doomed)
      (issued : session.issued ≤ next.issued)

variable {ids : IdSource} {clock : Clock} {session next : Session} {key : Text} {box : Box}

theorem timed_insertDeclaration (ids : IdSource) (clock : Clock) (draft : OutlineDraft)
    (session : Session) : Timed ids clock session (session.insertDeclaration ids clock draft).1 :=
  .inserted (Outline.issued_le_settle ids session.issued draft) rfl rfl rfl rfl rfl

theorem timed_addBox (ids : IdSource) (clock : Clock) (draft : OutlineDraft) (session : Session) :
    Timed ids clock session (session.addBox ids clock draft).1 :=
  .inserted (Outline.issued_le_settle ids session.issued draft) rfl rfl rfl rfl rfl

theorem timed_removeBoxes (ids : IdSource) (clock : Clock) (keys : List Text) (session : Session) :
    Timed ids clock session (session.removeBoxes clock keys) := by
  unfold removeBoxes
  dsimp only
  split
  · exact .stays rfl (Nat.le_refl _)
  · exact .removed _ rfl (Nat.le_refl _)

theorem timed_addProperty (ids : IdSource) (clock : Clock)
    (found : session.board.get? key = some box) (draft : PropertyDraft) :
    Timed ids clock session (session.addProperty ids clock key box draft).1 := by
  let added := (PropertyDraft.settleAll ids session.issued [draft]).1
  have grows := (PropertyDraft.settleAll_issued ids session.issued [draft]).symm
  exact .replaced { box with fields := box.fields ++ added } found rfl rfl rfl (Nat.le.intro grows)

section Commands

variable [Data.Coercions] {command : Command}

/-- A command that takes effect changes the board in one of these ways, unless it imports. -/
theorem Change.timed {answer : Answer} (change : Change ids clock session command next answer)
    (single : ∀ text, command ≠ .importSource text) : Timed ids clock session next := by
  cases change with
  | boxAdded => exact timed_addBox ids clock _ session
  | declarationInserted => exact timed_insertDeclaration ids clock _ session
  | @sourceImported text => exact absurd rfl (single text)
  | @boxUpdated key box fields edit found =>
    exact .replaced (edit.apply ids session.issued box).1 found
      (BoxEdit.apply_id ids session.issued edit box) rfl rfl
      (Nat.le.intro (BoxEdit.apply_issued ids session.issued edit box).symm)
  | @boxMoved key box x y position found =>
    exact .replaced { box with position := position } found rfl rfl rfl (Nat.le_refl _)
  | boxRemoved | boxesRemoved => exact timed_removeBoxes ids clock _ session
  | propertyAdded _ _ _ _ found => exact timed_addProperty ids clock found _
  | @propertyUpdated key id box fields edit found =>
    let fields := box.fields.map fun property =>
      if property.id = id then edit.apply property else property
    exact .replaced { box with fields := fields } found rfl rfl rfl (Nat.le_refl _)
  | @propertyRemoved key id box found =>
    let fields := box.fields.filter fun property => property.id ≠ id
    exact .replaced { box with fields := fields } found rfl rfl rfl (Nat.le_refl _)
  | selected additive =>
    exact .stays (board_select _ additive session)
      (Nat.le_of_eq (issued_select _ additive session).symm)
  | focused => exact .stays rfl (Nat.le_refl _)

theorem timed_perform (ids : IdSource) (clock : Clock) (session : Session)
    (single : ∀ text, command ≠ .importSource text) :
    Timed ids clock session (session.perform ids clock command).1 := by
  rcases perform_eq_self_or_change ids clock command session with same | ⟨answer, change⟩
  · rw [same]
    exact .stays rfl (Nat.le_refl _)
  · exact change.timed single

end Commands

end Session

end SchemaBoard
