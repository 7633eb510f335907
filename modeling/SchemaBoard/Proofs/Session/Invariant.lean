import SchemaBoard.Proofs.Board.Sound
import SchemaBoard.Proofs.Session.Outcome

set_option autoImplicit false

/-!
Runs of a session. Whatever is done with a session whose source of ids never repeats one, its board
stays sound and its selection stays on the board.
-/
namespace SchemaBoard

/-- How many of the drafts leave their ids open. -/
def PropertyDraft.openIds (drafts : List PropertyDraft) : Nat :=
  drafts.countP fun draft => draft.id.isNone

/-- How many ids the edit uses up. -/
def BoxEdit.openIds (edit : BoxEdit) : Nat := (edit.fields.map PropertyDraft.openIds).getD 0

section Ids

/-- An id that is issued later is none of those that were issued before, since the source repeats
none. -/
theorem not_mem_of_issued {ids : IdSource} (distinct : Function.Injective ids) {known : List Text}
    {issued number : Nat} (all : ∀ id ∈ known, ∃ earlier < issued, id = ids earlier)
    (later : issued ≤ number) : ids number ∉ known := by
  intro here
  obtain ⟨earlier, less, same⟩ := all _ here
  have equal := distinct same
  omega

theorem PropertyDraft.settleAll_issued (ids : IdSource) (issued : Nat)
    (drafts : List PropertyDraft) : (settleAll ids issued drafts).2 = issued + openIds drafts := by
  induction drafts generalizing issued with
  | nil => rfl
  | cons draft rest ih =>
    obtain ⟨member, id⟩ := draft
    cases id with
    | some id => exact ih issued
    | none =>
      simp only [settleAll, openIds, List.countP_cons, Option.isNone_none, if_true, ih (issued + 1)]
      omega

theorem Outline.issued_le_settle (ids : IdSource) (issued : Nat) (draft : OutlineDraft) :
    issued ≤ (draft.settle ids issued).2 :=
  Nat.le.intro (PropertyDraft.settleAll_issued ids issued draft.fields).symm

/-- A box of a declaration gets an id that was not issued before. -/
theorem Outline.settle_dated (ids : IdSource) (clock : Clock) (now : Int) (issued : Nat)
    (draft : OutlineDraft) :
    ∃ number, issued ≤ number ∧ ((draft.dated clock).settle ids now issued).1.id = ids number ∧
      ((draft.dated clock).settle ids now issued).2 = number + 1 :=
  ⟨(draft.settle ids issued).2, Outline.issued_le_settle ids issued draft, rfl, rfl⟩

theorem BoxEdit.apply_issued (ids : IdSource) (issued : Nat) (edit : BoxEdit) (box : Box) :
    (edit.apply ids issued box).2 = issued + edit.openIds := by
  unfold BoxEdit.apply BoxEdit.openIds
  cases edit.fields with
  | none => rfl
  | some drafts => exact PropertyDraft.settleAll_issued ids issued drafts

end Ids

namespace Session

/-- The board is sound, its keys are ids that were issued, and the selection lists some of them,
each once. -/
structure IsSound (ids : IdSource) (session : Session) : Prop where
  board : session.board.IsSound
  issuedKeys : ∀ key ∈ session.board.keys, ∃ number < session.issued, key = ids number
  selectionNodup : session.selection.Nodup
  selectionKnown : ∀ key ∈ session.selection, key ∈ session.board.keys

/-- The order lists each key of a box once and nothing else, every box stands under its own id, all
boxes are declared, each of them once, and the selection lists keys of boxes, each once. -/
structure IsOrderly (session : Session) : Prop where
  consistent : session.board.isConsistent = true
  keysNodup : session.board.keys.Nodup
  ownIds : ∀ entry ∈ session.board.boxes, entry.2.id = entry.1
  declaresOnce : ∃ boxes, session.board.declared = .ok boxes ∧
    boxes.map Box.id = session.board.order ∧ boxes.Perm (session.board.boxes.map Prod.snd)
  selectionNodup : session.selection.Nodup
  selectionKnown : ∀ key ∈ session.selection, key ∈ session.board.keys

section Changes

variable {ids : IdSource} {session : Session} {box : Box} {key : Text}

theorem isSound_new (ids : IdSource) (settings : Settings) (now : Int) :
    IsSound ids (new settings now) where
  board := Board.isSound_empty now
  issuedKeys := fun _ absent => nomatch absent
  selectionNodup := List.nodup_nil
  selectionKnown := fun _ absent => nomatch absent

/-- The focus and further ids do not matter. -/
theorem IsSound.withFocus (sound : IsSound ids session) (focus : Option Text) :
    IsSound ids { session with focus := focus } :=
  ⟨sound.board, sound.issuedKeys, sound.selectionNodup, sound.selectionKnown⟩

theorem IsSound.withIssued (sound : IsSound ids session) {issued : Nat}
    (more : session.issued ≤ issued) : IsSound ids { session with issued := issued } where
  board := sound.board
  issuedKeys := by
    intro key known
    obtain ⟨number, before, eq⟩ := sound.issuedKeys key known
    exact ⟨number, Nat.lt_of_lt_of_le before more, eq⟩
  selectionNodup := sound.selectionNodup
  selectionKnown := sound.selectionKnown

theorem IsSound.withSelection (sound : IsSound ids session) {selection : List Text}
    (distinct : selection.Nodup) (known : ∀ key ∈ selection, key ∈ session.board.keys) :
    IsSound ids { session with selection := selection } :=
  ⟨sound.board, sound.issuedKeys, distinct, known⟩

/-- An id that was not issued before is no key. -/
theorem IsSound.not_mem_keys (sound : IsSound ids session) (distinct : Function.Injective ids)
    {number : Nat} (later : session.issued ≤ number) : ids number ∉ session.board.keys :=
  not_mem_of_issued distinct sound.issuedKeys later

theorem IsSound.insert (sound : IsSound ids session) (distinct : Function.Injective ids) (now : Int)
    {number : Nat} (later : session.issued ≤ number) (own : box.id = ids number) :
    IsSound ids (session.insert now box (number + 1)) := by
  have fresh : box.id ∉ session.board.keys := own ▸ sound.not_mem_keys distinct later
  have added : (session.insert now box (number + 1)).board.keys =
      session.board.keys ++ [box.id] := Board.keys_insert now fresh
  constructor
  · exact sound.board.insert now fresh
  · intro key known
    rw [added, List.mem_append] at known
    rcases known with old | new
    · obtain ⟨before, less, eq⟩ := sound.issuedKeys key old
      exact ⟨before, Nat.lt_succ_of_lt (Nat.lt_of_lt_of_le less later), eq⟩
    · exact ⟨number, Nat.lt_succ_self number, (List.mem_singleton.mp new).trans own⟩
  · exact sound.selectionNodup
  · intro key selected
    rw [added]
    exact List.mem_append_left _ (sound.selectionKnown key selected)

/-- A declaration becomes a box under a key that was not there before. -/
theorem IsSound.insertDeclaration (sound : IsSound ids session) (distinct : Function.Injective ids)
    (clock : Clock) (draft : OutlineDraft) :
    IsSound ids (session.insertDeclaration ids clock draft).1 ∧
      (session.insertDeclaration ids clock draft).2 ∈
        (session.insertDeclaration ids clock draft).1.board.keys := by
  let box := ((draft.dated clock).settle ids (clock.reading 2) session.issued).1
  obtain ⟨number, later, own, used⟩ :=
    draft.settle_dated ids clock (clock.reading 2) session.issued
  have fresh : box.id ∉ session.board.keys := own ▸ sound.not_mem_keys distinct later
  have result := sound.insert distinct (clock.reading 2) later own
  rw [← used] at result
  have member : box.id ∈ (session.board.insert (clock.reading 2) box).keys := by
    rw [Board.keys_insert _ fresh]
    exact List.mem_append_right _ (List.mem_singleton_self _)
  exact ⟨result, member⟩

theorem IsSound.insertAll (sound : IsSound ids session) (distinct : Function.Injective ids)
    (clock : Clock) (drafts : List OutlineDraft) :
    IsSound ids (session.insertAll ids clock drafts).1 := by
  induction drafts generalizing clock session with
  | nil => exact sound
  | cons draft rest ih => exact ih (sound.insertDeclaration distinct clock draft).1 (clock.after 3)

theorem IsSound.addBox (sound : IsSound ids session) (distinct : Function.Injective ids)
    (clock : Clock) (draft : OutlineDraft) : IsSound ids (session.addBox ids clock draft).1 := by
  obtain ⟨inserted, known⟩ := sound.insertDeclaration distinct clock draft
  have single : [(session.insertDeclaration ids clock draft).2].Nodup := List.pairwise_singleton _ _
  refine (inserted.withSelection single fun key selected => ?_).withFocus none
  exact List.mem_singleton.mp selected ▸ known

/-- The box that a key finds is replaced by one with its id. -/
theorem IsSound.replaceBox {changed : Box} (sound : IsSound ids session) (clock : Clock)
    (found : session.board.get? key = some box) (same : changed.id = box.id) :
    IsSound ids (session.replaceBox clock key changed) := by
  have known := Board.mem_keys_of_get? found
  have own : changed.id = key := same.trans (sound.board.ownIds _ (Board.mem_boxes_of_get? found))
  have keys : (session.replaceBox clock key changed).board.keys = session.board.keys :=
    Board.keys_replace _ known
  constructor
  · exact sound.board.replace _ known own
  · intro other member
    rw [keys] at member
    exact sound.issuedKeys other member
  · exact sound.selectionNodup
  · intro other selected
    rw [keys]
    exact sound.selectionKnown other selected

theorem IsSound.removeBoxes (sound : IsSound ids session) (clock : Clock) (keys : List Text) :
    IsSound ids (session.removeBoxes clock keys) := by
  simp only [Session.removeBoxes]
  split
  · exact sound
  · have left := Board.keys_removeAll (clock.reading 0)
      (keys.filter fun key => (session.board.get? key).isSome) session.board
    constructor
    · exact sound.board.removeAll _ _
    · intro key known
      rw [left] at known
      exact sound.issuedKeys key (List.mem_filter.mp known).1
    · exact List.filter_sublist.nodup sound.selectionNodup
    · intro key selected
      obtain ⟨before, stays⟩ := List.mem_filter.mp selected
      rw [left]
      exact List.mem_filter.mpr ⟨sound.selectionKnown key before, stays⟩

theorem IsSound.addProperty (sound : IsSound ids session) (clock : Clock)
    (found : session.board.get? key = some box) (draft : PropertyDraft) :
    IsSound ids (session.addProperty ids clock key box draft).1 := by
  have more : session.issued ≤ (PropertyDraft.settleAll ids session.issued [draft]).2 :=
    Nat.le.intro (PropertyDraft.settleAll_issued ids session.issued [draft]).symm
  let added := (PropertyDraft.settleAll ids session.issued [draft]).1
  have replaced : IsSound ids
      (session.replaceBox clock key { box with fields := box.fields ++ added }) :=
    sound.replaceBox clock found rfl
  exact replaced.withIssued more

theorem IsSound.removeProperty (sound : IsSound ids session) (clock : Clock)
    (found : session.board.get? key = some box) (id : Text) :
    IsSound ids (session.removeProperty clock key box id) := by
  have replaced : IsSound ids (session.replaceBox clock key
      { box with fields := box.fields.filter fun property => property.id ≠ id }) :=
    sound.replaceBox clock found rfl
  exact replaced.withFocus _

theorem IsSound.select (sound : IsSound ids session) (key : Option Text) (additive : Bool) :
    IsSound ids (session.select key additive) := by
  unfold Session.select
  split
  · exact (sound.withSelection List.nodup_nil fun _ absent => nomatch absent).withFocus none
  · next key =>
    split
    · exact sound
    · next found =>
      have known : key ∈ session.board.keys := by
        apply Board.mem_keys_of_get?_isSome
        simpa [Option.isSome_iff_ne_none] using found
      split
      · have single : [key].Nodup := List.pairwise_singleton _ _
        refine (sound.withSelection single fun other selected => ?_).withFocus none
        exact List.mem_singleton.mp selected ▸ known
      · split
        · refine sound.withSelection (List.filter_sublist.nodup sound.selectionNodup) ?_
          exact fun other selected => sound.selectionKnown other (List.mem_filter.mp selected).1
        · next absent =>
          have fresh : key ∉ session.selection := by simpa using absent
          refine sound.withSelection ?_ fun other selected => ?_
          · rw [List.nodup_append]
            refine ⟨sound.selectionNodup, List.pairwise_singleton _ _, ?_⟩
            intro one selected other here
            rintro rfl
            exact fresh (List.mem_singleton.mp here ▸ selected)
          · rcases List.mem_append.mp selected with before | here
            · exact sound.selectionKnown other before
            · exact List.mem_singleton.mp here ▸ known

end Changes

section Commands

variable [Data.Coercions] {ids : IdSource} {clock : Clock} {session next : Session}

theorem Change.isSound {command : Command} {answer : Answer}
    (change : Change ids clock session command next answer) (sound : IsSound ids session)
    (distinct : Function.Injective ids) : IsSound ids next := by
  cases change with
  | boxAdded => exact sound.addBox distinct clock _
  | declarationInserted => exact (sound.insertDeclaration distinct clock _).1
  | sourceImported => exact sound.insertAll distinct clock _
  | @boxUpdated key box fields edit found =>
    exact (sound.replaceBox clock found (BoxEdit.apply_id ids session.issued edit box)).withIssued
      (Nat.le.intro (BoxEdit.apply_issued ids session.issued edit box).symm)
  | boxMoved found => exact sound.replaceBox clock found rfl
  | boxRemoved => exact sound.removeBoxes clock _
  | boxesRemoved => exact sound.removeBoxes clock _
  | propertyAdded _ _ _ _ found => exact sound.addProperty clock found _
  | propertyUpdated found => exact sound.replaceBox clock found rfl
  | propertyRemoved found => exact sound.removeProperty clock found _
  | selected additive => exact sound.select _ additive
  | focused property => exact sound.withFocus property

/-- No command makes a session unsound, whether it is done or refused. -/
theorem IsSound.perform (sound : IsSound ids session) (distinct : Function.Injective ids)
    (clock : Clock) (command : Command) : IsSound ids (session.perform ids clock command).1 := by
  rcases perform_eq_self_or_change ids clock command session with same | ⟨answer, change⟩
  · rw [same]
    exact sound
  · exact change.isSound sound distinct

theorem IsSound.run (sound : IsSound ids session) (distinct : Function.Injective ids)
    (steps : List (Clock × Command)) : IsSound ids (run ids steps session) := by
  induction steps generalizing session with
  | nil => exact sound
  | cons step rest ih => exact ih (sound.perform distinct step.1 step.2)

/-- However a session is used, also with commands that are refused, it stays orderly. -/
theorem isOrderly_run_new (distinct : Function.Injective ids) (settings : Settings) (start : Int)
    (steps : List (Clock × Command)) : IsOrderly (Session.run ids steps (new settings start)) := by
  have sound := (isSound_new ids settings start).run distinct steps
  obtain ⟨boxes, done, order, once⟩ := sound.board.declared
  exact
    { consistent := sound.board.isConsistent
      keysNodup := sound.board.keysNodup
      ownIds := sound.board.ownIds
      declaresOnce := ⟨boxes, done, order, once⟩
      selectionNodup := sound.selectionNodup
      selectionKnown := sound.selectionKnown }

end Commands

/-- Ids that grow by one digit, and commands of which the second and the third are refused. -/
theorem isOrderly_run_new_growingIds :
    let ids : IdSource := fun number => idOfDigits none (List.replicate number (.char '0'))
    let reached := Session.run ids
      [(1, .addBox .null .null .null),
       (2, .addBox .null (.text "nah".toText) .null),
       (3, .updateBox "_00".toText (.record [("name".toText, .integer 1)])),
       (4, .importSource "interface A \x7b\nx: string;\n\x7d".toText),
       (5, .select (some "_0000".toText) true),
       (6, .removeBoxes ["_00".toText, "_00".toText, "gone".toText])]
      (new {} 0)
    Function.Injective ids ∧ reached.selection = ["_0000".toText] ∧ IsOrderly reached := by
  have distinct : Function.Injective
      (fun number => idOfDigits none (List.replicate number (.char '0'))) := by
    intro one other same
    have lengths := congrArg List.length same
    simp only [idOfDigits, List.length_append, List.length_map, List.length_replicate] at lengths
    omega
  exact ⟨distinct, by decide +kernel, isOrderly_run_new distinct {} 0 _⟩

end Session

end SchemaBoard
