import SchemaBoard.Proofs.Session.Invariant

set_option autoImplicit false

/-!
The property in focus. Taking boxes or properties away takes the focus away with them, but a patch
that lists the properties of a box anew does not. Main statement: unless such a patch leaves out the
property in focus, the focus never dangles.
-/
namespace SchemaBoard

namespace Board

def propertyIds (board : Board) : List Text :=
  board.boxes.flatMap fun entry => entry.2.fields.map Property.id

section Properties

variable {board : Board} {key id : Text} {box changed : Box} {entries : List (Text × Box)}

theorem hasProperty_iff :
    box.hasProperty id = true ↔ ∃ property ∈ box.fields, property.id = id := by
  simp [Box.hasProperty]

theorem mem_propertyIds :
    id ∈ board.propertyIds ↔ ∃ entry ∈ board.boxes, entry.2.hasProperty id = true := by
  simp only [propertyIds, List.mem_flatMap, List.mem_map, hasProperty_iff]

/-- Only what the key finds is put out of its place. -/
theorem mem_put_of_mem (key : Text) (box : Box) {entry : Text × Box} (member : entry ∈ entries) :
    entry ∈ put key box entries ∨ entries.lookup key = some entry.2 := by
  induction entries with
  | nil => cases member
  | cons first rest ih =>
    obtain ⟨other, old⟩ := first
    rw [put, List.lookup_cons]
    by_cases same : other = key
    · subst same
      rw [if_pos rfl, beq_self_eq_true]
      rcases List.mem_cons.mp member with rfl | later
      · exact Or.inr rfl
      · exact Or.inl (List.mem_cons_of_mem _ later)
    · have apart : (key == other) = false := beq_eq_false_iff_ne.mpr fun eq => same eq.symm
      rw [if_neg same, apart]
      rcases List.mem_cons.mp member with rfl | later
      · exact Or.inl List.mem_cons_self
      · exact (ih later).imp_left (List.mem_cons_of_mem _)

theorem mem_put_self (key : Text) (box : Box) (entries : List (Text × Box)) :
    (key, box) ∈ put key box entries := by
  induction entries with
  | nil => exact List.mem_singleton_self _
  | cons first rest ih =>
    rw [put]
    split
    · exact List.mem_cons_self
    · exact List.mem_cons_of_mem _ ih

/-- A box under a fresh key takes no property away. -/
theorem mem_propertyIds_insert (now : Int) (fresh : box.id ∉ board.keys)
    (known : id ∈ board.propertyIds) : id ∈ (board.insert now box).propertyIds := by
  obtain ⟨entry, member, has⟩ := mem_propertyIds.mp known
  rcases mem_put_of_mem box.id box member with stays | found
  · exact mem_propertyIds.mpr ⟨entry, stays, has⟩
  · exact absurd (mem_keys_of_get? found) fresh

/-- Replacing a box takes away those of its properties that the new box lacks. -/
theorem mem_propertyIds_replace (now : Int) (found : board.get? key = some box)
    (kept : box.hasProperty id = true → changed.hasProperty id = true)
    (known : id ∈ board.propertyIds) : id ∈ (board.replace now key changed).propertyIds := by
  obtain ⟨entry, member, has⟩ := mem_propertyIds.mp known
  rcases mem_put_of_mem key changed member with stays | place
  · exact mem_propertyIds.mpr ⟨entry, stays, has⟩
  · have same : entry.2 = box := Option.some.inj (place.symm.trans found)
    exact mem_propertyIds.mpr ⟨(key, changed), mem_put_self key changed _, kept (same ▸ has)⟩

/-- Taking boxes away takes their properties away. -/
theorem mem_propertyIds_removeAll (sound : IsSound board) (now : Int) {doomed : List Text}
    (stays : id ∉ (doomed.filterMap board.get?).flatMap fun box => box.fields.map Property.id)
    (known : id ∈ board.propertyIds) : id ∈ (board.removeAll now doomed).propertyIds := by
  obtain ⟨⟨key, box⟩, member, has⟩ := mem_propertyIds.mp known
  have spared : key ∉ doomed := by
    intro here
    have found : board.get? key = some box := lookup_eq_some_of_mem sound.keysNodup member
    refine stays (List.mem_flatMap.mpr ⟨box, List.mem_filterMap.mpr ⟨key, here, found⟩, ?_⟩)
    exact List.mem_map.mpr (hasProperty_iff.mp has)
  refine mem_propertyIds.mpr ⟨(key, box), List.mem_filter.mpr ⟨member, ?_⟩, has⟩
  simpa using spared

end Properties

end Board

namespace Session

/-- The property in focus, if there is one, is on the board. -/
def FocusKnown (session : Session) : Prop :=
  ∀ id, session.focus = some id → id ∈ session.board.propertyIds

/-- Whether a property that the command puts in focus is on the board. -/
def focusesKnown (session : Session) : Command → Bool
  | .selectProperty (some id) => session.board.propertyIds.contains id
  | _ => true

/-- Whether a patch keeps the property in focus: if it passes its checks and lists the properties
of a box anew, and the focus is on a property of this box, then that property is listed by its
id. -/
def keepsFocus [Data.Coercions] (session : Session) : Command → Bool
  | .updateBox key (.record fields) =>
    match session.focus, session.board.get? key, BoxEdit.ofFields fields with
    | some id, some box, .valid { fields := some drafts, .. } =>
      !box.hasProperty id || drafts.any fun draft => draft.id = some id
    | _, _, _ => true
  | _ => true

/-- Whether every command passes a check of the session in which it is given. -/
def always [Data.Coercions] (check : Session → Command → Bool) (ids : IdSource) :
    List (Clock × Command) → Session → Bool
  | [], _ => true
  | (clock, command) :: rest, session =>
    check session command && always check ids rest (session.perform ids clock command).1

section Changes

variable {ids : IdSource} {clock : Clock} {session next : Session} {key id : Text}
  {box changed : Box}

/-- What is in focus stays known if the focus moves nowhere else and what it is on stays. -/
theorem FocusKnown.of_subset (known : FocusKnown session)
    (stays : ∀ id, next.focus = some id → session.focus = some id ∧
      (id ∈ session.board.propertyIds → id ∈ next.board.propertyIds)) : FocusKnown next := by
  intro id focused
  obtain ⟨before, kept⟩ := stays id focused
  exact kept (known id before)

theorem FocusKnown.of_none (none : session.focus = none) : FocusKnown session := by
  intro id focused
  rw [none] at focused
  cases focused

theorem FocusKnown.insertDeclaration (known : FocusKnown session) (sound : IsSound ids session)
    (distinct : Function.Injective ids) (clock : Clock) (draft : OutlineDraft) :
    FocusKnown (session.insertDeclaration ids clock draft).1 := by
  obtain ⟨number, later, own, -⟩ :=
    draft.settle_dated ids clock (clock.reading 2) session.issued
  have fresh := own ▸ sound.not_mem_keys distinct later
  refine known.of_subset fun id focused => ⟨focused, fun here => ?_⟩
  exact Board.mem_propertyIds_insert _ fresh here

theorem FocusKnown.insertAll (known : FocusKnown session) (sound : IsSound ids session)
    (distinct : Function.Injective ids) (clock : Clock) (drafts : List OutlineDraft) :
    FocusKnown (session.insertAll ids clock drafts).1 := by
  induction drafts generalizing clock session with
  | nil => exact known
  | cons draft rest ih =>
    exact ih (known.insertDeclaration sound distinct clock draft)
      (sound.insertDeclaration distinct clock draft).1 (clock.after 3)

/-- A box may be replaced by one that has the property in focus if the old one does. -/
theorem FocusKnown.replaceBox (known : FocusKnown session) (clock : Clock)
    (found : session.board.get? key = some box)
    (kept : ∀ id, session.focus = some id → box.hasProperty id = true →
      changed.hasProperty id = true) : FocusKnown (session.replaceBox clock key changed) := by
  refine known.of_subset fun id focused => ⟨focused, fun here => ?_⟩
  exact Board.mem_propertyIds_replace _ found (kept id focused) here

theorem FocusKnown.removeBoxes (known : FocusKnown session) (sound : IsSound ids session)
    (clock : Clock) (keys : List Text) : FocusKnown (session.removeBoxes clock keys) := by
  simp only [Session.removeBoxes]
  split
  · exact known
  · refine known.of_subset fun id focused => ?_
    obtain ⟨before, spared⟩ := Option.filter_eq_some_iff.mp focused
    refine ⟨before, Board.mem_propertyIds_removeAll sound.board _ ?_⟩
    simpa using spared

/-- An id that a draft gives is kept when the drafts are settled. -/
theorem exists_mem_settleAll {draft : PropertyDraft} {drafts : List PropertyDraft}
    (ids : IdSource) (issued : Nat) (here : draft ∈ drafts) (own : draft.id = some id) :
    ∃ property ∈ (PropertyDraft.settleAll ids issued drafts).1, property.id = id := by
  induction drafts generalizing issued with
  | nil => cases here
  | cons first rest ih =>
    rw [PropertyDraft.settleAll]
    rcases List.mem_cons.mp here with rfl | later
    · rw [own]
      exact ⟨_, List.mem_cons_self, rfl⟩
    · split
      · obtain ⟨property, inside, same⟩ := ih issued later
        exact ⟨property, List.mem_cons_of_mem _ inside, same⟩
      · obtain ⟨property, inside, same⟩ := ih (issued + 1) later
        exact ⟨property, List.mem_cons_of_mem _ inside, same⟩

/-- An edit that lists no properties keeps those of the box, and one that lists some keeps the ids
among them. -/
theorem hasProperty_apply {edit : BoxEdit} (ids : IdSource) (issued : Nat)
    (listed : ∀ drafts, edit.fields = some drafts → box.hasProperty id = true →
      ∃ draft ∈ drafts, draft.id = some id)
    (has : box.hasProperty id = true) : (edit.apply ids issued box).1.hasProperty id = true := by
  rw [Board.hasProperty_iff]
  cases fields : edit.fields with
  | none =>
    have same : (edit.apply ids issued box).1.fields = box.fields := by
      simp only [BoxEdit.apply, fields]
    rw [same]
    exact Board.hasProperty_iff.mp has
  | some drafts =>
    have settled : (edit.apply ids issued box).1.fields =
        (PropertyDraft.settleAll ids issued drafts).1 := by
      simp only [BoxEdit.apply, fields]
    obtain ⟨draft, here, own⟩ := listed drafts fields has
    rw [settled]
    exact exists_mem_settleAll ids issued here own

theorem exists_listed_of_keepsFocus [Data.Coercions] {fields : Data.Fields} {edit : BoxEdit}
    (kept : session.keepsFocus (.updateBox key (.record fields)) = true)
    (focused : session.focus = some id) (found : session.board.get? key = some box)
    (checked : BoxEdit.ofFields fields = .valid edit) {drafts : List PropertyDraft}
    (lists : edit.fields = some drafts) (has : box.hasProperty id = true) :
    ∃ draft ∈ drafts, draft.id = some id := by
  obtain ⟨name, kind, fields, bases, union, intersection, comment, position⟩ := edit
  obtain rfl : fields = some drafts := lists
  simpa [keepsFocus, focused, found, checked, has] using kept

theorem FocusKnown.select (known : FocusKnown session) (key : Option Text) (additive : Bool) :
    FocusKnown (session.select key additive) := by
  unfold Session.select
  split
  · exact FocusKnown.of_none rfl
  · split
    · exact known
    · split
      · exact FocusKnown.of_none rfl
      · split
        · exact known
        · exact known

variable [Data.Coercions]

/-- A command that keeps to both conditions lets the focus not dangle. -/
theorem Change.focusKnown {command : Command} {answer : Answer}
    (change : Change ids clock session command next answer) (known : FocusKnown session)
    (sound : IsSound ids session) (distinct : Function.Injective ids)
    (there : session.focusesKnown command = true) (kept : session.keepsFocus command = true) :
    FocusKnown next := by
  cases change with
  | boxAdded => exact FocusKnown.of_none rfl
  | declarationInserted => exact known.insertDeclaration sound distinct clock _
  | sourceImported => exact known.insertAll sound distinct clock _
  | boxUpdated found checked =>
    refine known.replaceBox clock found fun id focused has => ?_
    exact hasProperty_apply ids session.issued
      (fun _ lists => exists_listed_of_keepsFocus kept focused found checked lists) has
  | boxMoved found => exact known.replaceBox clock found fun _ _ has => has
  | boxRemoved => exact known.removeBoxes sound clock _
  | boxesRemoved => exact known.removeBoxes sound clock _
  | propertyAdded _ _ _ _ found =>
    refine known.replaceBox clock found fun id _ has => ?_
    obtain ⟨property, here, same⟩ := Board.hasProperty_iff.mp has
    exact Board.hasProperty_iff.mpr ⟨property, List.mem_append_left _ here, same⟩
  | propertyUpdated found =>
    refine known.replaceBox clock found fun id _ has => ?_
    obtain ⟨property, here, same⟩ := Board.hasProperty_iff.mp has
    refine Board.hasProperty_iff.mpr ⟨_, List.mem_map_of_mem here, ?_⟩
    split
    · exact same
    · exact same
  | propertyRemoved found =>
    refine known.of_subset fun other focused => ?_
    obtain ⟨before, apart⟩ := Option.filter_eq_some_iff.mp focused
    refine ⟨before, Board.mem_propertyIds_replace _ found fun has => ?_⟩
    obtain ⟨property, here, same⟩ := Board.hasProperty_iff.mp has
    refine Board.hasProperty_iff.mpr ⟨property, List.mem_filter.mpr ⟨here, ?_⟩, same⟩
    rw [same]
    exact apart
  | selected => exact known.select _ _
  | focused property =>
    intro id focused
    obtain rfl : property = some id := focused
    exact List.contains_iff_mem.mp there

theorem FocusKnown.perform (known : FocusKnown session) (sound : IsSound ids session)
    (distinct : Function.Injective ids) (clock : Clock) {command : Command}
    (there : session.focusesKnown command = true) (kept : session.keepsFocus command = true) :
    FocusKnown (session.perform ids clock command).1 := by
  rcases perform_eq_self_or_change ids clock command session with same | ⟨answer, change⟩
  · rw [same]
    exact known
  · exact change.focusKnown known sound distinct there kept

theorem FocusKnown.run_take (known : FocusKnown session) (sound : IsSound ids session)
    (distinct : Function.Injective ids) {steps : List (Clock × Command)}
    (there : always focusesKnown ids steps session = true)
    (kept : always keepsFocus ids steps session = true) (count : Nat) :
    FocusKnown (run ids (steps.take count) session) := by
  induction steps generalizing session count with
  | nil =>
    rw [List.take_nil]
    exact known
  | cons step rest ih =>
    cases count with
    | zero => exact known
    | succ count =>
      obtain ⟨thereNow, thereLater⟩ := (Bool.and_eq_true _ _).mp there
      obtain ⟨keptNow, keptLater⟩ := (Bool.and_eq_true _ _).mp kept
      exact ih (known.perform sound distinct step.1 thereNow keptNow)
        (sound.perform distinct step.1 step.2) thereLater keptLater count

end Changes

section Runs

variable [Data.Coercions] {ids : IdSource}

/-- If only properties on the board are put in focus, and no patch leaves out the property in focus
when it lists the properties of its box anew, then the focus is on no property or on one of the
board, at every moment of a run. -/
theorem focusKnown_run_new (distinct : Function.Injective ids) (settings : Settings) (start : Int)
    (steps : List (Clock × Command))
    (there : always focusesKnown ids steps (new settings start) = true)
    (kept : always keepsFocus ids steps (new settings start) = true) (count : Nat) :
    FocusKnown (run ids (steps.take count) (new settings start)) :=
  FocusKnown.run_take (FocusKnown.of_none rfl) (isSound_new ids settings start) distinct there kept
    count

end Runs

/-- A patch that lists the property in focus behind a new one, and later its removal. -/
theorem focusKnown_run_new_relisted :
    let steps : List (Clock × Command) :=
      [(1, .addBox .null .null .null),
       (2, .selectProperty (some "_0".toText)),
       (3, .updateBox "_00".toText (.record [("properties".toText, .list
         [.record [("name".toText, .text "email".toText), ("type".toText, .text "string".toText)],
          .record [("id".toText, .text "_0".toText), ("name".toText, .text "title".toText),
            ("type".toText, .text "string".toText)]])])),
       (4, .removeProperty "_00".toText "_0".toText)]
    let start := new {} 0
    Function.Injective growingIds ∧ always focusesKnown growingIds steps start = true ∧
      always keepsFocus growingIds steps start = true ∧
      (run growingIds (steps.take 3) start).focus = some "_0".toText ∧
      FocusKnown (run growingIds (steps.take 3) start) := by
  intro steps start
  have there : always focusesKnown growingIds steps start = true := by decide +kernel
  have kept : always keepsFocus growingIds steps start = true := by decide +kernel
  exact ⟨growingIds_injective, there, kept, by decide +kernel,
    focusKnown_run_new growingIds_injective {} 0 steps there kept 3⟩

/-- A patch that lists no properties for the box of the property in focus leaves the focus on
nothing. -/
theorem not_focusKnown_of_no_properties :
    let steps : List (Clock × Command) :=
      [(1, .addBox .null .null .null),
       (2, .selectProperty (some "_".toText)),
       (3, .updateBox "_00".toText (.record [("properties".toText, .list [])]))]
    let start := new {} 0
    Function.Injective growingIds ∧ always focusesKnown growingIds steps start = true ∧
      ¬FocusKnown (run growingIds steps start) := by
  intro steps start
  refine ⟨growingIds_injective, by decide +kernel, fun known => ?_⟩
  have focused : (run growingIds steps start).focus = some "_".toText := by decide +kernel
  have absent : "_".toText ∉ (run growingIds steps start).board.propertyIds := by decide +kernel
  exact absent (known "_".toText focused)

end Session
end SchemaBoard
