import SchemaBoard.Proofs.Session.Frame

set_option autoImplicit false

/-!
Input that leaves the ids of properties open. Main statements: whatever a command makes of such
input are drafts without ids, and these get the next ids, in order.
-/
namespace SchemaBoard

namespace Data

def leavesIdOpen : Data → Bool
  | record fields => (fields.lookup "id".toText).isNone
  | _ => true

def leavesIdsOpen : Data → Bool
  | list items => items.all leavesIdOpen
  | _ => true

def propertiesLeaveIdsOpen (fields : Fields) : Bool :=
  (fields.lookup "properties".toText).all leavesIdsOpen

end Data

def Command.leavesIdsOpen : Command → Bool
  | addBox _ _ properties => properties.leavesIdsOpen
  | insertDeclaration (.record fields) => Data.propertiesLeaveIdsOpen fields
  | updateBox _ (.record fields) => Data.propertiesLeaveIdsOpen fields
  | _ => true

/-- The drafts of which none has an id yet. -/
def PropertyDraft.AllOpen (drafts : List PropertyDraft) : Prop := ∀ draft ∈ drafts, draft.id = none

section Outcomes

variable {α β ε : Type}

/-- One step after another has a result if both have one. -/
theorem bind_eq_ok_iff {first : Except ε α} {next : α → Except ε β} {result : β} :
    first >>= next = .ok result ↔ ∃ value, first = .ok value ∧ next value = .ok result := by
  cases first with
  | error reason => exact iff_of_false nofun nofun
  | ok value => exact ⟨fun done => ⟨value, rfl, done⟩, fun ⟨_, rfl, done⟩ => done⟩

/-- What comes of a list is what comes of its items. -/
theorem exists_of_mem_mapM {f : α → Except ε β} {items : List α} {results : List β}
    (done : items.mapM f = .ok results) {result : β} (member : result ∈ results) :
    ∃ item ∈ items, f item = .ok result := by
  induction items generalizing results with
  | nil =>
    cases done
    cases member
  | cons item rest ih =>
    rw [List.mapM_cons] at done
    obtain ⟨value, first, done⟩ := bind_eq_ok_iff.mp done
    obtain ⟨others, later, done⟩ := bind_eq_ok_iff.mp done
    cases done
    rcases List.mem_cons.mp member with rfl | behind
    · exact ⟨item, List.mem_cons_self, first⟩
    · obtain ⟨other, here, made⟩ := ih later behind
      exact ⟨other, List.mem_cons_of_mem _ here, made⟩

end Outcomes

section Drafts

variable [Data.Coercions] {fields : Data.Fields}

theorem PropertyDraft.id_eq_none_of_ofFields {draft : PropertyDraft}
    (absent : fields.lookup "id".toText = none) (checked : ofFields fields = .valid draft) :
    draft.id = none := by
  obtain ⟨_, comment, upToReadonly, -, rfl⟩ := Checked.seq_eq_valid_iff.mp checked
  obtain ⟨_, readonly, upToOptional, -, rfl⟩ := Checked.seq_eq_valid_iff.mp upToReadonly
  obtain ⟨_, optional, upToType, -, rfl⟩ := Checked.seq_eq_valid_iff.mp upToOptional
  obtain ⟨_, type, upToName, -, rfl⟩ := Checked.seq_eq_valid_iff.mp upToType
  obtain ⟨_, name, upToId, -, rfl⟩ := Checked.seq_eq_valid_iff.mp upToName
  obtain ⟨id, hasId, rfl⟩ := Checked.map_eq_valid_iff.mp upToId
  rcases Data.ifPresent_eq_valid hasId with ⟨given, _, present, -⟩ | ⟨-, none⟩
  · rw [absent] at present
    cases present
  · exact none

theorem PropertyDraft.id_eq_none_of_ofData {data : Data} {draft : PropertyDraft}
    (leaves : data.leavesIdOpen = true) (checked : ofData data = .valid draft) :
    draft.id = none := by
  cases data with
  | record fields => exact id_eq_none_of_ofFields (Option.isNone_iff_eq_none.mp leaves) checked
  | _ => cases checked

theorem PropertyDraft.allOpen_of_listOfData {data : Data} {drafts : List PropertyDraft}
    (leaves : data.leavesIdsOpen = true) (checked : listOfData data = .valid drafts) :
    AllOpen drafts := by
  cases data with
  | list items =>
    intro draft member
    have passed := Checked.valid_mem_of_sequence checked member
    obtain ⟨item, here, checkedItem⟩ := List.mem_map.mp passed
    exact id_eq_none_of_ofData (List.all_eq_true.mp leaves item here) checkedItem
  | _ => cases checked

/-- Properties that are among the fields of a box are checked as a list of them. -/
theorem Data.allOpen_of_lookup {given : Data} {drafts : List PropertyDraft}
    (leaves : propertiesLeaveIdsOpen fields = true)
    (present : fields.lookup "properties".toText = some given)
    (checked : PropertyDraft.listOfData given = .valid drafts) : PropertyDraft.AllOpen drafts := by
  rw [propertiesLeaveIdsOpen, present] at leaves
  exact PropertyDraft.allOpen_of_listOfData leaves checked

theorem BoxEdit.allOpen_of_ofFields {edit : BoxEdit} {drafts : List PropertyDraft}
    (leaves : Data.propertiesLeaveIdsOpen fields = true)
    (checked : BoxEdit.ofFields fields = .valid edit) (lists : edit.fields = some drafts) :
    PropertyDraft.AllOpen drafts := by
  obtain ⟨_, position, upToComment, -, rfl⟩ := Checked.seq_eq_valid_iff.mp checked
  obtain ⟨_, comment, upToInner, -, rfl⟩ := Checked.seq_eq_valid_iff.mp upToComment
  obtain ⟨_, inner, upToUnion, -, rfl⟩ := Checked.seq_eq_valid_iff.mp upToInner
  obtain ⟨_, union, upToBases, -, rfl⟩ := Checked.seq_eq_valid_iff.mp upToUnion
  obtain ⟨_, bases, upToProperties, -, rfl⟩ := Checked.seq_eq_valid_iff.mp upToBases
  obtain ⟨_, listed, upToKind, hasProperties, rfl⟩ := Checked.seq_eq_valid_iff.mp upToProperties
  obtain ⟨_, kind, upToName, -, rfl⟩ := Checked.seq_eq_valid_iff.mp upToKind
  obtain ⟨name, -, rfl⟩ := Checked.map_eq_valid_iff.mp upToName
  obtain rfl : listed = some drafts := lists
  rcases Data.ifPresent_eq_valid hasProperties with ⟨given, found, present, valid, same⟩ | ⟨-, none⟩
  · obtain rfl := Option.some.inj same
    exact Data.allOpen_of_lookup leaves present valid
  · cases none

theorem Outline.allOpen_of_ofFields {draft : OutlineDraft}
    (leaves : Data.propertiesLeaveIdsOpen fields = true)
    (checked : Outline.ofFields fields = .valid draft) : PropertyDraft.AllOpen draft.fields := by
  obtain ⟨_, comment, upToInner, -, rfl⟩ := Checked.seq_eq_valid_iff.mp checked
  obtain ⟨_, inner, upToUnion, -, rfl⟩ := Checked.seq_eq_valid_iff.mp upToInner
  obtain ⟨_, union, upToBases, -, rfl⟩ := Checked.seq_eq_valid_iff.mp upToUnion
  obtain ⟨_, bases, upToProperties, -, rfl⟩ := Checked.seq_eq_valid_iff.mp upToBases
  obtain ⟨_, listed, upToKind, hasProperties, rfl⟩ := Checked.seq_eq_valid_iff.mp upToProperties
  obtain ⟨_, kind, upToName, -, rfl⟩ := Checked.seq_eq_valid_iff.mp upToKind
  obtain ⟨name, -, rfl⟩ := Checked.map_eq_valid_iff.mp upToName
  unfold Data.withDefault at hasProperties
  split at hasProperties
  · next given present =>
    exact Data.allOpen_of_lookup leaves present (Checked.within_eq_valid_iff.mp hasProperties)
  · cases hasProperties
    exact nofun

end Drafts

/-- The parts of input for a list of properties leave their ids open if the input does. -/
theorem Data.leavesIdOpen_of_mem_parts {given item : Data} {items : List Data}
    (leaves : given.leavesIdsOpen = true) (parts : given.parts? = some items)
    (member : item ∈ items) : item.leavesIdOpen = true := by
  cases given with
  | list all =>
    obtain rfl := Option.some.inj parts
    exact List.all_eq_true.mp leaves item member
  | text value =>
    obtain rfl := Option.some.inj parts
    obtain ⟨c, -, rfl⟩ := List.mem_map.mp member
    rfl
  | record fields =>
    obtain rfl := Option.some.inj parts
    obtain ⟨field, -, rfl⟩ := List.mem_map.mp member
    rfl
  | _ => cases parts

/-- Drafts without ids get the next ids, in order. -/
theorem PropertyDraft.map_id_settleAll (ids : IdSource) (issued : Nat)
    {drafts : List PropertyDraft} (allOpen : AllOpen drafts) :
    (settleAll ids issued drafts).1.map Property.id =
      (List.range' issued drafts.length).map ids := by
  induction drafts generalizing issued with
  | nil => rfl
  | cons draft rest ih =>
    obtain ⟨member, id⟩ := draft
    obtain rfl : id = none := allOpen _ List.mem_cons_self
    have later := ih (issued + 1) fun other here => allOpen other (List.mem_cons_of_mem _ here)
    simp only [settleAll, List.map_cons, List.length_cons, List.range'_succ, later]

theorem PropertyDraft.openIds_of_allOpen {drafts : List PropertyDraft} (allOpen : AllOpen drafts) :
    openIds drafts = drafts.length :=
  List.countP_eq_length.mpr fun draft member => Option.isNone_iff_eq_none.mpr (allOpen draft member)

namespace Session

section Drafting

variable {session : Session}

theorem eq_valid_of_accepted {α : Type} {outcome : Checked α} {value : α}
    (done : accepted outcome = .ok value) : outcome = .valid value := by
  cases outcome with
  | valid found => exact congrArg Checked.valid (Except.ok.inj done)
  | faulty issues => cases done

/-- The default properties of a new box have no ids either. -/
theorem allOpen_of_newFields [Data.Coercions] {properties : Data} {drafts : List PropertyDraft}
    (leaves : properties.leavesIdsOpen = true)
    (made : session.newFields properties = .ok drafts) : PropertyDraft.AllOpen drafts := by
  unfold newFields at made
  split at made
  · cases made
    intro draft member
    obtain ⟨default, -, rfl⟩ := List.mem_map.mp member
    rfl
  · split at made
    · next given items parts =>
      intro draft member
      obtain ⟨item, here, checked⟩ := exists_of_mem_mapM made member
      exact PropertyDraft.id_eq_none_of_ofData
        (Data.leavesIdOpen_of_mem_parts leaves parts here) (eq_valid_of_accepted checked)
    · cases made

theorem newFields_of_newBox [Data.Coercions] {name kind properties : Data} {draft : OutlineDraft}
    (made : session.newBox name kind properties = .ok draft) :
    session.newFields properties = .ok draft.fields := by
  obtain ⟨fields, hasFields, made⟩ := bind_eq_ok_iff.mp made
  obtain ⟨kind, -, made⟩ := bind_eq_ok_iff.mp made
  obtain ⟨name, -, made⟩ := bind_eq_ok_iff.mp made
  cases made
  exact hasFields

theorem allOpen_of_import (text : Text) :
    ∀ draft ∈ (Batch.read text).map (Outline.map Member.draft),
      PropertyDraft.AllOpen draft.fields := by
  intro draft member
  obtain ⟨declaration, -, rfl⟩ := List.mem_map.mp member
  intro field here
  obtain ⟨member, -, rfl⟩ := List.mem_map.mp here
  rfl

end Drafting

end Session

end SchemaBoard
