import Mathlib.Data.List.Forall2
import SchemaBoard.Proofs.Board.Lookup
import SchemaBoard.Proofs.Session.Invariant

set_option autoImplicit false

/-!
The frame of an edit. Main statement: an edit of a box changes that box alone, and in the box what
it names alone.
-/
namespace SchemaBoard

/-- What becomes of a field under a patch: it takes the value that is given under its name, checked,
and stays as it is if nothing is given there. -/
def Data.Sets {α : Type} (fields : Data.Fields) (name : Text) (check : Data → Checked α)
    (old new : α) : Prop :=
  match fields.lookup name with
  | some given => check given = .valid new
  | none => new = old

/-- A property after a patch. -/
structure Property.IsPatched [Data.Coercions] (fields : Data.Fields)
    (property changed : Property) : Prop where
  name : Data.Sets fields "name".toText Data.asText property.name changed.name
  type : Data.Sets fields "type".toText TypeExpr.ofDataOrName property.type changed.type
  optional : Data.Sets fields "optional".toText Data.Coercions.flag property.optional
    changed.optional
  readonly : Data.Sets fields "readonly".toText Data.Coercions.flag property.readonly
    changed.readonly
  comment : Data.Sets fields "comment".toText Data.asTextOrNull property.comment changed.comment
  id : changed.id = property.id

/-- A box after a patch, whatever has become of its times. -/
structure Box.IsPatched [Data.Coercions] (ids : IdSource) (issued : Nat) (fields : Data.Fields)
    (box changed : Box) : Prop where
  name : Data.Sets fields "name".toText Data.asText box.name changed.name
  kind : Data.Sets fields "kind".toText DeclarationKind.ofData box.kind changed.kind
  properties : Data.Sets fields "properties".toText
    (fun given => (fun drafts => (PropertyDraft.settleAll ids issued drafts).1) <$>
      PropertyDraft.listOfData given) box.fields changed.fields
  bases : Data.Sets fields "extends".toText Data.asTexts box.bases changed.bases
  unionTypes : Data.Sets fields "union_types".toText Data.asTexts box.unionTypes changed.unionTypes
  intersectionTypes : Data.Sets fields "intersection_types".toText Data.asTexts
    box.intersectionTypes changed.intersectionTypes
  comment : Data.Sets fields "comment".toText Data.asTextOrNull box.comment changed.comment
  position : Data.Sets fields "position".toText Position.ofData box.position changed.position

def BoxEdit.names : List Text :=
  ["name".toText, "kind".toText, "properties".toText, "extends".toText, "union_types".toText,
    "intersection_types".toText, "comment".toText, "position".toText]

namespace Command

def edits? : Command → Option Text
  | updateBox key _ | updatePosition key _ _ | addProperty key _ _ _ _ | updateProperty key _ _
  | removeProperty key _ => some key
  | _ => none

/-- What an edit does to its box, apart from the time of the last change, and what it answers. -/
def Effect [Data.Coercions] (ids : IdSource) (issued : Nat) (command : Command) (box changed : Box)
    (answer : Answer) : Prop :=
  match command with
  | updateBox _ patch =>
    ∃ fields, patch = .record fields ∧ box.IsPatched ids issued fields changed
  | updatePosition _ x y =>
    ∃ position, Position.ofFields [("x".toText, x), ("y".toText, y)] = .valid position ∧
      changed = { box with position := position, updatedAt := changed.updatedAt }
  | addProperty _ _ _ _ _ =>
    ∃ property, answer = .property (some property) ∧
      changed = { box with
        fields := box.fields ++ [property], updatedAt := changed.updatedAt }
  | updateProperty _ id patch =>
    ∃ fields properties, patch = .record fields ∧
      changed = { box with fields := properties, updatedAt := changed.updatedAt } ∧
      List.Forall₂ (fun old new => if old.id = id then old.IsPatched fields new else new = old)
        box.fields properties
  | removeProperty _ id =>
    changed = { box with
      fields := box.fields.filter fun property => property.id ≠ id
      updatedAt := changed.updatedAt }
  | _ => False

end Command

namespace Session

/-- Only the box under the key has changed, at the time `now`; its id and the time at which it was
made have not. -/
structure IsFramed (now : Int) (key : Text) (session next : Session) (box changed : Box) :
    Prop where
  before : session.board.get? key = some box
  after : next.board.get? key = some changed
  id : changed.id = box.id
  createdAt : changed.createdAt = box.createdAt
  updatedAt : changed.updatedAt = now
  others : ∀ other, other ≠ key → next.board.get? other = session.board.get? other
  keys : next.board.keys = session.board.keys
  order : next.board.order = session.board.order
  selection : next.selection = session.selection

end Session

section Patches

variable {fields : Data.Fields}

/-- A field that may be absent has a checked value, or it is absent. -/
theorem Data.ifPresent_eq_valid {α : Type} {name : Text} {check : Data → Checked α}
    {found : Option α} (checked : Data.ifPresent fields name check = .valid found) :
    (∃ given value, fields.lookup name = some given ∧ check given = .valid value ∧
      found = some value) ∨ (fields.lookup name = none ∧ found = none) := by
  unfold Data.ifPresent Data.withDefault at checked
  split at checked
  · next given present =>
    rw [Checked.within_eq_valid_iff, Checked.map_eq_valid_iff] at checked
    obtain ⟨value, valid, rfl⟩ := checked
    exact Or.inl ⟨given, value, present, valid, rfl⟩
  · next absent =>
    cases checked
    exact Or.inr ⟨absent, rfl⟩

theorem Data.sets_getD {α : Type} {name : Text} {check : Data → Checked α} {found : Option α}
    (checked : Data.ifPresent fields name check = .valid found) (old : α) :
    Data.Sets fields name check old (found.getD old) := by
  unfold Data.Sets
  rcases Data.ifPresent_eq_valid checked with ⟨given, value, present, valid, rfl⟩ | ⟨absent, rfl⟩
  · rw [present]
    exact valid
  · rw [absent]
    rfl

theorem Data.ifPresent_filter {α : Type} {name : Text} {names : List Text}
    (listed : names.contains name = true) (fields : Data.Fields) (check : Data → Checked α) :
    Data.ifPresent (fields.filter fun field => names.contains field.1) name check =
      Data.ifPresent fields name check := by
  have same := Board.lookup_filter_fst names.contains name fields
  rw [listed, if_pos rfl] at same
  unfold Data.ifPresent Data.withDefault
  rw [same]

variable [Data.Coercions]

theorem PropertyEdit.isPatched_apply {edit : PropertyEdit}
    (checked : PropertyEdit.ofFields fields = .valid edit) (property : Property) :
    property.IsPatched fields (edit.apply property) := by
  obtain ⟨_, comment, upToReadonly, hasComment, rfl⟩ := Checked.seq_eq_valid_iff.mp checked
  obtain ⟨_, readonly, upToOptional, hasReadonly, rfl⟩ := Checked.seq_eq_valid_iff.mp upToReadonly
  obtain ⟨_, optional, upToType, hasOptional, rfl⟩ := Checked.seq_eq_valid_iff.mp upToOptional
  obtain ⟨_, type, upToName, hasType, rfl⟩ := Checked.seq_eq_valid_iff.mp upToType
  obtain ⟨name, hasName, rfl⟩ := Checked.map_eq_valid_iff.mp upToName
  exact
    { name := Data.sets_getD hasName _
      type := Data.sets_getD hasType _
      optional := Data.sets_getD hasOptional _
      readonly := Data.sets_getD hasReadonly _
      comment := Data.sets_getD hasComment _
      id := rfl }

/-- The properties of a patch are settled before they take the place of the old ones. -/
theorem Data.sets_settled {name : Text} {drafts : Option (List PropertyDraft)}
    (checked : Data.ifPresent fields name PropertyDraft.listOfData = .valid drafts)
    (ids : IdSource) (issued : Nat) (old : List Property) :
    Data.Sets fields name
      (fun given => (fun drafts => (PropertyDraft.settleAll ids issued drafts).1) <$>
        PropertyDraft.listOfData given) old
      ((drafts.map fun drafts => (PropertyDraft.settleAll ids issued drafts).1).getD old) := by
  unfold Data.Sets
  rcases Data.ifPresent_eq_valid checked with ⟨given, value, present, valid, rfl⟩ | ⟨absent, rfl⟩
  · rw [present]
    exact Checked.map_eq_valid_iff.mpr ⟨value, valid, rfl⟩
  · rw [absent]
    rfl

theorem BoxEdit.isPatched_apply {edit : BoxEdit} (checked : BoxEdit.ofFields fields = .valid edit)
    (ids : IdSource) (issued : Nat) (box : Box) :
    box.IsPatched ids issued fields (edit.apply ids issued box).1 := by
  obtain ⟨_, position, upToComment, hasPosition, rfl⟩ := Checked.seq_eq_valid_iff.mp checked
  obtain ⟨_, comment, upToMembers, hasComment, rfl⟩ := Checked.seq_eq_valid_iff.mp upToComment
  obtain ⟨_, inner, upToUnion, hasInner, rfl⟩ := Checked.seq_eq_valid_iff.mp upToMembers
  obtain ⟨_, union, upToBases, hasUnion, rfl⟩ := Checked.seq_eq_valid_iff.mp upToUnion
  obtain ⟨_, bases, upToProperties, hasBases, rfl⟩ := Checked.seq_eq_valid_iff.mp upToBases
  obtain ⟨_, drafts, upToKind, hasDrafts, rfl⟩ := Checked.seq_eq_valid_iff.mp upToProperties
  obtain ⟨_, kind, upToName, hasKind, rfl⟩ := Checked.seq_eq_valid_iff.mp upToKind
  obtain ⟨name, hasName, rfl⟩ := Checked.map_eq_valid_iff.mp upToName
  constructor
  · exact Data.sets_getD hasName _
  · exact Data.sets_getD hasKind _
  · have settled := Data.sets_settled hasDrafts ids issued box.fields
    cases drafts with
    | none => exact settled
    | some drafts => exact settled
  · exact Data.sets_getD hasBases _
  · exact Data.sets_getD hasUnion _
  · exact Data.sets_getD hasInner _
  · exact Data.sets_getD hasComment _
  · exact Data.sets_getD hasPosition _

theorem Box.IsPatched.withTime {ids : IdSource} {issued : Nat} {box changed : Box}
    (patched : box.IsPatched ids issued fields changed) (now : Int) :
    box.IsPatched ids issued fields { changed with updatedAt := now } :=
  ⟨patched.name, patched.kind, patched.properties, patched.bases, patched.unionTypes,
    patched.intersectionTypes, patched.comment, patched.position⟩

/-- A patch of a box is read under the names of its fields alone. -/
theorem BoxEdit.ofFields_filter (fields : Data.Fields) :
    BoxEdit.ofFields (fields.filter fun field => BoxEdit.names.contains field.1) =
      BoxEdit.ofFields fields := by
  simp (disch := decide) only [BoxEdit.ofFields, Data.ifPresent_filter]

end Patches

namespace Session

section Frames

variable {ids : IdSource} {clock : Clock} {session next : Session} {key : Text} {box changed : Box}

theorem isFramed_of_replace (found : session.board.get? key = some box)
    (board : next.board = session.board.replace (clock.reading 1) key
      { changed with updatedAt := clock.reading 0 })
    (selection : next.selection = session.selection) (id : changed.id = box.id)
    (createdAt : changed.createdAt = box.createdAt) :
    IsFramed (clock.reading 0) key session next box
      { changed with updatedAt := clock.reading 0 } where
  before := found
  after := by
    rw [board, Board.get?_replace, if_pos rfl]
  id := id
  createdAt := createdAt
  updatedAt := rfl
  others := by
    intro other apart
    rw [board, Board.get?_replace, if_neg apart]
  keys := by
    rw [board]
    exact Board.keys_replace _ (Board.mem_keys_of_get? found)
  order := by
    rw [board]
    rfl
  selection := selection

theorem exists_settleAll_singleton (ids : IdSource) (issued : Nat) (draft : PropertyDraft) :
    ∃ property, (PropertyDraft.settleAll ids issued [draft]).1 = [property] := by
  simp only [PropertyDraft.settleAll]
  split
  · exact ⟨_, rfl⟩
  · exact ⟨_, rfl⟩

variable [Data.Coercions]

/-- The properties with the id are patched in their places, and all others stay. -/
theorem forall₂_patched {fields : Data.Fields} {edit : PropertyEdit}
    (checked : PropertyEdit.ofFields fields = .valid edit) (id : Text)
    (properties : List Property) :
    List.Forall₂ (fun old new => if old.id = id then old.IsPatched fields new else new = old)
      properties
      (properties.map fun property => if property.id = id then edit.apply property else property)
    := by
  rw [List.forall₂_map_right_iff, List.forall₂_same]
  intro property _
  by_cases same : property.id = id
  · rw [if_pos same, if_pos same]
    exact PropertyEdit.isPatched_apply checked property
  · rw [if_neg same, if_neg same]

theorem Change.isFramed {command : Command} {answer : Answer}
    (change : Change ids clock session command next answer) (edits : command.edits? = some key) :
    ∃ box changed, IsFramed (clock.reading 0) key session next box changed ∧
      command.Effect ids session.issued box changed answer := by
  cases change with
  | boxAdded | declarationInserted | sourceImported | boxRemoved | boxesRemoved | selected
  | focused => cases edits
  | @boxUpdated _ box fields edit found checked =>
    obtain rfl := Option.some.inj edits
    have patched := BoxEdit.isPatched_apply checked ids session.issued box
    refine ⟨box, _, isFramed_of_replace found rfl rfl ?_ ?_, fields, rfl, patched.withTime _⟩
    · exact BoxEdit.apply_id ids session.issued edit box
    · rfl
  | @boxMoved _ box x y position found checked =>
    obtain rfl := Option.some.inj edits
    exact ⟨box, _, isFramed_of_replace found rfl rfl rfl rfl, position, checked, rfl⟩
  | @propertyAdded _ box fields draft name type optional readonly found checked =>
    obtain rfl := Option.some.inj edits
    obtain ⟨property, single⟩ := exists_settleAll_singleton ids session.issued draft
    refine ⟨box, _, isFramed_of_replace found rfl rfl rfl rfl, property, ?_, ?_⟩
    · simp only [addProperty, single, List.head?_cons]
    · exact congrArg (fun added =>
        { box with fields := box.fields ++ added, updatedAt := clock.reading 0 }) single
  | @propertyUpdated _ id box fields edit found has checked =>
    obtain rfl := Option.some.inj edits
    exact ⟨box, _, isFramed_of_replace found rfl rfl rfl rfl, fields, _, rfl, rfl,
      forall₂_patched checked id box.fields⟩
  | @propertyRemoved _ id box found has =>
    obtain rfl := Option.some.inj edits
    exact ⟨box, _, isFramed_of_replace found rfl rfl rfl rfl, rfl⟩

theorem perform_isFramed {command : Command} (edits : command.edits? = some key)
    (known : command.misses session.board = false)
    (done : (session.perform ids clock command).2.isOk = true) :
    ∃ box changed answer, (session.perform ids clock command).2 = .ok answer ∧
      IsFramed (clock.reading 0) key session (session.perform ids clock command).1 box changed ∧
      command.Effect ids session.issued box changed answer := by
  have outcome := outcome_perform ids clock command session
  generalize session.perform ids clock command = result at done outcome ⊢
  obtain ⟨next, answer⟩ := result
  cases outcome with
  | refused => cases done
  | missed missing =>
    rw [known] at missing
    cases missing
  | told asks =>
    have acts : command.asks = false := by
      cases command <;> first | rfl | cases edits
    rw [acts] at asks
    cases asks
  | changed change =>
    obtain ⟨box, changed, framed, effect⟩ := change.isFramed edits
    exact ⟨box, changed, _, rfl, framed, effect⟩

/-- An edit that is done changes its box alone, and the box where it says so. A patch is read under
the names of the fields of a box; without any of them it changes nothing but the time of the last
change. -/
theorem edit_isFramed (ids : IdSource) (clock : Clock) (session : Session) (key : Text) :
    (∀ command : Command, command.edits? = some key → command.misses session.board = false →
      (session.perform ids clock command).2.isOk = true →
      ∃ box changed answer, (session.perform ids clock command).2 = .ok answer ∧
        IsFramed (clock.reading 0) key session (session.perform ids clock command).1 box changed ∧
        command.Effect ids session.issued box changed answer) ∧
    (∀ fields : Data.Fields,
      session.perform ids clock (.updateBox key
          (.record (fields.filter fun field => BoxEdit.names.contains field.1))) =
        session.perform ids clock (.updateBox key (.record fields))) ∧
    (∀ box, session.board.get? key = some box →
      (session.perform ids clock (.updateBox key (.record []))).2 = .ok .done ∧
      (session.perform ids clock (.updateBox key (.record []))).1.board.get? key =
        some { box with updatedAt := clock.reading 0 }) := by
  refine ⟨fun command edits known done => perform_isFramed edits known done, fun fields => ?_,
    fun box found => ?_⟩
  · simp only [perform, performUpdateBox, BoxEdit.ofFields_filter]
  · have plain : BoxEdit.ofFields [] = .valid {} := rfl
    simp only [perform, performUpdateBox, found, plain, BoxEdit.apply_empty]
    refine ⟨trivial, ?_⟩
    exact (Board.get?_replace _ key key _ session.board).trans (if_pos rfl)

end Frames

/-- A patch that names a new id and a time besides the name and the properties of its box, which are
listed without the second one. -/
theorem edit_isFramed_relisted :
    let reached := run growingIds
      [(1, .addBox .null .null .null), (2, .addBox .null .null .null)] (new {} 0)
    let command := Command.updateBox "_00".toText (.record
      [("id".toText, .text "other".toText), ("created_at".toText, .integer 0),
       ("name".toText, .text "User".toText),
       ("properties".toText, .list [.record
         [("id".toText, .text "_".toText), ("name".toText, .text "email".toText),
          ("type".toText, .text "string".toText)]])])
    command.misses reached.board = false ∧
      (reached.perform growingIds 3 command).2.isOk = true ∧
      ∃ box changed answer, (reached.perform growingIds 3 command).2 = .ok answer ∧
        IsFramed 3 "_00".toText reached (reached.perform growingIds 3 command).1 box changed ∧
        command.Effect growingIds reached.issued box changed answer := by
  intro reached command
  have known : command.misses reached.board = false := by decide +kernel
  have done : (reached.perform growingIds 3 command).2.isOk = true := by decide +kernel
  exact ⟨known, done, (edit_isFramed growingIds 3 reached "_00".toText).1 command rfl known done⟩

end Session

end SchemaBoard
