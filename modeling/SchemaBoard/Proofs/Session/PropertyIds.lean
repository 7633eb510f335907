import Mathlib.Data.List.Flatten
import Mathlib.Data.List.Nodup
import SchemaBoard.Proofs.Session.Focus
import SchemaBoard.Proofs.Session.OpenIds
import SchemaBoard.Proofs.Session.Version

set_option autoImplicit false

/-!
The ids of properties. Where no property brings an id along, every property on the board has an id
that was issued for it. Main statement: in such a run no two properties ever have the same id, and
an id that has left the board does not come back.
-/
namespace SchemaBoard

/-- The id whose properties the command changes or takes out of a box. -/
def Command.property? : Command → Option Text
  | updateProperty _ id _ | removeProperty _ id => some id
  | _ => none

def Board.properties (board : Board) : List Property :=
  board.boxes.flatMap fun entry => entry.2.fields

/-- Properties after a change that concerns those of an id: at most one of them has become another
one of that id, or has gone. -/
inductive Property.AtMostOneChanged (id : Text) : List Property → List Property → Prop
  | none (all : List Property) : AtMostOneChanged id all all
  | replaced (front : List Property) {property changed : Property} (back : List Property)
      (own : property.id = id) (kept : changed.id = id) :
    AtMostOneChanged id (front ++ property :: back) (front ++ changed :: back)
  | removed (front : List Property) {property : Property} (back : List Property)
      (own : property.id = id) :
    AtMostOneChanged id (front ++ property :: back) (front ++ back)

namespace Session

/-- The properties on the board have ids of their own, all of which were issued. -/
structure HasIssuedIds (ids : IdSource) (session : Session) : Prop where
  nodup : session.board.propertyIds.Nodup
  issued : ∀ id ∈ session.board.propertyIds, ∃ number < session.issued, id = ids number

/-- Of one stretch of the property ids some stay, and behind those stand ids that have been issued
meanwhile. -/
def Reissues (ids : IdSource) (session next : Session) : Prop :=
  ∃ (front old kept back : List Text) (count : Nat),
    session.board.propertyIds = front ++ (old ++ back) ∧ kept.Sublist old ∧
    next.board.propertyIds =
      front ++ (kept ++ ((List.range' session.issued count).map ids ++ back)) ∧
    session.issued + count ≤ next.issued

/-- Property ids that are on the board later and were not there before were issued meanwhile. -/
structure JoinsIssued (ids : IdSource) (session next : Session) : Prop where
  grows : session.issued ≤ next.issued
  joined : ∀ id ∈ next.board.propertyIds, id ∈ session.board.propertyIds ∨
    ∃ number, session.issued ≤ number ∧ number < next.issued ∧ id = ids number

end Session

namespace Board

section Changes

variable {board : Board} {key : Text} {box : Box}

/-- A box under a fresh key brings its properties along, behind the others. -/
theorem propertyIds_insert (now : Int) (fresh : box.id ∉ board.keys) :
    (board.insert now box).propertyIds = board.propertyIds ++ box.fields.map Property.id := by
  have placed : (board.insert now box).boxes = board.boxes ++ [(box.id, box)] :=
    put_of_not_mem fresh
  rw [propertyIds, placed, List.flatMap_append, List.flatMap_singleton]
  rfl

/-- The properties of a box stand between those of others, and those of another box are put
there. -/
theorem exists_properties_replace (found : board.get? key = some box) :
    ∃ front back, board.properties = front ++ (box.fields ++ back) ∧
      ∀ now changed, (board.replace now key changed).properties =
        front ++ (changed.fields ++ back) := by
  obtain ⟨front, back, whole, placed⟩ := exists_put_of_lookup found
  refine ⟨front.flatMap fun entry => entry.2.fields, back.flatMap fun entry => entry.2.fields, ?_,
    fun now changed => ?_⟩
  · rw [properties, whole, List.flatMap_append, List.flatMap_cons]
  · have boxes : (board.replace now key changed).boxes = front ++ (key, changed) :: back :=
      placed changed
    rw [properties, boxes, List.flatMap_append, List.flatMap_cons]

theorem propertyIds_eq_map (board : Board) : board.propertyIds = board.properties.map Property.id :=
  List.map_flatMap.symm

theorem propertyIds_removeAll_sublist (now : Int) (doomed : List Text) (board : Board) :
    (board.removeAll now doomed).propertyIds.Sublist board.propertyIds :=
  List.Sublist.flatMap List.filter_sublist fun entry : Text × Box => entry.2.fields.map Property.id

end Changes

end Board

namespace Session

section Steps

variable {ids : IdSource} {session next : Session}

theorem HasIssuedIds.new (ids : IdSource) (settings : Settings) (start : Int) :
    HasIssuedIds ids (Session.new settings start) where
  nodup := List.nodup_nil
  issued := nofun

theorem JoinsIssued.refl (ids : IdSource) (session : Session) :
    JoinsIssued ids session session where
  grows := Nat.le_refl _
  joined := fun _ here => Or.inl here

theorem JoinsIssued.trans {last : Session} (first : JoinsIssued ids session next)
    (second : JoinsIssued ids next last) : JoinsIssued ids session last where
  grows := Nat.le_trans first.grows second.grows
  joined := by
    intro id here
    rcases second.joined id here with before | ⟨number, later, less, eq⟩
    · rcases first.joined id before with known | ⟨number, later, less, eq⟩
      · exact Or.inl known
      · exact Or.inr ⟨number, later, Nat.lt_of_lt_of_le less second.grows, eq⟩
    · exact Or.inr ⟨number, Nat.le_trans first.grows later, less, eq⟩

theorem Reissues.joinsIssued (step : Reissues ids session next) : JoinsIssued ids session next := by
  obtain ⟨front, old, kept, back, count, before, stays, after, grows⟩ := step
  refine ⟨Nat.le_trans (Nat.le_add_right _ _) grows, fun id here => ?_⟩
  rw [after, List.mem_append, List.mem_append, List.mem_append, List.mem_map] at here
  rw [before, List.mem_append, List.mem_append]
  rcases here with left | same | ⟨number, between, rfl⟩ | right
  · exact Or.inl (Or.inl left)
  · exact Or.inl (Or.inr (Or.inl (stays.subset same)))
  · obtain ⟨later, less⟩ := List.mem_range'_1.mp between
    exact Or.inr ⟨number, later, Nat.lt_of_lt_of_le less grows, rfl⟩
  · exact Or.inl (Or.inr (Or.inr right))

/-- What joins was issued later than everything that is there, so nothing is there twice. -/
theorem HasIssuedIds.of_reissues (known : HasIssuedIds ids session)
    (distinct : Function.Injective ids) (step : Reissues ids session next) :
    HasIssuedIds ids next := by
  have joins := step.joinsIssued
  obtain ⟨front, old, kept, back, count, before, stays, after, grows⟩ := step
  constructor
  · have rest : (front ++ (kept ++ back)).Sublist session.board.propertyIds := by
      rw [before]
      exact (List.Sublist.refl front).append (stays.append (List.Sublist.refl back))
    have fresh : ((List.range' session.issued count).map ids).Nodup :=
      List.Nodup.map distinct (List.nodup_range' 1)
    -- The new ids may be taken to stand in front of all others.
    have moved : (front ++ (kept ++ ((List.range' session.issued count).map ids ++ back))).Perm
        ((List.range' session.issued count).map ids ++ (front ++ (kept ++ back))) :=
      ((List.perm_append_comm_assoc _ _ _).append_left front).trans
        (List.perm_append_comm_assoc _ _ _)
    rw [after, moved.nodup_iff, List.nodup_append]
    refine ⟨fresh, known.nodup.sublist rest, ?_⟩
    intro new joined other here
    rintro rfl
    obtain ⟨number, between, rfl⟩ := List.mem_map.mp joined
    have later := (List.mem_range'_1.mp between).1
    exact not_mem_of_issued distinct known.issued later (rest.subset here)
  · intro id here
    rcases joins.joined id here with old | ⟨number, -, less, eq⟩
    · obtain ⟨number, less, eq⟩ := known.issued id old
      exact ⟨number, Nat.lt_of_lt_of_le less joins.grows, eq⟩
    · exact ⟨number, less, eq⟩

/-- An id that is missing once after it was there is missing from then on. -/
theorem JoinsIssued.not_mem {last : Session} {id : Text} (known : HasIssuedIds ids session)
    (distinct : Function.Injective ids) (here : id ∈ session.board.propertyIds)
    (first : JoinsIssued ids session next) (gone : id ∉ next.board.propertyIds)
    (second : JoinsIssued ids next last) : id ∉ last.board.propertyIds := by
  intro back
  rcases second.joined id back with there | ⟨number, later, -, rfl⟩
  · exact gone there
  · exact not_mem_of_issued distinct known.issued (Nat.le_trans first.grows later) here

end Steps

section Changes

variable {ids : IdSource} {session next : Session} {key : Text} {box changed : Box}

theorem reissues_of_sublist
    (fewer : next.board.propertyIds.Sublist session.board.propertyIds)
    (grows : session.issued ≤ next.issued) : Reissues ids session next :=
  ⟨[], session.board.propertyIds, next.board.propertyIds, [], 0, (List.append_nil _).symm, fewer,
    (List.append_nil _).symm, grows⟩

theorem reissues_of_board (same : next.board = session.board)
    (grows : session.issued ≤ next.issued) : Reissues ids session next :=
  reissues_of_sublist (same ▸ List.Sublist.refl _) grows

theorem reissues_of_replace (count : Nat) (found : session.board.get? key = some box)
    {now : Int} (board : next.board = session.board.replace now key changed) {kept : List Text}
    (stays : kept.Sublist (box.fields.map Property.id))
    (fields : changed.fields.map Property.id =
      kept ++ (List.range' session.issued count).map ids)
    (grows : session.issued + count ≤ next.issued) : Reissues ids session next := by
  obtain ⟨front, back, whole, placed⟩ := Board.exists_properties_replace found
  refine ⟨front.map Property.id, box.fields.map Property.id, kept, back.map Property.id, count,
    ?_, stays, ?_, grows⟩
  · simp only [Board.propertyIds_eq_map, whole, List.map_append]
  · simp only [board, Board.propertyIds_eq_map, placed, List.map_append, fields, List.append_assoc]

theorem reissues_insertDeclaration (sound : IsSound ids session)
    (distinct : Function.Injective ids) (clock : Clock) {draft : OutlineDraft}
    (allOpen : PropertyDraft.AllOpen draft.fields) :
    Reissues ids session (session.insertDeclaration ids clock draft).1 := by
  obtain ⟨number, later, own, -⟩ :=
    draft.settle_dated ids clock (clock.reading 2) session.issued
  have fresh := own ▸ sound.not_mem_keys distinct later
  have used : (session.insertDeclaration ids clock draft).1.issued =
      session.issued + draft.fields.length + 1 := by
    rw [← PropertyDraft.openIds_of_allOpen allOpen,
      ← PropertyDraft.settleAll_issued ids session.issued draft.fields]
    rfl
  refine ⟨session.board.propertyIds, [], [], [], draft.fields.length, (List.append_nil _).symm,
    List.Sublist.refl _, ?_, by omega⟩
  rw [List.append_nil, List.nil_append, ← PropertyDraft.map_id_settleAll ids session.issued allOpen]
  exact Board.propertyIds_insert _ fresh

theorem reissues_removeBoxes (ids : IdSource) (clock : Clock) (keys : List Text)
    (session : Session) : Reissues ids session (session.removeBoxes clock keys) := by
  unfold removeBoxes
  dsimp only
  split
  · exact reissues_of_board rfl (Nat.le_refl _)
  · exact reissues_of_sublist (Board.propertyIds_removeAll_sublist _ _ _) (Nat.le_refl _)

theorem reissues_updateBox (found : session.board.get? key = some box) (clock : Clock)
    {edit : BoxEdit}
    (allOpen : ∀ drafts, edit.fields = some drafts → PropertyDraft.AllOpen drafts) :
    Reissues ids session
      { session.replaceBox clock key (edit.apply ids session.issued box).1 with
        issued := (edit.apply ids session.issued box).2 } := by
  have grows := BoxEdit.apply_issued ids session.issued edit box
  unfold BoxEdit.openIds at grows
  cases lists : edit.fields with
  | none =>
    have same : (edit.apply ids session.issued box).1.fields = box.fields := by
      simp only [BoxEdit.apply, lists]
    refine reissues_of_replace 0 found rfl (List.Sublist.refl _) ?_ ?_
    · exact (congrArg (List.map Property.id) same).trans (List.append_nil _).symm
    · exact Nat.le.intro grows.symm
  | some drafts =>
    have settled : (edit.apply ids session.issued box).1.fields =
        (PropertyDraft.settleAll ids session.issued drafts).1 := by
      simp only [BoxEdit.apply, lists]
    have ids := PropertyDraft.map_id_settleAll ids session.issued (allOpen drafts lists)
    rw [lists, Option.map_some, Option.getD_some,
      PropertyDraft.openIds_of_allOpen (allOpen drafts lists)] at grows
    refine reissues_of_replace drafts.length found rfl (List.nil_sublist _) ?_
      (Nat.le_of_eq grows.symm)
    exact (congrArg (List.map Property.id) settled).trans ids

theorem reissues_addProperty (found : session.board.get? key = some box) (clock : Clock)
    {draft : PropertyDraft} (isOpen : draft.id = none) :
    Reissues ids session (session.addProperty ids clock key box draft).1 := by
  have allOpen : PropertyDraft.AllOpen [draft] := by
    intro other member
    rw [List.mem_singleton.mp member]
    exact isOpen
  have added := PropertyDraft.map_id_settleAll ids session.issued allOpen
  have used := PropertyDraft.settleAll_issued ids session.issued [draft]
  rw [PropertyDraft.openIds_of_allOpen allOpen] at used
  refine reissues_of_replace 1 found rfl (List.Sublist.refl _) ?_ (Nat.le_of_eq used.symm)
  exact List.map_append.trans (congrArg _ added)

theorem reissues_updateProperty (found : session.board.get? key = some box) (clock : Clock)
    (id : Text) (edit : PropertyEdit) :
    Reissues ids session (session.replaceBox clock key { box with
      fields := box.fields.map fun property =>
        if property.id = id then edit.apply property else property }) := by
  refine reissues_of_replace 0 found rfl (List.Sublist.refl _) ?_ (Nat.le_refl _)
  have same : ∀ property ∈ box.fields,
      (if property.id = id then edit.apply property else property).id = property.id := by
    intro property _
    split
    · exact PropertyEdit.apply_id edit property
    · rfl
  exact List.map_map.trans ((List.map_congr_left same).trans (List.append_nil _).symm)

theorem reissues_removeProperty (found : session.board.get? key = some box) (clock : Clock)
    (id : Text) : Reissues ids session (session.removeProperty clock key box id) := by
  have fewer : (box.fields.filter fun property => property.id ≠ id).Sublist box.fields :=
    List.filter_sublist
  exact reissues_of_replace 0 found rfl (fewer.map Property.id)
    (List.append_nil _).symm (Nat.le_refl _)

end Changes

section Runs

variable {ids : IdSource} {clock : Clock} {session next : Session} {command : Command}

theorem HasIssuedIds.insertAll (known : HasIssuedIds ids session) (sound : IsSound ids session)
    (distinct : Function.Injective ids) (clock : Clock) {drafts : List OutlineDraft}
    (allOpen : ∀ draft ∈ drafts, PropertyDraft.AllOpen draft.fields) :
    HasIssuedIds ids (session.insertAll ids clock drafts).1 ∧
      JoinsIssued ids session (session.insertAll ids clock drafts).1 := by
  induction drafts generalizing clock session with
  | nil => exact ⟨known, JoinsIssued.refl ids session⟩
  | cons draft rest ih =>
    have step := reissues_insertDeclaration sound distinct clock (allOpen draft List.mem_cons_self)
    have later := ih (known.of_reissues distinct step)
      (sound.insertDeclaration distinct clock draft).1 (clock.after 3)
      fun other member => allOpen other (List.mem_cons_of_mem _ member)
    exact ⟨later.1, step.joinsIssued.trans later.2⟩

variable [Data.Coercions]

theorem Change.hasIssuedIds {answer : Answer}
    (change : Change ids clock session command next answer) (known : HasIssuedIds ids session)
    (sound : IsSound ids session) (distinct : Function.Injective ids)
    (leaves : command.leavesIdsOpen = true) :
    HasIssuedIds ids next ∧ JoinsIssued ids session next := by
  have step (reissues : Reissues ids session next) :
      HasIssuedIds ids next ∧ JoinsIssued ids session next :=
    ⟨known.of_reissues distinct reissues, reissues.joinsIssued⟩
  cases change with
  | boxAdded made =>
    exact step (reissues_insertDeclaration sound distinct clock
      (allOpen_of_newFields leaves (newFields_of_newBox made)))
  | @declarationInserted declaration draft checked =>
    cases declaration with
    | record fields =>
      exact step (reissues_insertDeclaration sound distinct clock
        (Outline.allOpen_of_ofFields leaves checked))
    | _ => cases checked
  | @sourceImported text drafts notes read =>
    exact known.insertAll sound distinct clock (read ▸ allOpen_of_import text)
  | boxUpdated found checked =>
    exact step (reissues_updateBox found clock fun drafts lists =>
      BoxEdit.allOpen_of_ofFields leaves checked lists)
  | boxMoved found =>
    exact step (reissues_of_replace 0 found rfl (List.Sublist.refl _)
      (List.append_nil _).symm (Nat.le_refl _))
  | boxRemoved | boxesRemoved => exact step (reissues_removeBoxes ids clock _ session)
  | propertyAdded _ _ _ _ found checked =>
    exact step (reissues_addProperty found clock
      (PropertyDraft.id_eq_none_of_ofFields rfl checked))
  | propertyUpdated found => exact step (reissues_updateProperty found clock _ _)
  | propertyRemoved found => exact step (reissues_removeProperty found clock _)
  | selected additive =>
    exact step (reissues_of_board (board_select _ additive session)
      (Nat.le_of_eq (issued_select _ additive session).symm))
  | focused => exact step (reissues_of_board rfl (Nat.le_refl _))

theorem HasIssuedIds.perform (known : HasIssuedIds ids session) (sound : IsSound ids session)
    (distinct : Function.Injective ids) (clock : Clock) (leaves : command.leavesIdsOpen = true) :
    HasIssuedIds ids (session.perform ids clock command).1 ∧
      JoinsIssued ids session (session.perform ids clock command).1 := by
  rcases perform_eq_self_or_change ids clock command session with same | ⟨answer, change⟩
  · rw [same]
    exact ⟨known, JoinsIssued.refl ids _⟩
  · exact change.hasIssuedIds known sound distinct leaves

theorem HasIssuedIds.run (known : HasIssuedIds ids session) (sound : IsSound ids session)
    (distinct : Function.Injective ids) {steps : List (Clock × Command)}
    (leaves : ∀ step ∈ steps, step.2.leavesIdsOpen = true) :
    HasIssuedIds ids (Session.run ids steps session) ∧
      JoinsIssued ids session (Session.run ids steps session) := by
  induction steps generalizing session with
  | nil => exact ⟨known, JoinsIssued.refl ids session⟩
  | cons step rest ih =>
    have here := known.perform sound distinct step.1 (leaves step List.mem_cons_self)
    have later := ih here.1 (sound.perform distinct step.1 step.2)
      fun other member => leaves other (List.mem_cons_of_mem _ member)
    exact ⟨later.1, here.2.trans later.2⟩

end Runs

end Session

section Single

variable {id : Text}

/-- What stands around does not matter. -/
theorem Property.AtMostOneChanged.surround {old new : List Property}
    (changed : AtMostOneChanged id old new) (front back : List Property) :
    AtMostOneChanged id (front ++ (old ++ back)) (front ++ (new ++ back)) := by
  cases changed with
  | none => exact .none _
  | replaced before after own kept =>
    have whole := replaced (front ++ before) (after ++ back) own kept
    simpa only [List.append_assoc, List.cons_append] using whole
  | removed before after own =>
    have whole := removed (front ++ before) (after ++ back) own
    simpa only [List.append_assoc, List.cons_append] using whole

/-- Where ids are distinct, one property alone has the id. -/
theorem Box.exists_only_property {box : Box} (nodup : (box.fields.map Property.id).Nodup)
    (has : box.hasProperty id = true) :
    ∃ front property back, box.fields = front ++ property :: back ∧ property.id = id ∧
      (∀ other ∈ front, other.id ≠ id) ∧ ∀ other ∈ back, other.id ≠ id := by
  obtain ⟨property, here, rfl⟩ := Board.hasProperty_iff.mp has
  obtain ⟨front, back, whole⟩ := List.append_of_mem here
  rw [whole, List.map_append, List.map_cons, List.nodup_middle] at nodup
  have absent := (List.nodup_cons.mp nodup).1
  refine ⟨front, property, back, whole, rfl, fun other before same => ?_,
    fun other behind same => ?_⟩
  · exact absent (List.mem_append_left _ (same ▸ List.mem_map_of_mem before))
  · exact absent (List.mem_append_right _ (same ▸ List.mem_map_of_mem behind))

theorem Box.atMostOneChanged_update {box : Box} (nodup : (box.fields.map Property.id).Nodup)
    (has : box.hasProperty id = true) (edit : PropertyEdit) :
    Property.AtMostOneChanged id box.fields (box.fields.map fun property =>
      if property.id = id then edit.apply property else property) := by
  obtain ⟨front, property, back, whole, own, before, behind⟩ := exists_only_property nodup has
  have same {others : List Property} (apart : ∀ other ∈ others, other.id ≠ id) :
      (others.map fun property => if property.id = id then edit.apply property else property) =
        others :=
    (List.map_congr_left fun other here => if_neg (apart other here)).trans (List.map_id _)
  rw [whole, List.map_append, List.map_cons, same before, same behind, if_pos own]
  exact .replaced front back own own

theorem Box.atMostOneChanged_remove {box : Box} (nodup : (box.fields.map Property.id).Nodup)
    (has : box.hasProperty id = true) :
    Property.AtMostOneChanged id box.fields
      (box.fields.filter fun property => property.id ≠ id) := by
  obtain ⟨front, property, back, whole, own, before, behind⟩ := exists_only_property nodup has
  have same {others : List Property} (apart : ∀ other ∈ others, other.id ≠ id) :
      (others.filter fun property => property.id ≠ id) = others :=
    List.filter_eq_self.mpr fun other here => decide_eq_true (apart other here)
  have gone : ¬(decide (property.id ≠ id)) = true := by simpa using own
  rw [whole, List.filter_append, List.filter_cons, if_neg gone, same before, same behind]
  exact .removed front back own

end Single

namespace Session

section Effects

variable {ids : IdSource} {clock : Clock} {session next : Session} {command : Command} {id : Text}

/-- Replacing the properties of one box is all that becomes of the properties of the board. -/
theorem atMostOneChanged_replace {key : Text} {box changed : Box}
    (found : session.board.get? key = some box) (now : Int)
    (single : (box.fields.map Property.id).Nodup →
      Property.AtMostOneChanged id box.fields changed.fields)
    (nodup : session.board.propertyIds.Nodup) :
    Property.AtMostOneChanged id session.board.properties
      (session.board.replace now key changed).properties := by
  obtain ⟨front, back, whole, placed⟩ := Board.exists_properties_replace found
  rw [Board.propertyIds_eq_map, whole, List.map_append, List.map_append] at nodup
  have own : (box.fields.map Property.id).Nodup :=
    nodup.sublist ((List.sublist_append_left _ _).trans (List.sublist_append_right _ _))
  rw [whole, placed]
  exact (single own).surround front back

variable [Data.Coercions]

theorem Change.atMostOneChanged {answer : Answer}
    (change : Change ids clock session command next answer)
    (nodup : session.board.propertyIds.Nodup) (concerns : command.property? = some id) :
    Property.AtMostOneChanged id session.board.properties next.board.properties := by
  cases change with
  | propertyUpdated found has =>
    obtain rfl := Option.some.inj concerns
    exact atMostOneChanged_replace found _
      (fun distinct => Box.atMostOneChanged_update distinct has _) nodup
  | propertyRemoved found has =>
    obtain rfl := Option.some.inj concerns
    exact atMostOneChanged_replace found _
      (fun distinct => Box.atMostOneChanged_remove distinct has) nodup
  | _ => cases concerns

/-- A command that concerns the properties of an id changes or takes out at most one. -/
theorem atMostOneChanged_perform (nodup : session.board.propertyIds.Nodup) (ids : IdSource)
    (clock : Clock) (concerns : command.property? = some id) :
    Property.AtMostOneChanged id session.board.properties
      (session.perform ids clock command).1.board.properties := by
  rcases perform_eq_self_or_change ids clock command session with same | ⟨answer, change⟩
  · rw [same]
    exact .none _
  · exact change.atMostOneChanged nodup concerns

/-- Where the properties that commands bring along leave their ids open, no two properties on the
board ever have the same id, an id that has left the board does not come back, and a command that
concerns the properties of an id changes or takes out at most one. -/
theorem propertyIds_run_new (distinct : Function.Injective ids) (settings : Settings)
    (start : Int) (steps : List (Clock × Command))
    (leaves : ∀ step ∈ steps, step.2.leavesIdsOpen = true) :
    let reached := fun count => run ids (steps.take count) (new settings start)
    (∀ count, (reached count).board.propertyIds.Nodup) ∧
    (∀ earlier between later id, earlier ≤ between → between ≤ later →
      id ∈ (reached earlier).board.propertyIds → id ∉ (reached between).board.propertyIds →
      id ∉ (reached later).board.propertyIds) ∧
    (∀ count clock command id, command.property? = some id →
      Property.AtMostOneChanged id (reached count).board.properties
        ((reached count).perform ids clock command).1.board.properties) := by
  intro reached
  have leavesTake (count : Nat) : ∀ step ∈ steps.take count, step.2.leavesIdsOpen = true :=
    fun step member => leaves step (List.mem_of_mem_take member)
  have sound (count : Nat) : IsSound ids (reached count) :=
    (isSound_new ids settings start).run distinct _
  have known (count : Nat) : HasIssuedIds ids (reached count) :=
    ((HasIssuedIds.new ids settings start).run (isSound_new ids settings start) distinct
      (leavesTake count)).1
  have joins {earlier later : Nat} (before : earlier ≤ later) :
      JoinsIssued ids (reached earlier) (reached later) := by
    have leavesDrop : ∀ step ∈ (steps.take later).drop earlier, step.2.leavesIdsOpen = true :=
      fun step member => leavesTake later step (List.mem_of_mem_drop member)
    have joins := ((known earlier).run (sound earlier) distinct leavesDrop).2
    rwa [← run_take_eq before] at joins
  refine ⟨fun count => (known count).nodup, ?_, fun count clock command id concerns => ?_⟩
  · intro earlier between later id first second here gone
    exact (joins first).not_mem (known earlier) distinct here gone (joins second)
  · exact atMostOneChanged_perform (known count).nodup ids clock concerns

end Effects

/-- A patch that lists the properties of a box anew, an import and the removal of a property. -/
theorem propertyIds_run_new_relisted :
    let property := Data.record
      [("name".toText, .text "email".toText), ("type".toText, .text "string".toText)]
    let steps : List (Clock × Command) :=
      [(1, .addBox .null .null .null),
       (2, .updateBox "_00".toText (.record [("properties".toText, .list [property, property])])),
       (3, .importSource "interface A \x7b\nx: string;\n\x7d".toText),
       (4, .addBox .null .null (.list [property]))]
    let reached := fun count => run growingIds (steps.take count) (new {} 0)
    let removal := Command.removeProperty "_00".toText "_000".toText
    Function.Injective growingIds ∧ (∀ step ∈ steps, step.2.leavesIdsOpen = true) ∧
      "_".toText ∈ (reached 1).board.propertyIds ∧ "_".toText ∉ (reached 2).board.propertyIds ∧
      "_".toText ∉ (reached 4).board.propertyIds ∧ (reached 4).board.propertyIds.Nodup ∧
      Property.AtMostOneChanged "_000".toText (reached 4).board.properties
        ((reached 4).perform growingIds 5 removal).1.board.properties := by
  intro property steps reached removal
  have leaves : ∀ step ∈ steps, step.2.leavesIdsOpen = true := by decide +kernel
  have here : "_".toText ∈ (reached 1).board.propertyIds := by decide +kernel
  have gone : "_".toText ∉ (reached 2).board.propertyIds := by decide +kernel
  obtain ⟨nodup, stays, single⟩ := propertyIds_run_new growingIds_injective {} 0 steps leaves
  exact ⟨growingIds_injective, leaves, here, gone, stays 1 2 4 _ (by omega) (by omega) here gone,
    nodup 4, single 4 5 removal _ rfl⟩

end Session

end SchemaBoard
