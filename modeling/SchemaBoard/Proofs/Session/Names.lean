import Mathlib.Data.List.Induction
import Mathlib.Data.List.Nodup
import SchemaBoard.Proofs.Session.Invariant

set_option autoImplicit false

/-!
The names on offer. Main statement: of the names of the declared boxes each is offered once, at the
place of its first box and with the id of its last one, and this id is listed with that name.
-/
namespace SchemaBoard.Board

/-- The names of some boxes as they are offered, without a name that is left out: each name once, in
the order of the first box of each, with the id of the last box of that name. -/
structure Offers (excluded : Option Text) (boxes : List Box) (offered : List (Text × Text)) :
    Prop where
  once : (offered.map Prod.fst).Nodup
  inOrder : offered.map Prod.fst =
    ((boxes.map fun box => box.name).filter fun name => excluded ≠ some name).eraseDups
  last : ∀ entry ∈ offered, ∃ front box back, boxes = front ++ box :: back ∧
    entry = (box.name, box.id) ∧ ∀ other ∈ back, other.name ≠ box.name

section Pairs

variable {name id : Text} {pairs : List (Text × Text)}

theorem assign_of_not_mem (fresh : name ∉ pairs.map Prod.fst) :
    assign name id pairs = pairs ++ [(name, id)] := by
  induction pairs with
  | nil => rfl
  | cons pair rest ih =>
    simp only [List.map_cons, List.mem_cons, not_or] at fresh
    rw [assign, if_neg (Ne.symm fresh.1), ih fresh.2]
    rfl

theorem map_fst_assign_of_mem (known : name ∈ pairs.map Prod.fst) :
    (assign name id pairs).map Prod.fst = pairs.map Prod.fst := by
  induction pairs with
  | nil => cases known
  | cons pair rest ih =>
    obtain ⟨other, old⟩ := pair
    by_cases here : other = name
    · rw [assign, if_pos here]
      rfl
    · have later := (List.mem_cons.mp known).resolve_left (Ne.symm here)
      rw [assign, if_neg here, List.map_cons, ih later]
      rfl

/-- A name that is set stands where it stood, or else at the end. -/
theorem map_fst_assign {names : List Text} (known : pairs.map Prod.fst = names.eraseDups) :
    (assign name id pairs).map Prod.fst = (names ++ [name]).eraseDups := by
  have same : name ∈ pairs.map Prod.fst ↔ name ∈ names := by rw [known, List.mem_eraseDups]
  rw [List.eraseDups_append, ← known]
  by_cases here : name ∈ names
  · have none : [name].removeAll names = [] := by simp [List.removeAll, here]
    rw [map_fst_assign_of_mem (same.mpr here), none, List.eraseDups_nil, List.append_nil]
  · have all : [name].removeAll names = [name] := by simp [List.removeAll, here]
    rw [assign_of_not_mem (same.not.mpr here), all, List.map_append]
    rfl

theorem nodup_map_fst_assign (once : (pairs.map Prod.fst).Nodup) :
    ((assign name id pairs).map Prod.fst).Nodup := by
  by_cases here : name ∈ pairs.map Prod.fst
  · rw [map_fst_assign_of_mem here]
    exact once
  · rw [assign_of_not_mem here, List.map_append, List.map_singleton, ← List.concat_eq_append]
    exact List.Nodup.concat here once

/-- Where each name stands once, other names keep their ids. -/
theorem mem_assign (once : (pairs.map Prod.fst).Nodup) {entry : Text × Text}
    (member : entry ∈ assign name id pairs) :
    entry = (name, id) ∨ entry ∈ pairs ∧ entry.1 ≠ name := by
  induction pairs with
  | nil => exact .inl (List.mem_singleton.mp member)
  | cons pair rest ih =>
    obtain ⟨other, old⟩ := pair
    obtain ⟨absent, distinct⟩ := List.nodup_cons.mp once
    by_cases here : other = name
    · subst here
      rw [assign, if_pos rfl] at member
      rcases List.mem_cons.mp member with rfl | later
      · exact .inl rfl
      · exact .inr ⟨List.mem_cons_of_mem _ later,
          fun same => absent (same ▸ List.mem_map.mpr ⟨entry, later, rfl⟩)⟩
    · rw [assign, if_neg here] at member
      rcases List.mem_cons.mp member with rfl | later
      · exact .inr ⟨List.mem_cons_self, here⟩
      · exact (ih distinct later).imp_right fun kept =>
          ⟨List.mem_cons_of_mem _ kept.1, kept.2⟩

end Pairs

section Offering

variable {excluded : Option Text} {boxes : List Box} {offered : List (Text × Text)}

theorem offers_nil (excluded : Option Text) : Offers excluded [] [] where
  once := List.nodup_nil
  inOrder := rfl
  last := nofun

theorem Offers.mem_iff (offers : Offers excluded boxes offered) {name : Text} :
    name ∈ offered.map Prod.fst ↔
      name ∈ boxes.map (fun box => box.name) ∧ excluded ≠ some name := by
  rw [offers.inOrder, List.mem_eraseDups, List.mem_filter, decide_eq_true_iff]

/-- A box that is left out does not matter, since its name is not offered. -/
theorem Offers.pass (offers : Offers excluded boxes offered) {box : Box}
    (out : excluded = some box.name) : Offers excluded (boxes ++ [box]) offered where
  once := offers.once
  inOrder := by
    have none : [box.name].filter (fun name => excluded ≠ some name) = [] := by simp [out]
    rw [offers.inOrder, List.map_append, List.filter_append, List.map_singleton, none,
      List.append_nil]
  last := by
    intro entry here
    obtain ⟨front, holder, back, rfl, same, later⟩ := offers.last entry here
    refine ⟨front, holder, back ++ [box], by simp, same, fun other behind => ?_⟩
    rcases List.mem_append.mp behind with old | new
    · exact later other old
    · obtain rfl := List.mem_singleton.mp new
      have kept := (offers.mem_iff.mp (List.mem_map_of_mem here)).2
      rw [same, out] at kept
      exact fun equal => kept (congrArg some equal)

/-- A further box takes over its name, or brings it along. -/
theorem Offers.take (offers : Offers excluded boxes offered) {box : Box}
    (allowed : excluded ≠ some box.name) :
    Offers excluded (boxes ++ [box]) (assign box.name box.id offered) := by
  have taken : [box.name].filter (fun name => excluded ≠ some name) = [box.name] := by
    simp [allowed]
  constructor
  · exact nodup_map_fst_assign offers.once
  · rw [List.map_append, List.filter_append, List.map_singleton, taken]
    exact map_fst_assign offers.inOrder
  · intro entry here
    rcases mem_assign offers.once here with rfl | ⟨old, other⟩
    · exact ⟨boxes, box, [], rfl, rfl, nofun⟩
    · obtain ⟨front, holder, back, rfl, rfl, later⟩ := offers.last entry old
      refine ⟨front, holder, back ++ [box], by simp, rfl, fun newer behind => ?_⟩
      rcases List.mem_append.mp behind with between | new
      · exact later newer between
      · obtain rfl := List.mem_singleton.mp new
        exact Ne.symm other

theorem offers_names (excluded : Option Text) (boxes : List Box) :
    Offers excluded boxes ((boxes.filter fun box => excluded ≠ some box.name).foldl
      (fun pairs box => assign box.name box.id pairs) []) := by
  induction boxes using List.reverseRecOn with
  | nil => exact offers_nil excluded
  | append_singleton front box ih =>
    rw [List.filter_append, List.foldl_append]
    by_cases out : excluded = some box.name
    · simpa [out] using ih.pass out
    · simpa [out] using ih.take out

end Offering

section Declared

variable {board : Board} {boxes : List Box}

/-- Boxes with ids of their own are listed one by one. -/
theorem foldl_assign_ids (distinct : (boxes.map Box.id).Nodup) :
    boxes.foldl (fun pairs box => assign box.id box.name pairs) [] =
      boxes.map fun box => (box.id, box.name) := by
  induction boxes using List.reverseRecOn with
  | nil => rfl
  | append_singleton front box ih =>
    rw [List.map_append, List.map_singleton, ← List.concat_eq_append, List.nodup_concat] at distinct
    have fresh : box.id ∉ (front.map fun box => (box.id, box.name)).map Prod.fst := by
      rw [List.map_map]
      exact distinct.1
    rw [List.foldl_append, ih distinct.2, List.map_append]
    exact assign_of_not_mem fresh

/-- A declared box is what its id finds. -/
theorem IsSound.get?_of_mem (sound : IsSound board)
    (all : boxes.Perm (board.boxes.map Prod.snd)) {box : Box} (here : box ∈ boxes) :
    board.get? box.id = some box := by
  obtain ⟨entry, member, rfl⟩ := List.mem_map.mp (all.mem_iff.mp here)
  exact sound.get?_eq_some member

theorem IsSound.ordered_eq (sound : IsSound board) (ids : boxes.map Box.id = board.order)
    (all : boxes.Perm (board.boxes.map Prod.snd)) : board.ordered = boxes := by
  rw [ordered, ← ids, List.filterMap_map]
  calc
    boxes.filterMap (board.get? ∘ Box.id) = boxes.filterMap some :=
      List.filterMap_congr fun _ here => sound.get?_of_mem all here
    _ = boxes := List.filterMap_some

end Declared

end SchemaBoard.Board

namespace SchemaBoard.Session

variable {ids : IdSource}

/-- However a session was used, all boxes are declared, each once, and their ids are listed in this
order with their names. Each of these names is offered once, unless it is left out, at the place of
its first box and with the id of its last one, under which this box is found and the name listed. -/
theorem names_run_new [Data.Coercions] (distinct : Function.Injective ids) (settings : Settings)
    (start : Int) (clock : Clock) (steps : List (Clock × Command)) (excluded : Option Text) :
    let session := run ids steps (new settings start)
    ∃ boxes listed offered, session.board.declared = .ok boxes ∧
      boxes.Perm (session.board.boxes.map Prod.snd) ∧ (boxes.map Box.id).Nodup ∧
      session.perform ids clock .idsWithNames = (session, .ok (.pairs listed)) ∧
      listed = boxes.map (fun box => (box.id, box.name)) ∧
      session.perform ids clock (.names excluded) = (session, .ok (.pairs offered)) ∧
      (offered.map Prod.fst).Nodup ∧
      offered.map Prod.fst =
        ((boxes.map fun box => box.name).filter fun name => excluded ≠ some name).eraseDups ∧
      ∀ entry ∈ offered, listed.lookup entry.2 = some entry.1 ∧
        ∃ front box back, boxes = front ++ box :: back ∧
          session.board.get? entry.2 = some box ∧ box.name = entry.1 ∧
          ∀ other ∈ back, other.name ≠ entry.1 := by
  intro session
  have sound : session.board.IsSound := ((isSound_new ids settings start).run distinct steps).board
  obtain ⟨boxes, done, order, all⟩ := sound.declared
  have once : (boxes.map Box.id).Nodup := order ▸ sound.orderNodup
  have declared := sound.ordered_eq order all
  have offers : Board.Offers excluded boxes (session.board.names excluded) := by
    rw [Board.names, declared]
    exact Board.offers_names excluded boxes
  have listed : session.board.idsWithNames = boxes.map fun box => (box.id, box.name) := by
    rw [Board.idsWithNames, declared]
    exact Board.foldl_assign_ids once
  refine ⟨boxes, _, _, done, all, once, rfl, listed, rfl, offers.once, offers.inOrder,
    fun entry here => ?_⟩
  obtain ⟨front, box, back, whole, rfl, later⟩ := offers.last entry here
  have member : box ∈ boxes := whole ▸ List.mem_append_right front List.mem_cons_self
  have known : (boxes.map fun box => (box.id, box.name)).lookup box.id = some box.name := by
    apply Board.lookup_eq_some_of_mem
    · rw [List.map_map]
      exact once
    · exact List.mem_map.mpr ⟨box, member, rfl⟩
  exact ⟨listed ▸ known, front, box, back, whole, sound.get?_of_mem all member, rfl, later⟩

/-- Three boxes, of which the last one gets the name of the first one and the second one none. -/
theorem names_run_new_renamed :
    let renamed := fun name : Text => Data.record [("name".toText, .text name)]
    let steps : List (Clock × Command) :=
      [(1, .addBox (.text "A".toText) .null (.list [])), (2, .addBox .null .null (.list [])),
       (3, .addBox .null .null (.list [])), (4, .updateBox "_00".toText (renamed "A".toText)),
       (5, .updateBox "_0".toText (renamed []))]
    let session := run growingIds steps (new {} 0)
    Function.Injective growingIds ∧ ∃ offered,
      session.perform growingIds 6 (.names none) = (session, .ok (.pairs offered)) ∧
      offered = [("A".toText, "_00".toText), ([], "_0".toText)] ∧
      ∀ entry ∈ offered, ∃ box, session.board.get? entry.2 = some box ∧ box.name = entry.1 := by
  intro renamed steps session
  obtain ⟨boxes, listed, offered, -, -, -, -, -, asked, -, -, back⟩ :=
    names_run_new growingIds_injective {} 0 6 steps none
  have names : session.board.names none = [("A".toText, "_00".toText), ([], "_0".toText)] := by
    decide +kernel
  have same : session.board.names none = offered := by
    injection (congrArg Prod.snd asked) with same
    injection same
  refine ⟨growingIds_injective, offered, asked, same ▸ names, fun entry here => ?_⟩
  obtain ⟨-, _, box, _, -, found, own, -⟩ := back entry here
  exact ⟨box, found, own⟩

end SchemaBoard.Session
