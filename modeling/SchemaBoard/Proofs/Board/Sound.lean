import SchemaBoard.Board.Basic

set_option autoImplicit false

/-!
Sound boards: one box under every key, each under its own id, and an order of exactly the keys. Main
statements: adding, replacing and removing boxes keep a board sound, and a sound board declares each
of its boxes once.
-/
namespace SchemaBoard.Board

/-- The keys are distinct, the order lists each of them once, and every box has its key as id. -/
structure IsSound (board : Board) : Prop where
  keysNodup : board.keys.Nodup
  orderNodup : board.order.Nodup
  sameKeys : ∀ key, key ∈ board.order ↔ key ∈ board.keys
  ownIds : ∀ entry ∈ board.boxes, entry.2.id = entry.1

section Put

variable {key : Text} {box : Box} {entries : List (Text × Box)}

theorem map_fst_put_of_mem (known : key ∈ entries.map Prod.fst) :
    (put key box entries).map Prod.fst = entries.map Prod.fst := by
  induction entries with
  | nil => cases known
  | cons entry rest ih =>
    rw [put]
    by_cases same : entry.1 = key
    · rw [if_pos same, List.map_cons, List.map_cons, same]
    · have later : key ∈ rest.map Prod.fst := by
        rcases List.mem_cons.mp known with here | later
        · exact absurd here.symm same
        · exact later
      rw [if_neg same, List.map_cons, List.map_cons, ih later]

theorem put_of_not_mem (fresh : key ∉ entries.map Prod.fst) :
    put key box entries = entries ++ [(key, box)] := by
  induction entries with
  | nil => rfl
  | cons entry rest ih =>
    have apart : entry.1 ≠ key := fun same => fresh (same ▸ List.mem_cons_self)
    have later : key ∉ rest.map Prod.fst := fun member => fresh (List.mem_cons_of_mem _ member)
    rw [put, if_neg apart, ih later, List.cons_append]

theorem map_fst_put_of_not_mem (fresh : key ∉ entries.map Prod.fst) :
    (put key box entries).map Prod.fst = entries.map Prod.fst ++ [key] := by
  rw [put_of_not_mem fresh, List.map_append]
  rfl

/-- An entry is the one that was put there, or one that was there before. -/
theorem mem_put {entry : Text × Box} (member : entry ∈ put key box entries) :
    entry = (key, box) ∨ entry ∈ entries := by
  induction entries with
  | nil => exact Or.inl (List.mem_singleton.mp member)
  | cons first rest ih =>
    rw [put] at member
    split at member
    · exact (List.mem_cons.mp member).imp_right (List.mem_cons_of_mem _)
    · rcases List.mem_cons.mp member with here | later
      · exact Or.inr (here ▸ List.mem_cons_self)
      · exact (ih later).imp_right (List.mem_cons_of_mem _)

end Put

section Lookup

variable {board : Board} {key : Text} {box : Box}

theorem mem_boxes_of_get? (found : board.get? key = some box) : (key, box) ∈ board.boxes := by
  obtain ⟨before, after, eq, -⟩ := List.lookup_eq_some_iff.mp found
  rw [eq]
  simp

theorem mem_keys_of_get? (found : board.get? key = some box) : key ∈ board.keys :=
  List.mem_map.mpr ⟨(key, box), mem_boxes_of_get? found, rfl⟩

theorem get?_isSome_of_mem_keys (known : key ∈ board.keys) : (board.get? key).isSome = true := by
  cases found : board.get? key with
  | some box => rfl
  | none =>
    obtain ⟨entry, member, rfl⟩ := List.mem_map.mp known
    have absent := List.lookup_eq_none_iff.mp found entry member
    simp at absent

/-- With distinct keys, every entry is what its key finds. -/
theorem lookup_eq_some_of_mem {Value : Type} {value : Value} {entries : List (Text × Value)}
    (distinct : (entries.map Prod.fst).Nodup) (member : (key, value) ∈ entries) :
    entries.lookup key = some value := by
  induction entries with
  | nil => cases member
  | cons entry rest ih =>
    obtain ⟨absent, later⟩ := List.nodup_cons.mp distinct
    obtain ⟨other, old⟩ := entry
    rw [List.lookup_cons]
    rcases List.mem_cons.mp member with here | there
    · obtain ⟨rfl, rfl⟩ := Prod.mk.inj here
      rw [beq_self_eq_true]
    · have apart : (key == other) = false := by
        rw [beq_eq_false_iff_ne]
        rintro rfl
        exact absent (List.mem_map.mpr ⟨(key, value), there, rfl⟩)
      rw [apart]
      exact ih later there

theorem mem_keys_of_get?_isSome (found : (board.get? key).isSome = true) : key ∈ board.keys := by
  obtain ⟨box, eq⟩ := Option.isSome_iff_exists.mp found
  exact mem_keys_of_get? eq

end Lookup

section Changes

variable {board : Board} {box : Box}

theorem isSound_empty (now : Int) : IsSound { updatedAt := now } where
  keysNodup := List.nodup_nil
  orderNodup := List.nodup_nil
  sameKeys := fun _ => Iff.rfl
  ownIds := fun _ absent => nomatch absent

theorem keys_insert (now : Int) (fresh : box.id ∉ board.keys) :
    (board.insert now box).keys = board.keys ++ [box.id] :=
  map_fst_put_of_not_mem fresh

/-- A box with a fresh id goes to the end. -/
theorem IsSound.insert (sound : IsSound board) (now : Int) (fresh : box.id ∉ board.keys) :
    IsSound (board.insert now box) where
  keysNodup := by
    rw [keys_insert now fresh, List.nodup_append]
    refine ⟨sound.keysNodup, by simp, fun key known other here => ?_⟩
    rintro rfl
    exact fresh (List.mem_singleton.mp here ▸ known)
  orderNodup := by
    show (board.order ++ [box.id]).Nodup
    rw [List.nodup_append]
    refine ⟨sound.orderNodup, by simp, fun key listed other here => ?_⟩
    rintro rfl
    exact fresh (List.mem_singleton.mp here ▸ (sound.sameKeys key).mp listed)
  sameKeys := by
    intro key
    show key ∈ board.order ++ [box.id] ↔ _
    rw [keys_insert now fresh, List.mem_append, List.mem_append, sound.sameKeys key]
  ownIds := by
    intro entry member
    rcases mem_put member with rfl | old
    · rfl
    · exact sound.ownIds entry old

theorem keys_replace {key : Text} (now : Int) (known : key ∈ board.keys) :
    (board.replace now key box).keys = board.keys :=
  map_fst_put_of_mem known

/-- A box takes the place of another one with its id. -/
theorem IsSound.replace (sound : IsSound board) {key : Text} (now : Int)
    (known : key ∈ board.keys) (own : box.id = key) : IsSound (board.replace now key box) where
  keysNodup := by
    rw [keys_replace now known]
    exact sound.keysNodup
  orderNodup := sound.orderNodup
  sameKeys := by
    intro other
    rw [keys_replace now known]
    exact sound.sameKeys other
  ownIds := by
    intro entry member
    rcases mem_put member with rfl | old
    · exact own
    · exact sound.ownIds entry old

theorem keys_removeAll (now : Int) (doomed : List Text) (board : Board) :
    (board.removeAll now doomed).keys = board.keys.filter fun key => !doomed.contains key := by
  show (board.boxes.filter fun entry => !doomed.contains entry.1).map Prod.fst = _
  rw [keys, List.filter_map]
  rfl

theorem IsSound.removeAll (sound : IsSound board) (now : Int) (doomed : List Text) :
    IsSound (board.removeAll now doomed) where
  keysNodup := by
    rw [keys_removeAll]
    exact List.filter_sublist.nodup sound.keysNodup
  orderNodup := List.filter_sublist.nodup sound.orderNodup
  sameKeys := by
    intro key
    show key ∈ board.order.filter (fun key => !doomed.contains key) ↔ _
    rw [keys_removeAll, List.mem_filter, List.mem_filter, sound.sameKeys key]
  ownIds := fun entry member => sound.ownIds entry (List.mem_filter.mp member).1

end Changes

section Declared

variable {board : Board}

theorem IsSound.isConsistent (sound : IsSound board) : board.isConsistent = true := by
  simp only [Board.isConsistent, Bool.and_eq_true, decide_eq_true_eq, List.all_eq_true,
    List.contains_iff_mem]
  exact ⟨⟨sound.orderNodup, fun key listed => (sound.sameKeys key).mp listed⟩,
    fun key known => (sound.sameKeys key).mpr known⟩

/-- A box is what its id finds. -/
theorem IsSound.get?_eq_some (sound : IsSound board) {entry : Text × Box}
    (member : entry ∈ board.boxes) : board.get? entry.2.id = some entry.2 := by
  apply lookup_eq_some_of_mem sound.keysNodup
  rw [sound.ownIds entry member]
  exact member

/-- Keys that all have boxes are answered with these boxes. -/
theorem mapM_get?_eq_ok (sound : IsSound board) {keys : List Text}
    (known : ∀ key ∈ keys, key ∈ board.keys) :
    ∃ boxes : List Box, keys.mapM (fun key =>
        match board.get? key with
        | some box => Except.ok box
        | none => Except.error key) = Except.ok boxes ∧
      boxes.map Box.id = keys ∧ ∀ box ∈ boxes, board.get? box.id = some box := by
  induction keys with
  | nil => exact ⟨[], rfl, rfl, by simp⟩
  | cons key rest ih =>
    have later : ∀ other ∈ rest, other ∈ board.keys :=
      fun other here => known other (List.mem_cons_of_mem key here)
    obtain ⟨boxes, done, ids, members⟩ := ih later
    have present := get?_isSome_of_mem_keys (known key List.mem_cons_self)
    obtain ⟨box, found⟩ := Option.isSome_iff_exists.mp present
    have own : box.id = key := sound.ownIds _ (mem_boxes_of_get? found)
    refine ⟨box :: boxes, ?_, ?_, ?_⟩
    · rw [List.mapM_cons, found, done]
      rfl
    · rw [List.map_cons, ids, own]
    · intro other here
      rcases List.mem_cons.mp here with rfl | here
      · rw [own, found]
      · exact members other here

/-- All boxes are declared, each of them once. -/
theorem IsSound.declared (sound : IsSound board) :
    ∃ boxes, board.declared = .ok boxes ∧ boxes.map Box.id = board.order ∧
      boxes.Perm (board.boxes.map Prod.snd) := by
  obtain ⟨boxes, done, ids, members⟩ :=
    mapM_get?_eq_ok sound fun key listed => (sound.sameKeys key).mp listed
  have own : (board.boxes.map Prod.snd).map Box.id = board.keys := by
    rw [List.map_map]
    exact List.map_congr_left fun entry member => sound.ownIds entry member
  have distinct : boxes.Nodup := by
    have nodup := sound.orderNodup
    rw [← ids] at nodup
    exact List.Pairwise.of_map Box.id (fun _ _ apart same => apart (congrArg Box.id same)) nodup
  have stored : (board.boxes.map Prod.snd).Nodup := by
    have nodup := sound.keysNodup
    rw [← own] at nodup
    exact List.Pairwise.of_map Box.id (fun _ _ apart same => apart (congrArg Box.id same)) nodup
  refine ⟨boxes, done, ids, (List.perm_ext_iff_of_nodup distinct stored).mpr fun box => ?_⟩
  constructor
  · intro here
    exact List.mem_map.mpr ⟨(box.id, box), mem_boxes_of_get? (members box here), rfl⟩
  · intro there
    obtain ⟨entry, member, rfl⟩ := List.mem_map.mp there
    have known : entry.2.id ∈ boxes.map Box.id := by
      rw [ids, sound.sameKeys, ← own]
      exact List.mem_map_of_mem there
    obtain ⟨other, here, same⟩ := List.mem_map.mp known
    have otherFound := members other here
    rw [same, sound.get?_eq_some member] at otherFound
    exact Option.some.inj otherFound ▸ here

end Declared

end SchemaBoard.Board
