import SchemaBoard.Proofs.Board.Sound

set_option autoImplicit false

/-!
What a key finds on a board after a change, and when two changes of the entries may trade places.
-/
namespace SchemaBoard.Board

section Entries

variable {key other : Text} {box changed : Box} {entries : List (Text × Box)}

/-- A key finds the box that was put under it, and every other key what it found before. -/
theorem lookup_put (key other : Text) (box : Box) (entries : List (Text × Box)) :
    (put key box entries).lookup other =
      if other = key then some box else entries.lookup other := by
  induction entries with
  | nil =>
    rw [put, List.lookup_cons, List.lookup_nil]
    by_cases same : other = key
    · simp only [same, beq_self_eq_true, if_true]
    · simp only [beq_eq_false_iff_ne.mpr same, if_neg same]
  | cons entry rest ih =>
    obtain ⟨name, old⟩ := entry
    rw [put]
    by_cases here : name = key
    · subst here
      rw [if_pos rfl, List.lookup_cons, List.lookup_cons]
      by_cases same : other = name
      · simp only [same, beq_self_eq_true, if_true]
      · simp only [beq_eq_false_iff_ne.mpr same, if_neg same]
    · rw [if_neg here, List.lookup_cons, List.lookup_cons, ih]
      by_cases same : other = name
      · have apart : other ≠ key := same ▸ here
        simp only [same, beq_self_eq_true, if_neg here]
      · simp only [beq_eq_false_iff_ne.mpr same]

/-- What a key finds has its place among the entries, and another box is put there. -/
theorem exists_put_of_lookup (found : entries.lookup key = some box) :
    ∃ front back, entries = front ++ (key, box) :: back ∧
      ∀ changed, put key changed entries = front ++ (key, changed) :: back := by
  induction entries with
  | nil => cases found
  | cons entry rest ih =>
    obtain ⟨name, old⟩ := entry
    rw [List.lookup_cons] at found
    by_cases here : name = key
    · subst here
      rw [beq_self_eq_true] at found
      obtain rfl := Option.some.inj found
      exact ⟨[], rest, rfl, fun changed => if_pos rfl⟩
    · rw [beq_eq_false_iff_ne.mpr fun same => here same.symm] at found
      obtain ⟨front, back, whole, placed⟩ := ih found
      refine ⟨(name, old) :: front, back, by rw [whole, List.cons_append], fun changed => ?_⟩
      rw [put, if_neg here, placed, List.cons_append]

/-- Where only keys decide what is kept, a key that is kept finds what it found before. -/
theorem lookup_filter_fst {Value : Type} (keeps : Text → Bool) (key : Text)
    (entries : List (Text × Value)) :
    (entries.filter fun entry => keeps entry.1).lookup key =
      if keeps key then entries.lookup key else none := by
  induction entries with
  | nil => simp
  | cons entry rest ih =>
    obtain ⟨name, value⟩ := entry
    rw [List.filter_cons]
    by_cases same : key = name
    · subst same
      by_cases kept : keeps key = true
      · simp only [kept, if_true, List.lookup_cons, beq_self_eq_true]
      · simp only [kept, Bool.false_eq_true, if_false, ih]
    · have apart : (key == name) = false := beq_eq_false_iff_ne.mpr same
      simp only [List.lookup_cons, apart]
      split
      · simp only [List.lookup_cons, apart, ih]
      · exact ih

theorem put_put (key : Text) (box changed : Box) (entries : List (Text × Box)) :
    put key changed (put key box entries) = put key changed entries := by
  induction entries with
  | nil => simp only [put, if_true]
  | cons entry rest ih =>
    obtain ⟨name, old⟩ := entry
    by_cases here : name = key
    · simp only [put, here, if_true]
    · simp only [put, if_neg here, ih]

/-- Boxes may be put under two keys in either order, if one of the keys has a place already. -/
theorem put_comm (apart : key ≠ other) (known : key ∈ entries.map Prod.fst) :
    put key box (put other changed entries) = put other changed (put key box entries) := by
  induction entries with
  | nil => cases known
  | cons entry rest ih =>
    obtain ⟨name, old⟩ := entry
    by_cases here : name = key
    · subst here
      simp only [put, if_neg apart, if_true]
    · have later : key ∈ rest.map Prod.fst := by
        rcases List.mem_cons.mp known with same | later
        · exact absurd same.symm here
        · exact later
      by_cases there : name = other
      · subst there
        simp only [put, if_true, if_neg here]
      · simp only [put, if_neg here, if_neg there, ih later]

/-- A box may be put before or after others are dropped, if its own key is kept. -/
theorem put_filter_fst (keeps : Text → Bool) (kept : keeps key = true) (box : Box)
    (entries : List (Text × Box)) :
    put key box (entries.filter fun entry => keeps entry.1) =
      (put key box entries).filter fun entry => keeps entry.1 := by
  induction entries with
  | nil => simp only [List.filter_nil, put, List.filter_cons, kept, if_true]
  | cons entry rest ih =>
    obtain ⟨name, old⟩ := entry
    by_cases here : name = key
    · subst here
      simp only [List.filter_cons, kept, if_true, put]
    · rw [put, if_neg here, List.filter_cons, List.filter_cons]
      split
      · rw [put, if_neg here, ih]
      · exact ih

end Entries

section Boards

variable {board : Board}

theorem get?_replace (now : Int) (key other : Text) (box : Box) (board : Board) :
    (board.replace now key box).get? other = if other = key then some box else board.get? other :=
  lookup_put key other box board.boxes

end Boards

end SchemaBoard.Board
