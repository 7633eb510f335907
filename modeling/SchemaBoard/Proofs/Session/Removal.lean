import SchemaBoard.Proofs.Board.Lookup
import SchemaBoard.Proofs.Session.Outcome

set_option autoImplicit false

/-!
Taking boxes off the board. What is left depends on which boxes are named, and on nothing else. Main
statement: boxes may be taken off at once, or one by one in any order.
-/
namespace SchemaBoard.Session

/-- Whether a key stays when the boxes under some keys are taken off: it is none of them, or it has
no box. -/
def spares (keys : List Text) (session : Session) (key : Text) : Bool :=
  !(keys.contains key && (session.board.get? key).isSome)

/-- Whether a box under one of the keys has a property with that id. -/
def loses (keys : List Text) (session : Session) (id : Text) : Bool :=
  keys.any fun key => (session.board.get? key).any (Box.hasProperty id)

/-- Two sessions that differ at most in the number of their changes and in the time of the last
one. -/
structure Agrees (session other : Session) : Prop where
  settings : session.settings = other.settings
  boxes : session.board.boxes = other.board.boxes
  order : session.board.order = other.board.order
  selection : session.selection = other.selection
  focus : session.focus = other.focus
  issued : session.issued = other.issued

section Left

variable {session : Session} {keys : List Text}

theorem contains_filter (keeps : Text → Bool) (keys : List Text) (key : Text) :
    (keys.filter keeps).contains key = (keys.contains key && keeps key) := by
  rw [Bool.eq_iff_iff]
  simp only [List.contains_iff_mem, List.mem_filter, Bool.and_eq_true]

/-- Where none of the boxes is on the board, every key stays. -/
theorem spares_eq_true (none : (keys.filter fun key => (session.board.get? key).isSome) = [])
    (key : Text) : session.spares keys key = true := by
  have absent := contains_filter (fun key => (session.board.get? key).isSome) keys key
  rw [none] at absent
  rw [spares, ← absent]
  rfl

theorem filter_spares_eq_self
    (none : (keys.filter fun key => (session.board.get? key).isSome) = []) (listed : List Text) :
    listed.filter (session.spares keys) = listed :=
  List.filter_eq_self.mpr fun key _ => spares_eq_true none key

theorem filter_not_contains (keys : List Text) (session : Session) (listed : List Text) :
    (listed.filter fun key =>
      !(keys.filter fun key => (session.board.get? key).isSome).contains key) =
        listed.filter (session.spares keys) := by
  simp only [contains_filter]
  rfl

theorem gone_contains (keys : List Text) (session : Session) (id : Text) :
    (((keys.filter fun key => (session.board.get? key).isSome).filterMap
      session.board.get?).flatMap fun box => box.fields.map Property.id).contains id =
        session.loses keys id := by
  rw [Bool.eq_iff_iff, List.contains_iff_mem, loses, List.any_eq_true]
  simp only [List.mem_flatMap, List.mem_filterMap, List.mem_filter, Option.any_eq_true,
    Box.hasProperty, List.any_eq_true, decide_eq_true_eq, List.mem_map]
  constructor
  · rintro ⟨box, ⟨key, ⟨named, -⟩, found⟩, has⟩
    exact ⟨key, named, box, found, has⟩
  · rintro ⟨key, named, box, found, has⟩
    exact ⟨box, ⟨key, ⟨named, Option.isSome_of_eq_some found⟩, found⟩, has⟩

theorem loses_eq_false (none : (keys.filter fun key => (session.board.get? key).isSome) = [])
    (id : Text) : session.loses keys id = false := by
  rw [← gone_contains, none]
  rfl

variable (clock : Clock) (keys : List Text) (session : Session)

theorem order_removeBoxes :
    (session.removeBoxes clock keys).board.order =
      session.board.order.filter (session.spares keys) := by
  unfold removeBoxes
  dsimp only
  split
  · next none => exact (filter_spares_eq_self (List.isEmpty_iff.mp none) _).symm
  · exact filter_not_contains keys session _

theorem selection_removeBoxes :
    (session.removeBoxes clock keys).selection =
      session.selection.filter (session.spares keys) := by
  unfold removeBoxes
  dsimp only
  split
  · next none => exact (filter_spares_eq_self (List.isEmpty_iff.mp none) _).symm
  · exact filter_not_contains keys session _

theorem focus_removeBoxes :
    (session.removeBoxes clock keys).focus =
      session.focus.filter fun id => !session.loses keys id := by
  unfold removeBoxes
  dsimp only
  split
  · next none =>
    simp only [loses_eq_false (List.isEmpty_iff.mp none), Bool.not_false]
    cases session.focus <;> rfl
  · simp only [gone_contains]

/-- Every box on the board has its key there, so the boxes that are named go. -/
theorem boxes_removeBoxes :
    (session.removeBoxes clock keys).board.boxes =
      session.board.boxes.filter fun entry => !keys.contains entry.1 := by
  have here : ∀ entry ∈ session.board.boxes, (session.board.get? entry.1).isSome = true :=
    fun entry member => Board.get?_isSome_of_mem_keys (List.mem_map_of_mem member)
  unfold removeBoxes
  dsimp only
  split
  · next none =>
    symm
    apply List.filter_eq_self.mpr
    intro entry member
    have spared := spares_eq_true (List.isEmpty_iff.mp none) entry.1
    rwa [spares, here entry member, Bool.and_true] at spared
  · apply List.filter_congr
    intro entry member
    rw [contains_filter, here entry member, Bool.and_true]

theorem settings_removeBoxes : (session.removeBoxes clock keys).settings = session.settings := by
  unfold removeBoxes
  dsimp only
  split <;> rfl

theorem issued_removeBoxes : (session.removeBoxes clock keys).issued = session.issued := by
  unfold removeBoxes
  dsimp only
  split <;> rfl

theorem get?_removeBoxes (key : Text) :
    (session.removeBoxes clock keys).board.get? key =
      if keys.contains key then none else session.board.get? key := by
  have kept := Board.lookup_filter_fst (fun key => !keys.contains key) key session.board.boxes
  rw [Board.get?, boxes_removeBoxes, kept, Board.get?]
  cases keys.contains key <;> rfl

end Left

section Removals

variable {session other third : Session}

theorem Agrees.refl (session : Session) : Agrees session session := ⟨rfl, rfl, rfl, rfl, rfl, rfl⟩

theorem Agrees.trans (first : Agrees session other) (second : Agrees other third) :
    Agrees session third :=
  ⟨first.settings.trans second.settings, first.boxes.trans second.boxes,
    first.order.trans second.order, first.selection.trans second.selection,
    first.focus.trans second.focus, first.issued.trans second.issued⟩

theorem agrees_removeBoxes_nil (clock : Clock) (session : Session) :
    Agrees session (session.removeBoxes clock []) :=
  Agrees.refl session

/-- Which boxes are named decides what is left, not how often or in which order. -/
theorem agrees_of_same_members {keys others : List Text} (clock later : Clock)
    (same : ∀ key, key ∈ keys ↔ key ∈ others) (session : Session) :
    Agrees (session.removeBoxes clock keys) (session.removeBoxes later others) := by
  have contains : keys.contains = others.contains := by
    funext key
    rw [Bool.eq_iff_iff, List.contains_iff_mem, List.contains_iff_mem]
    exact same key
  have spares : session.spares keys = session.spares others := by
    funext key
    rw [Session.spares, contains, Session.spares]
  have loses : session.loses keys = session.loses others := by
    funext id
    rw [Bool.eq_iff_iff, Session.loses, Session.loses, List.any_eq_true, List.any_eq_true]
    exact exists_congr fun key => and_congr_left' (same key)
  constructor
  · rw [settings_removeBoxes, settings_removeBoxes]
  · rw [boxes_removeBoxes, boxes_removeBoxes, contains]
  · rw [order_removeBoxes, order_removeBoxes, spares]
  · rw [selection_removeBoxes, selection_removeBoxes, spares]
  · rw [focus_removeBoxes, focus_removeBoxes, loses]
  · rw [issued_removeBoxes, issued_removeBoxes]

/-- A key stays when one box and then some others are taken off if it stays when all of them are. -/
theorem spares_cons (clock : Clock) (key : Text) (rest : List Text) (session : Session) :
    (fun other => session.spares [key] other &&
      (session.removeBoxes clock [key]).spares rest other) = session.spares (key :: rest) := by
  funext other
  simp only [spares, get?_removeBoxes, List.contains_cons, List.contains_nil, Bool.or_false]
  by_cases same : other = key
  · simp only [same, beq_self_eq_true, Bool.true_and, Bool.true_or, if_true, Option.isSome_none,
      Bool.and_false, Bool.not_false, Bool.and_true]
  · simp only [beq_eq_false_iff_ne.mpr same, Bool.false_and, Bool.not_false, Bool.false_or,
      Bool.true_and, Bool.false_eq_true, if_false]

/-- An id that the first box has is lost already when the others go. -/
theorem loses_cons (clock : Clock) (key id : Text) (rest : List Text) (session : Session) :
    (session.loses [key] id || (session.removeBoxes clock [key]).loses rest id) =
      session.loses (key :: rest) id := by
  simp only [loses, List.any_cons, List.any_nil, Bool.or_false, get?_removeBoxes,
    List.contains_cons, List.contains_nil]
  cases has : (session.board.get? key).any (Box.hasProperty id) with
  | true => rfl
  | false =>
    rw [Bool.false_or, Bool.false_or]
    congr 1
    funext other
    by_cases same : other = key
    · rw [same, has, beq_self_eq_true, if_pos rfl]
      rfl
    · rw [beq_eq_false_iff_ne.mpr same]
      rfl

theorem agrees_removeBoxes_cons (clock later time : Clock) (key : Text) (rest : List Text)
    (session : Session) :
    Agrees ((session.removeBoxes clock [key]).removeBoxes later rest)
      (session.removeBoxes time (key :: rest)) := by
  constructor
  · simp only [settings_removeBoxes]
  · rw [boxes_removeBoxes, boxes_removeBoxes, boxes_removeBoxes, List.filter_filter]
    apply List.filter_congr
    intro entry _
    simp only [List.contains_cons, List.contains_nil, Bool.or_false, Bool.not_or, Bool.and_comm]
  · rw [order_removeBoxes, order_removeBoxes, order_removeBoxes, List.filter_filter,
      ← spares_cons clock key rest session]
    simp only [Bool.and_comm]
  · rw [selection_removeBoxes, selection_removeBoxes, selection_removeBoxes, List.filter_filter,
      ← spares_cons clock key rest session]
    simp only [Bool.and_comm]
  · rw [focus_removeBoxes, focus_removeBoxes, focus_removeBoxes, Option.filter_filter]
    simp only [← loses_cons clock key _ rest session, Bool.not_or]
  · simp only [issued_removeBoxes]

variable [Data.Coercions]

/-- One removal after the other comes to the removal of all of them. -/
theorem agrees_run_removals (ids : IdSource) (clock : Clock) (steps : List (Clock × Text))
    (session : Session) :
    Agrees (run ids (steps.map fun step => (step.1, .removeBox step.2)) session)
      (session.removeBoxes clock (steps.map Prod.snd)) := by
  induction steps generalizing session with
  | nil => exact agrees_removeBoxes_nil clock session
  | cons step rest ih =>
    have later := ih (session.removeBoxes step.1 [step.2])
    exact later.trans
      (agrees_removeBoxes_cons step.1 clock clock step.2 (rest.map Prod.snd) session)

/-- Taking boxes off the board one by one, in any order, leaves what taking them off at once leaves:
of the order and of the selection, the keys that are spared, as they stood. -/
theorem removals_agree (ids : IdSource) (session : Session) (clock : Clock) (keys : List Text)
    (steps : List (Clock × Text)) (same : (steps.map Prod.snd).Perm keys) :
    let batch := (session.perform ids clock (.removeBoxes keys)).1
    let singly := run ids (steps.map fun step => (step.1, .removeBox step.2)) session
    Agrees singly batch ∧
      batch.board.order = session.board.order.filter (session.spares keys) ∧
      batch.selection = session.selection.filter (session.spares keys) := by
  intro batch singly
  have each := agrees_run_removals ids clock steps session
  have members := agrees_of_same_members clock clock (fun key => same.mem_iff) session
  exact ⟨each.trans members, order_removeBoxes clock keys session,
    selection_removeBoxes clock keys session⟩

end Removals

/-- Two of three boxes, one of them named twice, and a key without a box, from behind. -/
theorem removals_agree_reversed :
    let reached := run growingIds
      [(1, .addBox .null .null .null), (2, .addBox .null .null .null),
       (3, .addBox .null .null .null), (4, .selectProperty (some "_".toText)),
       (5, .select (some "_00".toText) true)] (new {} 0)
    let keys := ["_00".toText, "_00000000".toText, "gone".toText, "_00".toText]
    let steps : List (Clock × Text) := [(7, "_00".toText), (8, "gone".toText),
      (9, "_00000000".toText), (10, "_00".toText)]
    let batch := (reached.perform growingIds 6 (.removeBoxes keys)).1
    let singly := run growingIds (steps.map fun step => (step.1, .removeBox step.2)) reached
    (steps.map Prod.snd).Perm keys ∧ Agrees singly batch ∧
      batch.board.order = ["_00000".toText] ∧ batch.selection = [] := by
  intro reached keys steps batch singly
  have same : (steps.map Prod.snd).Perm keys := by decide
  obtain ⟨agree, order, selection⟩ := removals_agree growingIds reached 6 keys steps same
  refine ⟨same, agree, order.trans ?_, selection.trans ?_⟩
  · decide +kernel
  · decide +kernel

end SchemaBoard.Session
