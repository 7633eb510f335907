import SchemaBoard.Proofs.Session.Outcome

set_option autoImplicit false

/-!
The version of a board. It grows by one for every change of the board and by nothing else. Main
statement: commands are counted one by one, and two states of a run with the same version have the
same board.
-/
namespace SchemaBoard

/-- Whether the command leaves the board alone: it asks, or it concerns the selection or the
focus. -/
def Command.isView : Command → Bool
  | select _ _ | selectProperty _ | getBox _ | names _ | idsWithNames | exportSource _ => true
  | _ => false

/-- How many changes of the board the command makes that was answered like this: one for every box
of an import, and one for any other command that names what is on the board. -/
def Command.changes (board : Board) (command : Command) : Except Refusal Answer → Nat
  | .error _ => 0
  | .ok answer =>
    if command.isView || command.misses board then 0
    else
      match answer with
      | .imported boxes _ => boxes.length
      | _ => 1

namespace Session

section Step

variable {ids : IdSource} {clock : Clock} {session next : Session} {command : Command}

theorem version_insertAll (ids : IdSource) (clock : Clock) (drafts : List OutlineDraft)
    (session : Session) :
    (session.insertAll ids clock drafts).1.board.version =
      session.board.version + (session.insertAll ids clock drafts).2.length := by
  induction drafts generalizing clock session with
  | nil => exact (Int.add_zero _).symm
  | cons draft rest ih =>
    have inserted : (session.insertDeclaration ids clock draft).1.board.version =
        session.board.version + 1 := rfl
    have later := ih (clock.after 3) (session.insertDeclaration ids clock draft).1
    simp only [insertAll, List.length_cons, Int.natCast_add, Int.cast_ofNat_Int]
    omega

theorem version_removeBoxes {keys : List Text} {key : Text} {box : Box} (clock : Clock)
    (here : key ∈ keys) (found : session.board.get? key = some box) :
    (session.removeBoxes clock keys).board.version = session.board.version + 1 := by
  have some : keys.filter (fun key => (session.board.get? key).isSome) ≠ [] := by
    have present : (session.board.get? key).isSome = true := by
      rw [found]
      rfl
    exact List.ne_nil_of_mem (List.mem_filter.mpr ⟨here, present⟩)
  have doomed : (keys.filter fun key => (session.board.get? key).isSome).isEmpty = false := by
    simpa using some
  rw [removeBoxes]
  simp only [doomed, Bool.false_eq_true, if_false]
  rfl

theorem board_select (key : Option Text) (additive : Bool) (session : Session) :
    (session.select key additive).board = session.board := by
  unfold select
  split
  · rfl
  · split
    · rfl
    · split
      · rfl
      · split <;> rfl

theorem issued_select (key : Option Text) (additive : Bool) (session : Session) :
    (session.select key additive).issued = session.issued := by
  unfold select
  split
  · rfl
  · split
    · rfl
    · split
      · rfl
      · split <;> rfl

theorem length_insertAll (ids : IdSource) (clock : Clock) (drafts : List OutlineDraft)
    (session : Session) : (session.insertAll ids clock drafts).2.length = drafts.length := by
  induction drafts generalizing clock session with
  | nil => rfl
  | cons draft rest ih =>
    simp only [insertAll, List.length_cons]
    rw [ih]

theorem changes_eq_zero_of_view {board : Board} (view : command.isView = true) (answer : Answer) :
    command.changes board (.ok answer) = 0 := by
  simp only [Command.changes, view, Bool.true_or, if_true]

theorem changes_eq_one {board : Board} {answer : Answer} (acts : command.isView = false)
    (known : command.misses board = false)
    (single : ∀ boxes notes, answer ≠ .imported boxes notes) :
    command.changes board (.ok answer) = 1 := by
  simp only [Command.changes, acts, known, Bool.or_false, Bool.false_eq_true, if_false]

variable [Data.Coercions]

/-- A command that takes effect is counted, or it leaves the board as it is. -/
theorem Change.counted {answer : Answer} (change : Change ids clock session command next answer) :
    next.board.version = session.board.version + command.changes session.board (.ok answer) ∧
      (command.changes session.board (.ok answer) = 0 → next.board = session.board) := by
  have known := change.misses_eq_false
  cases change with
  | boxAdded | declarationInserted => exact ⟨rfl, nofun⟩
  | @sourceImported text drafts notes _ =>
    have count : (Command.importSource text).changes session.board
        (.ok (.imported (session.insertAll ids clock drafts).2 notes)) =
          (session.insertAll ids clock drafts).2.length := rfl
    rw [count]
    refine ⟨version_insertAll ids clock drafts session, fun none => ?_⟩
    rw [length_insertAll, List.length_eq_zero_iff] at none
    rw [none]
    rfl
  | boxUpdated | boxMoved | propertyAdded | propertyUpdated | propertyRemoved =>
    rw [changes_eq_one rfl known (by simp)]
    exact ⟨rfl, nofun⟩
  | boxRemoved found =>
    rw [changes_eq_one rfl known (by simp)]
    exact ⟨version_removeBoxes clock (List.mem_singleton_self _) found, nofun⟩
  | boxesRemoved here found =>
    rw [changes_eq_one rfl known (by simp)]
    exact ⟨version_removeBoxes clock here found, nofun⟩
  | @selected key additive _ =>
    rw [changes_eq_zero_of_view rfl, board_select]
    exact ⟨(Int.add_zero _).symm, fun _ => rfl⟩
  | focused => exact ⟨(Int.add_zero _).symm, fun _ => rfl⟩

/-- What is answered to a command tells by how much the version grows, and whether the board
changes at all. -/
theorem perform_counted (ids : IdSource) (clock : Clock) (command : Command) (session : Session) :
    (session.perform ids clock command).1.board.version = session.board.version +
        command.changes session.board (session.perform ids clock command).2 ∧
      (command.changes session.board (session.perform ids clock command).2 = 0 →
        (session.perform ids clock command).1.board = session.board) := by
  have outcome := outcome_perform ids clock command session
  generalize session.perform ids clock command = result at outcome ⊢
  obtain ⟨next, answer⟩ := result
  cases outcome with
  | refused => exact ⟨(Int.add_zero _).symm, fun _ => rfl⟩
  | missed missing =>
    simp only [Command.changes, missing, Bool.or_true, if_true]
    exact ⟨(Int.add_zero _).symm, fun _ => trivial⟩
  | told asks answer =>
    have view : command.isView = true := by
      cases command <;> first | rfl | cases asks
    rw [changes_eq_zero_of_view view]
    exact ⟨(Int.add_zero _).symm, fun _ => rfl⟩
  | changed change => exact change.counted

end Step

section Run

variable [Data.Coercions] {ids : IdSource} {session : Session}

theorem run_append (ids : IdSource) (first second : List (Clock × Command)) (session : Session) :
    run ids (first ++ second) session = run ids second (run ids first session) := by
  induction first generalizing session with
  | nil => rfl
  | cons step rest ih => exact ih _

theorem version_le_run (ids : IdSource) (steps : List (Clock × Command)) (session : Session) :
    session.board.version ≤ (run ids steps session).board.version := by
  induction steps generalizing session with
  | nil => exact Int.le_refl _
  | cons step rest ih =>
    have here := (perform_counted ids step.1 step.2 session).1
    have later := ih (session.perform ids step.1 step.2).1
    rw [run]
    omega

/-- A run that ends with the version it began with has not changed the board. -/
theorem board_run_of_version_eq {steps : List (Clock × Command)}
    (same : (run ids steps session).board.version = session.board.version) :
    (run ids steps session).board = session.board := by
  induction steps generalizing session with
  | nil => rfl
  | cons step rest ih =>
    obtain ⟨grows, unchanged⟩ := perform_counted ids step.1 step.2 session
    have later := version_le_run ids rest (session.perform ids step.1 step.2).1
    rw [run] at same ⊢
    -- The rest of the run does not lower the version, so this step has not raised it.
    have none : step.2.changes session.board (session.perform ids step.1 step.2).2 = 0 := by omega
    have kept := unchanged none
    rw [ih (by rw [same, kept]), kept]

theorem run_take_eq {steps : List (Clock × Command)} {earlier later : Nat}
    (before : earlier ≤ later) :
    run ids (steps.take later) session =
      run ids ((steps.take later).drop earlier) (run ids (steps.take earlier) session) := by
  have front : (steps.take later).take earlier = steps.take earlier := by
    rw [List.take_take, Nat.min_eq_left before]
  rw [← run_append, ← front, List.take_append_drop]

/-- Every command raises the version by the number of its changes. So the version never falls in a
run, and where it is the same twice, so is the board. -/
theorem version_counts_changes (ids : IdSource) (session : Session)
    (steps : List (Clock × Command)) :
    (∀ clock command,
      ((run ids steps session).perform ids clock command).1.board.version =
        (run ids steps session).board.version + command.changes (run ids steps session).board
          ((run ids steps session).perform ids clock command).2) ∧
    (∀ earlier later, earlier ≤ later →
      (run ids (steps.take earlier) session).board.version ≤
        (run ids (steps.take later) session).board.version) ∧
    (∀ one other,
      (run ids (steps.take one) session).board.version =
        (run ids (steps.take other) session).board.version →
      (run ids (steps.take one) session).board = (run ids (steps.take other) session).board) := by
  refine ⟨fun clock command => (perform_counted ids clock command _).1,
    fun earlier later before => ?_, fun one other same => ?_⟩
  · rw [run_take_eq before]
    exact version_le_run ids _ _
  · rcases Nat.le_total one other with before | before
    · rw [run_take_eq before] at same ⊢
      exact (board_run_of_version_eq same.symm).symm
    · rw [run_take_eq before] at same ⊢
      exact board_run_of_version_eq same

end Run

/-- Between a new box and its removal, which names it twice, the version tells that a view and a
refused patch have left the board alone. -/
theorem version_counts_changes_removed_twice :
    let steps : List (Clock × Command) :=
      [(1, .addBox .null .null .null), (2, .select none false),
       (3, .updateBox "_00".toText (.record [("kind".toText, .integer 1)]))]
    let removal := Command.removeBoxes ["_00".toText, "_00".toText]
    let start := new {} 0
    (run growingIds steps start).board = (run growingIds (steps.take 1) start).board ∧
      ((run growingIds steps start).perform growingIds 4 removal).1.board.version =
        (run growingIds steps start).board.version + 1 := by
  intro steps removal start
  obtain ⟨grows, -, detects⟩ := version_counts_changes growingIds start steps
  have same : (run growingIds (steps.take 3) start).board.version =
      (run growingIds (steps.take 1) start).board.version := by decide +kernel
  have once : removal.changes (run growingIds steps start).board
      ((run growingIds steps start).perform growingIds 4 removal).2 = 1 := by decide +kernel
  refine ⟨detects 3 1 same, ?_⟩
  rw [grows 4 removal, once]
  rfl

end Session
end SchemaBoard
