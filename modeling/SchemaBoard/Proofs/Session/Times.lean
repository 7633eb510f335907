import SchemaBoard.Proofs.Board.Lookup
import SchemaBoard.Proofs.Session.Clock

set_option autoImplicit false

/-!
The times of boxes and boards. Main statement: if the clock never goes back, every box was changed
when it was made or later, the board when its boxes were changed or later, and all of this lies in
the past; a box keeps its id and the time at which it was made, and the time of its last change only
grows.
-/
namespace SchemaBoard

/-- The times on the board are in order at the time `now`. -/
structure Board.IsTimely (now : Int) (board : Board) : Prop where
  made : ∀ entry ∈ board.boxes, entry.2.createdAt ≤ entry.2.updatedAt
  changed : ∀ entry ∈ board.boxes, entry.2.updatedAt ≤ board.updatedAt
  past : board.updatedAt ≤ now

namespace Session

/-- Boxes that are still there have kept their ids and the times at which they were made and were
last changed no earlier; keys that have joined are ids that were issued meanwhile. -/
structure Lasts (ids : IdSource) (session next : Session) : Prop where
  grows : session.issued ≤ next.issued
  joined : ∀ key ∈ next.board.keys, key ∈ session.board.keys ∨
    ∃ number, session.issued ≤ number ∧ key = ids number
  kept : ∀ key box later, session.board.get? key = some box →
    next.board.get? key = some later →
    later.id = box.id ∧ later.createdAt = box.createdAt ∧ box.updatedAt ≤ later.updatedAt

/-- What is done with a session until the time `now` leaves the times in order, and boxes last. -/
structure Ages (ids : IdSource) (now : Int) (session next : Session) : Prop where
  timely : next.board.IsTimely now
  lasts : Lasts ids session next

end Session

namespace Board

section Changes

variable {now later : Int} {board : Board}

theorem isTimely_empty {start : Int} (past : start ≤ now) :
    IsTimely now { updatedAt := start } where
  made := nofun
  changed := nofun
  past := past

theorem IsTimely.mono (timely : IsTimely now board) (onward : now ≤ later) :
    IsTimely later board :=
  ⟨timely.made, timely.changed, Int.le_trans timely.past onward⟩

/-- A box that is written before the board is dated does not disturb the times. -/
theorem IsTimely.put (timely : IsTimely now board) {key : Text} {box : Box} {next : Board}
    (boxes : next.boxes = Board.put key box board.boxes) (date : next.updatedAt = later)
    (onward : now ≤ later) (made : box.createdAt ≤ box.updatedAt)
    (changed : box.updatedAt ≤ later) : IsTimely later next := by
  have times (entry : Text × Box) (here : entry ∈ next.boxes) :
      entry.2.createdAt ≤ entry.2.updatedAt ∧ entry.2.updatedAt ≤ next.updatedAt := by
    rw [boxes] at here
    rcases mem_put here with rfl | old
    · exact ⟨made, date ▸ changed⟩
    · have before := Int.le_trans (timely.changed entry old) timely.past
      exact ⟨timely.made entry old, by omega⟩
  exact ⟨fun entry here => (times entry here).1, fun entry here => (times entry here).2,
    Int.le_of_eq date⟩

theorem IsTimely.removeAll (timely : IsTimely now board) (onward : now ≤ later)
    (doomed : List Text) : IsTimely later (board.removeAll later doomed) where
  made := fun entry here => timely.made entry (List.mem_filter.mp here).1
  changed := fun entry here =>
    Int.le_trans (timely.changed entry (List.mem_filter.mp here).1)
      (Int.le_trans timely.past onward)
  past := Int.le_refl later

end Changes

end Board

namespace Session

section Steps

variable {ids : IdSource} {clock : Clock} {session middle next : Session}

/-- What a step writes comes behind everything that is there. -/
theorem isTimely_of_timed (timely : session.board.IsTimely (clock.reading 0))
    (step : Timed ids clock session next) : next.board.IsTimely (clock.reading 2) := by
  have first : clock.reading 0 ≤ clock.reading 1 := clock.monotone (by omega)
  have second : clock.reading 1 ≤ clock.reading 2 := clock.monotone (by omega)
  cases step with
  | stays board => exact board ▸ timely.mono (Int.le_trans first second)
  | inserted _ _ createdAt updatedAt board =>
    rw [board]
    exact timely.put rfl rfl (Int.le_trans first second) (createdAt ▸ updatedAt ▸ first)
      (updatedAt ▸ second)
  | @replaced key box changed found id createdAt board =>
    have here := Board.mem_boxes_of_get? found
    have made : box.createdAt ≤ box.updatedAt := timely.made _ here
    have written : box.updatedAt ≤ clock.reading 0 :=
      Int.le_trans (timely.changed _ here) timely.past
    rw [board]
    exact (timely.put rfl rfl first (createdAt ▸ Int.le_trans made written) first).mono second
  | removed doomed board =>
    rw [board]
    exact (timely.removeAll (Int.le_refl _) doomed).mono (Int.le_trans first second)

theorem Lasts.refl (ids : IdSource) (session : Session) : Lasts ids session session where
  grows := Nat.le_refl _
  joined := fun _ here => .inl here
  kept := by
    rintro key box later found same
    cases found.symm.trans same
    exact ⟨rfl, rfl, Int.le_refl _⟩

/-- A box that is there at the start and in the end was there in between, since its key is no id
that was issued meanwhile. -/
theorem Lasts.trans (sound : IsSound ids session) (distinct : Function.Injective ids)
    (first : Lasts ids session middle) (second : Lasts ids middle next) :
    Lasts ids session next where
  grows := Nat.le_trans first.grows second.grows
  joined := by
    intro key here
    rcases second.joined key here with old | ⟨number, later, own⟩
    · exact first.joined key old
    · exact .inr ⟨number, Nat.le_trans first.grows later, own⟩
  kept := by
    intro key box last found still
    rcases second.joined key (Board.mem_keys_of_get? still) with between | ⟨number, later, own⟩
    · obtain ⟨changed, there⟩ :=
        Option.isSome_iff_exists.mp (Board.get?_isSome_of_mem_keys between)
      obtain ⟨id, createdAt, updatedAt⟩ := first.kept key box changed found there
      obtain ⟨sameId, sameCreatedAt, onward⟩ := second.kept key changed last there still
      exact ⟨sameId.trans id, sameCreatedAt.trans createdAt, Int.le_trans updatedAt onward⟩
    · have absent := sound.not_mem_keys distinct (Nat.le_trans first.grows later)
      exact absurd (own ▸ Board.mem_keys_of_get? found) absent

theorem Lasts.of_timed (sound : IsSound ids session) (distinct : Function.Injective ids)
    (timely : session.board.IsTimely (clock.reading 0)) (step : Timed ids clock session next) :
    Lasts ids session next := by
  cases step with
  | stays board issued =>
    have same := Lasts.refl ids session
    exact ⟨issued, board ▸ same.joined, board ▸ same.kept⟩
  | @inserted box number later own _ _ board issued =>
    have fresh : box.id ∉ session.board.keys := own ▸ sound.not_mem_keys distinct later
    refine ⟨by omega, fun key here => ?_, fun key old new found still => ?_⟩
    · rw [board, Board.keys_insert _ fresh, List.mem_append] at here
      exact here.imp_right fun new =>
        ⟨number, later, (List.mem_singleton.mp new).trans own⟩
    · have apart : key ≠ box.id := by
        rintro rfl
        exact fresh (Board.mem_keys_of_get? found)
      have same : next.board.get? key = session.board.get? key := by
        rw [board]
        exact (Board.lookup_put _ _ _ _).trans (if_neg apart)
      exact (Lasts.refl ids session).kept key old new found (same ▸ still)
  | @replaced key box changed found id createdAt board issued =>
    refine ⟨issued, fun other here => ?_, fun other old new before still => ?_⟩
    · rw [board, Board.keys_replace _ (Board.mem_keys_of_get? found)] at here
      exact .inl here
    · rw [board, Board.get?_replace] at still
      split at still
      · next same =>
        subst same
        cases found.symm.trans before
        cases still
        have written := timely.changed _ (Board.mem_boxes_of_get? found)
        exact ⟨id, createdAt, Int.le_trans written timely.past⟩
      · exact (Lasts.refl ids session).kept other old new before still
  | removed doomed board issued =>
    refine ⟨issued, fun key here => ?_, fun key old new found still => ?_⟩
    · rw [board, Board.keys_removeAll] at here
      exact .inl (List.mem_filter.mp here).1
    · have spared : next.board.get? key =
          if !doomed.contains key then session.board.get? key else none := by
        rw [board]
        exact Board.lookup_filter_fst (fun key => !doomed.contains key) key session.board.boxes
      rw [spared] at still
      split at still
      · exact (Lasts.refl ids session).kept key old new found still
      · cases still

theorem ages_of_timed (sound : IsSound ids session) (distinct : Function.Injective ids)
    (timely : session.board.IsTimely (clock.reading 0)) (step : Timed ids clock session next) :
    Ages ids (clock.reading 2) session next :=
  ⟨isTimely_of_timed timely step, .of_timed sound distinct timely step⟩

theorem Ages.trans {soon now : Int} (sound : IsSound ids session)
    (distinct : Function.Injective ids) (first : Ages ids soon session middle)
    (second : Ages ids now middle next) : Ages ids now session next :=
  ⟨second.timely, .trans sound distinct first.lasts second.lasts⟩

theorem Ages.mono {soon now : Int} (ages : Ages ids soon session next) (onward : soon ≤ now) :
    Ages ids now session next :=
  ⟨ages.timely.mono onward, ages.lasts⟩

end Steps

section Runs

variable {ids : IdSource} {clock : Clock} {session : Session} {start now : Int}

/-- Each declaration reads the clock where the one in front of it has left it. -/
theorem ages_insertAll (sound : IsSound ids session) (distinct : Function.Injective ids)
    (timely : session.board.IsTimely (clock.reading 0)) (drafts : List OutlineDraft) :
    Ages ids clock.last session (session.insertAll ids clock drafts).1 := by
  induction drafts generalizing clock session with
  | nil => exact ⟨timely.mono (clock.reading_le_last 0), .refl ids session⟩
  | cons draft rest ih =>
    have first := ages_of_timed sound distinct timely
      (timed_insertDeclaration ids clock draft session)
    have next := (sound.insertDeclaration distinct clock draft).1
    have onward : clock.reading 2 ≤ (clock.after 3).reading 0 := clock.monotone (by omega)
    exact first.trans sound distinct (ih next (first.timely.mono onward))

variable [Data.Coercions]

theorem ages_perform (sound : IsSound ids session) (distinct : Function.Injective ids)
    (timely : session.board.IsTimely (clock.reading 0)) (command : Command) :
    Ages ids clock.last session (session.perform ids clock command).1 := by
  cases command with
  | importSource text => exact ages_insertAll sound distinct timely _
  | _ =>
    refine (ages_of_timed sound distinct timely ?_).mono (clock.reading_le_last 2)
    exact timed_perform ids clock session nofun

theorem ages_run (sound : IsSound ids session) (distinct : Function.Injective ids)
    (timely : session.board.IsTimely start) {steps : List (Clock × Command)}
    (onward : Clock.NeverGoesBack now start steps) :
    Ages ids now session (run ids steps session) := by
  induction steps generalizing session start with
  | nil => exact ⟨timely.mono onward, .refl ids session⟩
  | cons step rest ih =>
    obtain ⟨clock, command⟩ := step
    have first := ages_perform sound distinct (timely.mono onward.1) command
    have next := sound.perform distinct clock command
    exact first.trans sound distinct (ih next first.timely onward.2)

/-- If the clock never goes back, the times on the board are in order at every time: each box was
made, then changed, then the board, and then it is now. What is done later leaves each box that is
still there its id and the time at which it was made, and only moves on the time of its last
change. -/
theorem times_run_new (distinct : Function.Injective ids) (settings : Settings)
    {start now later : Int} {steps more : List (Clock × Command)}
    (past : Clock.NeverGoesBack now start steps)
    (onward : Clock.NeverGoesBack later now more) :
    let session := run ids steps (new settings start)
    let next := run ids more session
    session.board.IsTimely now ∧ next.board.IsTimely later ∧
      ∀ key box changed, session.board.get? key = some box →
        next.board.get? key = some changed →
        changed.id = box.id ∧ changed.createdAt = box.createdAt ∧
          box.updatedAt ≤ changed.updatedAt := by
  intro session next
  have sound := isSound_new ids settings start
  have first := ages_run sound distinct (Board.isTimely_empty (Int.le_refl start)) past
  have second := ages_run (sound.run distinct steps) distinct first.timely onward
  exact ⟨first.timely, second.timely, second.lasts.kept⟩

end Runs

/-- A patch that names the id and the times of a box, after an import. -/
theorem times_run_new_patched :
    let steps : List (Clock × Command) :=
      [(.ticking 1 2, .addBox .null .null (.list [])),
       (.ticking 4 9, .importSource "interface A \x7b\nx: string;\n\x7d\ntype B = A;".toText)]
    let patch := Data.record
      [("id".toText, .text "other".toText), ("created_at".toText, .integer 9),
       ("name".toText, .text "C".toText), ("updated_at".toText, .integer 0)]
    let more : List (Clock × Command) := [(.ticking 20 3, .updateBox "_".toText patch)]
    let session := run growingIds steps (new {} 0)
    let next := run growingIds more session
    let times := fun box : Box => (box.id, box.createdAt, box.updatedAt)
    Function.Injective growingIds ∧ Clock.NeverGoesBack 15 0 steps ∧
      Clock.NeverGoesBack 30 15 more ∧
      session.board.boxes.map (times ∘ Prod.snd) =
        [("_".toText, 1, 2), ("_00".toText, 4, 5), ("_000".toText, 7, 8)] ∧
      (next.board.get? "_".toText).map times = some ("_".toText, 1, 20) ∧
      next.board.IsTimely 30 := by
  intro steps patch more session next times
  have past : Clock.NeverGoesBack 15 0 steps := by decide +kernel
  have onward : Clock.NeverGoesBack 30 15 more := by decide +kernel
  exact ⟨growingIds_injective, past, onward, by decide +kernel, by decide +kernel,
    (times_run_new growingIds_injective {} past onward).2.1⟩

end Session

end SchemaBoard
