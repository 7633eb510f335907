import Mathlib.Data.List.Infix
import SchemaBoard.Checks.Pipeline

set_option autoImplicit false

/-!
Runs that stop at the first failure. Main statements: such a run leaves the shortest beginning of
the full results that ends in a failure, or all of them if nothing fails, and so it has the exit
code of the full run.
-/
namespace SchemaBoard.Checks

/-- The last of the results is a failure. -/
def EndsInFailure (results : List StepResult) : Prop :=
  ∃ front last, results = front ++ [last] ∧ last.passed = false

/-- What is left of all results if a run stops at the first failure. -/
inductive StopsEarly (all : List StepResult) : List StepResult → Prop
  /-- The shortest beginning that ends in a failure. -/
  | failed {part : List StepResult} (begins : part <+: all) (fails : EndsInFailure part)
      (shortest : ∀ other, other <+: all → EndsInFailure other → part.length ≤ other.length) :
      StopsEarly all part
  /-- Everything, as nothing fails. -/
  | passed (passes : ∀ result ∈ all, result.passed = true) : StopsEarly all all

section Failures

variable {result : StepResult} {all part : List StepResult}

theorem not_endsInFailure_nil : ¬EndsInFailure [] := by
  rintro ⟨front, last, empty, -⟩
  simp at empty

theorem endsInFailure_cons_of_passed (passed : result.passed = true) :
    EndsInFailure (result :: part) ↔ EndsInFailure part := by
  constructor
  · rintro ⟨front, last, eq, failed⟩
    cases front with
    | nil =>
      obtain rfl : result = last := List.head_eq_of_cons_eq eq
      rw [passed] at failed
      cases failed
    | cons first front => exact ⟨front, last, (List.cons.inj eq).2, failed⟩
  · rintro ⟨front, last, rfl, failed⟩
    exact ⟨result :: front, last, rfl, failed⟩

/-- A failure at the start is where a run stops. -/
theorem StopsEarly.here (failed : result.passed = false) (rest : List StepResult) :
    StopsEarly (result :: rest) [result] := by
  apply StopsEarly.failed
  · exact ⟨rest, rfl⟩
  · exact ⟨[], result, rfl, failed⟩
  · intro other _ fails
    cases other with
    | nil => exact absurd fails not_endsInFailure_nil
    | cons first others => simp

/-- A run goes on behind a result that is no failure. -/
theorem StopsEarly.cons (passed : result.passed = true) (stops : StopsEarly all part) :
    StopsEarly (result :: all) (result :: part) := by
  cases stops with
  | failed begins fails shortest =>
    apply StopsEarly.failed
    · exact List.cons_prefix_cons.mpr ⟨rfl, begins⟩
    · exact (endsInFailure_cons_of_passed passed).mpr fails
    · intro other starts ends
      rcases List.prefix_cons_iff.mp starts with rfl | ⟨behind, rfl, inside⟩
      · exact absurd ends not_endsInFailure_nil
      · have least := shortest behind inside ((endsInFailure_cons_of_passed passed).mp ends)
        simp only [List.length_cons]
        omega
  | passed passes =>
    apply StopsEarly.passed
    intro other member
    rcases List.mem_cons.mp member with rfl | later
    · exact passed
    · exact passes other later

theorem exitCode_eq_zero_iff :
    exitCode all = 0 ↔ ∀ result ∈ all, result.passed = true := by
  rw [exitCode, ← List.all_eq_true]
  split
  · next passed => simp [passed]
  · next failed => simp [failed]

/-- What is left of the results says whether all of them passed. -/
theorem StopsEarly.exitCode_eq (stops : StopsEarly all part) : exitCode part = exitCode all := by
  cases stops with
  | failed begins fails shortest =>
    obtain ⟨front, last, rfl, failed⟩ := fails
    have here : last ∈ front ++ [last] := by simp
    have known : ∀ results, last ∈ results → exitCode results = 1 := by
      intro results member
      rw [exitCode, if_neg]
      intro passed
      rw [List.all_eq_true.mp passed last member] at failed
      cases failed
    rw [known _ here, known _ (begins.subset here)]
  | passed passes => rfl

end Failures

section Runs

variable (execute : Nat → Step → Outcome) (steps : List Step)

/-- A full run has one result for each step, in order. -/
theorem run_full :
    run execute false steps = steps.mapIdx fun before step => resultOf (execute before) step := by
  induction steps generalizing execute with
  | nil => rfl
  | cons step rest ih =>
    rw [run, List.mapIdx_cons, ih]
    rfl

theorem stopsEarly_run : StopsEarly (run execute false steps) (run execute true steps) := by
  induction steps generalizing execute with
  | nil => exact StopsEarly.passed (by simp [run])
  | cons step rest ih =>
    have behind := ih fun before => execute (before + 1)
    cases passed : (resultOf (execute 0) step).passed with
    | false =>
      simp only [run, passed, Bool.not_false, Bool.and_self, Bool.false_and, if_true]
      exact StopsEarly.here passed _
    | true =>
      simp only [run, passed, Bool.not_true, Bool.and_false]
      exact StopsEarly.cons passed behind

theorem exitCode_run : exitCode (run execute true steps) = exitCode (run execute false steps) :=
  (stopsEarly_run execute steps).exitCode_eq

end Runs

section Steady

variable (execute : Step → Outcome) (steps : List Step)

/-- Where only the step says how it ends, the place of a step does not matter. -/
theorem run_full_steady :
    run (fun _ => execute) false steps = steps.map (resultOf execute) := by
  induction steps with
  | nil => rfl
  | cons step rest ih => exact congrArg (resultOf execute step :: ·) ih

theorem map_step_run_full : (run (fun _ => execute) false steps).map StepResult.step = steps := by
  rw [run_full_steady, List.map_map]
  exact List.map_id steps

theorem exitCode_run_full :
    exitCode (run (fun _ => execute) false steps) = 0 ↔
      ∀ step ∈ steps, (execute step).code = 0 := by
  rw [exitCode_eq_zero_iff, run_full_steady, List.forall_mem_map]
  simp [resultOf]

end Steady

end SchemaBoard.Checks
