import Mathlib.Data.List.Infix
import SchemaBoard.Proofs.Text.Nesting

set_option autoImplicit false

/-!
Depths and counts of brackets. Main statements: the depth behind a text, which never goes below
zero, is the largest surplus of openers over closers at its end, and a text is nested just if it
has as many openers as closers and nothing at its start has more closers.
-/
namespace SchemaBoard.Text

/-- No character both opens and closes a level. -/
def Brackets.Apart (brackets : Brackets) : Prop := ∀ c ∈ brackets.openers, c ∉ brackets.closers

instance (brackets : Brackets) : Decidable brackets.Apart :=
  inferInstanceAs (Decidable (∀ c ∈ brackets.openers, c ∉ brackets.closers))

def Brackets.opened (brackets : Brackets) (text : Text) : Nat :=
  text.countP fun c => c ∈ brackets.openers

def Brackets.closed (brackets : Brackets) (text : Text) : Nat :=
  text.countP fun c => c ∈ brackets.closers

section Counts

variable (brackets : Brackets)

@[simp] theorem opened_nil : brackets.opened [] = 0 := rfl

@[simp] theorem closed_nil : brackets.closed [] = 0 := rfl

theorem opened_append (first second : Text) :
    brackets.opened (first ++ second) = brackets.opened first + brackets.opened second :=
  List.countP_append

theorem closed_append (first second : Text) :
    brackets.closed (first ++ second) = brackets.closed first + brackets.closed second :=
  List.countP_append

theorem opened_cons (c : CodePoint) (rest : Text) :
    brackets.opened (c :: rest) = brackets.opened [c] + brackets.opened rest :=
  opened_append brackets [c] rest

theorem closed_cons (c : CodePoint) (rest : Text) :
    brackets.closed (c :: rest) = brackets.closed [c] + brackets.closed rest :=
  closed_append brackets [c] rest

theorem opened_one (c : CodePoint) :
    brackets.opened [c] = if c ∈ brackets.openers then 1 else 0 := by
  simp [Brackets.opened, List.countP_cons]

theorem closed_one (c : CodePoint) :
    brackets.closed [c] = if c ∈ brackets.closers then 1 else 0 := by
  simp [Brackets.closed, List.countP_cons]

/-- With one kind of bracket the openers are the occurrences of one character. -/
theorem opened_single (opener closer : CodePoint) (text : Text) :
    Brackets.opened ⟨[opener], [closer]⟩ text = text.count opener := by
  simp [Brackets.opened, List.count_eq_countP, beq_eq_decide]

theorem closed_single (opener closer : CodePoint) (text : Text) :
    Brackets.closed ⟨[opener], [closer]⟩ text = text.count closer := by
  simp [Brackets.closed, List.count_eq_countP, beq_eq_decide]

end Counts

section Ends

variable {P : Text → Prop} {c : CodePoint} {text : Text}

theorem forall_suffix_concat_iff :
    (∀ tail, tail <:+ text ++ [c] → P tail) ↔ P [] ∧ ∀ tail, tail <:+ text → P (tail ++ [c]) := by
  constructor
  · intro all
    refine ⟨all [] List.nil_suffix, ?_⟩
    intro tail ends
    exact all (tail ++ [c]) (List.suffix_concat_iff.mpr (Or.inr ⟨tail, rfl, ends⟩))
  · intro both tail ends
    rcases List.suffix_concat_iff.mp ends with rfl | ⟨front, rfl, inside⟩
    · exact both.1
    · exact both.2 front inside

theorem forall_prefix_cons_iff :
    (∀ front, front <+: c :: text → P front) ↔ P [] ∧ ∀ front, front <+: text → P (c :: front) := by
  constructor
  · intro all
    refine ⟨all [] List.nil_prefix, ?_⟩
    intro front begins
    exact all (c :: front) (List.cons_prefix_cons.mpr ⟨rfl, begins⟩)
  · intro both front begins
    rcases List.prefix_cons_iff.mp begins with rfl | ⟨rest, rfl, inside⟩
    · exact both.1
    · exact both.2 rest inside

end Ends

section Depths

variable {brackets : Brackets} {text : Text}

/-- A character adds what it opens to the depth and then takes away what it closes. -/
theorem depthAfter_eq (apart : brackets.Apart) (depth : Nat) (c : CodePoint) :
    brackets.depthAfter depth c = depth + brackets.opened [c] - brackets.closed [c] := by
  rw [Brackets.depthAfter, opened_one, closed_one]
  by_cases opens : c ∈ brackets.openers
  · simp [opens, apart c opens]
  · by_cases closes : c ∈ brackets.closers
    · simp [opens, closes]
    · simp [opens, closes]

theorem depthBehind_concat (depth : Nat) (c : CodePoint) :
    brackets.depthBehind depth (text ++ [c]) =
      brackets.depthAfter (brackets.depthBehind depth text) c := by
  simp [Brackets.depthBehind]

/-- The depth behind a text is the largest surplus of openers at its end. -/
theorem depthBehind_le_iff (apart : brackets.Apart) {bound : Nat} :
    brackets.depthBehind 0 text ≤ bound ↔
      ∀ tail, tail <:+ text → brackets.opened tail ≤ brackets.closed tail + bound := by
  -- The depth counts from the last moment at which it was zero, so the induction goes from the end.
  induction text using List.reverseRecOn generalizing bound with
  | nil => simp [Brackets.depthBehind]
  | append_singleton text c ih =>
    rw [depthBehind_concat, depthAfter_eq apart, forall_suffix_concat_iff]
    simp only [opened_append, closed_append, opened_nil, closed_nil]
    constructor
    · intro small
      refine ⟨by omega, ?_⟩
      intro tail ends
      have before : brackets.depthBehind 0 text ≤
          bound + brackets.closed [c] - brackets.opened [c] := by omega
      have surplus := ih.mp before tail ends
      omega
    · intro both
      have last := both.2 [] List.nil_suffix
      simp only [opened_nil, closed_nil] at last
      have before : brackets.depthBehind 0 text ≤
          bound + brackets.closed [c] - brackets.opened [c] := by
        apply ih.mpr
        intro tail ends
        have surplus := both.2 tail ends
        omega
      omega

/-- Just a closer without an opener is stuck outside of all brackets. -/
theorem stuck_iff (apart : brackets.Apart) {depth : Nat} {c : CodePoint} :
    brackets.Stuck [] depth c ↔ depth + brackets.opened [c] < brackets.closed [c] := by
  rw [Brackets.Stuck, opened_one, closed_one]
  by_cases opens : c ∈ brackets.openers
  · simp [opens, apart c opens]
  · by_cases closes : c ∈ brackets.closers
    · simp [opens, closes]
    · simp [opens, closes]

/-- A level is reached without a stray closer just if the counts lead to it and nothing at the start
of the text closes more levels than there are. -/
theorem levelBehind?_eq_some_iff (apart : brackets.Apart) {depth level : Nat} :
    brackets.levelBehind? [] depth text = some level ↔
      depth + brackets.opened text = level + brackets.closed text ∧
        ∀ front, front <+: text → brackets.closed front ≤ depth + brackets.opened front := by
  induction text generalizing depth with
  | nil => simp [Brackets.levelBehind?]
  | cons c rest ih =>
    rw [levelBehind?_cons, stuck_iff apart, depthAfter_eq apart, ih, forall_prefix_cons_iff,
      opened_cons brackets c rest, closed_cons brackets c rest]
    simp only [opened_nil, closed_nil]
    constructor
    · intro reached
      obtain ⟨free, total, inside⟩ := reached
      refine ⟨by omega, by omega, ?_⟩
      intro front begins
      have enough := inside front begins
      rw [opened_cons brackets c front, closed_cons brackets c front]
      omega
    · intro counted
      obtain ⟨total, -, inside⟩ := counted
      have first := inside [] List.nil_prefix
      refine ⟨by omega, by omega, ?_⟩
      intro front begins
      have enough := inside front begins
      rw [opened_cons brackets c front, closed_cons brackets c front] at enough
      omega

theorem seals_iff_counts (apart : brackets.Apart) :
    brackets.Seals [] text ↔
      brackets.opened text = brackets.closed text ∧
        ∀ front, front <+: text → brackets.closed front ≤ brackets.opened front := by
  rw [Brackets.Seals, levelBehind?_eq_some_iff apart]
  simp only [Nat.zero_add]

end Depths

end SchemaBoard.Text
