import SchemaBoard.Proofs.Text.Counting

set_option autoImplicit false

/-!
Texts inside one bracket. Main statement: the inside of a bracket around a whole text is found just
if it has as many openers as closers and nothing at its start has more closers, so that the first
character of the text is closed by the last one.
-/
namespace SchemaBoard.Text

section Wrapping

variable {opener closer : CodePoint} {text inside : Text}

theorem apart_single (apart : opener ≠ closer) : Brackets.Apart ⟨[opener], [closer]⟩ := by
  intro c opens closes
  rw [List.mem_singleton] at opens closes
  exact apart (opens.symm.trans closes)

/-- One step towards the closer that ends the first level: it is there where a closer would be stuck
inside, and has to be the last character. -/
theorem beforeLastCloser?_cons (apart : opener ≠ closer) (depth : Nat) (c : CodePoint)
    (rest : Text) :
    beforeLastCloser? opener closer (depth + 1) (c :: rest) =
      if Brackets.Stuck ⟨[opener], [closer]⟩ [] depth c then if rest = [] then some [] else none
      else (beforeLastCloser? opener closer
        (Brackets.depthAfter ⟨[opener], [closer]⟩ depth c + 1) rest).map (c :: ·) := by
  rw [beforeLastCloser?]
  by_cases opens : c = opener
  · subst opens
    simp [Brackets.Stuck, Brackets.depthAfter]
  · by_cases closes : c = closer
    · subst closes
      by_cases outside : depth = 0
      · simp [Brackets.Stuck, opens, outside]
      · have back : depth + 1 - 1 = depth - 1 + 1 := by omega
        simp [Brackets.Stuck, Brackets.depthAfter, opens, outside, back]
    · simp [Brackets.Stuck, Brackets.depthAfter, opens, closes]

/-- What is found is nested, and the closer stands behind it. -/
theorem of_beforeLastCloser? (apart : opener ≠ closer) {depth : Nat}
    (found : beforeLastCloser? opener closer (depth + 1) text = some inside) :
    text = inside ++ [closer] ∧
      Brackets.levelBehind? ⟨[opener], [closer]⟩ [] depth inside = some 0 := by
  induction text generalizing depth inside with
  | nil => cases found
  | cons c rest ih =>
    rw [beforeLastCloser?_cons apart] at found
    split at found
    · next stuck =>
      have outside : depth = 0 := stuck.1
      have closes : c = closer := by simpa using stuck.2.2
      split at found
      · next last =>
        obtain rfl := Option.some.inj found
        rw [outside, closes, last]
        exact ⟨rfl, rfl⟩
      · cases found
    · next free =>
      obtain ⟨tail, behind, rfl⟩ := Option.map_eq_some_iff.mp found
      obtain ⟨shape, level⟩ := ih behind
      exact ⟨congrArg (c :: ·) shape, levelBehind?_cons.mpr ⟨free, level⟩⟩

theorem beforeLastCloser?_concat (apart : opener ≠ closer) {depth : Nat}
    (nested : Brackets.levelBehind? ⟨[opener], [closer]⟩ [] depth inside = some 0) :
    beforeLastCloser? opener closer (depth + 1) (inside ++ [closer]) = some inside := by
  induction inside generalizing depth with
  | nil =>
    obtain rfl : depth = 0 := Option.some.inj nested
    have stuck : Brackets.Stuck ⟨[opener], [closer]⟩ [] 0 closer := by
      simp [Brackets.Stuck, apart.symm]
    rw [List.nil_append, beforeLastCloser?_cons apart, if_pos stuck, if_pos rfl]
  | cons c rest ih =>
    obtain ⟨free, later⟩ := levelBehind?_cons.mp nested
    rw [List.cons_append, beforeLastCloser?_cons apart, if_neg free, ih later]
    rfl

/-- A nested text comes back from inside of a bracket, and nothing else does. -/
theorem unwrap?_eq_some_iff_seals (apart : opener ≠ closer) :
    unwrap? opener closer text = some inside ↔
      text = opener :: inside ++ [closer] ∧ Brackets.Seals ⟨[opener], [closer]⟩ [] inside := by
  cases text with
  | nil => simp [unwrap?]
  | cons c rest =>
    rw [unwrap?]
    by_cases opens : c = opener
    · subst opens
      rw [if_pos rfl, List.cons_append, List.cons.injEq]
      constructor
      · intro found
        obtain ⟨shape, nested⟩ := of_beforeLastCloser? apart found
        exact ⟨⟨rfl, shape⟩, nested⟩
      · intro wrapped
        rw [wrapped.1.2]
        exact beforeLastCloser?_concat apart wrapped.2
    · simp [opens]

theorem unwrap?_wrap (apart : opener ≠ closer)
    (nested : Brackets.Seals ⟨[opener], [closer]⟩ [] inside) :
    unwrap? opener closer (opener :: inside ++ [closer]) = some inside :=
  (unwrap?_eq_some_iff_seals apart).mpr ⟨rfl, nested⟩

theorem isInfix_of_unwrap? (apart : opener ≠ closer)
    (found : unwrap? opener closer text = some inside) : inside <:+: text := by
  obtain ⟨rfl, -⟩ := (unwrap?_eq_some_iff_seals apart).mp found
  exact ⟨[opener], [closer], by simp⟩

theorem unwrap?_eq_none_of_head (other : text.head? ≠ some opener) :
    unwrap? opener closer text = none := by
  cases text with
  | nil => rfl
  | cons c rest => exact if_neg fun same => other (congrArg some same)

/-- A text is unwrapped just if its first character is an opener, its last one is a closer, and the
text between them has as many openers as closers and nowhere at its start more closers. -/
theorem unwrap?_eq_some_iff_balanced (apart : opener ≠ closer) :
    unwrap? opener closer text = some inside ↔
      text = opener :: inside ++ [closer] ∧ inside.count opener = inside.count closer ∧
        ∀ front, front <+: inside → front.count closer ≤ front.count opener := by
  rw [unwrap?_eq_some_iff_seals apart, seals_iff_counts (apart_single apart)]
  simp only [opened_single, closed_single]

/-- Two groups in a row stand between an opener and a closer that do not belong together. -/
theorem unwrap?_two_groups :
    CodePoint.char '(' ≠ .char ')' ∧
      unwrap? '(' ')' "(a(b)())".toText = some "a(b)()".toText ∧
      unwrap? '(' ')' "(a)(b)".toText ≠ some "a)(b".toText := by
  have apart : CodePoint.char '(' ≠ .char ')' := by decide
  refine ⟨apart, ?_, ?_⟩
  · apply (unwrap?_eq_some_iff_balanced apart).mpr
    refine ⟨by decide, by decide, ?_⟩
    intro front begins
    have enough : ∀ start ∈ "a(b)()".toText.inits,
        start.count (.char ')') ≤ start.count (.char '(') := by
      decide
    exact enough front ((List.mem_inits front _).mpr begins)
  · intro found
    obtain ⟨-, -, enough⟩ := (unwrap?_eq_some_iff_balanced apart).mp found
    have stray := enough "a)".toText ⟨"(b".toText, by decide⟩
    revert stray
    decide

end Wrapping

end SchemaBoard.Text
