import SchemaBoard.Proofs.Text.Splitting

set_option autoImplicit false

/-!
Brackets that match. Where depths only count brackets, here each closer closes the bracket of its
kind that was opened last. Main statements: what matches is nested however some kinds of its
brackets are counted, and a nested text is cut by none of some marks just if it seals them.
-/
namespace SchemaBoard.Text

def Brackets.pairs (brackets : Brackets) : List (CodePoint × CodePoint) :=
  brackets.openers.zip brackets.closers

/-- The closers that are due behind `c`, the next one first, given those that are due in front of
it. There are none if `c` is another closer than the next, or if it is barred and outside of all
brackets. -/
def Brackets.dueAfter? (brackets : Brackets) (barred due : Text) (c : CodePoint) : Option Text :=
  match brackets.pairs.lookup c with
  | some closer => some (closer :: due)
  | none =>
    if c ∈ brackets.closers then
      if due.head? = some c then some due.tail else none
    else if due = [] ∧ c ∈ barred then none
    else some due

/-- Every bracket of the text is closed by its own closer, brackets inside of others first, and no
barred character stands outside of all brackets. -/
def Brackets.Matches (brackets : Brackets) (barred text : Text) : Prop :=
  text.foldlM (brackets.dueAfter? barred) [] = some []

instance (brackets : Brackets) (barred text : Text) : Decidable (brackets.Matches barred text) :=
  inferInstanceAs (Decidable (_ = _))

/-- The brackets of one kind or more among those of another. -/
structure Brackets.PartOf (part whole : Brackets) : Prop where
  openers : ∀ c ∈ part.openers, (whole.pairs.lookup c).isSome = true
  closers : part.closers ⊆ whole.closers
  together : ∀ pair ∈ whole.pairs, pair.1 ∈ part.openers ↔ pair.2 ∈ part.closers
  apart : ∀ pair ∈ whole.pairs, pair.1 ∉ whole.closers

instance (part whole : Brackets) : Decidable (part.PartOf whole) :=
  decidable_of_iff ((∀ c ∈ part.openers, (whole.pairs.lookup c).isSome = true) ∧
      (∀ c ∈ part.closers, c ∈ whole.closers) ∧
      (∀ pair ∈ whole.pairs, pair.1 ∈ part.openers ↔ pair.2 ∈ part.closers) ∧
      ∀ pair ∈ whole.pairs, pair.1 ∉ whole.closers)
    ⟨fun ⟨openers, closers, together, apart⟩ => ⟨openers, fun c => closers c, together, apart⟩,
      fun ⟨openers, closers, together, apart⟩ => ⟨openers, fun _ => @closers _, together, apart⟩⟩

/-- How many of the closers that are due are among those of the brackets. -/
def Brackets.dueDepth (brackets : Brackets) (due : Text) : Nat :=
  due.countP fun c => c ∈ brackets.closers

section Matching

variable {part whole : Brackets} {barred due next text : Text} {c : CodePoint}

theorem mem_of_lookup {closer : CodePoint} {pairs : List (CodePoint × CodePoint)}
    (found : pairs.lookup c = some closer) : (c, closer) ∈ pairs := by
  obtain ⟨before, after, eq, -⟩ := List.lookup_eq_some_iff.mp found
  rw [eq]
  simp

/-- What a character can do to the closers that are due: an opener puts its closer in front of them,
a closer is the first of them and goes, and anything else leaves them as they are. -/
theorem dueAfter?_cases (step : whole.dueAfter? barred due c = some next) :
    (∃ closer, whole.pairs.lookup c = some closer ∧ next = closer :: due) ∨
      (whole.pairs.lookup c = none ∧ c ∈ whole.closers ∧ due = c :: next) ∨
      (whole.pairs.lookup c = none ∧ c ∉ whole.closers ∧ next = due ∧
        (due = [] → c ∉ barred)) := by
  rw [Brackets.dueAfter?] at step
  split at step
  · next closer found => exact Or.inl ⟨closer, found, (Option.some.inj step).symm⟩
  · next absent =>
    split at step
    · next closes =>
      split at step
      · next top =>
        obtain ⟨rest, rfl⟩ := List.head?_eq_some_iff.mp top
        exact Or.inr (Or.inl ⟨absent, closes, congrArg _ (Option.some.inj step)⟩)
      · cases step
    · next other =>
      split at step
      · cases step
      · next free =>
        refine Or.inr (Or.inr ⟨absent, other, (Option.some.inj step).symm, ?_⟩)
        exact fun none bars => free ⟨none, bars⟩

theorem dueDepth_cons (brackets : Brackets) (c : CodePoint) (due : Text) :
    brackets.dueDepth (c :: due) =
      brackets.dueDepth due + if c ∈ brackets.closers then 1 else 0 := by
  simp [Brackets.dueDepth, List.countP_cons]

theorem Brackets.PartOf.not_mem_openers (among : part.PartOf whole)
    (absent : whole.pairs.lookup c = none) : c ∉ part.openers := by
  intro here
  have known := among.openers c here
  rw [absent] at known
  cases known

theorem not_stuck_of_not_mem_closers {depth : Nat} (noCloser : c ∉ part.closers) :
    ¬part.Stuck [] depth c :=
  fun stuck => stuck.2.2.elim noCloser List.not_mem_nil

/-- The closers of a part that are due tell its depth. -/
theorem depthAfter_of_dueAfter? (among : part.PartOf whole)
    (step : whole.dueAfter? barred due c = some next) :
    ¬part.Stuck [] (part.dueDepth due) c ∧
      part.depthAfter (part.dueDepth due) c = part.dueDepth next := by
  rcases dueAfter?_cases step with ⟨closer, found, rfl⟩ | ⟨absent, -, rfl⟩ | ⟨absent, other, rfl, -⟩
  · have pair := mem_of_lookup found
    have noCloser : c ∉ part.closers := fun here => among.apart _ pair (among.closers here)
    have together : c ∈ part.openers ↔ closer ∈ part.closers := among.together _ pair
    refine ⟨not_stuck_of_not_mem_closers noCloser, ?_⟩
    rw [Brackets.depthAfter, dueDepth_cons]
    by_cases opens : c ∈ part.openers
    · rw [if_pos opens, if_pos (together.mp opens)]
    · rw [if_neg opens, if_neg noCloser, if_neg fun closes => opens (together.mpr closes)]
      rfl
  · rw [Brackets.depthAfter, if_neg (among.not_mem_openers absent), dueDepth_cons]
    by_cases closes : c ∈ part.closers
    · rw [if_pos closes, if_pos closes]
      exact ⟨fun stuck => Nat.succ_ne_zero _ stuck.1, rfl⟩
    · rw [if_neg closes, if_neg closes]
      exact ⟨not_stuck_of_not_mem_closers closes, rfl⟩
  · have noCloser : c ∉ part.closers := fun here => other (among.closers here)
    rw [Brackets.depthAfter, if_neg (among.not_mem_openers absent), if_neg noCloser]
    exact ⟨not_stuck_of_not_mem_closers noCloser, rfl⟩

theorem levelBehind?_of_due (among : part.PartOf whole)
    (run : text.foldlM (whole.dueAfter? barred) due = some next) :
    part.levelBehind? [] (part.dueDepth due) text = some (part.dueDepth next) := by
  induction text generalizing due with
  | nil =>
    obtain rfl := Option.some.inj run
    rfl
  | cons c rest ih =>
    rw [List.foldlM_cons] at run
    obtain ⟨middle, step, later⟩ := Option.bind_eq_some_iff.mp run
    obtain ⟨free, depth⟩ := depthAfter_of_dueAfter? among step
    refine levelBehind?_cons.mpr ⟨free, ?_⟩
    rw [depth]
    exact ih later

/-- What matches is nested, whichever kinds of its brackets are counted. -/
theorem Brackets.Matches.seals (matched : whole.Matches barred text) (among : part.PartOf whole) :
    part.Seals [] text :=
  levelBehind?_of_due among matched

/-- What matches does not end with a barred character. -/
theorem Brackets.Matches.getLast?_ne (matched : whole.Matches barred text) (bars : c ∈ barred)
    (noOpener : whole.pairs.lookup c = none) (noCloser : c ∉ whole.closers) :
    text.getLast? ≠ some c := by
  intro last
  obtain ⟨front, rfl⟩ := List.getLast?_eq_some_iff.mp last
  rw [Brackets.Matches, List.foldlM_append] at matched
  obtain ⟨due, -, step⟩ := Option.bind_eq_some_iff.mp matched
  have stays : whole.dueAfter? barred due c = some [] := by simpa using step
  rcases dueAfter?_cases stays with ⟨closer, found, -⟩ | ⟨-, closes, -⟩ | ⟨-, -, same, free⟩
  · rw [noOpener] at found
    cases found
  · exact noCloser closes
  · exact free same.symm bars

end Matching

section Cuts

variable {brackets : Brackets} {barred text : Text} {depth level : Nat}

/-- A nested text that no barred mark cuts has none of them outside of its brackets. -/
theorem levelBehind?_of_pieces (neutral : ∀ mark ∈ barred, brackets.Neutral mark)
    (nested : brackets.levelBehind? [] depth text = some level)
    (whole : ∀ mark ∈ barred, pieces brackets [mark] depth text = [text]) :
    brackets.levelBehind? barred depth text = some level := by
  induction text generalizing depth with
  | nil => exact nested
  | cons c rest ih =>
    obtain ⟨free, later⟩ := levelBehind?_cons.mp nested
    have goesOn : ∀ mark ∈ barred, ¬([c] = [mark] ∧ brackets.depthAfter depth c = 0) := by
      intro mark bars cut
      -- A cut leaves an empty first piece, but the only piece starts with this character.
      have parts := whole mark bars
      rw [pieces_cons_of_cut _ _ cut] at parts
      cases List.head_eq_of_cons_eq parts
    refine levelBehind?_cons.mpr ⟨?_, ih later fun mark bars => ?_⟩
    · rintro ⟨zero, noOpener, closes | bars⟩
      · exact free ⟨zero, noOpener, Or.inl closes⟩
      · exact goesOn c bars ⟨rfl, ((neutral c bars).depthAfter depth).trans zero⟩
    · have parts := whole mark bars
      rw [pieces_cons_of_not_cut _ _ (goesOn mark bars)] at parts
      obtain ⟨first, others, eq⟩ := List.exists_cons_of_ne_nil
        (pieces_ne_nil brackets [mark] (brackets.depthAfter depth c) rest)
      rw [eq, glue] at parts
      obtain ⟨head, rfl⟩ := List.cons.inj parts
      have same : first = rest := (List.cons.inj head).2
      rw [eq, same]

/-- A nested text keeps all marks inside of its brackets just if none of them cuts it. -/
theorem seals_iff_pieces (neutral : ∀ mark ∈ barred, brackets.Neutral mark)
    (nested : brackets.Seals [] text) :
    brackets.Seals barred text ↔ ∀ mark ∈ barred, pieces brackets [mark] 0 text = [text] := by
  constructor
  · intro sealed mark bars
    exact pieces_of_seals (neutral mark bars) bars sealed
  · exact levelBehind?_of_pieces neutral nested

theorem seals_singleton_iff_pieces {mark : CodePoint} (neutral : brackets.Neutral mark)
    (nested : brackets.Seals [] text) :
    brackets.Seals [mark] text ↔ pieces brackets [mark] 0 text = [text] := by
  have neutrals : ∀ other ∈ [mark], brackets.Neutral other := List.forall_mem_singleton.mpr neutral
  rw [seals_iff_pieces neutrals nested, List.forall_mem_singleton]

/-- Where two texts in a row seal some characters and the first is nested, both seal them. -/
theorem Brackets.Seals.of_append {first second : Text} (nested : brackets.Seals [] first)
    (sealed : brackets.Seals barred (first ++ second)) :
    brackets.Seals barred first ∧ brackets.Seals barred second := by
  rw [Brackets.Seals, levelBehind?_append] at sealed
  obtain ⟨level, front, back⟩ := Option.bind_eq_some_iff.mp sealed
  have same := levelBehind?_mono (List.nil_subset barred) front
  obtain rfl : 0 = level := Option.some.inj (nested.symm.trans same)
  exact ⟨front, back⟩

theorem Brackets.Seals.of_join {separator : Text} {parts : List Text}
    (between : brackets.Seals [] separator) (nested : ∀ part ∈ parts, brackets.Seals [] part)
    (sealed : brackets.Seals barred (Text.join separator parts)) :
    ∀ part ∈ parts, brackets.Seals barred part := by
  induction parts with
  | nil => simp
  | cons part rest ih =>
    intro other here
    by_cases last : rest = []
    · rw [last, join_singleton] at sealed
      rw [last] at here
      exact List.mem_singleton.mp here ▸ sealed
    · have front := nested part List.mem_cons_self
      rw [join_cons_of_ne_nil separator part last] at sealed
      obtain ⟨left, later⟩ := Brackets.Seals.of_append (front.append between) sealed
      rcases List.mem_cons.mp here with rfl | further
      · exact (Brackets.Seals.of_append front left).1
      · have behind : ∀ one ∈ rest, brackets.Seals [] one := fun one inside =>
          nested one (List.mem_cons_of_mem part inside)
        exact ih behind later other further

/-- Nested texts that are joined seal some characters just if each of them does. -/
theorem Brackets.seals_join_iff {separator : Text} {parts : List Text}
    (between : brackets.Seals barred separator)
    (nested : ∀ part ∈ parts, brackets.Seals [] part) :
    brackets.Seals barred (Text.join separator parts) ↔
      ∀ part ∈ parts, brackets.Seals barred part := by
  constructor
  · exact Brackets.Seals.of_join (between.mono (List.nil_subset barred)) nested
  · exact Brackets.Seals.join between

end Cuts

end SchemaBoard.Text
