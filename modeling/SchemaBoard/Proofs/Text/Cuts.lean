import SchemaBoard.Proofs.Text.Counting
import SchemaBoard.Proofs.Text.Splitting

set_option autoImplicit false

/-!
The positions at which a text is cut. Main statement: a text falls into the stretches between the
marks behind which nothing that ends there has more openers than closers, and texts without such a
mark come back from the text that joins them.
-/
namespace SchemaBoard.Text

/-- A mark stands at the position, and no text that ends with it has more openers than closers. -/
structure Brackets.IsCut (brackets : Brackets) (mark : CodePoint) (text : Text) (position : Nat) :
    Prop where
  marked : text[position]? = some mark
  level : ∀ tail, tail <:+ text.take (position + 1) → brackets.opened tail ≤ brackets.closed tail

instance (brackets : Brackets) (mark : CodePoint) (text : Text) (position : Nat) :
    Decidable (brackets.IsCut mark text position) :=
  decidable_of_iff (text[position]? = some mark ∧
      ∀ tail ∈ (text.take (position + 1)).tails, brackets.opened tail ≤ brackets.closed tail)
    ⟨fun both => ⟨both.1, fun tail ends => both.2 tail ((List.mem_tails _ _).mpr ends)⟩,
      fun cut => ⟨cut.marked, fun tail ends => cut.level tail ((List.mem_tails _ _).mp ends)⟩⟩

/-- The positions at which a text is cut, from the left. -/
def Brackets.cuts (brackets : Brackets) (mark : CodePoint) (text : Text) : List Nat :=
  (List.range text.length).filter fun position => brackets.IsCut mark text position

/-- What stands between neighbouring positions, from `start` on: what goes up to each position, and
what is behind the last one. -/
def stretches (text : Text) : Nat → List Nat → List Text
  | start, [] => [text.drop start]
  | start, position :: later =>
    (text.take position).drop start :: stretches text (position + 1) later

section Stretches

variable {text : Text} {start : Nat} {positions : List Nat}

theorem stretches_ne_nil (text : Text) (start : Nat) (positions : List Nat) :
    stretches text start positions ≠ [] := by
  cases positions <;> simp [stretches]

/-- A further character belongs to the last stretch. -/
theorem stretches_concat (c : CodePoint) (inside : ∀ position ∈ positions, position < text.length)
    (within : start ≤ text.length) :
    stretches (text ++ [c]) start positions = glue (stretches text start positions) [[c]] := by
  induction positions generalizing start with
  | nil => simp [stretches, glue, List.drop_append_of_le_length within]
  | cons position later ih =>
    have here := inside position List.mem_cons_self
    have behind := ih (fun other member => inside other (List.mem_cons_of_mem position member)) here
    rw [stretches, stretches, behind, glue_cons (stretches_ne_nil _ _ _),
      List.take_append_of_le_length (by omega)]

/-- A cut at a further character ends the last stretch. -/
theorem stretches_concat_cut (c : CodePoint)
    (inside : ∀ position ∈ positions, position < text.length) (within : start ≤ text.length) :
    stretches (text ++ [c]) start (positions ++ [text.length]) =
      stretches text start positions ++ [[]] := by
  induction positions generalizing start with
  | nil => simp [stretches]
  | cons position later ih =>
    have here := inside position List.mem_cons_self
    have behind := ih (fun other member => inside other (List.mem_cons_of_mem position member)) here
    rw [List.cons_append, stretches, stretches, behind, List.take_append_of_le_length (by omega)]
    rfl

end Stretches

section Cuts

variable {brackets : Brackets} {mark : CodePoint} {text : Text} {position : Nat}

theorem isCut_iff_depth (apart : brackets.Apart) :
    brackets.IsCut mark text position ↔
      text[position]? = some mark ∧ brackets.depthBehind 0 (text.take (position + 1)) = 0 := by
  rw [← Nat.le_zero, depthBehind_le_iff apart]
  constructor
  · intro cut
    exact ⟨cut.marked, cut.level⟩
  · intro both
    exact ⟨both.1, both.2⟩

/-- What follows a position does not matter for a cut there. -/
theorem isCut_append_iff (rest : Text) (inside : position < text.length) :
    brackets.IsCut mark (text ++ rest) position ↔ brackets.IsCut mark text position := by
  have start : (text ++ rest).take (position + 1) = text.take (position + 1) :=
    List.take_append_of_le_length inside
  have here : (text ++ rest)[position]? = text[position]? := List.getElem?_append_left inside
  constructor
  · intro cut
    exact ⟨here ▸ cut.marked, start ▸ cut.level⟩
  · intro cut
    exact ⟨here ▸ cut.marked, start ▸ cut.level⟩

theorem lt_length_of_mem_cuts (member : position ∈ brackets.cuts mark text) :
    position < text.length :=
  List.mem_range.mp (List.mem_filter.mp member).1

theorem isCut_length_iff (apart : brackets.Apart) (c : CodePoint) :
    brackets.IsCut mark (text ++ [c]) text.length ↔
      c = mark ∧ brackets.depthAfter (brackets.depthBehind 0 text) c = 0 := by
  have whole : (text ++ [c]).take (text.length + 1) = text ++ [c] :=
    List.take_of_length_le (by simp)
  rw [isCut_iff_depth apart, whole, depthBehind_concat, List.getElem?_concat_length,
    Option.some.injEq]

/-- A further character leaves the cuts where they are and may be one itself. -/
theorem cuts_concat (brackets : Brackets) (mark : CodePoint) (text : Text) (c : CodePoint) :
    brackets.cuts mark (text ++ [c]) =
      brackets.cuts mark text ++
        if brackets.IsCut mark (text ++ [c]) text.length then [text.length] else [] := by
  have before : (List.range text.length).filter
      (fun position => brackets.IsCut mark (text ++ [c]) position) = brackets.cuts mark text := by
    apply List.filter_congr
    intro position member
    rw [decide_eq_decide]
    exact isCut_append_iff [c] (List.mem_range.mp member)
  rw [Brackets.cuts, List.length_append, List.length_singleton, List.range_succ,
    List.filter_append, before]
  by_cases cut : brackets.IsCut mark (text ++ [c]) text.length
  · simp [cut]
  · simp [cut]

/-- A further character starts a piece behind it if it is cut, else it goes on with the last. -/
theorem pieces_concat (brackets : Brackets) (mark : CodePoint) (text : Text) (c : CodePoint) :
    pieces brackets [mark] 0 (text ++ [c]) =
      if c = mark ∧ brackets.depthAfter (brackets.depthBehind 0 text) c = 0 then
        pieces brackets [mark] 0 text ++ [[]]
      else glue (pieces brackets [mark] 0 text) [[c]] := by
  rw [pieces_append]
  by_cases cut : c = mark ∧ brackets.depthAfter (brackets.depthBehind 0 text) c = 0
  · rw [if_pos cut, pieces_cons_of_cut _ _ ⟨congrArg (fun d => [d]) cut.1, cut.2⟩]
    obtain ⟨front, last, eq⟩ :=
      List.eq_nil_or_concat' (pieces brackets [mark] 0 text) |>.resolve_left (pieces_ne_nil _ _ _ _)
    rw [eq, glue_concat_cons, List.append_nil, List.append_assoc]
    rfl
  · rw [if_neg cut, pieces_cons_of_not_cut]
    · rfl
    · intro both
      exact cut ⟨List.head_eq_of_cons_eq both.1, both.2⟩

/-- A text falls into the stretches between its cuts. -/
theorem pieces_eq_stretches (apart : brackets.Apart) (mark : CodePoint) (text : Text) :
    pieces brackets [mark] 0 text = stretches text 0 (brackets.cuts mark text) := by
  induction text using List.reverseRecOn with
  | nil => rfl
  | append_singleton text c ih =>
    have inside : ∀ position ∈ brackets.cuts mark text, position < text.length :=
      fun position member => lt_length_of_mem_cuts member
    rw [pieces_concat, cuts_concat, ih]
    by_cases cut : brackets.IsCut mark (text ++ [c]) text.length
    · rw [if_pos cut, if_pos ((isCut_length_iff apart c).mp cut),
        stretches_concat_cut c inside (Nat.zero_le _)]
    · rw [if_neg cut, if_neg fun both => cut ((isCut_length_iff apart c).mpr both),
        List.append_nil, stretches_concat c inside (Nat.zero_le _)]

/-- The parts of a text are its trimmed stretches; just a blank last one is left out. -/
theorem splitOutside_eq_stretches (apart : brackets.Apart) (mark : CodePoint) (text : Text) :
    ∃ front last, stretches text 0 (brackets.cuts mark text) = front ++ [last] ∧
      splitOutside brackets [mark] text =
        front.map trim ++ if allBlank last then [] else [trim last] := by
  obtain ⟨front, last, eq⟩ := List.eq_nil_or_concat' (stretches text 0 (brackets.cuts mark text))
    |>.resolve_left (stretches_ne_nil _ _ _)
  refine ⟨front, last, eq, ?_⟩
  rw [splitOutside, pieces_eq_stretches apart, eq, List.map_append, List.map_singleton,
    dropEmptyLast]
  by_cases blank : allBlank last = true
  · have empty : trim last = [] := trim_eq_nil_iff.mpr blank
    simp [blank, empty]
  · have visible : trim last ≠ [] := fun empty => blank (trim_eq_nil_iff.mp empty)
    simp [blank, visible]

theorem cuts_eq_nil_iff :
    brackets.cuts mark text = [] ↔ ∀ position, ¬brackets.IsCut mark text position := by
  rw [Brackets.cuts, List.filter_eq_nil_iff]
  constructor
  · intro uncut position cut
    have inside : position < text.length := (List.getElem?_eq_some_iff.mp cut.marked).1
    exact uncut position (List.mem_range.mpr inside) (decide_eq_true cut)
  · intro uncut position _ cut
    exact uncut position (of_decide_eq_true cut)

end Cuts

/-- Trimmed texts that the mark does not cut. Nothing at the end of one has more openers than
closers, except of the last one, which is not empty. -/
structure Brackets.AreSeparate (brackets : Brackets) (mark : CodePoint) (front : List Text)
    (last : Text) : Prop where
  trimmed : ∀ part ∈ front ++ [last], trim part = part
  uncut : ∀ part ∈ front ++ [last], ∀ position, ¬brackets.IsCut mark part position
  level : ∀ part ∈ front, ∀ tail, tail <:+ part → brackets.opened tail ≤ brackets.closed tail
  ends : last ≠ []

instance (brackets : Brackets) (mark : CodePoint) (front : List Text) (last : Text) :
    Decidable (brackets.AreSeparate mark front last) :=
  decidable_of_iff ((∀ part ∈ front ++ [last], trim part = part) ∧
      (∀ part ∈ front ++ [last], brackets.cuts mark part = []) ∧
      (∀ part ∈ front, ∀ tail ∈ part.tails, brackets.opened tail ≤ brackets.closed tail) ∧
      last ≠ [])
    ⟨fun ⟨trimmed, uncut, level, ends⟩ =>
        ⟨trimmed, fun part member => cuts_eq_nil_iff.mp (uncut part member),
          fun part member tail suffix => level part member tail ((List.mem_tails _ _).mpr suffix),
          ends⟩,
      fun ⟨trimmed, uncut, level, ends⟩ =>
        ⟨trimmed, fun part member => cuts_eq_nil_iff.mpr (uncut part member),
          fun part member tail suffix => level part member tail ((List.mem_tails _ _).mp suffix),
          ends⟩⟩

section Separate

variable {brackets : Brackets} {mark : CodePoint} {front : List Text} {last : Text}

theorem Brackets.AreSeparate.row (apart : brackets.Apart)
    (separate : brackets.AreSeparate mark front last) : Row brackets mark (front ++ [last]) where
  whole := by
    intro part member
    rw [pieces_eq_stretches apart, cuts_eq_nil_iff.mpr (separate.uncut part member)]
    rfl
  closed := by
    have closed : ∀ part ∈ front, brackets.depthBehind 0 part = 0 := by
      intro part member
      apply Nat.le_zero.mp
      exact (depthBehind_le_iff apart).mpr (separate.level part member)
    apply List.pairwise_append.mpr
    refine ⟨?_, List.pairwise_singleton _ _, fun part member _ _ => closed part member⟩
    exact List.pairwise_of_forall_mem_list fun part member _ _ => closed part member

/-- Separate texts come back from the text that joins them. -/
theorem splitOutside_join_of_separate (neutral : brackets.Neutral mark) (apart : brackets.Apart)
    (separate : brackets.AreSeparate mark front last) :
    splitOutside brackets [mark] (join [' ', mark, ' '] (front ++ [last])) = front ++ [last] := by
  have blank : allBlank [' '] = true := by decide
  have trimmed : ∀ part ∈ front ++ [last], Trimmed part :=
    fun part member => trimmed_of_trim_eq_self (separate.trimmed part member)
  have pieces := (separate.row apart).map_trim_pieces_join neutral blank blank (by simp) trimmed
  rw [splitOutside]
  apply (congrArg dropEmptyLast pieces).trans
  apply dropEmptyLast_eq_self
  rw [List.getLast?_concat]
  intro empty
  exact separate.ends (Option.some.inj empty)

theorem visible_of_used (used : brackets ∈ [Brackets.plain, Brackets.withBraces]) :
    brackets.Apart ∧ ∀ c ∈ brackets.openers ++ brackets.closers, isBlank c = false := by
  simp only [List.mem_cons, List.not_mem_nil, or_false] at used
  rcases used with rfl | rfl
  · decide
  · decide

/-- With the brackets of types or of members, the parts of a text are its trimmed stretches between
the cuts, of which just a blank last one is left out. Separate texts are the parts of the text in
which a mark that is no bracket joins them. -/
theorem splitOutside_at_cuts (used : brackets ∈ [Brackets.plain, Brackets.withBraces])
    (mark : CodePoint) :
    (∀ text, ∃ front last, stretches text 0 (brackets.cuts mark text) = front ++ [last] ∧
        splitOutside brackets [mark] text =
          front.map trim ++ if allBlank last then [] else [trim last]) ∧
      (isBlank mark = false → mark ∉ brackets.openers → mark ∉ brackets.closers →
        ∀ front last, brackets.AreSeparate mark front last →
          splitOutside brackets [mark] (join [' ', mark, ' '] (front ++ [last])) =
            front ++ [last]) := by
  obtain ⟨apart, visible⟩ := visible_of_used used
  constructor
  · intro text
    exact splitOutside_eq_stretches apart mark text
  · intro seen noOpener noCloser front last separate
    have neutral : brackets.Neutral mark := by
      refine ⟨seen, fun c member => ⟨visible c member, ?_⟩⟩
      rintro rfl
      rcases List.mem_append.mp member with opens | closes
      · exact noOpener opens
      · exact noCloser closes
    exact splitOutside_join_of_separate neutral apart separate

/-- A stray closer does not hide the mark behind it. The last of separate texts may leave a bracket
open, and others may be empty. -/
theorem splitOutside_at_cuts_stray :
    Brackets.plain ∈ [Brackets.plain, Brackets.withBraces] ∧
      splitOutside Brackets.plain ['|'] "A>> | <B|C>| ".toText = ["A>>".toText, "<B|C>".toText] ∧
      (isBlank '|' = false ∧ .char '|' ∉ Brackets.plain.openers ∧
        .char '|' ∉ Brackets.plain.closers ∧
        Brackets.plain.AreSeparate '|' ["A>>".toText, [], "(B|C)".toText] "D<|E".toText) ∧
      splitOutside Brackets.plain ['|'] "A>> |  | (B|C) | D<|E".toText =
        ["A>>".toText, [], "(B|C)".toText, "D<|E".toText] := by
  have used : Brackets.plain ∈ [Brackets.plain, Brackets.withBraces] := by simp
  have separate : Brackets.plain.AreSeparate '|' ["A>>".toText, [], "(B|C)".toText]
      "D<|E".toText := by decide
  obtain ⟨between, joined⟩ := splitOutside_at_cuts used '|'
  refine ⟨used, ?_, ⟨by decide, by decide, by decide, separate⟩, ?_⟩
  · obtain ⟨front, last, eq, parts⟩ := between "A>> | <B|C>| ".toText
    have known : ["A>> ".toText, " <B|C>".toText] ++ [" ".toText] = front ++ [last] := by
      rw [← eq]
      decide
    obtain ⟨rfl, tail⟩ := List.append_inj' known rfl
    obtain rfl := List.head_eq_of_cons_eq tail
    rw [parts]
    decide
  · exact joined (by decide) (by decide) (by decide) _ _ separate

end Separate

end SchemaBoard.Text
