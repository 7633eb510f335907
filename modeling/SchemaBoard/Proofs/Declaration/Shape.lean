import SchemaBoard.Proofs.Declaration.Cutting

set_option autoImplicit false

/-!
The shape of the blocks. The blocks of a text are what a loop makes of them that joins a block to
the one behind it as long as it needs more. Main statement: only the last block can need more, and
where two lines of a block start a declaration, what stands in front of some line between them needs
more.
-/
namespace SchemaBoard.Batch

open Text (Solid)
open Comment (docOpen)

section Loop

/-- One round at the block of this number: if a block stands behind it, it is joined to that one, or
passed. -/
def mergeRound? (blocks : List Text) (index : Nat) : Option (List Text × Nat) :=
  match blocks.drop index with
  | block :: next :: rest =>
    if needsMore block then some (blocks.take index ++ (block ++ .char '\n' :: next) :: rest, index)
    else some (blocks, index + 1)
  | _ => none

/-- Rounds from the block of this number on end with these blocks. -/
inductive MergeLoop : List Text → Nat → List Text → Prop where
  | stop {blocks : List Text} {index : Nat} (ends : mergeRound? blocks index = none) :
      MergeLoop blocks index blocks
  | round {blocks others result : List Text} {index next : Nat}
      (goesOn : mergeRound? blocks index = some (others, next))
      (later : MergeLoop others next result) : MergeLoop blocks index result

theorem mergeLoop_mergeFrom (passed : List Text) (block : Text) (blocks : List Text) :
    MergeLoop (passed ++ block :: blocks) passed.length (passed ++ mergeFrom block blocks) := by
  induction blocks generalizing passed block with
  | nil =>
    refine .stop ?_
    rw [mergeRound?, List.drop_left]
  | cons next rest ih =>
    have drop := @List.drop_left _ passed (block :: next :: rest)
    rw [mergeFrom]
    split
    · next waits =>
      refine .round ?_ (ih passed (block ++ .char '\n' :: next))
      rw [mergeRound?, drop]
      dsimp only
      rw [if_pos waits, List.take_left]
    · next ready =>
      have later := ih (passed ++ [block]) next
      rw [List.append_assoc, List.append_assoc, List.length_append] at later
      refine .round ?_ later
      rw [mergeRound?, drop]
      dsimp only
      rw [if_neg ready]
      rfl

/-- The loop ends. -/
theorem mergeLoop_merge (blocks : List Text) : MergeLoop blocks 0 (merge blocks) := by
  cases blocks with
  | nil => exact .stop rfl
  | cons block rest => exact mergeLoop_mergeFrom [] block rest

end Loop

section Merged

/-- Only the last merged block can need more. -/
theorem needsMore_of_mergeFrom {block : Text} {blocks front : List Text} {passed : Text}
    {back : List Text} (parts : mergeFrom block blocks = front ++ passed :: back)
    (some : back ≠ []) : needsMore passed = false := by
  induction blocks generalizing block front with
  | nil =>
    have length := congrArg List.length parts
    simp only [mergeFrom, List.length_append, List.length_cons, List.length_nil] at length
    have behind := List.length_pos_iff.mpr some
    omega
  | cons next rest ih =>
    rw [mergeFrom] at parts
    split at parts
    · exact ih parts
    · next ready =>
      cases front with
      | nil =>
        rw [← (List.cons_eq_cons.mp parts).1]
        simpa using ready
      | cons first front => exact ih (List.cons_eq_cons.mp parts).2

theorem needsMore_of_merge {blocks front back : List Text} {passed : Text}
    (parts : merge blocks = front ++ passed :: back) (some : back ≠ []) :
    needsMore passed = false := by
  cases blocks with
  | nil => simp [merge] at parts
  | cons block rest => exact needsMore_of_mergeFrom parts some

end Merged

def StartsAt (lines : List Text) (i : Nat) : Prop :=
  ∃ line, lines[i]? = some line ∧ startsDeclaration line = true

section Starts

variable {lines : List Text} {i : Nat}

theorem startsAt_append_left {more : List Text} (within : i < lines.length) :
    StartsAt (lines ++ more) i ↔ StartsAt lines i := by
  rw [StartsAt, List.getElem?_append_left within, StartsAt]

theorem startsAt_append_right {front : List Text} (behind : front.length ≤ i) :
    StartsAt (front ++ lines) i ↔ StartsAt lines (i - front.length) := by
  rw [StartsAt, List.getElem?_append_right behind, StartsAt]

theorem not_startsAt_of_startsNone (none : StartsNone lines) (i : Nat) : ¬StartsAt lines i := by
  rintro ⟨line, known, starts⟩
  rw [none line (List.mem_of_getElem? known)] at starts
  cases starts

/-- Where a block starts a declaration, if it does: behind its doc comment. -/
theorem eq_length_of_startsAt {doc body : List Text} {line : Text} (ahead : StartsNone doc)
    (behind : StartsNone body) (starts : StartsAt (doc ++ line :: body) i) : i = doc.length := by
  rcases Nat.lt_or_ge i doc.length with within | beyond
  · exact absurd ((startsAt_append_left within).mp starts) (not_startsAt_of_startsNone ahead i)
  · rw [startsAt_append_right beyond] at starts
    by_cases first : i - doc.length = 0
    · omega
    · have rest : StartsAt ([line] ++ body) (i - doc.length) := starts
      rw [startsAt_append_right (by rw [List.length_singleton]; omega)] at rest
      exact absurd rest (not_startsAt_of_startsNone behind _)

theorem Opens.exists_startsAt_eq {before block : List Text} (opens : Opens before block) :
    ∃ start, (∀ i, StartsAt block i → i = start) ∧
      (start = 0 ∨ ∃ line ∈ block, opensDoc line = true) := by
  cases opens with
  | head none =>
    exact ⟨0, fun i starts => absurd starts (not_startsAt_of_startsNone none i), Or.inl rfl⟩
  | @start _ doc line body parted starts none =>
    refine ⟨doc.length, fun i here => eq_length_of_startsAt parted.startsNone none here, ?_⟩
    rcases parted with ⟨first, later, blanks, rfl, looks, -⟩ | ⟨rfl, -⟩
    · exact Or.inr ⟨first, List.mem_cons_self, looks.opens⟩
    · exact Or.inl rfl

/-- A block starts a declaration at most once, and if no line of it opens a doc comment, in its
first line. -/
theorem IsCut.exists_startsAt_eq {before block : List Text} {blocks : List (List Text)}
    (cut : IsCut before blocks) (member : block ∈ blocks) :
    ∃ start, (∀ i, StartsAt block i → i = start) ∧
      (start = 0 ∨ ∃ line ∈ block, opensDoc line = true) := by
  induction cut with
  | done _ => cases member
  | dangling carried =>
    obtain rfl := List.mem_singleton.mp member
    exact ⟨0, fun i starts => absurd starts (not_startsAt_of_startsNone carried.startsNone i),
      Or.inl rfl⟩
  | next opens _ _ ih =>
    rcases List.mem_cons.mp member with rfl | later
    · exact opens.exists_startsAt_eq
    · exact ih later

end Starts

section Boundary

/-- The text ends visibly and starts a declaration at most once. -/
structure IsSingle (block : Text) : Prop where
  solid : Solid block
  once : ∀ i j, StartsAt (Text.lines block) i → StartsAt (Text.lines block) j → i = j

/-- What stands in front of some line break of the block, behind the line of the first number and
not behind the line of the second, needs more when it is trimmed. -/
def WaitsBetween (block : Text) (i j : Nat) : Prop :=
  ∃ before after, block = before ++ .char '\n' :: after ∧
    Text.lines block = Text.lines before ++ Text.lines after ∧
    i < (Text.lines before).length ∧ (Text.lines before).length ≤ j ∧
    needsMore (Text.trim before) = true

theorem Grown.solid {block : Text} (grown : Grown IsSingle block) : Solid block :=
  grown.of_closed (fun _ known => known.solid) fun _ _ => solid_append_feed

/-- Two lines that start a declaration were joined because what was in front of the second needed
more. -/
theorem Grown.exists_joint {block : Text} (grown : Grown IsSingle block) {i j : Nat} (less : i < j)
    (first : StartsAt (Text.lines block) i) (second : StartsAt (Text.lines block) j) :
    ∃ before after, block = before ++ .char '\n' :: after ∧ Solid before ∧ Solid after ∧
      i < (Text.lines before).length ∧ (Text.lines before).length ≤ j ∧
      needsMore before = true := by
  induction grown generalizing i j with
  | single known => exact absurd (known.once i j first second) (Nat.ne_of_lt less)
  | @joined block next grown waits known ih =>
    rw [grown.solid.lines_append_feed] at first second
    rcases Nat.lt_or_ge j (Text.lines block).length with inside | behind
    · -- Both lines are in the block that was there before.
      rw [startsAt_append_left inside] at second
      rw [startsAt_append_left (Nat.lt_trans less inside)] at first
      obtain ⟨before, after, rfl, left, right, lower, upper, needed⟩ := ih less first second
      refine ⟨before, after ++ .char '\n' :: next, ?_, left, ?_, lower, upper, needed⟩
      · rw [List.append_assoc, List.cons_append]
      · exact solid_append_feed right known.solid
    · rcases Nat.lt_or_ge i (Text.lines block).length with within | beyond
      · exact ⟨block, next, rfl, grown.solid, known.solid, within, behind, waits⟩
      · rw [startsAt_append_right beyond] at first
        rw [startsAt_append_right behind] at second
        have same := known.once _ _ first second
        omega

theorem Grown.waitsBetween {block : Text} (grown : Grown IsSingle block) {i j : Nat} (less : i < j)
    (first : StartsAt (Text.lines block) i) (second : StartsAt (Text.lines block) j) :
    WaitsBetween block i j := by
  obtain ⟨before, after, rfl, left, -, lower, upper, needed⟩ := grown.exists_joint less first second
  refine ⟨before, after, rfl, left.lines_append_feed after, lower, upper, ?_⟩
  rw [Text.trim_eq_self left.trimmed]
  exact needed

end Boundary

section Plain

theorem isInfix_of_afterLast? {mark text rest : Text}
    (found : Text.afterLast? mark text = some rest) : mark <:+: text := by
  induction text with
  | nil => cases found
  | cons c others ih =>
    rw [Comment.afterLast?_cons] at found
    rcases Option.or_eq_some_iff.mp found with later | ⟨-, here⟩
    · exact (ih later).trans (List.suffix_cons c others).isInfix
    · rw [Text.isPrefixOf?_eq_some_iff.mp here]
      exact (List.prefix_append mark rest).isInfix

/-- A text that opens no doc comment needs nothing more. -/
theorem needsMore_of_plain {text : Text} (plain : ¬docOpen <:+: text) :
    needsMore text = false := by
  have notLast : Text.afterLast? docOpen text = none := by
    cases found : Text.afterLast? docOpen text with
    | none => rfl
    | some rest => exact absurd (isInfix_of_afterLast? found) plain
  have notFirst : docOpen.isPrefixOf? text = none := by
    cases found : docOpen.isPrefixOf? text with
    | none => rfl
    | some rest =>
      rw [Text.isPrefixOf?_eq_some_iff.mp found] at plain
      exact absurd (List.prefix_append docOpen rest).isInfix plain
  rw [needsMore, Comment.leavesOpen, notLast, Comment.wholeDoc?, Comment.leadingDoc?, notFirst]
  rfl

theorem plain_of_mem_blockTexts {text block : Text} (plain : ¬docOpen <:+: text)
    (member : block ∈ blockTexts (Text.lines text)) : ¬docOpen <:+: block := by
  obtain ⟨lines, known, rfl⟩ := List.mem_map.mp member
  intro stands
  obtain ⟨front, back, eq⟩ := stands.trans (Text.isInfix_trim _)
  obtain ⟨above, first, last, below, rfl, -⟩ :=
    Text.exists_line_of_join_eq (by decide) (by decide) eq.symm
  have line := (of_mem_blockLines known).2 _ (List.mem_append_right above List.mem_cons_self)
  rw [List.nil_append] at line
  exact plain (List.IsInfix.trans ⟨first, last, rfl⟩ (Text.isInfix_of_mem_lines line))

end Plain

section Split

variable {text block : Text}

theorem isSingle_of_mem_blockTexts (member : block ∈ blockTexts (Text.lines text)) :
    IsSingle block := by
  refine ⟨solid_of_mem_blockTexts member, fun i j first second => ?_⟩
  obtain ⟨lines, known, rfl⟩ := List.mem_map.mp member
  obtain ⟨start, only, -⟩ := (isCut_tidyLines text).exists_startsAt_eq (List.mem_map_of_mem known)
  exact (only i first).trans (only j second).symm

theorem startsAt_eq_zero (plain : ¬docOpen <:+: text)
    (member : block ∈ blockTexts (Text.lines text)) {i : Nat}
    (starts : StartsAt (Text.lines block) i) : i = 0 := by
  have free := plain_of_mem_blockTexts plain member
  obtain ⟨lines, known, rfl⟩ := List.mem_map.mp member
  obtain ⟨start, only, first | ⟨line, here, opens⟩⟩ :=
    (isCut_tidyLines text).exists_startsAt_eq (List.mem_map_of_mem known)
  · exact (only i starts).trans first
  · obtain ⟨blanks, rest, rfl, -⟩ := exists_of_opensDoc opens
    exact absurd (List.IsInfix.trans ⟨blanks, rest, rfl⟩ (Text.isInfix_of_mem_lines here)) free

/-- If no block needs more, none is merged. -/
theorem split_of_plain (plain : ¬docOpen <:+: text) :
    split text = blockTexts (Text.lines text) := by
  have ready : ∀ block ∈ blockTexts (Text.lines text), needsMore block = false :=
    fun block member => needsMore_of_plain (plain_of_mem_blockTexts plain member)
  rw [split_eq_merge]
  cases blocks : blockTexts (Text.lines text) with
  | nil => rfl
  | cons block rest =>
    rw [blocks] at ready
    exact mergeFrom_eq (ready block List.mem_cons_self)
      fun other member => ready other (List.mem_cons_of_mem block member)

end Split

/-- The loop that merges the blocks of a text ends. Only the last of the blocks it leaves can need
more; where two lines of a block start a declaration, what stands in front of some line break
between them needs more; and in a text that opens no doc comment only the first line of a block
starts a declaration. -/
theorem split_shape (text : Text) :
    MergeLoop (blockTexts (Text.lines text)) 0 (split text) ∧
      (∀ front block back, split text = front ++ block :: back → back ≠ [] →
        needsMore block = false) ∧
      (∀ block ∈ split text, ∀ i j, i < j → StartsAt (Text.lines block) i →
        StartsAt (Text.lines block) j → WaitsBetween block i j) ∧
      (¬docOpen <:+: text → ∀ block ∈ split text, ∀ i, StartsAt (Text.lines block) i → i = 0) := by
  refine ⟨mergeLoop_merge _, fun front block back parts some => ?_,
    fun block member i j less first second => ?_, fun plain block member i starts => ?_⟩
  · rw [split_eq_merge] at parts
    exact needsMore_of_merge parts some
  · have grown :=
      grown_of_mem_merge (fun other here => isSingle_of_mem_blockTexts here) block member
    exact grown.waitsBetween less first second
  · rw [split_of_plain plain] at member
    exact startsAt_eq_zero plain member starts

/-- A comment that is left open joins the two declarations behind it. -/
theorem split_shape_open :
    needsMore "type C = A;".toText = false ∧
      WaitsBetween "type D = A;\n/** open\ntype A = string;\ntype B = number;".toText 2 3 ∧
      ∀ i, StartsAt (Text.lines "type C = A;".toText) i → i = 0 := by
  have blocks :
      split "type C = A;\ntype D = A;\n/** open\ntype A = string;\ntype B = number;".toText =
        ["type C = A;".toText,
          "type D = A;\n/** open\ntype A = string;\ntype B = number;".toText] := by
    decide +kernel
  have alone : split "type C = A;".toText = ["type C = A;".toText] := by decide +kernel
  have plain : ¬docOpen <:+: "type C = A;".toText := by decide +kernel
  obtain ⟨-, ready, joined, -⟩ :=
    split_shape "type C = A;\ntype D = A;\n/** open\ntype A = string;\ntype B = number;".toText
  refine ⟨ready [] _ _ blocks (List.cons_ne_nil _ _), joined _ ?_ 2 3 (by omega)
    ⟨"type A = string;".toText, by decide +kernel, by decide +kernel⟩
    ⟨"type B = number;".toText, by decide +kernel, by decide +kernel⟩, fun i => ?_⟩
  · rw [blocks]
    exact List.mem_cons_of_mem _ List.mem_cons_self
  · refine (split_shape "type C = A;".toText).2.2.2 plain _ ?_ i
    rw [alone]
    exact List.mem_cons_self

end SchemaBoard.Batch
