import SchemaBoard.Proofs.Declaration.Trailing
import SchemaBoard.Proofs.Text.Shown

set_option autoImplicit false

/-!
Cutting a text into blocks loses, doubles and moves no line. Main statement: the blocks show, one
behind the other, the lines that the text shows, and each block starts and ends visibly.
-/
namespace SchemaBoard.Batch

open Text (Solid SingleLine shown shownLines)

theorem hasText_eq_false_iff {lines : List Text} :
    hasText lines = false ↔ shownLines lines = [] := by
  rw [Text.shownLines_eq_nil_iff, hasText_eq_false_iff_allBlank]

/-- Lines without text show nothing, so it does not matter if they are left out. -/
theorem flatMap_shownLines_filter (blocks : List (List Text)) :
    (blocks.filter hasText).flatMap shownLines = blocks.flatMap shownLines := by
  induction blocks with
  | nil => rfl
  | cons block rest ih =>
    cases some : hasText block with
    | true => rw [List.filter_cons_of_pos some, List.flatMap_cons, List.flatMap_cons, ih]
    | false =>
      rw [List.filter_cons_of_neg (by simp [some]), List.flatMap_cons,
        hasText_eq_false_iff.mp some, List.nil_append, ih]

/-- The blocks show the lines of the growing block and those behind it. -/
theorem flatMap_shownLines_blockLines (current lines : List Text) :
    (blockLines current lines).flatMap shownLines = shownLines (current ++ lines) := by
  have parts := fun block => congrArg shownLines (takeTrailingDoc_append block)
  induction lines generalizing current with
  | nil =>
    rw [blockLines, flatMap_shownLines_filter, List.append_nil, ← parts current,
      Text.shownLines_append]
    simp
  | cons line rest ih =>
    rw [blockLines]
    split
    · rw [List.flatMap_append, flatMap_shownLines_filter, ih, List.flatMap_singleton,
        Text.shownLines_append current, ← parts current]
      simp only [List.append_assoc, List.singleton_append, Text.shownLines_append]
    · rw [ih, List.append_assoc, List.singleton_append]

/-- Every block has text, and its lines are lines of the growing block or behind it. -/
theorem of_mem_blockLines {current lines block : List Text}
    (member : block ∈ blockLines current lines) :
    hasText block = true ∧ ∀ line ∈ block, line ∈ current ++ lines := by
  induction lines generalizing current with
  | nil =>
    rw [blockLines] at member
    obtain ⟨known, some⟩ := List.mem_filter.mp member
    refine ⟨some, fun line here => ?_⟩
    rw [List.append_nil, ← takeTrailingDoc_append current, List.mem_append]
    simp only [List.mem_cons, List.not_mem_nil, or_false] at known
    rcases known with rfl | rfl
    · exact Or.inl here
    · exact Or.inr here
  | cons line rest ih =>
    rw [blockLines] at member
    split at member
    · have parts := takeTrailingDoc_append current
      rcases List.mem_append.mp member with body | later
      · obtain ⟨known, some⟩ := List.mem_filter.mp body
        obtain rfl := List.mem_singleton.mp known
        refine ⟨some, fun other here => List.mem_append_left _ ?_⟩
        rw [← parts]
        exact List.mem_append_left _ here
      · obtain ⟨some, inside⟩ := ih later
        refine ⟨some, fun other here => ?_⟩
        have found := inside other here
        simp only [List.mem_append, List.mem_singleton] at found
        rcases found with (doc | rfl) | behind
        · refine List.mem_append_left _ ?_
          rw [← parts]
          exact List.mem_append_right _ doc
        · exact List.mem_append_right _ List.mem_cons_self
        · exact List.mem_append_right _ (List.mem_cons_of_mem line behind)
    · obtain ⟨some, inside⟩ := ih member
      refine ⟨some, fun other here => ?_⟩
      simpa using inside other here

theorem flatMap_shown_mergeFrom (block : Text) (blocks : List Text) :
    (mergeFrom block blocks).flatMap shown = shown block ++ blocks.flatMap shown := by
  induction blocks generalizing block with
  | nil => simp [mergeFrom]
  | cons next rest ih =>
    rw [mergeFrom]
    split
    · rw [ih, Text.shown_append_break (by decide), List.flatMap_cons, List.append_assoc]
    · rw [List.flatMap_cons, ih, List.flatMap_cons]

theorem flatMap_shown_merge (blocks : List Text) :
    (merge blocks).flatMap shown = blocks.flatMap shown := by
  cases blocks with
  | nil => rfl
  | cons block rest => exact flatMap_shown_mergeFrom block rest

/-- The text is joined from such parts, each one behind parts that together need more. -/
inductive Grown (part : Text → Prop) : Text → Prop where
  | single {block : Text} (known : part block) : Grown part block
  | joined {block next : Text} (grown : Grown part block) (waits : needsMore block = true)
      (known : part next) : Grown part (block ++ .char '\n' :: next)

theorem grown_of_mem_mergeFrom {part : Text → Prop} {block : Text} {blocks : List Text}
    (grown : Grown part block) (known : ∀ other ∈ blocks, part other) :
    ∀ merged ∈ mergeFrom block blocks, Grown part merged := by
  induction blocks generalizing block with
  | nil =>
    intro merged here
    rw [List.mem_singleton.mp here]
    exact grown
  | cons next rest ih =>
    have second := known next List.mem_cons_self
    have later := fun other member => known other (List.mem_cons_of_mem next member)
    rw [mergeFrom]
    split
    · next waits => exact ih (.joined grown waits second) later
    · intro merged here
      rcases List.mem_cons.mp here with rfl | here
      · exact grown
      · exact ih (.single second) later merged here

theorem grown_of_mem_merge {part : Text → Prop} {blocks : List Text}
    (known : ∀ block ∈ blocks, part block) : ∀ merged ∈ merge blocks, Grown part merged := by
  cases blocks with
  | nil =>
    intro merged here
    cases here
  | cons block rest =>
    exact grown_of_mem_mergeFrom (.single (known block List.mem_cons_self))
      fun other member => known other (List.mem_cons_of_mem block member)

/-- What passes on when a line feed joins two texts holds of the whole if it holds of the parts. -/
theorem Grown.of_closed {part motive : Text → Prop} {block : Text} (grown : Grown part block)
    (known : ∀ other, part other → motive other)
    (joined : ∀ first second, motive first → motive second →
      motive (first ++ .char '\n' :: second)) : motive block := by
  induction grown with
  | single here => exact known _ here
  | joined _ _ here ih => exact joined _ _ ih (known _ here)

theorem solid_append_feed {first second : Text} (left : Solid first) (right : Solid second) :
    Solid (first ++ .char '\n' :: second) := by
  simpa using left.between ['\n'] right

theorem solid_of_mem_merge {blocks : List Text} (solid : ∀ block ∈ blocks, Solid block) :
    ∀ merged ∈ merge blocks, Solid merged := fun merged member =>
  (grown_of_mem_merge solid merged member).of_closed (fun _ known => known)
    fun _ _ => solid_append_feed

/-- The trimmed text of lines with text among them. -/
theorem solid_trim_join {lines : List Text} (some : hasText lines = true) :
    Solid (Text.trim (Text.join ['\n'] lines)) := by
  refine ⟨fun empty => ?_, Text.trimmed_trim _⟩
  have blank := Text.trim_eq_nil_iff.mp empty
  simp only [hasText, List.any_eq_true] at some
  obtain ⟨line, member, visible⟩ := some
  obtain ⟨front, back, rfl⟩ := List.append_of_mem member
  have inside : Text.allBlank line = true := by
    refine List.all_eq_true.mpr fun c here => List.all_eq_true.mp blank c ?_
    exact Text.mem_join_of_mem _ member here
  rw [inside] at visible
  cases visible

/-- The blocks of a text show exactly the lines that the text shows, in order; each block starts and
ends with a visible character. -/
theorem flatMap_lines_split (text : Text) :
    shownLines ((split text).flatMap Text.lines) = shownLines (Text.lines text) ∧
      ∀ block ∈ split text, Solid block := by
  have perBlock : ∀ blocks : List Text,
      shownLines (blocks.flatMap Text.lines) = blocks.flatMap shown := by
    intro blocks
    induction blocks with
    | nil => rfl
    | cons block rest ih => simp only [List.flatMap_cons, Text.shownLines_append, ih, shown]
  have texts : ((blockLines [] (Text.lines text)).map
      fun lines => Text.trim (Text.join ['\n'] lines)).flatMap shown =
        (blockLines [] (Text.lines text)).flatMap shownLines := by
    rw [List.flatMap_map, List.flatMap_def, List.flatMap_def]
    refine congrArg List.flatten (List.map_congr_left fun lines member => ?_)
    obtain ⟨-, inside⟩ := of_mem_blockLines member
    rw [Text.shown_trim, Text.shown_join fun line here =>
      Text.singleLine_of_mem_lines (inside line here)]
  constructor
  · rw [perBlock, split, flatMap_shown_merge, texts, flatMap_shownLines_blockLines,
      List.nil_append]
  · refine solid_of_mem_merge fun block member => ?_
    obtain ⟨lines, known, rfl⟩ := List.mem_map.mp member
    exact solid_trim_join (of_mem_blockLines known).1

end SchemaBoard.Batch
