import SchemaBoard.Proofs.Declaration.Conservation
import SchemaBoard.Proofs.Declaration.Margins
import SchemaBoard.Proofs.Declaration.Neighbours

set_option autoImplicit false

/-!
What a cut of lines into blocks is. Every block but a first one begins with a doc comment that was
taken from behind the block in front of it, and a line that starts a declaration. Main statements:
lines are cut in this way, lines that are cut in this way are cut there and nowhere else, and
trimming the blocks leaves a cut.
-/
namespace SchemaBoard.Batch

open Text (SingleLine)

def StartsNone (lines : List Text) : Prop := ∀ line ∈ lines, startsDeclaration line = false

/-- The lines do not end with a doc comment that would be carried off. -/
def KeepsAll (lines : List Text) : Prop := ∀ kept doc, lines = kept ++ doc → ¬IsCarried doc

/-- What is taken from behind these lines is this doc comment, or nothing. -/
def Parted (kept doc : List Text) : Prop := IsCarried doc ∨ doc = [] ∧ KeepsAll kept

/-- The block begins a cut, or it begins with what was taken from behind the lines in front of it
and a line that starts a declaration. -/
inductive Opens : List Text → List Text → Prop where
  | head {block : List Text} (none : StartsNone block) : Opens [] block
  | start {before doc : List Text} {line : Text} {body : List Text} (parted : Parted before doc)
      (starts : startsDeclaration line = true) (none : StartsNone body) :
      Opens before (doc ++ line :: body)

/-- The blocks behind these lines, where each one opens behind the one in front of it. The last
block may be a doc comment alone. -/
inductive IsCut : List Text → List (List Text) → Prop where
  | done {before : List Text} (keeps : KeepsAll before) : IsCut before []
  | dangling {before doc : List Text} (carried : IsCarried doc) : IsCut before [doc]
  | next {before block : List Text} {rest : List (List Text)} (opens : Opens before block)
      (some : hasText block = true) (behind : IsCut block rest) : IsCut before (block :: rest)

section Parted

variable {kept doc lines : List Text}

theorem IsCarried.ne_nil (carried : IsCarried doc) : doc ≠ [] := by
  obtain ⟨first, later, blanks, rfl, -⟩ := carried
  exact List.cons_ne_nil _ _

theorem startsNone_nil : StartsNone [] := by
  intro line here
  cases here

theorem keepsAll_nil : KeepsAll [] := fun _ _ eq carried =>
  carried.ne_nil (List.append_eq_nil_iff.mp eq.symm).2

/-- The line that opens a doc comment can be seen. -/
theorem LooksLikeDoc.first_visible {first : Text} {later : List Text}
    (looks : LooksLikeDoc first later) : Text.allBlank first = false := by
  obtain ⟨margin, rest, rfl, -⟩ := exists_of_opensDoc looks.opens
  have shown : Text.allBlank Comment.docOpen = false := by decide
  rw [Text.allBlank_append, Text.allBlank_append, shown, Bool.and_false, Bool.false_and]

theorem hasText_of_isCarried (carried : IsCarried doc) : hasText doc = true := by
  obtain ⟨first, later, blanks, rfl, looks, -, -⟩ := carried
  rw [hasText_cons, looks.first_visible]
  rfl

/-- A line that starts a declaration can be seen. -/
theorem allBlank_of_startsDeclaration {line : Text} (starts : startsDeclaration line = true) :
    Text.allBlank line = false := by
  cases blank : Text.allBlank line with
  | false => rfl
  | true =>
    rw [← startsDeclaration_trim, Text.trim_blank blank] at starts
    cases starts

theorem startsDeclaration_of_blank {line : Text} (blank : Text.allBlank line = true) :
    startsDeclaration line = false := by
  rw [← startsDeclaration_trim, Text.trim_blank blank]
  rfl

/-- No line of a doc comment starts a declaration. -/
theorem IsCarried.startsNone (carried : IsCarried doc) : StartsNone doc := by
  obtain ⟨first, later, blanks, rfl, looks, blank, -⟩ := carried
  intro line here
  rcases List.mem_cons.mp here with rfl | behind
  · obtain ⟨margin, rest, rfl, space⟩ := exists_of_opensDoc looks.opens
    exact startsDeclaration_eq_false (trimStart_mark space (by decide) rest) (by decide)
  · rcases List.mem_append.mp behind with star | empty
    · obtain ⟨margin, _, rest, rfl, space, rfl⟩ := isStarLine_iff.mp (looks.stars line star)
      exact startsDeclaration_eq_false (trimStart_mark space (by decide) rest) (by decide)
    · exact startsDeclaration_of_blank (hasText_eq_false_iff_allBlank.mp blank line empty)

theorem Parted.startsNone (parted : Parted kept doc) : StartsNone doc := by
  rcases parted with carried | ⟨rfl, -⟩
  · exact carried.startsNone
  · exact startsNone_nil

/-- What is taken from the end of lines is what they are parted into. -/
theorem takeTrailingDoc_eq_iff :
    takeTrailingDoc lines = (kept, doc) ↔ lines = kept ++ doc ∧ Parted kept doc := by
  constructor
  · intro taken
    have whole := takeTrailingDoc_append lines
    rw [taken] at whole
    refine ⟨whole.symm, ?_⟩
    rcases takeTrailingDoc_cases lines with nothing | carried
    · obtain ⟨rfl, rfl⟩ := Prod.mk.inj (nothing.symm.trans taken)
      refine Or.inr ⟨rfl, fun front behind eq carried => carried.ne_nil ?_⟩
      rw [eq, takeTrailingDoc_append_of_isCarried front carried] at taken
      exact (Prod.mk.inj taken).2
    · rw [taken] at carried
      exact Or.inl carried
  · rintro ⟨rfl, carried | ⟨rfl, keeps⟩⟩
    · exact takeTrailingDoc_append_of_isCarried kept carried
    · rw [List.append_nil]
      rcases takeTrailingDoc_cases kept with nothing | carried
      · exact nothing
      · exact absurd carried (keeps _ _ (takeTrailingDoc_append kept).symm)

theorem exists_parted (lines : List Text) :
    ∃ kept doc, takeTrailingDoc lines = (kept, doc) ∧ lines = kept ++ doc ∧ Parted kept doc :=
  ⟨_, _, rfl, takeTrailingDoc_eq_iff.mp rfl⟩

end Parted

section Opens

variable {before block current : List Text}

/-- Lines go on a block if they start no declaration. -/
theorem Opens.append (opens : Opens before block) {more : List Text} (none : StartsNone more) :
    Opens before (block ++ more) := by
  cases opens with
  | head free => exact .head fun line here => (List.mem_append.mp here).elim (free line) (none line)
  | start parted starts free =>
    rw [List.append_assoc, List.cons_append]
    exact .start parted starts fun line here =>
      (List.mem_append.mp here).elim (free line) (none line)

/-- Lines can be taken off a block if they start no declaration. -/
theorem Opens.of_append {more : List Text} (opens : Opens before (block ++ more))
    (none : StartsNone more) : Opens before block := by
  generalize eq : block ++ more = whole at opens
  cases opens with
  | head free =>
    exact .head fun line here => free line (eq ▸ List.mem_append_left more here)
  | start parted starts free =>
    rcases List.append_eq_append_iff.mp eq with ⟨rest, -, back⟩ | ⟨rest, rfl, back⟩
    · have inside := none _ (back ▸ List.mem_append_right rest List.mem_cons_self)
      rw [starts] at inside
      cases inside
    · cases rest with
      | nil =>
        rw [List.nil_append] at back
        have inside := none _ (back ▸ List.mem_cons_self)
        rw [starts] at inside
        cases inside
      | cons line rest =>
        obtain ⟨rfl, rfl⟩ := List.cons_eq_cons.mp back
        exact .start parted starts fun other here => free other (List.mem_append_left more here)

/-- Only a block that begins the cut can be blank. -/
theorem Opens.eq_nil (opens : Opens before block) (blank : hasText block = false) :
    before = [] := by
  cases opens with
  | head _ => rfl
  | start _ starts _ =>
    rw [hasText_append, hasText_cons, allBlank_of_startsDeclaration starts] at blank
    simp at blank

theorem Parted.isCut {doc : List Text} (parted : Parted before doc) :
    IsCut before ([doc].filter hasText) := by
  rcases parted with carried | ⟨rfl, keeps⟩
  · rw [List.filter_cons_of_pos (hasText_of_isCarried carried)]
    exact .dangling carried
  · exact .done keeps

/-- A block that is complete is left out if it is blank. Only the first one can be, and what was
taken from behind it may be taken from behind nothing. -/
theorem Opens.isCut {doc : List Text} {rest : List (List Text)} (opens : Opens before block)
    (parted : Parted block doc) (cut : ∀ front, Parted front doc → IsCut front rest) :
    IsCut before ([block].filter hasText ++ rest) := by
  cases some : hasText block with
  | true =>
    rw [List.filter_cons_of_pos some]
    exact .next opens some (cut block parted)
  | false =>
    obtain rfl := opens.eq_nil some
    rw [List.filter_cons_of_neg (by simp [some])]
    exact cut [] (parted.imp_right fun nothing => ⟨nothing.1, keepsAll_nil⟩)

/-- Lines are cut into blocks of which each one opens behind the one in front of it. -/
theorem isCut_blockLines (opens : Opens before current) (lines : List Text) :
    IsCut before (blockLines current lines) := by
  induction lines generalizing before current with
  | nil =>
    obtain ⟨body, doc, taken, rfl, parted⟩ := exists_parted current
    have parts : [body, doc].filter hasText = [body].filter hasText ++ [doc].filter hasText :=
      List.filter_append [body] [doc]
    rw [blockLines, taken]
    dsimp only
    rw [parts]
    exact (opens.of_append parted.startsNone).isCut parted fun _ behind => behind.isCut
  | cons line lines ih =>
    rw [blockLines]
    split
    · next cut =>
      obtain ⟨starts, -⟩ := Bool.and_eq_true_iff.mp cut
      obtain ⟨body, doc, taken, rfl, parted⟩ := exists_parted current
      rw [taken]
      exact (opens.of_append parted.startsNone).isCut parted fun _ behind =>
        ih (.start behind starts startsNone_nil)
    · next grows =>
      refine ih ?_
      cases starts : startsDeclaration line with
      | false =>
        exact opens.append fun other here => List.mem_singleton.mp here ▸ starts
      | true =>
        obtain rfl : current = [] := by simpa [starts] using grows
        obtain rfl := opens.eq_nil rfl
        exact .start (Or.inr ⟨rfl, keepsAll_nil⟩) starts startsNone_nil

/-- Lines that are cut in this way are cut there and nowhere else. -/
theorem IsCut.blockLines_flatten {blocks : List (List Text)} (cut : IsCut before blocks) :
    blockLines before blocks.flatten = [before].filter hasText ++ blocks := by
  induction cut with
  | @done before keeps =>
    have taken := takeTrailingDoc_eq_iff.mpr ⟨(List.append_nil before).symm, Or.inr ⟨rfl, keeps⟩⟩
    rw [List.flatten_nil, blockLines, taken]
    exact List.filter_append [before] [[]]
  | @dangling before doc carried =>
    have taken := takeTrailingDoc_append_of_isCarried before carried
    rw [List.flatten_singleton, ← List.append_nil doc, blockLines_append doc carried.startsNone,
      blockLines, List.append_nil, taken]
    have shown : [doc].filter hasText = [doc] :=
      List.filter_cons_of_pos (hasText_of_isCarried carried)
    exact (List.filter_append [before] [doc]).trans (congrArg (_ ++ ·) shown)
  | @next before block rest opens some behind ih =>
    rw [List.filter_cons_of_pos some] at ih
    cases opens with
    | head none =>
      rw [List.flatten_cons, blockLines_append block none, List.nil_append, ih]
      rfl
    | @start _ doc line body parted starts none =>
      have taken := takeTrailingDoc_eq_iff.mpr ⟨rfl, parted⟩
      have whole : blockLines (doc ++ [line]) (body ++ rest.flatten) =
          (doc ++ line :: body) :: rest := by
        rw [blockLines_append body none, List.append_assoc, List.singleton_append, ih]
        rfl
      rw [List.flatten_cons, List.append_assoc, List.cons_append,
        blockLines_append doc parted.startsNone, blockLines, starts, Bool.true_and]
      by_cases empty : before ++ doc = []
      · obtain ⟨rfl, rfl⟩ := List.append_eq_nil_iff.mp empty
        exact whole
      · have nonempty : (before ++ doc).isEmpty = false := by simpa using empty
        rw [nonempty, Bool.not_false, if_pos rfl, taken]
        exact congrArg (_ ++ ·) whole

end Opens

section Tidy

variable {before block doc lines other : List Text}

theorem StartsNone.of_map_trim_eq (none : StartsNone lines)
    (same : lines.map Text.trim = other.map Text.trim) : StartsNone other := by
  intro line here
  have known : Text.trim line ∈ lines.map Text.trim := same ▸ List.mem_map_of_mem here
  obtain ⟨first, inside, eq⟩ := List.mem_map.mp known
  rw [← startsDeclaration_trim, ← eq, startsDeclaration_trim]
  exact none first inside

/-- Blank lines go on a doc comment that is carried. -/
theorem IsCarried.append_blanks (carried : IsCarried doc) {blanks : List Text}
    (blank : hasText blanks = false) : IsCarried (doc ++ blanks) := by
  obtain ⟨first, later, others, rfl, looks, other, free⟩ := carried
  refine ⟨first, later, others ++ blanks, ?_, looks, ?_, free⟩
  · rw [List.cons_append, List.append_assoc]
  · rw [hasText_append, other, blank]
    rfl

/-- A doc comment that is carried is bounded but for the blank lines at its end. -/
theorem IsCarried.exists_core (carried : IsCarried doc) :
    ∃ core blanks, doc = core ++ blanks ∧ IsCarried core ∧ hasText blanks = false ∧
      Bounded core := by
  obtain ⟨first, later, blanks, rfl, looks, blank, free⟩ := carried
  refine ⟨first :: later, blanks, rfl,
    ⟨first, later, [], by rw [List.append_nil], looks, rfl, free⟩, blank, fun line head => ?_,
    fun line last => ?_⟩
  · exact Option.some.inj head ▸ looks.first_visible
  · obtain ⟨final, ends, closes⟩ := looks.closes
    exact Option.some.inj (ends.symm.trans last) ▸ allBlank_of_closesDoc closes

theorem isCarried_tidyLines (carried : IsCarried doc) (single : ∀ line ∈ doc, SingleLine line) :
    IsCarried (tidyLines doc) := by
  obtain ⟨core, blanks, rfl, inner, blank, bounded⟩ := carried.exists_core
  have same := @map_trim_tidyLines [] core blanks rfl blank bounded
    fun line here => single line (List.mem_append_left _ here)
  exact inner.of_map_trim_eq same.symm

/-- The lines of a trimmed block are told from the block by blanks around them. -/
theorem exists_tidyLines (single : ∀ line ∈ block, SingleLine line) :
    ∃ front core back, block = front ++ core ++ back ∧ hasText front = false ∧
      hasText back = false ∧ (tidyLines block).map Text.trim = core.map Text.trim := by
  obtain ⟨front, core, back, rfl, blank, behind, bounded⟩ := exists_bounded block
  exact ⟨front, core, back, rfl, blank, behind, map_trim_tidyLines blank behind bounded
    fun line here => single line (List.mem_append_left _ (List.mem_append_right _ here))⟩

theorem keepsAll_tidyLines (keeps : KeepsAll block) (single : ∀ line ∈ block, SingleLine line) :
    KeepsAll (tidyLines block) := by
  obtain ⟨front, core, back, rfl, blank, behind, same⟩ := exists_tidyLines single
  intro kept doc eq carried
  rw [eq, List.map_append] at same
  obtain ⟨rest, last, rfl, -, trimmed⟩ := List.map_eq_append_iff.mp same.symm
  refine keeps (front ++ rest) (last ++ back) ?_
    ((carried.of_map_trim_eq trimmed.symm).append_blanks behind)
  simp only [List.append_assoc]

theorem startsNone_tidyLines (none : StartsNone block) (single : ∀ line ∈ block, SingleLine line) :
    StartsNone (tidyLines block) := by
  obtain ⟨front, core, back, rfl, -, -, same⟩ := exists_tidyLines single
  have inner : StartsNone core := fun line here =>
    none line (List.mem_append_left _ (List.mem_append_right _ here))
  exact inner.of_map_trim_eq same.symm

theorem hasText_tidyLines (single : ∀ line ∈ block, SingleLine line) :
    hasText (tidyLines block) = hasText block := by
  obtain ⟨front, core, back, rfl, blank, behind, same⟩ := exists_tidyLines single
  rw [← hasText_map_trim, same, hasText_map_trim, hasText_append, hasText_append, blank, behind,
    Bool.false_or, Bool.or_false]

/-- A block that opens a declaration is bounded if its last line is not blank. -/
theorem bounded_start {line : Text} {core : List Text} (opening : IsCarried doc ∨ doc = [])
    (starts : startsDeclaration line = true)
    (visible : ∀ last, core.getLast? = some last → Text.allBlank last = false) :
    Bounded (doc ++ line :: core) := by
  have shown := allBlank_of_startsDeclaration starts
  constructor
  · intro first head
    rcases opening with ⟨opener, later, blanks, rfl, looks, -⟩ | rfl
    · exact Option.some.inj head ▸ looks.first_visible
    · exact Option.some.inj head ▸ shown
  · intro last ends
    rw [List.getLast?_append, List.getLast?_cons, Option.some_or, Option.some_inj] at ends
    cases behind : core.getLast? with
    | none =>
      rw [behind, Option.getD_none] at ends
      exact ends ▸ shown
    | some final =>
      rw [behind, Option.getD_some] at ends
      exact ends ▸ visible final behind

/-- What a block opens with stays where it is when the block is trimmed. -/
theorem exists_tidyLines_start {line : Text} {body : List Text}
    (opening : IsCarried doc ∨ doc = []) (starts : startsDeclaration line = true)
    (single : ∀ other ∈ doc ++ line :: body, SingleLine other) :
    ∃ front start rest, tidyLines (doc ++ line :: body) = front ++ start :: rest ∧
      front.map Text.trim = doc.map Text.trim ∧ startsDeclaration start = true ∧
      (StartsNone body → StartsNone rest) := by
  obtain ⟨core, blanks, rfl, blank, visible⟩ := exists_blanks_behind body
  have parts : doc ++ line :: (core ++ blanks) = [] ++ (doc ++ line :: core) ++ blanks := by
    rw [List.nil_append, List.append_assoc, List.cons_append]
  rw [parts] at single ⊢
  have same := @map_trim_tidyLines [] (doc ++ line :: core) blanks rfl blank
    (bounded_start opening starts visible)
    fun other here => single other (List.mem_append_left _ here)
  rw [List.map_append, List.map_cons] at same
  obtain ⟨front, behind, eq, trimmed, others⟩ := List.map_eq_append_iff.mp same
  obtain ⟨start, rest, rfl, first, final⟩ := List.map_eq_cons_iff.mp others
  refine ⟨front, start, rest, eq, trimmed, ?_, fun none => ?_⟩
  · rw [← startsDeclaration_trim, first, startsDeclaration_trim]
    exact starts
  · have inner : StartsNone core := fun other here => none other (List.mem_append_left _ here)
    exact inner.of_map_trim_eq final.symm

theorem opens_tidyLines (opens : Opens before block)
    (left : ∀ line ∈ before, SingleLine line) (right : ∀ line ∈ block, SingleLine line) :
    Opens (tidyLines before) (tidyLines block) := by
  cases opens with
  | head none => exact .head (startsNone_tidyLines none right)
  | @start _ doc line body parted starts none =>
    obtain ⟨front, start, rest, eq, same, starting, free⟩ :=
      exists_tidyLines_start (parted.imp_right And.left) starts right
    rw [eq]
    refine .start ?_ starting (free none)
    rcases parted with carried | ⟨rfl, keeps⟩
    · exact Or.inl (carried.of_map_trim_eq same.symm)
    · exact Or.inr ⟨List.map_eq_nil_iff.mp same, keepsAll_tidyLines keeps left⟩

/-- Trimming the blocks leaves a cut. -/
theorem IsCut.map_tidyLines {blocks : List (List Text)} (cut : IsCut before blocks)
    (left : ∀ line ∈ before, SingleLine line)
    (single : ∀ block ∈ blocks, ∀ line ∈ block, SingleLine line) :
    IsCut (tidyLines before) (blocks.map tidyLines) := by
  induction cut with
  | done keeps => exact .done (keepsAll_tidyLines keeps left)
  | dangling carried => exact .dangling (isCarried_tidyLines carried (single _ List.mem_cons_self))
  | @next before block rest opens some behind ih =>
    have here := single block List.mem_cons_self
    refine .next (opens_tidyLines opens left here) ((hasText_tidyLines here).trans some) ?_
    exact ih here fun other inside => single other (List.mem_cons_of_mem block inside)

end Tidy

section Blocks

variable {text : Text}

theorem singleLine_of_mem_blockLines {block : List Text}
    (member : block ∈ blockLines [] (Text.lines text)) : ∀ line ∈ block, SingleLine line := by
  intro line here
  have known := (of_mem_blockLines member).2 line here
  rw [List.nil_append] at known
  exact Text.singleLine_of_mem_lines known

theorem solid_of_mem_blockTexts {block : Text} (member : block ∈ blockTexts (Text.lines text)) :
    Text.Solid block := by
  obtain ⟨lines, known, rfl⟩ := List.mem_map.mp member
  exact solid_trim_join (of_mem_blockLines known).1

/-- The trimmed blocks of a text are a cut of their lines. -/
theorem isCut_tidyLines (text : Text) :
    IsCut [] ((blockLines [] (Text.lines text)).map tidyLines) :=
  (isCut_blockLines (.head startsNone_nil) _).map_tidyLines nofun
    fun _ member => singleLine_of_mem_blockLines member

end Blocks

end SchemaBoard.Batch
