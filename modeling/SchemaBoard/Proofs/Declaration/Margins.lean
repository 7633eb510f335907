import SchemaBoard.Proofs.Declaration.Trailing

set_option autoImplicit false

/-!
Blanks around lines and blocks. Whether a line starts a declaration, or opens or closes a comment,
does not depend on the blanks around it. Main statement: the lines of a trimmed block are those of
the block, trimmed, without the blank lines around them.
-/
namespace SchemaBoard

namespace Text

/-- Behind blanks the text goes on with one of the marks. -/
def BeginsWith (marks : Text → Prop) (text : Text) : Prop :=
  ∃ blanks mark rest, text = blanks ++ mark ++ rest ∧ allBlank blanks = true ∧ marks mark

section Marks

variable {text : Text}

/-- Blanks around a text do not change which mark it begins with. -/
theorem beginsWith_trim_iff {marks : Text → Prop} (solid : ∀ mark, marks mark → Solid mark) :
    BeginsWith marks (trim text) ↔ BeginsWith marks text := by
  constructor
  · rintro ⟨blanks, mark, rest, eq, blank, known⟩
    obtain ⟨left, right, whole, padding, -⟩ := exists_padding text
    refine ⟨left ++ blanks, mark, rest ++ right, ?_, ?_, known⟩
    · rw [whole, eq]
      simp only [List.append_assoc]
    · rw [allBlank_append, padding, blank, Bool.and_true]
  · rintro ⟨blanks, mark, rest, rfl, blank, known⟩
    refine ⟨[], mark, trimEnd rest, ?_, rfl, known⟩
    rw [trim_append_mark (solid mark known), trimStart, dropWhile_eq_nil_iff.mpr blank]

end Marks

end Text

namespace Batch

open Text (BeginsWith Lacks Solid)
open Comment (docOpen blockClose)

/-- The marks that start a declaration: a keyword, perhaps behind `export`, and the first character
of a name. -/
def IsOpening (mark : Text) : Prop :=
  ∃ word gap c, (word = "interface".toText ∨ word = "type".toText) ∧
    Text.allBlank gap = true ∧ gap ≠ [] ∧ Text.isIdentifierStart c = true ∧
    (mark = word ++ gap ++ [c] ∨
      ∃ blanks, Text.allBlank blanks = true ∧ blanks ≠ [] ∧
        mark = "export".toText ++ blanks ++ (word ++ gap ++ [c]))

section Lines

variable {line : Text}

theorem trimStart_mark {blanks mark : Text} (blank : Text.allBlank blanks = true)
    (solid : Solid mark) (rest : Text) :
    Text.trimStart (blanks ++ mark ++ rest) = mark ++ rest := by
  rw [List.append_assoc, Text.trimStart_append_blank blank, solid.trimStart_append]

/-- Behind a word and the blanks behind it stands the text that can be seen. -/
theorem afterWord?_mark (word : Text) {gap mark : Text} (blank : Text.allBlank gap = true)
    (some : gap ≠ []) (solid : Solid mark) (rest : Text) :
    Text.afterWord? word (word ++ gap ++ mark ++ rest) = Option.some (mark ++ rest) := by
  obtain ⟨d, others, rfl⟩ := List.exists_cons_of_ne_nil some
  rw [Text.allBlank, List.all_cons, Bool.and_eq_true] at blank
  rw [List.append_assoc word, List.append_assoc word, List.cons_append, List.cons_append,
    Text.afterWord?_append _ _ blank.1, trimStart_mark blank.2 solid]

theorem opensDoc_iff : opensDoc line = true ↔ BeginsWith (· = docOpen) line := by
  constructor
  · intro opens
    obtain ⟨blanks, rest, eq, blank⟩ := exists_of_opensDoc opens
    exact ⟨blanks, docOpen, rest, eq, blank, rfl⟩
  · rintro ⟨blanks, _, rest, rfl, blank, rfl⟩
    rw [opensDoc, trimStart_mark blank (by decide)]
    exact List.isPrefixOf_iff_prefix.mpr (List.prefix_append _ _)

theorem isStarLine_iff : isStarLine line = true ↔ BeginsWith (· = [.char '*']) line := by
  constructor
  · intro star
    rw [isStarLine, beq_iff_eq] at star
    obtain ⟨rest, eq⟩ := List.head?_eq_some_iff.mp star
    refine ⟨line.takeWhile Text.isBlank, [.char '*'], rest, ?_, Text.allBlank_takeWhile line, rfl⟩
    rw [List.append_assoc, List.singleton_append, ← eq, Text.takeWhile_append_trimStart]
  · rintro ⟨blanks, _, rest, rfl, blank, rfl⟩
    rw [isStarLine, trimStart_mark blank (by decide)]
    rfl

theorem closesDoc_iff : closesDoc line = true ↔
    ∃ inside blanks, line = inside ++ blockClose ++ blanks ∧ Text.allBlank blanks = true := by
  refine ⟨exists_of_closesDoc, ?_⟩
  rintro ⟨inside, blanks, rfl, blank⟩
  have shown : Text.allBlank (blockClose : Text) = false := by decide
  rw [closesDoc, Text.trimEnd_append_blank blank, Text.trimEnd_append_of_visible shown]
  exact List.isSuffixOf_iff_suffix.mpr (List.suffix_append _ _)

/-- An opening starts and ends with a character that can be seen. -/
theorem IsOpening.solid {mark : Text} (opening : IsOpening mark) : Solid mark := by
  obtain ⟨word, gap, c, keyword, -, -, start, form⟩ := opening
  have first : Solid word := by
    rcases keyword with rfl | rfl
    · decide
    · decide
  have visible := Text.isBlank_of_isIdentifierPart (Text.isIdentifierPart_of_start start)
  have named := first.between gap (Text.solid_of_ends rfl rfl visible visible : Solid [c])
  rcases form with rfl | ⟨blanks, -, -, rfl⟩
  · exact named
  · exact Solid.between (by decide) blanks named

/-- A keyword and the beginning of a name start a declaration, behind `export` or not. -/
theorem startsDeclaration_of_keyword {word gap : Text} {c : CodePoint}
    (keyword : word = "interface".toText ∨ word = "type".toText)
    (blank : Text.allBlank gap = true) (some : gap ≠ [])
    (start : Text.isIdentifierStart c = true) (rest : Text)
    (behind : Outline.afterExport (Text.trimStart line) = word ++ gap ++ [c] ++ rest) :
    startsDeclaration line = true := by
  have visible := Text.isBlank_of_isIdentifierPart (Text.isIdentifierPart_of_start start)
  have found := afterWord?_mark word blank some
    (Text.solid_of_ends rfl rfl visible visible : Solid [c]) rest
  rw [startsDeclaration, behind]
  rcases keyword with rfl | rfl
  · rw [found, Option.some_or]
    exact start
  · have other : Text.afterWord? "interface".toText ("type".toText ++ gap ++ [c] ++ rest) = none :=
      Text.afterWord?_eq_none rfl
    rw [other, Option.none_or, found]
    exact start

/-- What follows `export`, and what is in front of it. -/
theorem afterExport_cases (text : Text) :
    text = Outline.afterExport text ∨ ∃ blanks, Text.allBlank blanks = true ∧ blanks ≠ [] ∧
      text = "export".toText ++ blanks ++ Outline.afterExport text := by
  rw [Outline.afterExport]
  cases exported : Text.afterWord? "export".toText text with
  | none => exact Or.inl rfl
  | some behind =>
    obtain ⟨blanks, more, blank, -, eq⟩ := Text.exists_of_afterWord? exported
    exact Or.inr ⟨blanks, blank, more, eq.symm⟩

theorem startsDeclaration_iff : startsDeclaration line = true ↔ BeginsWith IsOpening line := by
  constructor
  · intro starts
    obtain ⟨rest, found, named⟩ := (Option.any_eq_true _ _).mp starts
    obtain ⟨c, head, start⟩ := (Option.any_eq_true _ _).mp named
    obtain ⟨others, rfl⟩ := List.head?_eq_some_iff.mp head
    obtain ⟨word, keyword, known⟩ : ∃ word, (word = "interface".toText ∨ word = "type".toText) ∧
        Text.afterWord? word (Outline.afterExport (Text.trimStart line)) = some (c :: others) := by
      rcases Option.or_eq_some_iff.mp found with first | ⟨-, second⟩
      · exact ⟨_, Or.inl rfl, first⟩
      · exact ⟨_, Or.inr rfl, second⟩
    obtain ⟨gap, some, blank, -, eq⟩ := Text.exists_of_afterWord? known
    obtain ⟨mark, opening, behind⟩ : ∃ mark, IsOpening mark ∧
        Text.trimStart line = mark ++ others := by
      rcases afterExport_cases (Text.trimStart line) with same | ⟨blanks, between, more, parts⟩
      · refine ⟨_, ⟨word, gap, c, keyword, blank, some, start, Or.inl rfl⟩, ?_⟩
        rw [same, ← eq]
        simp only [List.append_assoc, List.singleton_append]
      · refine ⟨_, ⟨word, gap, c, keyword, blank, some, start,
          Or.inr ⟨blanks, between, more, rfl⟩⟩, ?_⟩
        rw [parts, ← eq]
        simp only [List.append_assoc, List.singleton_append]
    refine ⟨line.takeWhile Text.isBlank, mark, others, ?_, Text.allBlank_takeWhile line, opening⟩
    rw [List.append_assoc, ← behind, Text.takeWhile_append_trimStart]
  · rintro ⟨margin, mark, rest, rfl, padding, opening⟩
    have shown := trimStart_mark padding opening.solid rest
    obtain ⟨word, gap, c, keyword, blank, some, start, form⟩ := opening
    refine startsDeclaration_of_keyword keyword blank some start rest ?_
    rw [shown, Outline.afterExport]
    rcases form with rfl | ⟨blanks, between, more, rfl⟩
    · have plain : Text.afterWord? "export".toText (word ++ gap ++ [c] ++ rest) = none := by
        rcases keyword with rfl | rfl
        · exact Text.afterWord?_eq_none rfl
        · exact Text.afterWord?_eq_none rfl
      rw [plain, Option.getD_none]
    · have named : IsOpening (word ++ gap ++ [c]) :=
        ⟨word, gap, c, keyword, blank, some, start, Or.inl rfl⟩
      rw [afterWord?_mark _ between more named.solid, Option.getD_some]

/-- What decides about a line does not depend on the blanks around it. -/
theorem startsDeclaration_trim (line : Text) :
    startsDeclaration (Text.trim line) = startsDeclaration line := by
  rw [Bool.eq_iff_iff, startsDeclaration_iff, startsDeclaration_iff,
    Text.beginsWith_trim_iff fun _ opening => opening.solid]

theorem opensDoc_trim (line : Text) : opensDoc (Text.trim line) = opensDoc line := by
  rw [Bool.eq_iff_iff, opensDoc_iff, opensDoc_iff]
  refine Text.beginsWith_trim_iff ?_
  rintro _ rfl
  decide

theorem isStarLine_trim (line : Text) : isStarLine (Text.trim line) = isStarLine line := by
  rw [Bool.eq_iff_iff, isStarLine_iff, isStarLine_iff]
  refine Text.beginsWith_trim_iff ?_
  rintro _ rfl
  decide

theorem closesDoc_trim (line : Text) : closesDoc (Text.trim line) = closesDoc line := by
  rw [Bool.eq_iff_iff, closesDoc_iff, closesDoc_iff]
  constructor
  · rintro ⟨inside, blanks, eq, blank⟩
    obtain ⟨left, right, whole, -, padding⟩ := Text.exists_padding line
    refine ⟨left ++ inside, blanks ++ right, ?_, ?_⟩
    · rw [whole, eq]
      simp only [List.append_assoc]
    · rw [Text.allBlank_append, blank, padding, Bool.and_true]
  · rintro ⟨inside, blanks, rfl, blank⟩
    refine ⟨Text.trimStart inside, [], ?_, rfl⟩
    rw [Text.trim_append_mark (by decide), Text.trimEnd_eq_nil_iff.mpr blank]

theorem allBlank_trim (line : Text) : Text.allBlank (Text.trim line) = Text.allBlank line := by
  rw [Bool.eq_iff_iff, ← Text.trim_eq_nil_iff, ← Text.trim_eq_nil_iff,
    Text.trim_eq_self (Text.trimmed_trim line)]

end Lines

section Blocks

variable {lines later : List Text} {first : Text}

theorem hasText_cons (line : Text) (rest : List Text) :
    hasText (line :: rest) = (!Text.allBlank line || hasText rest) := rfl

theorem hasText_append (lines others : List Text) :
    hasText (lines ++ others) = (hasText lines || hasText others) :=
  List.any_append

theorem hasText_map_trim (lines : List Text) : hasText (lines.map Text.trim) = hasText lines := by
  rw [hasText, List.any_map, hasText]
  exact congrArg (List.any lines) (funext fun line => congrArg not (allBlank_trim line))

theorem looksLikeDoc_map_trim_iff :
    LooksLikeDoc (Text.trim first) (later.map Text.trim) ↔ LooksLikeDoc first later := by
  have closes : (∃ last, (Text.trim first :: later.map Text.trim).getLast? = some last ∧
      closesDoc last = true) ↔
        ∃ last, (first :: later).getLast? = some last ∧ closesDoc last = true := by
    rw [← List.map_cons, List.getLast?_map]
    constructor
    · rintro ⟨_, found, ends⟩
      obtain ⟨last, known, rfl⟩ := Option.map_eq_some_iff.mp found
      exact ⟨last, known, closesDoc_trim last ▸ ends⟩
    · rintro ⟨last, known, ends⟩
      exact ⟨_, by rw [known]; rfl, (closesDoc_trim last).trans ends⟩
  have stars : (∀ line ∈ later.map Text.trim, isStarLine line = true) ↔
      ∀ line ∈ later, isStarLine line = true := by
    simp [isStarLine_trim]
  constructor
  · rintro ⟨opens, star, ends⟩
    exact ⟨opensDoc_trim first ▸ opens, stars.mp star, closes.mp ends⟩
  · rintro ⟨opens, star, ends⟩
    exact ⟨(opensDoc_trim first).trans opens, stars.mpr star, closes.mpr ends⟩

/-- What is carried does not depend on the blanks around its lines. -/
theorem isCarried_map_trim_iff : IsCarried (lines.map Text.trim) ↔ IsCarried lines := by
  have mark : Solid blockClose := by decide
  constructor
  · rintro ⟨start, stars, blanks, eq, looks, blank, free⟩
    obtain ⟨first, behind, rfl, rfl, rest⟩ := List.map_eq_cons_iff.mp eq
    obtain ⟨later, blanks, rfl, rfl, rfl⟩ := List.map_eq_append_iff.mp rest
    refine ⟨first, later, blanks, rfl, looksLikeDoc_map_trim_iff.mp looks,
      (hasText_map_trim blanks).symm.trans blank, fun several => ?_⟩
    exact (Text.lacks_trim_iff mark).mp (free (by simpa using several))
  · rintro ⟨first, later, blanks, rfl, looks, blank, free⟩
    refine ⟨Text.trim first, later.map Text.trim, blanks.map Text.trim, ?_,
      looksLikeDoc_map_trim_iff.mpr looks, (hasText_map_trim blanks).trans blank, fun several => ?_⟩
    · rw [List.map_cons, List.map_append]
    · exact (Text.lacks_trim_iff mark).mpr (free (by simpa using several))

theorem IsCarried.of_map_trim_eq {other : List Text} (carried : IsCarried lines)
    (same : lines.map Text.trim = other.map Text.trim) : IsCarried other :=
  isCarried_map_trim_iff.mp (same ▸ isCarried_map_trim_iff.mpr carried)

end Blocks

section Tidy

/-- The lines of a block when it is trimmed as a whole. -/
def tidyLines (block : List Text) : List Text := Text.lines (Text.trim (Text.join ['\n'] block))

/-- Neither the first nor the last of the lines is blank. -/
structure Bounded (lines : List Text) : Prop where
  first : ∀ line, lines.head? = some line → Text.allBlank line = false
  last : ∀ line, lines.getLast? = some line → Text.allBlank line = false

variable {front core back : List Text}

/-- Blank lines in front of others are trimmed away. -/
theorem trim_join_blanks_append (blank : hasText front = false) (lines : List Text) :
    Text.trim (Text.join ['\n'] (front ++ lines)) = Text.trim (Text.join ['\n'] lines) := by
  by_cases none : lines = []
  · rw [none, List.append_nil, Text.trim_blank (allBlank_join_iff.mpr blank)]
    rfl
  · by_cases nothing : front = []
    · rw [nothing, List.nil_append]
    · have ahead : Text.allBlank (Text.join ['\n'] front ++ [.char '\n']) = true := by
        rw [Text.allBlank_append, allBlank_join_iff.mpr blank]
        decide
      rw [Text.join_append _ nothing none, Text.trim_blank_append ahead]

theorem allBlank_eq_of_trim_eq {line other : Text} (same : Text.trim line = Text.trim other) :
    Text.allBlank line = Text.allBlank other := by
  rw [← allBlank_trim, same, allBlank_trim]

theorem Bounded.of_map_trim_eq (bounded : Bounded core) {other : List Text}
    (same : other.map Text.trim = core.map Text.trim) : Bounded other := by
  constructor
  · intro line head
    have trimmed : (core.map Text.trim).head? = some (Text.trim line) := by
      rw [← same, List.head?_map, head]
      rfl
    rw [List.head?_map] at trimmed
    obtain ⟨first, known, eq⟩ := Option.map_eq_some_iff.mp trimmed
    exact (allBlank_eq_of_trim_eq eq).symm.trans (bounded.first first known)
  · intro line last
    have trimmed : (core.map Text.trim).getLast? = some (Text.trim line) := by
      rw [← same, List.getLast?_map, last]
      rfl
    rw [List.getLast?_map] at trimmed
    obtain ⟨final, known, eq⟩ := Option.map_eq_some_iff.mp trimmed
    exact (allBlank_eq_of_trim_eq eq).symm.trans (bounded.last final known)

/-- Lines that are bounded are trimmed in the first and in the last of them. -/
theorem Bounded.trim_join (bounded : Bounded core) (single : ∀ line ∈ core, Text.SingleLine line) :
    ∃ tidy, Text.trim (Text.join ['\n'] core) = Text.join ['\n'] tidy ∧
      tidy.map Text.trim = core.map Text.trim ∧ (∀ line ∈ tidy, Text.SingleLine line) ∧
      tidy.getLast? ≠ some [] := by
  cases core with
  | nil => exact ⟨[], rfl, rfl, single, nofun⟩
  | cons first rest =>
    have trimmed :
        (Text.trimStart first :: rest).map Text.trim = (first :: rest).map Text.trim := by
      rw [List.map_cons, Text.trim_trimStart, List.map_cons]
    have inside : ∀ line ∈ Text.trimStart first :: rest, Text.SingleLine line := by
      intro line here
      rcases List.mem_cons.mp here with rfl | later
      · exact fun c known => single first List.mem_cons_self c
          ((List.dropWhile_suffix Text.isBlank).subset known)
      · exact single line (List.mem_cons_of_mem first later)
    have visible := bounded.first first rfl
    replace bounded := bounded.of_map_trim_eq trimmed
    rw [Text.trim, Text.trimStart_join visible]
    obtain ⟨front, last, eq⟩ := (List.eq_nil_or_concat _).resolve_left
      (List.cons_ne_nil (Text.trimStart first) rest)
    rw [List.concat_eq_append] at eq
    rw [eq] at trimmed inside bounded ⊢
    have seen := bounded.last last List.getLast?_concat
    refine ⟨front ++ [Text.trimEnd last], Text.trimEnd_join seen _ front, ?_,
      fun line here => ?_, ?_⟩
    · rw [← trimmed, List.map_append, List.map_append, List.map_singleton, List.map_singleton,
        Text.trim_trimEnd]
    · rcases List.mem_append.mp here with earlier | final
      · exact inside line (List.mem_append_left _ earlier)
      · rw [List.mem_singleton.mp final]
        exact fun c known => inside last (List.mem_append_right _ List.mem_cons_self) c
          ((Text.trimEnd_isPrefix last).subset known)
    · rw [List.getLast?_concat]
      intro empty
      rw [Text.trimEnd_eq_nil_iff.mp (Option.some.inj empty)] at seen
      cases seen

/-- The lines of a trimmed block are those of the block, trimmed, without blank lines around them.
-/
theorem map_trim_tidyLines (blank : hasText front = false) (behind : hasText back = false)
    (bounded : Bounded core) (single : ∀ line ∈ core, Text.SingleLine line) :
    (tidyLines (front ++ core ++ back)).map Text.trim = core.map Text.trim := by
  obtain ⟨tidy, eq, same, inside, last⟩ := bounded.trim_join single
  rw [tidyLines, trim_join_append_blanks behind, trim_join_blanks_append blank, eq,
    Text.lines_join inside last, same]

/-- The lines of a trimmed block are joined to its trimmed text. -/
theorem join_tidyLines {block : List Text} (single : ∀ line ∈ block, Text.SingleLine line) :
    Text.join ['\n'] (tidyLines block) = Text.trim (Text.join ['\n'] block) := by
  cases last : (Text.trim (Text.join ['\n'] block)).getLast? with
  | none =>
    rw [tidyLines, List.getLast?_eq_none_iff.mp last]
    rfl
  | some c =>
    have feed : Text.OnlyFeeds ['\n'] := fun c here _ => List.mem_singleton.mp here
    have whole := feed.join fun line here => (single line here).onlyFeeds
    exact Text.join_lines_of_onlyFeeds (whole.subset (Text.isInfix_trim _).subset) last
      (Text.isLineBreak_of_not_blank ((Text.trimmed_trim _).2 c last))

/-- Behind the last line with text there are blank lines alone. -/
theorem exists_blanks_behind (lines : List Text) :
    ∃ core blanks, lines = core ++ blanks ∧ hasText blanks = false ∧
      ∀ last, core.getLast? = some last → Text.allBlank last = false := by
  induction lines with
  | nil => exact ⟨[], [], rfl, rfl, nofun⟩
  | cons line rest ih =>
    obtain ⟨core, blanks, rfl, blank, visible⟩ := ih
    cases empty : Text.allBlank line && core.isEmpty with
    | true =>
      rw [Bool.and_eq_true, List.isEmpty_iff] at empty
      obtain ⟨noText, rfl⟩ := empty
      exact ⟨[], line :: blanks, rfl, by rw [hasText_cons, noText, blank]; rfl, nofun⟩
    | false =>
      refine ⟨line :: core, blanks, rfl, blank, fun last ends => ?_⟩
      by_cases alone : core = []
      · subst alone
        obtain rfl : line = last := Option.some.inj ends
        simpa using empty
      · rw [List.getLast?_cons_of_ne_nil alone] at ends
        exact visible last ends

/-- Lines are blank lines around bounded ones. -/
theorem exists_bounded (lines : List Text) :
    ∃ front core back, lines = front ++ core ++ back ∧ hasText front = false ∧
      hasText back = false ∧ Bounded core := by
  induction lines with
  | nil => exact ⟨[], [], [], rfl, rfl, rfl, nofun, nofun⟩
  | cons line rest ih =>
    cases noText : Text.allBlank line with
    | true =>
      obtain ⟨front, core, back, rfl, blank, behind, bounded⟩ := ih
      exact ⟨line :: front, core, back, rfl, by rw [hasText_cons, noText, blank]; rfl, behind,
        bounded⟩
    | false =>
      obtain ⟨core, blanks, eq, blank, last⟩ := exists_blanks_behind (line :: rest)
      refine ⟨[], core, blanks, eq, rfl, blank, fun first head => ?_, last⟩
      obtain ⟨more, rfl⟩ := List.head?_eq_some_iff.mp head
      rw [← (List.cons_eq_cons.mp eq).1]
      exact noText

end Tidy

end Batch

end SchemaBoard
