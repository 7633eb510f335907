import SchemaBoard.Declaration.Batch
import SchemaBoard.Proofs.Text.Marks

set_option autoImplicit false

/-!
Doc comments at the end of lines. What is taken off the end of some lines is found by how each of
them begins and how the last one ends. Main statement: what is taken is one doc comment if and only
if a closing mark stands nowhere in its lines but at their end.
-/
namespace SchemaBoard.Batch

open Text (Lacks Solid)
open Comment (docOpen blockClose)

/-- Whether the line ends with the closing mark of a comment, but for blanks. -/
def closesDoc (line : Text) : Bool := blockClose.isSuffixOf (Text.trimEnd line)

/-- Lines that look like one doc comment: the first one opens it, every other one begins with a
star, and the last one ends with a closing mark. -/
structure LooksLikeDoc (first : Text) (later : List Text) : Prop where
  opens : opensDoc first = true
  stars : ∀ line ∈ later, isStarLine line = true
  closes : ∃ last, (first :: later).getLast? = some last ∧ closesDoc last = true

/-- Lines that look like one doc comment, of several of which the first one closes nothing, and the
blank lines behind them. -/
def IsCarried (doc : List Text) : Prop :=
  ∃ first later blanks, doc = first :: (later ++ blanks) ∧ LooksLikeDoc first later ∧
    hasText blanks = false ∧ (later ≠ [] → Lacks ['*', '/'] first)

section Lines

variable {line first : Text} {later blanks : List Text}

theorem hasText_eq_false_iff_allBlank {lines : List Text} :
    hasText lines = false ↔ ∀ line ∈ lines, Text.allBlank line = true := by
  simp [hasText]

/-- A line that begins with a star opens no comment. -/
theorem opensDoc_of_isStarLine (star : isStarLine line = true) : opensDoc line = false := by
  rw [isStarLine] at star
  rw [opensDoc]
  cases start : Text.trimStart line with
  | nil => rfl
  | cons c rest =>
    rw [start] at star
    obtain rfl : c = .char '*' := by simpa using star
    rfl

theorem exists_of_opensDoc (opens : opensDoc line = true) :
    ∃ blanks rest, line = blanks ++ docOpen ++ rest ∧ Text.allBlank blanks = true := by
  obtain ⟨rest, eq⟩ := List.isPrefixOf_iff_prefix.mp opens
  refine ⟨line.takeWhile Text.isBlank, rest, ?_, Text.allBlank_takeWhile line⟩
  rw [List.append_assoc, eq, Text.takeWhile_append_trimStart]

theorem exists_of_closesDoc (closes : closesDoc line = true) :
    ∃ inside blanks, line = inside ++ blockClose ++ blanks ∧ Text.allBlank blanks = true := by
  obtain ⟨inside, eq⟩ := List.isSuffixOf_iff_suffix.mp closes
  refine ⟨inside, (line.reverse.takeWhile Text.isBlank).reverse, ?_, ?_⟩
  · rw [eq, Text.trimEnd, ← List.reverse_append, List.takeWhile_append_dropWhile,
      List.reverse_reverse]
  · rw [Text.allBlank, List.all_reverse]
    exact List.all_takeWhile

/-- A line with a mark in it is not blank. -/
theorem allBlank_of_closesDoc (closes : closesDoc line = true) : Text.allBlank line = false := by
  obtain ⟨inside, blanks, rfl, -⟩ := exists_of_closesDoc closes
  rw [Text.allBlank_append, Text.allBlank_append, show Text.allBlank blockClose = false by decide,
    Bool.and_false, Bool.false_and]

/-- Upward from the end the blank lines come first, then the last line that is not blank. -/
theorem reverse_blanks (front : List Text) (visible : Text.allBlank line = false)
    (blank : hasText blanks = false) :
    (front ++ line :: blanks).reverse.takeWhile Text.allBlank = blanks.reverse ∧
      (front ++ line :: blanks).reverse.dropWhile Text.allBlank = line :: front.reverse := by
  have upward : (front ++ line :: blanks).reverse = blanks.reverse ++ line :: front.reverse := by
    simp
  have noText : ∀ other ∈ blanks.reverse, Text.allBlank other = true := fun other here =>
    hasText_eq_false_iff_allBlank.mp blank other (List.mem_reverse.mp here)
  rw [upward, List.takeWhile_append_of_pos noText, List.dropWhile_append_of_pos noText,
    List.takeWhile_cons_of_neg (by simp [visible]), List.dropWhile_cons_of_neg (by simp [visible]),
    List.append_nil]
  exact ⟨rfl, rfl⟩

/-- Lines that look like a doc comment end with a line that closes it. -/
theorem LooksLikeDoc.exists_last (looks : LooksLikeDoc first later) :
    ∃ front last, first :: later = front ++ [last] ∧ closesDoc last = true := by
  obtain ⟨last, ends, closes⟩ := looks.closes
  obtain ⟨front, eq⟩ := List.getLast?_eq_some_iff.mp ends
  exact ⟨front, last, eq, closes⟩

end Lines

section Search

/-- Upward from a line that begins with a star the search goes on to the line that opens the
comment. -/
theorem docLength?_append {stars : List Text} (star : ∀ line ∈ stars, isStarLine line = true)
    {first : Text} (opens : opensDoc first = true) (above : List Text) :
    docLength? (stars ++ first :: above) = some (stars.length + 1) := by
  induction stars with
  | nil => rw [List.nil_append, docLength?, if_pos opens, List.length_nil]
  | cons line stars ih =>
    have here := star line List.mem_cons_self
    have later := ih fun other member => star other (List.mem_cons_of_mem line member)
    rw [List.cons_append, docLength?, opensDoc_of_isStarLine here, if_neg Bool.false_ne_true, here,
      if_pos rfl, later]
    rfl

/-- What is found is a line that opens a comment with lines that begin with a star below it. -/
theorem exists_of_docLength? {upward : List Text} {count : Nat}
    (found : docLength? upward = some count) :
    ∃ stars first above, upward = stars ++ first :: above ∧ opensDoc first = true ∧
      ∀ line ∈ stars, isStarLine line = true := by
  induction upward generalizing count with
  | nil => cases found
  | cons line above ih =>
    rw [docLength?] at found
    split at found
    · next opens => exact ⟨[], line, above, rfl, opens, fun _ none => nomatch none⟩
    · split at found
      · next star =>
        obtain ⟨length, later, -⟩ := Option.map_eq_some_iff.mp found
        obtain ⟨stars, first, above, rfl, opens, all⟩ := ih later
        exact ⟨line :: stars, first, above, rfl, opens, List.forall_mem_cons.mpr ⟨star, all⟩⟩
      · cases found

variable {first : Text} {later blanks : List Text}

/-- Lines that look like a doc comment are taken off, unless the first of several closes it. -/
theorem takeTrailingDoc_append_doc (kept : List Text) (looks : LooksLikeDoc first later)
    (blank : hasText blanks = false) :
    takeTrailingDoc (kept ++ first :: (later ++ blanks)) =
      if later ≠ [] ∧ ¬Lacks ['*', '/'] first then (kept ++ first :: (later ++ blanks), [])
      else (kept, first :: (later ++ blanks)) := by
  obtain ⟨front, last, eq, closes⟩ := looks.exists_last
  have visible := allBlank_of_closesDoc closes
  have lines : kept ++ first :: (later ++ blanks) = (kept ++ front) ++ last :: blanks := by
    rw [← List.cons_append, eq]
    simp only [List.append_assoc, List.singleton_append]
  obtain ⟨taken, rest⟩ := reverse_blanks (kept ++ front) visible blank
  have upward : last :: (kept ++ front).reverse = later.reverse ++ first :: kept.reverse := by
    have back := congrArg List.reverse eq
    rw [List.reverse_cons, List.reverse_concat] at back
    rw [List.reverse_append, ← List.cons_append, ← back, List.append_assoc, List.singleton_append]
  have count : ((kept ++ first :: (later ++ blanks)).reverse.takeWhile Text.allBlank).length =
      blanks.length := by
    rw [lines, taken, List.length_reverse]
  have dropped : (kept ++ first :: (later ++ blanks)).reverse.drop blanks.length =
      later.reverse ++ first :: kept.reverse := by
    have parts := @List.drop_left _ blanks.reverse (last :: (kept ++ front).reverse)
    rw [← taken, ← rest, List.takeWhile_append_dropWhile, taken, rest, List.length_reverse,
      upward, ← lines] at parts
    exact parts
  have atEnd : (later.reverse ++ first :: kept.reverse).head?.any
      (fun line => blockClose.isSuffixOf (Text.trimEnd line)) = true := by
    rw [← upward]
    exact closes
  have length : docLength? (later.reverse ++ first :: kept.reverse) = some (later.length + 1) := by
    have stars := fun line here => looks.stars line (List.mem_reverse.mp here)
    rw [docLength?_append stars looks.opens, List.length_reverse]
  have start : (kept ++ first :: (later ++ blanks)).length - blanks.length - (later.length + 1) =
      kept.length := by
    simp only [List.length_append, List.length_cons]
    omega
  have opening : (kept ++ first :: (later ++ blanks))[kept.length]? = some first := by simp
  have early : (decide (1 < later.length + 1) && (Text.cut? blockClose first).isSome) =
      decide (later ≠ [] ∧ ¬Lacks ['*', '/'] first) := by
    rw [Bool.eq_iff_iff, Bool.and_eq_true, decide_eq_true_eq, decide_eq_true_eq,
      Option.isSome_iff_ne_none, ← List.length_pos_iff]
    exact and_congr (by omega) Iff.rfl
  unfold takeTrailingDoc
  simp only [count, dropped, atEnd, if_true, length, start, opening, Option.any_some, early,
    List.take_left, List.drop_left, decide_eq_true_eq]

/-- If anything is taken off, the lines end with lines that look like a doc comment. -/
theorem exists_doc_of_taken {lines : List Text} (taken : takeTrailingDoc lines ≠ (lines, [])) :
    ∃ kept first later blanks, lines = kept ++ first :: (later ++ blanks) ∧
      LooksLikeDoc first later ∧ hasText blanks = false := by
  unfold takeTrailingDoc at taken
  dsimp only at taken
  split at taken
  · exact absurd rfl taken
  · next count found =>
    split at found
    · next closes =>
      obtain ⟨stars, first, above, upward, opens, star⟩ := exists_of_docLength? found
      have visible : lines.reverse.drop (lines.reverse.takeWhile Text.allBlank).length =
          lines.reverse.dropWhile Text.allBlank := by
        have parts := @List.drop_left _ (lines.reverse.takeWhile Text.allBlank)
          (lines.reverse.dropWhile Text.allBlank)
        rwa [List.takeWhile_append_dropWhile] at parts
      rw [upward] at closes visible
      refine ⟨above.reverse, first, stars.reverse,
        (lines.reverse.takeWhile Text.allBlank).reverse, ?_, ⟨opens, ?_, ?_⟩, ?_⟩
      · have parts : lines.reverse = lines.reverse.takeWhile Text.allBlank ++
            (stars ++ first :: above) := by
          rw [visible, List.takeWhile_append_dropWhile]
        have back := congrArg List.reverse parts
        rw [List.reverse_reverse] at back
        simpa using back
      · exact fun line here => star line (List.mem_reverse.mp here)
      · have same : (first :: stars.reverse).getLast? = (stars ++ first :: above).head? := by
          rw [← List.head?_reverse, List.reverse_cons, List.reverse_reverse]
          cases stars <;> rfl
        rw [same]
        cases head : (stars ++ first :: above).head? with
        | none =>
          rw [head] at closes
          cases closes
        | some last =>
          rw [head] at closes
          exact ⟨last, rfl, closes⟩
      · refine hasText_eq_false_iff_allBlank.mpr fun line here => ?_
        exact List.all_eq_true.mp List.all_takeWhile line (List.mem_reverse.mp here)
    · cases found

end Search

section Taken

/-- Taking a doc comment off cuts the lines in two. -/
theorem takeTrailingDoc_append (lines : List Text) :
    (takeTrailingDoc lines).1 ++ (takeTrailingDoc lines).2 = lines := by
  unfold takeTrailingDoc
  dsimp only
  split
  · exact List.append_nil lines
  · split
    · exact List.append_nil lines
    · exact List.take_append_drop _ lines

/-- What is carried is taken off all lines that it ends. -/
theorem takeTrailingDoc_append_of_isCarried (kept : List Text) {doc : List Text}
    (carried : IsCarried doc) : takeTrailingDoc (kept ++ doc) = (kept, doc) := by
  obtain ⟨first, later, blanks, rfl, looks, blank, free⟩ := carried
  rw [takeTrailingDoc_append_doc kept looks blank, if_neg fun early => early.2 (free early.1)]

/-- Nothing is taken off, or what is carried. -/
theorem takeTrailingDoc_cases (lines : List Text) :
    takeTrailingDoc lines = (lines, []) ∨ IsCarried (takeTrailingDoc lines).2 := by
  refine Decidable.or_iff_not_imp_left.mpr fun taken => ?_
  obtain ⟨kept, first, later, blanks, rfl, looks, blank⟩ := exists_doc_of_taken taken
  rw [takeTrailingDoc_append_doc kept looks blank] at taken ⊢
  split at taken
  · exact absurd rfl taken
  · next free =>
    rw [if_neg free]
    exact ⟨first, later, blanks, rfl, looks, blank,
      fun several => Decidable.not_not.mp fun closed => free ⟨several, closed⟩⟩

end Taken

/-- A text is one complete doc comment: it begins with the opening mark and ends with a closing
mark, in front of which there is no other one. -/
structure IsOneDoc (text : Text) : Prop where
  opens : docOpen <+: text
  closes : blockClose <:+ text
  once : ∀ before after, text = before ++ blockClose ++ after → after = []

/-- Nothing but blanks stands behind a closing mark in the lines. -/
def ClosedOnce (lines : List Text) : Prop :=
  ∀ front before after behind, lines = front ++ (before ++ blockClose ++ after) :: behind →
    hasText (after :: behind) = false

section Complete

variable {doc : List Text}

theorem allBlank_join_iff {lines : List Text} :
    Text.allBlank (Text.join ['\n'] lines) = true ↔ hasText lines = false := by
  rw [hasText_eq_false_iff_allBlank]
  constructor
  · intro blank line member
    exact List.all_eq_true.mpr fun c here =>
      List.all_eq_true.mp blank c (Text.mem_join_of_mem _ member here)
  · intro blank
    refine List.all_eq_true.mpr fun c here => ?_
    rcases Text.mem_join here with feed | ⟨line, member, inside⟩
    · rw [List.mem_singleton.mp feed]
      decide
    · exact List.all_eq_true.mp (blank line member) c inside

/-- Blank lines behind others are trimmed away. -/
theorem trim_join_append_blanks {blanks : List Text} (blank : hasText blanks = false)
    (lines : List Text) :
    Text.trim (Text.join ['\n'] (lines ++ blanks)) = Text.trim (Text.join ['\n'] lines) := by
  by_cases none : blanks = []
  · rw [none, List.append_nil]
  · by_cases nothing : lines = []
    · rw [nothing, List.nil_append, Text.trim_blank (allBlank_join_iff.mpr blank)]
      rfl
    · have behind : Text.allBlank (.char '\n' :: Text.join ['\n'] blanks) = true := by
        rw [Text.allBlank, List.all_cons, ← Text.allBlank, allBlank_join_iff.mpr blank]
        decide
      rw [Text.join_append _ nothing none, List.append_assoc, List.singleton_append,
        Text.trim_append_blank behind]

theorem IsCarried.docOpen_isPrefix (carried : IsCarried doc) :
    docOpen <+: Text.trim (Text.join ['\n'] doc) := by
  obtain ⟨first, later, blanks, rfl, looks, -, -⟩ := carried
  obtain ⟨blanks, rest, rfl, blank⟩ := exists_of_opensDoc looks.opens
  rw [Text.join_append_cons, Text.trim_append_mark (by decide), Text.trimStart,
    Text.dropWhile_eq_nil_iff.mpr blank, List.nil_append]
  exact List.prefix_append _ _

theorem IsCarried.blockClose_isSuffix (carried : IsCarried doc) :
    blockClose <:+ Text.trim (Text.join ['\n'] doc) := by
  obtain ⟨first, later, blankLines, rfl, looks, blank, -⟩ := carried
  obtain ⟨front, last, eq, closes⟩ := looks.exists_last
  obtain ⟨inside, blanks, rfl, behind⟩ := exists_of_closesDoc closes
  rw [← List.cons_append, trim_join_append_blanks blank, eq,
    Text.join_concat_append, Text.join_concat_append, Text.trim_append_mark (by decide),
    Text.trimEnd_eq_nil_iff.mpr behind, List.append_nil]
  exact List.suffix_append _ _

/-- What is carried is one doc comment if and only if it is closed once. -/
theorem IsCarried.isOneDoc_iff (carried : IsCarried doc) :
    IsOneDoc (Text.trim (Text.join ['\n'] doc)) ↔ ClosedOnce doc := by
  have mark : Solid blockClose := by decide
  constructor
  · rintro one front before after behind rfl
    rw [← allBlank_join_iff, ← Text.trimEnd_eq_nil_iff]
    refine one.once (Text.trimStart (Text.join ['\n'] (front ++ [before]))) _ ?_
    rw [Text.join_append_cut, Text.join_concat_append, Text.trim_append_mark mark]
  · intro closed
    refine ⟨carried.docOpen_isPrefix, carried.blockClose_isSuffix, fun before after eq => ?_⟩
    obtain ⟨left, right, whole, -, -⟩ := Text.exists_padding (Text.join ['\n'] doc)
    have cut : Text.join ['\n'] doc = left ++ before ++ blockClose ++ (after ++ right) := by
      rw [whole, eq]
      simp only [List.append_assoc]
    obtain ⟨front, start, rest, behind, rfl, ends⟩ :=
      Text.exists_line_of_join_eq mark.nonempty (by decide) cut
    have blank := allBlank_join_iff.mpr (closed front start rest behind rfl)
    rw [← ends, Text.allBlank_append, Bool.and_eq_true] at blank
    -- The trimmed text would end with a blank.
    refine Decidable.byContradiction fun more => ?_
    obtain ⟨c, last⟩ := Option.isSome_iff_exists.mp (List.getLast?_isSome.mpr more)
    have visible := (Text.trimmed_trim _).2 c (by
      rw [eq, List.getLast?_append, last]
      rfl)
    exact Text.not_mem_of_visible blank.1 visible (List.mem_of_mem_getLast? last)

/-- Taking a doc comment off cuts the lines in two. What is taken off is nothing, or one complete
doc comment, if and only if nothing visible stands behind a closing mark in lines at the end that
look like a doc comment. -/
theorem takeTrailingDoc_isOneDoc_iff (lines : List Text) :
    (takeTrailingDoc lines).1 ++ (takeTrailingDoc lines).2 = lines ∧
      ((takeTrailingDoc lines).2 = [] ∨
          IsOneDoc (Text.trim (Text.join ['\n'] (takeTrailingDoc lines).2)) ↔
        ∀ kept doc, lines = kept ++ doc → IsCarried doc → ClosedOnce doc) := by
  refine ⟨takeTrailingDoc_append lines, ?_, fun closed => ?_⟩
  · rintro taken kept doc rfl carried
    rw [takeTrailingDoc_append_of_isCarried kept carried] at taken
    rcases taken with rfl | one
    · obtain ⟨first, later, blanks, empty, -⟩ := carried
      cases empty
    · exact carried.isOneDoc_iff.mp one
  · rcases takeTrailingDoc_cases lines with nothing | carried
    · exact Or.inl (by rw [nothing])
    · exact Or.inr (carried.isOneDoc_iff.mpr
        (closed _ _ (takeTrailingDoc_append lines).symm carried))

/-- A line that begins with a doc comment and ends with another comment is taken off as a whole,
with the member between the comments and the brace that ends the interface in front. -/
theorem takeTrailingDoc_member :
    takeTrailingDoc ["interface A \x7b".toText, "/** x */ id: string \x7d /* end */".toText] =
        (["interface A \x7b".toText], ["/** x */ id: string \x7d /* end */".toText]) ∧
      ¬IsOneDoc (Text.trim (Text.join ['\n'] ["/** x */ id: string \x7d /* end */".toText])) ∧
      split "interface A \x7b\n/** x */ id: string \x7d /* end */\ntype B = string;".toText =
        ["interface A \x7b".toText,
          "/** x */ id: string \x7d /* end */\ntype B = string;".toText] := by
  refine ⟨by decide +kernel, fun one => ?_, by decide +kernel⟩
  exact absurd (one.once "/** x ".toText " id: string \x7d /* end */".toText (by decide +kernel))
    (by decide)

end Complete

end SchemaBoard.Batch
