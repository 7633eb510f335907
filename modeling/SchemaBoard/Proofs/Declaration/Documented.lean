import SchemaBoard.Declaration.Printer
import SchemaBoard.Proofs.Declaration.Comment

set_option autoImplicit false

/-!
Comments as they are written and read. Whatever a comment says, its written form is one doc comment
that ends where its text does. Main statements: a comment of trimmed lines comes back from in front
of a declaration, and a comment of one line from in front of a member.
-/
namespace SchemaBoard.Outline

open Text (Lacks SingleLine)
open Comment (dedent dedentLine docOpen blockClose)

def starLine (line : Text) : Text := Text.trimEnd (" * ".toText ++ Text.breakCloses line)

/-- What stands between the marks in front of a declaration. -/
def headerInside (comment : Text) : Text :=
  .char '\n' :: Text.join ['\n'] ((Text.lines comment).map starLine) ++ "\n ".toText

/-- What stands between the marks in front of a member. -/
def noteInside (comment : Text) : Text :=
  .char ' ' :: Text.breakCloses (Text.join [' '] (Text.lines comment)) ++ [.char ' ']

/-- The comment that comes back from in front of a declaration. -/
def settledHeader : Option Text → Option Text
  | some comment => if comment.isEmpty then none else some (dedent (headerInside comment))
  | none => none

/-- The comment that comes back from in front of a member. -/
def settledNote : Option Text → Option Text
  | some comment =>
    if comment.isEmpty || (dedent (noteInside comment)).isEmpty then none
    else some (dedent (noteInside comment))
  | none => none

section Lines

/-- A blank line is a star alone; every other line stands behind a star and a blank. -/
theorem starLine_eq (line : Text) :
    starLine line = " *".toText ∧ Text.trimEnd (Text.breakCloses line) = [] ∨
      starLine line = " * ".toText ++ Text.trimEnd (Text.breakCloses line) := by
  cases blank : Text.allBlank (Text.breakCloses line) with
  | true =>
    refine Or.inl ⟨?_, ?_⟩
    · rw [starLine, Text.trimEnd_append_blank blank]
      decide
    · have nothing := Text.trimEnd_append_blank blank []
      rwa [List.nil_append] at nothing
  | false => exact Or.inr (Text.trimEnd_append_of_visible blank _)

theorem dedentLine_starLine (line : Text) :
    dedentLine (starLine line) = Text.trimEnd (Text.breakCloses line) := by
  rcases starLine_eq line with ⟨star, nothing⟩ | star
  · rw [star, nothing]
    decide
  · rw [star, dedentLine]
    have start : Text.trimStart (" * ".toText ++ Text.trimEnd (Text.breakCloses line)) =
        .char '*' :: .char ' ' :: Text.trimEnd (Text.breakCloses line) := rfl
    rw [start]
    rfl

theorem starLine_isPrefix (line : Text) : starLine line <+: " * ".toText ++ Text.breakCloses line :=
  Text.trimEnd_isPrefix _

theorem lacks_starLine (line : Text) : Lacks ['*', '/'] (starLine line) := by
  obtain ⟨rest, eq⟩ := starLine_isPrefix line
  have whole : Lacks ['*', '/'] (" * ".toText ++ Text.breakCloses line) :=
    Text.Lacks.append (by decide) (Text.lacks_breakCloses line) fun last => absurd last (by decide)
  rw [← eq] at whole
  exact whole.of_append

theorem singleLine_starLine {line : Text} (inside : SingleLine line) :
    SingleLine (starLine line) := by
  have whole : SingleLine (" * ".toText ++ Text.breakCloses line) :=
    Text.SingleLine.append (by decide) inside.breakCloses
  intro c member
  exact whole c ((starLine_isPrefix line).subset member)

/-- Behind its blanks the line begins with the star. -/
theorem trimStart_starLine (line : Text) :
    ∃ rest, Text.trimStart (starLine line) = .char '*' :: rest := by
  rcases starLine_eq line with ⟨star, -⟩ | star
  · exact ⟨[], by rw [star]; decide⟩
  · exact ⟨_, by rw [star]; rfl⟩

theorem singleLine_of_mem_commentLines {comment line : Text}
    (member : line ∈ commentLines comment) : SingleLine line := by
  rw [commentLines, List.mem_append, List.mem_cons] at member
  rcases member with (rfl | inside) | last
  · decide
  · obtain ⟨source, here, rfl⟩ := List.mem_map.mp inside
    exact singleLine_starLine (Text.singleLine_of_mem_lines here)
  · obtain rfl := List.mem_singleton.mp last
    decide

end Lines

section Header

theorem join_commentLines {comment : Text} (some : comment ≠ []) :
    Text.join ['\n'] (commentLines comment) = docOpen ++ (headerInside comment ++ blockClose) := by
  have middle : (Text.lines comment).map starLine ≠ [] := by
    simpa using Text.lines_ne_nil some
  have lines : commentLines comment =
      [docOpen] ++ ((Text.lines comment).map starLine ++ [" */".toText]) := rfl
  rw [lines, Text.join_append _ (List.cons_ne_nil _ _) (by simp),
    Text.join_append _ middle (List.cons_ne_nil _ _), Text.join_singleton, Text.join_singleton,
    headerInside]
  simp only [List.append_assoc, List.cons_append, List.nil_append]
  rfl

theorem lacks_headerInside (comment : Text) : Lacks ['*', '/'] (headerInside comment) := by
  have middle : Lacks ['*', '/'] (Text.join ['\n'] ((Text.lines comment).map starLine)) := by
    refine Text.lacks_join (by decide) (by decide) (by decide) (by decide) fun line member => ?_
    obtain ⟨source, -, rfl⟩ := List.mem_map.mp member
    exact lacks_starLine source
  have front : Lacks ['*', '/']
      (.char '\n' :: Text.join ['\n'] ((Text.lines comment).map starLine)) :=
    Text.lacks_cons_iff.mpr ⟨by simp, middle⟩
  exact front.append (by decide) fun _ => by decide

/-- What comes back are the lines without closing marks and without blanks at their ends. -/
theorem dedent_headerInside {comment : Text} (some : comment ≠ []) :
    dedent (headerInside comment) =
      Text.trim (Text.join ['\n']
        ((Text.lines comment).map fun line => Text.trimEnd (Text.breakCloses line))) := by
  have middle : (Text.lines comment) ≠ [] := Text.lines_ne_nil some
  have written : headerInside comment =
      Text.join ['\n'] ([[]] ++ ((Text.lines comment).map starLine ++ [[.char ' ']])) := by
    rw [Text.join_append _ (List.cons_ne_nil _ _) (by simp),
      Text.join_append _ (by simpa using middle) (List.cons_ne_nil _ _), headerInside]
    simp only [Text.join_singleton, List.nil_append, List.append_assoc, List.cons_append]
    rfl
  have single : ∀ line ∈ [[]] ++ ((Text.lines comment).map starLine ++ [[.char ' ']]),
      SingleLine line := by
    intro line member
    simp only [List.mem_append, List.mem_singleton, List.mem_map] at member
    rcases member with rfl | ⟨source, here, rfl⟩ | rfl
    · decide
    · exact singleLine_starLine (Text.singleLine_of_mem_lines here)
    · decide
  have last : ([[]] ++ ((Text.lines comment).map starLine ++
      [[CodePoint.char ' ']])).getLast? ≠ Option.some [] := by
    rw [← List.append_assoc, List.getLast?_concat]
    simp
  have lines := Text.lines_join single last
  have texts : (Text.lines comment).map (dedentLine ∘ starLine) =
      (Text.lines comment).map fun line => Text.trimEnd (Text.breakCloses line) :=
    List.map_congr_left fun line _ => dedentLine_starLine line
  have ends : dedentLine [] = [] ∧ dedentLine [.char ' '] = [.char ' '] := by decide
  rw [dedent, written, lines, List.map_append, List.map_append, List.map_map, texts,
    List.map_singleton, List.map_singleton, ends.1, ends.2,
    Text.join_append _ (List.cons_ne_nil _ _) (by simp),
    Text.join_append _ (by simpa using middle) (List.cons_ne_nil _ _), Text.join_singleton,
    Text.join_singleton, List.nil_append, Text.trim_blank_append (by decide), List.append_assoc,
    Text.trim_append_blank (by decide)]

/-- Whether a comment stands in front of a declaration just as it is read from there: trimmed
lines, none of which breaks or ends with blanks or closes a comment. -/
def isCanonicalHeader (comment : Text) : Bool :=
  !comment.isEmpty && Text.trim comment == comment &&
    Text.join ['\n'] (Text.lines comment) == comment &&
    (Text.lines comment).all fun line =>
      Text.trimEnd line == line && (Text.cut? blockClose line).isNone

theorem settledHeader_of_canonical {comment : Text} (canonical : isCanonicalHeader comment = true) :
    settledHeader (some comment) = some comment := by
  simp only [isCanonicalHeader, Bool.and_eq_true, Bool.not_eq_true', beq_iff_eq,
    List.all_eq_true] at canonical
  obtain ⟨⟨⟨visible, trimmed⟩, joined⟩, lines⟩ := canonical
  have same : (Text.lines comment).map (fun line => Text.trimEnd (Text.breakCloses line)) =
      (Text.lines comment).map id := by
    refine List.map_congr_left fun line member => ?_
    obtain ⟨ends, free⟩ := lines line member
    rw [Text.breakCloses_eq_self (Option.isNone_iff_eq_none.mp free), ends]
    rfl
  have back : dedent (headerInside comment) = comment := by
    rw [dedent_headerInside (by simpa using visible), same, List.map_id, joined, trimmed]
  rw [settledHeader, visible, if_neg Bool.false_ne_true, back]

/-- A line that came back is written as the line was. -/
theorem starLine_trimEnd (line : Text) :
    starLine (Text.trimEnd (Text.breakCloses line)) = starLine line := by
  obtain ⟨rest, eq⟩ := Text.trimEnd_isPrefix (Text.breakCloses line)
  have free : Lacks ['*', '/'] (Text.trimEnd (Text.breakCloses line)) := by
    have whole := Text.lacks_breakCloses line
    rw [← eq] at whole
    exact whole.of_append
  rcases starLine_eq line with ⟨star, nothing⟩ | star
  · rw [star, nothing]
    decide
  · have ends : Text.trimEnd (starLine line) = starLine line :=
      Text.trimEnd_eq_self fun _ last => Text.getLast?_trimEnd last
    rw [star] at ends
    rw [starLine, Text.breakCloses_eq_self free, ends, star]

/-- A trimmed comment is written as what comes back of it. -/
theorem headerLines_settledHeader {comment : Option Text}
    (trimmed : ∀ text, comment = some text → Text.Trimmed text) :
    headerLines (settledHeader comment) = headerLines comment := by
  cases comment with
  | none => rfl
  | some text =>
    cases visible : text.isEmpty with
    | true => rw [settledHeader, visible, if_pos rfl, headerLines, headerLines, visible, if_pos rfl]
    | false =>
      have some : text ≠ [] := by simpa using visible
      obtain ⟨-, solid, last⟩ := Text.solid_join_map_lines ⟨some, trimmed text rfl⟩ ['\n']
        (f := fun line => Text.trimEnd (Text.breakCloses line))
        (fun line c head seen => Text.head?_trimEnd_of_visible
          ((Text.head?_breakCloses line).trans head) seen)
        (fun line c ends seen => by
          have same := (Text.getLast?_breakCloses line).trans ends
          have kept : Text.trimEnd (Text.breakCloses line) = Text.breakCloses line :=
            Text.trimEnd_eq_self fun d final => Option.some.inj (same.symm.trans final) ▸ seen
          rw [kept, same])
      have back := (dedent_headerInside some).trans (Text.trim_eq_self solid.trimmed)
      have lines := Text.lines_join (fun line here => by
        obtain ⟨source, inside, rfl⟩ := List.mem_map.mp here
        intro c member
        exact (Text.singleLine_of_mem_lines inside).breakCloses c
          ((Text.trimEnd_isPrefix _).subset member)) last
      have kept : (Text.lines text).map (starLine ∘ fun line =>
          Text.trimEnd (Text.breakCloses line)) = (Text.lines text).map starLine :=
        List.map_congr_left fun line _ => starLine_trimEnd line
      have shown : (dedent (headerInside text)).isEmpty = false := by
        rw [back]
        simpa using solid.nonempty
      rw [settledHeader, visible, if_neg Bool.false_ne_true, headerLines, headerLines, visible,
        shown, if_neg Bool.false_ne_true, commentLines, commentLines, back, lines]
      exact congrArg (_ :: · ++ _) ((List.map_map ..).trans kept)

end Header

section Note

theorem memberCommentLines_some {comment : Text} (visible : comment.isEmpty = false) :
    memberCommentLines (some comment) =
      ["  ".toText ++ (docOpen ++ (noteInside comment ++ blockClose))] := by
  rw [memberCommentLines, visible, if_neg Bool.false_ne_true, noteInside]
  simp only [List.append_assoc, List.cons_append]
  rfl

/-- A line of a comment in front of a member is all of the comment. -/
theorem eq_of_mem_memberCommentLines {comment : Option Text} {line : Text}
    (member : line ∈ memberCommentLines comment) :
    ∃ text, line = "  ".toText ++ (docOpen ++ (noteInside text ++ blockClose)) := by
  cases comment with
  | none => cases member
  | some text =>
    cases visible : text.isEmpty with
    | true =>
      rw [memberCommentLines, visible, if_pos rfl] at member
      cases member
    | false =>
      rw [memberCommentLines_some visible] at member
      exact ⟨text, List.mem_singleton.mp member⟩

theorem singleLine_join_lines (comment : Text) :
    SingleLine (Text.join [' '] (Text.lines comment)) := by
  intro c member
  rcases Text.mem_join member with blank | ⟨line, inside, here⟩
  · obtain rfl := List.mem_singleton.mp blank
    decide
  · exact Text.singleLine_of_mem_lines inside c here

theorem singleLine_noteInside (comment : Text) : SingleLine (noteInside comment) := by
  have inside := (singleLine_join_lines comment).breakCloses
  have front := Text.SingleLine.append (by decide : SingleLine [.char ' ']) inside
  exact front.append (by decide)

theorem lacks_noteInside (comment : Text) : Lacks ['*', '/'] (noteInside comment) := by
  have front : Lacks ['*', '/']
      (.char ' ' :: Text.breakCloses (Text.join [' '] (Text.lines comment))) :=
    Text.lacks_cons_iff.mpr ⟨by simp, Text.lacks_breakCloses _⟩
  exact front.append (by decide) fun _ => by decide

/-- The line of a comment in front of a member is one doc comment. -/
theorem wholeDoc?_note (comment : Text) :
    Comment.wholeDoc?
      (Text.trim ("  ".toText ++ (docOpen ++ (noteInside comment ++ blockClose)))) =
        some (noteInside comment) := by
  have solid : Text.Solid (docOpen ++ (noteInside comment ++ blockClose)) := by
    rw [← List.append_assoc]
    exact Text.Solid.between (by decide) _ (by decide)
  have found := Comment.leadingDoc?_append (lacks_noteInside comment) []
  rw [List.append_nil] at found
  rw [Text.trim_blank_append (by decide), Text.trim_eq_self solid.trimmed, Comment.wholeDoc?, found]

/-- Whether a comment stands in front of a member just as it is read from there: one trimmed line
that does not close a comment or start with a star. -/
def isCanonicalNote (comment : Text) : Bool :=
  !comment.isEmpty && Text.trim comment == comment &&
    comment.all (fun c => !Text.isLineBreak c) && (Text.cut? blockClose comment).isNone &&
    comment.head? != some '*'

/-- What comes back of a comment is its one line, unless that begins with a star. -/
theorem dedent_noteInside {comment : Text} (solid : Text.Solid comment)
    (star : comment.head? ≠ some (.char '*')) :
    Text.Solid (Text.breakCloses (Text.join [' '] (Text.lines comment))) ∧
      dedent (noteInside comment) = Text.breakCloses (Text.join [' '] (Text.lines comment)) := by
  obtain ⟨head, joined, -⟩ := Text.solid_join_map_lines solid [' '] (f := id)
    (fun _ _ same _ => same) (fun _ _ same _ => same)
  rw [List.map_id] at head joined
  have whole := joined.of_same_ends (Text.head?_breakCloses _) (Text.getLast?_breakCloses _)
  have first := (Text.head?_breakCloses _).trans head
  refine ⟨whole, ?_⟩
  have line : dedentLine (noteInside comment) = noteInside comment := by
    obtain ⟨c, rest, eq, -⟩ := whole.exists_head
    have start : Text.trimStart (noteInside comment) = c :: (rest ++ [.char ' ']) := by
      rw [noteInside, List.cons_append, ← List.singleton_append,
        Text.trimStart_append_blank (by decide), whole.trimStart_append, eq]
      rfl
    rw [eq] at first
    rw [dedentLine, start]
    split
    · next same =>
      exact absurd (first.symm.trans (congrArg some (List.head_eq_of_cons_eq same))) star
    · next same =>
      exact absurd (first.symm.trans (congrArg some (List.head_eq_of_cons_eq same))) star
    · rfl
  rw [dedent, Text.lines_singleLine (singleLine_noteInside comment) (by simp [noteInside]),
    List.map_singleton, Text.join_singleton, line, noteInside, ← List.singleton_append,
    Text.trim_padded (by decide) (by decide), Text.trim_eq_self whole.trimmed]

theorem settledNote_of_canonical {comment : Text} (canonical : isCanonicalNote comment = true) :
    settledNote (some comment) = some comment := by
  simp only [isCanonicalNote, Bool.and_eq_true, Bool.not_eq_true', beq_iff_eq, bne_iff_ne,
    List.all_eq_true] at canonical
  obtain ⟨⟨⟨⟨visible, trimmed⟩, single⟩, free⟩, star⟩ := canonical
  have some : comment ≠ [] := by simpa using visible
  obtain ⟨-, back⟩ := dedent_noteInside ⟨some, Text.trimmed_of_trim_eq_self trimmed⟩ star
  rw [Text.lines_singleLine single some, Text.join_singleton,
    Text.breakCloses_eq_self (Option.isNone_iff_eq_none.mp free)] at back
  rw [settledNote, back, visible, Bool.or_self, if_neg Bool.false_ne_true]

/-- A trimmed comment that begins with no star is written as what comes back of it. -/
theorem memberCommentLines_settledNote {comment : Option Text}
    (trimmed : ∀ text, comment = some text → Text.Trimmed text)
    (star : ∀ text, comment = some text → text.head? ≠ some (.char '*')) :
    memberCommentLines (settledNote comment) = memberCommentLines comment := by
  cases comment with
  | none => rfl
  | some text =>
    cases visible : text.isEmpty with
    | true =>
      rw [settledNote, visible, Bool.true_or, if_pos rfl, memberCommentLines, memberCommentLines,
        visible, if_pos rfl]
    | false =>
      have some : text ≠ [] := by simpa using visible
      obtain ⟨solid, back⟩ := dedent_noteInside ⟨some, trimmed text rfl⟩ (star text rfl)
      have single := (singleLine_join_lines text).breakCloses
      have shown : (dedent (noteInside text)).isEmpty = false := by
        rw [back]
        simpa using solid.nonempty
      rw [settledNote, visible, shown, Bool.or_self, if_neg Bool.false_ne_true, memberCommentLines,
        memberCommentLines, visible, shown, if_neg Bool.false_ne_true, if_neg Bool.false_ne_true,
        back, Text.lines_singleLine single solid.nonempty, Text.join_singleton,
        Text.breakCloses_eq_self (Text.lacks_breakCloses _)]

end Note

end SchemaBoard.Outline
