import SchemaBoard.Proofs.Declaration.RoundTrip

set_option autoImplicit false

/-!
What comments say when they come back. Reading takes a star off the front of every line of a
comment, and only the lines in front of a declaration are written behind one. Main statement: the
comment of a declaration comes back line by line, and the comment of a member on one line, without
the star with which that line begins.
-/
namespace SchemaBoard

open Text (SingleLine Solid)

namespace Comment

/-- A text without a star at its front and the blanks behind that star. -/
def unstarred : Text → Text
  | .char '*' :: rest => Text.trim rest
  | text => text

section Star

variable {text line : Text}

theorem unstarred_of_head?_ne (other : text.head? ≠ some (.char '*')) : unstarred text = text := by
  unfold unstarred
  split
  · exact absurd rfl other
  · rfl

/-- A star at the front is always lost. -/
theorem unstarred_eq_self_iff : unstarred text = text ↔ text.head? ≠ some (.char '*') := by
  refine ⟨fun same star => ?_, unstarred_of_head?_ne⟩
  obtain ⟨rest, rfl⟩ := List.head?_eq_some_iff.mp star
  have shorter : (Text.trim rest).length ≤ rest.length := Text.trim_length_le rest
  rw [unstarred] at same
  rw [same, List.length_cons] at shorter
  exact Nat.not_succ_le_self _ shorter

theorem trim_of_trimStart_star {rest : Text} (start : Text.trimStart line = .char '*' :: rest) :
    Text.trim line = .char '*' :: Text.trimEnd rest := by
  have star : Solid ([.char '*'] : Text) := by decide
  rw [← Text.trim_trimStart, start]
  exact Text.trim_append_mark star [] rest

/-- Trimmed, a line without its star is the trimmed line without a star at its front. -/
theorem trim_dedentLine (line : Text) :
    Text.trim (dedentLine line) = unstarred (Text.trim line) := by
  unfold dedentLine
  split
  · next rest start =>
    rw [trim_of_trimStart_star start, unstarred, Text.trim_trimEnd]
    exact (Text.trim_blank_append (by decide : Text.allBlank [.char ' '] = true) rest).symm
  · next rest _ start =>
    rw [trim_of_trimStart_star start, unstarred, Text.trim_trimEnd]
  · next other =>
    refine (unstarred_of_head?_ne fun star => ?_).symm
    obtain ⟨rest, start⟩ := List.head?_eq_some_iff.mp (Text.head?_trimEnd star)
    exact other rest start

/-- A comment on one line is read as that line, without a star at its front. -/
theorem dedent_singleLine (single : SingleLine text) :
    dedent text = unstarred (Text.trim text) := by
  by_cases empty : text = []
  · subst empty
    rfl
  · rw [dedent, Text.lines_singleLine single empty, List.map_singleton, Text.join_singleton,
      trim_dedentLine]

end Star

end Comment

namespace Outline

open Comment (unstarred)

/-- What a comment says; without a comment that is nothing. -/
def said (comment : Option Text) : Text := comment.getD []

/-- The words of a comment in front of a declaration: its lines without blanks at their ends, with
the closing marks in them broken up. -/
def headerWords (comment : Text) : Text :=
  Text.trim (Text.join ['\n']
    ((Text.lines comment).map fun line => Text.trimEnd (Text.breakCloses line)))

/-- The words of a comment in front of a member: its lines in a row, with the closing marks in them
broken up. -/
def noteWords (comment : Text) : Text :=
  Text.trim (Text.breakCloses (Text.join [' '] (Text.lines comment)))

section Settled

theorem said_settledHeader (comment : Option Text) :
    said (settledHeader comment) = headerWords (said comment) := by
  cases comment with
  | none => rfl
  | some text =>
    by_cases empty : text = []
    · subst empty
      rfl
    · rw [settledHeader, if_neg (by simpa using empty)]
      exact dedent_headerInside empty

theorem dedent_noteInside_eq (comment : Text) :
    Comment.dedent (noteInside comment) = unstarred (noteWords comment) := by
  have padded : Text.trim (noteInside comment) = noteWords comment :=
    Text.trim_padded (by decide : Text.allBlank [.char ' '] = true)
      (by decide : Text.allBlank [.char ' '] = true) _
  rw [Comment.dedent_singleLine (singleLine_noteInside comment), padded]

theorem said_settledNote (comment : Option Text) :
    said (settledNote comment) = unstarred (noteWords (said comment)) := by
  cases comment with
  | none => rfl
  | some text =>
    rw [settledNote, dedent_noteInside_eq]
    by_cases empty : text = []
    · subst empty
      rfl
    · by_cases nothing : unstarred (noteWords text) = []
      · rw [if_pos (by simp [nothing])]
        exact nothing.symm
      · rw [if_neg (by simp [empty, nothing])]
        rfl

end Settled

section Written

variable {declaration : Declaration}

/-- Below its comment every declaration begins with a keyword. -/
theorem head?_join_bodyLines (declaration : Declaration) :
    ∃ c ∈ "ite".toText, (Text.join ['\n'] declaration.bodyLines).head? = some c := by
  unfold bodyLines
  cases declaration.kind with
  | interface => exact ⟨.char 'i', by decide, Text.head?_join _ rfl⟩
  | type | synonym => exact ⟨.char 't', by decide, Text.head?_join _ rfl⟩
  | enum => exact ⟨.char 'e', by decide, Text.head?_join _ rfl⟩

theorem solid_join_bodyLines (declaration : Declaration) :
    Solid (Text.join ['\n'] declaration.bodyLines) := by
  obtain ⟨c, keyword, head⟩ := head?_join_bodyLines declaration
  obtain ⟨front, last, eq, ends⟩ := exists_last_bodyLines declaration
  have ended : Comment.EndsVisibly (Text.join ['\n'] declaration.bodyLines) :=
    eq ▸ endsVisibly_join ends
  have known : ∀ c ∈ "ite".toText, Text.isBlank c = false := by decide
  exact ended.solid head (known c keyword)

/-- Whatever is read from the written form of a declaration, it has the comment of the declaration,
in its words. -/
theorem said_of_read?_render {found : Declaration} (reads : read? declaration.render = some found) :
    said found.comment = headerWords (said declaration.comment) := by
  have plain : (Text.join ['\n'] declaration.bodyLines).head? ≠ some (.char '/') := by
    obtain ⟨c, keyword, head⟩ := head?_join_bodyLines declaration
    rw [head]
    rintro ⟨⟩
    exact absurd keyword (by decide)
  rw [render_eq_headed, read?_headed (solid_join_bodyLines declaration) plain] at reads
  obtain ⟨body, -, rfl⟩ := Option.map_eq_some_iff.mp reads
  exact said_settledHeader declaration.comment

/-- The comment of a declaration comes back in its words, whatever the declaration is read as. An
interface comes back with a comment for each member, in the words of that member's comment but for a
star at their front; so these comments are all as they were written just if none of them begins with
a star. -/
theorem read?_render_words (declaration : Declaration) :
    (∀ found, read? declaration.render = some found →
      said found.comment = headerWords (said declaration.comment)) ∧
    (IsWritableInterface declaration →
      ∃ found, read? declaration.render = some found ∧ found.bare = declaration.bare ∧
        (found.fields.map fun member => said member.comment) =
          (declaration.fields.map fun member => unstarred (noteWords (said member.comment))) ∧
        ((found.fields.map fun member => said member.comment) =
            (declaration.fields.map fun member => noteWords (said member.comment)) ↔
          ∀ member ∈ declaration.fields,
            (noteWords (said member.comment)).head? ≠ some (.char '*'))) := by
  refine ⟨fun found reads => said_of_read?_render reads, fun writable => ?_⟩
  have notes : (declaration.settled.fields.map fun member => said member.comment) =
      declaration.fields.map fun member => unstarred (noteWords (said member.comment)) := by
    rw [settled, if_pos writable.kind, List.map_map]
    exact List.map_congr_left fun member _ => said_settledNote member.comment
  refine ⟨declaration.settled, (comesBack_interface writable).read, bare_settled declaration,
    notes, ?_⟩
  rw [notes, List.map_inj_left]
  exact forall₂_congr fun member _ => Comment.unstarred_eq_self_iff

theorem read?_render_words_breaks :
    let declaration : Declaration :=
      { name := "A".toText, kind := .interface
        fields := [{ name := "x".toText, type := .primitive .string
                     comment := some " /* a */\nb ".toText },
                   { name := "y".toText, type := .custom "B".toText
                     comment := some "* a".toText }]
        comment := some "* first \r\n\x0c/** second */".toText }
    IsWritableInterface declaration ∧
      ∃ found, read? declaration.render = some found ∧
        said found.comment = "* first\n\n/** second * /".toText ∧
        (found.fields.map fun member => said member.comment) =
          ["/* a * / b".toText, "a".toText] := by
  intro declaration
  have writable : IsWritableInterface declaration := isWritableInterface_of_regular (by decide)
  obtain ⟨header, interface⟩ := read?_render_words declaration
  obtain ⟨found, reads, -, notes, -⟩ := interface writable
  exact ⟨writable, found, reads, (header found reads).trans (by decide), notes.trans (by decide)⟩

/-- The star of a member's comment is taken for one that was written in front of a line. -/
theorem read?_render_starred_note :
    let declaration : Declaration :=
      { name := "A".toText, kind := .interface
        fields := [{ name := "x".toText, type := .primitive .string
                     comment := some "* a".toText }] }
    IsWritableInterface declaration ∧
      (declaration.fields.map fun member => noteWords (said member.comment)) = ["* a".toText] ∧
      ∃ found, read? declaration.render = some found ∧
        (found.fields.map fun member => said member.comment) = ["a".toText] := by
  intro declaration
  have writable : IsWritableInterface declaration := isWritableInterface_of_regular (by decide)
  exact ⟨writable, by decide, declaration.settled, (comesBack_interface writable).read, by decide⟩

end Written

end Outline

end SchemaBoard
