import SchemaBoard.Declaration.Reader
import SchemaBoard.Proofs.Declaration.Blocks
import SchemaBoard.Proofs.Member.RoundTrip

set_option autoImplicit false

/-!
Members inside of declarations. Main statements: the lines of writable members are read as these
members, each with its own comment, and an inline object as its members without comments.
-/
namespace SchemaBoard

open Text (Brackets SingleLine)
open Comment (docOpen blockClose)

namespace Outline

/-- An empty last part holds no member. -/
theorem lineMembers_eq_pieces (line : Text) :
    lineMembers line =
      ((Text.pieces Brackets.withBraces [';'] 0 line).map Text.trim).filterMap Member.read? := by
  rw [lineMembers, Text.splitOutside, Text.dropEmptyLast]
  split
  · next last =>
    obtain ⟨front, whole⟩ := List.getLast?_eq_some_iff.mp last
    have nothing : [([] : Text)].filterMap Member.read? = [] := rfl
    rw [whole, List.dropLast_concat, List.filterMap_append, nothing, List.append_nil]
  · rfl

theorem dropLineComment_of_lacks {line : Text} (free : Text.Lacks ['/', '/'] line) :
    dropLineComment line = line := by
  have found : Text.cut? "//".toText line = none := free
  rw [dropLineComment, found]

end Outline

namespace Member

def settled (member : Member) : Member :=
  { member with comment := Outline.settledNote member.comment }

section Writable

variable {member : Member}

theorem solid_render (fits : member.FitsLine) : Text.Solid member.render :=
  (solid_signature fits).append (by decide)

theorem slash_not_mem_render (fits : member.FitsLine) : .char '/' ∉ member.render := by
  intro inside
  rcases List.mem_append.mp inside with signature | semicolon
  · exact slash_not_mem_signature fits signature
  · exact absurd (List.mem_singleton.mp semicolon) (by decide)

theorem singleLine_render (fits : member.FitsLine) : SingleLine member.render :=
  (singleLine_signature fits).append (by decide)

theorem head?_render_ne (fits : member.FitsLine) : member.render.head? ≠ some (.char '/') :=
  fun head => slash_not_mem_render fits (List.mem_of_mem_head? head)

/-- The semicolon behind a signature leaves no further member. -/
theorem lineMembers_render (fits : member.FitsLine) :
    Outline.lineMembers member.render = [member.reread] := by
  have neutral : Brackets.withBraces.Neutral ';' := by decide
  have sealed := seals_signature fits
  have cut : Text.pieces Brackets.withBraces [.char ';'] 0 member.render =
      [member.signature, []] := by
    rw [render, Text.pieces_append, Text.pieces_of_seals neutral (by simp) sealed,
      Text.depthBehind_eq_of_level sealed, Text.pieces_mark_cons neutral]
    simp [Text.pieces, Text.glue]
  rw [Outline.lineMembers_eq_pieces, cut, List.map_cons, List.map_singleton,
    Text.trim_eq_self (solid_signature fits).trimmed,
    List.filterMap_cons_some (read?_signature fits)]
  rfl

theorem dropLineComment_render (fits : member.FitsLine) :
    Outline.dropLineComment member.render = member.render :=
  Outline.dropLineComment_of_lacks (Text.lacks_of_not_mem (slash_not_mem_render fits))

end Writable

end Member

namespace Outline

section Reading

/-- A member takes the comment that is still unused. -/
theorem readLines_signature {member : Member} (writable : member.IsWritable) {line : Text}
    (shows : Text.trim line = member.render) (pending : Option Text) (more : List Text) :
    readLines pending (line :: more) =
      { member with comment := pending } :: readLines none more := by
  have fits := writable.toFitsLine
  have solid := Member.solid_render fits
  have noDoc := Comment.wholeDoc?_eq_none (Member.head?_render_ne fits)
  rw [readLines]
  simp only [shows, noDoc, Member.dropLineComment_render fits,
    Text.trim_eq_self solid.trimmed, Member.lineMembers_render fits, writable.reread_eq]
  cases pending with
  | none => rfl
  | some text => rfl

/-- The line of a comment makes it the one to be used. -/
theorem readLines_memberCommentLines (comment : Option Text) (more : List Text) :
    readLines none (memberCommentLines comment ++ more) = readLines (settledNote comment) more := by
  cases comment with
  | none => rfl
  | some text =>
    cases visible : text.isEmpty with
    | true =>
      rw [memberCommentLines, settledNote, visible, if_pos rfl, if_pos (Bool.true_or _)]
      rfl
    | false =>
      rw [memberCommentLines_some visible, List.singleton_append, readLines]
      simp only [wholeDoc?_note, settledNote, visible, Bool.false_or]

/-- The lines of members are read as these members. -/
theorem readLines_members {members : List Member}
    (writable : ∀ member ∈ members, member.IsWritable) :
    readLines none (members.flatMap memberLines) = members.map Member.settled := by
  induction members with
  | nil => rfl
  | cons member rest ih =>
    have here := writable member (by simp)
    have later := ih fun other inside => writable other (List.mem_cons_of_mem member inside)
    have shows : Text.trim ("  ".toText ++ member.render) = member.render := by
      have solid := Member.solid_render here.toFitsLine
      rw [Text.trim_blank_append (by decide), Text.trim_eq_self solid.trimmed]
    rw [List.flatMap_cons, memberLines, List.append_assoc, readLines_memberCommentLines,
      List.singleton_append, readLines_signature here shows, later]
    rfl

theorem singleLine_of_mem_memberLines {member : Member} (fits : member.FitsLine)
    {line : Text} (inside : line ∈ memberLines member) : SingleLine line := by
  rcases List.mem_append.mp inside with comment | signature
  · obtain ⟨text, rfl⟩ := eq_of_mem_memberCommentLines comment
    have closed := (singleLine_noteInside text).append (by decide : SingleLine blockClose)
    have whole := Text.SingleLine.append (by decide : SingleLine docOpen) closed
    exact Text.SingleLine.append (by decide) whole
  · obtain rfl := List.mem_singleton.mp signature
    exact Text.SingleLine.append (by decide) (Member.singleLine_render fits)

end Reading

section Closed

theorem closedLine_of_mem_memberLines {member : Member} (fits : member.FitsLine)
    {line : Text} (inside : line ∈ memberLines member) : Comment.ClosedLine line := by
  rcases List.mem_append.mp inside with comment | signature
  · right
    obtain ⟨text, rfl⟩ := eq_of_mem_memberCommentLines comment
    refine ⟨"  ".toText ++ (docOpen ++
      (.char ' ' :: Text.breakCloses (Text.join [' '] (Text.lines text)))), ?_⟩
    rw [noteInside]
    simp only [List.append_assoc]
    rfl
  · left
    obtain rfl := List.mem_singleton.mp signature
    intro slash
    rcases List.mem_append.mp slash with blank | inner
    · exact absurd blank (by decide)
    · exact Member.slash_not_mem_render fits inner

/-- Without the modifier a member begins with its name, on which no blank follows. -/
theorem afterWord?_render_eq_none {member : Member} (fits : member.FitsLine)
    (plainly : member.readonly = false) {word : Text}
    (parts : ∀ c ∈ word, Text.isIdentifierPart c = true) :
    Text.afterWord? word member.render = none := by
  have plain : member.render = member.name ++ (member.behindName ++ [.char ';']) := by
    rw [Member.render, Member.signature_eq fits, plainly, Member.plainSignature,
      if_neg Bool.false_ne_true, List.nil_append, List.append_assoc]
  rw [plain]
  apply Text.afterWord?_identifier_append parts fits.word
  intro c head
  obtain ⟨mark, known, first⟩ := Member.head?_behindName member
  rw [List.head?_append, first] at head
  obtain rfl := Option.some.inj head
  have foreign : ∀ c ∈ "?:".toText,
      Text.isIdentifierPart c = false ∧ Text.isBlank c = false := by decide
  exact foreign mark known

/-- No line of a member starts a declaration: behind the blanks stands a comment, the modifier, or a
name that goes on with a mark. -/
theorem startsDeclaration_of_mem_memberLines {member : Member} (fits : member.FitsLine)
    {line : Text} (inside : line ∈ memberLines member) : Batch.startsDeclaration line = false := by
  rcases List.mem_append.mp inside with comment | signature
  · obtain ⟨text, rfl⟩ := eq_of_mem_memberCommentLines comment
    exact Batch.startsDeclaration_eq_false (c := '/') rfl (by decide)
  · obtain rfl := List.mem_singleton.mp signature
    have start : Text.trimStart ("  ".toText ++ member.render) = member.render := by
      rw [Text.trimStart_append_blank (by decide),
        Text.trimStart_eq_self (Member.solid_render fits).trimmed.1]
    cases modifier : member.readonly with
    | true =>
      have front : member.render =
          .char 'r' :: ("eadonly ".toText ++ member.plainSignature ++ [.char ';']) := by
        rw [Member.render, Member.signature_eq fits, modifier]
        rfl
      exact Batch.startsDeclaration_eq_false (start.trans front) (by decide)
    | false =>
      rw [Batch.startsDeclaration, start, afterExport,
        afterWord?_render_eq_none fits modifier (by decide), Option.getD_none,
        afterWord?_render_eq_none fits modifier (by decide),
        afterWord?_render_eq_none fits modifier (by decide)]
      rfl

end Closed

section Inline

variable {members : List Member}

theorem solid_join_signatures (some : members ≠ [])
    (fits : ∀ member ∈ members, member.FitsLine) :
    Text.Solid (Text.join "; ".toText (members.map Member.signature)) := by
  refine Text.Solid.join _ (by simpa using some) fun text inside => ?_
  obtain ⟨member, here, rfl⟩ := List.mem_map.mp inside
  exact Member.solid_signature (fits member here)

theorem slash_not_mem_join_signatures (fits : ∀ member ∈ members, member.FitsLine) :
    .char '/' ∉ Text.join "; ".toText (members.map Member.signature) := by
  intro inside
  rcases Text.mem_join inside with separator | ⟨text, known, here⟩
  · exact absurd separator (by decide)
  · obtain ⟨member, there, rfl⟩ := List.mem_map.mp known
    exact Member.slash_not_mem_signature (fits member there) here

theorem filterMap_read?_signature (writable : ∀ member ∈ members, member.IsWritable) :
    (members.map Member.signature).filterMap Member.read? = members.map Member.bare := by
  induction members with
  | nil => rfl
  | cons member rest ih =>
    have here := (writable member (by simp)).read?_signature
    have later := ih fun other inside => writable other (List.mem_cons_of_mem member inside)
    rw [List.map_cons, List.filterMap_cons_some here, later, List.map_cons]

theorem lineMembers_join_signatures (writable : ∀ member ∈ members, member.IsWritable) :
    lineMembers (Text.join "; ".toText (members.map Member.signature)) =
      members.map Member.bare := by
  have fits := fun member here => (writable member here).toFitsLine
  have parts : Text.splitOutside Brackets.withBraces [.char ';']
      (Text.join "; ".toText (members.map Member.signature)) =
        members.map Member.signature := by
    refine Text.splitOutside_join (by decide) [] [' '] rfl (by decide)
      (List.mem_singleton_self _) (fun text inside => ?_) (fun text inside => ?_) ?_
    · obtain ⟨member, here, rfl⟩ := List.mem_map.mp inside
      exact Member.seals_signature (fits member here)
    · obtain ⟨member, here, rfl⟩ := List.mem_map.mp inside
      exact (Member.solid_signature (fits member here)).trimmed
    · intro empty
      obtain ⟨member, here, nothing⟩ := List.mem_map.mp (List.mem_of_mem_getLast? empty)
      exact (Member.solid_signature (fits member here)).nonempty nothing
  rw [lineMembers, parts, filterMap_read?_signature writable]

theorem singleLine_inlineInside (fits : ∀ member ∈ members, member.FitsLine) :
    SingleLine ([.char ' '] ++ Text.join "; ".toText (members.map Member.signature) ++
      [.char ' ']) := by
  refine Text.SingleLine.append (Text.SingleLine.append (by decide) fun c inside => ?_) (by decide)
  rcases Text.mem_join inside with separator | ⟨text, known, here⟩
  · have plain : ∀ c ∈ "; ".toText, Text.isLineBreak c = false := by decide
    exact plain c separator
  · obtain ⟨member, there, rfl⟩ := List.mem_map.mp known
    exact Member.singleLine_signature (fits member there) c here

theorem seals_inlineInside (fits : ∀ member ∈ members, member.FitsLine) :
    Brackets.braces.Seals [] ([.char ' '] ++ Text.join "; ".toText (members.map Member.signature) ++
      [.char ' ']) := by
  have blank : Brackets.braces.Seals [] [.char ' '] := by decide
  refine (blank.append (Brackets.Seals.join (by decide) fun text inside => ?_)).append blank
  obtain ⟨member, here, rfl⟩ := List.mem_map.mp inside
  exact Member.seals_braces_signature (fits member here)

theorem inlineObject_eq (members : List Member) :
    inlineObject members = .char '{' :: ([.char ' '] ++
      Text.join "; ".toText (members.map Member.signature) ++ [.char ' ']) ++ [.char '}'] := by
  rw [inlineObject]
  simp only [List.append_assoc, List.cons_append]
  rfl

theorem slash_not_mem_inlineObject (fits : ∀ member ∈ members, member.FitsLine) :
    .char '/' ∉ inlineObject members := by
  rw [inlineObject, List.mem_append, List.mem_append]
  rintro ((opener | inner) | closer)
  · exact absurd opener (by decide)
  · exact slash_not_mem_join_signatures fits inner
  · exact absurd closer (by decide)

/-- What stands between the braces of an inline object is read as its members. -/
theorem readMembers_inline (some : members ≠ [])
    (writable : ∀ member ∈ members, member.IsWritable) :
    readMembers ([.char ' '] ++ Text.join "; ".toText (members.map Member.signature) ++
      [.char ' ']) = members.map Member.bare := by
  have fits := fun member here => (writable member here).toFitsLine
  have solid := solid_join_signatures some fits
  have free := slash_not_mem_join_signatures fits
  have single := singleLine_inlineInside fits
  have noDoc : Comment.wholeDoc? (Text.join "; ".toText (members.map Member.signature)) = none :=
    Comment.wholeDoc?_eq_none fun head => free (List.mem_of_mem_head? head)
  have noComment := dropLineComment_of_lacks (Text.lacks_of_not_mem free)
  rw [readMembers, Text.lines_singleLine single (by simp), readLines]
  simp only [Text.trim_padded (by decide : Text.allBlank [.char ' '] = true)
    (by decide : Text.allBlank [.char ' '] = true), Text.trim_eq_self solid.trimmed, noDoc,
    noComment, lineMembers_join_signatures writable, readLines, List.append_nil]
  cases members <;> rfl

end Inline

end Outline

end SchemaBoard
