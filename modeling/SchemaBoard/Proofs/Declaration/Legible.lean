import Mathlib.Data.List.Basic
import SchemaBoard.Proofs.Declaration.Alias
import SchemaBoard.Proofs.Declaration.Heads
import SchemaBoard.Proofs.Declaration.MemberLines

set_option autoImplicit false

/-!
Legible declarations: identifiers wherever something is named, with types that need not come back,
lists that may be empty and comments of any text. Main statements: their text ends outside of its
comments, and it is read as a declaration of the same name, an interface with the same bases and
members but for their comments.
-/
namespace SchemaBoard

open Text (Solid SingleLine)

namespace Outline

def isBlankOrWord (text : Text) : Bool := Text.allBlank text || Text.isIdentifier text

/-- What a declaration says besides its name is legible; an operand of an alias may be blank. -/
structure HasLegibleParts (declaration : Declaration) : Prop where
  kind : declaration.kind ≠ .enum
  bases : ∀ base ∈ declaration.bases, Text.isIdentifier base = true
  members : ∀ member ∈ declaration.fields, member.FitsLine
  union : ∀ text ∈ declaration.unionTypes, isBlankOrWord text = true
  intersection : ∀ text ∈ declaration.intersectionTypes, isBlankOrWord text = true

/-- A declaration that is named by an identifier and has legible parts. -/
structure IsLegible (declaration : Declaration) : Prop extends HasLegibleParts declaration where
  word : Text.isIdentifier declaration.name = true

section Root

variable {declaration : Declaration}

theorem isIdentifier_of_mem_filter {texts : List Text}
    (words : ∀ text ∈ texts, isBlankOrWord text = true) {text : Text}
    (kept : text ∈ texts.filter fun text => !Text.allBlank text) :
    Text.isIdentifier text = true := by
  obtain ⟨member, visible⟩ := List.mem_filter.mp kept
  have either := words text member
  rw [isBlankOrWord, Bool.or_eq_true] at either
  rcases either with blank | word
  · rw [blank] at visible
    cases visible
  · exact word

theorem join_words {texts : List Text} {separator : Text} (some : texts ≠ [])
    (words : ∀ text ∈ texts, Text.isIdentifier text = true) (free : .char '/' ∉ separator) :
    Solid (Text.join separator texts) ∧ .char '/' ∉ Text.join separator texts := by
  refine ⟨Solid.join separator some fun text here => Text.solid_identifier (words text here), ?_⟩
  intro inside
  rcases Text.mem_join inside with between | ⟨text, member, here⟩
  · exact free between
  · exact Text.not_mem_identifier (words text member) (by decide) here

/-- The right-hand side of an alias is there, and no comment starts in it. -/
theorem aliasRoot_of_parts (parts : HasLegibleParts declaration) :
    Solid (aliasRoot declaration) ∧ .char '/' ∉ aliasRoot declaration := by
  rw [aliasRoot]
  split
  · next some =>
    exact join_words (by simpa using some) (fun _ => isIdentifier_of_mem_filter parts.union)
      (by decide)
  · split
    · next some =>
      exact join_words (by simpa using some)
        (fun _ => isIdentifier_of_mem_filter parts.intersection) (by decide)
    · split
      · exact ⟨(isRoot_inlineObject parts.members).solid, slash_not_mem_inlineObject parts.members⟩
      · decide

end Root

section Body

variable {declaration : Declaration}

def bodyText (declaration : Declaration) : Text := Text.join ['\n'] declaration.bodyLines

theorem bodyText_of_interface (kind : declaration.kind = .interface) :
    declaration.bodyText = "interface ".toText ++ (nameText declaration.name ++
      (behindName declaration.bases ++
        (insideOf (declaration.fields.flatMap memberLines) ++ "\x7d".toText))) := by
  rw [bodyText, bodyLines_of_interface kind, join_interfaceLines]

theorem bodyText_of_alias (kind : declaration.kind = .type ∨ declaration.kind = .synonym) :
    declaration.bodyText = aliasText (nameText declaration.name) (aliasRoot declaration) := by
  rw [bodyText, bodyLines_of_alias kind, Text.join_singleton]

theorem HasLegibleParts.kinds (parts : HasLegibleParts declaration) :
    declaration.kind = .interface ∨ declaration.kind = .type ∨ declaration.kind = .synonym := by
  have other := parts.kind
  cases kind : declaration.kind with
  | interface => exact Or.inl rfl
  | type => exact Or.inr (Or.inl rfl)
  | synonym => exact Or.inr (Or.inr rfl)
  | enum => exact absurd kind other

theorem not_mem_behindName {bases : List Text}
    (words : ∀ base ∈ bases, Text.isIdentifier base = true) : .char '/' ∉ behindName bases := by
  intro inside
  rcases mem_behindName words inside with part | known
  · exact absurd part (by decide)
  · exact absurd known (by decide)

theorem endsOutside_bodyText (parts : HasLegibleParts declaration)
    (free : .char '/' ∉ nameText declaration.name) : Comment.EndsOutside declaration.bodyText := by
  rcases parts.kinds with interface | assigned
  · obtain ⟨front, last, lines, ends⟩ := exists_last_bodyLines declaration
    rw [bodyText]
    refine ⟨lines ▸ endsVisibly_join ends, ?_, Comment.not_blockTail_join fun line here => ?_⟩
    · rw [bodyLines_of_interface interface]
      exact not_lineTail_interfaceLines _ _ _
    · rw [bodyLines_of_interface interface] at here
      rcases List.mem_cons.mp here with rfl | here
      · left
        have keyword : .char '/' ∉ "interface ".toText := by decide
        simp [keyword, free, not_mem_behindName parts.bases]
      · rcases List.mem_append.mp here with member | brace
        · obtain ⟨member, known, there⟩ := List.mem_flatMap.mp member
          exact closedLine_of_mem_memberLines (parts.members member known) there
        · obtain rfl := List.mem_singleton.mp brace
          exact Or.inl (by decide)
  · have noSlash : .char '/' ∉ declaration.bodyText := by
      have keyword : .char '/' ∉ "type ".toText := by decide
      have equals : .char '/' ∉ " = ".toText := by decide
      rw [bodyText_of_alias assigned, aliasText]
      simp [keyword, equals, free, (aliasRoot_of_parts parts).2]
    refine ⟨?_, ?_, Comment.not_blockTail_of_free noSlash⟩
    · rw [bodyText_of_alias assigned]
      exact endsVisibly_aliasText
    · exact Comment.not_lineTail_of_lacks (Text.lacks_of_not_mem noSlash)

theorem solid_bodyText (parts : HasLegibleParts declaration)
    (ends : Comment.EndsVisibly declaration.bodyText) :
    Solid declaration.bodyText ∧ declaration.bodyText.head? ≠ some (.char '/') := by
  rcases parts.kinds with interface | assigned
  · rw [bodyText_of_interface interface] at ends ⊢
    exact ⟨ends.solid (c := .char 'i') rfl (by decide), nofun⟩
  · rw [bodyText_of_alias assigned] at ends ⊢
    exact ⟨ends.solid (c := .char 't') rfl (by decide), nofun⟩

end Body

section Reading

variable {declaration : Declaration}

/-- The lines of a member hold it with the type that its text is read as. -/
theorem flatMap_held_memberLines {member : Member} (fits : member.FitsLine) :
    (memberLines member).flatMap held = [member.reread] := by
  have notes : ∀ line ∈ memberCommentLines member.comment, held line = [] := by
    intro line here
    obtain ⟨text, rfl⟩ := eq_of_mem_memberCommentLines here
    rw [held, docLine?, wholeDoc?_note]
    rfl
  have signature : held ("  ".toText ++ member.render) = [member.reread] := by
    have free : .char '/' ∉ "  ".toText ++ member.render := by
      intro inside
      rcases List.mem_append.mp inside with blank | here
      · exact absurd blank (by decide)
      · exact Member.slash_not_mem_render fits here
    have code := (held_code free (Or.inl rfl)).2
    rw [List.append_nil] at code
    rw [code, ← lineMembers_trim, Text.trim_blank_append (by decide), lineMembers_trim,
      Member.lineMembers_render fits]
  rw [memberLines, List.flatMap_append, List.flatMap_eq_nil_iff.mpr notes, List.nil_append,
    List.flatMap_singleton, signature]

/-- Whatever their comments say, members are read with the types that their texts are read as. -/
theorem map_bare_readMembers {members : List Member}
    (fits : ∀ member ∈ members, member.FitsLine) :
    (readMembers (insideOf (members.flatMap memberLines))).map Member.bare =
      members.map Member.reread := by
  rw [readMembers_insideOf fun line => singleLine_of_mem_flatMap_memberLines fits,
    map_bare_readLines, List.flatMap_assoc, List.map_eq_flatMap]
  exact List.flatMap_congr fun member here => flatMap_held_memberLines (fits member here)

theorem IsLegible.nameText_eq (legible : IsLegible declaration) :
    nameText declaration.name = declaration.name := nameText_of_isIdentifier legible.word

theorem IsLegible.endsOutside (legible : IsLegible declaration) :
    Comment.EndsOutside declaration.bodyText := by
  refine endsOutside_bodyText legible.toHasLegibleParts ?_
  rw [legible.nameText_eq]
  exact Text.not_mem_identifier legible.word (by decide)

/-- The text of a legible declaration declares its name. That of an interface goes on with its bases
and its members. -/
theorem exists_declared_of_isLegible (legible : IsLegible declaration) :
    ∃ found, (interface? declaration.bodyText).or (assigned? declaration.bodyText) = some found ∧
      found.name = declaration.name ∧
      (declaration.kind = .interface → found.kind = .interface ∧ found.bases = declaration.bases ∧
        found.fields.map Member.bare = declaration.fields.map Member.reread) := by
  rcases legible.kinds with interface | assigned
  · rw [bodyText_of_interface interface, legible.nameText_eq,
      interface?_of_body legible.word legible.bases (beforeLastBrace?_append _)]
    exact ⟨_, rfl, rfl, fun _ => ⟨rfl, rfl, map_bare_readMembers legible.members⟩⟩
  · have other : declaration.kind ≠ .interface := by
      rcases assigned with kind | kind <;> rw [kind] <;> decide
    rw [bodyText_of_alias assigned, legible.nameText_eq, interface?_aliasText,
      assigned?_aliasText legible.word (aliasRoot_of_parts legible.toHasLegibleParts).1]
    exact ⟨_, rfl, (ofRightHandSide_parts _ _).1, fun kind => absurd kind other⟩

/-- The comment in front of a text is read, and nothing is dropped behind the text. -/
theorem read?_render_of_endsOutside (parts : HasLegibleParts declaration)
    (ends : Comment.EndsOutside declaration.bodyText) :
    read? declaration.render =
      ((interface? declaration.bodyText).or (assigned? declaration.bodyText)).map
        fun found => { found with comment := settledHeader declaration.comment } := by
  obtain ⟨solid, plain⟩ := solid_bodyText parts ends.visible
  have written : declaration.render = headed declaration.comment declaration.bodyText :=
    render_eq_headed declaration
  rw [written, read?_headed solid plain, Comment.dropTrailing_eq_self ends.visible ends.noLine]

end Reading

end Outline

end SchemaBoard
