import SchemaBoard.Member.Printer
import SchemaBoard.Member.Reader
import SchemaBoard.Proofs.TypeExpr.Characters
import SchemaBoard.Proofs.TypeExpr.RoundTrip

set_option autoImplicit false

/-!
Signatures of members. Main statements: a member with an identifier as its name is read back from
its signature with the type that its text is read as, and without its comment; a canonical type
whose names may stand in types comes back as it is.
-/
namespace SchemaBoard.Member

open Text (Brackets Solid SingleLine)

/-- Whether a member is named by an identifier and has a canonical type over identifiers. -/
def isRegular (member : Member) : Bool :=
  Text.isIdentifier member.name && TypeExpr.everywhere TypeExpr.hasIdentifier member.type &&
    TypeExpr.everywhere TypeExpr.isCanonicalNode member.type

/-- A text that can be written as the type of a member: solid, on one line and without a slash, with
its brackets closed and semicolons inside of them only. -/
structure IsTypeText (text : Text) : Prop where
  solid : Solid text
  single : SingleLine text
  noSlash : .char '/' ∉ text
  sealed : Brackets.withBraces.Seals [';'] text
  closed : Brackets.braces.Seals [] text

instance (text : Text) : Decidable (IsTypeText text) :=
  decidable_of_iff (Solid text ∧ SingleLine text ∧ .char '/' ∉ text ∧
      Brackets.withBraces.Seals [';'] text ∧ Brackets.braces.Seals [] text)
    ⟨fun ⟨solid, single, noSlash, sealed, closed⟩ => ⟨solid, single, noSlash, sealed, closed⟩,
      fun ⟨solid, single, noSlash, sealed, closed⟩ => ⟨solid, single, noSlash, sealed, closed⟩⟩

/-- A member that is named by an identifier and whose type can be written behind it. -/
structure FitsLine (member : Member) : Prop where
  word : Text.isIdentifier member.name = true
  type : IsTypeText member.type.render

/-- A member that fits on a line and whose type comes back. -/
structure IsWritable (member : Member) : Prop extends FitsLine member where
  back : TypeExpr.read member.type.render = member.type

/-- A member that is named by an identifier and has a type of names that may stand in types. -/
structure IsLegible (member : Member) : Prop where
  word : Text.isIdentifier member.name = true
  named : TypeExpr.everywhere TypeExpr.hasTypeName member.type = true

def bare (member : Member) : Member := { member with comment := none }

/-- What comes back from the signature of a member: its type is the one that is read. -/
def reread (member : Member) : Member :=
  { member with type := TypeExpr.read member.type.render, comment := none }

def behindName (member : Member) : Text :=
  (if member.optional then [.char '?'] else []) ++ ": ".toText ++ member.type.render

def plainSignature (member : Member) : Text := member.name ++ member.behindName

section Legible

variable {type : TypeExpr}

/-- Braces and semicolons are in no type of such names, so counting braces too changes nothing. -/
theorem seals_withBraces_render
    (named : TypeExpr.everywhere TypeExpr.hasTypeName type = true) :
    Brackets.withBraces.Seals [.char ';'] type.render := by
  have apart : ∀ c ∈ type.render, c ≠ .char '\x7b' ∧ c ≠ .char '\x7d' ∧ c ≠ .char ';' := by
    have allowed := TypeExpr.typeChars_render named
    intro c inside
    refine ⟨?_, ?_, ?_⟩ <;> rintro rfl
    · exact allowed.not_mem (by decide) inside
    · exact allowed.not_mem (by decide) inside
    · exact allowed.not_mem (by decide) inside
  have same : Brackets.withBraces.levelBehind? [.char ';'] 0 type.render =
      Brackets.plain.levelBehind? [] 0 type.render := by
    apply Text.levelBehind?_congr 0
    · intro c inside
      simp [Brackets.plain, Brackets.withBraces, apart c inside]
    · intro c inside
      simp [Brackets.plain, Brackets.withBraces, apart c inside]
    · intro c inside
      simp [apart c inside]
  rw [Brackets.Seals, same]
  exact TypeExpr.seals_render_plain (TypeExpr.everywhere_hasPlainName named)

theorem isTypeText_render (named : TypeExpr.everywhere TypeExpr.hasTypeName type = true) :
    IsTypeText type.render where
  solid := TypeExpr.solid_render (TypeExpr.everywhere_hasPlainName named)
  single := (TypeExpr.typeChars_render named).singleLine
  noSlash := (TypeExpr.typeChars_render named).not_mem (by decide)
  sealed := seals_withBraces_render named
  closed := TypeExpr.seals_braces_of_typeChars (TypeExpr.typeChars_render named)

variable {member : Member}

theorem IsLegible.fitsLine (legible : member.IsLegible) : member.FitsLine :=
  ⟨legible.word, isTypeText_render legible.named⟩

theorem isLegible_of_identifiers (word : Text.isIdentifier member.name = true)
    (named : TypeExpr.everywhere TypeExpr.hasIdentifier member.type = true) : member.IsLegible :=
  ⟨word, TypeExpr.everywhere_mono (fun _ => TypeExpr.hasTypeName_of_hasIdentifier) named⟩

theorem isLegible_of_isRegular (regular : member.isRegular = true) : member.IsLegible := by
  simp only [isRegular, Bool.and_eq_true] at regular
  exact isLegible_of_identifiers regular.1.1 regular.1.2

theorem isWritable_of_isRegular (regular : member.isRegular = true) : member.IsWritable := by
  have legible := isLegible_of_isRegular regular
  refine ⟨legible.fitsLine, ?_⟩
  simp only [isRegular, Bool.and_eq_true] at regular
  exact TypeExpr.read_render_of_canonical (TypeExpr.everywhere_hasPlainName legible.named) regular.2

end Legible

section Signature

variable {member : Member}

/-- The type of a writable member comes back. -/
theorem IsWritable.reread_eq (writable : member.IsWritable) : member.reread = member.bare := by
  rw [reread, writable.back, bare]

theorem signature_eq (fits : member.FitsLine) :
    member.signature =
      (if member.readonly then "readonly ".toText else []) ++ member.plainSignature := by
  have word := fits.word
  have name : nameText member.name = member.name := by
    have solid := Text.solid_identifier word
    rw [nameText, Text.trim_eq_self solid.trimmed, if_neg (by simpa using solid.nonempty)]
  rw [signature, plainSignature, behindName, name]
  simp only [List.append_assoc]

/-- What stands behind the name starts with a mark or with the colon. -/
theorem head?_behindName (member : Member) :
    ∃ c ∈ "?:".toText, member.behindName.head? = some c := by
  rw [behindName]
  cases member.optional with
  | true => exact ⟨.char '?', by decide, rfl⟩
  | false => exact ⟨.char ':', by decide, rfl⟩

theorem solid_plainSignature (fits : member.FitsLine) :
    Solid member.plainSignature := by
  have name := Text.solid_identifier fits.word
  rw [plainSignature, behindName, ← List.append_assoc]
  exact name.between _ fits.type.solid

theorem solid_signature (fits : member.FitsLine) : Solid member.signature := by
  rw [signature_eq fits]
  cases member.readonly with
  | true =>
    exact (by decide : Solid "readonly".toText).between [.char ' '] (solid_plainSignature fits)
  | false => exact solid_plainSignature fits

theorem ofPlain?_plainSignature (fits : member.FitsLine) :
    ofPlain? member.plainSignature = some { member.reread with readonly := false } := by
  have solid := fits.type.solid
  obtain ⟨mark, known, head⟩ := head?_behindName member
  have boundary : ∀ c, member.behindName.head? = some c → Text.isIdentifierPart c = false := by
    intro c here
    obtain rfl : mark = c := Option.some.inj (head.symm.trans here)
    have foreign : ∀ c ∈ "?:".toText, Text.isIdentifierPart c = false := by decide
    exact foreign mark known
  have found := Text.identifier?_append_of_boundary fits.word boundary
  have typeText : Text.trimStart (.char ' ' :: member.type.render) = member.type.render :=
    (Text.trimStart_append_blank (by decide : Text.allBlank [.char ' '] = true) _).trans
      (Text.trimStart_eq_self solid.trimmed.1)
  have some : member.type.render.isEmpty = false := by simpa using solid.nonempty
  have colon : Text.trimStart (.char ':' :: .char ' ' :: member.type.render) =
      .char ':' :: .char ' ' :: member.type.render := rfl
  rw [plainSignature, ofPlain?, found]
  obtain ⟨name, type, optional, readonly, comment⟩ := member
  cases optional with
  | true =>
    have behind : behindName ⟨name, type, true, readonly, comment⟩ =
        .char '?' :: .char ':' :: .char ' ' :: type.render := rfl
    rw [behind]
    simp [colon, typeText, some, reread]
  | false =>
    have behind : behindName ⟨name, type, false, readonly, comment⟩ =
        .char ':' :: .char ' ' :: type.render := rfl
    rw [behind]
    simp [colon, typeText, some, reread]

/-- A plain signature does not start with the modifier, whatever its name. -/
theorem afterWord?_readonly_plainSignature (fits : member.FitsLine) :
    Text.afterWord? "readonly".toText member.plainSignature = none := by
  obtain ⟨mark, known, head⟩ := head?_behindName member
  have foreign : ∀ c ∈ "?:".toText, Text.isIdentifierPart c = false ∧ Text.isBlank c = false := by
    decide
  apply Text.afterWord?_identifier_append (by decide) fits.word
  intro c here
  obtain rfl : mark = c := Option.some.inj (head.symm.trans here)
  exact foreign mark known

/-- A signature is read back without the comment of its member, and with the type that its text is
read as. -/
theorem ofSignature?_signature (fits : member.FitsLine) :
    ofSignature? member.signature = some member.reread := by
  have plain := ofPlain?_plainSignature fits
  have absent := afterWord?_readonly_plainSignature fits
  have solid := solid_plainSignature fits
  rw [signature_eq fits, ofSignature?]
  cases modifier : member.readonly with
  | true =>
    have found : Text.afterWord? "readonly".toText ("readonly ".toText ++ member.plainSignature) =
        some member.plainSignature := by
      have after := Text.afterWord?_append "readonly".toText member.plainSignature (c := ' ')
        (by decide)
      rwa [Text.trimStart_eq_self solid.trimmed.1] at after
    rw [if_pos rfl, found, Option.bind_some, plain]
    simp [reread, ← modifier]
  | false =>
    rw [if_neg Bool.false_ne_true, List.nil_append, absent, Option.bind_none, plain]
    simp [reread, ← modifier]

/-- Each part of a signature keeps its braces closed, and semicolons inside of them. -/
theorem seals_signature_of_type {brackets : Brackets} (barred : Text) (fits : member.FitsLine)
    (foreign : ∀ c ∈ brackets.openers ++ brackets.closers ++ barred,
      Text.isIdentifierPart c = false ∧ c ∉ "?: ".toText)
    (type : brackets.Seals barred member.type.render) : brackets.Seals barred member.signature := by
  have flat : ∀ text : Text,
      (∀ c ∈ text, Text.isIdentifierPart c = true ∨ c ∈ "?: ".toText) →
        brackets.Seals barred text := by
    intro text parts
    apply Brackets.Seals.flat
    intro c inside
    have other : c ∉ brackets.openers ++ brackets.closers ++ barred := by
      intro mark
      rcases parts c inside with part | known
      · rw [(foreign c mark).1] at part
        cases part
      · exact (foreign c mark).2 known
    simpa [and_assoc] using other
  have name : brackets.Seals barred member.name :=
    flat member.name fun c here => Or.inl (Text.part_of_mem_identifier fits.word here)
  have colon : brackets.Seals barred ": ".toText := flat _ (by decide)
  have optional : brackets.Seals barred (if member.optional then [.char '?'] else []) := by
    cases member.optional
    · exact flat _ (by decide)
    · exact flat _ (by decide)
  have modifier : brackets.Seals barred (if member.readonly then "readonly ".toText else []) := by
    cases member.readonly
    · exact flat _ (by decide)
    · exact flat _ (by decide)
  rw [signature_eq fits, plainSignature, behindName]
  exact modifier.append (name.append ((optional.append colon).append type))

theorem seals_signature (fits : member.FitsLine) :
    Brackets.withBraces.Seals [.char ';'] member.signature :=
  seals_signature_of_type _ fits (by decide) fits.type.sealed

theorem seals_braces_signature (fits : member.FitsLine) :
    Brackets.braces.Seals [] member.signature :=
  seals_signature_of_type _ fits (by decide) fits.type.closed

theorem read?_signature (fits : member.FitsLine) :
    read? member.signature = some member.reread := by
  have trim := Text.trim_eq_self (solid_signature fits).trimmed
  have kept : Text.dropFinal ';' member.signature = member.signature :=
    if_neg ((seals_signature fits).getLast?_ne (by decide) (List.mem_singleton_self _))
  rw [read?, signatureText, trim, kept, trim, ofSignature?_signature fits]

theorem IsWritable.read?_signature (writable : member.IsWritable) :
    read? member.signature = some member.bare := by
  rw [Member.read?_signature writable.toFitsLine, writable.reread_eq]

/-- A signature holds nothing but its words, its marks and its type. -/
theorem mem_signature {c : CodePoint} (fits : member.FitsLine) (inside : c ∈ member.signature) :
    Text.isIdentifierPart c = true ∨ c ∈ "?: ".toText ∨ c ∈ member.type.render := by
  rw [signature_eq fits, plainSignature, behindName] at inside
  simp only [List.mem_append] at inside
  rcases inside with modifier | name | (optional | colon) | type
  · have known : ∀ c ∈ if member.readonly then "readonly ".toText else [],
        Text.isIdentifierPart c = true ∨ c ∈ "?: ".toText := by
      cases member.readonly <;> decide
    exact (known c modifier).imp_right Or.inl
  · exact Or.inl (Text.part_of_mem_identifier fits.word name)
  · have known : ∀ c ∈ if member.optional then [CodePoint.char '?'] else [], c ∈ "?: ".toText := by
      cases member.optional <;> decide
    exact Or.inr (Or.inl (known c optional))
  · have known : ∀ c ∈ ": ".toText, c ∈ "?: ".toText := by decide
    exact Or.inr (Or.inl (known c colon))
  · exact Or.inr (Or.inr type)

theorem slash_not_mem_signature (fits : member.FitsLine) : .char '/' ∉ member.signature := by
  intro inside
  rcases mem_signature fits inside with part | mark | type
  · exact absurd part (by decide)
  · exact absurd mark (by decide)
  · exact fits.type.noSlash type

theorem singleLine_signature (fits : member.FitsLine) : SingleLine member.signature := by
  intro c inside
  rcases mem_signature fits inside with part | mark | type
  · exact Text.isLineBreak_of_not_blank (Text.isBlank_of_isIdentifierPart part)
  · have known : ∀ c ∈ "?: ".toText, Text.isLineBreak c = false := by decide
    exact known c mark
  · exact fits.type.single c type

end Signature

end SchemaBoard.Member
