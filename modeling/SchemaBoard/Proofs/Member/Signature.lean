import SchemaBoard.Proofs.TypeExpr.Grammar
import SchemaBoard.Member.Reader

set_option autoImplicit false

/-!
Readings of signatures: a name, the marks around it and the blanks between them, in front of a type.
Main statement: a line is a member exactly if its signature has a reading. All its readings name the
same parts, and the member is what they say.
-/
namespace SchemaBoard

namespace Member

/-- The member by a name, in front of a text that starts with blanks, a colon and a type. -/
def typed? (name : Text) (optional : Bool) (behind : Text) : Option Member :=
  match Text.trimStart behind with
  | .char ':' :: others =>
    if (Text.trimStart others).isEmpty then none
    else some { name := name, type := TypeExpr.read (Text.trimStart others), optional := optional }
  | _ => none

theorem ofPlain?_of_marked {text name behind : Text}
    (cut : Text.identifier? text = some (name, .char '?' :: behind)) :
    ofPlain? text = typed? name true behind := by
  rw [ofPlain?, cut]
  rfl

theorem ofPlain?_of_unmarked {text name behind : Text}
    (cut : Text.identifier? text = some (name, behind)) (other : behind.head? ≠ some (.char '?')) :
    ofPlain? text = typed? name false behind := by
  rw [ofPlain?, cut]
  cases behind with
  | nil => rfl
  | cons c rest =>
    have unmarked : c ≠ .char '?' := fun same => other (congrArg some same)
    simp only [List.cons.injEq, unmarked, false_and, imp_false, not_false_eq_true, implies_true]
    rfl

/-- The parts of a signature without a modifier, with the blanks between them. -/
structure Plain where
  name : Text
  optional : Bool
  /-- The blanks in front of the colon. -/
  gap : Text
  /-- Blanks behind the colon. -/
  pad : Text
  /-- What stands behind these blanks. -/
  type : Text
  word : Text.isIdentifier name = true
  gap_blank : Text.allBlank gap = true
  pad_blank : Text.allBlank pad = true
  visible : Text.allBlank type = false

namespace Plain

def behindColon (plain : Plain) : Text := plain.pad ++ plain.type

/-- What stands behind the name and its mark. -/
def behindMark (plain : Plain) : Text := plain.gap ++ .char ':' :: plain.behindColon

def behindName (plain : Plain) : Text :=
  (if plain.optional then [.char '?'] else []) ++ plain.behindMark

def text (plain : Plain) : Text := plain.name ++ plain.behindName

def member (plain : Plain) : Member :=
  { name := plain.name, type := TypeExpr.read plain.type, optional := plain.optional }

/-- What the signature tells of the parts. It does not tell which of the blanks behind the colon
count as the type's. -/
def parts (plain : Plain) : Text × Bool × Text × Text :=
  (plain.name, plain.optional, plain.gap, plain.behindColon)

variable (plain : Plain)

theorem colon_visible : ∀ c, (CodePoint.char ':' :: plain.behindColon).head? = some c →
    Text.isBlank c = false := by
  intro c head
  obtain rfl := Option.some.inj head
  decide

theorem trimStart_behindMark :
    Text.trimStart plain.behindMark = .char ':' :: plain.behindColon :=
  Text.trimStart_blank_append plain.gap_blank plain.colon_visible

/-- Blanks and the colon go on no name and are no mark. -/
theorem head?_behindMark {c : CodePoint} (head : plain.behindMark.head? = some c) :
    Text.isIdentifierPart c = false ∧ c ≠ .char '?' := by
  have blank := plain.gap_blank
  unfold behindMark at head
  cases gap : plain.gap with
  | nil =>
    rw [gap] at head
    obtain rfl := Option.some.inj head
    exact ⟨by decide, by decide⟩
  | cons d rest =>
    rw [gap] at head blank
    obtain rfl := Option.some.inj head
    have here := List.all_eq_true.mp blank d (by simp)
    refine ⟨Text.isIdentifierPart_of_blank here, ?_⟩
    rintro rfl
    cases here

theorem behindMark_unmarked : plain.behindMark.head? ≠ some (.char '?') :=
  fun head => (plain.head?_behindMark head).2 rfl

/-- The name ends in front of what stands behind it. -/
theorem identifier?_text : Text.identifier? plain.text = some (plain.name, plain.behindName) := by
  refine Text.identifier?_append_of_boundary plain.word fun c head => ?_
  unfold behindName at head
  cases optional : plain.optional with
  | true =>
    rw [optional] at head
    obtain rfl := Option.some.inj head
    decide
  | false =>
    rw [optional, if_neg Bool.false_ne_true, List.nil_append] at head
    exact (plain.head?_behindMark head).1

theorem text_visible : ∀ c, plain.text.head? = some c → Text.isBlank c = false := by
  intro c head
  obtain ⟨d, rest, eq, visible⟩ := (Text.solid_identifier plain.word).exists_head
  have first : plain.text.head? = some d := by rw [text, eq]; rfl
  rw [first] at head
  exact Option.some.inj head ▸ visible

theorem read_behindColon :
    TypeExpr.read (Text.trimStart plain.behindColon) = TypeExpr.read plain.type := by
  have padded : TypeExpr.read (plain.pad ++ plain.type ++ []) = TypeExpr.read plain.type :=
    TypeExpr.read_padded plain.pad_blank rfl
  rwa [List.append_nil, ← behindColon, ← TypeExpr.read_trimStart] at padded

theorem behindColon_visible : (Text.trimStart plain.behindColon).isEmpty = false := by
  cases empty : (Text.trimStart plain.behindColon).isEmpty with
  | false => rfl
  | true =>
    have blank : Text.allBlank plain.behindColon = true :=
      Text.dropWhile_eq_nil_iff.mp (List.isEmpty_iff.mp empty)
    rw [behindColon, Text.allBlank_append, plain.visible, Bool.and_false] at blank
    cases blank

theorem typed?_behindMark : typed? plain.name plain.optional plain.behindMark =
    some plain.member := by
  rw [typed?, plain.trimStart_behindMark]
  simp [plain.behindColon_visible, plain.read_behindColon, member]

/-- Reading finds the parts. -/
theorem ofPlain?_text : ofPlain? plain.text = some plain.member := by
  have cut := plain.identifier?_text
  rw [← plain.typed?_behindMark]
  unfold behindName at cut
  cases optional : plain.optional with
  | true =>
    rw [optional] at cut
    exact ofPlain?_of_marked cut
  | false =>
    rw [optional, if_neg Bool.false_ne_true, List.nil_append] at cut
    exact ofPlain?_of_unmarked cut plain.behindMark_unmarked

/-- What is read behind a name and its mark has parts. -/
theorem exists_of_typed? {name behind : Text} {optional : Bool} {found : Member}
    (word : Text.isIdentifier name = true) (reads : typed? name optional behind = some found) :
    ∃ plain : Plain, plain.name = name ∧ plain.optional = optional ∧
      plain.behindMark = behind ∧ plain.member = found := by
  unfold typed? at reads
  split at reads
  · next others colon =>
    split at reads
    · cases reads
    · next visible =>
      have gap := Text.takeWhile_append_trimStart behind
      rw [colon] at gap
      refine ⟨⟨name, optional, behind.takeWhile Text.isBlank, others.takeWhile Text.isBlank,
        Text.trimStart others, word, Text.allBlank_takeWhile behind,
        Text.allBlank_takeWhile others,
        Text.allBlank_trimStart_eq_false (by simpa using visible)⟩, rfl, rfl, ?_, ?_⟩
      · rw [behindMark, behindColon, Text.takeWhile_append_trimStart, gap]
      · exact Option.some.inj reads
  · cases reads

/-- Whatever is read without a modifier has parts. -/
theorem exists_of_ofPlain? {text : Text} {found : Member} (reads : ofPlain? text = some found) :
    ∃ plain : Plain, plain.text = text ∧ plain.member = found := by
  cases cut : Text.identifier? text with
  | none =>
    rw [ofPlain?, cut] at reads
    cases reads
  | some both =>
    obtain ⟨name, behind⟩ := both
    have whole := Text.identifier?_append cut
    have word := Text.identifier?_isIdentifier cut
    by_cases marked : behind.head? = some (.char '?')
    · obtain ⟨rest, rfl⟩ := List.head?_eq_some_iff.mp marked
      rw [ofPlain?_of_marked cut] at reads
      obtain ⟨plain, rfl, optional, rfl, member⟩ := exists_of_typed? word reads
      refine ⟨plain, ?_, member⟩
      rw [Plain.text, behindName, optional, ← whole]
      rfl
    · rw [ofPlain?_of_unmarked cut marked] at reads
      obtain ⟨plain, rfl, optional, rfl, member⟩ := exists_of_typed? word reads
      refine ⟨plain, ?_, member⟩
      rw [Plain.text, behindName, optional, ← whole]
      rfl

/-- The signature tells its parts. -/
theorem parts_eq_of_text_eq {one other : Plain} (same : one.text = other.text) :
    one.parts = other.parts := by
  have cut := one.identifier?_text
  rw [same, other.identifier?_text, Option.some.injEq, Prod.mk.injEq] at cut
  obtain ⟨name, behind⟩ := cut
  unfold behindName at behind
  have marked : one.optional = other.optional := by
    cases first : one.optional with
    | true =>
      cases second : other.optional with
      | true => rfl
      | false =>
        rw [first, second] at behind
        exact absurd (congrArg List.head? behind) other.behindMark_unmarked
    | false =>
      cases second : other.optional with
      | true =>
        rw [first, second] at behind
        exact absurd (congrArg List.head? behind).symm one.behindMark_unmarked
      | false => rfl
  rw [marked] at behind
  obtain ⟨gap, colon⟩ := Text.blank_append_inj other.gap_blank one.gap_blank other.colon_visible
    one.colon_visible (List.append_cancel_left behind)
  rw [parts, parts, name, marked, gap, List.tail_eq_of_cons_eq colon]

end Plain

/-- The parts of a signature. -/
structure Reading extends Plain where
  /-- The blanks behind the modifier `readonly`, if it is there. -/
  modifier : Option Text
  modifier_blank : ∀ blanks, modifier = some blanks → blanks ≠ [] ∧ Text.allBlank blanks = true

namespace Reading

def modifierText (reading : Reading) : Text :=
  match reading.modifier with
  | some blanks => "readonly".toText ++ blanks
  | none => []

def text (reading : Reading) : Text := reading.modifierText ++ reading.toPlain.text

def member (reading : Reading) : Member :=
  { reading.toPlain.member with readonly := reading.modifier.isSome }

/-- What the signature tells of the parts. -/
def parts (reading : Reading) : Option Text × Text × Bool × Text × Text :=
  (reading.modifier, reading.toPlain.parts)

variable (reading : Reading)

/-- Behind the modifier stands the rest of the signature. -/
theorem afterWord?_text {blanks : Text} (modified : reading.modifier = some blanks) :
    Text.afterWord? "readonly".toText reading.text = some reading.toPlain.text := by
  obtain ⟨some, blank⟩ := reading.modifier_blank blanks modified
  obtain ⟨c, rest, rfl⟩ := List.exists_cons_of_ne_nil some
  have first := List.all_eq_true.mp blank c (by simp)
  have others : Text.allBlank rest = true :=
    List.all_eq_true.mpr fun d member => List.all_eq_true.mp blank d (List.mem_cons_of_mem c member)
  rw [text, modifierText, modified]
  show Text.afterWord? _ (("readonly".toText ++ c :: rest) ++ reading.toPlain.text) = _
  rw [List.append_assoc, List.cons_append, Text.afterWord?_append _ _ first,
    Text.trimStart_blank_append others reading.text_visible]

theorem ofPlain?_colon (rest : Text) : ofPlain? (.char ':' :: rest) = none := rfl

/-- A name that starts with the word of the modifier has no signature behind that word, but a mark
or a colon. -/
theorem ofPlain?_afterWord? (plain : Plain) :
    (Text.afterWord? "readonly".toText plain.text).bind ofPlain? = none := by
  cases found : Text.afterWord? "readonly".toText plain.text with
  | none => rfl
  | some behind =>
    obtain ⟨blanks, some, blank, visible, whole⟩ := Text.exists_of_afterWord? found
    obtain ⟨c, rest, rfl⟩ := List.exists_cons_of_ne_nil some
    have first : Text.isBlank c = true := List.all_eq_true.mp blank c (by simp)
    have boundary : ∀ d, (c :: rest ++ behind).head? = Option.some d →
        Text.isIdentifierPart d = false :=
      fun d head => Option.some.inj head ▸ Text.isIdentifierPart_of_blank first
    have word : Text.identifier? ("readonly".toText ++ (c :: rest ++ behind)) =
        Option.some ("readonly".toText, c :: rest ++ behind) :=
      Text.identifier?_append_of_boundary (by decide) boundary
    have cut := plain.identifier?_text
    rw [← whole, List.append_assoc, word, Option.some.injEq, Prod.mk.injEq] at cut
    have name : c :: rest ++ behind = plain.behindName := cut.2
    unfold Plain.behindName at name
    cases optional : plain.optional with
    | true =>
      rw [optional] at name
      obtain rfl : c = .char '?' := List.head_eq_of_cons_eq name
      cases first
    | false =>
      rw [optional, if_neg Bool.false_ne_true, List.nil_append] at name
      have colon := plain.trimStart_behindMark
      rw [← name, Text.trimStart_blank_append blank visible] at colon
      rw [Option.bind_some, colon, ofPlain?_colon]

/-- Reading finds the parts. -/
theorem ofSignature?_text : ofSignature? reading.text = some reading.member := by
  rw [ofSignature?, member]
  cases modified : reading.modifier with
  | some blanks =>
    rw [reading.afterWord?_text modified, Option.bind_some, reading.toPlain.ofPlain?_text]
    rfl
  | none =>
    have plain : reading.text = reading.toPlain.text := by
      rw [text, modifierText, modified, List.nil_append]
    rw [plain, ofPlain?_afterWord? reading.toPlain, reading.toPlain.ofPlain?_text]
    rfl

/-- Whatever is read has parts. -/
theorem exists_of_ofSignature? {text : Text} {found : Member}
    (reads : ofSignature? text = some found) :
    ∃ reading : Reading, reading.text = text ∧ reading.member = found := by
  rw [ofSignature?] at reads
  cases modified : (Text.afterWord? "readonly".toText text).bind ofPlain? with
  | none =>
    rw [modified] at reads
    obtain ⟨plain, rfl, rfl⟩ := Plain.exists_of_ofPlain? reads
    exact ⟨⟨plain, none, fun _ absent => nomatch absent⟩, rfl, rfl⟩
  | some bare =>
    rw [modified] at reads
    obtain ⟨behind, found, here⟩ := Option.bind_eq_some_iff.mp modified
    obtain ⟨plain, rfl, rfl⟩ := Plain.exists_of_ofPlain? here
    obtain ⟨blanks, some, blank, -, rfl⟩ := Text.exists_of_afterWord? found
    refine ⟨⟨plain, Option.some blanks, fun others same => ?_⟩, ?_, Option.some.inj reads⟩
    · exact Option.some.inj same ▸ ⟨some, blank⟩
    · rw [Reading.text, modifierText]

/-- The signature tells its parts. -/
theorem parts_eq_of_text_eq {one other : Reading} (same : one.text = other.text) :
    one.parts = other.parts := by
  have inside : ∀ reading : Reading, reading.modifier = none →
      reading.text = reading.toPlain.text := by
    intro reading absent
    rw [text, modifierText, absent, List.nil_append]
  -- Behind the modifier there is a signature, and behind a name of that word there is none.
  have apart : ∀ (one other : Reading) (blanks : Text), one.modifier = none →
      other.modifier = some blanks → one.text ≠ other.text := by
    intro one other blanks absent modified same
    have none := ofPlain?_afterWord? one.toPlain
    rw [← inside one absent, same, other.afterWord?_text modified, Option.bind_some,
      other.toPlain.ofPlain?_text] at none
    cases none
  cases first : one.modifier with
  | none =>
    cases second : other.modifier with
    | none =>
      rw [inside one first, inside other second] at same
      rw [parts, parts, first, second, Plain.parts_eq_of_text_eq same]
    | some blanks => exact absurd same (apart one other blanks first second)
  | some blanks =>
    cases second : other.modifier with
    | none => exact absurd same.symm (apart other one blanks second first)
    | some others =>
      rw [text, text, modifierText, modifierText, first, second] at same
      simp only [List.append_assoc] at same
      obtain ⟨gap, rest⟩ := Text.blank_append_inj (one.modifier_blank blanks first).2
        (other.modifier_blank others second).2 one.text_visible other.text_visible
        (List.append_cancel_left same)
      rw [parts, parts, first, second, gap, Plain.parts_eq_of_text_eq rest]

end Reading

/-- A line is a member exactly if its signature has a reading. All its readings name the same parts,
and the member is the one that they make. -/
theorem read?_reading (line : Text) :
    ((read? line).isSome = true ↔ ∃ reading : Reading, reading.text = signatureText line) ∧
      ∀ reading other : Reading, reading.text = signatureText line →
        other.text = signatureText line →
          read? line = some reading.member ∧ reading.parts = other.parts := by
  refine ⟨⟨fun found => ?_, ?_⟩, fun reading other first second => ⟨?_, ?_⟩⟩
  · obtain ⟨member, reads⟩ := Option.isSome_iff_exists.mp found
    obtain ⟨reading, text, -⟩ := Reading.exists_of_ofSignature? reads
    exact ⟨reading, text⟩
  · rintro ⟨reading, text⟩
    rw [read?, ← text, reading.ofSignature?_text]
    rfl
  · rw [read?, ← first, reading.ofSignature?_text]
  · exact Reading.parts_eq_of_text_eq (first.trans second.symm)

/-- In front of a name the word is the modifier, also in front of the same word. -/
theorem read?_reading_modifier_twice :
    signatureText " readonly readonly?: T[];\n".toText = "readonly readonly?: T[]".toText ∧
      read? " readonly readonly?: T[];\n".toText = some
        { name := "readonly".toText, type := TypeExpr.read "T[]".toText, optional := true,
          readonly := true } := by
  have signature : signatureText " readonly readonly?: T[];\n".toText =
      "readonly readonly?: T[]".toText := by decide
  let reading : Reading :=
    { name := "readonly".toText, optional := true, gap := [], pad := " ".toText,
      type := "T[]".toText, modifier := some " ".toText, word := by decide, gap_blank := rfl,
      pad_blank := rfl, visible := rfl,
      modifier_blank := fun _ same => Option.some.inj same ▸ ⟨by decide, rfl⟩ }
  have text : reading.text = signatureText " readonly readonly?: T[];\n".toText :=
    signature.symm ▸ (by decide)
  exact ⟨signature, ((read?_reading _).2 reading reading text text).1⟩

end Member
end SchemaBoard
