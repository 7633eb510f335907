import SchemaBoard.Proofs.Declaration.Heads
import SchemaBoard.Proofs.Declaration.MemberLines
import SchemaBoard.Proofs.Declaration.Neighbours

set_option autoImplicit false

/-!
Enumerations behind other declarations. An enumeration starts no block, so its lines go on the one
in front of it. Main statement: behind an interface, and behind what is not supported, they change
nothing in how that block is read.
-/
namespace SchemaBoard

open Comment (EndsVisibly docOpen blockClose)

namespace Outline

section Enumeration

def enumerationHead (name : Text) : Text := "enum ".toText ++ (name ++ " \x7b".toText)

def enumerationLines (name : Text) : List Text := [enumerationHead name, "\x7d".toText]

/-- An enumeration as it stands behind another declaration. -/
def enumerationTail (name : Text) : Text :=
  .char '\n' :: .char '\n' :: Text.join ['\n'] (enumerationLines name)

variable {name : Text}

theorem mem_enumerationHead (word : Text.isIdentifier name = true) {c : CodePoint}
    (member : c ∈ enumerationHead name) :
    Text.isIdentifierPart c = true ∨ c ∈ " \x7b".toText := by
  rcases List.mem_append.mp member with keyword | member
  · have known : ∀ c ∈ "enum ".toText,
        Text.isIdentifierPart c = true ∨ c ∈ " \x7b".toText := by decide
    exact known c keyword
  · rcases List.mem_append.mp member with here | brace
    · exact Or.inl (Text.part_of_mem_identifier word here)
    · exact Or.inr brace

theorem not_mem_enumerationHead (word : Text.isIdentifier name = true) {c : CodePoint}
    (noPart : Text.isIdentifierPart c = false) (other : c ∉ " \x7b".toText) :
    c ∉ enumerationHead name := by
  intro member
  rcases mem_enumerationHead word member with part | known
  · rw [noPart] at part
    cases part
  · exact other known

theorem getLast?_enumerationHead (name : Text) :
    (enumerationHead name).getLast? = some (.char '\x7b') := by
  rw [enumerationHead, List.getLast?_append, List.getLast?_append]
  rfl

theorem solid_enumerationHead (name : Text) : Text.Solid (enumerationHead name) :=
  Text.solid_of_ends rfl (getLast?_enumerationHead name) (by decide) (by decide)

theorem singleLine_enumerationHead (word : Text.isIdentifier name = true) :
    Text.SingleLine (enumerationHead name) := by
  intro c member
  rcases mem_enumerationHead word member with part | known
  · exact Text.isLineBreak_of_not_blank (Text.isBlank_of_isIdentifierPart part)
  · have checked : ∀ c ∈ " \x7b".toText, Text.isLineBreak c = false := by decide
    exact checked c known

/-- The first line of an enumeration is no signature. -/
theorem read?_enumerationHead (word : Text.isIdentifier name = true) :
    Member.read? (enumerationHead name) = none := by
  have whole : Member.signatureText (enumerationHead name) = enumerationHead name := by
    have kept : Text.dropFinal ';' (enumerationHead name) = enumerationHead name := by
      rw [Text.dropFinal, getLast?_enumerationHead, if_neg (by decide)]
    have trimmed := Text.trim_eq_self (solid_enumerationHead name).trimmed
    rw [Member.signatureText, trimmed, kept, trimmed]
  have noModifier : Text.afterWord? "readonly".toText (enumerationHead name) = none :=
    Text.afterWord?_eq_none rfl
  have keyword : Text.identifier? (enumerationHead name) =
      some ("enum".toText, .char ' ' :: (name ++ " \x7b".toText)) := by
    have isWord : Text.isIdentifier "enum".toText = true := by decide
    refine Text.identifier?_append_of_boundary isWord fun c head => ?_
    exact Option.some.inj head ▸ by decide
  have start : Text.trimStart (.char ' ' :: (name ++ " \x7b".toText)) = name ++ " \x7b".toText := by
    exact (Text.trimStart_append_blank (by decide : Text.allBlank [.char ' '] = true) _).trans
      ((Text.solid_identifier word).trimStart_append _)
  obtain ⟨c, rest, rfl, starts, -⟩ := Text.isIdentifier_iff.mp word
  have other := Text.ne_of_isIdentifierPart ':' (Text.isIdentifierPart_of_start starts) (by decide)
  rw [Member.read?, whole, Member.ofSignature?, noModifier, Option.bind_none, Member.ofPlain?,
    keyword]
  dsimp only
  split
  · next others eq =>
    have same : c :: (rest ++ " \x7b".toText) = .char ':' :: others := start.symm.trans eq
    exact absurd (List.head_eq_of_cons_eq same) other
  · rfl

theorem lineMembers_enumerationHead (word : Text.isIdentifier name = true) :
    lineMembers (enumerationHead name) = [] := by
  have free : .char ';' ∉ enumerationHead name :=
    not_mem_enumerationHead word (by decide) (by decide)
  rw [lineMembers_eq_pieces, Text.pieces_of_not_mem _ free, List.map_singleton,
    Text.trim_eq_self (solid_enumerationHead name).trimmed,
    List.filterMap_cons_none (read?_enumerationHead word), List.filterMap_nil]

/-- A closing brace and the first line of an enumeration behind it hold no members. -/
theorem readLines_enumeration (word : Text.isIdentifier name = true) (pending : Option Text) :
    readLines pending ["\x7d".toText, enumerationHead name] = [] := by
  have noSlash : .char '/' ∉ enumerationHead name :=
    not_mem_enumerationHead word (by decide) (by decide)
  rw [readLines_of_no_members (by decide) (by decide),
    readLines_of_no_members noSlash (lineMembers_enumerationHead word), readLines]

theorem shown_enumeration (word : Text.isIdentifier name = true) :
    Text.shown ("\x7d\n\n".toText ++ (enumerationHead name ++ [.char '\n'])) =
      ["\x7d".toText, enumerationHead name] := by
  have solid := solid_enumerationHead name
  have line : Text.shown (enumerationHead name) = [enumerationHead name] := by
    rw [Text.shown_singleLine (singleLine_enumerationHead word)]
    simp [Text.shownLines, Text.trim_eq_self solid.trimmed, solid.nonempty]
  have feed : ∀ before after : Text, Text.shown (before ++ .char '\n' :: after) =
      Text.shown before ++ Text.shown after := Text.shown_append_break (by decide)
  have brace : Text.shown "\x7d".toText = ["\x7d".toText] := by decide
  calc Text.shown ("\x7d\n\n".toText ++ (enumerationHead name ++ [.char '\n']))
      = Text.shown "\x7d".toText ++ Text.shown ([] ++ .char '\n' ::
          (enumerationHead name ++ [.char '\n'])) :=
        feed "\x7d".toText (.char '\n' :: (enumerationHead name ++ [.char '\n']))
    _ = ["\x7d".toText, enumerationHead name] := by
      rw [feed, feed, line, brace]
      rfl

/-- An enumeration behind the body of an interface adds no members to it. -/
theorem readMembers_enumeration (word : Text.isIdentifier name = true) {inside : Text}
    (border : Batch.AtLineStart inside) :
    readMembers (inside ++ ("\x7d\n\n".toText ++ (enumerationHead name ++ [.char '\n']))) =
      readMembers inside := by
  have parted : Text.shown (inside ++
      ("\x7d\n\n".toText ++ (enumerationHead name ++ [.char '\n']))) =
        Text.shown inside ++ ["\x7d".toText, enumerationHead name] := by
    rw [← shown_enumeration word]
    rcases List.eq_nil_or_concat inside with rfl | ⟨before, c, rfl⟩
    · rfl
    · rw [List.concat_eq_append] at border ⊢
      obtain rfl := border c List.getLast?_concat
      have alone := Text.shown_append_break (c := .char '\n') (by decide) before []
      have whole := Text.shown_append_break (c := .char '\n') (by decide) before
        ("\x7d\n\n".toText ++ (enumerationHead name ++ [.char '\n']))
      rw [List.append_assoc, List.singleton_append, whole, alone]
      simp [Text.shown, Text.lines_nil]
  rw [readMembers, ← readLines_shownLines, ← Text.shown, parted,
    readLines_append_silent (readLines_enumeration word), Text.shown, readLines_shownLines,
    readMembers]

end Enumeration

section Behind

variable {name text : Text}

theorem enumerationTail_eq (name : Text) :
    enumerationTail name =
      "\n\n".toText ++ (enumerationHead name ++ [.char '\n']) ++ "\x7d".toText := by
  rw [enumerationTail, enumerationLines, Text.join_cons_cons, Text.join_singleton]
  simp only [List.append_assoc]
  rfl

theorem not_mem_enumerationTail (word : Text.isIdentifier name = true) {c : CodePoint}
    (noPart : Text.isIdentifierPart c = false) (other : c ∉ " \n\x7b\x7d".toText) :
    c ∉ enumerationTail name := by
  have wider : (∀ c ∈ " \x7b".toText, c ∈ " \n\x7b\x7d".toText) ∧
      (∀ c ∈ "\n\n".toText, c ∈ " \n\x7b\x7d".toText) ∧
      (∀ c ∈ [CodePoint.char '\n'], c ∈ " \n\x7b\x7d".toText) ∧
      ∀ c ∈ "\x7d".toText, c ∈ " \n\x7b\x7d".toText := by decide
  rw [enumerationTail_eq]
  simp only [List.mem_append, not_or]
  refine ⟨⟨fun here => other (wider.2.1 c here), ?_, fun here => other (wider.2.2.1 c here)⟩,
    fun here => other (wider.2.2.2 c here)⟩
  exact not_mem_enumerationHead word noPart fun here => other (wider.1 c here)

open Batch (LastLine AtLineStart)

theorem shut_of_lastLine (final : LastLine "\x7d".toText text) : Shut text := by
  obtain ⟨front, rfl, -⟩ := final
  exact List.getLast?_concat

/-- An end of such a text goes back to the front of its last line at least. -/
theorem atLineStart_of_suffix (final : LastLine "\x7d".toText text) {inside : Text}
    (suffix : inside ++ [.char '\x7d'] <:+ text) : AtLineStart inside := by
  obtain ⟨front, rfl, start⟩ := final
  obtain ⟨before, eq⟩ := suffix
  rw [← List.append_assoc] at eq
  obtain rfl : before ++ inside = front := List.append_cancel_right eq
  intro c last
  refine start c ?_
  rw [List.getLast?_append, last]
  rfl

/-- In front of a closing brace at the end an alias has a right-hand side. -/
theorem assignedHead_eq_none (shut : Shut text)
    (noAlias : ∀ declaration, assigned? text = some declaration → declaration.kind ≠ .type) :
    assignedHead text = none := by
  cases found : assignedHead text with
  | none => rfl
  | some result =>
    obtain ⟨word, root⟩ := result
    obtain ⟨ends, -⟩ := (stopsAtBrace_assignedHead text shut).2 word root found
    have visible : Text.trim (Text.dropFinal ';' (Text.trim root)) ≠ [] := by
      rw [ends.trim.dropFinal_eq]
      exact ends.trim.trim.ne_nil
    have present : assigned? text =
        some (ofRightHandSide word (Text.trim (Text.dropFinal ';' (Text.trim root)))) := by
      rw [assigned?_eq_head, found]
      simp [visible]
    exact absurd ((ofRightHandSide_parts _ _).2.1) (noAlias _ present)

theorem assigned?_append_enumeration (shut : Shut text)
    (noAlias : ∀ declaration, assigned? text = some declaration → declaration.kind ≠ .type) :
    assigned? (text ++ enumerationTail name) = assigned? text := by
  have absent := assignedHead_eq_none shut noAlias
  rw [assigned?_eq_head, assigned?_eq_head, (stopsAtBrace_assignedHead text shut).1, absent]
  rfl

theorem interface?_append_enumeration (word : Text.isIdentifier name = true)
    (final : LastLine "\x7d".toText text) :
    interface? (text ++ enumerationTail name) = interface? text := by
  obtain ⟨append, rests⟩ := stopsAtBrace_interfaceHead text (shut_of_lastLine final)
  rw [interface?_eq_head, interface?_eq_head, append]
  cases found : interfaceHead text with
  | none => rfl
  | some result =>
    obtain ⟨⟨declared, bases⟩, body⟩ := result
    obtain ⟨ends, suffix⟩ := rests _ body found
    obtain ⟨inside, rfl⟩ := List.getLast?_eq_some_iff.mp ends
    have border := atLineStart_of_suffix final suffix
    have longer : inside ++ [.char '\x7d'] ++ enumerationTail name =
        inside ++ ("\x7d\n\n".toText ++ (enumerationHead name ++ [.char '\n'])) ++
          "\x7d".toText := by
      rw [enumerationTail_eq]
      simp only [List.append_assoc]
      rfl
    have alone : beforeLastBrace? (inside ++ [.char '\x7d']) = some inside :=
      beforeLastBrace?_append inside
    simp only [Option.map_some, Option.bind_some, longer, beforeLastBrace?_append, alone,
      readMembers_enumeration word border]

/-- A doc comment in front of the text is the same with the enumeration behind it. -/
theorem leadingDoc?_append_enumeration (word : Text.isIdentifier name = true) (shut : Shut text) :
    Comment.leadingDoc? (text ++ enumerationTail name) = (Comment.leadingDoc? text).map
        (fun (inside, rest) => (inside, rest ++ enumerationTail name)) ∧
      ∀ inside rest, Comment.leadingDoc? text = some (inside, rest) →
        Shut rest ∧ rest <:+ text := by
  have free : .char '\x7d' ∉ docOpen := by decide
  have last : blockClose.getLast? = some (.char '/') := by decide
  have noSlash : .char '/' ∉ enumerationTail name :=
    not_mem_enumerationTail word (by decide) (by decide)
  have step := shut.isPrefixOf?_append free (enumerationTail name)
  rw [Comment.leadingDoc?, Comment.leadingDoc?, step]
  cases found : docOpen.isPrefixOf? text with
  | none => exact ⟨rfl, fun _ _ same => by cases same⟩
  | some behind =>
    obtain ⟨ends, suffix⟩ := shut.of_isPrefixOf? free found
    refine ⟨Text.cut?_append_of_foreign last noSlash behind, fun inside rest same => ?_⟩
    have whole := Text.eq_of_cut? same
    have visible : rest ≠ [] := by
      rintro rfl
      rw [whole, List.append_nil, Shut, List.getLast?_append, last] at ends
      cases ends
    have inner : rest <:+ behind := whole ▸ List.suffix_append _ _
    exact ⟨ends.of_suffix inner visible, inner.trans suffix⟩

theorem endsVisibly_of_shut (shut : Shut text) : EndsVisibly text :=
  Comment.endsVisibly_iff.mpr ⟨.char '\x7d', shut, by decide, by decide⟩

/-- Behind a brace on a line of its own nothing is dropped. -/
theorem dropTrailing_of_lastLine (final : LastLine "\x7d".toText text) :
    Comment.dropTrailing text = text := by
  refine Comment.dropTrailing_eq_self (endsVisibly_of_shut (shut_of_lastLine final)) ?_
  obtain ⟨front, rfl, start⟩ := final
  rcases List.eq_nil_or_concat front with rfl | ⟨before, c, rfl⟩
  · exact Comment.not_lineTail_of_lacks (by decide)
  · rw [List.concat_eq_append] at start ⊢
    obtain rfl := start c List.getLast?_concat
    rw [List.append_assoc]
    exact Comment.not_lineTail_of_brace before

theorem lastLine_append_enumeration (name text : Text) :
    LastLine "\x7d".toText (text ++ enumerationTail name) := by
  rw [enumerationTail_eq, ← List.append_assoc, ← List.append_assoc, ← List.append_assoc]
  exact ⟨_, rfl, Batch.atLineStart_concat _⟩

theorem lastLine_of_suffix (final : LastLine "\x7d".toText text) {part : Text}
    (shut : Shut part) (suffix : part <:+ text) : LastLine "\x7d".toText part := by
  obtain ⟨inside, rfl⟩ := List.getLast?_eq_some_iff.mp shut
  exact ⟨inside, rfl, atLineStart_of_suffix final suffix⟩

theorem body_append_enumeration (word : Text.isIdentifier name = true)
    (final : LastLine "\x7d".toText text)
    (onlyInterface : ∀ declaration, (interface? text).or (assigned? text) = some declaration →
      declaration.kind = .interface) :
    (interface? (text ++ enumerationTail name)).or (assigned? (text ++ enumerationTail name)) =
      (interface? text).or (assigned? text) := by
  rw [interface?_append_enumeration word final]
  cases found : interface? text with
  | some declaration => rfl
  | none =>
    rw [Option.none_or, Option.none_or]
    refine assigned?_append_enumeration (shut_of_lastLine final) fun declaration assigned => ?_
    rw [onlyInterface declaration (by rw [found, Option.none_or, assigned])]
    decide

theorem trim_append_enumeration (name : Text) (shut : Shut text) :
    Text.trim (text ++ enumerationTail name) = Text.trim text ++ enumerationTail name := by
  have longer := shut_of_lastLine (lastLine_append_enumeration name text)
  rw [longer.trim_eq, shut.trim_eq, shut.trimStart_append]

/-- The comment is the same with the enumeration behind the declaration. -/
theorem commentAndBody_append_enumeration (word : Text.isIdentifier name = true)
    (final : LastLine "\x7d".toText text) :
    commentAndBody (text ++ enumerationTail name) =
        ((commentAndBody text).1, (commentAndBody text).2 ++ enumerationTail name) ∧
      LastLine "\x7d".toText (commentAndBody text).2 := by
  have shut := shut_of_lastLine final
  have suffix : Text.trim text <:+ text := shut.trim_eq ▸ trimStart_suffix text
  obtain ⟨docAppend, docRests⟩ := leadingDoc?_append_enumeration word shut.trim
  rw [commentAndBody, commentAndBody, trim_append_enumeration name shut, docAppend]
  cases doc : Comment.leadingDoc? (Text.trim text) with
  | none => exact ⟨rfl, lastLine_of_suffix final shut.trim suffix⟩
  | some result =>
    obtain ⟨inside, rest⟩ := result
    obtain ⟨ends, behind⟩ := docRests inside rest doc
    have inner : Text.trim rest <:+ rest := ends.trim_eq ▸ trimStart_suffix rest
    constructor
    · exact congrArg (some (Comment.dedent inside), ·) (trim_append_enumeration name ends)
    · exact lastLine_of_suffix final ends.trim ((inner.trans behind).trans suffix)

/-- An enumeration behind an interface, or behind something that is not supported, changes nothing
in how that is read. -/
theorem read?_append_enumeration (word : Text.isIdentifier name = true)
    (final : LastLine "\x7d".toText text)
    (onlyInterface : ∀ declaration, read? text = some declaration →
      declaration.kind = .interface) :
    read? (text ++ enumerationTail name) = read? text := by
  obtain ⟨append, line⟩ := commentAndBody_append_enumeration word final
  have kept := dropTrailing_of_lastLine line
  rw [read?_eq_body, kept] at onlyInterface
  rw [read?_eq_body, read?_eq_body, append, kept,
    dropTrailing_of_lastLine (lastLine_append_enumeration name _)]
  rw [body_append_enumeration word line fun declaration found => ?_]
  exact onlyInterface { declaration with comment := (commentAndBody text).1 } (by rw [found]; rfl)

end Behind

end Outline

end SchemaBoard
