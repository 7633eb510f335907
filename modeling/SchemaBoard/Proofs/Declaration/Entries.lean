import Mathlib.Data.List.Basic
import SchemaBoard.Proofs.Declaration.MemberLines
import SchemaBoard.Proofs.Declaration.Wording
import SchemaBoard.Proofs.Member.Foreign
import SchemaBoard.Proofs.Text.Cuts

set_option autoImplicit false

/-!
Documented members of a body, some of which are not supported. A comment that is still unused waits
for the next member that is read. Main statement: every member that is read has the comment right
above it and no other one exactly if no signature that is skipped holds a member inside, and none
leaves its comment to a member behind it.
-/
namespace SchemaBoard

open Text (Lacks SingleLine Solid)
open Comment (docOpen blockClose unstarred)

/-- What stands on the line of one entry of a body: a member, or the signature of a method or of an
index. -/
inductive Entry.Content where
  | property (member : Member)
  | foreign (signature : Text)

/-- A signature on a line of its own, perhaps below a doc comment on one line. -/
structure Entry where
  /-- What stands between the marks of the comment. -/
  note : Option Text
  content : Entry.Content
  /-- The blanks in front of the comment; breaks among them are blank lines. -/
  margin : Text
  /-- The blanks in front of the signature. -/
  indent : Text

namespace Entry

def Content.text : Content → Text
  | property member => member.render
  | foreign signature => signature

def lines (entry : Entry) : List Text :=
  (entry.note.map fun words => entry.margin ++ (docOpen ++ (words ++ blockClose))).toList ++
    [entry.indent ++ entry.content.text]

/-- What the comment of an entry says, if it says something. -/
def heard (entry : Entry) : Option Text :=
  match entry.note with
  | some words =>
    if (unstarred (Text.trim words)).isEmpty then none else some (unstarred (Text.trim words))
  | none => none

/-- The member of an entry, with the comment right above it. -/
def own? (entry : Entry) : Option Member :=
  match entry.content with
  | .property member => some { member with comment := entry.heard }
  | .foreign _ => none

/-- A writable member or a signature that begins like that of a method or an index, on one line. -/
def Content.IsRegular : Content → Prop
  | property member => member.IsWritable
  | foreign signature => Member.IsForeign signature ∧ Solid signature ∧ SingleLine signature

/-- The blanks are blank, the comment stands on one line and is closed there. -/
structure IsRegular (entry : Entry) : Prop where
  content : entry.content.IsRegular
  note : ∀ words, entry.note = some words → SingleLine words ∧ Lacks ['*', '/'] words
  margin : Text.allBlank entry.margin = true
  indent : Text.allBlank entry.indent = true

/-- The line of a signature that is skipped holds no member. -/
def IsWhole (entry : Entry) : Prop :=
  ∀ signature, entry.content = .foreign signature → ¬Outline.HoldsMember signature

/-- A signature that is skipped has no line comment, and no semicolon outside of its brackets but a
final one. -/
def IsSealed (entry : Entry) : Prop :=
  ∀ signature, entry.content = .foreign signature → Lacks ['/', '/'] signature ∧
    ∀ position, Text.Brackets.withBraces.IsCut ';' signature position →
      position + 1 = signature.length

/-- A comment in front of these entries waits for a member without one: it passes signatures that
are skipped and have no comments. -/
inductive Takes : List Entry → Prop
  | here {entry : Entry} {rest : List Entry} (plain : entry.note = none)
      (supported : entry.own? ≠ none) : Takes (entry :: rest)
  | later {entry : Entry} {rest : List Entry} (plain : entry.note = none)
      (takes : Takes rest) : Takes (entry :: rest)

/-- A signature is skipped whose comment is left to a member behind it. -/
inductive Misplaced : List Entry → Prop
  | here {entry : Entry} {rest : List Entry} (skipped : entry.own? = none)
      (documented : entry.heard ≠ none) (takes : Takes rest) : Misplaced (entry :: rest)
  | later {entry : Entry} {rest : List Entry} (misplaced : Misplaced rest) :
      Misplaced (entry :: rest)

open Outline

section Shown

variable {entry : Entry}

/-- What the lines of an entry show. -/
def shown (entry : Entry) : List Text :=
  (entry.note.map fun words => docOpen ++ (words ++ blockClose)).toList ++ [entry.content.text]

theorem Content.IsRegular.solid {content : Content} (regular : content.IsRegular) :
    Solid content.text ∧ SingleLine content.text := by
  cases content with
  | property member =>
    have writable : member.IsWritable := regular
    exact ⟨Member.solid_render writable.toFitsLine, Member.singleLine_render writable.toFitsLine⟩
  | foreign signature => exact regular.2

theorem flatMap_shown_lines (regular : entry.IsRegular) :
    entry.lines.flatMap Text.shown = entry.shown := by
  obtain ⟨solid, single⟩ := regular.content.solid
  have signature : Text.shown (entry.indent ++ entry.content.text) = [entry.content.text] := by
    rw [Text.shown_blank_append regular.indent, solid.shown_eq single]
  rw [lines, shown, List.flatMap_append, List.flatMap_singleton, signature]
  cases note : entry.note with
  | none => rfl
  | some words =>
    have marks : Solid docOpen ∧ Solid blockClose ∧ SingleLine docOpen ∧ SingleLine blockClose := by
      decide
    obtain ⟨opens, closes, first, last⟩ := marks
    have whole : Solid (docOpen ++ (words ++ blockClose)) := by
      rw [← List.append_assoc]
      exact opens.between words closes
    have onLine : SingleLine (docOpen ++ (words ++ blockClose)) :=
      first.append ((regular.note words note).1.append last)
    simp only [Option.map_some, Option.toList_some, List.flatMap_singleton]
    rw [Text.shown_blank_append regular.margin, whole.shown_eq onLine]

/-- A comment on one line says its words, without a star at their front. -/
theorem docLine?_note {words : Text} (single : SingleLine words) (free : Lacks ['*', '/'] words) :
    docLine? (docOpen ++ (words ++ blockClose)) = some (unstarred (Text.trim words)) := by
  have opens : Solid docOpen := by decide
  have closes : Solid blockClose := by decide
  have trimmed : Text.trim (docOpen ++ (words ++ blockClose)) =
      docOpen ++ (words ++ blockClose) := by
    rw [← List.append_assoc]
    exact Text.trim_eq_self (opens.between words closes).trimmed
  have found := Comment.leadingDoc?_append free []
  rw [List.append_nil] at found
  rw [docLine?, trimmed, Comment.wholeDoc?, found]
  exact congrArg some (Comment.dedent_singleLine single)

/-- The comment still unused in front of the signature of an entry. -/
def pending (before : Option Text) (entry : Entry) : Option Text :=
  if entry.note.isSome then entry.heard else before

theorem readLines_note (regular : entry.IsRegular) (before : Option Text) (below : List Text) :
    readLines before (entry.shown ++ below) =
      readLines (entry.pending before) (entry.content.text :: below) := by
  rw [shown, pending, heard]
  cases note : entry.note with
  | none => rfl
  | some words =>
    obtain ⟨single, free⟩ := regular.note words note
    have silent : held (docOpen ++ (words ++ blockClose)) = [] := by
      rw [held, docLine?_note single free]
      rfl
    simp only [Option.map_some, Option.toList_some, List.cons_append, List.nil_append]
    rw [readLines_cons, silent, unusedBehind, docLine?_note single free]
    rfl

end Shown

section Step

variable {entry : Entry} {rest : List Entry}

/-- A member takes the comment in front of it. -/
theorem readLines_property (regular : entry.IsRegular) {member : Member}
    (property : entry.content = .property member) (before : Option Text) (below : List Text) :
    readLines before (entry.shown ++ below) =
      { member with comment := entry.pending before } :: readLines none below := by
  have writable : member.IsWritable := by
    have content := regular.content
    rwa [property] at content
  rw [readLines_note regular, property]
  have solid := Member.solid_render writable.toFitsLine
  exact readLines_signature writable (Text.trim_eq_self solid.trimmed) _ _

/-- A signature that is skipped leaves the comment in front of it unused. -/
theorem readLines_foreign (regular : entry.IsRegular) (whole : entry.IsWhole) {signature : Text}
    (foreign : entry.content = .foreign signature) (before : Option Text) (below : List Text) :
    readLines before (entry.shown ++ below) = readLines (entry.pending before) below := by
  have content := regular.content
  rw [foreign] at content
  obtain ⟨begins, solid, -⟩ := content
  have noDoc : docLine? signature = none :=
    docLine?_eq_none_of_head begins.trim.head?_ne
  have nothing := (held_eq_nil_iff signature).mpr (whole signature foreign)
  rw [readLines_note regular, foreign]
  show readLines _ (signature :: below) = _
  rw [readLines_cons, nothing, unusedBehind, noDoc, nothing]
  rfl

theorem takes_cons_iff : Takes (entry :: rest) ↔
    entry.note = none ∧ (entry.own? ≠ none ∨ Takes rest) := by
  constructor
  · rintro (⟨plain, supported⟩ | ⟨plain, takes⟩)
    · exact ⟨plain, Or.inl supported⟩
    · exact ⟨plain, Or.inr takes⟩
  · rintro ⟨plain, supported | takes⟩
    · exact .here plain supported
    · exact .later plain takes

theorem misplaced_cons_iff : Misplaced (entry :: rest) ↔
    entry.own? = none ∧ entry.heard ≠ none ∧ Takes rest ∨ Misplaced rest := by
  constructor
  · rintro (⟨skipped, documented, takes⟩ | misplaced)
    · exact Or.inl ⟨skipped, documented, takes⟩
    · exact Or.inr ‹_›
  · rintro (⟨skipped, documented, takes⟩ | misplaced)
    · exact .here skipped documented takes
    · exact .later misplaced

instance decidableTakes : (entries : List Entry) → Decidable (Takes entries)
  | [] => isFalse nofun
  | _ :: rest =>
    have := decidableTakes rest
    decidable_of_iff _ takes_cons_iff.symm

instance decidableMisplaced : (entries : List Entry) → Decidable (Misplaced entries)
  | [] => isFalse nofun
  | _ :: rest =>
    have := decidableMisplaced rest
    decidable_of_iff _ misplaced_cons_iff.symm

theorem heard_of_plain (plain : entry.note = none) : entry.heard = none := by
  rw [heard, plain]

theorem pending_of_plain (plain : entry.note = none) (before : Option Text) :
    entry.pending before = before := by
  rw [pending, plain]
  rfl

theorem pending_of_documented (documented : entry.note ≠ none) (before : Option Text) :
    entry.pending before = entry.heard := by
  rw [pending, if_pos (Option.isSome_iff_ne_none.mpr documented)]

end Step

section Whole

/-- What is cut off at semicolons, if all but a final one stand inside of brackets. -/
theorem mem_splitOutside_of_sealed {text part : Text}
    (sealed : ∀ position, Text.Brackets.withBraces.IsCut ';' text position →
      position + 1 = text.length)
    (member : part ∈ Text.splitOutside Text.Brackets.withBraces [';'] text) :
    part = [] ∨ part = Text.trim text ∨ part = Text.trim (Text.dropFinal ';' text) := by
  have apart : Text.Brackets.withBraces.Apart := by decide
  obtain ⟨piece, inside, rfl⟩ := List.mem_map.mp (Text.mem_dropEmptyLast member)
  rcases List.eq_nil_or_concat' text with rfl | ⟨front, c, rfl⟩
  · exact Or.inl (congrArg Text.trim (List.mem_singleton.mp inside))
  · have uncut : Text.Brackets.withBraces.cuts ';' front = [] := by
      refine Text.cuts_eq_nil_iff.mpr fun position cut => ?_
      have before := (List.getElem?_eq_some_iff.mp cut.marked).1
      have last := sealed position ((Text.isCut_append_iff [c] before).mpr cut)
      rw [List.length_append, List.length_singleton] at last
      omega
    have whole : Text.pieces Text.Brackets.withBraces [';'] 0 front = [front] := by
      rw [Text.pieces_eq_stretches apart, uncut]
      rfl
    rw [Text.pieces_concat, whole] at inside
    split at inside
    · next final =>
      have dropped : Text.dropFinal ';' (front ++ [c]) = front := by
        rw [final.1, Text.dropFinal_concat]
      rcases List.mem_cons.mp inside with rfl | empty
      · exact Or.inr (Or.inr (by rw [dropped]))
      · exact Or.inl (congrArg Text.trim (List.mem_singleton.mp empty))
    · exact Or.inr (Or.inl (congrArg Text.trim (List.mem_singleton.mp inside)))

/-- A method or index signature holds no member if all of its semicolons, but a final one, stand
inside of brackets. -/
theorem not_holdsMember_of_foreign {signature : Text} (foreign : Member.IsForeign signature)
    (solid : Solid signature) (plain : Lacks ['/', '/'] signature)
    (sealed : ∀ position, Text.Brackets.withBraces.IsCut ';' signature position →
      position + 1 = signature.length) : ¬HoldsMember signature := by
  have trimmed := Text.trim_eq_self solid.trimmed
  rw [← held_eq_nil_iff, held]
  split
  · rfl
  · rw [code, trimmed, dropLineComment_of_lacks plain, trimmed, lineMembers,
      List.filterMap_eq_nil_iff]
    intro part member
    rcases mem_splitOutside_of_sealed sealed member with rfl | rfl | rfl
    · rfl
    · exact foreign.trim.read?_eq_none
    · exact foreign.dropFinal.trim.read?_eq_none

theorem IsSealed.isWhole {entry : Entry} (sealed : entry.IsSealed) (regular : entry.IsRegular) :
    entry.IsWhole := by
  intro signature content
  have known := regular.content
  rw [content] at known
  obtain ⟨foreign, solid, -⟩ := known
  obtain ⟨plain, inside⟩ := sealed signature content
  exact not_holdsMember_of_foreign foreign solid plain inside

end Whole

section Run

variable {entries : List Entry}

/-- With a comment in front of them, the members of entries have their own comments exactly if no
member takes that one and none of the comments is misplaced. -/
theorem readLines_eq_own_iff (regular : ∀ entry ∈ entries, entry.IsRegular)
    (whole : ∀ entry ∈ entries, entry.IsWhole) (before : Option Text) :
    readLines before (entries.flatMap shown) = entries.filterMap own? ↔
      (before = none ∨ ¬Takes entries) ∧ ¬Misplaced entries := by
  induction entries generalizing before with
  | nil =>
    have noTakes : ¬Takes [] := nofun
    have noMisplaced : ¬Misplaced [] := nofun
    simp [readLines, noTakes, noMisplaced]
  | cons entry rest ih =>
    have here := regular entry (by simp)
    have later := ih (fun other member => regular other (List.mem_cons_of_mem entry member))
      fun other member => whole other (List.mem_cons_of_mem entry member)
    rw [List.flatMap_cons, takes_cons_iff, misplaced_cons_iff]
    cases content : entry.content with
    | property member =>
      have own : entry.own? = some { member with comment := entry.heard } := by rw [own?, content]
      rw [readLines_property here content, List.filterMap_cons_some own]
      by_cases plain : entry.note = none
      · simp [later, own, plain, pending_of_plain plain, heard_of_plain plain]
      · simp [later, own, plain, pending_of_documented plain]
    | foreign signature =>
      have own : entry.own? = none := by rw [own?, content]
      rw [readLines_foreign here (whole entry (by simp)) content, List.filterMap_cons_none own]
      by_cases plain : entry.note = none
      · simp [later, own, plain, pending_of_plain plain, heard_of_plain plain]
      · by_cases silent : entry.heard = none <;>
          simp [later, own, plain, pending_of_documented plain, silent]

/-- The members inside of a signature that is skipped. -/
def stray (entry : Entry) : List Member :=
  match entry.content with
  | .property _ => []
  | .foreign signature => held signature

theorem stray_eq_nil_iff (entry : Entry) : entry.stray = [] ↔ entry.IsWhole := by
  rw [stray, IsWhole]
  cases entry.content with
  | property member => simp
  | foreign signature => simp [held_eq_nil_iff]

instance (entry : Entry) : Decidable entry.IsWhole :=
  decidable_of_iff _ entry.stray_eq_nil_iff

/-- The lines of entries hold their members and those inside of the signatures that are skipped. -/
theorem length_held (regular : ∀ entry ∈ entries, entry.IsRegular) :
    ((entries.flatMap shown).flatMap held).length =
      (entries.filterMap own?).length + (entries.flatMap stray).length := by
  induction entries with
  | nil => rfl
  | cons entry rest ih =>
    have later := ih fun other member => regular other (List.mem_cons_of_mem entry member)
    have here := regular entry (by simp)
    have count : (entry.shown.flatMap held).length =
        (own? entry).toList.length + entry.stray.length := by
      have read := congrArg List.length (map_bare_readLines none (entry.shown ++ []))
      rw [List.append_nil, List.length_map] at read
      rw [← read, own?, stray]
      cases content : entry.content with
      | property member =>
        have taken := readLines_property here content none []
        rw [List.append_nil] at taken
        rw [taken]
        rfl
      | foreign signature =>
        have passed := readLines_note here none []
        have inside := congrArg List.length (map_bare_readLines (entry.pending none) [signature])
        rw [List.append_nil, content] at passed
        rw [List.length_map, List.flatMap_singleton] at inside
        rw [passed]
        simpa [Content.text] using inside
    rw [List.flatMap_cons, List.flatMap_append, List.length_append, count, later,
      List.filterMap_cons, List.flatMap_cons, List.length_append]
    cases own? entry <;> simp <;> omega

/-- The members of entries have their own comments exactly if nothing else is read and no comment is
misplaced. -/
theorem readLines_shown_eq_own_iff (regular : ∀ entry ∈ entries, entry.IsRegular) :
    readLines none (entries.flatMap shown) = entries.filterMap own? ↔
      (∀ entry ∈ entries, entry.IsWhole) ∧ ¬Misplaced entries := by
  constructor
  · intro fields
    have count := congrArg List.length (map_bare_readLines none (entries.flatMap shown))
    rw [List.length_map, fields, length_held regular] at count
    have none : entries.flatMap stray = [] := List.length_eq_zero_iff.mp (by omega)
    have whole : ∀ entry ∈ entries, entry.IsWhole := fun entry member =>
      entry.stray_eq_nil_iff.mp (List.flatMap_eq_nil_iff.mp none entry member)
    exact ⟨whole, ((readLines_eq_own_iff regular whole Option.none).mp fields).2⟩
  · rintro ⟨whole, placed⟩
    exact (readLines_eq_own_iff regular whole none).mpr ⟨Or.inl rfl, placed⟩

end Run

end Entry

namespace Outline

def renderEntries (name : Text) (bases : List Text) (comment : Option Text)
    (entries : List Entry) : Text :=
  Text.join ['\n'] (headerLines comment ++
    ("interface ".toText ++ (name ++ behindName bases)) ::
      (entries.flatMap Entry.lines ++ ["\x7d".toText]))

section Entries

variable {name : Text} {bases : List Text} {entries : List Entry}

/-- Between the braces of an interface stands what the lines of its entries are read as. -/
theorem read?_renderEntries (word : Text.isIdentifier name = true)
    (words : ∀ base ∈ bases, Text.isIdentifier base = true) (comment : Option Text)
    (regular : ∀ entry ∈ entries, entry.IsRegular) :
    read? (renderEntries name bases comment entries) =
      some { name := name, kind := .interface
             fields := readLines none (entries.flatMap Entry.shown)
             bases := bases, comment := settledHeader comment } := by
  have shown : (entries.flatMap Entry.lines).flatMap Text.shown = entries.flatMap Entry.shown := by
    rw [List.flatMap_assoc]
    exact List.flatMap_congr fun entry member => Entry.flatMap_shown_lines (regular entry member)
  rw [renderEntries, read?_interfaceLines comment word words, shown]

/-- An interface of entries is read as an interface of their members, each with the comment right
above it and without a comment if there is none, exactly if no signature that is skipped holds a
member inside and none leaves its comment to a member behind it. -/
theorem read?_renderEntries_iff (word : Text.isIdentifier name = true)
    (words : ∀ base ∈ bases, Text.isIdentifier base = true) (comment : Option Text)
    (regular : ∀ entry ∈ entries, entry.IsRegular) :
    read? (renderEntries name bases comment entries) =
        some { name := name, kind := .interface, fields := entries.filterMap Entry.own?
               bases := bases, comment := settledHeader comment } ↔
      (∀ entry ∈ entries, entry.IsWhole) ∧ ¬Entry.Misplaced entries := by
  rw [read?_renderEntries word words comment regular, ← Entry.readLines_shown_eq_own_iff regular]
  constructor
  · intro same
    exact congrArg Outline.fields (Option.some.inj same)
  · intro fields
    rw [fields]

/-- Where the semicolons of what is skipped stand inside of its brackets, the comments alone decide
whether each member has its own. -/
theorem read?_renderEntries_iff_of_sealed (word : Text.isIdentifier name = true)
    (words : ∀ base ∈ bases, Text.isIdentifier base = true) (comment : Option Text)
    (regular : ∀ entry ∈ entries, entry.IsRegular) (sealed : ∀ entry ∈ entries, entry.IsSealed) :
    (read? (renderEntries name bases comment entries)).map Outline.fields =
      some (entries.filterMap Entry.own?) ↔ ¬Entry.Misplaced entries := by
  have whole : ∀ entry ∈ entries, entry.IsWhole := fun entry member =>
    (sealed entry member).isWhole (regular entry member)
  rw [read?_renderEntries word words comment regular, Option.map_some, Option.some.injEq,
    Entry.readLines_shown_eq_own_iff regular, and_iff_right whole]

theorem read?_renderEntries_iff_kept :
    let entry (note : Option Text) (content : Entry.Content) : Entry :=
      { note := note, content := content, margin := "\n  ".toText, indent := "  ".toText }
    let a : Member := { name := "a".toText, type := .primitive .string }
    let b : Member := { name := "b".toText, type := .custom "B".toText, optional := true }
    let entries : List Entry :=
      [entry (some " first ".toText) (.property a),
        entry none (.foreign "call(x: number): void;".toText),
        entry (some " values ".toText)
          (.foreign "[key: string]: \x7b run(): void; size: number \x7d;".toText),
        entry (some " second ".toText) (.property b), entry none (.property a)]
    (∀ entry ∈ entries, entry.IsRegular) ∧ (∀ entry ∈ entries, entry.IsWhole) ∧
      ¬Entry.Misplaced entries ∧
      read? (renderEntries "A".toText [] none entries) =
        some { name := "A".toText, kind := .interface
               fields := [{ a with comment := some "first".toText },
                 { b with comment := some "second".toText }, a] } := by
  intro entry a b entries
  have call : Member.ForeignFront ("call".toText ++ ([] ++ [])) '(' :=
    .method (by decide) (Or.inl rfl) rfl (by decide)
  have method : Member.IsForeign "call(x: number): void;".toText := ⟨_, _, _, call, rfl⟩
  have index : Member.IsForeign "[key: string]: \x7b run(): void; size: number \x7d;".toText :=
    ⟨_, _, _, .index, rfl⟩
  have marked : ∀ words ∈ [" first ".toText, " values ".toText, " second ".toText],
      SingleLine words ∧ Lacks ['*', '/'] words := by decide
  have plain : ∀ {content : Entry.Content}, content.IsRegular → (entry none content).IsRegular :=
    fun sound => ⟨sound, nofun, rfl, rfl⟩
  have noted : ∀ {words : Text} {content : Entry.Content},
      SingleLine words ∧ Lacks ['*', '/'] words → content.IsRegular →
        (entry (some words) content).IsRegular :=
    fun single sound => ⟨sound, fun _ same => Option.some.inj same ▸ single, rfl, rfl⟩
  have property : Entry.Content.IsRegular (.property a) ∧ Entry.Content.IsRegular (.property b) :=
    ⟨Member.isWritable_of_isRegular (by decide), Member.isWritable_of_isRegular (by decide)⟩
  have regular : ∀ entry ∈ entries, entry.IsRegular := by
    simp only [entries, List.forall_mem_cons]
    exact ⟨noted (marked _ (by decide)) property.1, plain ⟨method, by decide, by decide⟩,
      noted (marked _ (by decide)) ⟨index, by decide, by decide⟩,
      noted (marked _ (by decide)) property.2, plain property.1, nofun⟩
  have whole : ∀ entry ∈ entries, entry.IsWhole := by decide
  have placed : ¬Entry.Misplaced entries := by decide
  exact ⟨regular, whole, placed,
    (read?_renderEntries_iff (by decide) (by decide) none regular).mpr ⟨whole, placed⟩⟩

/-- The comment of a signature that is skipped goes to the member behind it, and an arrow lets a
semicolon inside of braces cut the signature of an index. -/
theorem read?_renderEntries_apart :
    let entry (note : Option Text) (content : Entry.Content) : Entry :=
      { note := note, content := content, margin := "  ".toText, indent := "  ".toText }
    let b : Member := { name := "b".toText, type := .primitive .string }
    let documented : List Entry :=
      [entry (some " call ".toText) (.foreign "call(): void;".toText), entry none (.property b)]
    let arrow : List Entry :=
      [entry none (.foreign "[key: string]: \x7b f: () => void; g: number \x7d;".toText),
        entry none (.property b)]
    documented.filterMap Entry.own? = [b] ∧ arrow.filterMap Entry.own? = [b] ∧
      (read? (renderEntries "A".toText [] none documented)).map
          (fun found => found.fields.map fun member => (member.name, member.comment)) =
        some [("b".toText, some "call".toText)] ∧
      (read? (renderEntries "A".toText [] none arrow)).map
          (fun found => found.fields.map fun member => (member.name, member.comment)) =
        some [("g".toText, none), ("b".toText, none)] := by
  decide

end Entries

end Outline

end SchemaBoard
