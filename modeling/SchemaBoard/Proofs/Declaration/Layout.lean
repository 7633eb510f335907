import Mathlib.Data.List.Basic
import SchemaBoard.Proofs.Declaration.Alias
import SchemaBoard.Proofs.Declaration.MemberLines

set_option autoImplicit false

/-!
Layouts of a body. Signatures stand between semicolons and on lines of their own, with blanks around
them and line comments behind them. Main statement: whatever its layout, a body is read as its
members, between the braces of an interface as between those of an object type.
-/
namespace SchemaBoard

open Text (Brackets SingleLine Solid Lacks)

/-- Blanks that stay on their line. -/
structure Text.IsGap (text : Text) : Prop where
  blank : Text.allBlank text = true
  single : SingleLine text

instance (text : Text) : Decidable (Text.IsGap text) :=
  decidable_of_iff (Text.allBlank text = true ∧ SingleLine text)
    ⟨fun ⟨blank, single⟩ => ⟨blank, single⟩, fun ⟨blank, single⟩ => ⟨blank, single⟩⟩

/-- What stands between two semicolons: a member or nothing, with blanks around it. -/
structure Slot where
  before : Text := []
  member : Option Member := none
  after : Text := []
  gap_before : Text.IsGap before := by decide
  gap_after : Text.IsGap after := by decide

/-- One line of a body. -/
structure Row where
  /-- What the semicolons of the line separate. -/
  slots : List Slot
  /-- The text of the line comment. -/
  note : Option Text := none
  /-- Whether a carriage return stands in front of the line feed. -/
  carriage : Bool := false

/-- The lines of a body and what stands behind the last break. -/
structure Layout where
  rows : List Row
  last : List Slot

namespace Slot

def content (slot : Slot) : Text :=
  match slot.member with
  | some member => member.signature
  | none => []

def text (slot : Slot) : Text := slot.before ++ slot.content ++ slot.after

def lineText (slots : List Slot) : Text := Text.join [';'] (slots.map text)

def members (slots : List Slot) : List Member := slots.filterMap member

section Read

variable {slot : Slot} {slots : List Slot}

theorem seals_of_blank {brackets : Brackets} {barred blanks : Text}
    (visible : ∀ c ∈ brackets.openers ++ brackets.closers ++ barred, Text.isBlank c = false)
    (blank : Text.allBlank blanks = true) : brackets.Seals barred blanks := by
  refine Brackets.Seals.flat fun c member => ?_
  have seen : c ∉ brackets.openers ++ brackets.closers ++ barred :=
    fun mark => Text.not_mem_of_visible blank (visible c mark) member
  simpa [and_assoc] using seen

/-- Around its signature, a slot holds blanks. -/
theorem seals_text_of_signature {brackets : Brackets} {barred : Text}
    (visible : ∀ c ∈ brackets.openers ++ brackets.closers ++ barred, Text.isBlank c = false)
    (signature : ∀ member, slot.member = some member → brackets.Seals barred member.signature) :
    brackets.Seals barred slot.text := by
  have content : brackets.Seals barred slot.content := by
    rw [Slot.content]
    cases known : slot.member with
    | none => exact seals_of_blank visible rfl
    | some member => exact signature member known
  exact ((seals_of_blank visible slot.gap_before.blank).append content).append
    (seals_of_blank visible slot.gap_after.blank)

theorem seals_text (fits : ∀ member, slot.member = some member → member.FitsLine) :
    Brackets.withBraces.Seals [';'] slot.text :=
  seals_text_of_signature (by decide) fun member known => Member.seals_signature (fits member known)

theorem trim_text (fits : ∀ member, slot.member = some member → member.FitsLine) :
    Text.trim slot.text = slot.content := by
  rw [text, Text.trim_padded slot.gap_before.blank slot.gap_after.blank, content]
  cases known : slot.member with
  | none => rfl
  | some member =>
    exact Text.trim_eq_self (Member.solid_signature (fits member known)).trimmed

theorem read?_content (writable : ∀ member, slot.member = some member → member.IsWritable) :
    Member.read? slot.content = slot.member.map Member.bare := by
  rw [content]
  cases known : slot.member with
  | none => rfl
  | some member => exact (writable member known).read?_signature

/-- The semicolons of a line cut it into its slots. -/
theorem lineMembers_lineText (writable : ∀ member ∈ members slots, member.IsWritable) :
    Outline.lineMembers (lineText slots) = (members slots).map Member.bare := by
  have each : ∀ slot ∈ slots, ∀ member, slot.member = some member → member.IsWritable :=
    fun slot here member known => writable member (List.mem_filterMap.mpr ⟨slot, here, known⟩)
  have fits := fun slot here member known => (each slot here member known).toFitsLine
  have neutral : Brackets.withBraces.Neutral ';' := by decide
  by_cases none : slots = []
  · subst none
    rfl
  · have cut : (Text.pieces Brackets.withBraces [';'] 0 (lineText slots)).map Text.trim =
        slots.map content := by
      have nested : ∀ part ∈ slots.map text, Brackets.withBraces.Seals [] part := by
        intro part here
        obtain ⟨slot, member, rfl⟩ := List.mem_map.mp here
        exact (seals_text (fits slot member)).mono (List.nil_subset _)
      have gap : Text.allBlank [] = true := rfl
      have parts := Text.pieces_join neutral gap gap (by simpa using none) nested
      refine parts.trans ?_
      rw [List.flatMap_map, List.map_eq_flatMap]
      refine List.flatMap_congr fun slot here => ?_
      rw [Text.pieces_of_seals neutral (List.mem_singleton_self _) (seals_text (fits slot here)),
        List.map_singleton, trim_text (fits slot here)]
    have read : ∀ slot ∈ slots, Member.read? slot.content = slot.member.map Member.bare :=
      fun slot here => read?_content (each slot here)
    rw [Outline.lineMembers_eq_pieces, cut, List.filterMap_map, members, List.map_filterMap]
    exact List.filterMap_congr read

/-- A character that is no blank of a slot stands in its signature. -/
theorem mem_text {c : CodePoint} (inside : c ∈ slot.text) :
    Text.isBlank c = true ∧ Text.isLineBreak c = false ∨
      ∃ member, slot.member = some member ∧ c ∈ member.signature := by
  have gap {blanks : Text} (sound : Text.IsGap blanks) (here : c ∈ blanks) :
      Text.isBlank c = true ∧ Text.isLineBreak c = false :=
    ⟨List.all_eq_true.mp sound.blank c here, sound.single c here⟩
  rw [text, List.mem_append, List.mem_append] at inside
  rcases inside with (before | content) | after
  · exact Or.inl (gap slot.gap_before before)
  · rw [Slot.content] at content
    cases known : slot.member with
    | none =>
      rw [known] at content
      cases content
    | some member =>
      rw [known] at content
      exact Or.inr ⟨member, rfl, content⟩
  · exact Or.inl (gap slot.gap_after after)

theorem mem_lineText {c : CodePoint} (inside : c ∈ lineText slots) :
    c = .char ';' ∨ Text.isBlank c = true ∧ Text.isLineBreak c = false ∨
      ∃ member ∈ members slots, c ∈ member.signature := by
  rcases Text.mem_join inside with semicolon | ⟨part, known, here⟩
  · exact Or.inl (List.mem_singleton.mp semicolon)
  · obtain ⟨slot, there, rfl⟩ := List.mem_map.mp known
    refine Or.inr ((mem_text here).imp_right ?_)
    rintro ⟨member, found, signature⟩
    exact ⟨member, List.mem_filterMap.mpr ⟨slot, there, found⟩, signature⟩

theorem slash_not_mem_lineText (fits : ∀ member ∈ members slots, member.FitsLine) :
    .char '/' ∉ lineText slots := by
  intro inside
  rcases mem_lineText inside with mark | ⟨blank, -⟩ | ⟨member, known, here⟩
  · exact absurd mark (by decide)
  · exact absurd blank (by decide)
  · exact Member.slash_not_mem_signature (fits member known) here

theorem singleLine_lineText (fits : ∀ member ∈ members slots, member.FitsLine) :
    SingleLine (lineText slots) := by
  intro c inside
  rcases mem_lineText inside with rfl | ⟨-, onLine⟩ | ⟨member, known, here⟩
  · decide
  · exact onLine
  · exact Member.singleLine_signature (fits member known) c here

theorem seals_braces_lineText (fits : ∀ member ∈ members slots, member.FitsLine) :
    Brackets.braces.Seals [] (lineText slots) := by
  refine Brackets.Seals.join (by decide) fun part here => ?_
  obtain ⟨slot, there, rfl⟩ := List.mem_map.mp here
  exact seals_text_of_signature (by decide) fun member known =>
    Member.seals_braces_signature (fits member (List.mem_filterMap.mpr ⟨slot, there, known⟩))

end Read

end Slot

open Outline

namespace Row

def noteText (row : Row) : Text :=
  match row.note with
  | some words => "//".toText ++ words
  | none => []

/-- A row as source text, with the break behind it. -/
def text (row : Row) : Text :=
  Slot.lineText row.slots ++ row.noteText ++ (if row.carriage then "\r\n".toText else "\n".toText)

/-- The lines of the comment behind the first one. -/
def hidden (row : Row) : List Text :=
  match row.note with
  | some words => (Text.lines words).tail
  | none => []

def noteLine (row : Row) : Text :=
  match row.note with
  | some words => "//".toText ++ (Text.lines words).headD []
  | none => []

section Read

variable {row : Row}

theorem noteLine_cases (row : Row) :
    row.noteLine = [] ∨ ∃ words, row.noteLine = "//".toText ++ words := by
  rw [noteLine]
  cases row.note with
  | none => exact Or.inl rfl
  | some words => exact Or.inr ⟨_, rfl⟩

theorem mem_hidden {line : Text} (inside : line ∈ row.hidden) :
    ∃ words, row.note = some words ∧ line ∈ (Text.lines words).tail := by
  rw [hidden] at inside
  cases note : row.note with
  | none =>
    rw [note] at inside
    cases inside
  | some words =>
    rw [note] at inside
    exact ⟨words, rfl, inside⟩

/-- The breaks in a line comment end it. -/
theorem shown_code {front : Text} (single : SingleLine front) (row : Row) :
    Text.shown (front ++ row.noteText) =
      Text.shownLines ((front ++ row.noteLine) :: row.hidden) := by
  rw [noteText, noteLine, hidden]
  cases row.note with
  | none =>
    rw [List.append_nil, Text.shown_singleLine single]
  | some words =>
    have open_ : SingleLine (front ++ "//".toText) := single.append (by decide)
    rw [Text.shown, ← List.append_assoc,
      Text.lines_append_of_singleLine open_ (by simp [String.toText]), List.append_assoc]

/-- A row is read as its members, and no comment is unused behind it. -/
theorem readLines_row (writable : ∀ member ∈ Slot.members row.slots, member.IsWritable)
    (silent : ∀ line ∈ row.hidden, IsSilent line) (below : Text) :
    readLines none (Text.shown (row.text ++ below)) =
      (Slot.members row.slots).map Member.bare ++ readLines none (Text.shown below) := by
  have fits := fun member known => (writable member known).toFitsLine
  have free := Slot.slash_not_mem_lineText fits
  have parted : Text.shown (row.text ++ below) =
      Text.shown (Slot.lineText row.slots ++ row.noteText) ++ Text.shown below := by
    rw [text]
    cases row.carriage with
    | true =>
      have carriage := Text.shown_append_break (c := '\r') (by decide)
        (Slot.lineText row.slots ++ row.noteText) (.char '\n' :: below)
      rw [Text.shown_blank_cons (c := '\n') (by decide)] at carriage
      rw [← carriage, List.append_assoc]
      rfl
    | false =>
      have feed := Text.shown_append_break (c := '\n') (by decide)
        (Slot.lineText row.slots ++ row.noteText) below
      rw [← feed, List.append_assoc]
      rfl
  obtain ⟨noDoc, members⟩ := held_code free row.noteLine_cases
  rw [parted, shown_code (Slot.singleLine_lineText fits), Text.shown, ← Text.shownLines_append,
    readLines_shownLines, readLines_shownLines, List.cons_append, readLines_cons, members,
    unusedBehind, noDoc, members, Slot.lineMembers_lineText writable, document_none]
  rw [readLines_silent_append silent]

/-- A row ends with a line feed. -/
theorem exists_feed (row : Row) : ∃ before : Text, row.text = before ++ [.char '\n'] := by
  rw [text]
  cases row.carriage with
  | true =>
    refine ⟨Slot.lineText row.slots ++ row.noteText ++ [.char '\r'], ?_⟩
    simp only [if_true, List.append_assoc]
    rfl
  | false => exact ⟨_, rfl⟩

/-- The braces of a row are those of its members, if its comment holds none. -/
theorem seals_braces_text (fits : ∀ member ∈ Slot.members row.slots, member.FitsLine)
    (noBraces : ∀ note, row.note = some note → .char '\x7b' ∉ note ∧ .char '\x7d' ∉ note) :
    Brackets.braces.Seals [] row.text := by
  have note : Brackets.braces.Seals [] row.noteText := by
    rw [noteText]
    cases known : row.note with
    | none => rfl
    | some words =>
      obtain ⟨noOpener, noCloser⟩ := noBraces words known
      refine Brackets.Seals.append (by decide) (Brackets.Seals.flat fun c inside => ?_)
      refine ⟨fun opens => ?_, fun closes => ?_, List.not_mem_nil⟩
      · exact noOpener (List.mem_singleton.mp opens ▸ inside)
      · exact noCloser (List.mem_singleton.mp closes ▸ inside)
  have feed : Brackets.braces.Seals [] (if row.carriage then "\r\n".toText else "\n".toText) := by
    cases row.carriage <;> decide
  exact ((Slot.seals_braces_lineText fits).append note).append feed

end Read

end Row

namespace Layout

def text (layout : Layout) : Text := layout.rows.flatMap Row.text ++ Slot.lineText layout.last

def members (layout : Layout) : List Member :=
  layout.rows.flatMap (fun row => Slot.members row.slots) ++ Slot.members layout.last

def notes (layout : Layout) : List Text := layout.rows.filterMap Row.note

section Read

variable {layout : Layout} {row : Row} {rows : List Row} {last : List Slot}

theorem text_cons (row : Row) (rows : List Row) (last : List Slot) :
    (mk (row :: rows) last).text = row.text ++ (mk rows last).text := by
  rw [text, List.flatMap_cons, List.append_assoc, text]

theorem members_cons (row : Row) (rows : List Row) (last : List Slot) :
    (mk (row :: rows) last).members = Slot.members row.slots ++ (mk rows last).members := by
  rw [members, List.flatMap_cons, List.append_assoc, members]

/-- Line by line, a body is read as its members. -/
theorem readMembers_text (writable : ∀ member ∈ layout.members, member.IsWritable)
    (silent : ∀ note ∈ layout.notes, ∀ line ∈ (Text.lines note).tail, IsSilent line) :
    readMembers layout.text = layout.members.map Member.bare := by
  replace silent : ∀ row ∈ layout.rows, ∀ line ∈ row.hidden, IsSilent line := by
    intro row here line inside
    obtain ⟨note, known, later⟩ := Row.mem_hidden inside
    exact silent note (List.mem_filterMap.mpr ⟨row, here, known⟩) line later
  obtain ⟨rows, last⟩ := layout
  rw [readMembers_eq_shown]
  -- No row leaves a comment unused, so the rows below it are read as a body of their own.
  induction rows with
  | nil =>
    have final : ∀ member ∈ Slot.members last, member.IsWritable := writable
    have fits := fun member known => (final member known).toFitsLine
    have free := Slot.slash_not_mem_lineText fits
    obtain ⟨-, members⟩ := held_code free (Or.inl rfl)
    rw [List.append_nil] at members
    show readLines none (Text.shown (Slot.lineText last)) = (Slot.members last).map Member.bare
    rw [Text.shown_singleLine (Slot.singleLine_lineText fits), readLines_shownLines,
      readLines_cons, members, Slot.lineMembers_lineText final, document_none]
    exact List.append_nil _
  | cons row rest ih =>
    rw [members_cons] at writable
    have upper := fun member inside => writable member (List.mem_append_left _ inside)
    have later := ih (fun member inside => writable member (List.mem_append_right _ inside))
      fun other here => silent other (List.mem_cons_of_mem row here)
    rw [text_cons, Row.readLines_row upper (silent row (by simp)), later, members_cons,
      List.map_append]

/-- A break stands in front of the last line. -/
theorem text_eq (layout : Layout) :
    layout.text = Slot.lineText layout.last ∨
      ∃ front, layout.text = front ++ .char '\n' :: Slot.lineText layout.last := by
  obtain ⟨rows, last⟩ := layout
  induction rows with
  | nil => exact Or.inl rfl
  | cons row rest ih =>
    right
    obtain ⟨before, ends⟩ := row.exists_feed
    rw [text_cons]
    rcases ih with same | ⟨front, same⟩
    · exact ⟨before, by rw [same, ends, List.append_assoc]; rfl⟩
    · exact ⟨row.text ++ front, by rw [same, List.append_assoc]⟩

/-- Whatever the line comments say, none of them reaches the brace behind the body. -/
theorem not_lineTail_text (fits : ∀ member ∈ layout.members, member.FitsLine)
    {front behind : Text} (before : .char '/' ∉ front) (after : .char '/' ∉ behind) :
    ¬Comment.LineTail (front ++ (layout.text ++ behind)) := by
  have last : .char '/' ∉ Slot.lineText layout.last ++ behind := by
    rw [List.mem_append, not_or]
    exact ⟨Slot.slash_not_mem_lineText
      fun member known => fits member (List.mem_append_right _ known), after⟩
  rcases layout.text_eq with alone | ⟨above, broken⟩
  · rw [alone]
    refine Comment.not_lineTail_of_lacks (Text.lacks_of_not_mem ?_)
    rw [List.mem_append, not_or]
    exact ⟨before, last⟩
  · -- A comment would end at the last break, behind which no slash stands.
    have whole : front ++ (layout.text ++ behind) =
        (front ++ above) ++ .char '\n' :: (Slot.lineText layout.last ++ behind) := by
      rw [broken]
      simp only [List.append_assoc, List.cons_append]
    rw [whole]
    exact Comment.not_lineTail_of_last _ last

/-- The braces around a body are those of one object. -/
theorem seals_text (fits : ∀ member ∈ layout.members, member.FitsLine)
    (noBraces : ∀ note ∈ layout.notes, .char '\x7b' ∉ note ∧ .char '\x7d' ∉ note) :
    Brackets.braces.Seals [] layout.text := by
  obtain ⟨rows, last⟩ := layout
  induction rows with
  | nil => exact Slot.seals_braces_lineText fits
  | cons row rest ih =>
    rw [members_cons] at fits
    have note : ∀ note, row.note = some note → note ∈ (mk (row :: rest) last).notes :=
      fun note known => List.mem_filterMap.mpr ⟨row, List.mem_cons_self, known⟩
    have later : ∀ note ∈ (mk rest last).notes, note ∈ (mk (row :: rest) last).notes := by
      intro note here
      obtain ⟨other, there, known⟩ := List.mem_filterMap.mp here
      exact List.mem_filterMap.mpr ⟨other, List.mem_cons_of_mem row there, known⟩
    rw [text_cons]
    exact (Row.seals_braces_text (fun member known => fits member (List.mem_append_left _ known))
      fun words known => noBraces words (note words known)).append
        (ih (fun member known => fits member (List.mem_append_right _ known))
          fun words known => noBraces words (later words known))

end Read

end Layout

namespace Outline

section Body

variable {name final inside : Text}

theorem endsVisibly_body (closed : final = [] ∨ final = ";".toText) (inside : Text) :
    Comment.EndsVisibly (inside ++ ("\x7d".toText ++ final)) := by
  rcases closed with rfl | rfl
  · exact ⟨inside, .char '\x7d', rfl, by decide, by decide⟩
  · exact ⟨inside ++ "\x7d".toText, .char ';', by rw [List.append_assoc]; rfl, by decide, by decide⟩

/-- An interface without a clause is read with the members between its braces. -/
theorem read?_interfaceBody (word : Text.isIdentifier name = true)
    (closed : final = [] ∨ final = ";".toText)
    (outside : ¬Comment.LineTail ("interface ".toText ++ (name ++ (" \x7b".toText ++
      (inside ++ ("\x7d".toText ++ final)))))) :
    read? ("interface ".toText ++ (name ++ (" \x7b".toText ++
        (inside ++ ("\x7d".toText ++ final))))) =
      some { name := name, kind := .interface, fields := readMembers inside } := by
  have found : beforeLastBrace? (inside ++ ("\x7d".toText ++ final)) = some inside := by
    rcases closed with rfl | rfl
    · exact beforeLastBrace?_append inside
    · exact beforeLastBrace?_append_semicolon inside
  have noBases : ∀ base ∈ ([] : List Text), Text.isIdentifier base = true := by
    intro base absent
    cases absent
  have reads : interface? ("interface ".toText ++ (name ++ (" \x7b".toText ++
      (inside ++ ("\x7d".toText ++ final))))) =
        some { name := name, kind := .interface, fields := readMembers inside } :=
    interface?_of_body word noBases found
  have ends := (((endsVisibly_body closed inside).append " \x7b".toText).append name).append
    "interface ".toText
  rw [read?_of_ends ends outside rfl (by decide) (by decide), reads]
  rfl

/-- An alias of an object type is read with the members between its braces. -/
theorem read?_objectBody (word : Text.isIdentifier name = true)
    (closed : final = [] ∨ final = ";".toText)
    (nested : Brackets.Seals ⟨['\x7b'], ['\x7d']⟩ [] inside)
    (outside : ¬Comment.LineTail ("type ".toText ++ (name ++ (" = \x7b".toText ++
      (inside ++ ("\x7d".toText ++ final)))))) :
    read? ("type ".toText ++ (name ++ (" = \x7b".toText ++
        (inside ++ ("\x7d".toText ++ final))))) =
      some { name := name, fields := readMembers inside } := by
  let root : Text := .char '\x7b' :: inside ++ [.char '\x7d']
  have solid : Solid root := Solid.wrap inside (by decide) (by decide)
  have dropped : Text.dropFinal ';' (root ++ final) = root := by
    rcases closed with rfl | rfl
    · rw [List.append_nil]
      exact Text.dropFinal_concat_of_ne (by decide) _
    · exact Text.dropFinal_concat ';' root
  have whole : Solid (root ++ final) := by
    rcases closed with rfl | rfl
    · rwa [List.append_nil]
    · exact solid.append (by decide)
  have written : "type ".toText ++ (name ++ (" = \x7b".toText ++
      (inside ++ ("\x7d".toText ++ final)))) =
        "type ".toText ++ (name ++ (" = ".toText ++ (root ++ final))) := by
    simp only [root, List.append_assoc, List.cons_append]
    rfl
  have object : ofRightHandSide name root = { name := name, fields := readMembers inside } := by
    rw [ofRightHandSide, Text.unwrap?_wrap (by decide) nested]
  have ends := (((endsVisibly_body closed inside).append " = \x7b".toText).append name).append
    "type ".toText
  rw [read?_of_ends ends outside rfl (by decide) (by decide), interface?_type, written,
    assigned?_of_root word solid whole dropped, object]
  rfl

end Body

section Layout

variable {name final : Text} {layout : Layout}

/-- However the signatures of members are laid out, between the braces of an interface as between
those of an object type they are read as these members, in order. The texts of the line comments
hold no braces, and if one of them breaks its line, the lines behind the break are silent. -/
theorem read?_layout (word : Text.isIdentifier name = true)
    (closed : final = [] ∨ final = ";".toText)
    (plain : ∀ member ∈ layout.members, member.comment = none)
    (words : ∀ member ∈ layout.members, Text.isIdentifier member.name = true)
    (named : ∀ member ∈ layout.members,
      TypeExpr.everywhere TypeExpr.hasIdentifier member.type = true)
    (back : ∀ member ∈ layout.members, TypeExpr.read member.type.render = member.type)
    (noBraces : ∀ note ∈ layout.notes, .char '\x7b' ∉ note ∧ .char '\x7d' ∉ note)
    (silent : ∀ note ∈ layout.notes, ∀ line ∈ (Text.lines note).tail, IsSilent line) :
    read? ("interface ".toText ++ (name ++ (" \x7b".toText ++
        (layout.text ++ ("\x7d".toText ++ final))))) =
      some { name := name, kind := .interface, fields := layout.members } ∧
    read? ("type ".toText ++ (name ++ (" = \x7b".toText ++
        (layout.text ++ ("\x7d".toText ++ final))))) =
      some { name := name, fields := layout.members } := by
  have fits : ∀ member ∈ layout.members, member.FitsLine := fun member inside =>
    (Member.isLegible_of_identifiers (words member inside) (named member inside)).fitsLine
  have writable : ∀ member ∈ layout.members, member.IsWritable :=
    fun member inside => ⟨fits member inside, back member inside⟩
  have bare : layout.members.map Member.bare = layout.members := by
    refine (List.map_congr_left fun member inside => ?_).trans (List.map_id _)
    rw [Member.bare, ← plain member inside]
    rfl
  have members : readMembers layout.text = layout.members :=
    (Layout.readMembers_text writable silent).trans bare
  have outside (keyword mark : Text) (known : .char '/' ∉ keyword) (other : .char '/' ∉ mark) :
      ¬Comment.LineTail (keyword ++ (name ++ (mark ++
        (layout.text ++ ("\x7d".toText ++ final))))) := by
    have free : .char '/' ∉ name := Text.not_mem_identifier word (by decide)
    have front : .char '/' ∉ keyword ++ (name ++ mark) := by simp [known, free, other]
    have behind : .char '/' ∉ "\x7d".toText ++ final := by
      rcases closed with rfl | rfl <;> decide
    simpa only [List.append_assoc] using Layout.not_lineTail_text fits front behind
  constructor
  · rw [read?_interfaceBody word closed (outside _ _ (by decide) (by decide)), members]
  · rw [read?_objectBody word closed (Layout.seals_text fits noBraces)
      (outside _ _ (by decide) (by decide)), members]

theorem read?_layout_mixed :
    let a : Member := { name := "a".toText, type := .primitive .string }
    let b : Member := { name := "b".toText, type := .custom "B".toText, optional := true }
    let c : Member := { name := "c".toText, type := .primitive .number, readonly := true }
    let layout : Layout :=
      { rows := [{ slots := [{}], note := some " all".toText },
          { slots := [{ before := "\t".toText, member := some a, after := " ".toText },
              { before := " ".toText, member := some b }], carriage := true },
          { slots := [{ before := "  ".toText }] },
          { slots := [{ member := some c }, { before := " ".toText }]
            note := some " last; \r see above".toText }]
        last := [{ member := some a }, { before := " ".toText }] }
    let body :=
      "// all\n\ta: string ; b?: B\r\n  \nreadonly c: number; // last; \r see above\na: string; ".toText
    layout.text = body ∧
      read? ("interface ".toText ++ ("N".toText ++ (" \x7b".toText ++
        (body ++ ("\x7d".toText ++ ";".toText))))) =
          some { name := "N".toText, kind := .interface, fields := [a, b, c, a] } ∧
      read? ("type ".toText ++ ("N".toText ++ (" = \x7b".toText ++
        (body ++ ("\x7d".toText ++ ";".toText))))) =
          some { name := "N".toText, fields := [a, b, c, a] } := by
  intro a b c layout body
  have written : layout.text = body := by decide +kernel
  have canonical : ∀ member ∈ layout.members,
      TypeExpr.everywhere TypeExpr.hasPlainName member.type = true ∧
        TypeExpr.everywhere TypeExpr.isCanonicalNode member.type = true := by decide +kernel
  have back : ∀ member ∈ layout.members, TypeExpr.read member.type.render = member.type :=
    fun member inside => TypeExpr.read_render_of_canonical (canonical member inside).1
      (canonical member inside).2
  rw [← written]
  exact ⟨rfl, read?_layout (by decide) (Or.inr rfl) (by decide) (by decide) (by decide) back
    (by decide) (by decide)⟩

/-- A carriage return alone ends the line of a comment, so the member behind it is read. -/
theorem read?_layout_carriage :
    let a : Member := { name := "a".toText, type := .primitive .string }
    let note := " x\x0db: number".toText
    let layout : Layout :=
      { rows := [{ slots := [{ member := some a }], note := some note }], last := [{}] }
    (∀ note ∈ layout.notes, .char '\x7b' ∉ note ∧ .char '\x7d' ∉ note) ∧ layout.members = [a] ∧
      layout.text = "a: string// x\x0db: number\n".toText ∧
      (read? ("interface ".toText ++ ("N".toText ++ (" \x7b".toText ++
        (layout.text ++ ("\x7d".toText ++ [])))))).map (fun found => found.fields.map Member.name) =
          some ["a".toText, "b".toText] := by
  decide

end Layout

end Outline

end SchemaBoard
