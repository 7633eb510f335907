import SchemaBoard.Proofs.Declaration.Interface
import SchemaBoard.Proofs.Member.Signature
import SchemaBoard.Proofs.Text.Shown

set_option autoImplicit false

/-!
The lines of a body one by one. A line is one doc comment, or it holds the members whose signatures
stand on it. All that a line tells the next one is the comment that is still unused. Main
statements: the members of a body are those that its lines hold, whatever the comments say, and a
silent line changes nothing.
-/
namespace SchemaBoard

namespace Member

/-- A signature has no comment. -/
theorem bare_of_read? {line : Text} {found : Member} (reads : read? line = some found) :
    found.bare = found := by
  obtain ⟨reading, -, rfl⟩ := Reading.exists_of_ofSignature? reads
  rfl

theorem read?_ne_none_iff (line : Text) :
    read? line ≠ none ↔ ∃ reading : Reading, reading.text = signatureText line := by
  constructor
  · intro found
    obtain ⟨member, reads⟩ := Option.ne_none_iff_exists'.mp found
    obtain ⟨reading, text, -⟩ := Reading.exists_of_ofSignature? reads
    exact ⟨reading, text⟩
  · rintro ⟨reading, text⟩
    rw [read?, ← text, reading.ofSignature?_text]
    exact Option.some_ne_none _

end Member

namespace Outline

def docLine? (line : Text) : Option Text := (Comment.wholeDoc? (Text.trim line)).map Comment.dedent

def code (line : Text) : Text := Text.trim (dropLineComment (Text.trim line))

/-- The members on a line; a doc comment holds none. -/
def held (line : Text) : List Member :=
  if (docLine? line).isSome then [] else lineMembers (code line)

/-- The comment still unused behind a line. -/
def unusedBehind (pending : Option Text) (line : Text) : Option Text :=
  match docLine? line with
  | some words => if words.isEmpty then none else some words
  | none => (document pending (held line)).2

/-- A line that is no doc comment and has the signature of a member between its semicolons. -/
def HoldsMember (line : Text) : Prop :=
  docLine? line = none ∧
    ∃ part ∈ Text.splitOutside Text.Brackets.withBraces [';'] (code line),
      ∃ reading : Member.Reading, reading.text = Member.signatureText part

/-- A line without members that documents none. -/
structure IsSilent (line : Text) : Prop where
  noMember : ¬HoldsMember line
  noWords : ∀ words, docLine? line = some words → words = []

section Step

variable {line : Text}

theorem held_ne_nil_iff (line : Text) : held line ≠ [] ↔ HoldsMember line := by
  rw [held, HoldsMember]
  cases docLine? line with
  | some words => simp
  | none =>
    rw [lineMembers]
    simp [← Member.read?_ne_none_iff]

theorem held_eq_nil_iff (line : Text) : held line = [] ↔ ¬HoldsMember line :=
  Decidable.not_not.symm.trans (not_congr (held_ne_nil_iff line))

instance (line : Text) : Decidable (HoldsMember line) :=
  decidable_of_iff (held line ≠ []) (held_ne_nil_iff line)

theorem isSilent_iff (line : Text) :
    IsSilent line ↔ held line = [] ∧ (docLine? line).all List.isEmpty = true := by
  rw [held_eq_nil_iff]
  constructor
  · rintro ⟨noMember, noWords⟩
    refine ⟨noMember, ?_⟩
    cases doc : docLine? line with
    | none => rfl
    | some words => simp [noWords words doc]
  · rintro ⟨noMember, noWords⟩
    refine ⟨noMember, fun words doc => ?_⟩
    rw [doc] at noWords
    simpa using noWords

instance (line : Text) : Decidable (IsSilent line) :=
  decidable_of_iff _ (isSilent_iff line).symm

theorem document_none (members : List Member) : document none members = (members, none) := by
  cases members <;> rfl

theorem readLines_cons (pending : Option Text) (line : Text) (rest : List Text) :
    readLines pending (line :: rest) =
      (document pending (held line)).1 ++ readLines (unusedBehind pending line) rest := by
  rw [readLines, unusedBehind, held, docLine?]
  cases Comment.wholeDoc? (Text.trim line) with
  | some inside => rfl
  | none => rfl

/-- The lines above tell the ones below which comment is still unused, and nothing else. -/
theorem readLines_append (pending : Option Text) (above below : List Text) :
    readLines pending (above ++ below) =
      readLines pending above ++ readLines (above.foldl unusedBehind pending) below := by
  induction above generalizing pending with
  | nil => rfl
  | cons line rest ih =>
    rw [List.cons_append, readLines_cons, readLines_cons, ih, List.append_assoc, List.foldl_cons]

theorem unusedBehind_of_silent (silent : IsSilent line) : unusedBehind none line = none := by
  rw [unusedBehind]
  split
  · next words doc => simp [silent.noWords words doc]
  · rw [document_none]

/-- Silent lines change nothing, as long as no comment is still unused. -/
theorem readLines_silent_append {lines : List Text} (silent : ∀ line ∈ lines, IsSilent line)
    (below : List Text) : readLines none (lines ++ below) = readLines none below := by
  induction lines with
  | nil => rfl
  | cons line rest ih =>
    have here := silent line (by simp)
    rw [List.cons_append, readLines_cons, unusedBehind_of_silent here,
      (held_eq_nil_iff line).mpr here.noMember,
      ih fun other member => silent other (List.mem_cons_of_mem line member)]
    rfl

/-- Only what the lines show is read as members. -/
theorem readLines_shownLines (pending : Option Text) (lines : List Text) :
    readLines pending (Text.shownLines lines) = readLines pending lines := by
  induction lines generalizing pending with
  | nil => rfl
  | cons line rest ih =>
    cases blank : Text.allBlank line with
    | true =>
      have skipped : readLines pending (line :: rest) = readLines pending rest := by
        rw [readLines, Text.trim_blank blank]
        rfl
      rw [Text.shownLines_cons_blank blank, skipped, ih]
    | false =>
      have visible : Text.trim line ≠ [] := fun empty => by
        rw [Text.trim_eq_nil_iff.mp empty] at blank
        cases blank
      have shown : Text.shownLines (line :: rest) = Text.trim line :: Text.shownLines rest := by
        simp [Text.shownLines, visible]
      rw [shown, readLines, readLines, Text.trim_eq_self (Text.trimmed_trim line)]
      simp only [ih]

theorem isSilent_trim_iff (line : Text) : IsSilent (Text.trim line) ↔ IsSilent line := by
  have same : Text.trim (Text.trim line) = Text.trim line :=
    Text.trim_eq_self (Text.trimmed_trim line)
  rw [isSilent_iff, isSilent_iff, held, held, docLine?, docLine?, code, code, same]

/-- Only what a text shows matters for the silence of its lines. -/
theorem forall_lines_isSilent_iff (text : Text) :
    (∀ line ∈ Text.lines text, IsSilent line) ↔ ∀ line ∈ Text.shown text, IsSilent line := by
  constructor
  · intro silent line member
    obtain ⟨source, here, rfl⟩ := List.mem_map.mp (List.mem_filter.mp member).1
    exact (isSilent_trim_iff source).mpr (silent source here)
  · intro silent line member
    rw [← isSilent_trim_iff]
    by_cases blank : Text.trim line = []
    · rw [blank]
      decide
    · have kept : Text.trim line ∈ Text.shown text :=
        List.mem_filter.mpr ⟨List.mem_map.mpr ⟨line, member, rfl⟩, by simpa using blank⟩
      exact silent _ kept

theorem readMembers_eq_shown (body : Text) :
    readMembers body = readLines none (Text.shown body) := by
  rw [Text.shown, readLines_shownLines, readMembers]

/-- Lines without members behind other lines change nothing. -/
theorem readLines_append_silent {more : List Text}
    (silent : ∀ pending, readLines pending more = []) (pending : Option Text) (lines : List Text) :
    readLines pending (lines ++ more) = readLines pending lines := by
  induction lines generalizing pending with
  | nil => exact silent pending
  | cons line rest ih =>
    rw [List.cons_append, readLines, readLines]
    simp only [ih]

end Step

section Code

variable {line front tail : Text}

theorem lineMembers_trim (line : Text) : lineMembers (Text.trim line) = lineMembers line := by
  have neutral : Text.Brackets.withBraces.Neutral ';' := by decide
  obtain ⟨before, after, whole, first, second⟩ := Text.exists_padding line
  have cut := Text.pieces_padded neutral first second (Text.trim line)
  rw [← whole] at cut
  rw [lineMembers_eq_pieces, lineMembers_eq_pieces, cut]

theorem docLine?_eq_none_of_head (other : (Text.trim line).head? ≠ some (.char '/')) :
    docLine? line = none := by
  rw [docLine?, Comment.wholeDoc?_eq_none other]
  rfl

/-- In front of a line comment, or without one, stands code that is no doc comment. -/
theorem held_code (free : .char '/' ∉ front)
    (behind : tail = [] ∨ ∃ words, tail = "//".toText ++ words) :
    docLine? (front ++ tail) = none ∧ held (front ++ tail) = lineMembers front := by
  have noDoc : docLine? (front ++ tail) = none ∧ code (front ++ tail) = Text.trim front := by
    rcases behind with rfl | ⟨words, rfl⟩
    · have kept : .char '/' ∉ Text.trim front :=
        fun here => free ((Text.isInfix_trim front).subset here)
      rw [List.append_nil]
      refine ⟨docLine?_eq_none_of_head fun head => kept (List.mem_of_mem_head? head), ?_⟩
      rw [code, dropLineComment_of_lacks (Text.lacks_of_not_mem kept),
        Text.trim_eq_self (Text.trimmed_trim front)]
    · have kept : .char '/' ∉ Text.trimStart front :=
        fun here => free ((List.dropWhile_sublist _).subset here)
      have trimmed : Text.trim (front ++ ("//".toText ++ words)) =
          Text.trimStart front ++ .char '/' :: .char '/' :: Text.trimEnd words := by
        rw [← List.append_assoc, Text.trim_append_mark (by decide), List.append_assoc]
        rfl
      constructor
      · rw [docLine?, trimmed]
        cases start : Text.trimStart front with
        | nil => rfl
        | cons c rest =>
          have other : (c :: rest ++ .char '/' :: .char '/' :: Text.trimEnd words).head? ≠
              some (.char '/') := by
            rintro ⟨⟩
            exact kept (start ▸ List.mem_cons_self)
          rw [Comment.wholeDoc?_eq_none other]
          rfl
      · have cut : Text.cut? "//".toText (Text.trimStart front ++ .char '/' :: .char '/' ::
            Text.trimEnd words) = some (Text.trimStart front, Text.trimEnd words) :=
          Text.cut?_append_of_not_mem kept _
        rw [code, trimmed, dropLineComment, cut]
        exact Text.trim_trimStart front
  rw [held, noDoc.1, noDoc.2]
  exact ⟨rfl, lineMembers_trim front⟩

theorem readLines_of_no_members (noSlash : .char '/' ∉ line) (nothing : lineMembers line = [])
    (pending : Option Text) (rest : List Text) :
    readLines pending (line :: rest) = readLines pending rest := by
  obtain ⟨noDoc, members⟩ := held_code noSlash (Or.inl rfl)
  rw [List.append_nil] at noDoc members
  rw [readLines_cons, unusedBehind, noDoc, members, nothing]
  rfl

end Code

section Members

theorem map_bare_document (pending : Option Text) (members : List Member) :
    (document pending members).1.map Member.bare = members.map Member.bare := by
  cases members with
  | nil => rfl
  | cons first rest => cases pending <;> rfl

theorem map_bare_held (line : Text) : (held line).map Member.bare = held line := by
  refine (List.map_congr_left fun member inside => ?_).trans (List.map_id _)
  rw [held] at inside
  split at inside
  · cases inside
  · obtain ⟨part, -, reads⟩ := List.mem_filterMap.mp inside
    exact Member.bare_of_read? reads

/-- But for their comments, the members of a body are those that its lines hold. -/
theorem map_bare_readLines (pending : Option Text) (lines : List Text) :
    (readLines pending lines).map Member.bare = lines.flatMap held := by
  induction lines generalizing pending with
  | nil => rfl
  | cons line rest ih =>
    rw [readLines_cons, List.map_append, map_bare_document, map_bare_held, ih, List.flatMap_cons]

end Members

section Interface

variable {name : Text} {bases : List Text}

/-- Whatever stands on the lines between its braces, an interface is read with the members that
these lines show. -/
theorem read?_interfaceLines (comment : Option Text) (word : Text.isIdentifier name = true)
    (words : ∀ base ∈ bases, Text.isIdentifier base = true) (inner : List Text) :
    read? (Text.join ['\n'] (headerLines comment ++
        ("interface ".toText ++ (name ++ behindName bases)) :: (inner ++ ["\x7d".toText]))) =
      some { name := name, kind := .interface
             fields := readLines none (inner.flatMap Text.shown)
             bases := bases, comment := settledHeader comment } := by
  have outside := not_lineTail_interfaceLines name bases inner
  rw [join_interfaceLines] at outside
  have ends : Comment.EndsVisibly ("interface ".toText ++ (name ++ (behindName bases ++
      (insideOf inner ++ "\x7d".toText)))) :=
    have brace : Comment.EndsVisibly "\x7d".toText := ⟨[], .char '\x7d', rfl, by decide, by decide⟩
    (((brace.append _).append _).append _).append _
  have solid := ends.solid (c := .char 'i') rfl (by decide)
  have plain : ("interface ".toText ++ (name ++ (behindName bases ++
      (insideOf inner ++ "\x7d".toText)))).head? ≠ some (.char '/') := by
    rintro ⟨⟩
  have lines : Text.shown (insideOf inner) = inner.flatMap Text.shown := by
    rw [insideOf, Text.shown_append_blank rfl, Text.shown_join_eq_flatMap, List.flatMap_cons]
    rfl
  rw [join_headerLines_append comment (List.cons_ne_nil _ _), join_interfaceLines,
    read?_headed solid plain, Comment.dropTrailing_eq_self ends outside,
    interface?_of_body word words (beforeLastBrace?_append _), readMembers_eq_shown, lines]
  rfl

theorem read?_lines_of_writable {declaration : Declaration}
    (writable : IsWritableInterface declaration) (inner : List Text) :
    read? (Text.join ['\n'] (headerLines declaration.comment ++
        ("interface ".toText ++ (declaration.name ++ behindName declaration.bases)) ::
          (inner ++ ["\x7d".toText]))) =
      some { declaration with
        fields := readLines none (inner.flatMap Text.shown)
        comment := settledHeader declaration.comment } := by
  rw [read?_interfaceLines _ writable.word writable.bases]
  obtain ⟨kind, -, -, -, noUnion, noIntersection⟩ := writable
  obtain ⟨_, _, _, _, _, _, _⟩ := declaration
  subst kind noUnion noIntersection
  rfl

end Interface

end Outline

end SchemaBoard
