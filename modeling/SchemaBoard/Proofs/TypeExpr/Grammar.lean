import SchemaBoard.Proofs.TypeExpr.Characters
import SchemaBoard.Proofs.TypeExpr.RoundTrip

set_option autoImplicit false

/-!
The grammar of type texts. A phrase is a text beside the type that it denotes; blanks may stand
around every mark and inside every pair of brackets. Main statement: reading a phrase gives the type
that it denotes.
-/
namespace SchemaBoard.TypeExpr

open Text (Brackets Solid)
open Shape

/-- How tight a phrase holds together. -/
inductive Level where
  /-- A word, something in brackets, or one of these with array suffixes. -/
  | operand
  /-- Operands with `&` between them. -/
  | conjunction
  /-- Conjunctions with `|` between them. -/
  | choice
deriving DecidableEq, Repr

namespace Level

def mark : Level → CodePoint
  | operand => '&'
  | conjunction => '|'
  | choice => ','

/-- The marks that stand outside the brackets of a row of such phrases, but not of a phrase. -/
def barred : Level → Text
  | operand => ['&', '|', ',']
  | conjunction => ['|', ',']
  | choice => [',']

end Level

/-- What a word denotes. -/
inductive Denotes : Text → TypeExpr → Prop
  | keyword (p : Primitive) : Denotes p.keyword (primitive p)
  | object : Denotes "Object".toText (builtIn .object [])
  | map : Denotes "Map".toText (builtIn .map [])
  | reference {name : Text} (free : isReserved name = false) : Denotes name (custom name)

def appliedNames : List Text :=
  ["Array".toText, "Set".toText, "Map".toText, "Record".toText, "Tuple".toText]

/-- What a word in front of arguments denotes. -/
inductive DenotesApplied : Text → List TypeExpr → TypeExpr → Prop
  | array (element : TypeExpr) (others : List TypeExpr) :
    DenotesApplied "Array".toText (element :: others) (builtIn .array [element])
  | set (element : TypeExpr) (others : List TypeExpr) :
    DenotesApplied "Set".toText (element :: others) (builtIn .set [element])
  | mapOfKeys (key : TypeExpr) :
    DenotesApplied "Map".toText [key] (builtIn .map [key, primitive .unknown])
  | map (key value : TypeExpr) (others : List TypeExpr) :
    DenotesApplied "Map".toText (key :: value :: others) (builtIn .map [key, value])
  | recordOfKeys (key : TypeExpr) :
    DenotesApplied "Record".toText [key] (builtIn .object [key, primitive .unknown])
  | record (key value : TypeExpr) (others : List TypeExpr) :
    DenotesApplied "Record".toText (key :: value :: others) (builtIn .object [key, value])
  | tuple (elements : List TypeExpr) :
    DenotesApplied "Tuple".toText elements (builtIn .tuple elements)
  | reference {name : Text} (arguments : List TypeExpr) (free : name ∉ appliedNames) :
    DenotesApplied name arguments (custom name)

/-- The only member of a row, or all members under an operator. -/
def operation (operator : List TypeExpr → TypeExpr) : List TypeExpr → TypeExpr
  | [only] => only
  | members => operator members

mutual

/-- A text is a phrase of that level and denotes that type. An empty tuple without a blank inside
takes no suffix without a blank in front of it. -/
inductive Phrase : Level → Text → TypeExpr → Prop
  | word {name : Text} {type : TypeExpr} (identifier : Text.isIdentifier name = true)
      (denotes : Denotes name type) :
    Phrase .operand name type
  | suffixed {text gap : Text} {element : TypeExpr} (phrase : Phrase .operand text element)
      (blank : Text.allBlank gap = true) (apart : text ++ gap ≠ arrayMark) :
    Phrase .operand (text ++ gap ++ arrayMark) (builtIn .array [element])
  | emptyTuple {gap : Text} (blank : Text.allBlank gap = true) :
    Phrase .operand (.char '[' :: gap ++ [.char ']']) (builtIn .tuple [])
  | tuple {text before after : Text} {elements : List TypeExpr} (row : Row .choice text elements)
      (first : Text.allBlank before = true) (second : Text.allBlank after = true) :
    Phrase .operand (.char '[' :: (before ++ text ++ after) ++ [.char ']'])
      (builtIn .tuple elements)
  | group {text before after : Text} {type : TypeExpr} (phrase : Phrase .choice text type)
      (first : Text.allBlank before = true) (second : Text.allBlank after = true) :
    Phrase .operand (.char '(' :: (before ++ text ++ after) ++ [.char ')']) type
  | applied {name text before after : Text} {arguments : List TypeExpr} {type : TypeExpr}
      (identifier : Text.isIdentifier name = true) (row : Row .choice text arguments)
      (first : Text.allBlank before = true) (second : Text.allBlank after = true)
      (denotes : DenotesApplied name arguments type) :
    Phrase .operand (name ++ (.char '<' :: (before ++ text ++ after) ++ [.char '>'])) type
  | conjunction {text : Text} {members : List TypeExpr} (row : Row .operand text members) :
    Phrase .conjunction text (operation intersection members)
  | choice {text : Text} {members : List TypeExpr} (row : Row .conjunction text members) :
    Phrase .choice text (operation union members)

/-- A text is some phrases of one level, with the mark of that level between neighbours. -/
inductive Row : Level → Text → List TypeExpr → Prop
  | single {level : Level} {text : Text} {type : TypeExpr} (only : Phrase level text type) :
    Row level text [type]
  | cons {level : Level} {text before after others : Text} {type : TypeExpr}
      {types : List TypeExpr} (head : Phrase level text type)
      (first : Text.allBlank before = true) (second : Text.allBlank after = true)
      (rest : Row level others types) :
    Row level (text ++ (before ++ level.mark :: (after ++ others))) (type :: types)

end

/-! Every word denotes exactly one type, alone and in front of arguments. -/

theorem denotes_iff {name : Text} {type : TypeExpr} : Denotes name type ↔ type = ofWord name := by
  constructor
  · intro denotes
    cases denotes with
    | keyword p => cases p <;> rfl
    | object => rfl
    | map => rfl
    | reference free =>
      simp only [isReserved, Bool.or_eq_false_iff, beq_eq_false_iff_ne, ne_eq] at free
      obtain ⟨⟨noKeyword, noObject⟩, noMap⟩ := free
      have absent : Primitive.ofKeyword? name = none := by simpa using noKeyword
      rw [ofWord, absent]
      simp [noObject, noMap]
  · rintro rfl
    unfold ofWord
    split
    · next p found => exact Primitive.ofKeyword?_eq_some found ▸ Denotes.keyword p
    · next absent =>
      split
      · next same => exact same ▸ Denotes.object
      · next noObject =>
        split
        · next same => exact same ▸ Denotes.map
        · next noMap => exact Denotes.reference (by simp [isReserved, absent, noObject, noMap])

theorem denotesApplied_iff {name : Text} {arguments : List TypeExpr} {type : TypeExpr}
    (some : arguments ≠ []) :
    DenotesApplied name arguments type ↔ type = TypeExpr.applied name arguments := by
  constructor
  · intro denotes
    cases denotes with
    | reference _ free =>
      simp only [appliedNames, List.mem_cons, List.not_mem_nil, or_false, not_or] at free
      obtain ⟨noArray, noSet, noMap, noRecord, noTuple⟩ := free
      simp [TypeExpr.applied, noArray, noSet, noMap, noRecord, noTuple]
    | _ => rfl
  · rintro rfl
    obtain ⟨head, others, rfl⟩ := List.exists_cons_of_ne_nil some
    unfold TypeExpr.applied
    split
    · next same => exact same ▸ DenotesApplied.array head others
    · next noArray =>
      split
      · next same => exact same ▸ DenotesApplied.set head others
      · next noSet =>
        split
        · next same =>
          subst same
          cases others with
          | nil => exact DenotesApplied.mapOfKeys head
          | cons value others => exact DenotesApplied.map head value others
        · next noMap =>
          split
          · next same =>
            subst same
            cases others with
            | nil => exact DenotesApplied.recordOfKeys head
            | cons value others => exact DenotesApplied.record head value others
          · next noRecord =>
            split
            · next same => exact same ▸ DenotesApplied.tuple (head :: others)
            · next noTuple =>
              refine DenotesApplied.reference _ ?_
              simp [appliedNames, noArray, noSet, noMap, noRecord, noTuple]

section Nested

/-- The brackets that reading counts: all together, parentheses, square brackets. -/
def bracketKinds : List Brackets :=
  [Brackets.plain, ⟨[.char '('], [.char ')']⟩, ⟨[.char '['], [.char ']']⟩]

/-- However the brackets of the text are counted, they are nested. -/
def Nested (text : Text) : Prop := ∀ brackets ∈ bracketKinds, brackets.Seals [] text

instance (text : Text) : Decidable (Nested text) :=
  inferInstanceAs (Decidable (∀ brackets ∈ bracketKinds, brackets.Seals [] text))

theorem suits_of_mem_bracketKinds {brackets : Brackets} (kind : brackets ∈ bracketKinds) :
    Suits brackets [] := by
  simp only [bracketKinds, List.mem_cons, List.not_mem_nil, or_false] at kind
  rcases kind with rfl | rfl | rfl
  · exact suits_plain (List.nil_subset _)
  · exact suits_pair '(' ')' (by decide)
  · exact suits_pair '[' ']' (by decide)

theorem Nested.plain {text : Text} (nested : Nested text) : Brackets.plain.Seals [] text :=
  nested _ (by simp [bracketKinds])

theorem Nested.rounds {text : Text} (nested : Nested text) :
    Brackets.Seals ⟨[.char '('], [.char ')']⟩ [] text :=
  nested _ (by simp [bracketKinds])

theorem Nested.squares {text : Text} (nested : Nested text) :
    Brackets.Seals ⟨[.char '['], [.char ']']⟩ [] text :=
  nested _ (by simp [bracketKinds])

theorem Nested.append {first second : Text} (left : Nested first) (right : Nested second) :
    Nested (first ++ second) :=
  fun brackets kind => (left brackets kind).append (right brackets kind)

theorem Nested.wrap (pair : CodePoint × CodePoint) (known : pair ∈ bracketPairs) {inside : Text}
    (nested : Nested inside) : Nested (pair.1 :: inside ++ [pair.2]) :=
  fun brackets kind =>
    (suits_of_mem_bracketKinds kind).wrap pair known inside (nested brackets kind)

theorem nested_flat {text : Text} (free : ∀ c ∈ text, c ∉ marks) : Nested text :=
  fun _ kind => (suits_of_mem_bracketKinds kind).flat text free

theorem nested_mark (level : Level) : Nested [level.mark] := by cases level <;> decide

theorem not_mem_marks_of_blank {gap : Text} (blank : Text.allBlank gap = true) :
    ∀ c ∈ gap, c ∉ marks := by
  have visible : ∀ c ∈ marks, Text.isBlank c = false := by decide
  exact fun c member structuring => Text.not_mem_of_visible blank (visible c structuring) member

theorem not_mem_marks_of_identifier {name : Text} (word : Text.isIdentifier name = true) :
    ∀ c ∈ name, c ∉ marks :=
  (isPlainName_iff.mp (isPlainName_of_isIdentifier word)).2

theorem nested_padded {before text after : Text} (first : Text.allBlank before = true)
    (second : Text.allBlank after = true) (nested : Nested text) :
    Nested (before ++ text ++ after) :=
  ((nested_flat (not_mem_marks_of_blank first)).append nested).append
    (nested_flat (not_mem_marks_of_blank second))

end Nested

section Levels

variable (level : Level)

theorem neutral_mark : Brackets.plain.Neutral level.mark := by cases level <;> decide

theorem mark_mem_barred : level.mark ∈ level.barred := by cases level <;> decide

theorem barred_subset_marks : level.barred ⊆ marks := by cases level <;> decide

end Levels

/-- What reading knows of a phrase, from the text alone. -/
structure Reads (level : Level) (text : Text) (type : TypeExpr) : Prop where
  solid : Solid text
  nested : Nested text
  sealed : Brackets.plain.Seals level.barred text
  element : level = .operand → (arraySuffixes text.reverse).2 = [] → text = arrayMark
  read_eq : read text = type

/-- The texts between the marks of a row. -/
def cuts (level : Level) (text : Text) : List Text :=
  (Text.pieces Brackets.plain [level.mark] 0 text).map Text.trim

/-- What reading knows of a row, from the text alone. -/
structure ReadsRow (level : Level) (text : Text) (types : List TypeExpr) : Prop where
  solid : Solid text
  nested : Nested text
  sealed : Brackets.plain.Seals level.barred.tail text
  visible : ∀ part ∈ cuts level text, part ≠ []
  read_eq : (cuts level text).map read = types

/-- Blanks around a text do not show in the type. -/
theorem read_padded {before text after : Text} (first : Text.allBlank before = true)
    (second : Text.allBlank after = true) : read (before ++ text ++ after) = read text := by
  have same : ofText (before ++ text ++ after) = ofText text := by
    rw [ofText, ofText, Text.trim_padded first second]
  rw [TypeExpr.read_eq, TypeExpr.read_eq text, same]

theorem read_trimStart (text : Text) : read (Text.trimStart text) = read text := by
  have padded : read (text.takeWhile Text.isBlank ++ Text.trimStart text ++ []) =
      read (Text.trimStart text) := read_padded (Text.allBlank_takeWhile text) rfl
  rwa [Text.takeWhile_append_trimStart, List.append_nil, eq_comm] at padded

section Operands

variable {text before after gap : Text} {type : TypeExpr} {types : List TypeExpr}

theorem Reads.isOperand (phrase : Reads .operand text type) : IsOperand text :=
  isOperand_of_seals phrase.solid phrase.sealed (by decide)

theorem reads_of_ends {c : CodePoint} (solid : Solid text) (nested : Nested text)
    (sealed : Brackets.plain.Seals Level.operand.barred text) (last : text.getLast? = some c)
    (other : c ≠ ']') (same : read text = type) : Reads .operand text type where
  solid := solid
  nested := nested
  sealed := sealed
  element := fun _ nothing => absurd nothing (suffixes_ne_nil_of_last last other)
  read_eq := same

theorem reads_word {name : Text} (word : Text.isIdentifier name = true)
    (denotes : Denotes name type) : Reads .operand name type := by
  have free := not_mem_marks_of_identifier word
  have solid := Text.solid_identifier word
  obtain ⟨rest, c, eq, -⟩ := solid.exists_last
  have last : name.getLast? = some c := by rw [eq, List.getLast?_concat]
  have other : c ≠ ']' := by
    rintro rfl
    exact free (.char ']') (List.mem_of_mem_getLast? last) (by decide)
  refine reads_of_ends solid (nested_flat free)
    ((suits_plain (barred_subset_marks .operand)).flat name free) last other ?_
  rw [read_of_isPlainName (isPlainName_of_isIdentifier word)]
  exact (denotes_iff.mp denotes).symm

theorem not_arrayMark_suffix_of_blank (blank : Text.allBlank gap = true) (some : gap ≠ []) :
    ¬arrayMark <:+ text ++ gap := by
  obtain ⟨rest, c, rfl⟩ := List.eq_nil_or_concat gap |>.resolve_left some
  rw [List.concat_eq_append, ← List.append_assoc]
  refine not_arrayMark_suffix_of_last List.getLast?_concat ?_
  rintro rfl
  exact not_mem_marks_of_blank blank (.char ']') (by simp) (by decide)

/-- Blanks in front of a suffix end the suffixes of its element. -/
theorem read_append_blank_suffix (whole : IsOperand (text ++ gap ++ arrayMark))
    (blank : Text.allBlank gap = true) (some : gap ≠ []) :
    read (text ++ gap ++ arrayMark) = builtIn .array [read text] := by
  have last : ¬arrayMark <:+ text ++ gap := not_arrayMark_suffix_of_blank blank some
  have zero := arraySuffixes_of_not_suffix last
  have element := suffixes_ne_nil_of_not_suffix (by simp [some]) last
  have found := array?_of_suffixes whole.solid (arraySuffixes_append (text ++ gap)) (by omega)
    element
  have unpadded : read ([] ++ text ++ gap) = read text := read_padded rfl blank
  rw [read_eq_array whole found, nested_succ, zero, nested, arraySuffixes_of_zero zero,
    List.reverse_reverse, ← unpadded, List.nil_append]

theorem Reads.suffixed (phrase : Reads .operand text type) (blank : Text.allBlank gap = true)
    (apart : text ++ gap ≠ arrayMark) :
    Reads .operand (text ++ gap ++ arrayMark) (builtIn .array [type]) := by
  have free := not_mem_marks_of_blank blank
  have suits : Suits Brackets.plain Level.operand.barred := suits_plain (barred_subset_marks _)
  have brackets : Brackets.plain.Seals Level.operand.barred arrayMark := by decide
  have solid : Solid (text ++ gap ++ arrayMark) := phrase.solid.between gap (by decide)
  have sealed := (phrase.sealed.append (suits.flat gap free)).append brackets
  have whole := isOperand_of_seals solid sealed (by decide)
  have both : (arraySuffixes (text ++ gap).reverse).2 ≠ [] ∧
      read (text ++ gap ++ arrayMark) = builtIn .array [read text] := by
    by_cases close : gap = []
    · subst close
      rw [List.append_nil] at apart whole ⊢
      have element := fun nothing => apart (phrase.element rfl nothing)
      exact ⟨element, read_append_suffix phrase.isOperand whole element⟩
    · have last : ¬arrayMark <:+ text ++ gap := not_arrayMark_suffix_of_blank blank close
      exact ⟨suffixes_ne_nil_of_not_suffix (by simp [close]) last,
        read_append_blank_suffix whole blank close⟩
  exact
    { solid := solid
      nested := (phrase.nested.append (nested_flat free)).append (by decide)
      sealed := sealed
      element := fun _ nothing => absurd nothing (by rw [arraySuffixes_append]; exact both.1)
      read_eq := both.2.trans (by rw [phrase.read_eq]) }

/-- Something in brackets is an operand, whatever stands inside of them. -/
theorem sealed_wrap (pair : CodePoint × CodePoint) (known : pair ∈ bracketPairs) {inside : Text}
    (nested : Nested inside) :
    Brackets.plain.Seals Level.operand.barred (pair.1 :: inside ++ [pair.2]) :=
  (suits_plain (barred_subset_marks _)).wrap pair known inside nested.plain

theorem reads_squares {inside : Text} (nested : Nested inside) :
    Reads .operand (.char '[' :: inside ++ [.char ']'])
      (builtIn .tuple ((Text.splitCommas inside).map read)) where
  solid := Solid.wrap _ (by decide) (by decide)
  nested := nested.wrap ('[', ']') (by decide)
  sealed := sealed_wrap ('[', ']') (by decide) nested
  element := by
    intro _ nothing
    by_cases empty : inside = []
    · rw [empty]
      rfl
    · have other := not_arrayMark_suffix_of_nested nested.plain empty (.char '[')
      exact absurd nothing (suffixes_ne_nil_of_not_suffix (List.cons_ne_nil _ _) other)
  read_eq := read_squares nested.plain nested.squares

theorem splitCommas_blank (blank : Text.allBlank gap = true) : Text.splitCommas gap = [] := by
  have sealed : Brackets.plain.Seals [.char ','] gap :=
    (suits_plain (by decide)).flat gap (not_mem_marks_of_blank blank)
  have whole := Text.pieces_of_seals (neutral_mark .choice) (by decide) sealed
  rw [Text.splitCommas, Text.splitTop, Text.splitOutside, ← Level.mark, whole]
  simp [Text.trim_blank blank, Text.dropEmptyLast]

theorem reads_emptyTuple (blank : Text.allBlank gap = true) :
    Reads .operand (.char '[' :: gap ++ [.char ']']) (builtIn .tuple []) := by
  have tuple := reads_squares (nested_flat (not_mem_marks_of_blank blank))
  rwa [splitCommas_blank blank] at tuple

theorem Reads.group (phrase : Reads .choice text type) (first : Text.allBlank before = true)
    (second : Text.allBlank after = true) :
    Reads .operand (.char '(' :: (before ++ text ++ after) ++ [.char ')']) type := by
  have nested := nested_padded first second phrase.nested
  have value := (read_parentheses nested.plain nested.rounds).2
  exact reads_of_ends (Solid.wrap _ (by decide) (by decide))
    (nested.wrap ('(', ')') (by decide)) (sealed_wrap ('(', ')') (by decide) nested)
    List.getLast?_concat (by decide) (value.trans ((read_padded first second).trans phrase.read_eq))

end Operands

section Rows

variable {level : Level} {text before after others : Text} {type : TypeExpr}
  {types : List TypeExpr}

theorem cuts_ne_nil (level : Level) (text : Text) : cuts level text ≠ [] := by
  simpa [cuts] using Text.pieces_ne_nil Brackets.plain [level.mark] 0 text

theorem Reads.cuts_eq (phrase : Reads level text type) : cuts level text = [text] := by
  rw [cuts, Text.pieces_of_seals (neutral_mark level) (mark_mem_barred level) phrase.sealed,
    List.map_singleton, Text.trim_eq_self phrase.solid.trimmed]

theorem Reads.row (phrase : Reads level text type) : ReadsRow level text [type] where
  solid := phrase.solid
  nested := phrase.nested
  sealed := phrase.sealed.mono ((List.tail_sublist _).subset)
  visible := by
    rw [phrase.cuts_eq]
    intro part member
    exact List.mem_singleton.mp member ▸ phrase.solid.nonempty
  read_eq := by rw [phrase.cuts_eq, List.map_singleton, phrase.read_eq]

theorem seals_mark (level : Level) : Brackets.plain.Seals level.barred.tail [level.mark] := by
  cases level <;> decide

theorem Reads.cons (head : Reads level text type) (first : Text.allBlank before = true)
    (second : Text.allBlank after = true) (rest : ReadsRow level others types) :
    ReadsRow level (text ++ (before ++ level.mark :: (after ++ others))) (type :: types) := by
  have cut : cuts level (text ++ (before ++ level.mark :: (after ++ others))) =
      text :: cuts level others := by
    rw [cuts, Text.pieces_append_mark (neutral_mark level) first second
      (Text.depthBehind_eq_of_level head.nested.plain)]
    exact congrArg (· ++ cuts level others) head.cuts_eq
  have gaps : ∀ gap, Text.allBlank gap = true → Brackets.plain.Seals level.barred.tail gap :=
    fun gap blank => (suits_plain fun _ member => barred_subset_marks level
      (List.mem_of_mem_tail member)).flat gap (not_mem_marks_of_blank blank)
  have blank := fun gap (free : Text.allBlank gap = true) =>
    nested_flat (not_mem_marks_of_blank free)
  exact
    { solid := by
        have ends := head.solid.between (before ++ level.mark :: after) rest.solid
        simpa using ends
      nested := head.nested.append ((blank before first).append
        ((nested_mark level).append ((blank after second).append rest.nested)))
      sealed := (head.sealed.mono ((List.tail_sublist _).subset)).append ((gaps before first).append
        ((seals_mark level).append ((gaps after second).append rest.sealed)))
      visible := by
        rw [cut]
        intro part member
        rcases List.mem_cons.mp member with rfl | later
        · exact head.solid.nonempty
        · exact rest.visible part later
      read_eq := by rw [cut, List.map_cons, head.read_eq, rest.read_eq] }

theorem ReadsRow.splitTop (row : ReadsRow level text types) (first : Text.allBlank before = true)
    (second : Text.allBlank after = true) :
    Text.splitTop [level.mark] (before ++ text ++ after) = cuts level text := by
  have last : (cuts level text).getLast? ≠ some [] :=
    fun empty => row.visible [] (List.mem_of_mem_getLast? empty) rfl
  rw [Text.splitTop, Text.splitOutside,
    Text.pieces_padded (neutral_mark level) first second]
  exact Text.dropEmptyLast_eq_self last

theorem ReadsRow.splitTop_self (row : ReadsRow level text types) :
    Text.splitTop [level.mark] text = cuts level text := by
  have whole : Text.splitTop [level.mark] ([] ++ text ++ []) = cuts level text :=
    row.splitTop rfl rfl
  rwa [List.nil_append, List.append_nil] at whole

theorem ReadsRow.types_ne_nil (row : ReadsRow level text types) : types ≠ [] := by
  rw [← row.read_eq]
  simpa using cuts_ne_nil level text

theorem ReadsRow.read_splitCommas (row : ReadsRow .choice text types)
    (first : Text.allBlank before = true) (second : Text.allBlank after = true) :
    (Text.splitCommas (before ++ text ++ after)).map read = types := by
  have cut : Text.splitTop [','] (before ++ text ++ after) = cuts .choice text :=
    row.splitTop first second
  have all : (cuts .choice text).filter (· ≠ []) = cuts .choice text :=
    List.filter_eq_self.mpr fun part member => by simpa using row.visible part member
  rw [Text.splitCommas, cut, all, row.read_eq]

theorem ReadsRow.tuple (row : ReadsRow .choice text types) (first : Text.allBlank before = true)
    (second : Text.allBlank after = true) :
    Reads .operand (.char '[' :: (before ++ text ++ after) ++ [.char ']'])
      (builtIn .tuple types) := by
  have tuple := reads_squares (nested_padded first second row.nested)
  rwa [row.read_splitCommas first second] at tuple

theorem ReadsRow.applied {name : Text} (row : ReadsRow .choice text types)
    (word : Text.isIdentifier name = true) (first : Text.allBlank before = true)
    (second : Text.allBlank after = true) :
    Reads .operand (name ++ (.char '<' :: (before ++ text ++ after) ++ [.char '>']))
      (TypeExpr.applied name types) := by
  have free := not_mem_marks_of_identifier word
  have nested := nested_padded first second row.nested
  have inside : before ++ text ++ after ≠ [] := by simp [row.solid.nonempty]
  have value := read_angles word free nested.plain inside
  rw [row.read_splitCommas first second] at value
  have suits : Suits Brackets.plain Level.operand.barred := suits_plain (barred_subset_marks _)
  have ends : Solid (.char '<' :: (before ++ text ++ after) ++ [.char '>']) :=
    Solid.wrap _ (by decide) (by decide)
  have last : (name ++ (CodePoint.char '<' :: (before ++ text ++ after) ++
      [CodePoint.char '>'])).getLast? = some (.char '>') := by
    rw [← List.append_assoc, List.getLast?_concat]
  have sealed := (suits.flat name free).append (sealed_wrap ('<', '>') (by decide) nested)
  exact reads_of_ends ((Text.solid_identifier word).append ends)
    ((nested_flat free).append (nested.wrap ('<', '>') (by decide))) sealed last (by decide) value

/-- A row of one phrase is read as that phrase, a longer one as soon as its operator is seen. -/
theorem ReadsRow.read_operation (row : ReadsRow level text types)
    {operator : List TypeExpr → TypeExpr}
    (several : 1 < (cuts level text).length →
      read text = operator ((cuts level text).map read)) :
    read text = operation operator types := by
  have same := row.read_eq
  cases eq : cuts level text with
  | nil => exact absurd eq (cuts_ne_nil level text)
  | cons part rest =>
    rw [eq] at several same
    cases rest with
    | nil =>
      have single : (Text.pieces Brackets.plain [level.mark] 0 text).length = 1 := by
        rw [← List.length_map Text.trim, ← cuts, eq]
        rfl
      rw [cuts, Text.pieces_eq_of_length single, List.map_singleton,
        Text.trim_eq_self row.solid.trimmed] at eq
      obtain rfl := List.head_eq_of_cons_eq eq
      rw [← same]
      rfl
    | cons next others =>
      rw [several (by simp), ← same]
      rfl

theorem ReadsRow.conjunction (row : ReadsRow .operand text types) :
    Reads .conjunction text (operation intersection types) where
  solid := row.solid
  nested := row.nested
  sealed := row.sealed
  element := fun other => nomatch other
  read_eq := by
    have cut : Text.splitTop ['&'] text = cuts .operand text := row.splitTop_self
    have whole : (Text.splitTop ['|'] text).length ≤ 1 :=
      Text.splitOutside_length_le_of_pieces
        (Text.pieces_of_seals (neutral_mark .conjunction) (by decide) row.sealed)
    refine row.read_operation fun several => ?_
    rw [← cut] at several ⊢
    exact read_eq_intersection row.solid whole several

theorem ReadsRow.choice (row : ReadsRow .conjunction text types) :
    Reads .choice text (operation union types) where
  solid := row.solid
  nested := row.nested
  sealed := row.sealed
  element := fun other => nomatch other
  read_eq := by
    have cut : Text.splitTop ['|'] text = cuts .conjunction text := row.splitTop_self
    refine row.read_operation fun several => ?_
    rw [← cut] at several ⊢
    exact read_eq_union row.solid several

end Rows

mutual

theorem Phrase.reads {level : Level} {text : Text} {type : TypeExpr} :
    Phrase level text type → Reads level text type
  | .word identifier denotes => reads_word identifier denotes
  | .suffixed phrase free apart => phrase.reads.suffixed free apart
  | .emptyTuple free => reads_emptyTuple free
  | .tuple row first second => row.reads.tuple first second
  | .group phrase first second => phrase.reads.group first second
  | .applied identifier row first second denotes => by
    rw [(denotesApplied_iff row.reads.types_ne_nil).mp denotes]
    exact row.reads.applied identifier first second
  | .conjunction row => row.reads.conjunction
  | .choice row => row.reads.choice

theorem Row.reads {level : Level} {text : Text} {types : List TypeExpr} :
    Row level text types → ReadsRow level text types
  | .single only => only.reads.row
  | .cons head first second rest => head.reads.cons first second rest.reads

end

/-- Reading agrees with the grammar: a phrase, with any blanks around it, is read as the type that
it denotes. -/
theorem read_of_phrase {text before after : Text} {type : TypeExpr}
    (phrase : Phrase .choice text type) (first : Text.allBlank before = true)
    (second : Text.allBlank after = true) : read (before ++ text ++ after) = type :=
  (read_padded first second).trans phrase.reads.read_eq

theorem read_of_phrase_mixed :
    read " ( Map<K>|[ ] [] & [A , Foo<K>] )[]\t|Record<K ,A,K>\n".toText =
      union [
        builtIn .array [union [
          builtIn .map [custom "K".toText, primitive .unknown],
          intersection [
            builtIn .array [builtIn .tuple []],
            builtIn .tuple [custom "A".toText, custom "Foo".toText]]]],
        builtIn .object [custom "K".toText, custom "A".toText]] := by
  have alone : ∀ text type, Phrase .operand text type → Phrase .choice text type :=
    fun _ _ phrase => .choice (.single (.conjunction (.single phrase)))
  have key : Phrase .choice "K".toText (custom "K".toText) :=
    alone _ _ (.word (by decide) (.reference (by decide)))
  have name : Phrase .choice "A".toText (custom "A".toText) :=
    alone _ _ (.word (by decide) (.reference (by decide)))
  have map : Phrase .operand "Map<K>".toText
      (builtIn .map [custom "K".toText, primitive .unknown]) :=
    @Phrase.applied "Map".toText _ [] [] _ _ (by decide) (.single key) rfl rfl (.mapOfKeys _)
  have foo : Phrase .operand "Foo<K>".toText (custom "Foo".toText) :=
    @Phrase.applied "Foo".toText _ [] [] _ _ (by decide) (.single key) rfl rfl
      (.reference _ (by decide))
  have pair : Phrase .operand "[A , Foo<K>]".toText
      (builtIn .tuple [custom "A".toText, custom "Foo".toText]) :=
    @Phrase.tuple _ [] [] _
      (@Row.cons .choice _ " ".toText " ".toText _ _ _ name rfl rfl (.single (alone _ _ foo)))
      rfl rfl
  have empty : Phrase .operand "[ ] []".toText (builtIn .array [builtIn .tuple []]) :=
    @Phrase.suffixed _ " ".toText _ (@Phrase.emptyTuple " ".toText rfl) rfl (by decide)
  have both : Phrase .conjunction "[ ] [] & [A , Foo<K>]".toText
      (intersection [builtIn .array [builtIn .tuple []],
        builtIn .tuple [custom "A".toText, custom "Foo".toText]]) :=
    .conjunction (@Row.cons .operand _ " ".toText " ".toText _ _ _ empty rfl rfl (.single pair))
  have group := @Phrase.group _ " ".toText " ".toText _
    (.choice (@Row.cons .conjunction _ [] [] _ _ _ (.conjunction (.single map)) rfl rfl
      (.single both))) rfl rfl
  have array := @Phrase.suffixed _ [] _ group rfl (by decide)
  have keyed := @Row.cons .choice _ " ".toText [] _ _ _ key rfl rfl
    (@Row.cons .choice _ [] [] _ _ _ name rfl rfl (.single key))
  have record : Phrase .operand "Record<K ,A,K>".toText
      (builtIn .object [custom "K".toText, custom "A".toText]) :=
    @Phrase.applied "Record".toText _ [] [] _ _ (by decide) keyed rfl rfl (.record _ _ _)
  have whole := Phrase.choice (@Row.cons .conjunction _ "\t".toText [] _ _ _
    (.conjunction (.single array)) rfl rfl (.single (.conjunction (.single record))))
  exact @read_of_phrase _ " ".toText "\n".toText _ whole rfl rfl

end SchemaBoard.TypeExpr
