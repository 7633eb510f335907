import SchemaBoard.Proofs.Declaration.Operands
import SchemaBoard.Proofs.Text.Matching

set_option autoImplicit false

/-!
Aliases whose members are written out, inline objects among them. An alias is cut outside of angle,
round and square brackets, but also inside of braces. Main statement: the members of an alias come
back just if none of them has an operator in braces that stands in no other brackets.
-/
namespace SchemaBoard.Outline

open Text (Brackets Solid)

/-- What joins the members of an alias. -/
inductive Operator where
  | union
  | intersection
deriving DecidableEq, Repr

namespace Operator

def mark : Operator → CodePoint
  | union => '|'
  | intersection => '&'

/-- The characters that no member may have outside of its brackets. -/
def barred : Operator → Text
  | union => ['|']
  | intersection => ['|', '&']

/-- The alias of that name with these members and nothing else. -/
def declare (operator : Operator) (name : Text) (members : List Text) : Declaration :=
  match operator with
  | union => { name := name, unionTypes := members }
  | intersection => { name := name, intersectionTypes := members }

end Operator

/-- A text on one line without comments, whose brackets match, braces included, and which has none
of some characters outside of them. -/
structure IsMemberText (barred text : Text) : Prop where
  root : IsRoot text
  matched : Brackets.withBraces.Matches barred text

instance (barred text : Text) : Decidable (IsMemberText barred text) :=
  decidable_of_iff ((Solid text ∧ Text.SingleLine text ∧ Text.Lacks ['/', '/'] text ∧
      Text.Lacks ['/', '*'] text) ∧ Brackets.withBraces.Matches barred text)
    ⟨fun ⟨⟨solid, single, noLine, noBlock⟩, matched⟩ =>
        ⟨⟨solid, single, noLine, noBlock⟩, matched⟩,
      fun ⟨⟨solid, single, noLine, noBlock⟩, matched⟩ =>
        ⟨⟨solid, single, noLine, noBlock⟩, matched⟩⟩

section Read

variable {name root : Text}

/-- An alias on one line without comments is read as its name and its right-hand side. -/
theorem read?_aliasText (word : Text.isIdentifier name = true) (sound : IsRoot root) :
    read? (aliasText name root) = some (ofRightHandSide name root) := by
  obtain ⟨-, -, -, comment⟩ := ofRightHandSide_parts name root
  rw [read?_of_ends endsVisibly_aliasText (not_lineTail_aliasText word sound) rfl (by decide)
    (by decide), interface?_aliasText, assigned?_aliasText word sound.solid, Option.none_or,
    Option.map_some, ← comment]

end Read

section Cuts

variable {brackets : Brackets} {mark : CodePoint} {text : Text}

/-- A text that ends with something else than the mark is one part just if the mark does not cut
it. -/
theorem length_splitOutside_le_iff (solid : Solid text) (ends : text.getLast? ≠ some mark) :
    (Text.splitOutside brackets [mark] text).length ≤ 1 ↔
      Text.pieces brackets [mark] 0 text = [text] := by
  constructor
  · intro most
    obtain ⟨rest, c, eq, visible⟩ := solid.exists_last
    have last : text.getLast? = some c := by rw [eq, List.getLast?_concat]
    have other : c ≠ mark := fun same => ends (same ▸ last)
    rw [Text.splitOutside_eq_map_pieces last visible other, List.length_map] at most
    have some := Text.pieces_length_pos brackets [mark] 0 text
    exact Text.pieces_eq_of_length (Nat.le_antisymm most some)
  · exact Text.splitOutside_length_le_of_pieces

end Cuts

section Members

variable {name : Text} {barred : Text} {texts : List Text} {operator : Operator}

theorem Operator.neutral (operator : Operator) :
    ∀ mark ∈ operator.barred, Brackets.plain.Neutral mark := by
  cases operator <;> decide

theorem Operator.spaced_eq (operator : Operator) :
    spaced operator.mark = " | ".toText ∨ spaced operator.mark = " & ".toText := by
  cases operator
  · exact Or.inl rfl
  · exact Or.inr rfl

theorem Operator.mark_mem_barred (operator : Operator) : operator.mark ∈ operator.barred := by
  cases operator <;> decide

theorem Operator.neutral_mark (operator : Operator) : Brackets.plain.Neutral operator.mark :=
  operator.neutral operator.mark operator.mark_mem_barred

/-- The operators are no brackets. -/
theorem Operator.no_bracket (operator : Operator) : ∀ mark ∈ operator.barred,
    Brackets.withBraces.pairs.lookup mark = none ∧ mark ∉ Brackets.withBraces.closers := by
  cases operator <;> decide

theorem IsMemberText.nested {text : Text} (member : IsMemberText barred text) :
    Brackets.plain.Seals [] text :=
  member.matched.seals (by decide)

theorem IsMemberText.nestedBraces {text : Text} (member : IsMemberText barred text) :
    Brackets.braces.Seals [] text :=
  member.matched.seals (by decide)

theorem IsMemberText.getLast?_ne {text : Text} (member : IsMemberText operator.barred text)
    {mark : CodePoint} (bars : mark ∈ operator.barred) : text.getLast? ≠ some mark := by
  obtain ⟨noOpener, noCloser⟩ := operator.no_bracket mark bars
  exact member.matched.getLast?_ne bars noOpener noCloser

variable (several : 1 < texts.length)
  (members : ∀ text ∈ texts, IsMemberText operator.barred text)

include several members

theorem joinable_members : Text.Joinable Brackets.plain operator.mark texts where
  nonempty := by
    rintro rfl
    cases several
  nested := fun text here => (members text here).nested
  solid := fun text here => (members text here).root.solid
  ends := fun text here => (members text here).getLast?_ne operator.mark_mem_barred

theorem isRoot_members : IsRoot (Text.join (spaced operator.mark) texts) :=
  IsRoot.join (joinable_members several members).nonempty
    (fun text here => (members text here).root) operator.spaced_eq

/-- There are as many parts as members, and the parts are the members just if none of them is
cut. -/
theorem splitTop_members_eq_iff :
    Text.splitTop [operator.mark] (Text.join (spaced operator.mark) texts) = texts ↔
      ∀ text ∈ texts, Text.pieces Brackets.plain [operator.mark] 0 text = [text] := by
  have joinable := joinable_members several members
  have blank : Text.allBlank [.char ' '] = true := by decide
  constructor
  · intro same
    refine Text.pieces_eq_of_splitOutside_join operator.neutral_mark blank blank joinable ?_
    exact congrArg List.length same
  · exact Text.splitOutside_join_of_pieces operator.neutral_mark blank blank joinable

theorem one_lt_length_splitTop_members :
    1 < (Text.splitTop [operator.mark] (Text.join (spaced operator.mark) texts)).length := by
  have blank : Text.allBlank [.char ' '] = true := by decide
  exact Nat.lt_of_lt_of_le several (Text.length_le_splitOutside_join operator.neutral_mark
    [.char ' '] [.char ' '] blank blank (joinable_members several members))

/-- The right-hand side of some members is no object type. -/
theorem unwrap?_members :
    Text.unwrap? '{' '}' (Text.join (spaced operator.mark) texts) = none := by
  refine unwrap?_join_eq_none _ several (fun text here => (members text here).nestedBraces)
    (fun text here => (members text here).root) ?_
  simp [spaced]

/-- The members in a row end as the last of them does. -/
theorem getLast?_join_members_ne {mark : CodePoint} (bars : mark ∈ operator.barred) :
    (Text.join (spaced operator.mark) texts).getLast? ≠ some mark := by
  have joinable := joinable_members several members
  obtain ⟨text, here, same⟩ := Text.exists_getLast?_join (spaced operator.mark)
    joinable.nonempty joinable.solid
  rw [same]
  exact (members text here).getLast?_ne bars

omit several members

/-- The members keep the operators inside of their brackets just if none of these cuts them. -/
theorem seals_members_iff (members : ∀ text ∈ texts, IsMemberText operator.barred text) :
    (∀ text ∈ texts, Brackets.plain.Seals operator.barred text) ↔
      ∀ mark ∈ operator.barred, ∀ text ∈ texts,
        Text.pieces Brackets.plain [mark] 0 text = [text] := by
  constructor
  · intro sealed mark bars text here
    exact (Text.seals_iff_pieces operator.neutral (members text here).nested).mp
      (sealed text here) mark bars
  · intro whole text here
    exact (Text.seals_iff_pieces operator.neutral (members text here).nested).mpr
      fun mark bars => whole mark bars text here

theorem ofRightHandSide_union_iff (several : 1 < texts.length)
    (members : ∀ text ∈ texts, IsMemberText Operator.union.barred text) :
    ofRightHandSide name (Text.join (spaced Operator.union.mark) texts) =
        Operator.union.declare name texts ↔
      ∀ text ∈ texts, Brackets.plain.Seals Operator.union.barred text := by
  have more := one_lt_length_splitTop_members several members
  have read : ofRightHandSide name (Text.join (spaced Operator.union.mark) texts) =
      Operator.union.declare name
        (Text.splitTop [Operator.union.mark] (Text.join (spaced Operator.union.mark) texts)) := by
    rw [ofRightHandSide, unwrap?_members several members]
    exact if_pos more
  have same : Operator.union.declare name
        (Text.splitTop [Operator.union.mark] (Text.join (spaced Operator.union.mark) texts)) =
        Operator.union.declare name texts ↔
      Text.splitTop [Operator.union.mark] (Text.join (spaced Operator.union.mark) texts) = texts :=
    ⟨fun eq => congrArg Outline.unionTypes eq, fun eq => congrArg _ eq⟩
  have marks : Operator.union.barred = [Operator.union.mark] := rfl
  rw [read, same, splitTop_members_eq_iff several members, seals_members_iff members, marks,
    List.forall_mem_singleton]

/-- Written members of an intersection are no union just if no bar stands outside of their
brackets. -/
theorem length_splitTop_bar_le_iff (several : 1 < texts.length)
    (members : ∀ text ∈ texts, IsMemberText Operator.intersection.barred text) :
    (Text.splitTop ['|'] (Text.join (spaced Operator.intersection.mark) texts)).length ≤ 1 ↔
      ∀ text ∈ texts, Text.pieces Brackets.plain ['|'] 0 text = [text] := by
  have joinable := joinable_members several members
  have neutral : Brackets.plain.Neutral '|' := by decide
  have between : Brackets.plain.Seals ['|'] (spaced Operator.intersection.mark) := by decide
  have whole : Brackets.plain.Seals [] (Text.join (spaced Operator.intersection.mark) texts) :=
    Brackets.Seals.join (between.mono (List.nil_subset _)) joinable.nested
  have bar : CodePoint.char '|' ∈ Operator.intersection.barred := by decide
  have ends := getLast?_join_members_ne several members bar
  rw [Text.splitTop, length_splitOutside_le_iff (isRoot_members several members).solid ends,
    ← Text.seals_singleton_iff_pieces neutral whole,
    Brackets.seals_join_iff between joinable.nested]
  exact forall₂_congr fun text here =>
    Text.seals_singleton_iff_pieces neutral (joinable.nested text here)

theorem ofRightHandSide_intersection_iff (several : 1 < texts.length)
    (members : ∀ text ∈ texts, IsMemberText Operator.intersection.barred text) :
    ofRightHandSide name (Text.join (spaced Operator.intersection.mark) texts) =
        Operator.intersection.declare name texts ↔
      ∀ text ∈ texts, Brackets.plain.Seals Operator.intersection.barred text := by
  have more : 1 < (Text.splitTop ['&']
      (Text.join (spaced Operator.intersection.mark) texts)).length :=
    one_lt_length_splitTop_members several members
  have noObject := unwrap?_members several members
  have parts := splitTop_members_eq_iff several members
  have some := (joinable_members several members).nonempty
  have read : ofRightHandSide name (Text.join (spaced Operator.intersection.mark) texts) =
        Operator.intersection.declare name texts ↔
      (Text.splitTop ['|'] (Text.join (spaced Operator.intersection.mark) texts)).length ≤ 1 ∧
        Text.splitTop [Operator.intersection.mark]
          (Text.join (spaced Operator.intersection.mark) texts) = texts := by
    rw [ofRightHandSide, noObject]
    dsimp only
    by_cases union :
      1 < (Text.splitTop ['|'] (Text.join (spaced Operator.intersection.mark) texts)).length
    · rw [if_pos union]
      refine ⟨fun eq => ?_, fun both => absurd both.1 (Nat.not_le.mpr union)⟩
      exact absurd (congrArg Outline.intersectionTypes eq).symm some
    · rw [if_neg union, if_pos more]
      exact ⟨fun eq => ⟨Nat.le_of_not_lt union, congrArg Outline.intersectionTypes eq⟩,
        fun both => congrArg (Operator.intersection.declare name) both.2⟩
  have marks : Operator.intersection.barred = [.char '|', Operator.intersection.mark] := rfl
  rw [read, length_splitTop_bar_le_iff several members, parts, seals_members_iff members, marks,
    List.forall_mem_cons, List.forall_mem_singleton]

/-- The members of an alias come back, and nothing else does, just if the operators that may not
stand outside of their brackets stand in some other brackets than braces. -/
theorem read?_members_iff (operator : Operator) (word : Text.isIdentifier name = true)
    (several : 1 < texts.length)
    (members : ∀ text ∈ texts, IsMemberText operator.barred text) :
    read? (aliasText name (Text.join (spaced operator.mark) texts)) =
        some (operator.declare name texts) ↔
      ∀ text ∈ texts, Brackets.plain.Seals operator.barred text := by
  rw [read?_aliasText word (isRoot_members several members), Option.some_inj]
  cases operator with
  | union => exact ofRightHandSide_union_iff several members
  | intersection => exact ofRightHandSide_intersection_iff several members

/-- An object whose own operators stand in round and angle brackets, next to a name and a tuple. -/
theorem read?_members_iff_object :
    let texts := ["\x7b a: Map<A, B | C>; b: (D & E)[] \x7d".toText, "F".toText,
      "[G, \x7b h: I \x7d]".toText]
    (∀ text ∈ texts, IsMemberText Operator.union.barred text) ∧
      (∀ text ∈ texts, IsMemberText Operator.intersection.barred text) ∧
      read? (aliasText "N".toText (Text.join (spaced Operator.union.mark) texts)) =
        some (Operator.union.declare "N".toText texts) ∧
      read? (aliasText "N".toText (Text.join (spaced Operator.intersection.mark) texts)) =
        some (Operator.intersection.declare "N".toText texts) := by
  intro texts
  have union : ∀ text ∈ texts, IsMemberText Operator.union.barred text := by decide +kernel
  have intersection : ∀ text ∈ texts, IsMemberText Operator.intersection.barred text := by
    decide +kernel
  exact ⟨union, intersection,
    (read?_members_iff .union (by decide) (by decide) union).mpr
      (by decide +kernel),
    (read?_members_iff .intersection (by decide) (by decide) intersection).mpr
      (by decide +kernel)⟩

/-- A bar between the types of a field of an object cuts the object in two. -/
theorem read?_members_cut :
    let object := "\x7b a: string | number \x7d".toText
    let texts := [object, "B".toText]
    (∀ text ∈ texts, IsMemberText Operator.union.barred text) ∧
      read? (aliasText "N".toText (Text.join (spaced Operator.union.mark) texts)) ≠
        some (Operator.union.declare "N".toText texts) ∧
      read? (aliasText "N".toText (Text.join (spaced Operator.union.mark) texts)) =
        some (Operator.union.declare "N".toText
          ["\x7b a: string".toText, "number \x7d".toText, "B".toText]) := by
  decide +kernel

end Members

end SchemaBoard.Outline
