import SchemaBoard.Proofs.Text.Splitting
import SchemaBoard.Proofs.TypeExpr.Canonical

set_option autoImplicit false

/-!
Written types. The written form of a type with plain names starts and ends with visible characters
and nests its brackets, each kind by itself too. Outside of the brackets of a type that has its
arities stand only the operators that bind no tighter than its own.
-/
namespace SchemaBoard.TypeExpr

open Text (Brackets Solid)

theorem isPlainName_iff {name : Text} :
    isPlainName name = true ↔ Solid name ∧ ∀ c ∈ name, c ∉ marks := by
  simp only [isPlainName, Bool.and_eq_true, Bool.not_eq_true', beq_iff_eq]
  constructor
  · rintro ⟨⟨some, trim⟩, free⟩
    exact ⟨⟨by simpa using some, Text.trimmed_of_trim_eq_self trim⟩, by simpa using free⟩
  · rintro ⟨solid, free⟩
    exact ⟨⟨by simpa using solid.nonempty, Text.trim_eq_self solid.trimmed⟩, by simpa using free⟩

theorem render_custom {name : Text} (solid : Solid name) : (custom name).render = name := by
  rw [render, nameText, if_neg (by simpa using solid.nonempty)]

def bracketPairs : List (CodePoint × CodePoint) := [('<', '>'), ('(', ')'), ('[', ']')]

/-- The texts that stand between the operands and arguments of written types. -/
def separators : List Text := [unionMark, intersectionMark, ", ".toText]

/-- Brackets with which written types can be taken apart: a pair around a nested text seals it, and
so does the absence of structuring characters. -/
structure Suits (brackets : Brackets) (barred : Text) : Prop where
  wrap : ∀ pair ∈ bracketPairs, ∀ inside, brackets.Seals [] inside →
    brackets.Seals barred (pair.1 :: inside ++ [pair.2])
  flat : ∀ text : Text, (∀ c ∈ text, c ∉ marks) → brackets.Seals barred text
  between : ∀ separator ∈ separators, brackets.Seals [] separator

theorem suits_plain {barred : Text} (structuring : barred ⊆ marks) :
    Suits Brackets.plain barred where
  wrap := by
    intro pair member inside nested
    have kinds : ∀ pair ∈ bracketPairs, pair.1 ∈ Brackets.plain.openers ∧
        pair.2 ∈ Brackets.plain.closers ∧ pair.2 ∉ Brackets.plain.openers := by decide
    obtain ⟨opens, closes, apart⟩ := kinds pair member
    exact nested.wrap opens closes apart
  flat := by
    intro text plain
    apply Brackets.Seals.flat
    intro c member
    have known : ∀ c ∈ Brackets.plain.openers ++ Brackets.plain.closers, c ∈ marks := by decide
    exact ⟨fun opens => plain c member (known c (List.mem_append_left _ opens)),
      fun closes => plain c member (known c (List.mem_append_right _ closes)),
      fun bars => plain c member (structuring bars)⟩
  between := by decide

/-- One kind of brackets counts its own pair; the others are characters like any other. -/
theorem suits_pair (opener closer : CodePoint) (pair : (opener, closer) ∈ bracketPairs) :
    Suits ⟨[opener], [closer]⟩ [] where
  wrap := by
    intro other member inside nested
    have apart : ∀ one ∈ bracketPairs, ∀ other ∈ bracketPairs, one.2 ≠ one.1 ∧
        (one ≠ other → other.1 ∉ [one.1, one.2] ∧ other.2 ∉ [one.1, one.2]) := by decide
    obtain ⟨different, foreign⟩ := apart _ pair other member
    by_cases same : (opener, closer) = other
    · subst same
      exact nested.wrap (by simp) (by simp) (by simpa using different)
    · obtain ⟨first, second⟩ := foreign same
      have free : ∀ c : CodePoint, c ∉ [opener, closer] →
          Brackets.Seals ⟨[opener], [closer]⟩ [] [c] := by
        intro c outside
        apply Brackets.Seals.flat
        intro d here
        obtain rfl := List.mem_singleton.mp here
        simp only [List.mem_cons, List.not_mem_nil, or_false, not_or] at outside ⊢
        exact ⟨outside.1, outside.2, not_false⟩
      exact ((free _ first).append nested).append (free _ second)
  flat := by
    intro text plain
    apply Brackets.Seals.flat
    intro c member
    have known : ∀ one ∈ bracketPairs, one.1 ∈ marks ∧ one.2 ∈ marks := by decide
    refine ⟨fun opens => ?_, fun closes => ?_, by simp⟩
    · exact plain c member (List.mem_singleton.mp opens ▸ (known _ pair).1)
    · exact plain c member (List.mem_singleton.mp closes ▸ (known _ pair).2)
  between := by
    have checked : ∀ one ∈ bracketPairs, ∀ separator ∈ separators,
        Brackets.Seals ⟨[one.1], [one.2]⟩ [] separator := by decide
    exact checked _ pair

section Nested

variable {brackets : Brackets} {barred : Text}

theorem Suits.parenthesize (suits : Suits brackets barred) {needed : Bool} {text : Text}
    (nested : brackets.Seals [] text) (sealed : needed = false → brackets.Seals barred text) :
    brackets.Seals barred (Text.parenthesize needed text) := by
  cases needed with
  | true => exact suits.wrap ('(', ')') (by decide) text nested
  | false => exact sealed rfl

theorem Suits.appliedText (suits : Suits brackets barred) {name : Text} {written : List Text}
    (word : ∀ c ∈ name, c ∉ marks) (nested : ∀ text ∈ written, brackets.Seals [] text) :
    brackets.Seals barred (appliedText name written) := by
  have inside : brackets.Seals [] (Text.join ", ".toText written) :=
    (suits.between ", ".toText (by decide)).join nested
  rw [TypeExpr.appliedText, List.append_assoc]
  exact (suits.flat name word).append (suits.wrap ('<', '>') (by decide) _ inside)

theorem Suits.word (suits : Suits brackets barred) {text : Text}
    (word : ∀ c ∈ text, c ∉ marks) : brackets.Seals [] text :=
  (suits.flat text word).mono (List.nil_subset barred)

theorem holds_getD {written : List Text} {motive : Text → Prop} (index : Nat) {default : Text}
    (all : ∀ text ∈ written, motive text) (absent : motive default) :
    motive (written.getD index default) := by
  rw [List.getD_eq_getElem?_getD]
  cases found : written[index]? with
  | none => exact absent
  | some text => exact all text (List.mem_of_getElem? found)

/-- Containers seal what their brackets surround; an array seals what its element does. -/
theorem Suits.containerText (suits : Suits brackets barred) {head : Container} {compound : Bool}
    {written : List Text} (nested : ∀ text ∈ written, brackets.Seals [] text)
    (element : head = .array → compound = false → ∀ text, written = [text] →
      brackets.Seals barred text) :
    brackets.Seals barred (containerText head compound written) := by
  have unknown : brackets.Seals [] "unknown".toText := suits.word (by decide)
  have string : brackets.Seals [] "string".toText := suits.word (by decide)
  have pair : ∀ first second, brackets.Seals [] first → brackets.Seals [] second →
      ∀ text ∈ [first, second], brackets.Seals [] text := by
    intro first second left right text member
    simp only [List.mem_cons, List.not_mem_nil, or_false] at member
    rcases member with rfl | rfl
    · exact left
    · exact right
  cases head with
  | array =>
    have suffix : brackets.Seals barred [.char '[', .char ']'] :=
      suits.wrap ('[', ']') (by decide) [] rfl
    refine Brackets.Seals.append ?_ suffix
    match written with
    | [] => exact suits.flat "any".toText (by decide)
    | [text] =>
      exact suits.parenthesize (nested text (by simp)) fun plain => element rfl plain text rfl
    | first :: second :: rest =>
      exact suits.wrap ('(', ')') (by decide) _
        ((suits.between unionMark (by decide)).join nested)
  | tuple =>
    exact suits.wrap ('[', ']') (by decide) _ ((suits.between ", ".toText (by decide)).join nested)
  | set =>
    refine suits.appliedText (by decide) fun text member => ?_
    obtain rfl := List.mem_singleton.mp member
    exact holds_getD 0 nested unknown
  | map =>
    exact suits.appliedText (by decide)
      (pair _ _ (holds_getD 0 nested unknown) (holds_getD 1 nested unknown))
  | object =>
    exact suits.appliedText (by decide)
      (pair _ _ (holds_getD 0 nested string) (holds_getD 1 nested unknown))
  | generic =>
    rw [TypeExpr.containerText]
    split
    · exact suits.flat _ (by decide)
    · exact suits.appliedText (by decide) nested

/-- The written form of a type with plain names nests its brackets. -/
theorem seals_render (suits : Suits brackets []) {type : TypeExpr}
    (plain : everywhere hasPlainName type = true) : brackets.Seals [] type.render := by
  induction type using parts_induction with
  | step type ih =>
    have inside := fun part member => ih part member (everywhere_of_mem_parts plain member)
    have named := check_of_everywhere plain
    cases type with
    | primitive name => exact suits.flat _ (by cases name <;> decide)
    | custom name =>
      obtain ⟨solid, free⟩ := isPlainName_iff.mp named
      rw [render_custom solid]
      exact suits.flat name free
    | union members =>
      rw [render, operandText, renderAll_eq_map]
      split
      · exact suits.flat _ (by decide)
      · refine (suits.between unionMark (by decide)).join fun text member => ?_
        obtain ⟨part, here, rfl⟩ := List.mem_map.mp member
        exact inside part here
    | intersection members =>
      rw [render, operandText, renderConjuncts_eq_map]
      split
      · exact suits.flat _ (by decide)
      · refine (suits.between intersectionMark (by decide)).join fun text member => ?_
        obtain ⟨part, here, rfl⟩ := List.mem_map.mp member
        exact suits.parenthesize (inside part here) fun _ => inside part here
    | builtIn head arguments =>
      rw [render, renderAll_eq_map]
      have nested : ∀ text ∈ arguments.map render, brackets.Seals [] text := by
        intro text member
        obtain ⟨part, here, rfl⟩ := List.mem_map.mp member
        exact inside part here
      exact suits.containerText nested fun _ _ text only => nested text (by rw [only]; simp)

end Nested

/-- The structuring characters that do not stand outside of the brackets of a written type. -/
def sealedMarks : TypeExpr → Text
  | union _ => [',']
  | intersection _ => [',', '|']
  | _ => [',', '|', '&']

theorem comma_mem_sealedMarks (type : TypeExpr) : [.char ','] ⊆ type.sealedMarks := by
  cases type <;> simp [sealedMarks]

theorem sealedMarks_of_not_union {type : TypeExpr} (other : type.isUnion = false) :
    [.char ',', .char '|'] ⊆ type.sealedMarks := by
  cases type <;> simp_all [sealedMarks, isUnion]

theorem sealedMarks_subset_marks (type : TypeExpr) : type.sealedMarks ⊆ marks := by
  cases type <;> simp only [sealedMarks] <;> decide

theorem not_union_of_not_choice {type : TypeExpr} (arity : hasReadArity type = true)
    (single : type.isChoice = false) : type.isUnion = false := by
  cases type with
  | union members => cases arity.symm.trans single
  | primitive | custom | intersection | builtIn => rfl

theorem sealedMarks_of_not_compound {type : TypeExpr} (arity : hasReadArity type = true)
    (simple : type.isCompound = false) : type.sealedMarks = [.char ',', .char '|', .char '&'] := by
  cases type with
  | primitive name => rfl
  | custom name => rfl
  | union members => cases arity.symm.trans simple
  | intersection members => cases arity.symm.trans simple
  | builtIn head arguments => rfl

/-- Outside of its brackets a written type holds the operators of its own kind and tighter ones. -/
theorem seals_sealedMarks_render {type : TypeExpr} (plain : everywhere hasPlainName type = true)
    (arities : everywhere hasReadArity type = true) :
    Brackets.plain.Seals type.sealedMarks type.render := by
  induction type using parts_induction with
  | step type ih =>
    have inside := fun part member =>
      ih part member (everywhere_of_mem_parts plain member) (everywhere_of_mem_parts arities member)
    have nestedPart : ∀ part ∈ type.parts, Brackets.plain.Seals [] part.render :=
      fun part member => (inside part member).mono (List.nil_subset _)
    have suits : Suits Brackets.plain type.sealedMarks :=
      suits_plain (sealedMarks_subset_marks type)
    have named := check_of_everywhere plain
    cases type with
    | primitive name => exact suits.flat _ (by cases name <;> decide)
    | custom name =>
      obtain ⟨solid, free⟩ := isPlainName_iff.mp named
      rw [render_custom solid]
      exact suits.flat name free
    | union members =>
      rw [render, operandText, renderAll_eq_map]
      split
      · exact suits.flat _ (by decide)
      · have between : Brackets.plain.Seals [.char ','] unionMark := by decide
        refine between.join fun text member => ?_
        obtain ⟨part, here, rfl⟩ := List.mem_map.mp member
        exact (inside part here).mono (comma_mem_sealedMarks part)
    | intersection members =>
      rw [render, operandText, renderConjuncts_eq_map]
      split
      · exact suits.flat _ (by decide)
      · have between : Brackets.plain.Seals [.char ',', .char '|'] intersectionMark := by decide
        refine between.join fun text member => ?_
        obtain ⟨part, here, rfl⟩ := List.mem_map.mp member
        refine suits.parenthesize (nestedPart part here) fun single => ?_
        have arity := check_of_everywhere (everywhere_of_mem_parts arities here)
        have other := not_union_of_not_choice arity single
        exact (inside part here).mono (sealedMarks_of_not_union other)
    | builtIn head arguments =>
      rw [render, renderAll_eq_map]
      refine suits.containerText (fun text member => ?_) fun _ simple text only => ?_
      · obtain ⟨part, here, rfl⟩ := List.mem_map.mp member
        exact nestedPart part here
      · obtain ⟨part, rfl, rfl⟩ := List.map_eq_singleton_iff.mp only
        have only : part ∈ (builtIn head [part]).parts := by simp [parts]
        have arity := check_of_everywhere (everywhere_of_mem_parts arities only)
        have all := sealedMarks_of_not_compound arity (by simpa using simple)
        exact (inside part only).mono (by rw [all]; exact List.Subset.refl _)

theorem solid_parenthesize {needed : Bool} {text : Text} (solid : Solid text) :
    Solid (Text.parenthesize needed text) := by
  cases needed with
  | true => exact Solid.wrap text (by decide) (by decide)
  | false => exact solid

theorem solid_containerText (head : Container) (compound : Bool) {written : List Text}
    (solid : ∀ text ∈ written, Solid text) : Solid (containerText head compound written) := by
  have applied : ∀ name arguments, Solid name → Solid (appliedText name arguments) :=
    fun _ _ word => word.between _ (by decide)
  cases head with
  | array =>
    refine Solid.append ?_ (by decide)
    match written with
    | [] => exact (by decide : Solid "any".toText)
    | [text] => exact solid_parenthesize (solid text (by simp))
    | first :: second :: rest => exact Solid.wrap _ (by decide) (by decide)
  | tuple => exact Solid.wrap _ (by decide) (by decide)
  | set => exact applied _ _ (by decide)
  | map => exact applied _ _ (by decide)
  | object => exact applied _ _ (by decide)
  | generic =>
    rw [TypeExpr.containerText]
    split
    · decide
    · exact applied _ _ (by decide)

theorem solid_operandText {separator : Text} {written : List Text}
    (solid : ∀ text ∈ written, Solid text) : Solid (operandText separator written) := by
  rw [operandText]
  split
  · decide
  · next some => exact Solid.join separator (by simpa using some) solid

/-- The written form of a type with plain names starts and ends with visible characters. -/
theorem solid_render {type : TypeExpr} (plain : everywhere hasPlainName type = true) :
    Solid type.render := by
  induction type using parts_induction with
  | step type ih =>
    have inside := fun part member => ih part member (everywhere_of_mem_parts plain member)
    have written : ∀ text ∈ type.parts.map render, Solid text := by
      intro text member
      obtain ⟨part, here, rfl⟩ := List.mem_map.mp member
      exact inside part here
    have named := check_of_everywhere plain
    cases type with
    | primitive name => cases name <;> exact (by decide)
    | custom name =>
      obtain ⟨solid, -⟩ := isPlainName_iff.mp named
      rw [render_custom solid]
      exact solid
    | union members =>
      rw [render, renderAll_eq_map]
      exact solid_operandText written
    | intersection members =>
      rw [render, renderConjuncts_eq_map]
      refine solid_operandText fun text member => ?_
      obtain ⟨part, here, rfl⟩ := List.mem_map.mp member
      exact solid_parenthesize (inside part here)
    | builtIn head arguments =>
      rw [render, renderAll_eq_map]
      exact solid_containerText head _ written

theorem getLast?_parenthesize_ne {needed : Bool} {text : Text} {c : CodePoint} (other : c ≠ ')')
    (ends : text.getLast? ≠ some c) : (Text.parenthesize needed text).getLast? ≠ some c := by
  cases needed with
  | true =>
    intro last
    rw [Text.parenthesize, if_pos rfl, List.getLast?_concat] at last
    exact other (Option.some.inj last).symm
  | false => exact ends

theorem getLast?_operandText_ne {separator : Text} {written : List Text} {c : CodePoint}
    (separating : c ∈ ",|&".toText) (solid : ∀ text ∈ written, Solid text)
    (ends : ∀ text ∈ written, text.getLast? ≠ some c) :
    (operandText separator written).getLast? ≠ some c := by
  rw [operandText]
  split
  · intro last
    obtain rfl : .char 'n' = c := Option.some.inj last
    exact absurd separating (by decide)
  · next some =>
    obtain ⟨text, member, same⟩ :=
      Text.exists_getLast?_join separator (by simpa using some) solid
    rw [same]
    exact ends text member

theorem getLast?_containerText (head : Container) (compound : Bool) (written : List Text) :
    ∃ c ∈ "]>c".toText, (containerText head compound written).getLast? = some c := by
  cases head with
  | array => exact ⟨.char ']', by decide, by rw [containerText, List.getLast?_append]; rfl⟩
  | tuple => exact ⟨.char ']', by decide, List.getLast?_concat⟩
  | set => exact ⟨.char '>', by decide, List.getLast?_concat⟩
  | map => exact ⟨.char '>', by decide, List.getLast?_concat⟩
  | object => exact ⟨.char '>', by decide, List.getLast?_concat⟩
  | generic =>
    rw [TypeExpr.containerText]
    split
    · exact ⟨.char 'c', by decide, by decide⟩
    · exact ⟨.char '>', by decide, List.getLast?_concat⟩

/-- The written form of a type with plain names does not end with a comma or an operator. -/
theorem getLast?_render_ne {type : TypeExpr} (plain : everywhere hasPlainName type = true)
    {c : CodePoint} (separating : c ∈ ",|&".toText) : type.render.getLast? ≠ some c := by
  induction type using parts_induction with
  | step type ih =>
    have inside := fun part member => ih part member (everywhere_of_mem_parts plain member)
    have solid : ∀ part ∈ type.parts, Solid part.render :=
      fun part member => solid_render (everywhere_of_mem_parts plain member)
    have named := check_of_everywhere plain
    cases type with
    | primitive name =>
      intro last
      have known : ∀ c ∈ ",|&".toText, name.keyword.getLast? ≠ some c := by cases name <;> decide
      exact known c separating last
    | custom name =>
      obtain ⟨word, free⟩ := isPlainName_iff.mp named
      rw [render_custom word]
      intro last
      have structuring : ∀ c ∈ ",|&".toText, c ∈ marks := by decide
      exact free c (List.mem_of_mem_getLast? last) (structuring c separating)
    | union members =>
      rw [render, renderAll_eq_map]
      refine getLast?_operandText_ne separating (fun text member => ?_) fun text member => ?_
      all_goals obtain ⟨part, here, rfl⟩ := List.mem_map.mp member
      · exact solid part here
      · exact inside part here
    | intersection members =>
      rw [render, renderConjuncts_eq_map]
      refine getLast?_operandText_ne separating (fun text member => ?_) fun text member => ?_
      all_goals obtain ⟨part, here, rfl⟩ := List.mem_map.mp member
      · exact solid_parenthesize (solid part here)
      · refine getLast?_parenthesize_ne ?_ (inside part here)
        rintro rfl
        exact absurd separating (by decide)
    | builtIn head arguments =>
      rw [render]
      obtain ⟨d, closing, ends⟩ :=
        getLast?_containerText head (arguments.head?.any isCompound) (renderAll arguments)
      rw [ends]
      intro same
      obtain rfl := Option.some.inj same
      have apart : ∀ c ∈ "]>c".toText, c ∉ ",|&".toText := by decide
      exact apart d closing separating

end SchemaBoard.TypeExpr
