import SchemaBoard.Proofs.TypeExpr.Reading
import SchemaBoard.Proofs.TypeExpr.Written

set_option autoImplicit false

/-!
Reading written types. Main statement: a type with plain names is read back from its written form
exactly if all its nodes are canonical.
-/
namespace SchemaBoard.TypeExpr

open Text (Brackets Solid)
open Shape

/-- An array is written with its element in front of the suffix, in parentheses if it is compound.
-/
theorem render_array (element : TypeExpr) : (builtIn .array [element]).render =
    Text.parenthesize element.isCompound element.render ++ arrayMark := rfl

/-- A nested text does not end with an opener. -/
theorem not_seals_append_opener {inside : Text} {opener : CodePoint}
    (opens : opener ∈ Brackets.plain.openers) : ¬Brackets.plain.Seals [] (inside ++ [opener]) := by
  intro nested
  rw [Brackets.Seals, Text.levelBehind?_append] at nested
  obtain ⟨level, -, last⟩ := Option.bind_eq_some_iff.mp nested
  have deeper : Brackets.plain.depthAfter level opener = level + 1 := if_pos opens
  have ends := (Text.levelBehind?_cons.mp last).2
  rw [deeper] at ends
  cases Option.some.inj ends

theorem not_arrayMark_suffix_of_last {text : Text} {c : CodePoint} (last : text.getLast? = some c)
    (other : c ≠ ']') : ¬arrayMark <:+ text := by
  rintro ⟨rest, rfl⟩
  rw [List.getLast?_append] at last
  exact other (Option.some.inj last).symm

/-- In front of the closer of a nested text stands no opener. -/
theorem not_arrayMark_suffix_of_nested {inside : Text} (nested : Brackets.plain.Seals [] inside)
    (some : inside ≠ []) (opener : CodePoint) :
    ¬arrayMark <:+ opener :: inside ++ [.char ']'] := by
  rintro ⟨rest, eq⟩
  have parts : rest ++ [.char '['] = opener :: inside := by
    rw [show rest ++ arrayMark = (rest ++ [.char '[']) ++ [.char ']'] by simp] at eq
    exact List.append_cancel_right eq
  cases rest with
  | nil =>
    obtain rfl : [] = inside := List.tail_eq_of_cons_eq parts
    exact some rfl
  | cons c rest =>
    rw [List.cons_append] at parts
    obtain rfl : rest ++ [.char '['] = inside := List.tail_eq_of_cons_eq parts
    exact not_seals_append_opener (by decide) nested

theorem suffixes_ne_nil_of_not_suffix {text : Text} (some : text ≠ [])
    (other : ¬arrayMark <:+ text) : (arraySuffixes text.reverse).2 ≠ [] := by
  rw [arraySuffixes_of_zero (arraySuffixes_of_not_suffix other)]
  simpa using some

/-- A text in parentheses is read as what stands inside of them. -/
theorem read_parentheses {inside : Text} (nested : Brackets.plain.Seals [] inside)
    (rounds : Brackets.Seals ⟨[.char '('], [.char ')']⟩ [] inside) :
    IsOperand (.char '(' :: inside ++ [.char ')']) ∧
      read (.char '(' :: inside ++ [.char ')']) = read inside := by
  have sealed : Brackets.plain.Seals [.char '|', .char '&'] (.char '(' :: inside ++ [.char ')']) :=
    nested.wrap (by decide) (by decide) (by decide)
  have operand := isOperand_of_seals (Solid.wrap inside (by decide) (by decide)) sealed
    (List.Subset.refl _)
  have noArray : array? (.char '(' :: inside ++ [.char ')']) = none :=
    array?_eq_none_of_zero (arraySuffixes_of_not_suffix
      (not_arrayMark_suffix_of_last List.getLast?_concat (by decide)))
  refine ⟨operand, read_eq_group operand noArray (Text.unwrap?_eq_none_of_head (by simp)) ?_⟩
  exact Text.unwrap?_wrap (by decide) rounds

/-- Sealed texts come back from between commas. -/
theorem splitCommas_join {written : List Text}
    (sealed : ∀ text ∈ written, Brackets.plain.Seals [.char ','] text)
    (solid : ∀ text ∈ written, Solid text) :
    Text.splitCommas (Text.join ", ".toText written) = written := by
  have last : written.getLast? ≠ some [] := by
    intro empty
    exact (solid [] (List.mem_of_mem_getLast? empty)).nonempty rfl
  have cut : Text.splitTop [','] (Text.join ", ".toText written) = written :=
    Text.splitOutside_join (by decide) [] [' '] rfl (by decide)
      (by simp) sealed (fun text member => (solid text member).trimmed) last
  rw [Text.splitCommas, cut, List.filter_eq_self]
  intro text member
  simpa using (solid text member).nonempty

/-- A name in front of something in angle brackets is read as applied to what the commas in there
cut. -/
theorem read_angles {name inside : Text} (word : Text.isIdentifier name = true)
    (plain : ∀ c ∈ name, c ∉ marks) (nested : Brackets.plain.Seals [] inside)
    (some : inside ≠ []) :
    read (name ++ (.char '<' :: inside ++ [.char '>'])) =
      applied name ((Text.splitCommas inside).map read) := by
  have suits : Suits Brackets.plain [.char '|', .char '&'] := suits_plain (by decide)
  have sealed := (suits.flat name plain).append
    (suits.wrap ('<', '>') (by decide) inside nested)
  have ends : Solid (.char '<' :: inside ++ [.char '>']) := Solid.wrap _ (by decide) (by decide)
  have operand := isOperand_of_seals ((Text.solid_identifier word).append ends) sealed
    (List.Subset.refl _)
  have last : (name ++ (CodePoint.char '<' :: inside ++ [CodePoint.char '>'])).getLast? =
      Option.some (.char '>') := by
    rw [← List.append_assoc, List.getLast?_concat]
  have noArray : array? (name ++ (.char '<' :: inside ++ [.char '>'])) = none :=
    array?_eq_none_of_zero (arraySuffixes_of_not_suffix
      (not_arrayMark_suffix_of_last last (by decide)))
  obtain ⟨first, rest, eq, start, -⟩ := Text.isIdentifier_iff.mp word
  have head : (name ++ (CodePoint.char '<' :: inside ++ [CodePoint.char '>'])).head? =
      Option.some first := by
    rw [eq]
    rfl
  have part := Text.isIdentifierPart_of_start start
  have noTuple : Text.unwrap? '[' ']' (name ++ (.char '<' :: inside ++ [.char '>'])) = none := by
    apply Text.unwrap?_eq_none_of_head
    rw [head]
    simpa using Text.ne_of_isIdentifierPart '[' part (by decide)
  have noGroup : Text.unwrap? '(' ')' (name ++ (.char '<' :: inside ++ [.char '>'])) = none := by
    apply Text.unwrap?_eq_none_of_head
    rw [head]
    simpa using Text.ne_of_isIdentifierPart '(' part (by decide)
  have long : 0 < inside.length := List.length_pos_iff.mpr some
  have found : applied? (name ++ (.char '<' :: inside ++ [.char '>'])) =
      Option.some (name, inside) := by
    have boundary : ∀ c, (CodePoint.char '<' :: (inside ++ [.char '>'])).head? = Option.some c →
        Text.isIdentifierPart c = false := by
      intro c here
      obtain rfl := Option.some.inj here
      decide
    rw [applied?, List.cons_append, Text.identifier?_append_of_boundary word boundary]
    simp [long]
  rw [read_eq_applied operand noArray noTuple noGroup found]

/-- A name applied to texts is read as that name applied to what they are read as. -/
theorem read_appliedText {name : Text} {written : List Text}
    (word : Text.isIdentifier name = true) (plain : ∀ c ∈ name, c ∉ marks)
    (sealed : ∀ text ∈ written, Brackets.plain.Seals [.char ','] text)
    (solid : ∀ text ∈ written, Solid text) (some : written ≠ []) :
    read (appliedText name written) = applied name (written.map read) := by
  have nested : Brackets.plain.Seals [] (Text.join ", ".toText written) :=
    Brackets.Seals.join (by decide)
      fun text member => (sealed text member).mono (List.nil_subset _)
  have inside : Text.join ", ".toText written ≠ [] := (Solid.join _ some solid).nonempty
  rw [appliedText, List.append_assoc, read_angles word plain nested inside,
    splitCommas_join sealed solid]

/-- Something in square brackets is read as the tuple of what the commas in there cut. -/
theorem read_squares {inside : Text} (nested : Brackets.plain.Seals [] inside)
    (squares : Brackets.Seals ⟨[.char '['], [.char ']']⟩ [] inside) :
    read (.char '[' :: inside ++ [.char ']']) =
      builtIn .tuple ((Text.splitCommas inside).map read) := by
  have outer : Brackets.plain.Seals [.char '|', .char '&']
      (.char '[' :: inside ++ [.char ']']) :=
    nested.wrap (by decide) (by decide) (by decide)
  have operand := isOperand_of_seals (Solid.wrap _ (by decide) (by decide)) outer
    (List.Subset.refl _)
  have noArray : array? (.char '[' :: inside ++ [.char ']']) = none := by
    by_cases empty : inside = []
    · rw [empty]
      rfl
    · exact array?_eq_none_of_zero (arraySuffixes_of_not_suffix
        (not_arrayMark_suffix_of_nested nested empty _))
  rw [read_eq_tuple operand noArray (Text.unwrap?_wrap (by decide) squares)]

/-- Texts in square brackets are read as a tuple. -/
theorem read_tupleText {written : List Text}
    (sealed : ∀ text ∈ written, Brackets.plain.Seals [.char ','] text)
    (solid : ∀ text ∈ written, Solid text)
    (squares : ∀ text ∈ written, Brackets.Seals ⟨[.char '['], [.char ']']⟩ [] text) :
    read (.char '[' :: Text.join ", ".toText written ++ [.char ']']) =
      builtIn .tuple (written.map read) := by
  have nested : Brackets.plain.Seals [] (Text.join ", ".toText written) :=
    Brackets.Seals.join (by decide)
      fun text member => (sealed text member).mono (List.nil_subset _)
  rw [read_squares nested (Brackets.Seals.join (by decide) squares), splitCommas_join sealed solid]

/-- A plain name is not taken apart. -/
theorem read_of_isPlainName {name : Text} (plain : isPlainName name = true) :
    read name = ofWord name := by
  obtain ⟨solid, free⟩ := isPlainName_iff.mp plain
  have suits : Suits Brackets.plain [.char '|', .char '&'] := suits_plain (by decide)
  have operand := isOperand_of_seals solid (suits.flat name free) (List.Subset.refl _)
  have noArray : array? name = none := by
    apply array?_eq_none_of_zero
    apply arraySuffixes_of_not_suffix
    rintro ⟨rest, rfl⟩
    exact free (.char '[') (by simp) (by decide)
  have head : ∀ c ∈ marks, name.head? ≠ Option.some c :=
    fun c structuring here => free c (List.mem_of_mem_head? here) structuring
  have noApplied : applied? name = none := by
    rw [applied?]
    split
    · next word rest found =>
      exfalso
      apply free (.char '<') _ (by decide)
      rw [← Text.identifier?_append found]
      simp
    · rfl
  exact read_eq_word operand noArray (Text.unwrap?_eq_none_of_head (head _ (by decide)))
    (Text.unwrap?_eq_none_of_head (head _ (by decide))) noApplied

section Written

variable {type : TypeExpr}

theorem seals_render_plain (plain : everywhere hasPlainName type = true) :
    Brackets.plain.Seals [] type.render :=
  seals_render (suits_plain (List.nil_subset _)) plain

theorem read_parenthesize (plain : everywhere hasPlainName type = true) (needed : Bool) :
    read (Text.parenthesize needed type.render) = read type.render := by
  cases needed with
  | false => rfl
  | true =>
    have rounds := seals_render (suits_pair '(' ')' (by decide)) plain
    exact (read_parentheses (seals_render_plain plain) rounds).2

/-- An element of an array is an operand, in parentheses if it has to be. -/
theorem isOperand_parenthesize (plain : everywhere hasPlainName type = true)
    (arities : everywhere hasReadArity type = true) :
    IsOperand (Text.parenthesize type.isCompound type.render) := by
  cases compound : type.isCompound with
  | true =>
    have rounds := seals_render (suits_pair '(' ')' (by decide)) plain
    exact (read_parentheses (seals_render_plain plain) rounds).1
  | false =>
    have sealed := seals_sealedMarks_render plain arities
    rw [sealedMarks_of_not_compound (check_of_everywhere arities) compound] at sealed
    exact isOperand_of_seals (solid_render plain) sealed (by simp)

theorem suffixes_ne_nil_of_last {text : Text} {c : CodePoint} (last : text.getLast? = some c)
    (other : c ≠ ']') : (arraySuffixes text.reverse).2 ≠ [] := by
  apply suffixes_ne_nil_of_not_suffix
  · rintro rfl
    cases last
  · exact not_arrayMark_suffix_of_last last other

theorem suffixes_render_tuple_ne_nil {arguments : List TypeExpr} (some : arguments ≠ [])
    (plain : ∀ argument ∈ arguments, everywhere hasPlainName argument = true) :
    (arraySuffixes (builtIn .tuple arguments).render.reverse).2 ≠ [] := by
  have visible : Text.join ", ".toText (arguments.map render) ≠ [] := by
    refine (Solid.join _ (by simpa using some) fun text member => ?_).nonempty
    obtain ⟨part, here, rfl⟩ := List.mem_map.mp member
    exact solid_render (plain part here)
  have nested : Brackets.plain.Seals [] (Text.join ", ".toText (arguments.map render)) := by
    refine Brackets.Seals.join (by decide) fun text member => ?_
    obtain ⟨part, here, rfl⟩ := List.mem_map.mp member
    exact seals_render_plain (plain part here)
  rw [render, renderAll_eq_map]
  exact suffixes_ne_nil_of_not_suffix (List.cons_ne_nil _ _)
    (not_arrayMark_suffix_of_nested nested visible _)

/-- Something other than suffixes stands in the written form of an element that is no empty
tuple. -/
theorem suffixes_parenthesize_ne_nil (plain : everywhere hasPlainName type = true)
    (canonical : everywhere isCanonicalNode type = true) (other : type ≠ builtIn .tuple []) :
    (arraySuffixes (Text.parenthesize type.isCompound type.render).reverse).2 ≠ [] := by
  induction type using parts_induction with
  | step type ih =>
    have arity := hasReadArity_of_isCanonicalNode (check_of_everywhere canonical)
    cases type with
    | primitive name => cases name <;> decide
    | custom name =>
      obtain ⟨word, free⟩ := isPlainName_iff.mp (check_of_everywhere plain)
      show (arraySuffixes (custom name).render.reverse).2 ≠ []
      rw [render_custom word]
      apply suffixes_ne_nil_of_not_suffix word.nonempty
      rintro ⟨rest, eq⟩
      exact free (.char ']') (by simp [← eq]) (by decide)
    | union members =>
      have compound : (union members).isCompound = true := arity
      rw [compound]
      exact suffixes_ne_nil_of_last List.getLast?_concat (by decide)
    | intersection members =>
      have compound : (intersection members).isCompound = true := arity
      rw [compound]
      exact suffixes_ne_nil_of_last List.getLast?_concat (by decide)
    | builtIn head arguments =>
      have simple : (builtIn head arguments).isCompound = false := rfl
      rw [simple, Text.parenthesize, if_neg Bool.false_ne_true]
      cases head with
      | array =>
        rcases eq_nil_or_singleton (of_decide_eq_true arity) with rfl | ⟨element, rfl⟩
        · exact absurd (check_of_everywhere canonical) Bool.false_ne_true
        have member : element ∈ (builtIn .array [element]).parts := List.mem_singleton_self element
        have differs : element ≠ builtIn .tuple [] := by
          simpa [isCanonicalNode] using check_of_everywhere canonical
        have later := ih element member (everywhere_of_mem_parts plain member)
          (everywhere_of_mem_parts canonical member) differs
        rw [render_array, arraySuffixes_append]
        exact later
      | tuple =>
        have some : arguments ≠ [] := by simpa using other
        exact suffixes_render_tuple_ne_nil some fun part here => everywhere_of_mem_parts plain here
      | set => exact suffixes_ne_nil_of_last List.getLast?_concat (by decide)
      | map => exact suffixes_ne_nil_of_last List.getLast?_concat (by decide)
      | object => exact suffixes_ne_nil_of_last List.getLast?_concat (by decide)
      | generic => exact absurd (check_of_everywhere canonical) Bool.false_ne_true

/-- Among canonical elements, those of canonical arrays are the ones that are not suffixes alone. -/
theorem suffixes_ne_nil_iff (plain : everywhere hasPlainName type = true)
    (canonical : everywhere isCanonicalNode type = true) :
    (arraySuffixes (Text.parenthesize type.isCompound type.render).reverse).2 ≠ [] ↔
      isCanonicalNode (builtIn .array [type]) = true := by
  constructor
  · intro visible
    have other : type ≠ builtIn .tuple [] := by
      rintro rfl
      exact visible (by decide)
    simpa [isCanonicalNode] using other
  · intro node
    exact suffixes_parenthesize_ne_nil plain canonical (by simpa [isCanonicalNode] using node)

end Written

section Operators

/-- The operands that come back from an operator are the ones written, exactly if none of them is
cut and each one is read back. -/
theorem map_read_splitTop_iff {mark : CodePoint} {members : List TypeExpr}
    {cover : TypeExpr → Text} (neutral : Brackets.plain.Neutral mark) (before after : Text)
    (first : Text.allBlank before = true) (second : Text.allBlank after = true)
    (joinable : Text.Joinable Brackets.plain mark (members.map cover)) :
    (Text.splitTop [mark] (Text.join (before ++ mark :: after) (members.map cover))).map read =
        members ↔
      ∀ member ∈ members, Text.pieces Brackets.plain [mark] 0 (cover member) = [cover member] ∧
        read (cover member) = member := by
  constructor
  · intro same
    have count : (Text.splitTop [mark]
        (Text.join (before ++ mark :: after) (members.map cover))).length =
          (members.map cover).length := by
      have lengths := congrArg List.length same
      rwa [List.length_map, ← List.length_map cover] at lengths
    have whole := Text.pieces_eq_of_splitOutside_join neutral first second joinable count
    rw [Text.splitTop, Text.splitOutside_join_of_pieces neutral first second joinable whole,
      List.map_map] at same
    intro member here
    have back : (read ∘ cover) member = id member :=
      List.map_inj_left.mp (same.trans (List.map_id members).symm) member here
    exact ⟨whole _ (List.mem_map_of_mem here), back⟩
  · intro each
    have whole : ∀ text ∈ members.map cover, Text.pieces Brackets.plain [mark] 0 text = [text] := by
      intro text here
      obtain ⟨member, inside, rfl⟩ := List.mem_map.mp here
      exact (each member inside).1
    rw [Text.splitTop, Text.splitOutside_join_of_pieces neutral first second joinable whole,
      List.map_map]
    calc members.map (read ∘ cover) = members.map id :=
          List.map_congr_left fun member here => (each member here).2
      _ = members := List.map_id members

variable {type : TypeExpr} {members : List TypeExpr}

theorem joinable_union (plain : everywhere hasPlainName (union members) = true)
    (arity : hasReadArity (union members) = true) :
    Text.Joinable Brackets.plain '|' (members.map render) := by
  have inside : ∀ member ∈ members, everywhere hasPlainName member = true :=
    fun member here => everywhere_of_mem_parts plain here
  constructor
  · rintro empty
    rw [List.map_eq_nil_iff.mp empty] at arity
    cases arity
  all_goals
    intro text here
    obtain ⟨member, there, rfl⟩ := List.mem_map.mp here
  · exact seals_render_plain (inside member there)
  · exact solid_render (inside member there)
  · exact getLast?_render_ne (inside member there) (by decide)

def conjunct (type : TypeExpr) : Text := Text.parenthesize type.isChoice type.render

theorem joinable_intersection (plain : everywhere hasPlainName (intersection members) = true)
    (arity : hasReadArity (intersection members) = true) :
    Text.Joinable Brackets.plain '&' (members.map conjunct) := by
  have inside : ∀ member ∈ members, everywhere hasPlainName member = true :=
    fun member here => everywhere_of_mem_parts plain here
  constructor
  · rintro empty
    rw [List.map_eq_nil_iff.mp empty] at arity
    cases arity
  all_goals
    intro text here
    obtain ⟨member, there, rfl⟩ := List.mem_map.mp here
  · have nested := seals_render_plain (inside member there)
    exact (suits_plain (List.nil_subset _)).parenthesize nested fun _ => nested
  · exact solid_parenthesize (solid_render (inside member there))
  · exact getLast?_parenthesize_ne (by decide)
      (getLast?_render_ne (inside member there) (by decide))

theorem render_union (some : members ≠ []) :
    (union members).render = Text.join unionMark (members.map render) := by
  rw [render, renderAll_eq_map, operandText, if_neg (by simpa using some)]

theorem render_intersection (some : members ≠ []) :
    (intersection members).render = Text.join intersectionMark (members.map conjunct) := by
  rw [render, renderConjuncts_eq_map, operandText, if_neg (by simpa using some)]
  rfl

theorem ne_nil_of_arity (several : 1 < members.length) : members ≠ [] := by
  rintro rfl
  cases several

theorem one_lt_splitTop_union (plain : everywhere hasPlainName (union members) = true)
    (arity : hasReadArity (union members) = true) :
    1 < (Text.splitTop ['|'] (union members).render).length := by
  have several : 1 < members.length := of_decide_eq_true arity
  have least := Text.length_le_splitOutside_join (by decide) [' '] [' '] rfl rfl
    (joinable_union plain arity)
  rw [List.length_map] at least
  rw [render_union (ne_nil_of_arity several)]
  exact Nat.lt_of_lt_of_le several least

theorem one_lt_splitTop_intersection
    (plain : everywhere hasPlainName (intersection members) = true)
    (arity : hasReadArity (intersection members) = true) :
    1 < (Text.splitTop ['&'] (intersection members).render).length := by
  have several : 1 < members.length := of_decide_eq_true arity
  have least := Text.length_le_splitOutside_join (by decide) [' '] [' '] rfl rfl
    (joinable_intersection plain arity)
  rw [List.length_map] at least
  rw [render_intersection (ne_nil_of_arity several)]
  exact Nat.lt_of_lt_of_le several least

/-- Only a union is cut at the mark of a union. -/
theorem pieces_render_iff (plain : everywhere hasPlainName type = true)
    (arities : everywhere hasReadArity type = true) :
    Text.pieces Brackets.plain ['|'] 0 type.render = [type.render] ↔ type.isUnion = false := by
  constructor
  · intro whole
    cases type with
    | union members =>
      have cut := one_lt_splitTop_union plain (check_of_everywhere arities)
      have most := Text.splitOutside_length_le_of_pieces whole
      exact absurd cut (Nat.not_lt.mpr most)
    | primitive | custom | intersection | builtIn => rfl
  · intro other
    exact Text.pieces_of_seals (by decide) (sealedMarks_of_not_union other (by simp))
      (seals_sealedMarks_render plain arities)

/-- Only an intersection is cut at the mark of an intersection. -/
theorem pieces_conjunct_iff (plain : everywhere hasPlainName type = true)
    (arities : everywhere hasReadArity type = true) :
    Text.pieces Brackets.plain ['&'] 0 type.conjunct = [type.conjunct] ↔
      type.isIntersection = false := by
  constructor
  · intro whole
    cases type with
    | intersection members =>
      have cut := one_lt_splitTop_intersection plain (check_of_everywhere arities)
      have most : (Text.splitTop ['&'] (intersection members).render).length ≤ 1 :=
        Text.splitOutside_length_le_of_pieces whole
      exact absurd cut (Nat.not_lt.mpr most)
    | primitive | custom | union | builtIn => rfl
  · intro other
    have suits : Suits Brackets.plain [.char '&'] := suits_plain (by decide)
    have sealed : Brackets.plain.Seals [.char '&'] type.conjunct := by
      refine suits.parenthesize (seals_render_plain plain) fun single => ?_
      have noUnion := not_union_of_not_choice (check_of_everywhere arities) single
      refine (seals_sealedMarks_render plain arities).mono ?_
      cases type <;> simp_all [sealedMarks, isUnion, isIntersection]
    exact Text.pieces_of_seals (by decide) (by simp) sealed

theorem read_render_union_iff (plain : everywhere hasPlainName (union members) = true)
    (arities : everywhere hasReadArity (union members) = true) :
    read (union members).render = union members ↔
      ∀ member ∈ members, member.isUnion = false ∧ read member.render = member := by
  have arity := check_of_everywhere arities
  have cut := one_lt_splitTop_union plain arity
  rw [read_eq_union (solid_render plain) cut, union.injEq,
    render_union (ne_nil_of_arity (of_decide_eq_true arity))]
  have joinable := joinable_union plain arity
  refine (map_read_splitTop_iff (by decide) [' '] [' '] rfl rfl joinable).trans ?_
  refine forall₂_congr fun member here => ?_
  rw [pieces_render_iff (everywhere_of_mem_parts plain here)
    (everywhere_of_mem_parts arities here)]

theorem read_render_intersection_iff
    (plain : everywhere hasPlainName (intersection members) = true)
    (arities : everywhere hasReadArity (intersection members) = true) :
    read (intersection members).render = intersection members ↔
      ∀ member ∈ members, member.isIntersection = false ∧ read member.render = member := by
  have arity := check_of_everywhere arities
  have cut := one_lt_splitTop_intersection plain arity
  have whole : (Text.splitTop ['|'] (intersection members).render).length ≤ 1 :=
    Text.splitOutside_length_le_of_pieces ((pieces_render_iff plain arities).mpr rfl)
  rw [read_eq_intersection (solid_render plain) whole cut, intersection.injEq,
    render_intersection (ne_nil_of_arity (of_decide_eq_true arity))]
  have joinable := joinable_intersection plain arity
  refine (map_read_splitTop_iff (by decide) [' '] [' '] rfl rfl joinable).trans ?_
  refine forall₂_congr fun member here => ?_
  rw [pieces_conjunct_iff (everywhere_of_mem_parts plain here)
    (everywhere_of_mem_parts arities here), conjunct,
    read_parenthesize (everywhere_of_mem_parts plain here)]

end Operators

section Containers

/-- A text that can stand as an argument. -/
structure IsArgument (text : Text) : Prop where
  solid : Solid text
  sealed : Brackets.plain.Seals [.char ','] text

theorem isArgument_render {type : TypeExpr} (plain : everywhere hasPlainName type = true)
    (arities : everywhere hasReadArity type = true) : IsArgument type.render :=
  ⟨solid_render plain, (seals_sealedMarks_render plain arities).mono (comma_mem_sealedMarks type)⟩

theorem isArgument_getD {written : List Text} (index : Nat) (default : Text)
    (all : ∀ text ∈ written, IsArgument text) (word : isPlainName default = true) :
    IsArgument (written.getD index default) := by
  obtain ⟨solid, free⟩ := isPlainName_iff.mp word
  exact holds_getD index all ⟨solid, (suits_plain (by decide)).flat default free⟩

theorem read_applied {name : Text} {written : List Text} (word : Text.isIdentifier name = true)
    (free : ∀ c ∈ name, c ∉ marks) (all : ∀ text ∈ written, IsArgument text)
    (some : written ≠ []) : read (appliedText name written) = applied name (written.map read) :=
  read_appliedText word free (fun text here => (all text here).sealed)
    (fun text here => (all text here).solid) some

theorem forall_mem_pair {motive : Text → Prop} {one other : Text} (left : motive one)
    (right : motive other) : ∀ text ∈ [one, other], motive text := by
  intro text here
  simp only [List.mem_cons, List.not_mem_nil, or_false] at here
  rcases here with rfl | rfl
  · exact left
  · exact right

/-- A set is read with one argument, whatever it was written with. -/
theorem read_containerText_set {compound : Bool} {written : List Text}
    (all : ∀ text ∈ written, IsArgument text) :
    read (containerText .set compound written) =
      builtIn .set [read (written.getD 0 "unknown".toText)] := by
  have argument := isArgument_getD 0 "unknown".toText all (by decide)
  have each : ∀ text ∈ [written.getD 0 "unknown".toText], IsArgument text := by
    intro text here
    exact List.mem_singleton.mp here ▸ argument
  rw [containerText, read_applied (by decide) (by decide) each (List.cons_ne_nil _ _)]
  rfl

theorem read_containerText_map {compound : Bool} {written : List Text}
    (all : ∀ text ∈ written, IsArgument text) :
    read (containerText .map compound written) =
      builtIn .map [read (written.getD 0 "unknown".toText),
        read (written.getD 1 "unknown".toText)] := by
  have each := forall_mem_pair (isArgument_getD 0 "unknown".toText all (by decide))
    (isArgument_getD 1 "unknown".toText all (by decide))
  rw [containerText, read_applied (by decide) (by decide) each (List.cons_ne_nil _ _)]
  rfl

theorem read_containerText_object {compound : Bool} {written : List Text}
    (all : ∀ text ∈ written, IsArgument text) :
    read (containerText .object compound written) =
      builtIn .object [read (written.getD 0 "string".toText),
        read (written.getD 1 "unknown".toText)] := by
  have each := forall_mem_pair (isArgument_getD 0 "string".toText all (by decide))
    (isArgument_getD 1 "unknown".toText all (by decide))
  rw [containerText, read_applied (by decide) (by decide) each (List.cons_ne_nil _ _)]
  rfl

variable {arguments : List TypeExpr}

theorem read_render_tuple (plain : everywhere hasPlainName (builtIn .tuple arguments) = true)
    (arities : everywhere hasReadArity (builtIn .tuple arguments) = true) :
    read (builtIn .tuple arguments).render =
      builtIn .tuple (arguments.map fun argument => read argument.render) := by
  have argument : ∀ text ∈ arguments.map render, IsArgument text := by
    intro text here
    obtain ⟨part, there, rfl⟩ := List.mem_map.mp here
    exact isArgument_render (everywhere_of_mem_parts plain there)
      (everywhere_of_mem_parts arities there)
  have squares : ∀ text ∈ arguments.map render, Brackets.Seals ⟨['['], [']']⟩ [] text := by
    intro text here
    obtain ⟨part, there, rfl⟩ := List.mem_map.mp here
    exact seals_render (suits_pair _ _ (by decide)) (everywhere_of_mem_parts plain there)
  rw [render, renderAll_eq_map, containerText,
    read_tupleText (fun text here => (argument text here).sealed)
      (fun text here => (argument text here).solid) squares, List.map_map]
  rfl

theorem ofWord_eq_custom_iff {name : Text} :
    ofWord name = custom name ↔ isReserved name = false := by
  unfold ofWord isReserved
  cases Primitive.ofKeyword? name with
  | some p => simp
  | none =>
    by_cases object : name = "Object".toText
    · simp [object]
    · by_cases map : name = "Map".toText
      · subst map
        decide
      · simp [object, map]

theorem ofWord_ne_array (name : Text) (arguments : List TypeExpr) :
    ofWord name ≠ builtIn .array arguments := by
  unfold ofWord
  split
  · simp
  · split
    · simp
    · split <;> simp

/-- A text of suffixes alone starts with a suffix. -/
theorem exists_of_only_suffixes {text : Text} (some : text ≠ [])
    (only : (arraySuffixes text.reverse).2 = []) : ∃ rest, text = arrayMark ++ rest := by
  have ends : ∀ reversed, (arraySuffixes reversed).2 = [] → reversed ≠ [] →
      ∃ rest, reversed = rest ++ arrayMark.reverse := by
    intro reversed
    fun_induction arraySuffixes reversed with
    | case1 rest ih =>
      intro only _
      by_cases last : rest = []
      · exact ⟨[], by rw [last]; rfl⟩
      · obtain ⟨front, eq⟩ := ih only last
        exact ⟨.char ']' :: .char '[' :: front, by rw [eq]; rfl⟩
    | case2 => exact fun only some => absurd only some
  obtain ⟨rest, eq⟩ := ends _ only (by simpa using some)
  exact ⟨rest.reverse, by rw [← List.reverse_reverse text, eq, List.reverse_append,
    List.reverse_reverse]⟩

/-- A text of suffixes alone is no array. -/
theorem read_of_only_suffixes {text : Text} (operand : IsOperand text)
    (only : (arraySuffixes text.reverse).2 = []) (arguments : List TypeExpr) :
    read text ≠ builtIn .array arguments := by
  have noArray := array?_of_only_suffixes only
  obtain ⟨rest, rfl⟩ := exists_of_only_suffixes operand.solid.nonempty only
  have noGroup : Text.unwrap? '(' ')' (arrayMark ++ rest) = none :=
    Text.unwrap?_eq_none_of_head (by simp)
  cases found : Text.unwrap? '[' ']' (arrayMark ++ rest) with
  | some inside =>
    rw [read_eq_tuple operand noArray found]
    simp
  | none =>
    rw [read_eq_word operand noArray found noGroup rfl]
    exact ofWord_ne_array _ arguments

theorem read_render_array_iff {element : TypeExpr}
    (plain : everywhere hasPlainName (builtIn .array [element]) = true)
    (arities : everywhere hasReadArity (builtIn .array [element]) = true) :
    read (builtIn .array [element]).render = builtIn .array [element] ↔
      (arraySuffixes (Text.parenthesize element.isCompound element.render).reverse).2 ≠ [] ∧
        read element.render = element := by
  have member : element ∈ (builtIn .array [element]).parts := List.mem_singleton_self element
  have inside := everywhere_of_mem_parts plain member
  have operand := isOperand_parenthesize inside (everywhere_of_mem_parts arities member)
  have sealed := seals_sealedMarks_render plain arities
  have whole : IsOperand (builtIn .array [element]).render :=
    isOperand_of_seals (solid_render plain) sealed (by simp [sealedMarks])
  by_cases only : (arraySuffixes
      (Text.parenthesize element.isCompound element.render).reverse).2 = []
  · have all : (arraySuffixes (builtIn .array [element]).render.reverse).2 = [] := by
      rw [render_array, arraySuffixes_append]
      exact only
    exact iff_of_false (read_of_only_suffixes whole all _) fun both => both.1 only
  · rw [render_array] at whole ⊢
    rw [read_append_suffix operand whole only, read_parenthesize inside]
    simp [only]

/-- Without its element, an array is read back as one of anything. -/
theorem read_render_array_nil :
    read (builtIn .array []).render = builtIn .array [read "any".toText] := by
  have operand : ∀ text : Text, Solid text → Brackets.plain.Seals ['|', '&'] text →
      IsOperand text := fun text solid sealed =>
    isOperand_of_seals solid sealed (List.Subset.refl _)
  have written : (builtIn .array []).render = "any".toText ++ arrayMark := rfl
  rw [written]
  exact read_append_suffix (operand _ (by decide) (by decide)) (operand _ (by decide) (by decide))
    (by decide)

end Containers

/-- The step from the arguments to a container. -/
theorem read_render_builtIn_iff {head : Container} {arguments : List TypeExpr}
    (plain : everywhere hasPlainName (builtIn head arguments) = true)
    (arities : everywhere hasReadArity (builtIn head arguments) = true)
    (inside : ∀ argument ∈ arguments,
      read argument.render = argument ↔ everywhere isCanonicalNode argument = true) :
    read (builtIn head arguments).render = builtIn head arguments ↔
      isCanonicalNode (builtIn head arguments) = true ∧
        ∀ argument ∈ arguments, everywhere isCanonicalNode argument = true := by
  have arity := check_of_everywhere arities
  have argument : ∀ text ∈ arguments.map render, IsArgument text := by
    intro text here
    obtain ⟨part, there, rfl⟩ := List.mem_map.mp here
    exact isArgument_render (everywhere_of_mem_parts plain there)
      (everywhere_of_mem_parts arities there)
  cases head with
  | array =>
    rcases eq_nil_or_singleton (of_decide_eq_true arity) with rfl | ⟨element, rfl⟩
    · rw [read_render_array_nil]
      simp [isCanonicalNode]
    · have member : element ∈ (builtIn .array [element]).parts := List.mem_singleton_self element
      rw [read_render_array_iff plain arities, inside element member, List.forall_mem_singleton]
      exact and_congr_left (suffixes_ne_nil_iff (everywhere_of_mem_parts plain member))
  | tuple =>
    rw [read_render_tuple plain arities, builtIn.injEq]
    constructor
    · rintro ⟨-, same⟩
      refine ⟨rfl, fun part here => (inside part here).mp ?_⟩
      exact List.map_inj_left.mp (same.trans (List.map_id arguments).symm) part here
    · rintro ⟨-, canonical⟩
      refine ⟨rfl, ?_⟩
      calc arguments.map (fun part => read part.render) = arguments.map id :=
            List.map_congr_left fun part here => (inside part here).mpr (canonical part here)
        _ = arguments := List.map_id arguments
  | set =>
    rw [render, renderAll_eq_map, read_containerText_set argument]
    rcases eq_nil_or_singleton (of_decide_eq_true arity) with rfl | ⟨only, rfl⟩
    · simp [isCanonicalNode]
    · simpa [isCanonicalNode] using inside only
  | map =>
    rw [render, renderAll_eq_map, read_containerText_map argument]
    rcases eq_nil_or_pair arity with rfl | ⟨one, other, rfl⟩
    · simp [isCanonicalNode]
    · simp [isCanonicalNode, inside]
  | object =>
    rw [render, renderAll_eq_map, read_containerText_object argument]
    rcases eq_nil_or_pair arity with rfl | ⟨one, other, rfl⟩
    · simp [isCanonicalNode]
    · simp [isCanonicalNode, inside]
  | generic => cases arity

/-- With its arities, a type is read back from its written form exactly if its nodes are canonical:
the step from the parts to the type. -/
theorem read_render_iff_of_arities {type : TypeExpr}
    (plain : everywhere hasPlainName type = true)
    (arities : everywhere hasReadArity type = true) :
    read type.render = type ↔ everywhere isCanonicalNode type = true := by
  induction type using parts_induction with
  | step type ih =>
    have inside := fun part member =>
      ih part member (everywhere_of_mem_parts plain member) (everywhere_of_mem_parts arities member)
    have arity := check_of_everywhere arities
    rw [everywhere_iff]
    cases type with
    | primitive name =>
      have back : read (primitive name).render = primitive name := by
        rw [render, read_of_isPlainName (by cases name <;> decide), ofWord,
          Primitive.ofKeyword?_keyword]
      exact iff_of_true back ⟨rfl, by simp [parts]⟩
    | custom name =>
      have named : isPlainName name = true := check_of_everywhere plain
      rw [render_custom (isPlainName_iff.mp named).1, read_of_isPlainName named,
        ofWord_eq_custom_iff]
      simp [isCanonicalNode, parts]
    | union members =>
      have several : 1 < members.length := by simpa [hasReadArity] using arity
      have node : isCanonicalNode (union members) = true ↔
          ∀ member ∈ members, member.isUnion = false := by simp [isCanonicalNode, several]
      rw [read_render_union_iff plain arities, node]
      exact ⟨fun each => ⟨fun member here => (each member here).1,
          fun member here => (inside member here).mp (each member here).2⟩,
        fun both member here => ⟨both.1 member here, (inside member here).mpr (both.2 member here)⟩⟩
    | intersection members =>
      have several : 1 < members.length := by simpa [hasReadArity] using arity
      have node : isCanonicalNode (intersection members) = true ↔
          ∀ member ∈ members, member.isIntersection = false := by simp [isCanonicalNode, several]
      rw [read_render_intersection_iff plain arities, node]
      exact ⟨fun each => ⟨fun member here => (each member here).1,
          fun member here => (inside member here).mp (each member here).2⟩,
        fun both member here => ⟨both.1 member here, (inside member here).mpr (both.2 member here)⟩⟩
    | builtIn head arguments => exact read_render_builtIn_iff plain arities inside

/-- Canonical types are read back. -/
theorem read_render_of_canonical {type : TypeExpr} (plain : everywhere hasPlainName type = true)
    (canonical : everywhere isCanonicalNode type = true) : read type.render = type := by
  have arities := everywhere_mono (fun _ => hasReadArity_of_isCanonicalNode) canonical
  exact (read_render_iff_of_arities plain arities).mpr canonical

/-- A type with plain names comes back from its written form exactly if every node is canonical. -/
theorem read_render_eq_self_iff {type : TypeExpr} (plain : everywhere hasPlainName type = true) :
    read type.render = type ↔ everywhere isCanonicalNode type = true := by
  constructor
  · intro back
    have arities := everywhere_hasReadArity_read type.render
    rw [back] at arities
    exact (read_render_iff_of_arities plain arities).mp back
  · exact read_render_of_canonical plain

/-- An array of unions comes back; an array of empty tuples does not. -/
theorem read_render_eq_self_iff_arrays :
    read (builtIn .array [union [custom "Order".toText, builtIn .tuple []]]).render =
        builtIn .array [union [custom "Order".toText, builtIn .tuple []]] ∧
      read (builtIn .array [builtIn .tuple []]).render ≠ builtIn .array [builtIn .tuple []] := by
  refine ⟨(read_render_eq_self_iff (by decide)).mpr (by decide), fun back => ?_⟩
  exact absurd ((read_render_eq_self_iff (by decide)).mp back) (by decide)

end SchemaBoard.TypeExpr
