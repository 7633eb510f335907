import SchemaBoard.Proofs.TypeExpr.Characters
import SchemaBoard.Proofs.TypeExpr.RoundTrip

set_option autoImplicit false

/-!
References in a type that is read. Main statements: every operand stands in the text, and the name
of a reference is read as that reference, unless it is a keyword or `Object` and the text puts it in
front of an angle bracket.
-/
namespace SchemaBoard

open Text (Solid)

namespace Shape

variable {text part : Text}

theorem isInfix_of_array? {element : Text} {count : Nat}
    (found : array? text = some (element, count)) : element <:+: text := by
  unfold array? at found
  dsimp only at found
  split at found
  · obtain ⟨rfl, -⟩ := Prod.mk.inj (Option.some.inj found)
    have starts := arraySuffixes_prefix text
    exact starts.isInfix
  · cases found

theorem isInfix_of_mem_operands_ofOperand (member : part ∈ (ofOperand text).operands) :
    part <:+: text := by
  unfold ofOperand at member
  split at member
  · next found =>
    obtain rfl := List.mem_singleton.mp member
    exact isInfix_of_array? found
  · split at member
    · next found =>
      have within := Text.isInfix_of_unwrap? (by decide) found
      exact (Text.isInfix_of_mem_splitCommas member).trans within
    · split at member
      · next found =>
        obtain rfl := List.mem_singleton.mp member
        exact Text.isInfix_of_unwrap? (by decide) found
      · split at member
        · next found =>
          exact (Text.isInfix_of_mem_splitCommas member).trans (exists_of_applied? found).2.2
        · cases member

/-- Every operand stands in the text. -/
theorem isInfix_of_mem_operands (member : part ∈ (ofText text).operands) : part <:+: text := by
  have trimmed := Text.isInfix_trim text
  simp only [ofText] at member
  split at member
  · cases member
  · split at member
    · exact (Text.isInfix_of_mem_splitOutside member).trans trimmed
    · split at member
      · exact (Text.isInfix_of_mem_splitOutside member).trans trimmed
      · exact (isInfix_of_mem_operands_ofOperand member).trans trimmed

end Shape

namespace TypeExpr

open Shape

/-- A type stands somewhere in another one. -/
inductive Occurs (node : TypeExpr) : TypeExpr → Prop where
  | here : Occurs node node
  | within {type part : TypeExpr} (member : part ∈ type.parts) (inside : Occurs node part) :
      Occurs node type

section Occurs

variable {name : Text} {types : List TypeExpr}

theorem occurs_of_parts {type : TypeExpr} (occurs : Occurs (custom name) type)
    (other : type ≠ custom name) : ∃ part ∈ type.parts, Occurs (custom name) part := by
  cases occurs with
  | here => exact absurd rfl other
  | within member inside => exact ⟨_, member, inside⟩

theorem occurs_nested {count : Nat} {type : TypeExpr}
    (occurs : Occurs (custom name) (nested count type)) : Occurs (custom name) type := by
  induction count generalizing type with
  | zero => exact occurs
  | succ count ih =>
    obtain ⟨part, member, inside⟩ := occurs_of_parts (ih occurs) (by simp)
    exact List.mem_singleton.mp member ▸ inside

/-- A default argument names nothing. -/
theorem occurs_getD {index : Nat} {default : Primitive}
    (occurs : Occurs (custom name) (types.getD index (primitive default))) :
    ∃ type ∈ types, Occurs (custom name) type := by
  rw [List.getD_eq_getElem?_getD] at occurs
  cases found : types[index]? with
  | none =>
    rw [found] at occurs
    obtain ⟨part, member, -⟩ := occurs_of_parts occurs (by simp)
    cases member
  | some type =>
    rw [found] at occurs
    exact ⟨type, List.mem_of_getElem? found, occurs⟩

/-- A name on its own is the reference to it, a primitive, or a container without arguments. -/
theorem ofWord_cases (name : Text) :
    ofWord name = custom name ∨ (∃ p, name = p.keyword ∧ ofWord name = primitive p) ∨
      name = "Object".toText ∧ ofWord name = builtIn .object [] ∨
      name = "Map".toText ∧ ofWord name = builtIn .map [] := by
  cases found : Primitive.ofKeyword? name with
  | some p =>
    refine Or.inr (Or.inl ⟨p, (Primitive.ofKeyword?_eq_some found).symm, ?_⟩)
    rw [ofWord, found]
  | none =>
    rw [ofWord, found]
    dsimp only
    by_cases object : name = "Object".toText
    · exact Or.inr (Or.inr (Or.inl ⟨object, if_pos object⟩))
    · rw [if_neg object]
      by_cases map : name = "Map".toText
      · exact Or.inr (Or.inr (Or.inr ⟨map, if_pos map⟩))
      · exact Or.inl (if_neg map)

theorem occurs_ofWord {word : Text} (occurs : Occurs (custom name) (ofWord word)) :
    name = word ∧ ofWord word = custom word := by
  rcases ofWord_cases word with own | ⟨p, -, eq⟩ | ⟨-, eq⟩ | ⟨-, eq⟩
  · refine ⟨?_, own⟩
    rw [own] at occurs
    by_cases same : name = word
    · exact same
    · obtain ⟨part, member, -⟩ := occurs_of_parts occurs fun eq => same (custom.inj eq).symm
      cases member
  all_goals
    rw [eq] at occurs
    obtain ⟨part, member, -⟩ := occurs_of_parts occurs (by simp)
    cases member

/-- A container refers to what its arguments refer to. -/
theorem occurs_builtIn {head : Container} {arguments : List TypeExpr}
    (occurs : Occurs (custom name) (builtIn head arguments)) :
    ∃ argument ∈ arguments, Occurs (custom name) argument :=
  occurs_of_parts occurs (by simp)

/-- A name that is applied refers to what its arguments refer to, or to itself. -/
theorem occurs_applied {head : Text} (occurs : Occurs (custom name) (applied head types)) :
    (∃ type ∈ types, Occurs (custom name) type) ∨ name = head ∧ head ≠ "Map".toText := by
  have first : ∀ container, Occurs (custom name) (builtIn container (types.take 1)) →
      ∃ type ∈ types, Occurs (custom name) type := by
    intro container inside
    obtain ⟨type, member, later⟩ := occurs_builtIn inside
    exact ⟨type, List.mem_of_mem_take member, later⟩
  have pair : ∀ container default other, Occurs (custom name) (builtIn container
      [types.getD 0 (primitive default), types.getD 1 (primitive other)]) →
        ∃ type ∈ types, Occurs (custom name) type := by
    intro container default other inside
    obtain ⟨type, member, later⟩ := occurs_builtIn inside
    simp only [List.mem_cons, List.not_mem_nil, or_false] at member
    rcases member with rfl | rfl
    · exact occurs_getD later
    · exact occurs_getD later
  unfold applied at occurs
  split at occurs
  · exact Or.inl (first _ occurs)
  · split at occurs
    · exact Or.inl (first _ occurs)
    · split at occurs
      · exact Or.inl (pair _ _ _ occurs)
      · next noMap =>
        split at occurs
        · exact Or.inl (pair _ _ _ occurs)
        · split at occurs
          · exact Or.inl (occurs_builtIn occurs)
          · refine Or.inr ⟨?_, noMap⟩
            by_cases same : name = head
            · exact same
            · obtain ⟨part, member, -⟩ := occurs_of_parts occurs
                fun eq => same (custom.inj eq).symm
              cases member

end Occurs

/-- The name of a reference is written as it is. It is read as that reference, or it is a keyword or
`Object`, read as what that stands for, and stands in front of an angle bracket in the text. -/
structure Refers (text name : Text) : Prop where
  written : (custom name).render = name
  read_eq : read name = custom name ∨
    name ++ [.char '<'] <:+: text ∧ ((∃ p, name = p.keyword ∧ read name = primitive p) ∨
      name = "Object".toText ∧ read name = builtIn .object [])

section Refers

variable {text name : Text}

/-- What stands in a part stands in the text. -/
theorem Refers.mono {part : Text} (refers : Refers part name) (stands : part <:+: text) :
    Refers text name where
  written := refers.written
  read_eq := refers.read_eq.imp_right fun other => ⟨other.1.trans stands, other.2⟩

theorem refers_of_word (shape : ofText text = .word name) (own : ofWord name = custom name) :
    Refers text name := by
  obtain ⟨solid, same⟩ := word_of_ofText shape
  refine ⟨render_custom solid, Or.inl ?_⟩
  rw [TypeExpr.read_eq, same]
  exact own

theorem refers_of_applied {parts : List Text} (shape : ofText text = .applied name parts)
    (noMap : name ≠ "Map".toText) : Refers text name := by
  obtain ⟨word, stands⟩ := applied_of_ofText shape
  refine ⟨render_custom (Text.solid_identifier word), ?_⟩
  rw [read_of_isPlainName (isPlainName_of_isIdentifier word)]
  rcases ofWord_cases name with own | keyword | object | ⟨map, -⟩
  · exact Or.inl own
  · exact Or.inr ⟨stands, Or.inl keyword⟩
  · exact Or.inr ⟨stands, Or.inr object⟩
  · exact absurd map noMap

/-- The references in the type that a text is read as come back when their names are read, but for
keywords and `Object` in front of an angle bracket. -/
theorem refers_of_occurs (occurs : Occurs (custom name) (read text)) : Refers text name := by
  induction text using operands_induction with
  | step text ih =>
    have operand : (∃ type ∈ (ofText text).operands.map read, Occurs (custom name) type) →
        Refers text name := by
      rintro ⟨_, member, inside⟩
      obtain ⟨part, here, rfl⟩ := List.mem_map.mp member
      exact (ih part here inside).mono (isInfix_of_mem_operands here)
    rw [TypeExpr.read_eq] at occurs
    cases shape : ofText text with
    | blank =>
      rw [shape] at occurs
      obtain ⟨part, member, -⟩ := occurs_of_parts occurs (by simp)
      cases member
    | union parts =>
      rw [shape] at occurs operand
      exact operand (occurs_of_parts occurs (by simp))
    | intersection parts =>
      rw [shape] at occurs operand
      exact operand (occurs_of_parts occurs (by simp))
    | array element count =>
      rw [shape] at occurs operand
      exact operand ⟨_, List.mem_cons_self, occurs_nested occurs⟩
    | tuple parts =>
      rw [shape] at occurs operand
      exact operand (occurs_builtIn occurs)
    | group inside =>
      rw [shape] at occurs operand
      exact operand ⟨_, List.mem_cons_self, occurs⟩
    | applied head parts =>
      rw [shape] at occurs operand
      rcases occurs_applied occurs with argument | ⟨rfl, noMap⟩
      · exact operand argument
      · exact refers_of_applied shape noMap
    | word word =>
      rw [shape] at occurs
      obtain ⟨rfl, own⟩ := occurs_ofWord occurs
      exact refers_of_word shape own

/-- A tuple of two references, of which one has the name of a primitive. -/
theorem refers_of_occurs_tuple :
    read "[Row, string<A>]".toText =
        builtIn .tuple [custom "Row".toText, custom "string".toText] ∧
      Refers "[Row, string<A>]".toText "Row".toText ∧
      Refers "[Row, string<A>]".toText "string".toText := by
  have tuple : ofText "[Row, string<A>]".toText = .tuple ["Row".toText, "string<A>".toText] := by
    decide +kernel
  have row : ofText "Row".toText = .word "Row".toText := by decide +kernel
  have text : ofText "string<A>".toText = .applied "string".toText ["A".toText] := by
    decide +kernel
  have value : read "[Row, string<A>]".toText =
      builtIn .tuple [custom "Row".toText, custom "string".toText] := by
    rw [TypeExpr.read_eq, tuple]
    dsimp only
    rw [List.map_cons, List.map_singleton, TypeExpr.read_eq "Row".toText, row,
      TypeExpr.read_eq "string<A>".toText, text]
    rfl
  refine ⟨value, refers_of_occurs ?_, refers_of_occurs ?_⟩
  · rw [value]
    exact .within List.mem_cons_self .here
  · rw [value]
    exact .within (List.mem_cons_of_mem _ List.mem_cons_self) .here

/-- A keyword in front of an angle bracket is a reference that its name alone does not give. -/
theorem read_keyword_applied :
    Occurs (custom "string".toText) (read "string<A>".toText) ∧
      read "string".toText ≠ custom "string".toText := by
  have applied : ofText "string<A>".toText = .applied "string".toText ["A".toText] := by
    decide +kernel
  have word : ofText "string".toText = .word "string".toText := by decide +kernel
  have value : read "string<A>".toText = custom "string".toText := by
    rw [TypeExpr.read_eq, applied]
    rfl
  constructor
  · rw [value]
    exact .here
  · rw [TypeExpr.read_eq, word]
    decide

end Refers

end TypeExpr

end SchemaBoard
