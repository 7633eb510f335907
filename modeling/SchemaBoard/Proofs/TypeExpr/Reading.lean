import SchemaBoard.Proofs.Text.Splitting
import SchemaBoard.Proofs.Text.Wrapping
import SchemaBoard.Proofs.TypeExpr.Canonical

set_option autoImplicit false

/-!
One step of reading, shape by shape. Main statement: at every node of a type that is read stand as
many parts as its kind can have, and no name that is blank or padded.
-/
namespace SchemaBoard

open Text (Brackets Solid)

namespace Shape

abbrev arrayMark : Text := [.char '[', .char ']']

theorem arraySuffixes_append (element : Text) :
    arraySuffixes (element ++ arrayMark).reverse =
      ((arraySuffixes element.reverse).1 + 1, (arraySuffixes element.reverse).2) := by
  rw [List.reverse_append]
  rfl

theorem arraySuffixes_of_zero {text : Text} (zero : (arraySuffixes text).1 = 0) :
    (arraySuffixes text).2 = text := by
  unfold arraySuffixes at zero ⊢
  split
  · cases zero
  · rfl

/-- What stands in front of the suffixes starts the text. -/
theorem arraySuffixes_prefix (text : Text) :
    (arraySuffixes text.reverse).2.reverse <+: text := by
  have suffix : ∀ reversed, (arraySuffixes reversed).2 <:+ reversed := by
    intro reversed
    fun_induction arraySuffixes reversed with
    | case1 rest ih => exact ih.trans ⟨[.char ']', .char '['], rfl⟩
    | case2 => exact List.suffix_refl _
  simpa using List.reverse_prefix.mpr (suffix text.reverse)

/-- In a solid text, blanks alone do not stand in front of a suffix. -/
theorem allBlank_arraySuffixes_iff {text : Text} (solid : Solid text) :
    Text.allBlank (arraySuffixes text.reverse).2 = true ↔ (arraySuffixes text.reverse).2 = [] := by
  constructor
  · intro blank
    obtain ⟨rest, eq⟩ := arraySuffixes_prefix text
    cases reversed : (arraySuffixes text.reverse).2.reverse with
    | nil => simpa using reversed
    | cons c others =>
      have member : c ∈ (arraySuffixes text.reverse).2 := by
        rw [← List.mem_reverse, reversed]
        simp
      have visible : Text.isBlank c = false := solid.trimmed.1 c (by rw [← eq, reversed]; rfl)
      exact absurd member (Text.not_mem_of_visible blank visible)
  · intro empty
    rw [empty]
    rfl

theorem array?_eq_none_of_zero {text : Text} (zero : (arraySuffixes text.reverse).1 = 0) :
    array? text = none := by
  simp [array?, zero]

/-- A text that does not end in a suffix is no array. -/
theorem arraySuffixes_of_not_suffix {text : Text} (other : ¬arrayMark <:+ text) :
    (arraySuffixes text.reverse).1 = 0 := by
  unfold arraySuffixes
  split
  · next rest eq =>
    exfalso
    apply other
    exact ⟨rest.reverse, by rw [← List.reverse_reverse text, eq]; simp⟩
  · rfl

theorem array?_of_suffixes {text : Text} {count : Nat} {reversed : Text} (solid : Solid text)
    (suffixes : arraySuffixes text.reverse = (count, reversed)) (positive : 0 < count)
    (element : reversed ≠ []) : array? text = some (reversed.reverse, count) := by
  have visible : Text.allBlank reversed = false := by
    have iff := allBlank_arraySuffixes_iff solid
    rw [suffixes] at iff
    cases blank : Text.allBlank reversed with
    | false => rfl
    | true => exact absurd (iff.mp blank) element
  rw [array?, suffixes]
  simp [positive, visible]

theorem array?_of_only_suffixes {text : Text} (only : (arraySuffixes text.reverse).2 = []) :
    array? text = none := by
  rw [array?]
  simp [only, Text.allBlank]

section Words

variable {text : Text}

/-- In front of the arguments stand an identifier and an angle bracket. -/
theorem exists_of_applied? {name inside : Text} (found : applied? text = some (name, inside)) :
    Text.isIdentifier name = true ∧ name ++ [.char '<'] <:+: text ∧ inside <:+: text := by
  unfold applied? at found
  split at found
  · next word rest here =>
    split at found
    · obtain ⟨rfl, rfl⟩ := Prod.mk.inj (Option.some.inj found)
      have whole := Text.identifier?_append here
      refine ⟨Text.identifier?_isIdentifier here, ⟨[], rest, ?_⟩, ?_⟩
      · rw [List.nil_append, List.append_assoc, List.singleton_append, whole]
      · rw [← whole]
        have behind := (List.suffix_cons (.char '<') rest).trans (List.suffix_append word _)
        exact (List.dropLast_prefix rest).isInfix.trans behind.isInfix
    · cases found
  · cases found

/-- A word is the whole text but for the blanks around it, and it is found in itself. -/
theorem word_of_ofText {name : Text} (shape : ofText text = .word name) :
    Solid name ∧ ofText name = .word name := by
  have trimmed : ofText (Text.trim text) = ofText text := by
    rw [ofText, ofText, Text.trim_eq_self (Text.trimmed_trim text)]
  have same : name = Text.trim text ∧ Text.trim text ≠ [] := by
    simp only [ofText] at shape
    split at shape
    · cases shape
    · next some =>
      refine ⟨?_, by simpa using some⟩
      split at shape
      · cases shape
      · split at shape
        · cases shape
        · unfold ofOperand at shape
          repeat' split at shape
          all_goals cases shape
          rfl
  rw [same.1]
  exact ⟨⟨same.2, Text.trimmed_trim text⟩, by rw [trimmed, shape, same.1]⟩

theorem applied_of_ofText {name : Text} {parts : List Text}
    (shape : ofText text = .applied name parts) :
    Text.isIdentifier name = true ∧ name ++ [.char '<'] <:+: text := by
  simp only [ofText] at shape
  split at shape
  · cases shape
  · split at shape
    · cases shape
    · split at shape
      · cases shape
      · unfold ofOperand at shape
        repeat' split at shape
        all_goals cases shape
        next found =>
          obtain ⟨word, stands, -⟩ := exists_of_applied? found
          exact ⟨word, stands.trans (Text.isInfix_trim text)⟩

end Words

end Shape

namespace TypeExpr

open Shape

theorem nested_succ (count : Nat) (type : TypeExpr) :
    nested (count + 1) type = builtIn .array [nested count type] := by
  induction count generalizing type with
  | zero => rfl
  | succ count ih => exact ih (builtIn .array [type])

/-- A solid text without an operator outside of its brackets. -/
structure IsOperand (text : Text) : Prop where
  solid : Solid text
  noUnion : (Text.splitTop ['|'] text).length ≤ 1
  noIntersection : (Text.splitTop ['&'] text).length ≤ 1

theorem isOperand_of_seals {barred text : Text} (solid : Solid text)
    (sealed : Brackets.plain.Seals barred text) (marked : [.char '|', .char '&'] ⊆ barred) :
    IsOperand text where
  solid := solid
  noUnion := by
    rw [Text.splitTop, Text.splitOutside_of_seals (by decide) (marked (by simp)) sealed
      solid.trimmed solid.nonempty]
    exact Nat.le_refl 1
  noIntersection := by
    rw [Text.splitTop, Text.splitOutside_of_seals (by decide) (marked (by simp)) sealed
      solid.trimmed solid.nonempty]
    exact Nat.le_refl 1

section Step

variable {text : Text}

theorem ofText_eq_of_solid (solid : Solid text) :
    ofText text =
      if 1 < (Text.splitTop ['|'] text).length then .union (Text.splitTop ['|'] text)
      else if 1 < (Text.splitTop ['&'] text).length then .intersection (Text.splitTop ['&'] text)
      else ofOperand text := by
  have some : text.isEmpty = false := by simpa using solid.nonempty
  rw [ofText, Text.trim_eq_self solid.trimmed]
  simp [some]

theorem read_eq_union (solid : Solid text) (cut : 1 < (Text.splitTop ['|'] text).length) :
    read text = union ((Text.splitTop ['|'] text).map read) := by
  rw [read_eq, ofText_eq_of_solid solid, if_pos cut]

theorem read_eq_intersection (solid : Solid text)
    (whole : (Text.splitTop ['|'] text).length ≤ 1)
    (cut : 1 < (Text.splitTop ['&'] text).length) :
    read text = intersection ((Text.splitTop ['&'] text).map read) := by
  rw [read_eq, ofText_eq_of_solid solid, if_neg (by omega), if_pos cut]

theorem ofText_of_isOperand (operand : IsOperand text) : ofText text = ofOperand text := by
  have noUnion := operand.noUnion
  have noIntersection := operand.noIntersection
  rw [ofText_eq_of_solid operand.solid, if_neg (by omega), if_neg (by omega)]

theorem read_eq_array (operand : IsOperand text) {element : Text} {count : Nat}
    (found : array? text = some (element, count)) : read text = nested count (read element) := by
  rw [read_eq, ofText_of_isOperand operand, ofOperand, found]

theorem read_eq_tuple (operand : IsOperand text) {inside : Text} (noArray : array? text = none)
    (found : Text.unwrap? '[' ']' text = some inside) :
    read text = builtIn .tuple ((Text.splitCommas inside).map read) := by
  rw [read_eq, ofText_of_isOperand operand, ofOperand, noArray, found]

theorem read_eq_group (operand : IsOperand text) {inside : Text} (noArray : array? text = none)
    (noTuple : Text.unwrap? '[' ']' text = none)
    (found : Text.unwrap? '(' ')' text = some inside) : read text = read inside := by
  rw [read_eq, ofText_of_isOperand operand, ofOperand, noArray, noTuple, found]

theorem read_eq_applied (operand : IsOperand text) {name inside : Text}
    (noArray : array? text = none) (noTuple : Text.unwrap? '[' ']' text = none)
    (noGroup : Text.unwrap? '(' ')' text = none) (found : applied? text = some (name, inside)) :
    read text = applied name ((Text.splitCommas inside).map read) := by
  rw [read_eq, ofText_of_isOperand operand, ofOperand, noArray, noTuple, noGroup, found]

theorem read_eq_word (operand : IsOperand text) (noArray : array? text = none)
    (noTuple : Text.unwrap? '[' ']' text = none) (noGroup : Text.unwrap? '(' ')' text = none)
    (noApplied : applied? text = none) : read text = ofWord text := by
  rw [read_eq, ofText_of_isOperand operand, ofOperand, noArray, noTuple, noGroup, noApplied]

/-- One more suffix makes an array of what was read, unless there are suffixes only. -/
theorem read_append_suffix (operand : IsOperand text)
    (whole : IsOperand (text ++ arrayMark))
    (element : (arraySuffixes text.reverse).2 ≠ []) :
    read (text ++ arrayMark) = builtIn .array [read text] := by
  have suffixes := arraySuffixes_append text
  have found := array?_of_suffixes whole.solid suffixes (by omega) element
  rw [read_eq_array whole found, nested_succ]
  by_cases zero : (arraySuffixes text.reverse).1 = 0
  · rw [zero, arraySuffixes_of_zero zero, List.reverse_reverse, nested]
  · have inner := array?_of_suffixes operand.solid rfl (by omega) element
    rw [read_eq_array operand inner]

end Step

/-- A property of all operands that passes to the text holds of all texts. -/
@[elab_as_elim]
theorem operands_induction {motive : Text → Prop} (text : Text)
    (step : ∀ text, (∀ part ∈ (ofText text).operands, motive part) → motive text) :
    motive text :=
  step text fun part member =>
    have := length_of_mem_operands member
    operands_induction part step
termination_by text.length

theorem length_of_ofText_union {text : Text} {operands : List Text}
    (shape : ofText text = .union operands) : 1 < operands.length := by
  simp only [ofText] at shape
  split at shape
  · cases shape
  · split at shape
    · next several =>
      injection shape with same
      exact same ▸ several
    · split at shape
      · cases shape
      · unfold ofOperand at shape
        repeat' split at shape
        all_goals cases shape

theorem length_of_ofText_intersection {text : Text} {operands : List Text}
    (shape : ofText text = .intersection operands) : 1 < operands.length := by
  simp only [ofText] at shape
  split at shape
  · cases shape
  · split at shape
    · cases shape
    · split at shape
      · next several =>
        injection shape with same
        exact same ▸ several
      · unfold ofOperand at shape
        repeat' split at shape
        all_goals cases shape

section Nodes

variable {name : Text} {types : List TypeExpr}

/-- Whether a node names nothing, or with a name that begins and ends visibly. -/
def hasSolidName : TypeExpr → Bool
  | custom name => decide (Solid name)
  | _ => true

/-- Whether a node is one that reading makes. -/
def isReadNode (node : TypeExpr) : Bool := hasReadArity node && hasSolidName node

theorem isReadNode_iff_of_parts {node : TypeExpr} (nameless : hasSolidName node = true) :
    isReadNode node = true ↔ hasReadArity node = true := by
  rw [isReadNode, nameless, Bool.and_true]

theorem everywhere_nested {count : Nat} {type : TypeExpr}
    (all : everywhere isReadNode type = true) :
    everywhere isReadNode (nested count type) = true := by
  induction count generalizing type with
  | zero => exact all
  | succ count ih =>
    refine ih (everywhere_iff.mpr ⟨rfl, fun part member => ?_⟩)
    obtain rfl := List.mem_singleton.mp member
    exact all

theorem everywhere_getD (index : Nat) {default : TypeExpr}
    (all : ∀ type ∈ types, everywhere isReadNode type = true)
    (absent : everywhere isReadNode default = true) :
    everywhere isReadNode (types.getD index default) = true := by
  rw [List.getD_eq_getElem?_getD]
  cases found : types[index]? with
  | none => exact absent
  | some type => exact all type (List.mem_of_getElem? found)

theorem everywhere_builtIn {head : Container}
    (here : hasReadArity (builtIn head types) = true)
    (all : ∀ type ∈ types, everywhere isReadNode type = true) :
    everywhere isReadNode (builtIn head types) = true :=
  everywhere_iff.mpr ⟨(isReadNode_iff_of_parts rfl).mpr here, all⟩

theorem everywhere_custom (solid : Solid name) : everywhere isReadNode (custom name) = true :=
  decide_eq_true solid

theorem everywhere_applied (word : Text.isIdentifier name = true)
    (all : ∀ type ∈ types, everywhere isReadNode type = true) :
    everywhere isReadNode (applied name types) = true := by
  have first : ∀ type ∈ types.take 1, everywhere isReadNode type = true :=
    fun type member => all type (List.mem_of_mem_take member)
  have short : (types.take 1).length ≤ 1 := by
    rw [List.length_take]
    exact Nat.min_le_left 1 types.length
  have pair : ∀ one other, everywhere isReadNode one = true →
      everywhere isReadNode other = true →
      ∀ type ∈ [one, other], everywhere isReadNode type = true := by
    intro one other left right type member
    simp only [List.mem_cons, List.not_mem_nil, or_false] at member
    rcases member with rfl | rfl
    · exact left
    · exact right
  unfold applied
  split
  · exact everywhere_builtIn (decide_eq_true short) first
  · split
    · exact everywhere_builtIn (decide_eq_true short) first
    · split
      · exact everywhere_builtIn rfl
          (pair _ _ (everywhere_getD 0 all rfl) (everywhere_getD 1 all rfl))
      · split
        · exact everywhere_builtIn rfl
            (pair _ _ (everywhere_getD 0 all rfl) (everywhere_getD 1 all rfl))
        · split
          · exact everywhere_builtIn rfl all
          · exact everywhere_custom (Text.solid_identifier word)

theorem everywhere_ofWord (solid : Solid name) : everywhere isReadNode (ofWord name) = true := by
  unfold ofWord
  split
  · rfl
  · split
    · rfl
    · split
      · rfl
      · exact everywhere_custom solid

/-- Reading gives every node as many parts as its kind can have, and no name without a visible
beginning and end. -/
theorem everywhere_isReadNode_read (text : Text) : everywhere isReadNode (read text) = true := by
  induction text using operands_induction with
  | step text ih =>
    have inside : ∀ type ∈ (ofText text).operands.map read,
        everywhere isReadNode type = true := by
      intro type member
      obtain ⟨part, here, rfl⟩ := List.mem_map.mp member
      exact ih part here
    rw [read_eq]
    cases shape : ofText text with
    | blank => rfl
    | union operands =>
      rw [shape] at inside
      have several : hasReadArity (union (operands.map read)) = true := by
        simpa [hasReadArity] using length_of_ofText_union shape
      exact everywhere_iff.mpr ⟨(isReadNode_iff_of_parts rfl).mpr several, inside⟩
    | intersection operands =>
      rw [shape] at inside
      have several : hasReadArity (intersection (operands.map read)) = true := by
        simpa [hasReadArity] using length_of_ofText_intersection shape
      exact everywhere_iff.mpr ⟨(isReadNode_iff_of_parts rfl).mpr several, inside⟩
    | array element count =>
      exact everywhere_nested (ih element (by simp [shape, operands]))
    | tuple elements =>
      rw [shape] at inside
      exact everywhere_builtIn rfl inside
    | group inner => exact ih inner (by simp [shape, operands])
    | applied name arguments =>
      rw [shape] at inside
      exact everywhere_applied (applied_of_ofText shape).1 inside
    | word name => exact everywhere_ofWord (word_of_ofText shape).1

theorem everywhere_hasReadArity_read (text : Text) :
    everywhere hasReadArity (read text) = true :=
  everywhere_mono (fun _ made => ((Bool.and_eq_true _ _).mp made).1)
    (everywhere_isReadNode_read text)

end Nodes

end TypeExpr

end SchemaBoard
