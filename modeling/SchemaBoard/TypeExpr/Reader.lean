import SchemaBoard.Text.Identifier
import SchemaBoard.Text.Nesting
import SchemaBoard.TypeExpr.Printer

set_option autoImplicit false

/-!
Reading types. A first, flat step finds the outermost shape of a text with its operands still text;
reading then recurses on the operands. Main statement: an operand is shorter than the text it was
found in.
-/
namespace SchemaBoard

/-- The outermost shape of a type text, with its operands still text. -/
inductive Shape where
  /-- Nothing but blanks. -/
  | blank
  /-- The operands of a union. -/
  | union (operands : List Text)
  /-- The operands of an intersection. -/
  | intersection (operands : List Text)
  /-- An element with that many array suffixes. -/
  | array (element : Text) (count : Nat)
  /-- The elements of a tuple. -/
  | tuple (elements : List Text)
  /-- The inside of a pair of parentheses. -/
  | group (inside : Text)
  /-- A name with arguments in angle brackets. -/
  | applied (name : Text) (arguments : List Text)
  /-- A text that is not taken apart any further. -/
  | word (name : Text)
deriving DecidableEq, Repr

namespace Shape

def operands : Shape → List Text
  | union parts | intersection parts | tuple parts | applied _ parts => parts
  | array element _ => [element]
  | group inside => [inside]
  | blank | word _ => []

/-- The number of pairs `[]` that end a text, and what stands before them; the text is given from
its end. -/
def arraySuffixes : Text → Nat × Text
  | .char ']' :: .char '[' :: rest => ((arraySuffixes rest).1 + 1, (arraySuffixes rest).2)
  | rest => (0, rest)

/-- A text with array suffixes behind something that is not blank, cut into both parts. -/
def array? (text : Text) : Option (Text × Nat) :=
  let (count, reversed) := arraySuffixes text.reverse
  if 0 < count && !Text.allBlank reversed then some (reversed.reverse, count) else none

/-- An identifier with something in angle brackets behind it, and the inside of the brackets. -/
def applied? (text : Text) : Option (Text × Text) :=
  match Text.identifier? text with
  | some (name, .char '<' :: rest) =>
    if rest.getLast? = some '>' && 1 < rest.length then some (name, rest.dropLast) else none
  | _ => none

/-- The shape of a trimmed, nonempty text without an operator outside its brackets. -/
def ofOperand (text : Text) : Shape :=
  match array? text with
  | some (element, count) => array element count
  | none =>
    match Text.unwrap? '[' ']' text with
    | some inside => tuple (Text.splitCommas inside)
    | none =>
      match Text.unwrap? '(' ')' text with
      | some inside => group inside
      | none =>
        match applied? text with
        | some (name, inside) => applied name (Text.splitCommas inside)
        | none => word text

/-- The shape of a text. A union binds weaker than an intersection, and both bind weaker than an
array suffix. -/
def ofText (text : Text) : Shape :=
  let src := Text.trim text
  if src.isEmpty then blank
  else if 1 < (Text.splitTop ['|'] src).length then union (Text.splitTop ['|'] src)
  else if 1 < (Text.splitTop ['&'] src).length then intersection (Text.splitTop ['&'] src)
  else ofOperand src

theorem arraySuffixes_length (text : Text) :
    (arraySuffixes text).2.length + 2 * (arraySuffixes text).1 = text.length := by
  fun_induction arraySuffixes text with
  | case1 rest ih => simp only [List.length_cons]; omega
  | case2 => simp

theorem array?_length {text element : Text} {count : Nat}
    (h : array? text = some (element, count)) : element.length < text.length := by
  have total := arraySuffixes_length text.reverse
  simp only [array?] at h
  split at h
  · next positive =>
    simp only [Option.some.injEq, Prod.mk.injEq] at h
    obtain ⟨rfl, -⟩ := h
    simp only [Bool.and_eq_true, decide_eq_true_eq] at positive
    simp only [List.length_reverse] at total ⊢
    omega
  · simp at h

theorem applied?_length {text name inside : Text} (h : applied? text = some (name, inside)) :
    inside.length + 1 < text.length := by
  unfold applied? at h
  split at h
  · next found rest eq =>
    have whole := congrArg List.length (Text.identifier?_append eq)
    split at h
    · simp only [Option.some.injEq, Prod.mk.injEq] at h
      obtain ⟨-, rfl⟩ := h
      simp only [List.length_append, List.length_cons, List.length_dropLast] at whole ⊢
      next last =>
        simp only [Bool.and_eq_true, decide_eq_true_eq] at last
        omega
    · simp at h
  · simp at h

theorem length_of_mem_splitCommas {text part : Text} (h : part ∈ Text.splitCommas text) :
    part.length ≤ text.length := by
  have member : part ∈ Text.splitTop [','] text := (List.mem_filter.mp h).1
  have bound := Text.length_of_mem_splitOutside member
  have positive : 0 < (Text.splitOutside Text.Brackets.plain [','] text).length :=
    List.length_pos_of_mem member
  omega

theorem length_of_mem_operands_ofOperand {text part : Text}
    (h : part ∈ (ofOperand text).operands) : part.length < text.length := by
  unfold ofOperand at h
  split at h
  · next found =>
    simp only [operands, List.mem_singleton] at h
    exact h ▸ array?_length found
  · split at h
    · next inside found =>
      have bound : part.length ≤ inside.length := length_of_mem_splitCommas h
      have := Text.unwrap?_length found
      omega
    · split at h
      · next found =>
        simp only [operands, List.mem_singleton] at h
        subst h
        have := Text.unwrap?_length found
        omega
      · split at h
        · next inside found =>
          have bound : part.length ≤ inside.length := length_of_mem_splitCommas h
          have := applied?_length found
          omega
        · simp [operands] at h

/-- An operand is shorter than the text in which it was found. -/
theorem length_of_mem_operands {text part : Text} (h : part ∈ (ofText text).operands) :
    part.length < text.length := by
  have short := Text.trim_length_le text
  simp only [ofText] at h
  split at h
  · simp [operands] at h
  · split at h
    · have bound : part.length + (Text.splitTop ['|'] (Text.trim text)).length ≤
          (Text.trim text).length + 1 := Text.length_of_mem_splitOutside h
      omega
    · split at h
      · have bound : part.length + (Text.splitTop ['&'] (Text.trim text)).length ≤
            (Text.trim text).length + 1 := Text.length_of_mem_splitOutside h
        omega
      · have := length_of_mem_operands_ofOperand h
        omega

end Shape

namespace TypeExpr

/-- The type with `count` array suffixes. -/
def nested : Nat → TypeExpr → TypeExpr
  | 0, type => type
  | count + 1, type => nested count (builtIn .array [type])

/-- A name applied to arguments. A record is an object; a name that is no container keeps none of
its arguments. -/
def applied (name : Text) (arguments : List TypeExpr) : TypeExpr :=
  if name = "Array".toText then builtIn .array (arguments.take 1)
  else if name = "Set".toText then builtIn .set (arguments.take 1)
  else if name = "Map".toText then
    builtIn .map [arguments.getD 0 (primitive .unknown), arguments.getD 1 (primitive .unknown)]
  else if name = "Record".toText then
    builtIn .object [arguments.getD 0 (primitive .string), arguments.getD 1 (primitive .unknown)]
  else if name = "Tuple".toText then builtIn .tuple arguments
  else custom name

/-- A word on its own: a primitive keyword, a bare container or a reference. -/
def ofWord (name : Text) : TypeExpr :=
  match Primitive.ofKeyword? name with
  | some p => primitive p
  | none =>
    if name = "Object".toText then builtIn .object []
    else if name = "Map".toText then builtIn .map []
    else custom name

/-- Reads a type. Every text is a type: blanks alone are any type, and what has no structure is a
reference by that name. -/
def read (text : Text) : TypeExpr :=
  match _found : Shape.ofText text with
  | .blank => primitive .any
  | .union parts => union (parts.attach.map fun part => read part.1)
  | .intersection parts => intersection (parts.attach.map fun part => read part.1)
  | .array element count => nested count (read element)
  | .tuple parts => builtIn .tuple (parts.attach.map fun part => read part.1)
  | .group inside => read inside
  | .applied name parts => applied name (parts.attach.map fun part => read part.1)
  | .word name => ofWord name
termination_by text.length
decreasing_by
  all_goals
    apply Shape.length_of_mem_operands
    simp [_found, Shape.operands, Subtype.property]

/-- One reading step, without the bookkeeping that makes the recursion end. -/
theorem read_eq (text : Text) :
    read text =
      match Shape.ofText text with
      | .blank => primitive .any
      | .union parts => union (parts.map read)
      | .intersection parts => intersection (parts.map read)
      | .array element count => nested count (read element)
      | .tuple parts => builtIn .tuple (parts.map read)
      | .group inside => read inside
      | .applied name parts => applied name (parts.map read)
      | .word name => ofWord name := by
  rw [read]
  split <;> simp_all

def readsBack (type : TypeExpr) : Bool := read type.render == type

end TypeExpr
end SchemaBoard
