import SchemaBoard.Proofs.TypeExpr.Written

set_option autoImplicit false

/-!
The characters of written types. In a type over identifiers none of them is a slash, a semicolon, a
brace or a line break, and other names can do without them too: such types keep out of the structure
of the declarations around them.
-/
namespace SchemaBoard.TypeExpr

/-- Whether a character may stand in a written type: it is no brace, no semicolon, no line break and
in no mark of a comment. -/
def isTypeChar (c : CodePoint) : Bool :=
  !"\x7b\x7d;/*".toText.contains c && !Text.isLineBreak c

def TypeChars (text : Text) : Prop := ∀ c ∈ text, isTypeChar c = true

instance (text : Text) : Decidable (TypeChars text) :=
  inferInstanceAs (Decidable (∀ c ∈ text, isTypeChar c = true))

/-- Whether a node names nothing, or names it with a plain name that may stand in a type. -/
def hasTypeName : TypeExpr → Bool
  | custom name => isPlainName name && name.all isTypeChar
  | _ => true

theorem isTypeChar_of_isIdentifierPart {c : CodePoint} (part : Text.isIdentifierPart c = true) :
    isTypeChar c = true := by
  have stays := Text.isLineBreak_of_not_blank (Text.isBlank_of_isIdentifierPart part)
  have foreign : ∀ c ∈ "\x7b\x7d;/*".toText, Text.isIdentifierPart c = false := by decide
  have free : c ∉ "\x7b\x7d;/*".toText := by
    intro inside
    rw [foreign c inside] at part
    cases part
  simp [isTypeChar, stays, free]

theorem isPlainName_of_isIdentifier {name : Text} (word : Text.isIdentifier name = true) :
    isPlainName name = true := by
  have foreign : ∀ c ∈ marks, Text.isIdentifierPart c = false := by decide
  have free : ∀ c ∈ name, c ∉ marks := fun c member structuring =>
    Text.not_mem_identifier word (foreign c structuring) member
  exact isPlainName_iff.mpr ⟨Text.solid_identifier word, free⟩

theorem hasTypeName_of_hasIdentifier {node : TypeExpr} (named : hasIdentifier node = true) :
    hasTypeName node = true := by
  cases node with
  | custom name =>
    refine (Bool.and_eq_true _ _).mpr ⟨isPlainName_of_isIdentifier named, ?_⟩
    exact List.all_eq_true.mpr fun c here =>
      isTypeChar_of_isIdentifierPart (Text.part_of_mem_identifier named here)
  | primitive | union | intersection | builtIn => rfl

theorem hasPlainName_of_hasTypeName {node : TypeExpr} (named : hasTypeName node = true) :
    hasPlainName node = true := by
  cases node with
  | custom name => exact ((Bool.and_eq_true _ _).mp named).1
  | primitive | union | intersection | builtIn => rfl

theorem everywhere_hasPlainName {type : TypeExpr} (named : everywhere hasTypeName type = true) :
    everywhere hasPlainName type = true :=
  everywhere_mono (fun _ => hasPlainName_of_hasTypeName) named

section Closure

theorem TypeChars.append {first second : Text} (left : TypeChars first)
    (right : TypeChars second) : TypeChars (first ++ second) := by
  intro c member
  rcases List.mem_append.mp member with here | here
  · exact left c here
  · exact right c here

theorem TypeChars.wrap (pair : CodePoint × CodePoint) {inside : Text} (known : pair ∈ bracketPairs)
    (allowed : TypeChars inside) : TypeChars (pair.1 :: inside ++ [pair.2]) := by
  have both : ∀ pair ∈ bracketPairs, TypeChars [pair.1] ∧ TypeChars [pair.2] := by decide
  obtain ⟨opens, closes⟩ := both pair known
  exact (TypeChars.append opens allowed).append closes

theorem typeChars_join {separator : Text} {written : List Text} (between : TypeChars separator)
    (allowed : ∀ text ∈ written, TypeChars text) : TypeChars (Text.join separator written) := by
  intro c member
  rcases Text.mem_join member with here | ⟨text, inside, here⟩
  · exact between c here
  · exact allowed text inside c here

theorem typeChars_parenthesize (needed : Bool) {text : Text} (allowed : TypeChars text) :
    TypeChars (Text.parenthesize needed text) := by
  cases needed with
  | true => exact TypeChars.wrap ('(', ')') (by decide) allowed
  | false => exact allowed

theorem typeChars_operandText {separator : Text} {written : List Text}
    (between : TypeChars separator) (allowed : ∀ text ∈ written, TypeChars text) :
    TypeChars (operandText separator written) := by
  rw [operandText]
  split
  · decide
  · exact typeChars_join between allowed

theorem typeChars_appliedText {name : Text} {written : List Text} (word : TypeChars name)
    (allowed : ∀ text ∈ written, TypeChars text) : TypeChars (appliedText name written) := by
  rw [appliedText, List.append_assoc]
  exact word.append (TypeChars.wrap ('<', '>') (by decide)
    (typeChars_join (by decide) allowed))

theorem typeChars_containerText (head : Container) (compound : Bool) {written : List Text}
    (allowed : ∀ text ∈ written, TypeChars text) :
    TypeChars (containerText head compound written) := by
  have argument : ∀ index default, TypeChars default →
      TypeChars (written.getD index default) :=
    fun index _ absent => holds_getD index allowed absent
  have single : ∀ one, TypeChars one → ∀ text ∈ [one], TypeChars text := by
    intro one here text member
    exact List.mem_singleton.mp member ▸ here
  have pair : ∀ one other, TypeChars one → TypeChars other →
      ∀ text ∈ [one, other], TypeChars text := by
    intro one other left right text member
    simp only [List.mem_cons, List.not_mem_nil, or_false] at member
    rcases member with rfl | rfl
    · exact left
    · exact right
  cases head with
  | array =>
    refine TypeChars.append ?_ (by decide)
    match written with
    | [] => exact (by decide : TypeChars "any".toText)
    | [text] => exact typeChars_parenthesize _ (allowed text (by simp))
    | first :: second :: rest =>
      exact typeChars_parenthesize _ (typeChars_join (by decide) allowed)
  | tuple =>
    exact TypeChars.wrap ('[', ']') (by decide) (typeChars_join (by decide) allowed)
  | set => exact typeChars_appliedText (by decide) (single _ (argument 0 _ (by decide)))
  | map =>
    exact typeChars_appliedText (by decide)
      (pair _ _ (argument 0 _ (by decide)) (argument 1 _ (by decide)))
  | object =>
    exact typeChars_appliedText (by decide)
      (pair _ _ (argument 0 _ (by decide)) (argument 1 _ (by decide)))
  | generic =>
    rw [containerText]
    split
    · decide
    · exact typeChars_appliedText (by decide) allowed

end Closure

theorem typeChars_render {type : TypeExpr} (named : everywhere hasTypeName type = true) :
    TypeChars type.render := by
  induction type using parts_induction with
  | step type ih =>
    have inside : ∀ part ∈ type.parts, TypeChars part.render :=
      fun part member => ih part member (everywhere_of_mem_parts named member)
    have written : ∀ text ∈ type.parts.map render, TypeChars text := by
      intro text member
      obtain ⟨part, here, rfl⟩ := List.mem_map.mp member
      exact inside part here
    cases type with
    | primitive name => cases name <;> exact (by decide)
    | custom name =>
      obtain ⟨plain, allowed⟩ := (Bool.and_eq_true _ _).mp (check_of_everywhere named)
      rw [render_custom (isPlainName_iff.mp plain).1]
      exact List.all_eq_true.mp allowed
    | union members =>
      rw [render, renderAll_eq_map]
      exact typeChars_operandText (by decide) written
    | intersection members =>
      rw [render, renderConjuncts_eq_map]
      refine typeChars_operandText (by decide) fun text member => ?_
      obtain ⟨part, here, rfl⟩ := List.mem_map.mp member
      exact typeChars_parenthesize _ (inside part here)
    | builtIn head arguments =>
      rw [render, renderAll_eq_map]
      exact typeChars_containerText head _ written

/-- A character of no written type does not stand in one. -/
theorem TypeChars.not_mem {text : Text} {c : CodePoint} (allowed : TypeChars text)
    (foreign : isTypeChar c = false) : c ∉ text := by
  intro member
  have here := allowed c member
  rw [foreign] at here
  cases here

theorem TypeChars.singleLine {text : Text} (allowed : TypeChars text) : Text.SingleLine text := by
  intro c member
  have here := allowed c member
  simp only [isTypeChar, Bool.and_eq_true, Bool.not_eq_true'] at here
  exact here.2

theorem seals_braces_of_typeChars {text : Text} (allowed : TypeChars text) :
    Text.Brackets.braces.Seals [] text := by
  apply Text.Brackets.Seals.flat
  intro c inside
  refine ⟨fun opens => ?_, fun closes => ?_, by simp⟩
  · obtain rfl := List.mem_singleton.mp opens
    exact allowed.not_mem (by decide) inside
  · obtain rfl := List.mem_singleton.mp closes
    exact allowed.not_mem (by decide) inside

end SchemaBoard.TypeExpr
