import Mathlib.Data.List.ModifyLast
import SchemaBoard.Proofs.TypeExpr.Grammar

set_option autoImplicit false

/-!
Clauses of written types: the operands of the written form, in the groups that the operators make of
them. Parentheses end up inside of an operand, so clauses show how the text is grouped, whatever the
tree was. Main statements: a type is written as its clauses, and what it is read as is the union of
its clauses, each of which is the intersection of what its operands are read as.
-/
namespace SchemaBoard.TypeExpr

open Text (Brackets Solid glue)
open Shape

/-- Operands with the mark of an intersection between them. -/
def clauseText (clause : List Text) : Text := Text.join intersectionMark clause

/-- Clauses with the mark of a union between them. -/
def choiceText (clauses : List (List Text)) : Text := Text.join unionMark (clauses.map clauseText)

/-- The clauses with an array suffix behind them, which belongs to their last operand alone. -/
def suffixed (clauses : List (List Text)) : List (List Text) :=
  clauses.modifyLast fun clause => clause.modifyLast fun operand => operand ++ arrayMark

mutual

/-- The operands of the written form of a type: those of one clause stand between marks of an
intersection, the clauses between marks of a union. -/
def clauses : TypeExpr → List (List Text)
  | primitive name => [[(primitive name).render]]
  | custom name => [[(custom name).render]]
  | union members => if members.isEmpty then [[(union []).render]] else alternativeClauses members
  | intersection members =>
    if members.isEmpty then [[(intersection []).render]] else conjunctClauses members
  | builtIn .array [element] =>
    if element.isCompound then [[(builtIn .array [element]).render]] else suffixed (clauses element)
  | builtIn head arguments => [[(builtIn head arguments).render]]

/-- The clauses of the members of a union. -/
def alternativeClauses : List TypeExpr → List (List Text)
  | [] => []
  | member :: rest => clauses member ++ alternativeClauses rest

/-- The clauses of the members of an intersection: the last clause of a member and the first one of
the next member are one. -/
def conjunctClauses : List TypeExpr → List (List Text)
  | [] => []
  | member :: rest =>
    glue (if member.isChoice then [[Text.parenthesize true member.render]] else clauses member)
      (conjunctClauses rest)

end

/-- Whether the written form of a type is one operand, whatever the parts of the type are. -/
def isAtomic : TypeExpr → Bool
  | primitive _ | custom _ => true
  | union members | intersection members => members.isEmpty
  | builtIn .array [element] => element.isCompound
  | builtIn _ _ => true

def memberClauses (member : TypeExpr) : List (List Text) :=
  if member.isChoice then [[Text.parenthesize true member.render]] else clauses member

theorem alternativeClauses_eq (members : List TypeExpr) :
    alternativeClauses members = members.flatMap clauses := by
  induction members with
  | nil => rfl
  | cons member rest ih => rw [alternativeClauses, ih, List.flatMap_cons]

theorem clauses_of_isAtomic {type : TypeExpr} (atomic : type.isAtomic = true) :
    type.clauses = [[type.render]] := by
  match type with
  | primitive _ | custom _ => rw [clauses]
  | union members | intersection members =>
    obtain rfl : members = [] := List.isEmpty_iff.mp atomic
    rfl
  | builtIn .array [element] =>
    have compound : element.isCompound = true := atomic
    rw [clauses, if_pos compound]
  | builtIn .array [] | builtIn .array (_ :: _ :: _) => rfl
  | builtIn .tuple _ | builtIn .set _ | builtIn .map _ | builtIn .object _ | builtIn .generic _ =>
    rfl

theorem clauses_union {members : List TypeExpr} (some : members ≠ []) :
    (union members).clauses = members.flatMap clauses := by
  rw [clauses, if_neg (by simpa using some), alternativeClauses_eq]

theorem clauses_intersection {members : List TypeExpr} (some : members ≠ []) :
    (intersection members).clauses = conjunctClauses members := by
  rw [clauses, if_neg (by simpa using some)]

theorem conjunctClauses_cons (member : TypeExpr) (rest : List TypeExpr) :
    conjunctClauses (member :: rest) = glue member.memberClauses (conjunctClauses rest) := rfl

theorem clauses_array {element : TypeExpr} (simple : element.isCompound = false) :
    (builtIn .array [element]).clauses = suffixed element.clauses := by
  rw [clauses, if_neg (by simp [simple])]

theorem conjunctClauses_singleton (member : TypeExpr) :
    conjunctClauses [member] = member.memberClauses := Text.glue_nil _

theorem suffixed_concat (front : List (List Text)) (operands : List Text) (last : Text) :
    suffixed (front ++ [operands ++ [last]]) = front ++ [operands ++ [last ++ arrayMark]] := by
  rw [suffixed, List.modifyLast_concat, List.modifyLast_concat]

/-- There are clauses, none of which is empty, and what is said of operands holds of all of them. -/
structure Filled (holds : Text → Prop) (clauses : List (List Text)) : Prop where
  nonempty : clauses ≠ []
  inhabited : ∀ clause ∈ clauses, clause ≠ []
  each : ∀ clause ∈ clauses, ∀ operand ∈ clause, holds operand

namespace Filled

variable {holds : Text → Prop} {first second : List (List Text)}

theorem single {operand : Text} (here : holds operand) : Filled holds [[operand]] where
  nonempty := List.cons_ne_nil _ _
  inhabited := by simp
  each := by simpa using here

theorem mono {weaker : Text → Prop} (weak : ∀ operand, holds operand → weaker operand)
    (filled : Filled holds first) : Filled weaker first where
  nonempty := filled.nonempty
  inhabited := filled.inhabited
  each := fun clause here operand inside => weak operand (filled.each clause here operand inside)

theorem flatMap {Part : Type} {parts : List Part} {cut : Part → List (List Text)}
    (some : parts ≠ []) (filled : ∀ part ∈ parts, Filled holds (cut part)) :
    Filled holds (parts.flatMap cut) where
  nonempty := by
    obtain ⟨part, rest, rfl⟩ := List.exists_cons_of_ne_nil some
    simp [(filled part (by simp)).nonempty]
  inhabited := by
    intro clause here
    obtain ⟨part, inside, clauses⟩ := List.mem_flatMap.mp here
    exact (filled part inside).inhabited clause clauses
  each := by
    intro clause here
    obtain ⟨part, inside, clauses⟩ := List.mem_flatMap.mp here
    exact (filled part inside).each clause clauses

theorem exists_last (filled : Filled holds first) :
    ∃ front operands last, first = front ++ [operands ++ [last]] := by
  obtain ⟨front, clause, eq⟩ := (List.eq_nil_or_concat first).resolve_left filled.nonempty
  have member : clause ∈ first := by simp [eq]
  obtain ⟨operands, last, same⟩ :=
    (List.eq_nil_or_concat clause).resolve_left (filled.inhabited clause member)
  exact ⟨front, operands, last, by rw [eq, same, List.concat_eq_append, List.concat_eq_append]⟩

/-- A glued clause stands in front of the border, behind it, or across it. -/
theorem mem_glue {clause : List Text} (left : Filled holds first) (right : Filled holds second)
    (member : clause ∈ glue first second) :
    clause ∈ first.dropLast ∨ clause ∈ second.tail ∨
      ∃ last ∈ first, ∃ next ∈ second, clause = last ++ next := by
  obtain ⟨front, last, eq⟩ := (List.eq_nil_or_concat first).resolve_left left.nonempty
  obtain ⟨next, rest, rfl⟩ := List.exists_cons_of_ne_nil right.nonempty
  rw [List.concat_eq_append] at eq
  subst eq
  rw [Text.glue_concat_cons] at member
  rcases List.mem_append.mp member with before | later
  · exact Or.inl (by rwa [List.dropLast_concat])
  · rcases List.mem_cons.mp later with across | behind
    · exact Or.inr (Or.inr ⟨last, by simp, next, by simp, across⟩)
    · exact Or.inr (Or.inl behind)

theorem glue (left : Filled holds first) (right : Filled holds second) :
    Filled holds (Text.glue first second) := by
  refine ⟨?_, fun clause here => ?_, fun clause here operand inside => ?_⟩
  · obtain ⟨front, operands, last, rfl⟩ := left.exists_last
    obtain ⟨next, rest, rfl⟩ := List.exists_cons_of_ne_nil right.nonempty
    simp [Text.glue_concat_cons]
  · rcases mem_glue left right here with before | behind | ⟨last, there, next, -, rfl⟩
    · exact left.inhabited clause (List.dropLast_subset _ before)
    · exact right.inhabited clause (List.mem_of_mem_tail behind)
    · simp [left.inhabited last there]
  · rcases mem_glue left right here with before | behind | ⟨last, there, next, follows, rfl⟩
    · exact left.each clause (List.dropLast_subset _ before) operand inside
    · exact right.each clause (List.mem_of_mem_tail behind) operand inside
    · rcases List.mem_append.mp inside with early | late
      · exact left.each last there operand early
      · exact right.each next follows operand late

theorem suffixed (filled : Filled holds first)
    (closed : ∀ operand, holds operand → holds (operand ++ arrayMark)) :
    Filled holds (suffixed first) := by
  obtain ⟨front, operands, last, rfl⟩ := filled.exists_last
  rw [suffixed_concat]
  refine ⟨by simp, fun clause here => ?_, fun clause here operand inside => ?_⟩
  · rcases List.mem_append.mp here with before | final
    · exact filled.inhabited clause (List.mem_append_left _ before)
    · simp [List.mem_singleton.mp final]
  · rcases List.mem_append.mp here with before | final
    · exact filled.each clause (List.mem_append_left _ before) operand inside
    · rw [List.mem_singleton.mp final] at inside
      have whole := filled.each (operands ++ [last]) (by simp)
      rcases List.mem_append.mp inside with early | late
      · exact whole operand (List.mem_append_left _ early)
      · rw [List.mem_singleton.mp late]
        exact closed last (whole last (by simp))

end Filled

section Induction

/-- What holds of everything written as one operand, and passes from its members to an operator and
from its element to an array without parentheses, holds of all types. -/
@[elab_as_elim]
theorem clauses_induction {motive : TypeExpr → Prop} (type : TypeExpr)
    (atom : ∀ type, type.isAtomic = true → (∀ part ∈ type.parts, motive part) → motive type)
    (union : ∀ members, members ≠ [] → (∀ member ∈ members, motive member) →
      motive (union members))
    (intersection : ∀ members, members ≠ [] → (∀ member ∈ members, motive member) →
      motive (intersection members))
    (array : ∀ element, element.isCompound = false → motive element →
      motive (builtIn .array [element])) : motive type := by
  induction type using parts_induction with
  | step type ih =>
    by_cases atomic : type.isAtomic = true
    · exact atom type atomic ih
    · match type with
      | .union members => exact union members (fun empty => atomic (List.isEmpty_iff.mpr empty)) ih
      | .intersection members =>
        exact intersection members (fun empty => atomic (List.isEmpty_iff.mpr empty)) ih
      | .builtIn .array [element] =>
        exact array element (Bool.eq_false_iff.mpr atomic) (ih element (List.mem_singleton_self _))
      | .primitive _ | .custom _ | .builtIn .array [] | .builtIn .array (_ :: _ :: _)
      | .builtIn .tuple _ | .builtIn .set _ | .builtIn .map _ | .builtIn .object _
      | .builtIn .generic _ => exact absurd rfl atomic

variable {holds : Text → Prop} {type : TypeExpr} {members : List TypeExpr}

theorem filled_conjunctClauses (some : members ≠ [])
    (inside : ∀ member ∈ members, Filled holds member.memberClauses) :
    Filled holds (conjunctClauses members) := by
  induction members with
  | nil => exact absurd rfl some
  | cons member rest ih =>
    have here := inside member (by simp)
    by_cases last : rest = []
    · rwa [last, conjunctClauses_singleton]
    · rw [conjunctClauses_cons]
      exact here.glue (ih last fun other there => inside other (List.mem_cons_of_mem member there))

theorem filled_memberClauses
    (group : type.isChoice = true → holds (Text.parenthesize true type.render))
    (filled : Filled holds type.clauses) : Filled holds type.memberClauses := by
  rw [memberClauses]
  split
  · next choice => exact Filled.single (group choice)
  · exact filled

/-- What is said of operands holds of all of them if it holds of those written as a whole and of
those in parentheses, and an array suffix does not change it. -/
theorem filled_clauses {check : TypeExpr → Bool}
    (atom : ∀ node, everywhere check node = true → node.isAtomic = true → holds node.render)
    (group : ∀ node, everywhere check node = true → node.isChoice = true →
      holds (Text.parenthesize true node.render))
    (suffix : ∀ operand, holds operand → holds (operand ++ arrayMark))
    (checked : everywhere check type = true) : Filled holds type.clauses := by
  induction type using clauses_induction with
  | atom type atomic _ =>
    rw [clauses_of_isAtomic atomic]
    exact Filled.single (atom type checked atomic)
  | union members some ih =>
    rw [clauses_union some]
    exact Filled.flatMap some fun member here =>
      ih member here (everywhere_of_mem_parts checked here)
  | intersection members some ih =>
    rw [clauses_intersection some]
    refine filled_conjunctClauses some fun member here => ?_
    have inside : everywhere check member = true := everywhere_of_mem_parts checked here
    exact filled_memberClauses (group member inside) (ih member here inside)
  | array element simple ih =>
    rw [clauses_array simple]
    exact (ih (everywhere_of_mem_parts checked (List.mem_singleton_self element))).suffixed suffix

/-- A type has clauses, and none of them is empty. -/
theorem inhabited_clauses (type : TypeExpr) : Filled (fun _ => True) type.clauses :=
  filled_clauses (fun _ _ _ => trivial) (fun _ _ _ => trivial) (fun _ _ => trivial)
    (everywhere_true type)

theorem inhabited_memberClauses (type : TypeExpr) : Filled (fun _ => True) type.memberClauses :=
  filled_memberClauses (fun _ => trivial) (inhabited_clauses type)

end Induction

section Written

theorem choiceText_single (operand : Text) : choiceText [[operand]] = operand := by
  simp [choiceText, clauseText]

theorem choiceText_flatMap {members : List TypeExpr} {cut : TypeExpr → List (List Text)}
    (some : ∀ member ∈ members, cut member ≠ []) :
    choiceText (members.flatMap cut) =
      Text.join unionMark (members.map fun member => choiceText (cut member)) := by
  rw [choiceText, List.map_flatMap,
    Text.join_flatMap unionMark fun member here => by simpa using some member here]
  rfl

theorem choiceText_glue {first second : List (List Text)}
    (left : Filled (fun _ => True) first) (right : Filled (fun _ => True) second) :
    choiceText (glue first second) =
      choiceText first ++ intersectionMark ++ choiceText second := by
  obtain ⟨front, operands, last, rfl⟩ := left.exists_last
  obtain ⟨next, rest, rfl⟩ := List.exists_cons_of_ne_nil right.nonempty
  have visible : next ≠ [] := right.inhabited next (by simp)
  have border : clauseText (operands ++ [last] ++ next) =
      clauseText (operands ++ [last]) ++ intersectionMark ++ clauseText next :=
    Text.join_append intersectionMark (by simp) visible
  rw [Text.glue_concat_cons]
  simp only [choiceText, List.map_append, List.map_cons, List.map_nil, border]
  by_cases alone : front = []
  · rw [alone, List.map_nil, List.nil_append, List.nil_append, Text.join_append_cons,
      Text.join_singleton]
  · rw [Text.join_append unionMark (by simpa using alone) (List.cons_ne_nil _ _),
      Text.join_append unionMark (by simpa using alone) (List.cons_ne_nil _ _),
      Text.join_append_cons unionMark, Text.join_singleton]
    simp only [List.append_assoc]

theorem choiceText_suffixed {clauses : List (List Text)} (filled : Filled (fun _ => True) clauses) :
    choiceText (suffixed clauses) = choiceText clauses ++ arrayMark := by
  obtain ⟨front, operands, last, rfl⟩ := filled.exists_last
  have final : clauseText (operands ++ [last ++ arrayMark]) =
      clauseText (operands ++ [last]) ++ arrayMark := Text.join_concat_append _ _ _ _
  rw [suffixed_concat, choiceText, choiceText, List.map_append, List.map_append,
    List.map_singleton, List.map_singleton, final, Text.join_concat_append]

theorem choiceText_conjunctClauses {members : List TypeExpr} (some : members ≠ []) :
    choiceText (conjunctClauses members) =
      Text.join intersectionMark (members.map fun member => choiceText member.memberClauses) := by
  induction members with
  | nil => exact absurd rfl some
  | cons member rest ih =>
    by_cases last : rest = []
    · rw [last, conjunctClauses_singleton, List.map_singleton, Text.join_singleton]
    · have later := filled_conjunctClauses last fun other _ => inhabited_memberClauses other
      rw [conjunctClauses_cons, choiceText_glue (inhabited_memberClauses member) later, ih last,
        List.map_cons, Text.join_cons_of_ne_nil _ _ (by simpa using last)]

/-- A type is written as its clauses. -/
theorem render_eq_choiceText (type : TypeExpr) : type.render = choiceText type.clauses := by
  induction type using clauses_induction with
  | atom type atomic _ => rw [clauses_of_isAtomic atomic, choiceText_single]
  | union members some ih =>
    rw [clauses_union some, render_union some,
      choiceText_flatMap fun member _ => (inhabited_clauses member).nonempty]
    exact congrArg _ (List.map_congr_left ih)
  | intersection members some ih =>
    rw [clauses_intersection some, render_intersection some, choiceText_conjunctClauses some]
    refine congrArg _ (List.map_congr_left fun member here => ?_)
    rw [conjunct, memberClauses]
    cases choice : member.isChoice with
    | true => exact (choiceText_single _).symm
    | false => exact ih member here
  | array element simple ih =>
    rw [clauses_array simple, choiceText_suffixed (inhabited_clauses element), ← ih, render_array,
      simple]
    rfl

/-- No parentheses keep the alternatives of a nested union together. -/
example : (intersection [union [union [custom "A".toText, custom "B".toText]],
    custom "C".toText]).clauses = [["A".toText], ["B".toText, "C".toText]] := by decide

end Written

/-- What a text has to be like to stand in a row of that level. -/
structure Fits (level : Level) (text : Text) : Prop where
  solid : Solid text
  nested : Nested text
  sealed : Brackets.plain.Seals level.barred text

section Reading

variable {level : Level} {type : TypeExpr}

theorem Reads.fits {text : Text} (reads : Reads level text type) : Fits level text :=
  ⟨reads.solid, reads.nested, reads.sealed⟩

theorem Fits.isOperand {text : Text} (fits : Fits .operand text) : IsOperand text :=
  isOperand_of_seals fits.solid fits.sealed (by decide)

theorem Fits.suffixed {text : Text} (fits : Fits .operand text) :
    Fits .operand (text ++ arrayMark) where
  solid := fits.solid.append (by decide)
  nested := fits.nested.append (by decide)
  sealed := fits.sealed.append (by decide)

/-- Something in parentheses is an operand. -/
theorem fits_group {inside : Text} (nested : Nested inside) :
    Fits .operand (Text.parenthesize true inside) where
  solid := Solid.wrap inside (by decide) (by decide)
  nested := nested.wrap ('(', ')') (by decide)
  sealed := sealed_wrap ('(', ')') (by decide) nested

theorem read_group {inside : Text} (nested : Nested inside) :
    read (Text.parenthesize true inside) = read inside :=
  (read_parentheses nested.plain nested.rounds).2

/-- The mark of a level, with a blank on each side. -/
def spacedMark (level : Level) : Text := .char ' ' :: level.mark :: [.char ' ']

theorem cuts_join {parts : List Text} (some : parts ≠ [])
    (fits : ∀ part ∈ parts, Fits level part) :
    cuts level (Text.join (spacedMark level) parts) = parts := by
  have whole := Text.pieces_join (neutral_mark level) (by decide : Text.allBlank [' '] = true)
    (by decide : Text.allBlank [' '] = true) some fun part here => (fits part here).nested.plain
  have single : ∀ part ∈ parts,
      (Text.pieces Brackets.plain [level.mark] 0 part).map Text.trim = [part] := by
    intro part here
    rw [Text.pieces_of_seals (neutral_mark level) (mark_mem_barred level) (fits part here).sealed,
      List.map_singleton, Text.trim_eq_self (fits part here).solid.trimmed]
  calc cuts level (Text.join (spacedMark level) parts)
    _ = parts.flatMap fun part =>
          (Text.pieces Brackets.plain [level.mark] 0 part).map Text.trim := whole
    _ = parts := by
      rw [List.flatMap_def, List.map_congr_left single, ← List.flatMap_def, List.flatMap_singleton']

/-- Texts that fit are read one by one from the row that they stand in. -/
theorem readsRow_join {parts : List Text} (some : parts ≠ [])
    (fits : ∀ part ∈ parts, Fits level part) :
    ReadsRow level (Text.join (spacedMark level) parts) (parts.map read) where
  solid := Solid.join _ some fun part here => (fits part here).solid
  nested := fun brackets kind => Brackets.Seals.join
    (by cases level <;> exact (by decide : Nested _) brackets kind)
    fun part here => (fits part here).nested brackets kind
  sealed := Brackets.Seals.join (by cases level <;> decide)
    fun part here => (fits part here).sealed.mono ((List.tail_sublist _).subset)
  visible := by
    rw [cuts_join some fits]
    exact fun part here => (fits part here).solid.nonempty
  read_eq := by rw [cuts_join some fits]

/-- What clauses are read as, given what their operands are read as. -/
def choiceOf (clauses : List (List Text)) : TypeExpr :=
  operation union (clauses.map fun clause => operation intersection (clause.map read))

theorem reads_choiceText {clauses : List (List Text)} (filled : Filled (Fits .operand) clauses) :
    Reads .choice (choiceText clauses) (choiceOf clauses) := by
  have conjunction : ∀ clause ∈ clauses,
      Reads .conjunction (clauseText clause) (operation intersection (clause.map read)) :=
    fun clause here =>
      (readsRow_join (filled.inhabited clause here) (filled.each clause here)).conjunction
  have row := readsRow_join (by simpa using filled.nonempty : clauses.map clauseText ≠ [])
    (List.forall_mem_map.mpr fun clause here => (conjunction clause here).fits)
  rw [List.map_map] at row
  have same : clauses.map (read ∘ clauseText) =
      clauses.map fun clause => operation intersection (clause.map read) :=
    List.map_congr_left fun clause here => (conjunction clause here).read_eq
  rw [same] at row
  exact row.choice

theorem nested_render (plain : everywhere hasPlainName type = true) : Nested type.render :=
  fun _ kind => seals_render (suits_of_mem_bracketKinds kind) plain

theorem fits_atomic (plain : everywhere hasPlainName type = true) (atomic : type.isAtomic = true) :
    Fits .operand type.render where
  solid := solid_render plain
  nested := nested_render plain
  sealed := by
    have suits : Suits Brackets.plain Level.operand.barred := suits_plain (barred_subset_marks _)
    have named := check_of_everywhere plain
    cases type with
    | primitive name => exact suits.flat _ (by cases name <;> decide)
    | custom name =>
      obtain ⟨solid, free⟩ := isPlainName_iff.mp named
      rw [render_custom solid]
      exact suits.flat name free
    | union members | intersection members =>
      obtain rfl : members = [] := List.isEmpty_iff.mp atomic
      decide
    | builtIn head arguments =>
      rw [render, renderAll_eq_map]
      refine suits.containerText (fun text here => ?_) fun array simple text only => ?_
      · obtain ⟨part, inside, rfl⟩ := List.mem_map.mp here
        exact seals_render_plain (everywhere_of_mem_parts plain inside)
      · obtain ⟨part, rfl, -⟩ := List.map_eq_singleton_iff.mp only
        subst array
        have compound : part.isCompound = true := atomic
        cases simple.symm.trans compound

/-- The operands of a type with plain names stand for themselves between the marks. -/
theorem fits_clauses (plain : everywhere hasPlainName type = true) :
    Filled (Fits .operand) type.clauses :=
  filled_clauses (fun _ => fits_atomic) (fun _ inside _ => fits_group (nested_render inside))
    (fun _ fits => fits.suffixed) plain

/-- A written type is read as the union of its clauses, which are read as the intersections of their
operands. -/
theorem read_render_eq_choiceOf (plain : everywhere hasPlainName type = true) :
    read type.render = choiceOf type.clauses := by
  rw [render_eq_choiceText]
  exact (reads_choiceText (fits_clauses plain)).read_eq

end Reading

section Several

variable {type : TypeExpr} {members : List TypeExpr}

theorem operation_of_several {operator : List TypeExpr → TypeExpr} (several : 1 < members.length) :
    operation operator members = operator members := by
  match members with
  | [] | [_] => exact absurd several (by simp)
  | _ :: _ :: _ => rfl

theorem Filled.length_flatten_pos {holds : Text → Prop} {clauses : List (List Text)}
    (filled : Filled holds clauses) : 0 < clauses.flatten.length := by
  obtain ⟨front, operands, last, rfl⟩ := filled.exists_last
  simp only [List.flatten_append, List.flatten_singleton, List.length_append, List.length_cons]
  omega

theorem length_le_length_conjunctClauses (members : List TypeExpr) :
    members.length ≤ (conjunctClauses members).flatten.length := by
  induction members with
  | nil => simp
  | cons member rest ih =>
    have here := (inhabited_memberClauses member).length_flatten_pos
    rw [conjunctClauses_cons, Text.flatten_glue, List.length_append, List.length_cons]
    omega

theorem isChoice_choiceOf {clauses : List (List Text)} (several : 1 < clauses.length) :
    (choiceOf clauses).isChoice = true := by
  rw [choiceOf, operation_of_several (by simpa using several)]
  simpa [isChoice] using several

theorem isCompound_choiceOf {clauses : List (List Text)} (several : 1 < clauses.flatten.length) :
    (choiceOf clauses).isCompound = true := by
  match clauses with
  | [] => exact absurd several (by simp)
  | [clause] =>
    have more : 1 < (clause.map read).length := by simpa using several
    show (operation intersection (clause.map read)).isCompound = true
    rw [operation_of_several more]
    exact decide_eq_true more
  | first :: second :: rest =>
    rw [choiceOf, operation_of_several (by simp)]
    simp [isCompound]

/-- A union of several types is read as a union of several types. -/
theorem isChoice_read_render (plain : everywhere hasPlainName type = true)
    (choice : type.isChoice = true) : (read type.render).isChoice = true := by
  rw [read_render_eq_choiceOf plain]
  apply isChoice_choiceOf
  cases type with
  | union members =>
    have several : 1 < members.length := of_decide_eq_true choice
    have least := Text.length_le_flatMap_length fun member (_ : member ∈ members) =>
      List.length_pos_iff.mpr (inhabited_clauses member).nonempty
    rw [clauses_union (ne_nil_of_arity several)]
    omega
  | primitive | custom | intersection | builtIn => cases choice

/-- A type that needs parentheses is read as one that needs them. -/
theorem isCompound_read_render (plain : everywhere hasPlainName type = true)
    (compound : type.isCompound = true) : (read type.render).isCompound = true := by
  cases type with
  | union members =>
    have choice := isChoice_read_render plain compound
    cases back : read (union members).render with
    | union others => rwa [back] at choice
    | primitive | custom | intersection | builtIn => rw [back] at choice; cases choice
  | intersection members =>
    have several : 1 < members.length := of_decide_eq_true compound
    have least := length_le_length_conjunctClauses members
    rw [read_render_eq_choiceOf plain, clauses_intersection (ne_nil_of_arity several)]
    exact isCompound_choiceOf (by omega)
  | primitive | custom | builtIn => cases compound

/-- A suffix makes an array of its operand, unless the operand is nothing but suffixes. -/
theorem Fits.read_suffixed {operand : Text} (fits : Fits .operand operand)
    (visible : (arraySuffixes operand.reverse).2 ≠ []) :
    read (operand ++ arrayMark) = builtIn .array [read operand] :=
  read_append_suffix fits.isOperand fits.suffixed.isOperand visible

theorem suffixes_group_ne_nil (inside : Text) :
    (arraySuffixes (Text.parenthesize true inside).reverse).2 ≠ [] :=
  suffixes_ne_nil_of_last List.getLast?_concat (by decide)

theorem read_group_suffixed {inside : Text} (nested : Nested inside) :
    read (Text.parenthesize true inside ++ arrayMark) = builtIn .array [read inside] := by
  rw [(fits_group nested).read_suffixed (suffixes_group_ne_nil inside), read_group nested]

end Several

end SchemaBoard.TypeExpr
