import Mathlib.Data.Set.Basic
import SchemaBoard.Proofs.TypeExpr.Clauses

set_option autoImplicit false

/-!
Meanings of types. A type denotes a set of values: a union the union and an intersection the
intersection of what its members denote, and a container whatever its interpretation makes of its
arguments. Main statement: what is read from the written form of a type means the same, provided
that the type was written with the parentheses that its operators need.
-/
namespace SchemaBoard.TypeExpr

open Shape

universe u

/-- What leaves and containers denote. -/
structure Interpretation (Value : Type u) where
  primitive : Primitive → Set Value
  custom : Text → Set Value
  container : Container → List (Set Value) → Set Value

mutual

def meaning {Value : Type u} (of : Interpretation Value) : TypeExpr → Set Value
  | primitive name => of.primitive name
  | custom name => of.custom name
  | union members => {value | ∃ set ∈ meanings of members, value ∈ set}
  | intersection members => {value | ∀ set ∈ meanings of members, value ∈ set}
  | builtIn head arguments => of.container head (meanings of arguments)

def meanings {Value : Type u} (of : Interpretation Value) : List TypeExpr → List (Set Value)
  | [] => []
  | type :: rest => meaning of type :: meanings of rest

end

/-- Whether a node is a leaf that is read as itself, an operator with something under it, or an
array of one element. -/
def isBasicNode : TypeExpr → Bool
  | primitive _ => true
  | custom name => Text.isIdentifier name && !isReserved name
  | union members | intersection members => !members.isEmpty
  | builtIn .array [_] => true
  | builtIn _ _ => false

/-- The level of the operators that stand outside of all brackets in the written form of a type. -/
def outermost : TypeExpr → Level
  | union [member] => outermost member
  | union (_ :: _ :: _) => .choice
  | intersection [member] => if member.isChoice then .operand else outermost member
  | intersection (_ :: _ :: _) => .conjunction
  | _ => .operand

/-- Whether the parts of a node are written in parentheses where its operator needs them. The
parentheses are those of a part that has several members itself, so they are missing around a part
that owes its outermost operator to its only member. -/
def isGrouped : TypeExpr → Bool
  | intersection members =>
    members.length == 1 || members.all fun member => member.isChoice || member.outermost != .choice
  | builtIn .array [element] => element.isCompound || element.outermost == .operand
  | _ => true

section Values

variable {Value : Type u} {of : Interpretation Value} {value : Value}

theorem meanings_eq_map (types : List TypeExpr) : meanings of types = types.map (meaning of) := by
  induction types with
  | nil => rfl
  | cons type rest ih => rw [meanings, ih, List.map_cons]

theorem mem_meaning_union {members : List TypeExpr} :
    value ∈ meaning of (union members) ↔ ∃ member ∈ members, value ∈ meaning of member := by
  simp only [meaning, meanings_eq_map, Set.mem_ofPred_eq, List.mem_map, exists_exists_and_eq_and]

theorem mem_meaning_intersection {members : List TypeExpr} :
    value ∈ meaning of (intersection members) ↔ ∀ member ∈ members, value ∈ meaning of member := by
  rw [meaning, meanings_eq_map, Set.mem_ofPred_eq, List.forall_mem_map]

theorem meaning_array (element : TypeExpr) :
    meaning of (builtIn .array [element]) = of.container .array [meaning of element] := rfl

/-- A single type under an operator means what it means on its own. -/
theorem mem_meaning_operation_union {members : List TypeExpr} :
    value ∈ meaning of (operation union members) ↔
      ∃ member ∈ members, value ∈ meaning of member := by
  match members with
  | [only] => simp [operation]
  | [] | _ :: _ :: _ => exact mem_meaning_union

theorem mem_meaning_operation_intersection {members : List TypeExpr} :
    value ∈ meaning of (operation intersection members) ↔
      ∀ member ∈ members, value ∈ meaning of member := by
  match members with
  | [only] => simp [operation]
  | [] | _ :: _ :: _ => exact mem_meaning_intersection

/-- The values of clauses: they are in all operands of some clause. -/
theorem mem_meaning_choiceOf {clauses : List (List Text)} :
    value ∈ meaning of (choiceOf clauses) ↔
      ∃ clause ∈ clauses, ∀ operand ∈ clause, value ∈ meaning of (read operand) := by
  simp only [choiceOf, mem_meaning_operation_union, mem_meaning_operation_intersection,
    List.mem_map, exists_exists_and_eq_and, forall_exists_index, and_imp,
    forall_apply_eq_imp_iff₂]

theorem mem_meaning_choiceOf_singleton {clause : List Text} :
    value ∈ meaning of (choiceOf [clause]) ↔
      ∀ operand ∈ clause, value ∈ meaning of (read operand) := by
  simp [mem_meaning_choiceOf]

theorem meaning_choiceOf_flatMap {members : List TypeExpr}
    (same : ∀ member ∈ members, meaning of (choiceOf member.clauses) = meaning of member) :
    meaning of (choiceOf (members.flatMap clauses)) = meaning of (union members) := by
  ext value
  rw [mem_meaning_choiceOf, mem_meaning_union]
  constructor
  · rintro ⟨clause, here, all⟩
    obtain ⟨member, inside, clauses⟩ := List.mem_flatMap.mp here
    exact ⟨member, inside, same member inside ▸ mem_meaning_choiceOf.mpr ⟨clause, clauses, all⟩⟩
  · rintro ⟨member, inside, known⟩
    rw [← same member inside] at known
    obtain ⟨clause, here, all⟩ := mem_meaning_choiceOf.mp known
    exact ⟨clause, List.mem_flatMap.mpr ⟨member, inside, here⟩, all⟩

/-- Parentheses do not change the values of a member of an intersection. -/
theorem meaning_memberClauses {member : TypeExpr}
    (plain : everywhere hasPlainName member = true) :
    meaning of (choiceOf member.memberClauses) = meaning of (choiceOf member.clauses) := by
  rw [memberClauses]
  split
  · show meaning of (read (Text.parenthesize true member.render)) = _
    rw [read_parenthesize plain, read_render_eq_choiceOf plain]
  · rfl

end Values

section Groups

variable {type : TypeExpr} {members : List TypeExpr}

/-- Members of one clause each are one clause together. -/
theorem conjunctClauses_of_single (some : members ≠ [])
    (single : ∀ member ∈ members, ∃ clause, member.memberClauses = [clause]) :
    conjunctClauses members = [members.flatMap fun member => member.memberClauses.flatten] := by
  induction members with
  | nil => exact absurd rfl some
  | cons member rest ih =>
    obtain ⟨clause, eq⟩ := single member (by simp)
    by_cases last : rest = []
    · subst last
      simp [conjunctClauses_singleton, eq]
    · have later := ih last fun other there => single other (List.mem_cons_of_mem member there)
      rw [conjunctClauses_cons, later, eq, List.flatMap_cons, eq, List.flatten_singleton]
      rfl

/-- How tight clauses hold together: as a single operand, as a single clause, or not at all. -/
def Tight : Level → List (List Text) → Prop
  | .operand, clauses => ∃ operand, clauses = [[operand]]
  | .conjunction, clauses => ∃ clause, clauses = [clause]
  | .choice, _ => True

theorem tight_single (level : Level) (operand : Text) : Tight level [[operand]] := by
  cases level with
  | operand => exact ⟨operand, rfl⟩
  | conjunction => exact ⟨[operand], rfl⟩
  | choice => trivial

theorem Tight.exists_clause {level : Level} {clauses : List (List Text)}
    (tight : Tight level clauses) (other : level ≠ .choice) : ∃ clause, clauses = [clause] := by
  cases level with
  | operand =>
    obtain ⟨operand, rfl⟩ := tight
    exact ⟨[operand], rfl⟩
  | conjunction => exact tight
  | choice => exact absurd rfl other

theorem exists_memberClause (tight : Tight type.outermost type.clauses)
    (grouped : type.isChoice = true ∨ type.outermost ≠ .choice) :
    ∃ clause, type.memberClauses = [clause] := by
  rw [memberClauses]
  split
  · exact ⟨_, rfl⟩
  · next single => exact tight.exists_clause (grouped.resolve_left single)

theorem isGrouped_intersection (several : 1 < members.length)
    (grouped : isGrouped (intersection members) = true) :
    ∀ member ∈ members, member.isChoice = true ∨ member.outermost ≠ .choice := by
  have many : (members.length == 1) = false := by
    rw [beq_eq_false_iff_ne]
    omega
  simpa [isGrouped, many] using grouped

theorem outermost_of_isGrouped_array {element : TypeExpr} (simple : element.isCompound = false)
    (grouped : isGrouped (builtIn .array [element]) = true) : element.outermost = .operand := by
  simpa [isGrouped, simple] using grouped

/-- With the parentheses that its operators need, a type is as tight as its outermost operator. -/
theorem tight_clauses (grouped : everywhere isGrouped type = true) :
    Tight type.outermost type.clauses := by
  induction type using clauses_induction with
  | atom type atomic _ =>
    rw [clauses_of_isAtomic atomic]
    exact tight_single _ _
  | union members some ih =>
    match members with
    | [] => exact absurd rfl some
    | [member] =>
      rw [clauses_union some, List.flatMap_singleton]
      exact ih member (by simp) (everywhere_of_mem_parts grouped (List.mem_singleton_self member))
    | _ :: _ :: _ => trivial
  | intersection members some ih =>
    rw [clauses_intersection some]
    match members with
    | [] => exact absurd rfl some
    | [member] =>
      rw [conjunctClauses_singleton, memberClauses, outermost]
      split
      · exact tight_single _ _
      · exact ih member (by simp) (everywhere_of_mem_parts grouped (List.mem_singleton_self member))
    | first :: second :: rest =>
      have parenthesized := isGrouped_intersection (by simp) (check_of_everywhere grouped)
      have single := fun member here => exists_memberClause
        (ih member here (everywhere_of_mem_parts grouped here)) (parenthesized member here)
      exact ⟨_, conjunctClauses_of_single some single⟩
  | array element simple ih =>
    have inside := ih (everywhere_of_mem_parts grouped (List.mem_singleton_self element))
    rw [outermost_of_isGrouped_array simple (check_of_everywhere grouped)] at inside
    obtain ⟨operand, eq⟩ := inside
    rw [clauses_array simple, eq]
    exact tight_single _ (operand ++ arrayMark)

end Groups

section Basic

variable {type : TypeExpr}

theorem hasPlainName_of_isBasicNode {node : TypeExpr} (basic : isBasicNode node = true) :
    hasPlainName node = true := by
  cases node with
  | custom name => exact isPlainName_of_isIdentifier ((Bool.and_eq_true _ _).mp basic).1
  | primitive | union | intersection | builtIn => rfl

theorem plain_of_basic (basic : everywhere isBasicNode type = true) :
    everywhere hasPlainName type = true :=
  everywhere_mono (fun _ => hasPlainName_of_isBasicNode) basic

/-- No operand of a type without tuples is suffixes alone. -/
theorem visible_clauses (basic : everywhere isBasicNode type = true) :
    Filled (fun operand => (arraySuffixes operand.reverse).2 ≠ []) type.clauses := by
  refine filled_clauses (fun node known atomic => ?_) (fun node _ _ => suffixes_group_ne_nil _)
    (fun operand visible => by rwa [arraySuffixes_append]) basic
  have here := check_of_everywhere known
  match node with
  | primitive name => cases name <;> decide
  | custom name =>
    have word := ((Bool.and_eq_true _ _).mp here).1
    rw [render_custom (Text.solid_identifier word)]
    refine suffixes_ne_nil_of_not_suffix (Text.solid_identifier word).nonempty ?_
    rintro ⟨rest, rfl⟩
    exact Text.not_mem_identifier word (by decide : Text.isIdentifierPart ']' = false) (by simp)
  | union members | intersection members =>
    rw [isBasicNode, List.isEmpty_iff.mp atomic] at here
    cases here
  | builtIn .array [element] =>
    have compound : element.isCompound = true := atomic
    rw [render_array, arraySuffixes_append, compound]
    exact suffixes_group_ne_nil _
  | builtIn .array [] | builtIn .array (_ :: _ :: _) => cases here
  | builtIn .tuple _ | builtIn .set _ | builtIn .map _ | builtIn .object _ | builtIn .generic _ =>
    cases here

theorem read_render_array_compound (plain : everywhere hasPlainName type = true)
    (compound : type.isCompound = true) :
    read (builtIn .array [type]).render = builtIn .array [read type.render] := by
  rw [render_array, compound, read_group_suffixed (nested_render plain)]

variable {Value : Type u} {of : Interpretation Value}

/-- What is written as one operand keeps its meaning if its parts do. -/
theorem meaning_read_atomic (basic : everywhere isBasicNode type = true)
    (atomic : type.isAtomic = true)
    (inside : ∀ part ∈ type.parts, meaning of (read part.render) = meaning of part) :
    meaning of (read type.render) = meaning of type := by
  have here := check_of_everywhere basic
  match type with
  | primitive name =>
    rw [render, read_of_isPlainName (by cases name <;> decide), ofWord,
      Primitive.ofKeyword?_keyword]
  | custom name =>
    simp only [isBasicNode, Bool.and_eq_true, Bool.not_eq_true'] at here
    rw [render_custom (Text.solid_identifier here.1),
      read_of_isPlainName (isPlainName_of_isIdentifier here.1), ofWord_eq_custom_iff.mpr here.2]
  | union members | intersection members =>
    rw [isBasicNode, List.isEmpty_iff.mp atomic] at here
    cases here
  | builtIn .array [element] =>
    have member : element ∈ (builtIn .array [element]).parts := List.mem_singleton_self element
    have plain := plain_of_basic (everywhere_of_mem_parts basic member)
    rw [read_render_array_compound plain atomic, meaning_array, meaning_array,
      inside element member]
  | builtIn .array [] | builtIn .array (_ :: _ :: _) => cases here
  | builtIn .tuple _ | builtIn .set _ | builtIn .map _ | builtIn .object _ | builtIn .generic _ =>
    cases here

/-- Clauses keep the meaning of a type that was written with the parentheses it needs. The tightness
of the parts is what makes a member of an intersection one clause, and an element one operand. -/
theorem meaning_choiceOf_clauses (basic : everywhere isBasicNode type = true)
    (grouped : everywhere isGrouped type = true) :
    meaning of (choiceOf type.clauses) = meaning of type := by
  induction type using clauses_induction with
  | atom type atomic ih =>
    rw [clauses_of_isAtomic atomic]
    refine meaning_read_atomic basic atomic fun part here => ?_
    have known := everywhere_of_mem_parts basic here
    rw [read_render_eq_choiceOf (plain_of_basic known)]
    exact ih part here known (everywhere_of_mem_parts grouped here)
  | union members some ih =>
    rw [clauses_union some]
    exact meaning_choiceOf_flatMap fun member here =>
      ih member here (everywhere_of_mem_parts basic here) (everywhere_of_mem_parts grouped here)
  | intersection members some ih =>
    rw [clauses_intersection some]
    have same : ∀ member ∈ members,
        meaning of (choiceOf member.memberClauses) = meaning of member := by
      intro member here
      have known := everywhere_of_mem_parts basic here
      rw [meaning_memberClauses (plain_of_basic known)]
      exact ih member here known (everywhere_of_mem_parts grouped here)
    ext value
    rw [mem_meaning_intersection]
    by_cases several : 1 < members.length
    · have parenthesized := isGrouped_intersection several (check_of_everywhere grouped)
      have single := fun member here => exists_memberClause
        (tight_clauses (everywhere_of_mem_parts grouped here)) (parenthesized member here)
      rw [conjunctClauses_of_single some single, mem_meaning_choiceOf_singleton,
        List.forall_mem_flatMap]
      refine forall₂_congr fun member here => ?_
      obtain ⟨clause, eq⟩ := single member here
      rw [← same member here, eq, mem_meaning_choiceOf_singleton, List.flatten_singleton]
    · obtain ⟨member, rfl⟩ := (eq_nil_or_singleton (Nat.le_of_not_lt several)).resolve_left some
      rw [conjunctClauses_singleton, same member (by simp), List.forall_mem_singleton]
  | array element simple ih =>
    have member : element ∈ (builtIn .array [element]).parts := List.mem_singleton_self element
    have known := everywhere_of_mem_parts basic member
    have parenthesized := everywhere_of_mem_parts grouped member
    have tight := tight_clauses parenthesized
    rw [outermost_of_isGrouped_array simple (check_of_everywhere grouped)] at tight
    obtain ⟨operand, eq⟩ := tight
    have fits := fits_clauses (plain_of_basic known)
    have visible := visible_clauses known
    have inside := ih known parenthesized
    rw [eq] at fits visible inside
    have value := (fits.each [operand] (by simp) operand (by simp)).read_suffixed
      (visible.each [operand] (by simp) operand (by simp))
    rw [clauses_array simple, eq]
    show meaning of (read (operand ++ arrayMark)) = _
    rw [value, meaning_array, meaning_array]
    exact congrArg (fun set => of.container .array [set]) inside

/-- What is read from a written type means the same, if the type was written with the parentheses
that its operators need. -/
theorem meaning_read_render (basic : everywhere isBasicNode type = true)
    (grouped : everywhere isGrouped type = true) :
    meaning of (read type.render) = meaning of type := by
  rw [read_render_eq_choiceOf (plain_of_basic basic)]
  exact meaning_choiceOf_clauses basic grouped

end Basic

/-- Every leaf denotes its name, and a container what is missing from one of its arguments. -/
def Interpretation.literal : Interpretation Text where
  primitive name := {name.keyword}
  custom name := {name}
  container _ sets := {value | ∃ set ∈ sets, value ∉ set}

/-- An array of an intersection with a union in parentheses comes back with its meaning. -/
theorem meaning_read_render_array_of_intersection :
    everywhere isBasicNode (builtIn .array [intersection [
        union [custom "A".toText, primitive .null], union [custom "B".toText]]]) = true ∧
      everywhere isGrouped (builtIn .array [intersection [
        union [custom "A".toText, primitive .null], union [custom "B".toText]]]) = true ∧
      meaning .literal (read (builtIn .array [intersection [
        union [custom "A".toText, primitive .null], union [custom "B".toText]]]).render) =
        meaning .literal (builtIn .array [intersection [
          union [custom "A".toText, primitive .null], union [custom "B".toText]]]) :=
  ⟨by decide, by decide, meaning_read_render (by decide) (by decide)⟩

/-- A union that is the only member of a union stands in an intersection without parentheses: the
text `A | B & C` gives the values of `A` to an intersection with `C`. -/
theorem meaning_read_render_ne :
    everywhere isBasicNode (intersection [union [union [custom "A".toText, custom "B".toText]],
        custom "C".toText]) = true ∧
      meaning .literal (read (intersection [union [union [custom "A".toText, custom "B".toText]],
          custom "C".toText]).render) ≠
        meaning .literal (intersection [union [union [custom "A".toText, custom "B".toText]],
          custom "C".toText]) := by
  refine ⟨by decide, fun same => ?_⟩
  have inside : "A".toText ∈ meaning .literal (read (intersection
      [union [union [custom "A".toText, custom "B".toText]], custom "C".toText]).render) := by
    rw [read_render_eq_choiceOf (by decide), mem_meaning_choiceOf]
    refine ⟨["A".toText], by decide, fun operand here => ?_⟩
    rw [List.mem_singleton.mp here, read_of_isPlainName (by decide)]
    rfl
  rw [same, mem_meaning_intersection] at inside
  have name : "A".toText = "C".toText := inside (custom "C".toText) (by simp)
  exact absurd name (by decide)

end SchemaBoard.TypeExpr
