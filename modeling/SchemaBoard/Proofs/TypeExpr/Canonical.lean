import SchemaBoard.Text.Identifier
import SchemaBoard.TypeExpr.Reader

set_option autoImplicit false

/-!
Canonical types. A property of single nodes is asked of every node of a tree; canonical types are
those whose nodes all have the shape that reading gives them.
-/
namespace SchemaBoard.TypeExpr

/-- The types that a type is directly made of. -/
def parts : TypeExpr → List TypeExpr
  | primitive _ | custom _ => []
  | union members | intersection members => members
  | builtIn _ arguments => arguments

theorem sizeOf_lt_of_mem_parts {type part : TypeExpr} (member : part ∈ type.parts) :
    sizeOf part < sizeOf type := by
  cases type with
  | primitive | custom => cases member
  | union members =>
    have inside := List.sizeOf_lt_of_mem member
    simp only [parts, union.sizeOf_spec] at inside ⊢
    omega
  | intersection members =>
    have inside := List.sizeOf_lt_of_mem member
    simp only [parts, intersection.sizeOf_spec] at inside ⊢
    omega
  | builtIn head arguments =>
    have inside := List.sizeOf_lt_of_mem member
    simp only [parts, builtIn.sizeOf_spec] at inside ⊢
    omega

/-- What passes from the parts of a type to the type holds of all types. -/
@[elab_as_elim]
theorem parts_induction {motive : TypeExpr → Prop} (type : TypeExpr)
    (step : ∀ type, (∀ part ∈ type.parts, motive part) → motive type) : motive type :=
  step type fun part member =>
    have := sizeOf_lt_of_mem_parts member
    parts_induction part step
termination_by sizeOf type

mutual

def everywhere (check : TypeExpr → Bool) : TypeExpr → Bool
  | primitive name => check (primitive name)
  | custom name => check (custom name)
  | union members => check (union members) && everywhereIn check members
  | intersection members => check (intersection members) && everywhereIn check members
  | builtIn head arguments => check (builtIn head arguments) && everywhereIn check arguments

def everywhereIn (check : TypeExpr → Bool) : List TypeExpr → Bool
  | [] => true
  | type :: rest => everywhere check type && everywhereIn check rest

end

variable {check : TypeExpr → Bool}

theorem everywhereIn_iff {types : List TypeExpr} :
    everywhereIn check types = true ↔ ∀ type ∈ types, everywhere check type = true := by
  induction types with
  | nil => simp [everywhereIn]
  | cons type rest ih => simp [everywhereIn, ih]

theorem everywhere_iff {type : TypeExpr} :
    everywhere check type = true ↔
      check type = true ∧ ∀ part ∈ type.parts, everywhere check part = true := by
  cases type <;> simp [everywhere, parts, everywhereIn_iff]

theorem check_of_everywhere {type : TypeExpr} (all : everywhere check type = true) :
    check type = true :=
  (everywhere_iff.mp all).1

theorem everywhere_of_mem_parts {type part : TypeExpr} (all : everywhere check type = true)
    (member : part ∈ type.parts) : everywhere check part = true :=
  (everywhere_iff.mp all).2 part member

theorem everywhere_true (type : TypeExpr) : everywhere (fun _ => true) type = true := by
  induction type using parts_induction with
  | step type ih => exact everywhere_iff.mpr ⟨rfl, ih⟩

/-- A check that implies another one node by node implies it everywhere. -/
theorem everywhere_mono {other : TypeExpr → Bool} {type : TypeExpr}
    (weaker : ∀ node, check node = true → other node = true)
    (all : everywhere check type = true) : everywhere other type = true := by
  induction type using parts_induction with
  | step type ih =>
    obtain ⟨here, inside⟩ := everywhere_iff.mp all
    exact everywhere_iff.mpr
      ⟨weaker type here, fun part member => ih part member (inside part member)⟩

/-- The characters that structure a written type. -/
def marks : Text := "<>()[]|&,".toText

/-- Whether a name stands for itself in a written type: there is something, it is trimmed, and it
holds none of the structuring characters. -/
def isPlainName (name : Text) : Bool :=
  !name.isEmpty && Text.trim name == name && name.all fun c => !marks.contains c

/-- Whether a node names nothing, or names it plainly. -/
def hasPlainName : TypeExpr → Bool
  | custom name => isPlainName name
  | _ => true

/-- Whether a node names nothing, or names it with an identifier. -/
def hasIdentifier : TypeExpr → Bool
  | custom name => Text.isIdentifier name
  | _ => true

/-- Whether a name on its own is read as something other than a reference. -/
def isReserved (name : Text) : Bool :=
  (Primitive.ofKeyword? name).isSome || name == "Object".toText || name == "Map".toText

def isUnion : TypeExpr → Bool
  | union _ => true
  | _ => false

def isIntersection : TypeExpr → Bool
  | intersection _ => true
  | _ => false

/-- Whether a node has the shape that reading gives it: no reserved name is a reference, an operator
has two operands at least and none of its own kind, and a container has the arguments that its
written form shows. No array holds empty tuples, and no container is generic. -/
def isCanonicalNode : TypeExpr → Bool
  | primitive _ => true
  | custom name => !isReserved name
  | union members => 1 < members.length && members.all fun member => !member.isUnion
  | intersection members => 1 < members.length && members.all fun member => !member.isIntersection
  | builtIn .array [element] => element != builtIn .tuple []
  | builtIn .array _ => false
  | builtIn .tuple _ => true
  | builtIn .set arguments => arguments.length == 1
  | builtIn .map arguments => arguments.length == 2
  | builtIn .object arguments => arguments.length == 2
  | builtIn .generic _ => false

/-- Whether a node has as many parts as reading can give it. -/
def hasReadArity : TypeExpr → Bool
  | primitive _ | custom _ => true
  | union members | intersection members => 1 < members.length
  | builtIn .array arguments | builtIn .set arguments => arguments.length ≤ 1
  | builtIn .tuple _ => true
  | builtIn .map arguments | builtIn .object arguments =>
    arguments.length == 0 || arguments.length == 2
  | builtIn .generic _ => false

theorem eq_nil_or_singleton {arguments : List TypeExpr} (few : arguments.length ≤ 1) :
    arguments = [] ∨ ∃ only, arguments = [only] := by
  cases arguments with
  | nil => exact Or.inl rfl
  | cons only rest =>
    have none : rest.length = 0 := Nat.le_zero.mp (Nat.le_of_succ_le_succ few)
    exact Or.inr ⟨only, by rw [List.eq_nil_of_length_eq_zero none]⟩

theorem eq_nil_or_pair {arguments : List TypeExpr}
    (arity : (arguments.length == 0 || arguments.length == 2) = true) :
    arguments = [] ∨ ∃ one other, arguments = [one, other] := by
  rcases (Bool.or_eq_true _ _).mp arity with none | two
  · exact Or.inl (List.eq_nil_of_length_eq_zero (beq_iff_eq.mp none))
  · have pair : arguments.length = 2 := beq_iff_eq.mp two
    cases arguments with
    | nil => cases pair
    | cons one rest =>
      obtain ⟨other, rfl⟩ := List.length_eq_one_iff.mp (Nat.succ.inj pair)
      exact Or.inr ⟨one, other, rfl⟩

theorem hasReadArity_of_isCanonicalNode {node : TypeExpr}
    (canonical : isCanonicalNode node = true) : hasReadArity node = true := by
  match node with
  | primitive _ | custom _ => rfl
  | union members => simp_all [isCanonicalNode, hasReadArity]
  | intersection members => simp_all [isCanonicalNode, hasReadArity]
  | builtIn .array [_] => rfl
  | builtIn .array [] | builtIn .array (_ :: _ :: _) => cases canonical
  | builtIn .tuple _ => rfl
  | builtIn .set arguments => simp_all [isCanonicalNode, hasReadArity]
  | builtIn .map arguments => simp_all [isCanonicalNode, hasReadArity]
  | builtIn .object arguments => simp_all [isCanonicalNode, hasReadArity]
  | builtIn .generic _ => cases canonical

end SchemaBoard.TypeExpr
