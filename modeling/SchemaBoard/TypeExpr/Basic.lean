import SchemaBoard.Text.Basic

set_option autoImplicit false

/-!
Type expressions: primitives, named references, unions, intersections and containers with arguments.
-/
namespace SchemaBoard

inductive Primitive where
  | string
  | number
  | boolean
  | null
  | undefined
  | any
  | unknown
deriving DecidableEq, Repr

namespace Primitive

def all : List Primitive := [string, number, boolean, null, undefined, any, unknown]

def keyword : Primitive → Text
  | string => "string".toText
  | number => "number".toText
  | boolean => "boolean".toText
  | null => "null".toText
  | undefined => "undefined".toText
  | any => "any".toText
  | unknown => "unknown".toText

def ofKeyword? (text : Text) : Option Primitive := all.find? fun p => p.keyword == text

theorem ofKeyword?_keyword (p : Primitive) : ofKeyword? p.keyword = some p := by
  cases p <;> decide

theorem ofKeyword?_eq_some {text : Text} {p : Primitive} (h : ofKeyword? text = some p) :
    p.keyword = text := by
  simpa using List.find?_some h

end Primitive

inductive Container where
  | array
  | tuple
  | set
  | map
  | object
  | generic
deriving DecidableEq, Repr

namespace Container

def all : List Container := [array, tuple, set, map, object, generic]

def name : Container → Text
  | array => "Array".toText
  | tuple => "Tuple".toText
  | set => "Set".toText
  | map => "Map".toText
  | object => "Object".toText
  | generic => "Generic".toText

def ofName? (text : Text) : Option Container := all.find? fun c => c.name == text

end Container

/-- The declared type of a member. -/
inductive TypeExpr where
  /-- A primitive type. -/
  | primitive (name : Primitive)
  /-- A reference to a declaration by its name. -/
  | custom (name : Text)
  /-- The union of the members, in order. -/
  | union (members : List TypeExpr)
  /-- The intersection of the members, in order. -/
  | intersection (members : List TypeExpr)
  /-- A container applied to its arguments. -/
  | builtIn (head : Container) (arguments : List TypeExpr)
deriving Repr

namespace TypeExpr

/-- A primitive for its keyword, a reference for every other name. -/
def leaf (name : Text) : TypeExpr :=
  match Primitive.ofKeyword? name with
  | some p => primitive p
  | none => custom name

/-- Whether the type is a union or an intersection of more than one member. -/
def isCompound : TypeExpr → Bool
  | union members => 1 < members.length
  | intersection members => 1 < members.length
  | _ => false

/-- Whether the type is a union of more than one member. -/
def isChoice : TypeExpr → Bool
  | union members => 1 < members.length
  | _ => false

mutual

def same : TypeExpr → TypeExpr → Bool
  | primitive p, primitive q => p == q
  | custom a, custom b => a == b
  | union xs, union ys => sameAll xs ys
  | intersection xs, intersection ys => sameAll xs ys
  | builtIn c xs, builtIn d ys => c == d && sameAll xs ys
  | _, _ => false

def sameAll : List TypeExpr → List TypeExpr → Bool
  | [], [] => true
  | x :: xs, y :: ys => same x y && sameAll xs ys
  | _, _ => false

end

mutual

theorem eq_of_same : ∀ {x y : TypeExpr}, same x y = true → x = y
  | primitive _, y, h => by cases y <;> simp_all [same]
  | custom _, y, h => by cases y <;> simp_all [same]
  | union xs, y, h => by
    cases y <;> simp only [same, Bool.false_eq_true] at h
    rw [eq_of_sameAll h]
  | intersection xs, y, h => by
    cases y <;> simp only [same, Bool.false_eq_true] at h
    rw [eq_of_sameAll h]
  | builtIn _ xs, y, h => by
    cases y <;> simp only [same, Bool.false_eq_true, Bool.and_eq_true, beq_iff_eq] at h
    rw [h.1, eq_of_sameAll h.2]

theorem eq_of_sameAll : ∀ {xs ys : List TypeExpr}, sameAll xs ys = true → xs = ys
  | [], [], _ => rfl
  | [], _ :: _, h => by simp [sameAll] at h
  | _ :: _, [], h => by simp [sameAll] at h
  | x :: xs, y :: ys, h => by
    simp only [sameAll, Bool.and_eq_true] at h
    rw [eq_of_same h.1, eq_of_sameAll h.2]

end

mutual

theorem same_self : ∀ x : TypeExpr, same x x = true
  | primitive _ => by simp [same]
  | custom _ => by simp [same]
  | union xs => by simp [same, sameAll_self xs]
  | intersection xs => by simp [same, sameAll_self xs]
  | builtIn _ xs => by simp [same, sameAll_self xs]

theorem sameAll_self : ∀ xs : List TypeExpr, sameAll xs xs = true
  | [] => rfl
  | x :: xs => by simp [sameAll, same_self x, sameAll_self xs]

end

theorem same_iff {x y : TypeExpr} : same x y = true ↔ x = y :=
  ⟨eq_of_same, fun h => h ▸ same_self x⟩

instance : DecidableEq TypeExpr := fun _ _ => decidable_of_iff _ same_iff

end TypeExpr
end SchemaBoard
