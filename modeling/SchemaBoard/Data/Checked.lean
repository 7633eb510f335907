import SchemaBoard.Data.Basic

set_option autoImplicit false

/-!
Checking untyped input. All parts of a value are checked, and the issues of the parts are collected
in the order of the parts.
-/
namespace SchemaBoard

/-- What is wrong with a value. -/
inductive Fault where
  /-- A required field is absent. -/
  | missing
  /-- An object with known fields was expected. -/
  | notObject
  /-- A type was expected, and this is no object. -/
  | notType
  /-- A list was expected. -/
  | notList
  /-- A mapping was expected. -/
  | notMapping
  /-- A text was expected. -/
  | notText
  /-- The text is none of the allowed words. -/
  | notAWord
  /-- A type does not say of which form it is. -/
  | formAbsent
  /-- A type says that it is of a form that does not exist. -/
  | formUnknown
  /-- The value is of no kind that stands for a truth value. -/
  | notFlag
  /-- The value stands for no truth value. -/
  | flagUnreadable
  /-- The value is of no kind that stands for an integer. -/
  | notInteger
  /-- The text is no integer. -/
  | integerUnreadable
  /-- The number is whole, but too large for its kind. -/
  | integerTooLarge
  /-- The number is not whole. -/
  | notWhole
  /-- The number is not finite. -/
  | notFinite
  /-- The value is of no kind that stands for a number. -/
  | notNumber
  /-- The text is no number. -/
  | numberUnreadable
deriving DecidableEq, Repr

def Fault.code : Fault → Text
  | missing => "missing".toText
  | notObject => "model_type".toText
  | notType => "model_attributes_type".toText
  | notList => "list_type".toText
  | notMapping => "dict_type".toText
  | notText => "string_type".toText
  | notAWord => "enum".toText
  | formAbsent => "union_tag_not_found".toText
  | formUnknown => "union_tag_invalid".toText
  | notFlag => "bool_type".toText
  | flagUnreadable => "bool_parsing".toText
  | notInteger => "int_type".toText
  | integerUnreadable => "int_parsing".toText
  | integerTooLarge => "int_parsing_size".toText
  | notWhole => "int_from_float".toText
  | notFinite => "finite_number".toText
  | notNumber => "float_type".toText
  | numberUnreadable => "float_parsing".toText

/-- One step from a value to a part of it. -/
inductive PathStep where
  /-- The field of that name. -/
  | field (name : Text)
  /-- The item at that index. -/
  | index (i : Nat)
deriving DecidableEq, Repr

/-- A fault and the way to the part that has it. -/
structure Issue where
  fault : Fault
  path : List PathStep
deriving DecidableEq, Repr

/-- The outcome of a check: the typed value, or everything that is wrong. -/
inductive Checked (α : Type) where
  | valid (value : α)
  | faulty (issues : List Issue)
deriving DecidableEq, Repr

namespace Checked

variable {α β : Type}

def fault (f : Fault) : Checked α := faulty [⟨f, []⟩]

/-- The outcome for a part, as seen from the value that the part belongs to. -/
def within (step : PathStep) : Checked α → Checked α
  | valid value => valid value
  | faulty issues => faulty (issues.map fun issue => ⟨issue.fault, step :: issue.path⟩)

def map (f : α → β) : Checked α → Checked β
  | valid value => valid (f value)
  | faulty issues => faulty issues

/-- Both outcomes together; the issues of the first come first. -/
def both (f : Checked (α → β)) (x : Checked α) : Checked β :=
  match f, x with
  | valid f, valid value => valid (f value)
  | valid _, faulty issues => faulty issues
  | faulty issues, valid _ => faulty issues
  | faulty first, faulty second => faulty (first ++ second)

instance : Functor Checked where
  map := map

instance : Applicative Checked where
  pure := valid
  seq f x := both f (x ())

theorem within_eq_valid_iff {step : PathStep} {outcome : Checked α} {value : α} :
    outcome.within step = valid value ↔ outcome = valid value := by
  cases outcome with
  | valid found => rfl
  | faulty issues => simp only [within, reduceCtorEq]

theorem map_eq_valid_iff {f : α → β} {outcome : Checked α} {result : β} :
    f <$> outcome = valid result ↔ ∃ value, outcome = valid value ∧ f value = result := by
  cases outcome with
  | valid value =>
    change valid (f value) = valid result ↔ _
    simp only [valid.injEq, exists_eq_left']
  | faulty issues =>
    change faulty issues = valid result ↔ _
    simp only [reduceCtorEq, false_and, exists_false]

/-- Two outcomes together give a value if both do. -/
theorem seq_eq_valid_iff {f : Checked (α → β)} {outcome : Checked α} {result : β} :
    f <*> outcome = valid result ↔
      ∃ g value, f = valid g ∧ outcome = valid value ∧ g value = result := by
  change both f outcome = valid result ↔ _
  cases f with
  | valid g =>
    cases outcome with
    | valid value => simp only [both, valid.injEq, exists_eq_left', exists_and_left]
    | faulty issues => simp only [both, reduceCtorEq, false_and, and_false, exists_false]
  | faulty first => cases outcome <;> simp only [both, reduceCtorEq, false_and, exists_false]

/-- The outcomes for a list of parts, each at its index; the first of them stands at `start`. -/
def sequence : Nat → List (Checked α) → Checked (List α)
  | _, [] => valid []
  | start, first :: rest =>
    List.cons <$> first.within (.index start) <*> sequence (start + 1) rest

/-- Every value of a list that passes comes from a part that does. -/
theorem valid_mem_of_sequence {start : Nat} {outcomes : List (Checked α)} {values : List α}
    (passed : sequence start outcomes = valid values) {value : α} (member : value ∈ values) :
    valid value ∈ outcomes := by
  induction outcomes generalizing start values with
  | nil =>
    cases passed
    cases member
  | cons outcome rest ih =>
    obtain ⟨_, others, first, later, rfl⟩ := seq_eq_valid_iff.mp passed
    obtain ⟨here, found, rfl⟩ := map_eq_valid_iff.mp first
    rcases List.mem_cons.mp member with rfl | behind
    · rw [within_eq_valid_iff.mp found]
      exact List.mem_cons_self
    · exact List.mem_cons_of_mem _ (ih later behind)

def sequenceNamed : List (Text × Checked α) → Checked (List (Text × α))
  | [] => valid []
  | (name, first) :: rest =>
    (fun value others => (name, value) :: others) <$> first.within (.field name)
      <*> sequenceNamed rest

end Checked

namespace Data

variable {α : Type}

def required (fields : Fields) (name : Text) (check : Data → Checked α) : Checked α :=
  (match fields.lookup name with
    | some value => check value
    | none => .fault .missing).within (.field name)

def withDefault (fields : Fields) (name : Text) (default : α) (check : Data → Checked α) :
    Checked α :=
  match fields.lookup name with
  | some value => (check value).within (.field name)
  | none => .valid default

def ifPresent (fields : Fields) (name : Text) (check : Data → Checked α) : Checked (Option α) :=
  withDefault fields name none fun value => some <$> check value

def asObject (data : Data) (check : Fields → Checked α) : Checked α :=
  match data with
  | record fields => check fields
  | _ => .fault .notObject

def asList (check : Data → Checked α) : Data → Checked (List α)
  | list items => .sequence 0 (items.map check)
  | _ => .fault .notList

def asMapping (check : Data → Checked α) : Data → Checked (List (Text × α))
  | record fields => .sequenceNamed (fields.map fun (name, value) => (name, check value))
  | _ => .fault .notMapping

def asText : Data → Checked Text
  | text value => .valid value
  | _ => .fault .notText

def asTextOrNull : Data → Checked (Option Text)
  | null => .valid none
  | text value => .valid (some value)
  | _ => .fault .notText

def asWord (find : Text → Option α) : Data → Checked α
  | text value =>
    match find value with
    | some found => .valid found
    | none => .fault .notAWord
  | _ => .fault .notAWord

end Data
end SchemaBoard
