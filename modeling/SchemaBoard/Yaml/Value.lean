import SchemaBoard.Yaml.Atom

set_option autoImplicit false

/-!
What a document says: values and the collections made of them.
-/
namespace SchemaBoard.Yaml

inductive Value where
  | atom (value : Atom)
  | list (items : List Value)
  | pair (first second : Value)
  /-- Entries in the order of their keys' first occurrences; no two keys are the same. -/
  | mapping (entries : List (Atom × Value))
  /-- Members in the order of their first occurrences. -/
  | set (members : List Atom)
  /-- A collection that stands inside itself, at the place where it does. -/
  | cycle
deriving Repr

def Atom.isText (wanted : Text) : Atom → Bool
  | text value => value == wanted
  | _ => false

def lookupText (key : Text) (entries : List (Atom × Value)) : Option Value :=
  (entries.find? fun entry => entry.1.isText key).map Prod.snd

/-- The entries with the value of a key set. A key that is there keeps its place. -/
def assign {α : Type} (key : Atom) (value : α) : List (Atom × α) → List (Atom × α)
  | [] => [(key, value)]
  | (other, old) :: rest =>
    if other.isSame key then (other, value) :: rest else (other, old) :: assign key value rest

end SchemaBoard.Yaml
