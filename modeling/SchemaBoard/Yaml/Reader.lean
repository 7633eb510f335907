import SchemaBoard.Yaml.Meaning

set_option autoImplicit false

/-!
From a text to the value of its document. Meanings refer to each other by place; here they are
unfolded into one value, in which a collection that stands inside itself is cut.
-/
namespace SchemaBoard.Yaml

/-- The values found so far, by place. A node that is being looked at counts as a cycle. -/
abbrev Found := Array (Option Value)

/-- The value of a node. Every node is unfolded once. -/
def unfold (meanings : Array (Option Meaning)) : (fuel place : Nat) → Found → Value × Found
  | 0, _, found => (.cycle, found)
  | fuel + 1, place, found =>
    match (found[place]?).join with
    | some value => (value, found)
    | none =>
      let entered := found.setIfInBounds place (some .cycle)
      let (value, found) : Value × Found :=
        match (meanings[place]?).join with
        | none => (.cycle, entered)
        | some (.atom value) => (.atom value, entered)
        | some (.set members) => (.set members, entered)
        | some (.list items) =>
          let (items, found) := items.foldl (fun (items, found) item =>
            let (value, found) := unfold meanings fuel item found
            (value :: items, found)) (([], entered) : List Value × Found)
          (.list items.reverse, found)
        | some (.pairs entries) =>
          let (items, found) := entries.foldl (fun (items, found) entry =>
            let (first, found) := unfold meanings fuel entry.1 found
            let (second, found) := unfold meanings fuel entry.2 found
            (.pair first second :: items, found)) (([], entered) : List Value × Found)
          (.list items.reverse, found)
        | some (.mapping entries) =>
          let (entries, found) := entries.foldl (fun (entries, found) entry =>
            let (value, found) := unfold meanings fuel entry.2 found
            ((entry.1, value) :: entries, found)) (([], entered) : List (Atom × Value) × Found)
          (.mapping entries.reverse, found)
      (value, found.setIfInBounds place (some value))

def Document.value (document : Document) : Except Failure Value := do
  let meanings ← document.meanings
  let size := document.nodes.size
  return (unfold meanings (size + 1) document.root (Array.replicate size none)).1

/-- The value of a text with one document. A text without one has the value of nothing. -/
def Value.read (text : Text) : Except Failure Value := do
  match ← Document.ofTokens (Token.ofText text) with
  | some document => document.value
  | none => return .atom .null

end SchemaBoard.Yaml
