import SchemaBoard.Yaml.Node
import SchemaBoard.Yaml.Number
import SchemaBoard.Yaml.Value

set_option autoImplicit false

/-!
The meaning of nodes. A collection waits until what stands around it has its meaning, so the first
failure in this order is the one that is told. Every node gets its meaning once, also if it stands
inside itself.
-/
namespace SchemaBoard.Yaml

/-- What a node means. Parts are given by their places. -/
inductive Meaning where
  | atom (value : Atom)
  | list (items : List Nat)
  | pairs (entries : List (Nat × Nat))
  | mapping (entries : List (Atom × Nat))
  | set (members : List Atom)

namespace Document

/-- The entries of a mapping; other nodes have none. -/
def entries (document : Document) (place : Nat) : List (Nat × Nat) :=
  match (document.node place).content with
  | .mapping entries => entries
  | _ => []

def withEntries (place : Nat) (entries : List (Nat × Nat)) (document : Document) : Document :=
  { document with
    nodes := document.nodes.modify place fun node => { node with content := .mapping entries } }

def hasTag (tag : Tag) (document : Document) (place : Nat) : Bool :=
  (document.node place).tag = tag

/-- The document in which the keys that stand for the mapping around them are plain texts. -/
def withPlainKeys (keys : List Nat) (document : Document) : Document :=
  { document with
    nodes := keys.foldl (fun nodes key =>
      nodes.modify key fun node =>
        if node.tag = .default then { node with tag := .text } else node) document.nodes }

/-- The text of a node. A mapping has the text of the entry that stands for it. -/
def textOf (document : Document) : Nat → Nat → Except Failure Text
  | 0, _ => .error .malformed
  | fuel + 1, place =>
    match (document.node place).content with
    | .scalar text => .ok text
    | .sequence _ => .error .malformed
    | .mapping entries =>
      match entries.find? fun entry => document.hasTag .default entry.1 with
      | some (_, value) => document.textOf fuel value
      | none => .error .malformed

def flagOf (text : Text) : Except Failure Bool :=
  let word := text.lower
  let isOne := fun (known : List String) => known.any fun w => w.toText == word
  if isOne ["yes", "true", "on"] then .ok true
  else if isOne ["no", "false", "off"] then .ok false
  else .error (.notFlag word)

/-- The date or moment that is written in a text. -/
def momentOf (text : Text) : Except Failure Atom :=
  match writtenDay? 1 (withoutFinalBreak text) with
  | some (date, []) => date.check.map .date
  | some (date, rest) =>
    match writtenTime? rest with
    | some time => (Moment.ofWritten date time).map .moment
    | none => .error .notMoment
  | none => .error .notMoment

def atomOf (document : Document) (place : Nat) : Except Failure Atom := do
  let node := document.node place
  let text ← document.textOf (document.nodes.size + 1) place
  match node.tag with
  | .null => return .null
  | .flag => return .flag (← flagOf text)
  | .integer => return .integer (← integerOf text)
  | .number =>
    match ← numberOf text with
    | some x => return if x.isNaN then .nan (some place) else .number x
    | none => return .nan none
  | .text => return .text text
  | .binary =>
    match bytesOf? text with
    | some bytes => return .bytes bytes
    | none => .error .malformed
  | .moment =>
    match node.content with
    | .scalar text => momentOf text
    | _ => .error .momentInMapping
  | _ => .error .malformed

def entryCount (document : Document) : Nat :=
  document.nodes.foldl (fun count node =>
    match node.content with
    | .mapping entries => count + entries.length
    | _ => count) 0

/-- Puts the entries that are merged into a mapping in front of its own, after those in `merged`.
The mappings that they come from are flattened first. Of a sequence of mappings, the entries of the
last one come first, so that those of the first one prevail. Each call takes out one merge, so
`fuel` need not exceed the number of entries. -/
def flatten : (fuel place : Nat) → (merged : List (Nat × Nat)) → Document →
    Except Failure Document
  | 0, _, _, _ => .error .malformed
  | fuel + 1, place, merged, document => do
    let entries := document.entries place
    match entries.span fun entry => !document.hasTag .merge entry.1 with
    | (_, []) =>
      let document := document.withPlainKeys (entries.map Prod.fst)
      return document.withEntries place (merged ++ entries)
    | (before, (_, source) :: after) =>
      let document := document.withEntries place (before ++ after)
      match (document.node source).content with
      | .mapping _ =>
        let document ← flatten fuel source [] document
        flatten fuel place (merged ++ document.entries source) document
      | .sequence items =>
        let (found, document) ← items.foldlM (fun (found, document) item =>
          match (document.node item).content with
          | .mapping _ => do
            let document ← flatten fuel item [] document
            return (document.entries item ++ found, document)
          | _ => .error .malformed) (([], document) : List (Nat × Nat) × Document)
        flatten fuel place (merged ++ found) document
      | .scalar _ => .error .malformed

end Document

/-- How far the nodes of a document have got their meaning. -/
structure Reading where
  document : Document
  /-- The meanings by place. That of a collection is empty at first. -/
  meanings : Array (Option Meaning)
  /-- The collections that wait to be filled, in order. -/
  waiting : List Nat := []

namespace Reading

/-- The meaning that a collection has before it is filled. -/
def emptyMeaning? : Tag → Option Meaning
  | .sequence => some (.list [])
  | .mapping => some (.mapping [])
  | .set => some (.set [])
  | .orderedMapping => some (.pairs [])
  | .pairs => some (.pairs [])
  | _ => none

def define (place : Nat) (meaning : Meaning) (reading : Reading) : Reading :=
  { reading with meanings := reading.meanings.setIfInBounds place (some meaning) }

def meaning? (place : Nat) (reading : Reading) : Option Meaning :=
  (reading.meanings[place]?).join

/-- Meets a node. A collection that is met for the first time has to wait. -/
def meet (place : Nat) (reading : Reading) : Except Failure Reading := do
  if (reading.meaning? place).isSome then return reading
  else
    match emptyMeaning? (reading.document.node place).tag with
    | some meaning =>
      return { reading.define place meaning with waiting := reading.waiting ++ [place] }
    | none => return reading.define place (.atom (← reading.document.atomOf place))

/-- Meets a key and its value. Only an atom is a key. -/
def meetEntry (key value : Nat) (reading : Reading) : Except Failure (Atom × Reading) := do
  let reading ← reading.meet key
  match reading.meaning? key with
  | some (.atom atom) => return (atom, ← reading.meet value)
  | _ => .error .malformed

def meetMapping (place : Nat) (reading : Reading) :
    Except Failure (List (Atom × Nat) × Reading) := do
  match (reading.document.node place).content with
  | .mapping _ =>
    let document ← reading.document.flatten (reading.document.entryCount + 1) place []
    let reading := { reading with document := document }
    (document.entries place).foldlM (fun (found, reading) (key, value) => do
      let (atom, reading) ← meetEntry key value reading
      return (assign atom value found, reading)) ([], reading)
  | _ => .error .malformed

def meetItems (place : Nat) (reading : Reading) : Except Failure (List Nat × Reading) := do
  match (reading.document.node place).content with
  | .sequence items =>
    let reading ← items.foldlM (fun reading item => reading.meet item) reading
    return (items, reading)
  | _ => .error .malformed

/-- Meets the pairs of a sequence. Each of them is written as a mapping with one entry. -/
def meetPairs (place : Nat) (reading : Reading) :
    Except Failure (List (Nat × Nat) × Reading) := do
  match (reading.document.node place).content with
  | .sequence items =>
    items.foldlM (fun (found, reading) item =>
      match (reading.document.node item).content with
      | .mapping [(key, value)] => do
        let reading ← reading.meet key
        let reading ← reading.meet value
        return (found ++ [(key, value)], reading)
      | _ => .error .malformed) ([], reading)
  | _ => .error .malformed

def fill (place : Nat) (reading : Reading) : Except Failure Reading := do
  match (reading.document.node place).tag with
  | .sequence =>
    let (items, reading) ← reading.meetItems place
    return reading.define place (.list items)
  | .mapping =>
    let (entries, reading) ← reading.meetMapping place
    return reading.define place (.mapping entries)
  | .set =>
    let (entries, reading) ← reading.meetMapping place
    return reading.define place (.set (entries.map Prod.fst))
  | .orderedMapping | .pairs =>
    let (entries, reading) ← reading.meetPairs place
    return reading.define place (.pairs entries)
  | _ => return reading

/-- Fills the collections that wait, and those that join them. No place waits twice. -/
def fillAll : Nat → Reading → Except Failure Reading
  | 0, reading => .ok reading
  | fuel + 1, reading =>
    match reading.waiting with
    | [] => .ok reading
    | place :: rest => do fillAll fuel (← fill place { reading with waiting := rest })

end Reading

def Document.meanings (document : Document) : Except Failure (Array (Option Meaning)) := do
  let size := document.nodes.size
  let reading ← Reading.meet document.root
    { document := document, meanings := Array.replicate size none }
  return (← reading.fillAll size).meanings

end SchemaBoard.Yaml
