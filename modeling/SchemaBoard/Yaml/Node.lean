import SchemaBoard.Yaml.Layout
import SchemaBoard.Yaml.Moment
import SchemaBoard.Yaml.Pattern

set_option autoImplicit false

/-!
Nodes of a document. They stand in a table and refer to each other by their place in it, so a$
is one more reference to the node that it names, even from inside that node.
-/
namespace SchemaBoard.Yaml

/-- What a node stands for. -/
inductive Tag where
  | null
  | flag
  | integer
  | number
  | binary
  | moment
  | orderedMapping
  | pairs
  | set
  | text
  | sequence
  | mapping
  /-- The key whose value is merged into the mapping around it. -/
  | merge
  /-- The key whose value stands for the mapping around it. -/
  | default
  /-- Anything that has no meaning here. -/
  | foreign
deriving DecidableEq, Repr

/-- What the names of the known tags begin with. -/
def tagStem : Text := "tag:yaml.org,2002:".toText

/-- The tags by the ends of their names. -/
def tagNames : List (String × Tag) :=
  [("null", .null), ("bool", .flag), ("int", .integer), ("float", .number), ("binary", .binary),
    ("timestamp", .moment), ("omap", .orderedMapping), ("pairs", .pairs), ("set", .set),
    ("str", .text), ("seq", .sequence), ("map", .mapping), ("merge", .merge),
    ("value", .default)]

def Tag.ofName (name : Text) : Tag :=
  match tagStem.isPrefixOf? name with
  | some rest =>
    ((tagNames.find? fun entry => entry.1.toText == rest).map Prod.snd).getD .foreign
  | none => .foreign

/-- Whether a text is one of the marks that cannot begin a plain scalar. Under the tag `!` a quoted
one is looked at as if it were plain, and then stands for no value. -/
def isIndicatorForm (text : Text) : Bool := ["!", "&", "*"].any fun mark => text == mark.toText

/-- The tag of a plain scalar, by the form it is written in. -/
def Tag.ofPlain (text : Text) : Tag :=
  let body := withoutFinalBreak text
  if isFlagForm body then .flag
  else if isNumberForm body then .number
  else if isIntegerForm body then .integer
  else if body == "<<".toText then .merge
  else if text.isEmpty || (!body.isEmpty && isNullForm body) then .null
  else if isMomentForm body then .moment
  else if body == [.char '='] then .default
  else if isIndicatorForm body then .foreign
  else .text

inductive Content where
  | scalar (text : Text)
  | sequence (items : List Nat)
  | mapping (entries : List (Nat × Nat))
deriving Repr

/-- A node: what it stands for, and its content. -/
structure Node where
  tag : Tag
  content : Content
deriving Repr

instance : Inhabited Node := ⟨{ tag := .null, content := .scalar [] }⟩

/-- The nodes of a document, and the place of its root. -/
structure Document where
  nodes : Array Node
  root : Nat

def Document.node (document : Document) (place : Nat) : Node := document.nodes.getD place default

/-- How far a document has been put together. -/
structure Assembly where
  tokens : List Token
  nodes : Array Node := #[]
  /-- The places of the nodes that have a name. -/
  anchors : List (Text × Nat) := []
  /-- The handles of tags and what they stand for. -/
  handles : List (Text × Text) :=
    [([.char '!'], [.char '!']), ([.char '!', .char '!'], tagStem)]

namespace Assembly

def peek (assembly : Assembly) : Option Token := assembly.tokens.head?

/-- The failure of an assembly whose next token does not fit. -/
def failure (assembly : Assembly) : Failure :=
  match assembly.tokens with
  | .unreadable failure :: _ => failure
  | _ => .malformed

def isStopped (assembly : Assembly) : Bool :=
  match assembly.tokens with
  | .unreadable _ :: _ => true
  | _ => false

def advance (assembly : Assembly) : Assembly := { assembly with tokens := assembly.tokens.tail }

def sees (tokens : List Token) (assembly : Assembly) : Bool :=
  assembly.peek.any fun token => tokens.contains token

/-- The assembly with a further node, and the place of that node. -/
def add (node : Node) (assembly : Assembly) : Nat × Assembly :=
  (assembly.nodes.size, { assembly with nodes := assembly.nodes.push node })

/-- The assembly with a scalar that is written nowhere. -/
def addEmpty (assembly : Assembly) : Nat × Assembly :=
  assembly.add { tag := .null, content := .scalar [] }

def fill (place : Nat) (content : Content) (assembly : Assembly) : Assembly :=
  { assembly with
    nodes := assembly.nodes.modify place fun node => { node with content := content } }

/-- The assembly with a name for the node that comes next. A name may be given once only. -/
def declare (anchor : Option Text) (assembly : Assembly) : Except Failure Assembly :=
  match anchor with
  | none => .ok assembly
  | some name =>
    if (assembly.anchors.lookup name).isSome then .error .malformed
    else
      .ok { assembly with anchors := (name, assembly.nodes.size) :: assembly.anchors }

/-- The name and tag in front of a node, in either order, and the assembly behind them. Behind a tag
that comes first a name is looked for, which fails where no token can be read. -/
def properties (assembly : Assembly) :
    Except Failure (Option Text × Option (Option Text × Text) × Assembly) :=
  match assembly.tokens with
  | .anchor name :: .tag handle suffix :: rest =>
    .ok (some name, some (handle, suffix), { assembly with tokens := rest })
  | .tag handle suffix :: .anchor name :: rest =>
    .ok (some name, some (handle, suffix), { assembly with tokens := rest })
  | .anchor name :: rest => .ok (some name, none, { assembly with tokens := rest })
  | .tag _ _ :: .unreadable failure :: _ => .error failure
  | .tag handle suffix :: rest =>
    .ok (none, some (handle, suffix), { assembly with tokens := rest })
  | _ => .ok (none, none, assembly)

/-- The name of a tag with its handle resolved. The name `!` leaves the choice to the content. -/
def resolveTag (written : Option (Option Text × Text)) (assembly : Assembly) :
    Except Failure (Option Text) :=
  match written with
  | none => .ok none
  | some (none, suffix) => .ok (some suffix)
  | some (some handle, suffix) =>
    match assembly.handles.lookup handle with
    | some stem => .ok (some (stem ++ suffix))
    | none => .error .malformed

/-- Whether a tag leaves the choice to the content. -/
def isOpen (tag : Option Text) : Bool := tag.all (· == [.char '!'])

def collectionTag (tag : Option Text) (usual : Tag) : Tag :=
  match tag with
  | some name => if isOpen tag then usual else .ofName name
  | none => usual

/-- The tag of a scalar. The exclamation mark alone asks for the form of a plain one. -/
def scalarTag (tag : Option Text) (text : Text) (plain : Bool) : Tag :=
  match tag with
  | some name => if isOpen tag then .ofPlain text else .ofName name
  | none => if plain then .ofPlain text else .text

/-- The assembly behind the token that has to come next. -/
def expect (token : Token) (assembly : Assembly) : Except Failure Assembly :=
  if assembly.sees [token] then .ok assembly.advance else .error assembly.failure

mutual

/-- Puts the next node together. Block collections stand in block context only; `indentless` says
that a sequence may stand there without a level of its own. -/
def node : Nat → (block indentless : Bool) → Assembly → Except Failure (Nat × Assembly)
  | 0, _, _, _ => .error .malformed
  | fuel + 1, block, indentless, assembly => do
    match assembly.tokens with
    | .reference name :: rest =>
      match assembly.anchors.lookup name with
      | some place => return (place, { assembly with tokens := rest })
      | none => .error .malformed
    | _ =>
      let (anchor, written, assembly) ← assembly.properties
      let tag ← assembly.resolveTag written
      let itemsTag := collectionTag tag .sequence
      let entriesTag := collectionTag tag .mapping
      match assembly.tokens with
      | .scalar text plain :: rest =>
        let assembly ← { assembly with tokens := rest }.declare anchor
        return assembly.add { tag := scalarTag tag text plain, content := .scalar text }
      | .flowSequenceStart :: rest =>
        let assembly ← { assembly with tokens := rest }.declare anchor
        let (place, assembly) := assembly.add { tag := itemsTag, content := .sequence [] }
        let (items, assembly) ← flowItems fuel true assembly
        return (place, assembly.fill place (.sequence items))
      | .flowMappingStart :: rest =>
        let assembly ← { assembly with tokens := rest }.declare anchor
        let (place, assembly) := assembly.add { tag := entriesTag, content := .mapping [] }
        let (entries, assembly) ← flowEntries fuel true assembly
        return (place, assembly.fill place (.mapping entries))
      | next :: rest =>
        if indentless && next == .blockEntry then
          let assembly ← assembly.declare anchor
          let (place, assembly) := assembly.add { tag := itemsTag, content := .sequence [] }
          let (items, assembly) ← blockItems fuel true assembly
          return (place, assembly.fill place (.sequence items))
        else if block && next == .blockSequenceStart then
          let assembly ← { assembly with tokens := rest }.declare anchor
          let (place, assembly) := assembly.add { tag := itemsTag, content := .sequence [] }
          let (items, assembly) ← blockItems fuel false assembly
          return (place, (← assembly.expect .blockEnd).fill place (.sequence items))
        else if block && next == .blockMappingStart then
          let assembly ← { assembly with tokens := rest }.declare anchor
          let (place, assembly) := assembly.add { tag := entriesTag, content := .mapping [] }
          let (entries, assembly) ← blockEntries fuel assembly
          return (place, (← assembly.expect .blockEnd).fill place (.mapping entries))
        else emptyNode anchor tag assembly
      | [] => emptyNode anchor tag assembly

/-- An empty scalar, which needs a name or a tag. -/
def emptyNode (anchor tag : Option Text) (assembly : Assembly) :
    Except Failure (Nat × Assembly) := do
  if assembly.isStopped || (anchor.isNone && tag.isNone) then .error assembly.failure
  else
    let assembly ← assembly.declare anchor
    return assembly.add { tag := scalarTag tag [] true, content := .scalar [] }

/-- The next node, or an empty scalar in front of one of some tokens. -/
def nodeUnless : Nat → (block indentless : Bool) → List Token → Assembly →
    Except Failure (Nat × Assembly)
  | 0, _, _, _, _ => .error .malformed
  | fuel + 1, block, indentless, ends, assembly =>
    if assembly.sees ends || assembly.tokens.isEmpty then .ok assembly.addEmpty
    else node fuel block indentless assembly

def blockItems : Nat → (indentless : Bool) → Assembly → Except Failure (List Nat × Assembly)
  | 0, _, _ => .error .malformed
  | fuel + 1, indentless, assembly => do
    if assembly.sees [.blockEntry] then
      let ends := if indentless then [.blockEntry, .key, .value, .blockEnd]
        else [.blockEntry, .blockEnd]
      let (item, assembly) ← nodeUnless fuel true false ends assembly.advance
      let (items, assembly) ← blockItems fuel indentless assembly
      return (item :: items, assembly)
    else return ([], assembly)

/-- The entries of a block mapping. A key without a value has an empty one. -/
def blockEntries : Nat → Assembly → Except Failure (List (Nat × Nat) × Assembly)
  | 0, _ => .error .malformed
  | fuel + 1, assembly => do
    if assembly.sees [.key] then
      let ends := [.key, .value, .blockEnd]
      let (key, assembly) ← nodeUnless fuel true true ends assembly.advance
      let (value, assembly) ←
        if assembly.sees [.value] then nodeUnless fuel true true ends assembly.advance
        else pure assembly.addEmpty
      let (entries, assembly) ← blockEntries fuel assembly
      return ((key, value) :: entries, assembly)
    else return ([], assembly)

/-- The value of a key in a flow collection, up to one of some tokens. -/
def flowValue : Nat → List Token → Assembly → Except Failure (Nat × Assembly)
  | 0, _, _ => .error .malformed
  | fuel + 1, ends, assembly =>
    if assembly.sees [.value] then nodeUnless fuel false false ends assembly.advance
    else .ok assembly.addEmpty

/-- The items of a flow sequence and its end. A key makes a mapping of one entry. -/
def flowItems : Nat → (first : Bool) → Assembly → Except Failure (List Nat × Assembly)
  | 0, _, _ => .error .malformed
  | fuel + 1, first, assembly => do
    if assembly.sees [.flowSequenceEnd] then return ([], assembly.advance)
    else
      let assembly ← if first then pure assembly else assembly.expect .flowEntry
      if assembly.sees [.flowSequenceEnd] then return ([], assembly.advance)
      else
        let ends := [.flowEntry, .flowSequenceEnd]
        let (item, assembly) ←
          if assembly.sees [.key] then do
            let single : Node := { tag := .mapping, content := .mapping [] }
            let (place, assembly) := assembly.advance.add single
            let (key, assembly) ← nodeUnless fuel false false (.value :: ends) assembly
            let (value, assembly) ← flowValue fuel ends assembly
            pure (place, assembly.fill place (.mapping [(key, value)]))
          else node fuel false false assembly
        let (items, assembly) ← flowItems fuel false assembly
        return (item :: items, assembly)

/-- The entries of a flow mapping and its end. A node that is no key is a key with an empty
value. -/
def flowEntries : Nat → (first : Bool) → Assembly → Except Failure (List (Nat × Nat) × Assembly)
  | 0, _, _ => .error .malformed
  | fuel + 1, first, assembly => do
    if assembly.sees [.flowMappingEnd] then return ([], assembly.advance)
    else
      let assembly ← if first then pure assembly else assembly.expect .flowEntry
      if assembly.sees [.flowMappingEnd] then return ([], assembly.advance)
      else
        let ends := [.flowEntry, .flowMappingEnd]
        let (entry, assembly) ←
          if assembly.sees [.key] then do
            let (key, assembly) ← nodeUnless fuel false false (.value :: ends) assembly.advance
            let (value, assembly) ← flowValue fuel ends assembly
            pure ((key, value), assembly)
          else do
            let (key, assembly) ← node fuel false false assembly
            let (value, assembly) := assembly.addEmpty
            pure ((key, value), assembly)
        let (entries, assembly) ← flowEntries fuel false assembly
        return (entry :: entries, assembly)

end

/-- The handles that the directives of a document declare, on top of those that are always there,
and what stands behind the directives. -/
def directives (versioned : Bool) (declared : List (Text × Text)) :
    List Token → Except Failure (List (Text × Text) × List Token)
  | .version major :: rest =>
    if versioned || major ≠ 1 then .error .malformed else directives true declared rest
  | .tagHandle handle stem :: rest =>
    if (declared.lookup handle).isSome then .error .malformed
    else directives versioned ((handle, stem) :: declared) rest
  | .reserved :: rest => directives versioned declared rest
  | rest => .ok (declared, rest)

def opensDocument : Token → Bool
  | .version _ | .tagHandle _ _ | .reserved | .documentStart => true
  | _ => false

def endsDocument : Token → Bool
  | .documentEnd => true
  | token => opensDocument token

end Assembly

/-- Why tokens behind the document do not fit. The directives of a further document are read before
its start is looked for. -/
def Assembly.excess (assembly : Assembly) : Failure :=
  match directives false [] assembly.tokens with
  | .ok (_, rest) => { assembly with tokens := rest }.failure
  | .error failure => failure

/-- Puts together the one document of some tokens; there may be none. -/
def Document.ofTokens (tokens : List Token) : Except Failure (Option Document) := do
  match tokens with
  | [] => return none
  | first :: _ =>
    let fuel := 4 * tokens.length + 8
    let assembly ←
      if Assembly.opensDocument first then do
        let (declared, rest) ← Assembly.directives false [] tokens
        let assembly ← Assembly.expect .documentStart { tokens := rest }
        pure { assembly with handles := declared ++ assembly.handles }
      else pure { tokens := tokens }
    let isEmpty := Assembly.opensDocument first && assembly.peek.all Assembly.endsDocument
    let (root, assembly) ←
      if isEmpty then pure assembly.addEmpty else assembly.node fuel true false
    let assembly := { assembly with tokens := assembly.tokens.dropWhile (· == Token.documentEnd) }
    if assembly.tokens.isEmpty then return some { nodes := assembly.nodes, root := root }
    else .error assembly.excess

end SchemaBoard.Yaml
