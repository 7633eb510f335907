import SchemaBoard.Yaml.Scalar

set_option autoImplicit false

/-!
From text to tokens. Indentation opens and closes block collections. A token that may turn out to be
a key is remembered as a candidate; the value indicator behind it puts the key's mark in front of
that token. A candidate lives on one line only, and for at most 1024 characters.
-/
namespace SchemaBoard.Yaml

/-- A token that may turn out to be a key. -/
structure Candidate where
  /-- The number of tokens in front of it. -/
  position : Nat
  /-- Whether it has to be a key. -/
  required : Bool
  index : Nat
  line : Nat
  column : Nat

/-- How far the tokens of a document have been read. -/
structure Layout where
  cursor : Cursor
  tokens : Array Token := #[]
  /-- The number of flow collections that are open. -/
  flowDepth : Nat := 0
  /-- The column of the innermost open block collection, or -1. -/
  indent : Int := -1
  /-- The columns of the collections around it, innermost first. -/
  outer : List Int := []
  /-- Whether a key may stand here. -/
  keyAllowed : Bool := true
  /-- The candidate of each flow depth. -/
  candidates : List (Nat × Candidate) := []

namespace Layout

def inFlow (layout : Layout) : Bool := 0 < layout.flowDepth

def push (token : Token) (layout : Layout) : Layout :=
  { layout with tokens := layout.tokens.push token }

def pushTo (token : Token) (cursor : Cursor) (layout : Layout) : Layout :=
  { layout with tokens := layout.tokens.push token, cursor := cursor }

def allowKey (allowed : Bool) (layout : Layout) : Layout := { layout with keyAllowed := allowed }

/-- The cursor behind spaces, comments and breaks; a break outside flow collections allows a key. -/
def skipToToken : Nat → Layout → Layout
  | 0, layout => layout
  | fuel + 1, layout =>
    let cursor := (layout.cursor.skipWhile (· == .char ' ')).skipComment
    match cursor.lineBreak? with
    | none => { layout with cursor := cursor }
    | some (_, cursor) =>
      skipToToken fuel
        { layout with cursor := cursor, keyAllowed := layout.keyAllowed || !layout.inFlow }

/-- Whether a candidate is too far behind to be a key. -/
def isStale (cursor : Cursor) (candidate : Candidate) : Bool :=
  candidate.line ≠ cursor.line || 1024 < cursor.index - candidate.index

/-- The layout without stale candidates, none of which may be required. -/
def dropStale (layout : Layout) : Except Failure Layout :=
  let (stale, live) := layout.candidates.partition fun entry => isStale layout.cursor entry.2
  if stale.any fun entry => entry.2.required then .error .malformed
  else .ok { layout with candidates := live }

/-- The layout without the candidate of this depth, which may not be required. -/
def dropCandidate (layout : Layout) : Except Failure Layout :=
  match layout.candidates.lookup layout.flowDepth with
  | none => .ok layout
  | some candidate =>
    if candidate.required then .error .malformed
    else
      .ok { layout with candidates := layout.candidates.filter (·.1 ≠ layout.flowDepth) }

/-- Remembers that the next token may be a key. It has to be one if it starts a line of the
innermost block collection. -/
def saveCandidate (layout : Layout) : Except Failure Layout :=
  if !layout.keyAllowed then .ok layout
  else do
    let layout ← layout.dropCandidate
    let candidate : Candidate :=
      { position := layout.tokens.size
        required := !layout.inFlow && layout.indent == layout.cursor.column
        index := layout.cursor.index
        line := layout.cursor.line
        column := layout.cursor.column }
    return { layout with candidates := (layout.flowDepth, candidate) :: layout.candidates }

/-- Closes the block collections that stand deeper than a column. -/
def unwind (column : Int) (layout : Layout) : Layout :=
  if layout.inFlow then layout
  else
    let columns := layout.indent :: layout.outer
    let closed := columns.takeWhile (column < ·)
    let kept := columns.dropWhile (column < ·)
    { layout with
      tokens := layout.tokens ++ closed.map fun _ => Token.blockEnd
      indent := kept.headD (-1)
      outer := kept.tail }

def opens (column : Nat) (layout : Layout) : Bool := layout.indent < column

def openLevel (column : Nat) (layout : Layout) : Layout :=
  { layout with indent := column, outer := layout.indent :: layout.outer }

/-- The layout with a block collection opened here, if that opens a level. -/
def openBlock (token : Token) (layout : Layout) : Layout :=
  let column := layout.cursor.column
  if layout.opens column then (layout.push token).openLevel column else layout

/-! ### Single tokens -/

def single (token : Token) (layout : Layout) : Layout := layout.pushTo token layout.cursor.next

def documentMark (token : Token) (layout : Layout) : Except Failure Layout := do
  let layout ← (layout.unwind (-1)).dropCandidate
  return (layout.allowKey false).pushTo token (layout.cursor.skip 3)

/-- The start of a flow collection, which may be a key as a whole. -/
def flowStart (token : Token) (layout : Layout) : Except Failure Layout := do
  let layout ← layout.saveCandidate
  return ({ layout with flowDepth := layout.flowDepth + 1 }.allowKey true).single token

def flowEnd (token : Token) (layout : Layout) : Except Failure Layout := do
  let layout ← layout.dropCandidate
  if layout.flowDepth = 0 then .error .malformed
  else return ({ layout with flowDepth := layout.flowDepth - 1 }.allowKey false).single token

/-- A comma of a flow collection. -/
def flowEntry (layout : Layout) : Except Failure Layout := do
  let layout ← (layout.allowKey true).dropCandidate
  return layout.single .flowEntry

def blockEntry (layout : Layout) : Except Failure Layout := do
  if !layout.inFlow && !layout.keyAllowed then .error .malformed
  else
    let layout := if layout.inFlow then layout else layout.openBlock .blockSequenceStart
    let layout ← (layout.allowKey true).dropCandidate
    return layout.single .blockEntry

def explicitKey (layout : Layout) : Except Failure Layout := do
  if !layout.inFlow && !layout.keyAllowed then .error .malformed
  else
    let layout := if layout.inFlow then layout else layout.openBlock .blockMappingStart
    let layout ← (layout.allowKey !layout.inFlow).dropCandidate
    return layout.single .key

/-- The mark of a value. The candidate of this depth, if there is one, is its key. -/
def mappingValue (layout : Layout) : Except Failure Layout := do
  match layout.candidates.lookup layout.flowDepth with
  | some candidate =>
    let behind := layout.tokens.extract candidate.position layout.tokens.size
    let starts := !layout.inFlow && layout.opens candidate.column
    let marks := if starts then #[Token.blockMappingStart, .key] else #[.key]
    let layout := if starts then layout.openLevel candidate.column else layout
    let layout :=
      { layout with
        tokens := layout.tokens.extract 0 candidate.position ++ marks ++ behind
        candidates := layout.candidates.filter (·.1 ≠ layout.flowDepth)
        keyAllowed := false }
    return layout.single .value
  | none =>
    if !layout.inFlow && !layout.keyAllowed then .error .malformed
    else
      let layout := if layout.inFlow then layout else layout.openBlock .blockMappingStart
      let layout ← (layout.allowKey !layout.inFlow).dropCandidate
      return layout.single .value

/-- Whether a character may stand in the name of an anchor or a directive. -/
def isNameChar (c : CodePoint) : Bool := c.isAlphanum || c == '-' || c == '_'

/-- An anchor or a reference to one. -/
def named (token : Text → Token) (layout : Layout) : Except Failure Layout := do
  let layout ← layout.saveCandidate
  let start := layout.cursor.next
  let name := start.run isNameChar
  let cursor := start.skip name.length
  let ends := cursor.atEndOr fun c => isGap c || "?:,]\x7d%@\x60".toText.contains c
  if name.isEmpty || !ends then .error .malformed
  else return (layout.allowKey false).pushTo (token name) cursor

/-! ### Tags -/

def isTagChar (c : CodePoint) : Bool :=
  c.isAlphanum || "-;/?:@&=+$,_.!~*'()[]%".toText.contains c

/-- The octets that percent signs with two hexadecimal digits stand for, and the rest. -/
def percentOctets : Nat → Text → Option (List UInt8 × Text)
  | 0, rest => some ([], rest)
  | fuel + 1, .char '%' :: rest =>
    match rest with
    | a :: b :: more =>
      match hexNumber? [a, b] with
      | some n => (percentOctets fuel more).map fun (octets, rest) => (n.toUInt8 :: octets, rest)
      | none => none
    | _ => none
  | _ + 1, rest => some ([], rest)

/-- The characters of a tag as they are written, with percent escapes resolved. -/
def tagText : Nat → Text → Option Text
  | 0, _ => some []
  | _ + 1, [] => some []
  | fuel + 1, .char '%' :: rest => do
    let (octets, rest) ← percentOctets (rest.length + 1) (.char '%' :: rest)
    let decoded ← String.fromUTF8? ⟨octets.toArray⟩
    let others ← tagText fuel rest
    return decoded.toText ++ others
  | fuel + 1, c :: rest => (tagText fuel rest).map (c :: ·)

/-- A tag or the stem of a tag at the cursor, and the cursor behind it. -/
def tagUri (cursor : Cursor) : Except Failure (Text × Cursor) :=
  let written := cursor.run isTagChar
  match tagText (written.length + 1) written with
  | some text =>
    if written.isEmpty then .error .malformed else .ok (text, cursor.skip written.length)
  | none => .error .malformed

/-- A handle such as `!`, `!!` or `!name!`, and the cursor behind it. -/
def tagHandle (cursor : Cursor) : Except Failure (Text × Cursor) :=
  match cursor.rest with
  | .char '!' :: .char ' ' :: _ => .ok ([.char '!'], cursor.next)
  | .char '!' :: rest =>
    let name := rest.takeWhile isNameChar
    match rest.drop name.length with
    | .char '!' :: _ => .ok (.char '!' :: name ++ [.char '!'], cursor.skip (name.length + 2))
    | _ => .error .malformed
  | _ => .error .malformed

/-- The handle and the rest of a tag, and the cursor behind it. -/
def tagParts (cursor : Cursor) : Except Failure (Option Text × Text × Cursor) :=
  match cursor.rest.tail with
  | .char '<' :: _ => do
    let (suffix, cursor) ← tagUri (cursor.skip 2)
    if cursor.peek == some '>' then return (none, suffix, cursor.next) else .error .malformed
  | rest =>
    if rest.head?.all isGap then .ok (none, [.char '!'], cursor.next)
    else do
      let word := rest.takeWhile fun c => !(c == .char ' ' || isBreak c)
      let (handle, cursor) ← if word.contains '!' then tagHandle cursor
        else pure ([.char '!'], cursor.next)
      let (suffix, cursor) ← tagUri cursor
      return (some handle, suffix, cursor)

def tagged (layout : Layout) : Except Failure Layout := do
  let layout ← layout.saveCandidate
  let (handle, suffix, cursor) ← tagParts layout.cursor
  if cursor.atEndOr fun c => c == .char ' ' || isBreak c then
    return (layout.allowKey false).pushTo (.tag handle suffix) cursor
  else .error .malformed

/-! ### Directives -/

/-- The digits at the cursor as a number, and the cursor behind them. -/
def versionNumber (cursor : Cursor) : Except Failure (Nat × Cursor) :=
  let digits := cursor.run CodePoint.isDigit
  if digits.isEmpty then .error .malformed
  else if digitCapacity < digits.length then .error (.tooManyDigits digits.length)
  else .ok (digits.foldl (fun n c => 10 * n + (c.number - 48)) 0, cursor.skip digits.length)

def atWordEnd (cursor : Cursor) : Bool := cursor.atEndOr fun c => c == .char ' ' || isBreak c

/-- What a directive of some name says, and the cursor behind it. -/
def directiveBody (name : Text) (cursor : Cursor) : Except Failure (Token × Cursor) :=
  let spaces := fun (cursor : Cursor) => cursor.skipWhile (· == .char ' ')
  if name == "YAML".toText then do
    let (major, cursor) ← versionNumber (spaces cursor)
    if cursor.peek ≠ some '.' then .error .malformed
    else
      let (_, cursor) ← versionNumber cursor.next
      if atWordEnd cursor then return (.version major, cursor) else .error .malformed
  else if name == "TAG".toText then do
    let (handle, cursor) ← tagHandle (spaces cursor)
    if cursor.peek ≠ some ' ' then .error .malformed
    else
      let (stem, cursor) ← tagUri (spaces cursor)
      if atWordEnd cursor then return (.tagHandle handle stem, cursor) else .error .malformed
  else .ok (.reserved, cursor.skipWhile fun c => !isBreak c)

/-- A directive, which takes up its whole line. -/
def directive (layout : Layout) : Except Failure Layout := do
  let layout ← (layout.unwind (-1)).dropCandidate
  let start := layout.cursor.next
  let name := start.run isNameChar
  let cursor := start.skip name.length
  if name.isEmpty || !atWordEnd cursor then .error .malformed
  else
    let (token, cursor) ← directiveBody name cursor
    let cursor ← ignoredLine cursor
    return (layout.allowKey false).pushTo token cursor

/-! ### Scalars -/

def quoted (quote : CodePoint) (layout : Layout) : Except Failure Layout := do
  let layout ← layout.saveCandidate
  let start := layout.cursor.next
  let (text, cursor) ← quotedScalar quote (start.rest.length + 1) start
  return (layout.allowKey false).pushTo (.scalar text false) cursor

def block (folded : Bool) (layout : Layout) : Except Failure Layout := do
  let layout ← (layout.allowKey true).dropCandidate
  let (text, cursor) ← blockScalar folded layout.indent layout.cursor.next
  return layout.pushTo (.scalar text false) cursor

/-- A plain scalar. A break behind it allows a key. -/
def plain (layout : Layout) : Except Failure Layout := do
  let layout ← layout.saveCandidate
  let cursor := layout.cursor
  let (text, cursor, broken) :=
    plainScalar layout.inFlow (layout.indent + 1) (cursor.rest.length + 1) false cursor
  return (layout.allowKey broken).pushTo (.scalar text true) cursor

/-- The indicators, none of which starts a plain scalar on its own. -/
def indicators : Text := "-?:,[]\x7b\x7d#&*!|>'\"%@\x60".toText

def startsPlain (layout : Layout) : Bool :=
  match layout.cursor.peek with
  | none => false
  | some c =>
    !(isGap c || indicators.contains c) ||
      ((layout.cursor.peekAt 1).any (fun d => !isGap d) &&
        (c == '-' || (!layout.inFlow && (c == '?' || c == ':'))))

/-- Reads the next token at the cursor, which does not stand at the end. -/
def nextToken (c : CodePoint) (layout : Layout) : Except Failure Layout :=
  let cursor := layout.cursor
  let beforeGap := (cursor.peekAt 1).all isGap
  let atLineStart := cursor.column = 0
  if c == '%' && atLineStart then layout.directive
  else if atLineStart && cursor.startsMark ['-', '-', '-'] then layout.documentMark .documentStart
  else if atLineStart && cursor.startsMark ['.', '.', '.'] then layout.documentMark .documentEnd
  else if c == '[' then layout.flowStart .flowSequenceStart
  else if c == '{' then layout.flowStart .flowMappingStart
  else if c == ']' then layout.flowEnd .flowSequenceEnd
  else if c == '}' then layout.flowEnd .flowMappingEnd
  else if c == ',' then layout.flowEntry
  else if c == '-' && beforeGap then layout.blockEntry
  else if c == '?' && (layout.inFlow || beforeGap) then layout.explicitKey
  else if c == ':' && (layout.inFlow || beforeGap) then layout.mappingValue
  else if c == '*' then layout.named .reference
  else if c == '&' then layout.named .anchor
  else if c == '!' then layout.tagged
  else if c == '|' && !layout.inFlow then layout.block false
  else if c == '>' && !layout.inFlow then layout.block true
  else if c == '\'' || c == '"' then layout.quoted c
  else if layout.startsPlain then layout.plain
  else .error .malformed

/-- Reads on by one token, or to the end. Says whether something is left to read. -/
def step (layout : Layout) : Except Failure (Layout × Bool) := do
  let layout ← (layout.skipToToken (layout.cursor.rest.length + 1)).dropStale
  let layout := layout.unwind layout.cursor.column
  match layout.cursor.peek with
  | some c => return (← layout.nextToken c, true)
  | none => return (← (layout.unwind (-1)).dropCandidate, false)

/-- The tokens in front of a place where no further one can be read. What may still turn out to be a
key is held back there, with everything behind it. -/
def stopped (layout : Layout) (failure : Failure) : List Token :=
  let live := layout.candidates.filter fun entry => !isStale layout.cursor entry.2
  let held := live.foldl (fun least entry => min least entry.2.position) layout.tokens.size
  layout.tokens.toList.take held ++ [.unreadable failure]

/-- Reads all tokens from the cursor on. Every token takes a character at least, so the length of
what is left bounds their number. -/
def readAll : Nat → Layout → List Token
  | 0, layout => layout.stopped .malformed
  | fuel + 1, layout =>
    match layout.step with
    | .error failure => layout.stopped failure
    | .ok (layout, true) => readAll fuel layout
    | .ok (layout, false) => layout.tokens.toList

end Layout

/-- The tokens of a document. A byte order mark in front is passed over. -/
def Token.ofText (text : Text) : List Token :=
  if text.all isAllowed then
    let start : Cursor := { rest := text }
    let start := if start.peek == some byteOrderMark then start.next else start
    Layout.readAll (text.length + 2) { cursor := start }
  else [.unreadable .malformed]

end SchemaBoard.Yaml
