import SchemaBoard.Yaml.Cursor
import SchemaBoard.Yaml.Token

set_option autoImplicit false

/-!
The written forms of scalars: plain, quoted and in blocks. Lines are folded: a single break inside
a scalar counts as a space, and of several breaks the first is dropped.
-/
namespace SchemaBoard.Yaml

/-- What the breaks between two lines of a folded scalar count as: the first break and the ones
behind it. -/
def foldBreaks (first : CodePoint) (others : Text) : Text :=
  if first ≠ '\n' then first :: others
  else if others.isEmpty then [.char ' ']
  else others

/-! ### Plain scalars -/

/-- Whether a plain scalar ends in front of `c`, given the character behind it. Inside a flow
collection the flow indicators end it too. -/
def endsPlain (flow : Bool) (c : CodePoint) (after : Option CodePoint) : Bool :=
  isGap c ||
    (c == ':' && after.all fun d => isGap d || (flow && ",[]\x7b\x7d".toText.contains d)) ||
    (flow && ",?[]\x7b\x7d".toText.contains c)

/-- The part of a plain scalar up to the next gap or indicator. -/
def plainRun (flow : Bool) : Text → Text
  | [] => []
  | c :: rest => if endsPlain flow c rest.head? then [] else c :: plainRun flow rest

/-- The breaks and leading spaces of further lines, or nothing at the mark of a document. -/
def plainBreaks : Nat → Cursor → Option (Text × Cursor)
  | 0, cursor => some ([], cursor)
  | fuel + 1, cursor =>
    if cursor.peek == some ' ' then plainBreaks fuel cursor.next
    else
      match cursor.lineBreak? with
      | none => some ([], cursor)
      | some (c, cursor) =>
        if cursor.atDocumentMark then none
        else (plainBreaks fuel cursor).map fun (others, cursor) => (c :: others, cursor)

/-- What the gap behind a part of a plain scalar counts as, the cursor behind it, and whether it
holds a break. An empty text ends the scalar. -/
def plainGap (cursor : Cursor) : Text × Cursor × Bool :=
  let spaces := cursor.run (· == .char ' ')
  let cursor := cursor.skip spaces.length
  match cursor.lineBreak? with
  | none => (spaces, cursor, false)
  | some (first, cursor) =>
    if cursor.atDocumentMark then ([], cursor, true)
    else
      match plainBreaks (cursor.rest.length + 1) cursor with
      | none => ([], cursor, true)
      | some (others, cursor) => (foldBreaks first others, cursor, true)

/-- A plain scalar from the cursor on: its text, the cursor behind it, and whether a break ends it.
`indent` is the least column of its further lines. -/
def plainScalar (flow : Bool) (indent : Int) : Nat → Bool → Cursor → Text × Cursor × Bool
  | 0, broken, cursor => ([], cursor, broken)
  | fuel + 1, broken, cursor =>
    let part := if cursor.peek == some '#' then [] else plainRun flow cursor.rest
    if part.isEmpty then ([], cursor, broken)
    else
      let (gap, cursor, broken) := plainGap (cursor.skip part.length)
      if gap.isEmpty || cursor.peek == some '#' || (!flow && (cursor.column : Int) < indent) then
        (part, cursor, broken)
      else
        let (others, cursor, brokenLater) := plainScalar flow indent fuel broken cursor
        if others.isEmpty then (part, cursor, brokenLater)
        else (part ++ gap ++ others, cursor, brokenLater)

/-! ### Quoted scalars -/

/-- The characters that a backslash and one character stand for. -/
def escapes : List (CodePoint × CodePoint) :=
  [('0', '\x00'), ('a', '\x07'), ('b', '\x08'), ('t', '\t'), ('\t', '\t'), ('n', '\n'),
    ('v', '\x0b'), ('f', '\x0c'), ('r', '\r'), ('e', '\x1b'), (' ', ' '), ('"', '"'),
    ('\\', '\\'), ('/', '/'), ('N', '\x85'), ('_', '\xa0'), ('L', '\u2028'), ('P', '\u2029')]

/-- The number of hexadecimal digits that an escape brings along. -/
def escapeWidth? : CodePoint → Option Nat
  | .char 'x' => some 2
  | .char 'u' => some 4
  | .char 'U' => some 8
  | _ => none

def hexValue? (c : CodePoint) : Option Nat :=
  if c.isDigit then some (c.number - 48)
  else if 'a' ≤ c && c ≤ 'f' then some (c.number - 87)
  else if 'A' ≤ c && c ≤ 'F' then some (c.number - 55)
  else none

def hexNumber? (digits : Text) : Option Nat :=
  digits.foldlM (fun n c => (hexValue? c).map fun d => 16 * n + d) 0

def escapedPoint (code : Nat) : Except Failure CodePoint :=
  if 0x80000000 ≤ code then .error .codePointOverflow
  else
    match CodePoint.ofNumber? code with
    | some point => .ok point
    | none => .error .codePoint

/-- The breaks of further lines inside quotes. The mark of a document may not stand there. -/
def quotedBreaks : Nat → Cursor → Except Failure (Text × Cursor)
  | 0, cursor => .ok ([], cursor)
  | fuel + 1, cursor =>
    if cursor.atDocumentMark then .error .malformed
    else
      let cursor := cursor.skipWhile fun c => c == .char ' ' || c == .char '\t'
      match cursor.lineBreak? with
      | none => .ok ([], cursor)
      | some (c, cursor) =>
        (quotedBreaks fuel cursor).map fun (others, cursor) => (c :: others, cursor)

/-- What a gap inside quotes counts as, and the cursor behind it. -/
def quotedGap (cursor : Cursor) : Except Failure (Text × Cursor) :=
  let spaces := cursor.run fun c => c == .char ' ' || c == .char '\t'
  let cursor := cursor.skip spaces.length
  match cursor.lineBreak? with
  | some (first, cursor) =>
    (quotedBreaks (cursor.rest.length + 1) cursor).map fun (others, cursor) =>
      (foldBreaks first others, cursor)
  | none => if cursor.rest.isEmpty then .error .malformed else .ok (spaces, cursor)

/-- What an escape stands for, and the cursor behind it; the cursor starts behind the backslash. An
escaped break joins two lines. -/
def escape (cursor : Cursor) : Except Failure (Text × Cursor) :=
  match cursor.peek with
  | none => .error .malformed
  | some c =>
    match escapes.lookup c with
    | some plain => .ok ([plain], cursor.next)
    | none =>
      match escapeWidth? c with
      | some width =>
        let digits := (cursor.rest.drop 1).take width
        match hexNumber? digits with
        | some code =>
          if digits.length < width then .error .malformed
          else (escapedPoint code).map fun point => ([point], cursor.skip (width + 1))
        | none => .error .malformed
      | none =>
        match cursor.lineBreak? with
        | some (_, cursor) =>
          quotedBreaks (cursor.rest.length + 1) cursor
        | none => .error .malformed

/-- The text up to the closing quote, and the cursor behind that quote. -/
def quotedScalar (quote : CodePoint) : Nat → Cursor → Except Failure (Text × Cursor)
  | 0, _ => .error .malformed
  | fuel + 1, cursor =>
    match cursor.rest with
    | [] => .error .malformed
    | c :: rest =>
      if c == quote then
        if quote == '\'' && rest.head? == some '\'' then
          (quotedScalar quote fuel (cursor.skip 2)).map fun (text, cursor) =>
            (quote :: text, cursor)
        else .ok ([], cursor.next)
      else if isGap c then do
        let (gap, cursor) ← quotedGap cursor
        let (text, cursor) ← quotedScalar quote fuel cursor
        return (gap ++ text, cursor)
      else if quote == '"' && c == '\\' then do
        let (points, cursor) ← escape cursor.next
        let (text, cursor) ← quotedScalar quote fuel cursor
        return (points ++ text, cursor)
      else (quotedScalar quote fuel cursor.next).map fun (text, cursor) => (c :: text, cursor)

/-! ### Block scalars -/

/-- What happens to the breaks that end a block scalar. -/
inductive Chomping where
  | clip
  | strip
  | keep
deriving DecidableEq, Repr

def chomping? : Option CodePoint → Option Chomping
  | some (.char '+') => some .keep
  | some (.char '-') => some .strip
  | _ => none

/-- The indentation that a character asks for. Zero is none that can be asked for. -/
def increment? : Option CodePoint → Except Failure (Option Nat)
  | some c =>
    if c == '0' then .error .malformed
    else if c.isDigit then .ok (some (c.number - 48))
    else .ok none
  | none => .ok none

/-- The indicators behind the mark of a block scalar, in either order. -/
def blockHeader (cursor : Cursor) : Except Failure (Chomping × Option Nat × Cursor) := do
  let (chomping, increment, cursor) ← match chomping? cursor.peek with
    | some chomping => do
      let cursor := cursor.next
      let increment ← increment? cursor.peek
      pure (chomping, increment, if increment.isSome then cursor.next else cursor)
    | none => do
      let increment ← increment? cursor.peek
      match increment with
      | none => pure (Chomping.clip, none, cursor)
      | some n =>
        let cursor := cursor.next
        match chomping? cursor.peek with
        | some chomping => pure (chomping, some n, cursor.next)
        | none => pure (.clip, some n, cursor)
  if cursor.atEndOr fun c => c == .char ' ' || isBreak c then return (chomping, increment, cursor)
  else .error .malformed

/-- The cursor behind a line that holds nothing but spaces and a comment. -/
def ignoredLine (cursor : Cursor) : Except Failure Cursor :=
  let cursor := (cursor.skipWhile (· == .char ' ')).skipComment
  match cursor.lineBreak? with
  | some (_, cursor) => .ok cursor
  | none => if cursor.rest.isEmpty then .ok cursor else .error .malformed

/-- The breaks in front of a block scalar whose indentation is left open, the deepest column among
them, and the cursor at its first line. -/
def leadingBreaks : Nat → Nat → Cursor → Text × Nat × Cursor
  | 0, deepest, cursor => ([], deepest, cursor)
  | fuel + 1, deepest, cursor =>
    if cursor.peek == some ' ' then
      let cursor := cursor.next
      leadingBreaks fuel (max deepest cursor.column) cursor
    else
      match cursor.lineBreak? with
      | none => ([], deepest, cursor)
      | some (c, cursor) =>
        let (others, deepest, cursor) := leadingBreaks fuel deepest cursor
        (c :: others, deepest, cursor)

/-- The cursor behind spaces, up to a column. -/
def indented (indent : Nat) : Nat → Cursor → Cursor
  | 0, cursor => cursor
  | fuel + 1, cursor =>
    if cursor.column < indent && cursor.peek == some ' ' then indented indent fuel cursor.next
    else cursor

/-- The breaks of the empty lines of a block scalar, and the cursor at the next other line. -/
def blockBreaks (indent : Nat) : Nat → Cursor → Text × Cursor
  | 0, cursor => ([], cursor)
  | fuel + 1, cursor =>
    let cursor := indented indent indent cursor
    match cursor.lineBreak? with
    | none => ([], cursor)
    | some (c, cursor) =>
      let (others, cursor) := blockBreaks indent fuel cursor
      (c :: others, cursor)

/-- The lines of a block scalar from the cursor on. `lead` holds the breaks in front. The answer is
the text, the break behind its last line, the breaks behind that, and the cursor. Every line takes a
character at least, so the fuel also bounds the breaks behind it. -/
def blockLines (folded : Bool) (indent : Nat) :
    Nat → Text → Cursor → Text × Text × Text × Cursor
  | 0, lead, cursor => ([], [], lead, cursor)
  | fuel + 1, lead, cursor =>
    if cursor.column ≠ indent || cursor.rest.isEmpty then ([], [], lead, cursor)
    else
      let isInset := fun (c : Option CodePoint) => c == some ' ' || c == some '\t'
      let inset := isInset cursor.peek
      let line := cursor.run fun c => !isBreak c
      let cursor := cursor.skip line.length
      let (first, cursor) :=
        match cursor.lineBreak? with
        | some (c, cursor) => ([c], cursor)
        | none => ([], cursor)
      let (others, cursor) := blockBreaks indent fuel cursor
      if cursor.column = indent && !cursor.rest.isEmpty then
        let joint :=
          if folded && first == [.char '\n'] && !inset && !isInset cursor.peek then
            if others.isEmpty then [.char ' '] else []
          else first
        let (text, last, tail, cursor) := blockLines folded indent fuel others cursor
        (lead ++ line ++ joint ++ text, last, tail, cursor)
      else (lead ++ line, first, others, cursor)

/-- A block scalar; the cursor starts behind its mark, and `parent` is the column of the collection
around it. -/
def blockScalar (folded : Bool) (parent : Int) (cursor : Cursor) :
    Except Failure (Text × Cursor) := do
  let (chomping, increment, cursor) ← blockHeader cursor
  let cursor ← ignoredLine cursor
  let least := max 1 (parent + 1).toNat
  let (lead, indent, cursor) :=
    match increment with
    | none =>
      let (lead, deepest, cursor) := leadingBreaks (cursor.rest.length + 1) 0 cursor
      (lead, max least deepest, cursor)
    | some n =>
      let indent := least + n - 1
      let (lead, cursor) := blockBreaks indent (cursor.rest.length + 1) cursor
      (lead, indent, cursor)
  let (text, last, tail, cursor) := blockLines folded indent (cursor.rest.length + 1) lead cursor
  let ending :=
    match chomping with
    | .strip => []
    | .clip => last
    | .keep => last ++ tail
  return (text ++ ending, cursor)

end SchemaBoard.Yaml
