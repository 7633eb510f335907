import SchemaBoard.Data.Display
import SchemaBoard.Declaration.Batch
import SchemaBoard.Session.Basic
import SchemaBoard.Session.Edit

set_option autoImplicit false

/-!
Commands of a session. What a command brings along is untyped and checked before the session
changes; a command that is refused, or whose box or property is not on the board, changes nothing.
-/
namespace SchemaBoard

/-- Something to be done with a session. -/
inductive Command where
  /-- Makes a box. Without properties it gets the default ones. -/
  | addBox (name kind properties : Data)
  /-- Makes a box of a declaration. -/
  | insertDeclaration (declaration : Data)
  /-- Sets the fields of a box that a patch names. -/
  | updateBox (box : Text) (patch : Data)
  /-- Moves a box. -/
  | updatePosition (box : Text) (x y : Data)
  /-- Takes a box off the board. -/
  | removeBox (box : Text)
  /-- Takes boxes off the board. -/
  | removeBoxes (boxes : List Text)
  /-- Makes a property of a box; without a type it is a string. -/
  | addProperty (box : Text) (name type optional readonly : Data)
  /-- Sets the fields of a property that a patch names. -/
  | updateProperty (box property : Text) (patch : Data)
  /-- Takes a property out of a box. -/
  | removeProperty (box property : Text)
  /-- Changes the selection. -/
  | select (box : Option Text) (additive : Bool)
  /-- Changes the property in focus; any id will do. -/
  | selectProperty (property : Option Text)
  /-- Asks for a box. -/
  | getBox (box : Text)
  /-- Asks for the names of the boxes. -/
  | names (excluded : Option Text)
  /-- Asks for the ids of the boxes. -/
  | idsWithNames
  /-- Makes a box of every supported declaration in a text. -/
  | importSource (text : Text)
  /-- Asks for the source text of the boxes, or of those of some ids. -/
  | exportSource (boxes : Option (List Text))

inductive Answer where
  | done
  | created (id : Text)
  | property (found : Option Property)
  | box (found : Option Box)
  | pairs (entries : List (Text × Text))
  | imported (ids : List Text) (notes : List Text)
  | source (text : Text)

inductive Refusal where
  /-- Untyped input did not pass its checks. -/
  | invalid (issues : List Issue)
  /-- A kind of declaration was asked for that does not exist. -/
  | unknownKind (given : Data)
  /-- A patch is no mapping. -/
  | patchNotMapping
  /-- Properties were given as a value without parts. -/
  | propertiesNotParts

def unknownKindMessage (given : Data) : Text :=
  given.display ++ " is not a valid BoxKind".toText

namespace Session

variable [Data.Coercions]

/-- A checked value, or the refusal for what is wrong. -/
def accepted {α : Type} : Checked α → Except Refusal α
  | .valid value => .ok value
  | .faulty issues => .error (.invalid issues)

/-- The properties of a new box: those that are given, or else the default ones. -/
def newFields (properties : Data) (session : Session) : Except Refusal (List PropertyDraft) :=
  match properties with
  | .null => .ok (session.settings.members.map Member.draft)
  | given =>
    match given.parts? with
    | some items => items.mapM fun item => accepted (PropertyDraft.ofData item)
    | none => .error .propertiesNotParts

/-- The kind of a new box: the one that is given, or else the default one. -/
def newKind (kind : Data) (session : Session) : Except Refusal DeclarationKind :=
  match kind with
  | .null => .ok session.settings.defaultKind
  | .text word =>
    match DeclarationKind.ofWord? word with
    | some kind => .ok kind
    | none => .error (.unknownKind kind)
  | other => .error (.unknownKind other)

/-- The name of a new box: the one that is given, or else the next one in line. -/
def newName (name : Data) (session : Session) : Except Refusal Text :=
  if name.isNothing then .ok session.nextName
  else accepted (Checked.within (.field "name".toText) (Data.asText name))

/-- The draft of a new box. Its properties are checked first, then its kind, then its name. -/
def newBox (name kind properties : Data) (session : Session) : Except Refusal OutlineDraft := do
  let fields ← session.newFields properties
  let kind ← session.newKind kind
  let name ← session.newName name
  return { name := name, kind := kind, fields := fields }

def performAddBox (ids : IdSource) (clock : Clock) (name kind properties : Data)
    (session : Session) : Session × Except Refusal Answer :=
  match session.newBox name kind properties with
  | .error refusal => (session, .error refusal)
  | .ok draft =>
    let (session, id) := session.addBox ids clock draft
    (session, .ok (.created id))

def performInsert (ids : IdSource) (clock : Clock) (declaration : Data) (session : Session) :
    Session × Except Refusal Answer :=
  match Outline.ofData declaration with
  | .faulty issues => (session, .error (.invalid issues))
  | .valid draft =>
    let (session, id) := session.insertDeclaration ids clock draft
    (session, .ok (.created id))

def performUpdateBox (ids : IdSource) (clock : Clock) (key : Text) (patch : Data)
    (session : Session) : Session × Except Refusal Answer :=
  match session.board.get? key with
  | none => (session, .ok .done)
  | some box =>
    match patch with
    | .record fields =>
      match BoxEdit.ofFields fields with
      | .faulty issues => (session, .error (.invalid issues))
      | .valid edit =>
        let (box, issued) := edit.apply ids session.issued box
        ({ session.replaceBox clock key box with issued := issued }, .ok .done)
    | _ => (session, .error .patchNotMapping)

def performUpdatePosition (clock : Clock) (key : Text) (x y : Data) (session : Session) :
    Session × Except Refusal Answer :=
  match session.board.get? key with
  | none => (session, .ok .done)
  | some box =>
    match Position.ofFields [("x".toText, x), ("y".toText, y)] with
    | .faulty issues => (session, .error (.invalid issues))
    | .valid position =>
      (session.replaceBox clock key { box with position := position }, .ok .done)

def performAddProperty (ids : IdSource) (clock : Clock) (key : Text)
    (name type optional readonly : Data) (session : Session) :
    Session × Except Refusal Answer :=
  match session.board.get? key with
  | none => (session, .ok (.property none))
  | some box =>
    let type :=
      match type with
      | .null => .text (Primitive.keyword .string)
      | given => given
    match PropertyDraft.ofFields [("name".toText, name), ("type".toText, type),
        ("optional".toText, optional), ("readonly".toText, readonly)] with
    | .faulty issues => (session, .error (.invalid issues))
    | .valid draft =>
      let (session, added) := session.addProperty ids clock key box draft
      (session, .ok (.property added.head?))

def performUpdateProperty (clock : Clock) (key id : Text) (patch : Data) (session : Session) :
    Session × Except Refusal Answer :=
  match session.board.get? key with
  | none => (session, .ok .done)
  | some box =>
    if box.fields.all fun property => property.id ≠ id then (session, .ok .done)
    else
      match patch with
      | .record fields =>
        match PropertyEdit.ofFields fields with
        | .faulty issues => (session, .error (.invalid issues))
        | .valid edit =>
          let fields := box.fields.map fun property =>
            if property.id = id then edit.apply property else property
          (session.replaceBox clock key { box with fields := fields }, .ok .done)
      | _ => (session, .error .patchNotMapping)

def performRemoveProperty (clock : Clock) (key id : Text) (session : Session) :
    Session × Except Refusal Answer :=
  match session.board.get? key with
  | none => (session, .ok .done)
  | some box =>
    if box.fields.all fun property => property.id ≠ id then (session, .ok .done)
    else (session.removeProperty clock key box id, .ok .done)

def importNote (count : Nat) : Text :=
  "Imported ".toText ++ Text.ofNat count ++ " type box(es) from source".toText

def performImport (ids : IdSource) (clock : Clock) (text : Text) (session : Session) :
    Session × Except Refusal Answer :=
  let drafts := (Batch.read text).map (Outline.map Member.draft)
  let (session, created) := session.insertAll ids clock drafts
  (session, .ok (.imported created (Batch.notes text ++ [importNote created.length])))

/-- Does what a command asks for while the clock moves on. -/
def perform (ids : IdSource) (clock : Clock) (command : Command) (session : Session) :
    Session × Except Refusal Answer :=
  match command with
  | .addBox name kind properties => session.performAddBox ids clock name kind properties
  | .insertDeclaration declaration => session.performInsert ids clock declaration
  | .updateBox box patch => session.performUpdateBox ids clock box patch
  | .updatePosition box x y => session.performUpdatePosition clock box x y
  | .removeBox box => (session.removeBoxes clock [box], .ok .done)
  | .removeBoxes boxes => (session.removeBoxes clock boxes, .ok .done)
  | .addProperty box name type optional readonly =>
    session.performAddProperty ids clock box name type optional readonly
  | .updateProperty box property patch => session.performUpdateProperty clock box property patch
  | .removeProperty box property => session.performRemoveProperty clock box property
  | .select box additive => (session.select box additive, .ok .done)
  | .selectProperty property => ({ session with focus := property }, .ok .done)
  | .getBox box => (session, .ok (.box (session.board.get? box)))
  | .names excluded => (session, .ok (.pairs (session.board.names excluded)))
  | .idsWithNames => (session, .ok (.pairs session.board.idsWithNames))
  | .importSource text => session.performImport ids clock text
  | .exportSource boxes => (session, .ok (.source (session.board.source boxes)))

/-- The session after some commands, each done with its clock. A refused command counts as done. -/
def run (ids : IdSource) : List (Clock × Command) → Session → Session
  | [], session => session
  | (clock, command) :: rest, session => run ids rest (session.perform ids clock command).1

end Session
end SchemaBoard
