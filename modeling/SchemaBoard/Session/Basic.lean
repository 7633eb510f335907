import SchemaBoard.Board.Basic
import SchemaBoard.Session.Clock
import SchemaBoard.Settings.Basic

set_option autoImplicit false

/-!
Editing sessions: a board, what is selected on it, and the supply of ids. Every change of a session
is made here; a change takes the clock from which its times are read.
-/
namespace SchemaBoard

/-- A board that is being edited. -/
structure Session where
  /-- The defaults for new boxes. -/
  settings : Settings
  /-- The board. -/
  board : Board
  /-- The ids of the selected boxes, in the order of their selection. -/
  selection : List Text := []
  /-- The id of the property in focus. -/
  focus : Option Text := none
  /-- How many ids have been issued. -/
  issued : Nat := 0
deriving Repr

/-- The draft of the box that a declaration becomes. The clock is read for both of its times. -/
def Outline.dated (clock : Clock) (draft : OutlineDraft) : BoxDraft :=
  { toOutline := draft, createdAt := clock.reading 0, updatedAt := clock.reading 1 }

namespace Session

def new (settings : Settings) (now : Int) : Session :=
  { settings := settings, board := { updatedAt := now } }

def insert (now : Int) (box : Box) (issued : Nat) (session : Session) : Session :=
  { session with board := session.board.insert now box, issued := issued }

/-- Puts a declaration on the board, as a box with a fresh id. The clock is read for the board once
the box has its times. -/
def insertDeclaration (ids : IdSource) (clock : Clock) (draft : OutlineDraft) (session : Session) :
    Session × Text :=
  let (box, issued) := (draft.dated clock).settle ids (clock.reading 2) session.issued
  (session.insert (clock.reading 2) box issued, box.id)

def insertAll (ids : IdSource) : Clock → List OutlineDraft → Session → Session × List Text
  | _, [], session => (session, [])
  | clock, draft :: rest, session =>
    let (session, id) := session.insertDeclaration ids clock draft
    let (session, others) := insertAll ids (clock.after 3) rest session
    (session, id :: others)

/-- Puts a box on the board and makes it the only selected one. -/
def addBox (ids : IdSource) (clock : Clock) (draft : OutlineDraft) (session : Session) :
    Session × Text :=
  let (session, id) := session.insertDeclaration ids clock draft
  ({ session with selection := [id], focus := none }, id)

def nextName (session : Session) : Text :=
  session.settings.nameStem ++ Text.ofNat (session.board.order.length + 1)

/-- Replaces the box under a key of the board. The clock is read for the last change of the box, and
then for that of the board. -/
def replaceBox (clock : Clock) (key : Text) (box : Box) (session : Session) : Session :=
  { session with
    board := session.board.replace (clock.reading 1) key
      { box with updatedAt := clock.reading 0 } }

/-- Takes boxes off the board and out of the selection. The focus is lost with its box. -/
def removeBoxes (clock : Clock) (keys : List Text) (session : Session) : Session :=
  let doomed := keys.filter fun key => (session.board.get? key).isSome
  if doomed.isEmpty then session
  else
    let gone := (doomed.filterMap session.board.get?).flatMap fun box => box.fields.map Property.id
    { session with
      board := session.board.removeAll (clock.reading 0) doomed
      selection := session.selection.filter fun key => !doomed.contains key
      focus := session.focus.filter fun id => !gone.contains id }

/-- Puts a property behind the others of a box. -/
def addProperty (ids : IdSource) (clock : Clock) (key : Text) (box : Box) (draft : PropertyDraft)
    (session : Session) : Session × List Property :=
  let (added, issued) := PropertyDraft.settleAll ids session.issued [draft]
  let session := session.replaceBox clock key { box with fields := box.fields ++ added }
  ({ session with issued := issued }, added)

/-- Takes the properties of an id out of a box. The focus is lost with its property. -/
def removeProperty (clock : Clock) (key : Text) (box : Box) (id : Text) (session : Session) :
    Session :=
  let session := session.replaceBox clock key
    { box with fields := box.fields.filter fun property => property.id ≠ id }
  { session with focus := session.focus.filter (· ≠ id) }

/-- Changes the selection: to nothing, to one box, or by one box that is put in or taken out. A box
that is not on the board changes nothing. -/
def select (key : Option Text) (additive : Bool) (session : Session) : Session :=
  match key with
  | none => { session with selection := [], focus := none }
  | some key =>
    if (session.board.get? key).isNone then session
    else if !additive then { session with selection := [key], focus := none }
    else if session.selection.contains key then
      { session with selection := session.selection.filter (· ≠ key) }
    else { session with selection := session.selection ++ [key] }

end Session
end SchemaBoard
