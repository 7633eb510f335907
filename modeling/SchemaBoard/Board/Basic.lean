import SchemaBoard.Board.Box
import SchemaBoard.Declaration.Printer

set_option autoImplicit false

/-!
Boards: boxes under their keys, the order in which they are declared, and a count of the changes.
-/
namespace SchemaBoard

/-- The boxes of a schema. -/
structure Board where
  /-- Each box under its key, in the order in which the keys came in. -/
  boxes : List (Text × Box) := []
  /-- The keys of the boxes in the order of their declarations. -/
  order : List Text := []
  /-- A number that grows with every change. -/
  version : Int := 1
  /-- When the board was last changed, in milliseconds. -/
  updatedAt : Int
deriving Repr

namespace Board

def keys (board : Board) : List Text := board.boxes.map Prod.fst

def get? (board : Board) (key : Text) : Option Box := board.boxes.lookup key

/-- The boxes in the order of their declarations, or the first key in that order that has none. -/
def declared (board : Board) : Except Text (List Box) :=
  board.order.mapM fun key =>
    match board.get? key with
    | some box => .ok box
    | none => .error key

/-- The boxes in the order of their declarations; keys without a box are passed over. -/
def ordered (board : Board) : List Box := board.order.filterMap board.get?

/-- Whether the order lists each key of a box once, and nothing else. -/
def isConsistent (board : Board) : Bool :=
  decide board.order.Nodup && board.order.all board.keys.contains &&
    board.keys.all board.order.contains

/-- The keys and boxes, sorted by key. -/
def sorted (board : Board) : List (Text × Box) :=
  board.boxes.mergeSort fun one other => Text.isNotBehind one.1 other.1

/-- One more change, made now. -/
def touch (now : Int) (board : Board) : Board :=
  { board with version := board.version + 1, updatedAt := now }

/-- The entries with `box` under `key`: in place of the box that stood there, or else at the
end. -/
def put (key : Text) (box : Box) : List (Text × Box) → List (Text × Box)
  | [] => [(key, box)]
  | (other, old) :: rest =>
    if other = key then (key, box) :: rest else (other, old) :: put key box rest

def insert (now : Int) (box : Box) (board : Board) : Board :=
  { board with
    boxes := put box.id box board.boxes
    order := board.order ++ [box.id] }.touch now

def replace (now : Int) (key : Text) (box : Box) (board : Board) : Board :=
  { board with boxes := put key box board.boxes }.touch now

def removeAll (now : Int) (doomed : List Text) (board : Board) : Board :=
  { board with
    boxes := board.boxes.filter fun entry => !doomed.contains entry.1
    order := board.order.filter fun key => !doomed.contains key }.touch now

@[simp] theorem touch_boxes (now : Int) (board : Board) :
    (board.touch now).boxes = board.boxes := rfl

@[simp] theorem touch_order (now : Int) (board : Board) :
    (board.touch now).order = board.order := rfl

@[simp] theorem touch_version (now : Int) (board : Board) :
    (board.touch now).version = board.version + 1 := rfl

@[simp] theorem touch_updatedAt (now : Int) (board : Board) :
    (board.touch now).updatedAt = now := rfl

/-- The pairs with the value of `name` set: in place of the value that stood there, or else at the
end. -/
def assign (name id : Text) : List (Text × Text) → List (Text × Text)
  | [] => [(name, id)]
  | (other, old) :: rest =>
    if other = name then (other, id) :: rest else (other, old) :: assign name id rest

/-- The names of the declared boxes, in the order of the first box of each name, with the id of the
last box of that name. A name to be left out may be given. -/
def names (excluded : Option Text) (board : Board) : List (Text × Text) :=
  (board.ordered.filter fun box => excluded ≠ some box.name).foldl
    (fun pairs box => assign box.name box.id pairs) []

def idsWithNames (board : Board) : List (Text × Text) :=
  board.ordered.foldl (fun pairs box => assign box.id box.name pairs) []

/-- The declarations of the board as source text; `wanted` restricts them to boxes of some ids. -/
def source (wanted : Option (List Text)) (board : Board) : Text :=
  Outline.renderAll ((board.ordered.filter fun box =>
    wanted.all fun ids => ids.contains box.id).map Box.declaration)

end Board
end SchemaBoard
