import SchemaBoard.TypeExpr.Basic

set_option autoImplicit false

/-!
Labels: the short text that stands for a type in a list or a menu.
-/
namespace SchemaBoard.TypeExpr

/-- The label of a container, given the labels of its arguments. `compound` says whether the first
argument has to be grouped before a suffix. -/
def containerLabel (head : Container) (compound : Bool) (labels : List Text) : Text :=
  match head with
  | .array =>
    match labels with
    | [] => "any[]".toText
    | [element] => Text.parenthesize compound element ++ "[]".toText
    | _ => .char '(' :: Text.join " | ".toText labels ++ ")[]".toText
  | .tuple => .char '[' :: Text.join ", ".toText labels ++ [.char ']']
  | .set => "Set<".toText ++ labels.headD "unknown".toText ++ [.char '>']
  | .map =>
    "Map<".toText ++ labels.headD "unknown".toText ++ ", ".toText ++
      labels.tail.headD "unknown".toText ++ [.char '>']
  | .object =>
    "Record<".toText ++ labels.headD "string".toText ++ ", ".toText ++
      labels.tail.headD "unknown".toText ++ [.char '>']
  | .generic =>
    if labels.isEmpty then "Generic".toText
    else "Generic<".toText ++ Text.join ", ".toText labels ++ [.char '>']

mutual

/-- The label of a type. A union inside an intersection and a compound array element are grouped; a
union or an intersection without members is unknown. -/
def label : TypeExpr → Text
  | primitive p => p.keyword
  | custom name => name
  | union members =>
    if members.isEmpty then "unknown".toText else Text.join " | ".toText (labels members)
  | intersection members =>
    if members.isEmpty then "unknown".toText
    else Text.join " & ".toText (groupedLabels members)
  | builtIn head arguments =>
    containerLabel head (arguments.head?.any isCompound) (labels arguments)

def labels : List TypeExpr → List Text
  | [] => []
  | type :: rest => label type :: labels rest

def groupedLabels : List TypeExpr → List Text
  | [] => []
  | type :: rest => Text.parenthesize type.isChoice (label type) :: groupedLabels rest

end

theorem labels_eq_map (types : List TypeExpr) : labels types = types.map label := by
  induction types with
  | nil => rfl
  | cons type rest ih => simp [labels, ih]

theorem groupedLabels_eq_map (types : List TypeExpr) :
    groupedLabels types = types.map fun type => Text.parenthesize type.isChoice (label type) := by
  induction types with
  | nil => rfl
  | cons type rest ih => simp [groupedLabels, ih]

end SchemaBoard.TypeExpr
