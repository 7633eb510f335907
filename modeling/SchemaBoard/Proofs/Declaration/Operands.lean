import SchemaBoard.Proofs.Declaration.Alias
import SchemaBoard.Proofs.Declaration.Found

set_option autoImplicit false

/-!
The operands of aliases that list no members. An alias that was read is written with those of its
operands that are not blank. Main statement: if its operator stays the outermost one, the written
right-hand side is read as an alias of the same operands.
-/
namespace SchemaBoard

open Text (Brackets Solid OnlyFeeds)

namespace Text

/-- The parts of a text that was cut are trimmed parts of it. -/
theorem of_mem_splitOutside {brackets : Brackets} {delimiter text part : Text}
    (here : part ∈ splitOutside brackets delimiter text) : Trimmed part ∧ part ⊆ text := by
  obtain ⟨piece, -, rfl⟩ := List.mem_map.mp (mem_dropEmptyLast here)
  exact ⟨trimmed_trim piece, (isInfix_of_mem_splitOutside here).subset⟩

end Text

namespace Outline

def visible (texts : List Text) : List Text := texts.filter fun text => !Text.allBlank text

theorem visible_eq_self {texts : List Text} (solid : ∀ text ∈ texts, Solid text) :
    visible texts = texts := by
  rw [visible, List.filter_eq_self]
  intro text here
  obtain ⟨c, rest, rfl, seen⟩ := (solid text here).exists_head
  simp [Text.allBlank, seen]

def spaced (operator : CodePoint) : Text := [.char ' '] ++ operator :: [.char ' ']

/-- Solid texts that an operator joins and cuts again; a text alone may only be cut behind its
end. -/
structure AreOperands (operator : CodePoint) (texts : List Text) : Prop where
  some : texts ≠ []
  solid : ∀ text ∈ texts, Solid text
  feeds : ∀ text ∈ texts, OnlyFeeds text
  several : 1 < texts.length → Text.splitTop [operator] (Text.join (spaced operator) texts) = texts
  alone : texts.length ≤ 1 →
    (Text.splitTop [operator] (Text.join (spaced operator) texts)).length ≤ 1

section Operands

variable {operator : CodePoint} {root : Text}

theorem areOperands_singleton (solid : Solid root) (feeds : OnlyFeeds root)
    (whole : (Text.splitTop [operator] root).length ≤ 1) : AreOperands operator [root] where
  some := List.cons_ne_nil _ _
  solid := fun _ here => List.mem_singleton.mp here ▸ solid
  feeds := fun _ here => List.mem_singleton.mp here ▸ feeds
  several := fun more => absurd more (Nat.lt_irrefl 1)
  alone := fun _ => by rwa [Text.join_singleton]

/-- The parts of a right-hand side that are not blank are operands. -/
theorem areOperands_visible (neutral : Brackets.plain.Neutral operator) (feeds : OnlyFeeds root)
    (some : visible (Text.splitTop [operator] root) ≠ []) :
    AreOperands operator (visible (Text.splitTop [operator] root)) := by
  have solid : ∀ text ∈ visible (Text.splitTop [operator] root), Solid text := by
    intro text here
    obtain ⟨inside, seen⟩ := List.mem_filter.mp here
    refine ⟨?_, (Text.of_mem_splitOutside inside).1⟩
    rintro rfl
    cases seen
  have row := (Text.row_splitOutside neutral root).sublist
    (List.filter_sublist (p := fun text => !Text.allBlank text))
  have cut : Text.splitTop [operator]
      (Text.join (spaced operator) (visible (Text.splitTop [operator] root))) =
        visible (Text.splitTop [operator] root) :=
    row.splitOutside_join neutral (by decide) (by decide) solid
  refine ⟨some, solid, fun text here => ?_, fun _ => cut, fun most => by rwa [cut]⟩
  exact feeds.subset (Text.of_mem_splitOutside (List.mem_filter.mp here).1).2

end Operands

section Alias

variable {declaration : Declaration}

def operator (declaration : Declaration) : CodePoint :=
  if (visible declaration.unionTypes).isEmpty then '&' else '|'

def operands (declaration : Declaration) : List Text :=
  if !(visible declaration.unionTypes).isEmpty then visible declaration.unionTypes
  else if !(visible declaration.intersectionTypes).isEmpty then
    visible declaration.intersectionTypes
  else ["unknown".toText]

theorem operands_eq (declaration : Declaration) :
    (visible declaration.unionTypes ≠ [] ∧ declaration.operator = '|' ∧
      declaration.operands = visible declaration.unionTypes) ∨
    (visible declaration.unionTypes = [] ∧ declaration.operator = '&' ∧
      visible declaration.intersectionTypes ≠ [] ∧
      declaration.operands = visible declaration.intersectionTypes) ∨
    (visible declaration.unionTypes = [] ∧ visible declaration.intersectionTypes = [] ∧
      declaration.operator = '&' ∧ declaration.operands = ["unknown".toText]) := by
  rw [operator, operands]
  by_cases union : visible declaration.unionTypes = []
  · by_cases intersection : visible declaration.intersectionTypes = []
    · simp [union, intersection]
    · simp [union, intersection]
  · simp [union]

theorem aliasRoot_eq (noFields : declaration.fields = []) :
    aliasRoot declaration = Text.join (spaced declaration.operator) declaration.operands := by
  have unfolded : aliasRoot declaration =
      if !(visible declaration.unionTypes).isEmpty then
        Text.join " | ".toText (visible declaration.unionTypes)
      else if !(visible declaration.intersectionTypes).isEmpty then
        Text.join " & ".toText (visible declaration.intersectionTypes)
      else "unknown".toText := by
    rw [aliasRoot, noFields]
    rfl
  rw [unfolded]
  rcases operands_eq declaration with ⟨union, mark, eq⟩ | ⟨union, mark, intersection, eq⟩ |
    ⟨union, intersection, mark, eq⟩
  · rw [mark, eq, if_pos (by simpa using union)]
    rfl
  · rw [mark, eq, if_neg (by simpa using union), if_pos (by simpa using intersection)]
    rfl
  · rw [mark, eq, if_neg (by simpa using union), if_neg (by simpa using intersection)]
    rfl

/-- What is known about an alias that is read says the same about what it is written with. -/
theorem IsFound.areOperands (found : declaration.IsFound) (kind : declaration.kind = .type) :
    AreOperands declaration.operator declaration.operands := by
  obtain ⟨interface, -⟩ | ⟨root, solid, feeds, whole⟩ := found.form
  · rw [kind] at interface
    cases interface
  have union : visible declaration.unionTypes ≠ [] →
      AreOperands '|' (visible declaration.unionTypes) := by
    intro some
    rcases ofRightHandSide_cases declaration.name root with ⟨inside, -, eq⟩ | ⟨-, eq⟩ | ⟨-, eq⟩ |
      ⟨count, eq⟩ <;> rw [whole, eq] at some ⊢
    · exact absurd rfl some
    · exact areOperands_visible (by decide) feeds some
    · exact absurd rfl some
    · have only : visible [root] = [root] :=
        visible_eq_self fun text here => List.mem_singleton.mp here ▸ solid
      show AreOperands '|' (visible [root])
      rw [only]
      exact areOperands_singleton solid feeds count
  have intersection : visible declaration.intersectionTypes ≠ [] →
      AreOperands '&' (visible declaration.intersectionTypes) := by
    intro some
    rcases ofRightHandSide_cases declaration.name root with ⟨inside, -, eq⟩ | ⟨-, eq⟩ | ⟨-, eq⟩ |
      ⟨-, eq⟩ <;> rw [whole, eq] at some ⊢
    · exact absurd rfl some
    · exact absurd rfl some
    · exact areOperands_visible (by decide) feeds some
    · exact absurd rfl some
  rcases operands_eq declaration with ⟨some, mark, eq⟩ | ⟨-, mark, some, eq⟩ | ⟨-, -, mark, eq⟩
  · rw [mark, eq]
    exact union some
  · rw [mark, eq]
    exact intersection some
  · rw [mark, eq]
    exact areOperands_singleton (by decide) (Text.SingleLine.onlyFeeds (by decide)) (by decide)

theorem AreOperands.onlyFeeds_aliasRoot
    (known : AreOperands declaration.operator declaration.operands)
    (noFields : declaration.fields = []) : OnlyFeeds (aliasRoot declaration) := by
  have between : OnlyFeeds (spaced declaration.operator) := by
    rw [operator]
    split <;> exact Text.SingleLine.onlyFeeds (by decide)
  rw [aliasRoot_eq noFields]
  exact between.join known.feeds

theorem AreOperands.solid_aliasRoot
    (known : AreOperands declaration.operator declaration.operands)
    (noFields : declaration.fields = []) : Solid (aliasRoot declaration) := by
  rw [aliasRoot_eq noFields]
  exact Solid.join _ known.some known.solid

/-- Whether the operator of an alias is the outermost one of its written right-hand side, outside of
any braces. -/
def keepsOperator (declaration : Declaration) : Bool :=
  (Text.unwrap? '\x7b' '\x7d' (aliasRoot declaration)).isNone &&
    if declaration.operator = '&' then (Text.splitTop ['|'] (aliasRoot declaration)).length ≤ 1
    else 1 < declaration.operands.length ||
      (Text.splitTop ['&'] (aliasRoot declaration)).length ≤ 1

/-- The alias of the operands that another one is written with; one operand alone makes a union. -/
def regained (declaration : Declaration) : Declaration :=
  if declaration.operator = '&' ∧ 1 < declaration.operands.length then
    { name := declaration.name, intersectionTypes := declaration.operands }
  else { name := declaration.name, unionTypes := declaration.operands }

theorem regained_parts (declaration : Declaration) :
    declaration.regained.name = declaration.name ∧ declaration.regained.kind = .type ∧
      declaration.regained.bases = [] ∧ declaration.regained.fields = [] := by
  rw [regained]
  split <;> exact ⟨rfl, rfl, rfl, rfl⟩

theorem operator_of_ne (other : declaration.operator ≠ '&') : declaration.operator = '|' := by
  rw [operator] at other ⊢
  split at other
  · exact absurd rfl other
  · next some => rw [if_neg some]

theorem AreOperands.eq_singleton {mark : CodePoint} {texts : List Text}
    (known : AreOperands mark texts) (most : ¬1 < texts.length) : ∃ text, texts = [text] := by
  match texts with
  | [] => exact absurd rfl known.some
  | [text] => exact ⟨text, rfl⟩
  | first :: second :: rest => simp at most

/-- The written right-hand side is read as what it was written with. -/
theorem ofRightHandSide_aliasRoot (known : AreOperands declaration.operator declaration.operands)
    (noFields : declaration.fields = []) (keeps : keepsOperator declaration = true) :
    ofRightHandSide declaration.name (aliasRoot declaration) = declaration.regained := by
  have written := aliasRoot_eq noFields
  have several := known.several
  have alone := known.alone
  rw [← written] at several alone
  have single : ¬1 < declaration.operands.length →
      declaration.operands = [aliasRoot declaration] := by
    intro most
    obtain ⟨text, eq⟩ := known.eq_singleton most
    rw [written, eq, Text.join_singleton]
  simp only [keepsOperator, Bool.and_eq_true, Option.isNone_iff_eq_none] at keeps
  obtain ⟨noBraces, outermost⟩ := keeps
  rw [ofRightHandSide, noBraces, regained]
  dsimp only
  by_cases conjunction : declaration.operator = '&'
  · rw [if_pos conjunction, decide_eq_true_eq] at outermost
    rw [conjunction] at several alone
    rw [if_neg (Nat.not_lt.mpr outermost)]
    by_cases more : 1 < declaration.operands.length
    · rw [several more, if_pos more, if_pos ⟨conjunction, more⟩]
    · rw [if_neg (Nat.not_lt.mpr (alone (Nat.le_of_not_lt more))),
        if_neg (fun both : declaration.operator = '&' ∧ _ => more both.2), single more]
  · rw [if_neg conjunction, Bool.or_eq_true, decide_eq_true_eq, decide_eq_true_eq] at outermost
    rw [operator_of_ne conjunction] at several alone
    rw [if_neg (fun both : declaration.operator = '&' ∧ _ => conjunction both.1)]
    by_cases more : 1 < declaration.operands.length
    · rw [several more, if_pos more]
    · rw [if_neg (Nat.not_lt.mpr (alone (Nat.le_of_not_lt more))),
        if_neg (Nat.not_lt.mpr (outermost.resolve_left more)), single more]

/-- Operands that are gained again are written as they were. -/
theorem aliasRoot_regained (known : AreOperands declaration.operator declaration.operands)
    (noFields : declaration.fields = []) :
    declaration.regained.operands = declaration.operands ∧
      aliasRoot declaration.regained = aliasRoot declaration := by
  have same := visible_eq_self known.solid
  have some := known.some
  by_cases conjunction : declaration.operator = '&' ∧ 1 < declaration.operands.length
  · have eq : declaration.regained =
        { name := declaration.name, intersectionTypes := declaration.operands } :=
      if_pos conjunction
    have back : declaration.regained.operands = declaration.operands ∧
        declaration.regained.operator = '&' := by
      rw [eq, operands, operator, same]
      simp [visible, some]
    refine ⟨back.1, ?_⟩
    rw [aliasRoot_eq noFields, aliasRoot_eq (by rw [eq]), back.1, back.2, conjunction.1]
  · have eq : declaration.regained =
        { name := declaration.name, unionTypes := declaration.operands } :=
      if_neg conjunction
    have back : declaration.regained.operands = declaration.operands ∧
        declaration.regained.operator = '|' := by
      rw [eq, operands, operator, same]
      simp [some]
    refine ⟨back.1, ?_⟩
    rw [aliasRoot_eq noFields, aliasRoot_eq (by rw [eq]), back.1, back.2]
    by_cases more : 1 < declaration.operands.length
    · rw [operator_of_ne fun mark => conjunction ⟨mark, more⟩]
    · obtain ⟨text, single⟩ := known.eq_singleton more
      rw [single, Text.join_singleton, Text.join_singleton]

end Alias

end Outline

end SchemaBoard
