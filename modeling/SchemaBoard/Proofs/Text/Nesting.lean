import SchemaBoard.Proofs.Text.Lines
import SchemaBoard.Text.Nesting

set_option autoImplicit false

/-!
Nested brackets. A text seals some characters if its brackets are nested and none of these
characters stands outside of them. Main statements: texts in a row are cut one behind the other, and
sealed parts are read back from the text that joins them.
-/
namespace SchemaBoard.Text

/-- Outside of all brackets, a closer or a barred character has no place. -/
def Brackets.Stuck (brackets : Brackets) (barred : Text) (depth : Nat) (c : CodePoint) : Prop :=
  depth = 0 ∧ c ∉ brackets.openers ∧ (c ∈ brackets.closers ∨ c ∈ barred)

instance (brackets : Brackets) (barred : Text) (depth : Nat) (c : CodePoint) :
    Decidable (brackets.Stuck barred depth c) :=
  inferInstanceAs (Decidable (_ ∧ _))

/-- The depth behind a text in which no closer lacks its opener and no barred character stands at
depth zero. -/
def Brackets.levelBehind? (brackets : Brackets) (barred : Text) : Nat → Text → Option Nat
  | depth, [] => some depth
  | depth, c :: rest =>
    if brackets.Stuck barred depth c then none
    else levelBehind? brackets barred (brackets.depthAfter depth c) rest

/-- The brackets of the text are nested, with no barred character outside of them. -/
def Brackets.Seals (brackets : Brackets) (barred text : Text) : Prop :=
  brackets.levelBehind? barred 0 text = some 0

instance (brackets : Brackets) (barred text : Text) : Decidable (brackets.Seals barred text) :=
  inferInstanceAs (Decidable (_ = _))

def Brackets.braces : Brackets := ⟨['{'], ['}']⟩

def Brackets.depthBehind (brackets : Brackets) (depth : Nat) (text : Text) : Nat :=
  text.foldl brackets.depthAfter depth

/-- The pieces of two lists in a row, such as texts: one piece goes on across the border. -/
def glue {Part : Type} : List (List Part) → List (List Part) → List (List Part)
  | [], second => second
  | [last], [] => [last]
  | [last], next :: rest => (last ++ next) :: rest
  | first :: other :: rest, second => first :: glue (other :: rest) second

section Levels

variable {brackets : Brackets} {barred : Text}

theorem levelBehind?_cons {depth level : Nat} {c : CodePoint} {rest : Text} :
    brackets.levelBehind? barred depth (c :: rest) = some level ↔
      ¬brackets.Stuck barred depth c ∧
        brackets.levelBehind? barred (brackets.depthAfter depth c) rest = some level := by
  rw [Brackets.levelBehind?]
  split
  · next stuck => simp [stuck]
  · next free => simp [free]

theorem levelBehind?_append (depth : Nat) (first second : Text) :
    brackets.levelBehind? barred depth (first ++ second) =
      (brackets.levelBehind? barred depth first).bind fun level =>
        brackets.levelBehind? barred level second := by
  induction first generalizing depth with
  | nil => rfl
  | cons c first ih =>
    simp only [List.cons_append, Brackets.levelBehind?]
    split
    · rfl
    · exact ih _

/-- One level deeper nothing is barred. -/
theorem levelBehind?_inside {other text : Text} {depth level : Nat}
    (h : brackets.levelBehind? other depth text = some level) :
    brackets.levelBehind? barred (depth + 1) text = some (level + 1) := by
  induction text generalizing depth with
  | nil =>
    obtain rfl := Option.some.inj h
    rfl
  | cons c rest ih =>
    obtain ⟨free, later⟩ := levelBehind?_cons.mp h
    have deeper : brackets.depthAfter (depth + 1) c = brackets.depthAfter depth c + 1 := by
      simp only [Brackets.depthAfter]
      split
      · rfl
      · next plain =>
        split
        · next closes =>
          have positive : depth ≠ 0 := fun zero => free ⟨zero, plain, Or.inl closes⟩
          omega
        · rfl
    refine levelBehind?_cons.mpr ⟨fun stuck => absurd stuck.1 (Nat.succ_ne_zero depth), ?_⟩
    rw [deeper]
    exact ih later

theorem depthBehind_cons (depth : Nat) (c : CodePoint) (rest : Text) :
    brackets.depthBehind depth (c :: rest) =
      brackets.depthBehind (brackets.depthAfter depth c) rest := rfl

theorem depthBehind_eq_of_level {text : Text} {depth level : Nat}
    (h : brackets.levelBehind? barred depth text = some level) :
    brackets.depthBehind depth text = level := by
  induction text generalizing depth with
  | nil => exact Option.some.inj h
  | cons c rest ih =>
    rw [depthBehind_cons]
    exact ih (levelBehind?_cons.mp h).2

/-- Brackets and barred characters that are the same throughout a text give the same levels. -/
theorem levelBehind?_congr {other : Brackets} {barredThere text : Text} (depth : Nat)
    (openers : ∀ c ∈ text, c ∈ other.openers ↔ c ∈ brackets.openers)
    (closers : ∀ c ∈ text, c ∈ other.closers ↔ c ∈ brackets.closers)
    (bars : ∀ c ∈ text, c ∈ barredThere ↔ c ∈ barred) :
    other.levelBehind? barredThere depth text = brackets.levelBehind? barred depth text := by
  induction text generalizing depth with
  | nil => rfl
  | cons c rest ih =>
    have step := fun level => ih level
      (fun d member => openers d (List.mem_cons_of_mem c member))
      (fun d member => closers d (List.mem_cons_of_mem c member))
      (fun d member => bars d (List.mem_cons_of_mem c member))
    have stuck : other.Stuck barredThere depth c ↔ brackets.Stuck barred depth c := by
      simp only [Brackets.Stuck, openers c (by simp), closers c (by simp), bars c (by simp)]
    have level : other.depthAfter depth c = brackets.depthAfter depth c := by
      simp only [Brackets.depthAfter, openers c (by simp), closers c (by simp)]
    rw [Brackets.levelBehind?, Brackets.levelBehind?, level, step]
    exact ite_congr (propext stuck) (fun _ => rfl) (fun _ => rfl)

theorem Brackets.Seals.append {first second : Text} (left : brackets.Seals barred first)
    (right : brackets.Seals barred second) : brackets.Seals barred (first ++ second) := by
  rw [Brackets.Seals, levelBehind?_append, left]
  exact right

/-- A bracket around a nested text seals every character of it. -/
theorem Brackets.Seals.wrap {other inside : Text} {opener closer : CodePoint}
    (nested : brackets.Seals other inside) (opens : opener ∈ brackets.openers)
    (closes : closer ∈ brackets.closers) (apart : closer ∉ brackets.openers) :
    brackets.Seals barred (opener :: inside ++ [closer]) := by
  have deeper : brackets.depthAfter 0 opener = 1 := if_pos opens
  have back : brackets.depthAfter 1 closer = 0 := by
    rw [Brackets.depthAfter, if_neg apart, if_pos closes]
  rw [List.cons_append, Brackets.Seals, levelBehind?_cons, deeper, levelBehind?_append,
    levelBehind?_inside nested]
  refine ⟨fun stuck => stuck.2.1 opens, ?_⟩
  rw [Option.bind_some, levelBehind?_cons, back]
  exact ⟨fun stuck => absurd stuck.1 (by omega), rfl⟩

theorem Brackets.Seals.flat {text : Text}
    (plain : ∀ c ∈ text, c ∉ brackets.openers ∧ c ∉ brackets.closers ∧ c ∉ barred) :
    brackets.Seals barred text := by
  induction text with
  | nil => rfl
  | cons c rest ih =>
    obtain ⟨opens, closes, bars⟩ := plain c (by simp)
    have level : brackets.depthAfter 0 c = 0 := by
      rw [Brackets.depthAfter, if_neg opens, if_neg closes]
    rw [Brackets.Seals, levelBehind?_cons, level]
    refine ⟨?_, ih fun d member => plain d (List.mem_cons_of_mem c member)⟩
    rintro ⟨-, -, here | here⟩
    · exact closes here
    · exact bars here

theorem levelBehind?_mono {fewer text : Text} {depth level : Nat} (subset : fewer ⊆ barred)
    (h : brackets.levelBehind? barred depth text = some level) :
    brackets.levelBehind? fewer depth text = some level := by
  induction text generalizing depth with
  | nil => exact h
  | cons c rest ih =>
    obtain ⟨free, later⟩ := levelBehind?_cons.mp h
    refine levelBehind?_cons.mpr ⟨?_, ih later⟩
    rintro ⟨zero, plain, here | here⟩
    · exact free ⟨zero, plain, Or.inl here⟩
    · exact free ⟨zero, plain, Or.inr (subset here)⟩

theorem Brackets.Seals.mono {fewer text : Text} (subset : fewer ⊆ barred)
    (sealed : brackets.Seals barred text) : brackets.Seals fewer text :=
  levelBehind?_mono subset sealed

theorem Brackets.Seals.join {separator : Text} {parts : List Text}
    (between : brackets.Seals barred separator)
    (sealed : ∀ part ∈ parts, brackets.Seals barred part) :
    brackets.Seals barred (join separator parts) := by
  induction parts with
  | nil => rfl
  | cons part rest ih =>
    have first := sealed part (by simp)
    by_cases last : rest = []
    · rw [last, join_singleton]
      exact first
    · rw [join_cons_of_ne_nil separator part last]
      exact (first.append between).append
        (ih fun other member => sealed other (List.mem_cons_of_mem part member))

end Levels

section Pieces

variable (brackets : Brackets) (delimiter : Text)

theorem pieces_cons_of_cut {depth : Nat} {c : CodePoint} {rest : Text}
    (cut : [c] = delimiter ∧ brackets.depthAfter depth c = 0) :
    pieces brackets delimiter depth (c :: rest) = [] :: pieces brackets delimiter 0 rest := by
  rw [pieces]
  exact if_pos cut

/-- A character that is no cut goes in front of the first piece behind it. -/
theorem pieces_cons_of_not_cut {depth : Nat} {c : CodePoint} {rest : Text}
    (inside : ¬([c] = delimiter ∧ brackets.depthAfter depth c = 0)) :
    pieces brackets delimiter depth (c :: rest) =
      glue [[c]] (pieces brackets delimiter (brackets.depthAfter depth c) rest) := by
  rw [pieces]
  simp only [inside, if_false]
  cases pieces brackets delimiter (brackets.depthAfter depth c) rest <;> rfl

theorem glue_cons {Part : Type} {first : List Part} {others second : List (List Part)}
    (more : others ≠ []) : glue (first :: others) second = first :: glue others second := by
  cases others with
  | nil => exact absurd rfl more
  | cons other rest => rfl

theorem glue_nil {Part : Type} (pieces : List (List Part)) : glue pieces [] = pieces := by
  induction pieces with
  | nil => rfl
  | cons piece rest ih =>
    cases rest with
    | nil => rfl
    | cons next others => exact congrArg (piece :: ·) ih

/-- One piece goes on across the border. -/
theorem glue_concat_cons {Part : Type} (front : List (List Part)) (last next : List Part)
    (rest : List (List Part)) :
    glue (front ++ [last]) (next :: rest) = front ++ (last ++ next) :: rest := by
  induction front with
  | nil => rfl
  | cons piece front ih => rw [List.cons_append, glue_cons (by simp), ih, List.cons_append]

theorem flatten_glue {Part : Type} (first second : List (List Part)) :
    (glue first second).flatten = first.flatten ++ second.flatten := by
  induction first with
  | nil => rfl
  | cons piece rest ih =>
    cases rest with
    | nil => cases second <;> simp [glue]
    | cons next others => simp [glue_cons, ih]

theorem glue_singleton_glue (piece : Text) {first : List Text} (second : List Text)
    (left : first ≠ []) : glue [piece] (glue first second) = glue (glue [piece] first) second := by
  match first, second with
  | [], _ => exact absurd rfl left
  | [last], [] => rfl
  | [last], next :: rest => simp [glue]
  | one :: other :: rest, second => rfl

/-- Two texts in a row are cut one behind the other. -/
theorem pieces_append (depth : Nat) (first second : Text) :
    pieces brackets delimiter depth (first ++ second) =
      glue (pieces brackets delimiter depth first)
        (pieces brackets delimiter (brackets.depthBehind depth first) second) := by
  induction first generalizing depth with
  | nil =>
    obtain ⟨piece, others, eq⟩ :=
      List.exists_cons_of_ne_nil (pieces_ne_nil brackets delimiter depth second)
    simp [pieces, Brackets.depthBehind, eq, glue]
  | cons c first ih =>
    have nonempty := pieces_ne_nil brackets delimiter (brackets.depthAfter depth c) first
    by_cases cut : [c] = delimiter ∧ brackets.depthAfter depth c = 0
    · rw [List.cons_append, pieces_cons_of_cut _ _ cut, pieces_cons_of_cut _ _ cut, ih,
        glue_cons (pieces_ne_nil _ _ _ _), Brackets.depthBehind, Brackets.depthBehind,
        List.foldl_cons, cut.2]
    · rw [List.cons_append, pieces_cons_of_not_cut _ _ cut, pieces_cons_of_not_cut _ _ cut, ih,
        glue_singleton_glue _ _ nonempty, Brackets.depthBehind, Brackets.depthBehind,
        List.foldl_cons]

/-- A sealed text is not cut. -/
theorem pieces_of_level {barred text : Text} {mark : CodePoint} {depth level : Nat}
    (bars : mark ∈ barred) (apart : mark ∉ brackets.closers)
    (h : brackets.levelBehind? barred depth text = some level) :
    pieces brackets [mark] depth text = [text] := by
  induction text generalizing depth with
  | nil => rfl
  | cons c rest ih =>
    obtain ⟨free, later⟩ := levelBehind?_cons.mp h
    have goesOn : ¬([c] = [mark] ∧ brackets.depthAfter depth c = 0) := by
      rintro ⟨same, zero⟩
      obtain rfl := List.head_eq_of_cons_eq same
      rw [Brackets.depthAfter, if_neg apart] at zero
      split at zero
      · cases zero
      · next plain =>
        exact free ⟨zero, plain, Or.inr bars⟩
    rw [pieces_cons_of_not_cut _ _ goesOn, ih later]
    rfl

/-- A text without the mark is not cut there. -/
theorem pieces_of_not_mem (brackets : Brackets) {mark : CodePoint} {text : Text}
    (free : mark ∉ text) (depth : Nat) : pieces brackets [mark] depth text = [text] := by
  induction text generalizing depth with
  | nil => rfl
  | cons c rest ih =>
    have goesOn : ¬([c] = [mark] ∧ brackets.depthAfter depth c = 0) := by
      rintro ⟨same, -⟩
      exact free (List.head_eq_of_cons_eq same ▸ List.mem_cons_self)
    rw [pieces_cons_of_not_cut _ _ goesOn, ih fun member => free (List.mem_cons_of_mem c member)]
    rfl

end Pieces

end SchemaBoard.Text
