import SchemaBoard.Text.Blank

set_option autoImplicit false

/-!
Cutting a text outside its brackets. All kinds of brackets share one depth counter, which never goes
below zero. Main statements: the pieces and the delimiters between them make up the whole length, so
a piece of a text that was cut is shorter than the text.
-/
namespace SchemaBoard.Text

/-- The characters that open and close a nesting level. -/
structure Brackets where
  openers : Text
  closers : Text

/-- Angle, round and square brackets. -/
def Brackets.plain : Brackets := ⟨['<', '(', '['], ['>', ')', ']']⟩

def Brackets.withBraces : Brackets := ⟨['<', '(', '[', '{'], ['>', ')', ']', '}']⟩

/-- The depth behind `c`, given the depth before it. -/
def Brackets.depthAfter (brackets : Brackets) (depth : Nat) (c : CodePoint) : Nat :=
  if c ∈ brackets.openers then depth + 1
  else if c ∈ brackets.closers then depth - 1
  else depth

/-- The pieces of the text between delimiters at depth zero, starting at `depth`. A delimiter that
is not one character long never matches. -/
def pieces (brackets : Brackets) (delimiter : Text) : Nat → Text → List Text
  | _, [] => [[]]
  | depth, c :: rest =>
    let next := brackets.depthAfter depth c
    if [c] = delimiter ∧ next = 0 then [] :: pieces brackets delimiter 0 rest
    else
      match pieces brackets delimiter next rest with
      | [] => [[c]]
      | piece :: others => (c :: piece) :: others

def dropEmptyLast (parts : List Text) : List Text :=
  if parts.getLast? = some [] then parts.dropLast else parts

/-- The trimmed pieces of the text between delimiters at depth zero; an empty last one is
dropped. -/
def splitOutside (brackets : Brackets) (delimiter : Text) (text : Text) : List Text :=
  dropEmptyLast ((pieces brackets delimiter 0 text).map trim)

def splitTop (delimiter : Text) (text : Text) : List Text :=
  splitOutside Brackets.plain delimiter text

def splitCommas (text : Text) : List Text := (splitTop [','] text).filter (· ≠ [])

/-- What stands before the closer that brings the depth from `depth` to zero, if that closer is the
last character. -/
def beforeLastCloser? (opener closer : CodePoint) : Nat → Text → Option Text
  | _, [] => none
  | depth, c :: rest =>
    if c = opener then (beforeLastCloser? opener closer (depth + 1) rest).map (c :: ·)
    else if c = closer then
      if depth ≤ 1 then
        if rest = [] then some [] else none
      else (beforeLastCloser? opener closer (depth - 1) rest).map (c :: ·)
    else (beforeLastCloser? opener closer depth rest).map (c :: ·)

/-- The inside of a text whose first character opens a bracket that its last character closes. -/
def unwrap? (opener closer : CodePoint) : Text → Option Text
  | [] => none
  | c :: rest => if c = opener then beforeLastCloser? opener closer 1 rest else none

theorem pieces_ne_nil (brackets : Brackets) (delimiter : Text) (depth : Nat) (text : Text) :
    pieces brackets delimiter depth text ≠ [] := by
  cases text with
  | nil => simp [pieces]
  | cons c rest =>
    simp only [pieces]
    split
    · simp
    · split <;> simp

/-- The pieces and one delimiter behind each but the last make up the whole length. -/
theorem pieces_length (brackets : Brackets) (delimiter : Text) (depth : Nat) (text : Text) :
    totalLength (pieces brackets delimiter depth text) +
      (pieces brackets delimiter depth text).length = text.length + 1 := by
  induction text generalizing depth with
  | nil => simp [pieces, totalLength]
  | cons c rest ih =>
    simp only [pieces]
    split
    · have := ih 0
      simp only [totalLength, List.length_nil, List.length_cons]
      omega
    · have := ih (brackets.depthAfter depth c)
      split
      · next empty => exact absurd empty (pieces_ne_nil _ _ _ _)
      · next piece others eq =>
        rw [eq] at this
        simp only [totalLength, List.length_cons] at this ⊢
        omega

theorem length_le_totalLength {part : Text} {parts : List Text} (h : part ∈ parts) :
    part.length ≤ totalLength parts := by
  induction parts with
  | nil => simp at h
  | cons first rest ih =>
    rw [totalLength]
    rcases List.mem_cons.mp h with rfl | h
    · omega
    · have := ih h
      omega

theorem mem_dropEmptyLast {parts : List Text} {part : Text} (h : part ∈ dropEmptyLast parts) :
    part ∈ parts := by
  unfold dropEmptyLast at h
  split at h
  · exact (List.dropLast_sublist parts).subset h
  · exact h

theorem dropEmptyLast_length_le (parts : List Text) :
    (dropEmptyLast parts).length ≤ parts.length := by
  unfold dropEmptyLast
  split
  · simp
  · exact Nat.le_refl _

/-- Every piece is at least as much shorter than the text as there are further pieces. -/
theorem length_of_mem_splitOutside {brackets : Brackets} {delimiter text part : Text}
    (h : part ∈ splitOutside brackets delimiter text) :
    part.length + (splitOutside brackets delimiter text).length ≤ text.length + 1 := by
  obtain ⟨piece, member, rfl⟩ := List.mem_map.mp (mem_dropEmptyLast h)
  have total := pieces_length brackets delimiter 0 text
  have small := length_le_totalLength member
  have trimmed := trim_length_le piece
  have count := dropEmptyLast_length_le ((pieces brackets delimiter 0 text).map trim)
  simp only [List.length_map] at count
  unfold splitOutside
  omega

theorem beforeLastCloser?_length {opener closer : CodePoint} {depth : Nat} {text inside : Text}
    (h : beforeLastCloser? opener closer depth text = some inside) :
    inside.length + 1 = text.length := by
  induction text generalizing depth inside with
  | nil => simp [beforeLastCloser?] at h
  | cons c rest ih =>
    simp only [beforeLastCloser?] at h
    split at h
    · obtain ⟨tail, found, rfl⟩ := Option.map_eq_some_iff.mp h
      simp [ih found]
    · split at h
      · split at h
        · split at h
          · next empty => simp_all
          · simp at h
        · obtain ⟨tail, found, rfl⟩ := Option.map_eq_some_iff.mp h
          simp [ih found]
      · obtain ⟨tail, found, rfl⟩ := Option.map_eq_some_iff.mp h
        simp [ih found]

theorem unwrap?_length {opener closer : CodePoint} {text inside : Text}
    (h : unwrap? opener closer text = some inside) : inside.length + 2 = text.length := by
  cases text with
  | nil => simp [unwrap?] at h
  | cons c rest =>
    simp only [unwrap?] at h
    split at h
    · simp [← beforeLastCloser?_length h]
    · simp at h

end SchemaBoard.Text
