import SchemaBoard.Proofs.Text.Trim
import SchemaBoard.Text.Identifier
import SchemaBoard.Text.Lines

set_option autoImplicit false

/-!
Identifiers beside other characters. No blank, line break or mark of punctuation goes on an
identifier, so an identifier ends in front of any of them.
-/
namespace SchemaBoard.Text

/-- The numbers of the blank code points, in order. -/
def blankNumbers : List Nat :=
  [9, 10, 11, 12, 13, 28, 29, 30, 31, 32, 0x85, 0xA0, 0x1680, 0x2000, 0x2001, 0x2002, 0x2003,
    0x2004, 0x2005, 0x2006, 0x2007, 0x2008, 0x2009, 0x200A, 0x2028, 0x2029, 0x202F, 0x205F, 0x3000]

theorem number_mem_blankNumbers {c : CodePoint} (blank : isBlank c = true) :
    c.number ∈ blankNumbers := by
  simp only [isBlank, Bool.or_eq_true, Bool.and_eq_true, decide_eq_true_eq, beq_iff_eq] at blank
  simp only [blankNumbers, List.mem_cons, List.not_mem_nil, or_false]
  omega

theorem isBlank_of_isLineBreak {c : CodePoint} (breaks : isLineBreak c = true) :
    isBlank c = true := by
  simp only [isLineBreak, Bool.or_eq_true, Bool.and_eq_true, decide_eq_true_eq,
    beq_iff_eq] at breaks
  simp only [isBlank, Bool.or_eq_true, Bool.and_eq_true, decide_eq_true_eq, beq_iff_eq]
  omega

theorem isLineBreak_of_not_blank {c : CodePoint} (visible : isBlank c = false) :
    isLineBreak c = false := by
  cases breaks : isLineBreak c with
  | false => rfl
  | true => rw [isBlank_of_isLineBreak breaks] at visible; cases visible

/-- Checked over the numbers of all blanks, each of which names one code point. -/
theorem isIdentifierPart_of_blank {c : CodePoint} (blank : isBlank c = true) :
    isIdentifierPart c = false := by
  have checked : ∀ n ∈ blankNumbers,
      (CodePoint.ofNumber? n).all (fun point => !isIdentifierPart point) = true := by
    decide +kernel
  have atPoint := checked c.number (number_mem_blankNumbers blank)
  simpa [CodePoint.ofNumber?_number] using atPoint

theorem isBlank_of_isIdentifierPart {c : CodePoint} (part : isIdentifierPart c = true) :
    isBlank c = false := by
  cases blank : isBlank c with
  | false => rfl
  | true => rw [isIdentifierPart_of_blank blank] at part; cases part

theorem isIdentifierPart_of_start {c : CodePoint} (start : isIdentifierStart c = true) :
    isIdentifierPart c = true := by
  simp only [isIdentifierStart, Bool.or_eq_true, beq_iff_eq] at start
  rcases start with (letter | rfl) | rfl
  · have small : c.number < 0x80 := by
      cases c with
      | half offset => cases letter
      | char c =>
        have either : (c.isUpper || c.isLower) = true := letter
        have value : (CodePoint.char c).number = c.val.toNat := rfl
        rw [value]
        rcases (Bool.or_eq_true _ _).mp either with upper | lower
        · have bounds : c.val ≥ 'A'.val ∧ c.val ≤ 'Z'.val := of_decide_eq_true upper
          exact Nat.lt_of_le_of_lt (UInt32.le_iff_toNat_le.mp bounds.2) (by decide)
        · have last : c.val ≤ 'z'.val := of_decide_eq_true (Bool.and_eq_true_iff.mp lower).2
          exact Nat.lt_of_le_of_lt (UInt32.le_iff_toNat_le.mp last) (by decide)
    simp [isIdentifierPart, isWord, small, CodePoint.isAlphanum, letter]
  · decide
  · decide

theorem ne_of_isIdentifierPart {c : CodePoint} (mark : CodePoint) (part : isIdentifierPart c = true)
    (foreign : isIdentifierPart mark = false) : c ≠ mark := by
  rintro rfl
  rw [part] at foreign
  cases foreign

theorem isIdentifier_iff {text : Text} :
    isIdentifier text = true ↔
      ∃ c rest, text = c :: rest ∧ isIdentifierStart c = true ∧
        ∀ d ∈ rest, isIdentifierPart d = true := by
  cases text with
  | nil => simp [isIdentifier]
  | cons c rest =>
    rw [isIdentifier, Bool.and_eq_true, List.all_eq_true]
    constructor
    · intro parts
      exact ⟨c, rest, rfl, parts⟩
    · rintro ⟨_, _, ⟨⟩, parts⟩
      exact parts

theorem part_of_mem_identifier {name : Text} {c : CodePoint} (word : isIdentifier name = true)
    (member : c ∈ name) : isIdentifierPart c = true := by
  obtain ⟨first, rest, rfl, start, parts⟩ := isIdentifier_iff.mp word
  rcases List.mem_cons.mp member with rfl | member
  · exact isIdentifierPart_of_start start
  · exact parts c member

theorem not_mem_identifier {name : Text} {c : CodePoint} (word : isIdentifier name = true)
    (foreign : isIdentifierPart c = false) : c ∉ name := by
  intro member
  have part := part_of_mem_identifier word member
  rw [foreign] at part
  cases part

theorem solid_identifier {name : Text} (word : isIdentifier name = true) : Solid name where
  nonempty := by
    rintro rfl
    cases word
  trimmed :=
    ⟨fun _ first => isBlank_of_isIdentifierPart
        (part_of_mem_identifier word (List.mem_of_mem_head? first)),
      fun _ last => isBlank_of_isIdentifierPart
        (part_of_mem_identifier word (List.mem_of_mem_getLast? last))⟩

/-- An identifier is read up to the first character that cannot go on it. -/
theorem identifier?_append_of_boundary {name rest : Text} (word : isIdentifier name = true)
    (boundary : ∀ c, rest.head? = some c → isIdentifierPart c = false) :
    identifier? (name ++ rest) = some (name, rest) := by
  obtain ⟨first, tail, rfl, start, parts⟩ := isIdentifier_iff.mp word
  have stops : rest.takeWhile isIdentifierPart = [] ∧ rest.dropWhile isIdentifierPart = rest := by
    cases rest with
    | nil => exact ⟨rfl, rfl⟩
    | cons c others => simp [boundary c rfl]
  rw [List.cons_append, identifier?, if_pos start, List.takeWhile_append_of_pos parts,
    List.dropWhile_append_of_pos parts, stops.1, stops.2, List.append_nil]

theorem isPrefixOf?_eq_some_iff {word text rest : Text} :
    word.isPrefixOf? text = some rest ↔ text = word ++ rest := by
  induction word generalizing text with
  | nil => exact Option.some_inj
  | cons c word ih =>
    cases text with
    | nil =>
      show none = some rest ↔ [] = c :: (word ++ rest)
      simp
    | cons d text =>
      show (if c == d then word.isPrefixOf? text else none) = some rest ↔ _
      rw [List.cons_append, List.cons_eq_cons]
      by_cases same : c = d
      · simp [same, ih]
      · simp [same, Ne.symm same]

theorem isPrefixOf?_append (word rest : Text) : word.isPrefixOf? (word ++ rest) = some rest :=
  isPrefixOf?_eq_some_iff.mpr rfl

/-- A keyword with one blank behind it leaves what follows the blank. -/
theorem afterWord?_append (word rest : Text) {c : CodePoint} (blank : isBlank c = true) :
    afterWord? word (word ++ c :: rest) = some (trimStart rest) := by
  rw [afterWord?, isPrefixOf?_append]
  simp [blank]

theorem afterWord?_eq_none {word text : Text} (other : word.isPrefixOf? text = none) :
    afterWord? word text = none := by
  rw [afterWord?, other]

/-- In front of a mark, an identifier is no keyword. -/
theorem afterWord?_identifier_append {word name rest : Text}
    (parts : ∀ c ∈ word, isIdentifierPart c = true) (named : isIdentifier name = true)
    (boundary : ∀ c, rest.head? = some c → isIdentifierPart c = false ∧ isBlank c = false) :
    afterWord? word (name ++ rest) = none := by
  cases found : word.isPrefixOf? (name ++ rest) with
  | none => exact afterWord?_eq_none found
  | some after =>
    rw [afterWord?, found]
    cases after with
    | nil => rfl
    | cons c others =>
      have visible : isBlank c = false := by
        cases blank : isBlank c with
        | false => rfl
        | true =>
          have stop : ∀ text : Text, (∀ d, text.head? = some d → isIdentifierPart d = false) →
              text.takeWhile isIdentifierPart = [] := by
            intro text ends
            cases text with
            | nil => rfl
            | cons d text => simp [ends d rfl]
          have same := congrArg (List.takeWhile isIdentifierPart) (isPrefixOf?_eq_some_iff.mp found)
          rw [List.takeWhile_append_of_pos fun d member => part_of_mem_identifier named member,
            List.takeWhile_append_of_pos parts, stop rest fun d head => (boundary d head).1,
            stop (c :: others) fun d head => Option.some.inj head ▸ isIdentifierPart_of_blank blank,
            List.append_nil, List.append_nil] at same
          subst same
          have behind := List.append_cancel_left (isPrefixOf?_eq_some_iff.mp found)
          have seen := (boundary c (by rw [behind]; rfl)).2
          rw [blank] at seen
          cases seen
      simp [visible]

/-- What is found behind a word has blanks in front of it. -/
theorem exists_of_afterWord? {word text behind : Text}
    (found : afterWord? word text = some behind) :
    ∃ blanks, blanks ≠ [] ∧ allBlank blanks = true ∧
      (∀ c, behind.head? = some c → isBlank c = false) ∧ word ++ blanks ++ behind = text := by
  unfold afterWord? at found
  split at found
  · next c rest here =>
    split at found
    · next blank =>
      obtain rfl := Option.some.inj found
      refine ⟨c :: rest.takeWhile isBlank, List.cons_ne_nil _ _, ?_,
        fun d head => head?_trimStart rest head, ?_⟩
      · rw [allBlank, List.all_cons, blank]
        exact allBlank_takeWhile rest
      · rw [List.append_assoc, List.cons_append, takeWhile_append_trimStart]
        exact (isPrefixOf?_eq_some_iff.mp here).symm
    · cases found
  · cases found

end SchemaBoard.Text
