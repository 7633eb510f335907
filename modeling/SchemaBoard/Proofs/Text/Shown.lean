import SchemaBoard.Proofs.Text.Lines

set_option autoImplicit false

/-!
What the lines of a text show. A break between two texts parts what they show, and blanks around a
text show nothing, so trimming and joining at line feeds keep every visible line.
-/
namespace SchemaBoard.Text

/-- The lines that are not blank, trimmed. -/
def shownLines (lines : List Text) : List Text := (lines.map trim).filter (· ≠ [])

/-- The lines of the text that are not blank, trimmed. -/
def shown (text : Text) : List Text := shownLines (lines text)

@[simp] theorem shownLines_nil : shownLines [] = [] := rfl

@[simp] theorem shownLines_append (first second : List Text) :
    shownLines (first ++ second) = shownLines first ++ shownLines second := by
  simp [shownLines]

theorem shownLines_cons_blank {line : Text} (blank : allBlank line = true) (rest : List Text) :
    shownLines (line :: rest) = shownLines rest := by
  simp [shownLines, trim_blank blank]

theorem shownLines_cons_congr {line other : Text} (same : trim line = trim other)
    (rest : List Text) : shownLines (line :: rest) = shownLines (other :: rest) := by
  simp [shownLines, same]

theorem shownLines_eq_nil_iff {lines : List Text} :
    shownLines lines = [] ↔ ∀ line ∈ lines, allBlank line = true := by
  simp [shownLines, trim_eq_nil_iff]

/-- A break in front of a text opens one line that shows nothing. -/
theorem exists_lines_break_cons {c : CodePoint} (breaks : isLineBreak c = true) (rest : Text) :
    ∃ more, lines (c :: rest) = [] :: more ∧ shownLines more = shown rest := by
  by_cases pair : ∃ others, c = .char '\r' ∧ rest = .char '\n' :: others
  · obtain ⟨others, rfl, rfl⟩ := pair
    refine ⟨lines others, lines.eq_2 others, ?_⟩
    rw [shown, lines_feed_cons, shownLines_cons_blank rfl]
  · have noReturn : ∀ others, c = .char '\r' → rest = .char '\n' :: others → False :=
      fun others first second => pair ⟨others, first, second⟩
    exact ⟨lines rest, by rw [lines.eq_3 _ _ noReturn, if_pos breaks], rfl⟩

/-- Behind a text, a break ends its last line: what follows adds lines of its own. -/
theorem exists_lines_append_break {c : CodePoint} (breaks : isLineBreak c = true)
    (first second : Text) :
    ∃ more, lines (first ++ c :: second) = lines first ++ more ∧
      shownLines more = shown second := by
  induction first using lines.induct with
  | case1 =>
    obtain ⟨more, eq, same⟩ := exists_lines_break_cons breaks second
    refine ⟨[] :: more, eq, ?_⟩
    rw [shownLines_cons_blank rfl, same]
  | case2 rest ih =>
    obtain ⟨more, eq, same⟩ := ih
    refine ⟨more, ?_, same⟩
    rw [List.cons_append, List.cons_append, lines.eq_2, lines.eq_2, eq, List.cons_append]
  | case3 d rest noReturn ends ih =>
    rw [lines.eq_3 _ _ noReturn, if_pos ends]
    by_cases pair : d = .char '\r' ∧ rest = [] ∧ c = .char '\n'
    · obtain ⟨rfl, rfl, rfl⟩ := pair
      exact ⟨lines second, lines.eq_2 second, rfl⟩
    · have stays : ∀ others, d = .char '\r' → rest ++ c :: second = .char '\n' :: others →
          False := by
        intro others carriage feed
        cases rest with
        | nil => exact pair ⟨carriage, rfl, List.head_eq_of_cons_eq feed⟩
        | cons e rest => exact noReturn rest carriage (by rw [List.head_eq_of_cons_eq feed])
      obtain ⟨more, eq, same⟩ := ih
      refine ⟨more, ?_, same⟩
      rw [List.cons_append, lines.eq_3 _ _ stays, if_pos ends, eq, List.cons_append]
  | case4 d rest noReturn inside empty ih =>
    obtain rfl : rest = [] := Decidable.byContradiction fun visible => lines_ne_nil visible empty
    have goesOn : isLineBreak d = false := by simpa using inside
    obtain ⟨more, eq, same⟩ := exists_lines_break_cons breaks second
    refine ⟨more, ?_, same⟩
    rw [List.cons_append, lines_cons_of_not_break goesOn, lines_cons_of_not_break goesOn,
      List.nil_append, eq, empty]
    rfl
  | case5 d rest noReturn inside line others known ih =>
    have goesOn : isLineBreak d = false := by simpa using inside
    obtain ⟨more, eq, same⟩ := ih
    refine ⟨more, ?_, same⟩
    rw [List.cons_append, lines_cons_of_not_break goesOn, lines_cons_of_not_break goesOn, eq,
      known]
    rfl

/-- A break between two texts parts what they show. -/
theorem shown_append_break {c : CodePoint} (breaks : isLineBreak c = true) (first second : Text) :
    shown (first ++ c :: second) = shown first ++ shown second := by
  obtain ⟨more, eq, same⟩ := exists_lines_append_break breaks first second
  rw [shown, eq, shownLines_append, same]
  rfl

theorem shown_singleLine {line : Text} (inside : SingleLine line) :
    shown line = shownLines [line] := by
  by_cases empty : line = []
  · rw [empty]
    rfl
  · rw [shown, lines_singleLine inside empty]

/-- A text is one line, or ends with one behind a break. -/
theorem singleLine_or_exists_break (text : Text) :
    SingleLine text ∨ ∃ front c last, text = front ++ c :: last ∧ isLineBreak c = true ∧
      SingleLine last := by
  induction text with
  | nil => exact Or.inl (by decide)
  | cons c rest ih =>
    rcases ih with single | ⟨front, d, last, rfl, breaks, single⟩
    · cases breaks : isLineBreak c with
      | true => exact Or.inr ⟨[], c, rest, rfl, breaks, single⟩
      | false =>
        refine Or.inl fun d member => ?_
        rcases List.mem_cons.mp member with rfl | later
        · exact breaks
        · exact single d later
    · exact Or.inr ⟨c :: front, d, last, rfl, breaks, single⟩

theorem shownLines_visible {line : Text} (visible : allBlank line = false) :
    shownLines [line] = [trim line] := by
  have some : trim line ≠ [] := fun empty => by
    rw [trim_eq_nil_iff.mp empty] at visible
    cases visible
  simp [shownLines, some]

/-- A text that does not end with a blank shows its end last. -/
theorem exists_shown_concat {text : Text} {c : CodePoint} (last : text.getLast? = some c)
    (visible : isBlank c = false) :
    ∃ front rest, text = front ++ rest ∧ rest ≠ [] ∧ shown text = shown front ++ [trim rest] := by
  have seen : ∀ rest : Text, rest.getLast? = some c → allBlank rest = false := by
    intro rest ends
    exact Bool.eq_false_iff.mpr fun blank =>
      not_mem_of_visible blank visible (List.mem_of_getLast? ends)
  rcases singleLine_or_exists_break text with single | ⟨front, d, rest, rfl, breaks, single⟩
  · refine ⟨[], text, rfl, ?_, ?_⟩
    · rintro rfl
      cases last
    · rw [shown_singleLine single, shownLines_visible (seen text last)]
      rfl
  · have inside := isLineBreak_of_not_blank visible
    have ends : rest.getLast? = some c := by
      have whole : (d :: rest).getLast? = some c := by
        rw [List.getLast?_append] at last
        cases known : (d :: rest).getLast? with
        | none => exact absurd (List.getLast?_eq_none_iff.mp known) (List.cons_ne_nil d rest)
        | some e => rwa [known] at last
      exact getLast?_of_break_cons breaks inside whole
    have alone : allBlank [d] = true := by simp [allBlank, isBlank_of_isLineBreak breaks]
    refine ⟨front, d :: rest, rfl, List.cons_ne_nil _ _, ?_⟩
    rw [shown_append_break breaks, shown_singleLine single, shownLines_visible (seen rest ends)]
    exact congrArg (shown front ++ [·]) (trim_blank_append alone rest).symm

/-- A shown line stands in the text. -/
theorem isInfix_of_mem_shown {text line : Text} (member : line ∈ shown text) : line <:+: text := by
  obtain ⟨source, here, rfl⟩ := List.mem_map.mp (List.mem_filter.mp member).1
  exact (isInfix_trim source).trans (isInfix_of_mem_lines here)

theorem shown_blank_cons {c : CodePoint} (blank : isBlank c = true) (text : Text) :
    shown (c :: text) = shown text := by
  cases breaks : isLineBreak c with
  | true => exact shown_append_break breaks [] text
  | false =>
    have alone : allBlank [c] = true := by simp [allBlank, blank]
    rw [shown, shown, lines_cons_of_not_break breaks]
    cases known : lines text with
    | nil => exact shownLines_cons_blank alone []
    | cons line others => exact shownLines_cons_congr (trim_blank_append alone line) others

theorem shown_append_singleton_blank {c : CodePoint} (blank : isBlank c = true) (text : Text) :
    shown (text ++ [c]) = shown text := by
  cases breaks : isLineBreak c with
  | true =>
    rw [shown_append_break breaks text []]
    exact List.append_nil _
  | false =>
    have onLine : ∀ line : Text, SingleLine line → shown (line ++ [c]) = shown line := by
      intro line single
      have whole : SingleLine (line ++ [c]) := by
        refine single.append fun d here => ?_
        exact List.mem_singleton.mp here ▸ breaks
      have alone : allBlank [c] = true := by simp [allBlank, blank]
      rw [shown_singleLine whole, shown_singleLine single]
      exact shownLines_cons_congr (trim_append_blank alone line) []
    rcases singleLine_or_exists_break text with single | ⟨front, d, last, rfl, ends, single⟩
    · exact onLine text single
    · rw [List.append_assoc, List.cons_append, shown_append_break ends, onLine last single,
        shown_append_break ends]

theorem shown_trimStart (text : Text) : shown (trimStart text) = shown text := by
  induction text with
  | nil => rfl
  | cons c rest ih =>
    by_cases blank : isBlank c = true
    · rw [trimStart, List.dropWhile_cons_of_pos blank, ← trimStart, ih, shown_blank_cons blank]
    · rw [trimStart, List.dropWhile_cons_of_neg blank]

theorem shown_trimEnd (text : Text) : shown (trimEnd text) = shown text := by
  have fromEnd : ∀ reversed : Text,
      shown (reversed.dropWhile isBlank).reverse = shown reversed.reverse := by
    intro reversed
    induction reversed with
    | nil => rfl
    | cons c rest ih =>
      by_cases blank : isBlank c = true
      · rw [List.dropWhile_cons_of_pos blank, ih, List.reverse_cons,
          shown_append_singleton_blank blank]
      · rw [List.dropWhile_cons_of_neg blank]
  rw [trimEnd, fromEnd, List.reverse_reverse]

theorem shown_trim (text : Text) : shown (trim text) = shown text := by
  rw [trim, shown_trimEnd, shown_trimStart]

theorem shown_blank_append {blanks : Text} (blank : allBlank blanks = true) (text : Text) :
    shown (blanks ++ text) = shown text := by
  rw [← shown_trimStart, trimStart_append_blank blank, shown_trimStart]

theorem shown_append_blank {blanks : Text} (blank : allBlank blanks = true) (text : Text) :
    shown (text ++ blanks) = shown text := by
  rw [← shown_trimEnd, trimEnd_append_blank blank, shown_trimEnd]

theorem Solid.shown_eq {line : Text} (solid : Solid line) (inside : SingleLine line) :
    shown line = [line] := by
  rw [shown_singleLine inside]
  simp [shownLines, trim_eq_self solid.trimmed, solid.nonempty]

/-- Texts on lines of their own show what each of them shows. -/
theorem shown_join_eq_flatMap (parts : List Text) :
    shown (join ['\n'] parts) = parts.flatMap shown := by
  induction parts with
  | nil => rfl
  | cons part rest ih =>
    by_cases last : rest = []
    · rw [last, join_singleton, List.flatMap_singleton]
    · rw [join_cons_of_ne_nil _ part last, List.append_assoc, List.singleton_append,
        shown_append_break (by decide), ih, List.flatMap_cons]

theorem shown_join {parts : List Text} (single : ∀ line ∈ parts, SingleLine line) :
    shown (join ['\n'] parts) = shownLines parts := by
  rw [shown_join_eq_flatMap]
  induction parts with
  | nil => rfl
  | cons line rest ih =>
    have later := ih fun other member => single other (List.mem_cons_of_mem line member)
    rw [List.flatMap_cons, shown_singleLine (single line (by simp)), later, ← shownLines_append,
      List.singleton_append]

end SchemaBoard.Text
