import SchemaBoard.Proofs.Text.Word

set_option autoImplicit false

/-!
Joining and cutting at line feeds. Main statement: lines that hold no line break and do not end with
an empty one are read back from the text that joins them.
-/
namespace SchemaBoard.Text

@[simp] theorem join_singleton (separator part : Text) : join separator [part] = part :=
  List.intercalate_singleton

theorem join_cons_cons (separator first second : Text) (rest : List Text) :
    join separator (first :: second :: rest) =
      first ++ separator ++ join separator (second :: rest) :=
  List.intercalate_cons_cons

theorem join_cons_of_ne_nil (separator first : Text) {rest : List Text} (some : rest ≠ []) :
    join separator (first :: rest) = first ++ separator ++ join separator rest :=
  List.intercalate_cons_of_ne_nil some

theorem join_append (separator : Text) {first second : List Text} (left : first ≠ [])
    (right : second ≠ []) : join separator (first ++ second) =
      join separator first ++ separator ++ join separator second := by
  induction first with
  | nil => exact absurd rfl left
  | cons part rest ih =>
    by_cases last : rest = []
    · subst last
      rw [List.singleton_append, join_cons_of_ne_nil separator part right, join_singleton]
    · have more : rest ++ second ≠ [] := by simp [last]
      rw [List.cons_append, join_cons_of_ne_nil separator part more, ih last,
        join_cons_of_ne_nil separator part last]
      simp only [List.append_assoc]

/-- Joining groups and then the groups is joining all of their parts. -/
theorem join_flatMap (separator : Text) {Group : Type} {groups : List Group}
    {parts : Group → List Text} (some : ∀ group ∈ groups, parts group ≠ []) :
    join separator (groups.flatMap parts) =
      join separator (groups.map fun group => join separator (parts group)) := by
  induction groups with
  | nil => rfl
  | cons group rest ih =>
    have later := ih fun other member => some other (List.mem_cons_of_mem group member)
    cases rest with
    | nil => rw [List.flatMap_singleton, List.map_singleton, join_singleton]
    | cons next rest =>
      have more : (next :: rest).flatMap parts ≠ [] := by
        simp [some next (by simp)]
      rw [List.flatMap_cons, join_append separator (some group (by simp)) more, later]
      exact (join_cons_cons separator _ _ _).symm

theorem join_append_cons (separator first second : Text) (rest : List Text) :
    join separator ((first ++ second) :: rest) = first ++ join separator (second :: rest) := by
  by_cases last : rest = []
  · rw [last, join_singleton, join_singleton]
  · rw [join_cons_of_ne_nil separator _ last, join_cons_of_ne_nil separator _ last]
    simp only [List.append_assoc]

theorem join_concat_append (separator last behind : Text) (front : List Text) :
    join separator (front ++ [last ++ behind]) =
      join separator (front ++ [last]) ++ behind := by
  by_cases alone : front = []
  · subst alone
    simp
  · rw [join_append separator alone (List.cons_ne_nil _ _),
      join_append separator alone (List.cons_ne_nil _ _)]
    simp

/-- A cut within one of the parts cuts the whole. -/
theorem join_append_cut (separator first second : Text) (front behind : List Text) :
    join separator (front ++ (first ++ second) :: behind) =
      join separator (front ++ [first]) ++ join separator (second :: behind) := by
  by_cases alone : front = []
  · subst alone
    rw [List.nil_append, join_append_cons, List.nil_append, join_singleton]
  · rw [join_append separator alone (List.cons_ne_nil _ _), join_append_cons,
      join_append separator alone (List.cons_ne_nil _ _), join_singleton]
    simp only [List.append_assoc]

/-- Joined texts are trimmed in the first of them, if it is not blank. -/
theorem trimStart_join {first : Text} (visible : allBlank first = false) (separator : Text)
    (rest : List Text) :
    trimStart (join separator (first :: rest)) = join separator (trimStart first :: rest) := by
  have parts := fun front => join_append_cons separator front [] rest
  simp only [List.append_nil] at parts
  rw [parts first, parts (trimStart first), trimStart_append_of_visible visible]

/-- Joined texts are trimmed in the last of them, if it is not blank. -/
theorem trimEnd_join {last : Text} (visible : allBlank last = false) (separator : Text)
    (front : List Text) :
    trimEnd (join separator (front ++ [last])) = join separator (front ++ [trimEnd last]) := by
  have parts := fun behind => join_concat_append separator [] behind front
  simp only [List.nil_append] at parts
  rw [parts last, parts (trimEnd last), trimEnd_append_of_visible visible]

theorem mem_join {separator : Text} {parts : List Text} {c : CodePoint}
    (member : c ∈ join separator parts) : c ∈ separator ∨ ∃ part ∈ parts, c ∈ part := by
  induction parts with
  | nil => cases member
  | cons part rest ih =>
    by_cases last : rest = []
    · subst last
      exact Or.inr ⟨part, by simp, by simpa using member⟩
    · rw [join_cons_of_ne_nil separator part last, List.mem_append, List.mem_append] at member
      rcases member with (here | here) | later
      · exact Or.inr ⟨part, by simp, here⟩
      · exact Or.inl here
      · rcases ih later with here | ⟨other, inside, here⟩
        · exact Or.inl here
        · exact Or.inr ⟨other, List.mem_cons_of_mem part inside, here⟩

theorem mem_join_of_mem (separator : Text) {parts : List Text} {part : Text} {c : CodePoint}
    (member : part ∈ parts) (inside : c ∈ part) : c ∈ join separator parts := by
  induction parts with
  | nil => cases member
  | cons first rest ih =>
    by_cases last : rest = []
    · subst last
      rw [join_singleton]
      exact List.mem_singleton.mp member ▸ inside
    · rw [join_cons_of_ne_nil separator first last, List.mem_append, List.mem_append]
      rcases List.mem_cons.mp member with rfl | later
      · exact Or.inl (Or.inl inside)
      · exact Or.inr (ih later)

/-- A mark that holds no line feed stands within one of the lines that are joined. -/
theorem exists_line_of_join_eq {mark : Text} (some : mark ≠ []) (free : .char '\n' ∉ mark)
    {parts : List Text} {before after : Text} (eq : join ['\n'] parts = before ++ mark ++ after) :
    ∃ front first last behind, parts = front ++ (first ++ mark ++ last) :: behind ∧
      after = join ['\n'] (last :: behind) := by
  induction parts generalizing before with
  | nil =>
    have nothing := List.append_eq_nil_iff.mp eq.symm
    exact absurd (List.append_eq_nil_iff.mp nothing.1).2 some
  | cons part rest ih =>
    by_cases only : rest = []
    · subst only
      rw [join_singleton] at eq
      exact ⟨[], before, after, [], by rw [eq]; rfl, (join_singleton _ _).symm⟩
    · have tail : ∀ last, join ['\n'] (last :: rest) = last ++ .char '\n' :: join ['\n'] rest := by
        intro last
        rw [join_cons_of_ne_nil _ last only, List.append_assoc, List.singleton_append]
      rw [tail] at eq
      rcases List.append_eq_append_iff.mp eq with ⟨more, front, back⟩ | ⟨more, front, back⟩
      · cases more with
        | nil =>
          refine ⟨[], before, [], rest, ?_, ?_⟩
          · rw [List.append_nil, front, List.append_nil]
            rfl
          · rw [tail]
            exact back.symm
        | cons c more =>
          obtain ⟨rfl, later⟩ := List.cons_eq_cons.mp back
          -- The line feed stands in front of the mark, so the mark is found further behind.
          rcases List.append_eq_append_iff.mp front with ⟨others, -, right⟩ | ⟨others, -, right⟩
          · exact absurd (right ▸ List.mem_append_right _ List.mem_cons_self) free
          · cases others with
            | nil =>
              rw [List.nil_append] at right
              exact absurd (right ▸ List.mem_cons_self) free
            | cons d others =>
              obtain ⟨-, rfl⟩ := List.cons_eq_cons.mp right
              obtain ⟨front, first, last, behind, same, ends⟩ := ih later
              exact ⟨part :: front, first, last, behind, by rw [same]; rfl, ends⟩
      · exact ⟨[], before, more, rest, by rw [front]; rfl, by rw [tail]; exact back⟩

theorem Solid.join (separator : Text) {parts : List Text} (some : parts ≠ [])
    (solid : ∀ part ∈ parts, Solid part) : Solid (join separator parts) := by
  induction parts with
  | nil => exact absurd rfl some
  | cons part rest ih =>
    have here := solid part (by simp)
    by_cases last : rest = []
    · subst last
      rwa [join_singleton]
    · rw [join_cons_of_ne_nil separator part last]
      exact here.between separator
        (ih last fun other member => solid other (List.mem_cons_of_mem part member))

/-- Joined texts end as one of them does. -/
theorem exists_getLast?_join (separator : Text) {parts : List Text} (some : parts ≠ [])
    (solid : ∀ part ∈ parts, Solid part) :
    ∃ part ∈ parts, (join separator parts).getLast? = part.getLast? := by
  induction parts with
  | nil => exact absurd rfl some
  | cons part rest ih =>
    by_cases last : rest = []
    · subst last
      exact ⟨part, by simp, by rw [join_singleton]⟩
    · have later : ∀ other ∈ rest, Solid other :=
        fun other member => solid other (List.mem_cons_of_mem part member)
      obtain ⟨other, member, ends⟩ := ih last later
      obtain ⟨before, c, eq, -⟩ := (solid other (List.mem_cons_of_mem part member)).exists_last
      refine ⟨other, List.mem_cons_of_mem part member, ?_⟩
      rw [join_cons_of_ne_nil separator part last, List.getLast?_append, ends, eq,
        List.getLast?_concat]
      rfl

theorem head?_join (separator : Text) {first : Text} {rest : List Text} {c : CodePoint}
    (head : first.head? = some c) : (join separator (first :: rest)).head? = some c := by
  by_cases last : rest = []
  · rw [last, join_singleton, head]
  · rw [join_cons_of_ne_nil separator first last, List.append_assoc, List.head?_append, head]
    rfl

theorem getLast?_join (separator : Text) {front : List Text} {last : Text} {c : CodePoint}
    (ends : last.getLast? = some c) : (join separator (front ++ [last])).getLast? = some c := by
  by_cases alone : front = []
  · rw [alone, List.nil_append, join_singleton, ends]
  · rw [join_append separator alone (List.cons_ne_nil _ _), join_singleton, List.getLast?_append,
      ends]
    rfl

def SingleLine (text : Text) : Prop := ∀ c ∈ text, isLineBreak c = false

instance (text : Text) : Decidable (SingleLine text) :=
  inferInstanceAs (Decidable (∀ c ∈ text, isLineBreak c = false))

theorem SingleLine.append {first second : Text} (left : SingleLine first)
    (right : SingleLine second) : SingleLine (first ++ second) := by
  intro c member
  rcases List.mem_append.mp member with here | here
  · exact left c here
  · exact right c here

theorem singleLine_identifier {name : Text} (word : isIdentifier name = true) :
    SingleLine name := by
  intro c member
  exact isLineBreak_of_not_blank (isBlank_of_isIdentifierPart (part_of_mem_identifier word member))

theorem lines_cons_of_not_break {c : CodePoint} (inside : isLineBreak c = false) (rest : Text) :
    lines (c :: rest) =
      match lines rest with
      | [] => [[c]]
      | line :: others => (c :: line) :: others := by
  have noReturn : ∀ others, c = .char '\r' → rest = .char '\n' :: others → False := by
    rintro others rfl -
    cases inside
  rw [lines.eq_3 _ _ noReturn, inside]
  rfl

theorem lines_feed_cons (rest : Text) : lines (.char '\n' :: rest) = [] :: lines rest := by
  rw [lines.eq_3 _ _ (by intro _ h; cases h), if_pos (by decide)]

/-- Everything about lines that are joined follows from this one equation. -/
theorem lines_append_feed {line : Text} (inside : SingleLine line) (rest : Text) :
    lines (line ++ .char '\n' :: rest) = line :: lines rest := by
  induction line with
  | nil => exact lines_feed_cons rest
  | cons c line ih =>
    rw [List.cons_append, lines_cons_of_not_break (inside c (by simp)),
      ih (fun d member => inside d (List.mem_cons_of_mem c member))]

theorem lines_singleLine {line : Text} (inside : SingleLine line) (visible : line ≠ []) :
    lines line = [line] := by
  induction line with
  | nil => exact absurd rfl visible
  | cons c line ih =>
    rw [lines_cons_of_not_break (inside c (by simp))]
    by_cases last : line = []
    · subst last
      rfl
    · rw [ih (fun d member => inside d (List.mem_cons_of_mem c member)) last]

/-- Lines are read back from the text that joins them, if the last of them is not empty. -/
theorem lines_join {parts : List Text} (inside : ∀ line ∈ parts, SingleLine line)
    (last : parts.getLast? ≠ some []) : lines (join ['\n'] parts) = parts := by
  induction parts with
  | nil => rfl
  | cons line rest ih =>
    by_cases only : rest = []
    · subst only
      rw [join_singleton]
      exact lines_singleLine (inside line (by simp)) (by simpa using last)
    · have later : rest.getLast? ≠ some [] := by
        rwa [List.getLast?_cons_of_ne_nil only] at last
      rw [join_cons_of_ne_nil _ line only, List.append_assoc, List.singleton_append,
        lines_append_feed (inside line (by simp)),
        ih (fun other member => inside other (List.mem_cons_of_mem line member)) later]

/-- A break behind the last line opens no further line. -/
theorem lines_join_feed {parts : List Text} (inside : ∀ line ∈ parts, SingleLine line)
    (some : parts ≠ []) : lines (join ['\n'] parts ++ [.char '\n']) = parts := by
  induction parts with
  | nil => exact absurd rfl some
  | cons line rest ih =>
    have here := inside line (by simp)
    by_cases only : rest = []
    · subst only
      rw [join_singleton, lines_append_feed here, lines_nil]
    · have later := ih (fun other member => inside other (List.mem_cons_of_mem line member)) only
      rw [join_cons_of_ne_nil _ line only, List.append_assoc, List.append_assoc,
        List.singleton_append, lines_append_feed here, later]

theorem singleLine_of_mem_lines {text line : Text} (member : line ∈ lines text) :
    SingleLine line := by
  induction text using lines.induct generalizing line with
  | case1 => cases member
  | case2 rest ih =>
    rw [lines.eq_2] at member
    rcases List.mem_cons.mp member with rfl | later
    · intro c inside
      cases inside
    · exact ih later
  | case3 c rest noReturn breaks ih =>
    rw [lines.eq_3 _ _ noReturn, if_pos breaks] at member
    rcases List.mem_cons.mp member with rfl | later
    · intro c inside
      cases inside
    · exact ih later
  | case4 c rest noReturn inside empty ih =>
    rw [lines_cons_of_not_break (by simpa using inside), empty] at member
    obtain rfl := List.mem_singleton.mp member
    intro d here
    obtain rfl := List.mem_singleton.mp here
    simpa using inside
  | case5 c rest noReturn inside first others eq ih =>
    rw [lines_cons_of_not_break (by simpa using inside), eq] at member
    rcases List.mem_cons.mp member with rfl | later
    · intro d here
      rcases List.mem_cons.mp here with rfl | here
      · simpa using inside
      · exact ih (by rw [eq]; simp) d here
    · exact ih (by rw [eq]; exact List.mem_cons_of_mem first later)

theorem lines_ne_nil {text : Text} (visible : text ≠ []) : lines text ≠ [] := by
  induction text using lines.induct with
  | case1 => exact absurd rfl visible
  | case2 rest ih => simp [lines.eq_2]
  | case3 c rest noReturn breaks ih => simp [lines.eq_3 _ _ noReturn, breaks]
  | case4 c rest noReturn inside empty ih =>
    simp [lines_cons_of_not_break (by simpa using inside), empty]
  | case5 c rest noReturn inside first others eq ih =>
    simp [lines_cons_of_not_break (by simpa using inside), eq]

theorem getLast?_of_break_cons {rest : Text} {c d : CodePoint} (breaks : isLineBreak d = true)
    (inside : isLineBreak c = false) (last : (d :: rest).getLast? = some c) :
    rest.getLast? = some c := by
  cases rest with
  | nil =>
    obtain rfl : d = c := Option.some.inj last
    rw [breaks] at inside
    cases inside
  | cons e rest => exact last

/-- A line feed behind a text that does not end with a break parts the lines. -/
theorem lines_append_feed_of_last {text : Text} {c : CodePoint} (last : text.getLast? = some c)
    (inside : isLineBreak c = false) (rest : Text) :
    lines (text ++ .char '\n' :: rest) = lines text ++ lines rest := by
  induction text using lines.induct with
  | case1 => cases last
  | case2 others ih =>
    have feed := getLast?_of_break_cons (by decide) inside last
    rw [List.cons_append, List.cons_append, lines.eq_2, lines.eq_2,
      ih (getLast?_of_break_cons (by decide) inside feed), List.cons_append]
  | case3 d others noReturn breaks ih =>
    have behind := getLast?_of_break_cons breaks inside last
    have stays : ∀ after, d = .char '\r' → others ++ .char '\n' :: rest = .char '\n' :: after →
        False := by
      intro after carriage feed
      cases others with
      | nil => cases behind
      | cons e others => exact noReturn others carriage (by rw [List.head_eq_of_cons_eq feed])
    rw [List.cons_append, lines.eq_3 _ _ stays, if_pos breaks, lines.eq_3 _ _ noReturn,
      if_pos breaks, ih behind, List.cons_append]
  | case4 d others noReturn goesOn empty ih =>
    obtain rfl : others = [] := Decidable.byContradiction fun visible => lines_ne_nil visible empty
    have single : SingleLine [d] := by
      intro e member
      rw [List.mem_singleton.mp member]
      simpa using goesOn
    rw [lines_append_feed single, lines_singleLine single (List.cons_ne_nil _ _)]
    rfl
  | case5 d others noReturn goesOn line after known ih =>
    have some : others ≠ [] := by
      rintro rfl
      cases known
    have stays : isLineBreak d = false := by simpa using goesOn
    rw [List.getLast?_cons_of_ne_nil some] at last
    rw [List.cons_append, lines_cons_of_not_break stays, ih last, lines_cons_of_not_break stays,
      known]
    rfl

/-- A line feed behind a text that ends visibly parts the lines. -/
theorem Solid.lines_append_feed {text : Text} (solid : Solid text) (rest : Text) :
    lines (text ++ .char '\n' :: rest) = lines text ++ lines rest := by
  obtain ⟨front, c, eq, visible⟩ := solid.exists_last
  have last : text.getLast? = some c := by rw [eq, List.getLast?_concat]
  exact lines_append_feed_of_last last (isLineBreak_of_not_blank visible) rest

/-- Joined texts that end visibly have the lines of each of them. -/
theorem lines_join_of_solid {parts : List Text} (solid : ∀ part ∈ parts, Solid part) :
    lines (join ['\n'] parts) = parts.flatMap lines := by
  induction parts with
  | nil => rfl
  | cons part rest ih =>
    by_cases only : rest = []
    · rw [only, join_singleton, List.flatMap_singleton]
    · have here := solid part List.mem_cons_self
      rw [join_cons_of_ne_nil _ part only, List.append_assoc, List.singleton_append,
        here.lines_append_feed,
        ih fun other member => solid other (List.mem_cons_of_mem part member), List.flatMap_cons]

/-- A text starts with its first line. -/
theorem isPrefix_of_lines_eq {text line : Text} {others : List Text}
    (eq : lines text = line :: others) : line <+: text := by
  induction text using lines.induct generalizing line others with
  | case1 => cases eq
  | case2 rest _ =>
    rw [lines.eq_2] at eq
    exact (List.cons_eq_cons.mp eq).1 ▸ List.nil_prefix
  | case3 c rest noReturn breaks _ =>
    rw [lines.eq_3 _ _ noReturn, if_pos breaks] at eq
    exact (List.cons_eq_cons.mp eq).1 ▸ List.nil_prefix
  | case4 c rest noReturn inside empty _ =>
    rw [lines_cons_of_not_break (by simpa using inside), empty] at eq
    exact (List.cons_eq_cons.mp eq).1 ▸ List.prefix_append [c] rest
  | case5 c rest noReturn inside first more known ih =>
    rw [lines_cons_of_not_break (by simpa using inside), known] at eq
    exact (List.cons_eq_cons.mp eq).1 ▸ List.cons_prefix_cons.mpr ⟨rfl, ih known⟩

/-- Every line of a text stands in it. -/
theorem isInfix_of_mem_lines {text line : Text} (member : line ∈ lines text) : line <:+: text := by
  induction text using lines.induct generalizing line with
  | case1 => cases member
  | case2 rest ih =>
    rw [lines.eq_2] at member
    rcases List.mem_cons.mp member with rfl | later
    · exact List.nil_infix
    · have behind := (List.suffix_cons (.char '\n') rest).trans (List.suffix_cons (.char '\r') _)
      exact (ih later).trans behind.isInfix
  | case3 c rest noReturn breaks ih =>
    rw [lines.eq_3 _ _ noReturn, if_pos breaks] at member
    rcases List.mem_cons.mp member with rfl | later
    · exact List.nil_infix
    · exact (ih later).trans (List.suffix_cons c rest).isInfix
  | case4 c rest noReturn inside empty _ =>
    rw [lines_cons_of_not_break (by simpa using inside), empty] at member
    exact List.mem_singleton.mp member ▸ (List.prefix_append [c] rest).isInfix
  | case5 c rest noReturn inside first more known ih =>
    have whole := @lines_cons_of_not_break c (by simpa using inside) rest
    rw [known] at whole
    rw [whole] at member
    rcases List.mem_cons.mp member with rfl | later
    · exact (isPrefix_of_lines_eq whole).isInfix
    · exact (ih (known ▸ List.mem_cons_of_mem first later)).trans (List.suffix_cons c rest).isInfix

/-- The last line ends as the text does. -/
theorem exists_last_line {text : Text} {c : CodePoint} (last : text.getLast? = some c)
    (inside : isLineBreak c = false) :
    ∃ front line, lines text = front ++ [line] ∧ line.getLast? = some c := by
  induction text using lines.induct with
  | case1 => cases last
  | case2 others ih =>
    have feed := getLast?_of_break_cons (by decide) inside last
    obtain ⟨front, line, eq, ends⟩ := ih (getLast?_of_break_cons (by decide) inside feed)
    exact ⟨[] :: front, line, by rw [lines.eq_2, eq, List.cons_append], ends⟩
  | case3 d others noReturn breaks ih =>
    obtain ⟨front, line, eq, ends⟩ := ih (getLast?_of_break_cons breaks inside last)
    exact ⟨[] :: front, line, by
      rw [lines.eq_3 _ _ noReturn, if_pos breaks, eq, List.cons_append], ends⟩
  | case4 d others noReturn goesOn empty ih =>
    obtain rfl : others = [] := Decidable.byContradiction fun visible => lines_ne_nil visible empty
    exact ⟨[], [d], by rw [lines_cons_of_not_break (by simpa using goesOn), empty]; rfl, last⟩
  | case5 d others noReturn goesOn line after known ih =>
    have some : others ≠ [] := by
      rintro rfl
      cases known
    have stays : isLineBreak d = false := by simpa using goesOn
    rw [List.getLast?_cons_of_ne_nil some] at last
    obtain ⟨front, final, eq, ends⟩ := ih last
    rw [known] at eq
    rw [lines_cons_of_not_break stays, known]
    cases front with
    | nil =>
      obtain ⟨rfl, rfl⟩ := List.cons_eq_cons.mp eq
      exact ⟨[], d :: line, rfl, by rw [List.getLast?_cons, ends]; rfl⟩
    | cons first front =>
      obtain ⟨rfl, rfl⟩ := List.cons_eq_cons.mp eq
      exact ⟨(d :: line) :: front, final, rfl, ends⟩

/-- A text that starts within a line starts the first line of what follows. -/
theorem lines_append_of_singleLine {front : Text} (inside : SingleLine front) (some : front ≠ [])
    (rest : Text) :
    lines (front ++ rest) = (front ++ (lines rest).headD []) :: (lines rest).tail := by
  induction front with
  | nil => exact absurd rfl some
  | cons c front ih =>
    rw [List.cons_append, lines_cons_of_not_break (inside c (by simp))]
    by_cases last : front = []
    · subst last
      rw [List.nil_append]
      cases lines rest <;> rfl
    · rw [ih (fun d member => inside d (List.mem_cons_of_mem c member)) last]
      rfl

theorem exists_lines_append {front : Text} (inside : SingleLine front) (some : front ≠ [])
    (rest : Text) : ∃ behind others, lines (front ++ rest) = (front ++ behind) :: others :=
  ⟨_, _, lines_append_of_singleLine inside some rest⟩

theorem lines_join_append {front : List Text} (inside : ∀ line ∈ front, SingleLine line)
    {back : List Text} (some : back ≠ []) :
    lines (join ['\n'] (front ++ back)) = front ++ lines (join ['\n'] back) := by
  induction front with
  | nil => rfl
  | cons line rest ih =>
    have later := ih fun other member => inside other (List.mem_cons_of_mem line member)
    rw [List.cons_append, join_cons_of_ne_nil _ line (by simp [some]), List.append_assoc,
      List.singleton_append, lines_append_feed (inside line (by simp)), later, List.cons_append]

theorem exists_first_line {text : Text} {c : CodePoint} (head : text.head? = some c)
    (inside : isLineBreak c = false) :
    ∃ line rest, lines text = line :: rest ∧ line.head? = some c := by
  obtain ⟨others, rfl⟩ := List.head?_eq_some_iff.mp head
  have single : SingleLine [c] := fun d here => List.mem_singleton.mp here ▸ inside
  obtain ⟨behind, rest, eq⟩ := exists_lines_append single (List.cons_ne_nil _ _) others
  exact ⟨[c] ++ behind, rest, eq, rfl⟩

/-- Changes of lines that leave visible ends alone leave a solid text solid, whatever its lines are
joined with. -/
theorem solid_join_map_lines {text : Text} (solid : Solid text) (separator : Text) {f : Text → Text}
    (head : ∀ line c, line.head? = some c → isBlank c = false → (f line).head? = some c)
    (last : ∀ line c, line.getLast? = some c → isBlank c = false → (f line).getLast? = some c) :
    (join separator ((lines text).map f)).head? = text.head? ∧
      Solid (join separator ((lines text).map f)) ∧ ((lines text).map f).getLast? ≠ some [] := by
  obtain ⟨c, rest, eq, visible⟩ := solid.exists_head
  obtain ⟨front, d, same, seen⟩ := solid.exists_last
  have first : text.head? = some c := by rw [eq]; rfl
  have final : text.getLast? = some d := by rw [same, List.getLast?_concat]
  obtain ⟨line, others, cut, starts⟩ := exists_first_line first (isLineBreak_of_not_blank visible)
  obtain ⟨before, line', cut', ends⟩ := exists_last_line final (isLineBreak_of_not_blank seen)
  have sameHead : (join separator ((lines text).map f)).head? = text.head? := by
    rw [first, cut, List.map_cons]
    exact head?_join separator (head line c starts visible)
  have sameLast : (join separator ((lines text).map f)).getLast? = text.getLast? := by
    rw [final, cut', List.map_append, List.map_singleton]
    exact getLast?_join separator (last line' d ends seen)
  refine ⟨sameHead, solid.of_same_ends sameHead sameLast, ?_⟩
  · rw [cut', List.map_append, List.map_singleton, List.getLast?_concat]
    intro empty
    have same := last line' d ends seen
    rw [Option.some.inj empty] at same
    cases same

def OnlyFeeds (text : Text) : Prop := ∀ c ∈ text, isLineBreak c = true → c = .char '\n'

section Feeds

variable {text : Text}

theorem OnlyFeeds.subset {part : Text} (feeds : OnlyFeeds text) (subset : part ⊆ text) :
    OnlyFeeds part :=
  fun c here => feeds c (subset here)

theorem SingleLine.onlyFeeds (single : SingleLine text) : OnlyFeeds text := by
  intro c here breaks
  rw [single c here] at breaks
  cases breaks

theorem OnlyFeeds.append {other : Text} (left : OnlyFeeds text) (right : OnlyFeeds other) :
    OnlyFeeds (text ++ other) := by
  intro c here
  rcases List.mem_append.mp here with first | second
  · exact left c first
  · exact right c second

theorem OnlyFeeds.join {separator : Text} {parts : List Text} (between : OnlyFeeds separator)
    (feeds : ∀ part ∈ parts, OnlyFeeds part) : OnlyFeeds (join separator parts) := by
  intro c here
  rcases mem_join here with inside | ⟨part, member, inside⟩
  · exact between c inside
  · exact feeds part member c inside

/-- The lines of such a text are joined to the text, if it does not end with a break. -/
theorem join_lines_of_onlyFeeds (feeds : OnlyFeeds text) {c : CodePoint}
    (last : text.getLast? = some c) (inside : isLineBreak c = false) :
    join ['\n'] (lines text) = text := by
  induction text using lines.induct with
  | case1 => rfl
  | case2 rest ih =>
    have other := feeds (.char '\r') List.mem_cons_self (by decide)
    exact absurd other (by decide)
  | case3 d rest noReturn breaks ih =>
    obtain rfl := feeds d List.mem_cons_self breaks
    have later := getLast?_of_break_cons breaks inside last
    have some : rest ≠ [] := by
      rintro rfl
      cases later
    rw [lines_feed_cons, join_cons_of_ne_nil _ _ (lines_ne_nil some),
      ih (feeds.subset (List.subset_cons_self _ rest)) later]
    rfl
  | case4 d rest noReturn goesOn none =>
    have empty : rest = [] := Decidable.byContradiction fun some => lines_ne_nil some none
    rw [empty, lines_cons_of_not_break (by simpa using goesOn)]
    rfl
  | case5 d rest noReturn goesOn line others eq ih =>
    have some : rest ≠ [] := by
      rintro rfl
      cases eq
    rw [List.getLast?_cons_of_ne_nil some] at last
    have later := ih (feeds.subset (List.subset_cons_self _ rest)) last
    have whole := join_append_cons ['\n'] [d] line others
    rw [← eq, later] at whole
    rw [lines_cons_of_not_break (by simpa using goesOn), eq]
    exact whole

end Feeds

end SchemaBoard.Text
