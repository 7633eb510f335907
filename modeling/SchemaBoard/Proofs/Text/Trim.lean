import SchemaBoard.Text.Blank

set_option autoImplicit false

/-!
Trimming. A text that starts and ends with nonblank characters is its own trimmed form, and blanks
around a text do not show in it.
-/
namespace SchemaBoard.Text

/-- Neither the first nor the last character is blank. -/
def Trimmed (text : Text) : Prop :=
  (∀ c, text.head? = some c → isBlank c = false) ∧
    ∀ c, text.getLast? = some c → isBlank c = false

instance (text : Text) : Decidable (Trimmed text) :=
  decidable_of_iff
    ((text.head?.all fun c => !isBlank c) ∧ text.getLast?.all fun c => !isBlank c) <| by
      simp [Trimmed, Option.all_eq_true]

/-- There is something, and it starts and ends with characters that can be seen. -/
structure Solid (text : Text) : Prop where
  nonempty : text ≠ []
  trimmed : Trimmed text

instance (text : Text) : Decidable (Solid text) :=
  decidable_of_iff (text ≠ [] ∧ Trimmed text)
    ⟨fun both => ⟨both.1, both.2⟩, fun solid => ⟨solid.nonempty, solid.trimmed⟩⟩

theorem Solid.exists_head {text : Text} (solid : Solid text) :
    ∃ c rest, text = c :: rest ∧ isBlank c = false := by
  obtain ⟨c, rest, rfl⟩ := List.exists_cons_of_ne_nil solid.nonempty
  exact ⟨c, rest, rfl, solid.trimmed.1 c rfl⟩

theorem Solid.exists_last {text : Text} (solid : Solid text) :
    ∃ rest c, text = rest ++ [c] ∧ isBlank c = false := by
  obtain ⟨rest, c, rfl⟩ := List.eq_nil_or_concat text |>.resolve_left solid.nonempty
  rw [List.concat_eq_append]
  exact ⟨rest, c, rfl, solid.trimmed.2 c (by simp)⟩

theorem solid_of_ends {first last : CodePoint} {text : Text} (head : text.head? = some first)
    (tail : text.getLast? = some last) (visible : isBlank first = false)
    (seen : isBlank last = false) : Solid text where
  nonempty := by
    rintro rfl
    cases head
  trimmed := by
    refine ⟨fun c here => ?_, fun c here => ?_⟩
    · rw [head] at here
      exact Option.some.inj here ▸ visible
    · rw [tail] at here
      exact Option.some.inj here ▸ seen

theorem Solid.of_same_ends {text other : Text} (solid : Solid text)
    (head : other.head? = text.head?) (last : other.getLast? = text.getLast?) : Solid other := by
  obtain ⟨c, rest, eq, visible⟩ := solid.exists_head
  obtain ⟨front, d, same, seen⟩ := solid.exists_last
  have first : text.head? = some c := by rw [eq]; rfl
  have final : text.getLast? = some d := by rw [same, List.getLast?_concat]
  exact solid_of_ends (head.trans first) (last.trans final) visible seen

/-- Only the two ends decide. -/
theorem Solid.between {first last : Text} (left : Solid first) (middle : Text)
    (right : Solid last) : Solid (first ++ middle ++ last) := by
  obtain ⟨c, rest, rfl, visible⟩ := left.exists_head
  obtain ⟨others, d, rfl, seen⟩ := right.exists_last
  have head : (c :: rest ++ middle ++ (others ++ [d])).head? = some c := rfl
  have tail : (c :: rest ++ middle ++ (others ++ [d])).getLast? = some d := by
    rw [← List.append_assoc, List.getLast?_concat]
  exact solid_of_ends head tail visible seen

theorem Solid.append {first last : Text} (left : Solid first) (right : Solid last) :
    Solid (first ++ last) := by
  simpa using left.between [] right

theorem Solid.wrap {opener closer : CodePoint} (inside : Text) (visible : isBlank opener = false)
    (seen : isBlank closer = false) : Solid (opener :: inside ++ [closer]) :=
  solid_of_ends rfl List.getLast?_concat visible seen

theorem dropFinal_concat (c : CodePoint) (text : Text) : dropFinal c (text ++ [c]) = text := by
  rw [dropFinal, List.getLast?_concat, if_pos rfl, List.dropLast_concat]

theorem dropFinal_concat_of_ne {c last : CodePoint} (other : last ≠ c) (text : Text) :
    dropFinal c (text ++ [last]) = text ++ [last] := by
  rw [dropFinal, List.getLast?_concat, if_neg fun same => other (Option.some.inj same)]

theorem not_mem_of_visible {text : Text} (blank : allBlank text = true) {c : CodePoint}
    (visible : isBlank c = false) : c ∉ text := by
  intro inside
  rw [List.all_eq_true.mp blank c inside] at visible
  cases visible

theorem allBlank_append (first second : Text) :
    allBlank (first ++ second) = (allBlank first && allBlank second) :=
  List.all_append

theorem dropWhile_eq_nil_iff {text : Text} :
    text.dropWhile isBlank = [] ↔ allBlank text = true := by
  induction text with
  | nil => simp [allBlank]
  | cons c rest ih =>
    by_cases blank : isBlank c = true
    · rw [List.dropWhile_cons_of_pos blank, ih]
      simp [allBlank, blank]
    · simp [allBlank, blank]

theorem trimStart_append_blank {before : Text} (blank : allBlank before = true) (text : Text) :
    trimStart (before ++ text) = trimStart text :=
  List.dropWhile_append_of_pos (List.all_eq_true.mp blank)

theorem trimStart_eq_self {text : Text}
    (first : ∀ c, text.head? = some c → isBlank c = false) : trimStart text = text := by
  cases text with
  | nil => rfl
  | cons c rest =>
    have visible := first c rfl
    exact List.dropWhile_cons_of_neg (by simp [visible])

/-- Nothing is cut off in front of a solid text. -/
theorem Solid.trimStart_append {text : Text} (solid : Solid text) (rest : Text) :
    trimStart (text ++ rest) = text ++ rest := by
  obtain ⟨c, others, rfl, visible⟩ := solid.exists_head
  exact trimStart_eq_self fun d first => Option.some.inj first ▸ visible

theorem trimEnd_append_blank {after : Text} (blank : allBlank after = true) (text : Text) :
    trimEnd (text ++ after) = trimEnd text := by
  have reversed : ∀ c ∈ after.reverse, isBlank c = true := by
    simpa using List.all_eq_true.mp blank
  rw [trimEnd, List.reverse_append, List.dropWhile_append_of_pos reversed, trimEnd]

theorem trimEnd_eq_nil_iff {text : Text} : trimEnd text = [] ↔ allBlank text = true := by
  rw [trimEnd, List.reverse_eq_nil_iff, dropWhile_eq_nil_iff, allBlank, List.all_reverse, allBlank]

theorem trimEnd_eq_self {text : Text}
    (last : ∀ c, text.getLast? = some c → isBlank c = false) : trimEnd text = text := by
  have first : trimStart text.reverse = text.reverse := trimStart_eq_self (by simpa using last)
  rw [trimEnd, ← trimStart, first, List.reverse_reverse]

theorem trim_eq_self {text : Text} (trimmed : Trimmed text) : trim text = text := by
  rw [trim, trimStart_eq_self trimmed.1, trimEnd_eq_self trimmed.2]

theorem trim_blank {text : Text} (blank : allBlank text = true) : trim text = [] := by
  rw [trim, trimStart, dropWhile_eq_nil_iff.mpr blank]
  rfl

theorem trim_blank_append {before : Text} (blank : allBlank before = true) (text : Text) :
    trim (before ++ text) = trim text := by
  rw [trim, trimStart_append_blank blank, trim]

theorem trim_append_blank {after : Text} (blank : allBlank after = true) (text : Text) :
    trim (text ++ after) = trim text := by
  rw [trim, trimStart, List.dropWhile_append]
  split
  · next empty =>
    have nothing : text.dropWhile isBlank = [] := List.isEmpty_iff.mp empty
    rw [dropWhile_eq_nil_iff.mpr blank, trim, trimStart, nothing]
  · rw [trimEnd_append_blank blank, trim, trimStart]

/-- Blanks around a text are trimmed away. -/
theorem trim_padded {before after : Text} (first : allBlank before = true)
    (second : allBlank after = true) (text : Text) :
    trim (before ++ text ++ after) = trim text := by
  rw [trim_append_blank second, trim_blank_append first]

theorem head?_trimStart (text : Text) {c : CodePoint} (h : (trimStart text).head? = some c) :
    isBlank c = false := by
  have visible := List.head?_dropWhile_not isBlank text
  rw [← trimStart, h] at visible
  exact visible

theorem getLast?_trimEnd {text : Text} {c : CodePoint} (h : (trimEnd text).getLast? = some c) :
    isBlank c = false := by
  rw [trimEnd, List.getLast?_reverse] at h
  exact head?_trimStart _ h

theorem trimEnd_isPrefix (text : Text) : trimEnd text <+: text := by
  have suffix := List.dropWhile_suffix (l := text.reverse) isBlank
  simpa [trimEnd] using List.reverse_prefix.mpr suffix

/-- Nothing is cut off in front of something visible. -/
theorem trimEnd_append_of_visible {after : Text} (visible : allBlank after = false) (text : Text) :
    trimEnd (text ++ after) = text ++ trimEnd after := by
  have some : (after.reverse.dropWhile isBlank).isEmpty = false := by
    cases empty : (after.reverse.dropWhile isBlank).isEmpty with
    | false => rfl
    | true =>
      have blank := dropWhile_eq_nil_iff.mp (List.isEmpty_iff.mp empty)
      rw [allBlank, List.all_reverse] at blank
      rw [allBlank, blank] at visible
      cases visible
  rw [trimEnd, List.reverse_append, List.dropWhile_append, some, if_neg Bool.false_ne_true,
    List.reverse_append, List.reverse_reverse, trimEnd]

theorem trimStart_append_of_visible {first : Text} (visible : allBlank first = false)
    (rest : Text) : trimStart (first ++ rest) = trimStart first ++ rest := by
  rw [trimStart, List.dropWhile_append]
  split
  · next empty =>
    rw [dropWhile_eq_nil_iff.mp (List.isEmpty_iff.mp empty)] at visible
    cases visible
  · rfl

/-- Only in front of its first visible character a text is trimmed if it ends visibly. -/
theorem trim_append_solid {first last : Text} (visible : allBlank first = false) (middle : Text)
    (solid : Solid last) : trim (first ++ middle ++ last) = trimStart first ++ middle ++ last := by
  obtain ⟨rest, c, rfl, seen⟩ := solid.exists_last
  rw [List.append_assoc, trim, trimStart_append_of_visible visible, ← List.append_assoc,
    ← List.append_assoc]
  refine trimEnd_eq_self fun d ends => ?_
  rw [List.getLast?_concat] at ends
  exact Option.some.inj ends ▸ seen

/-- Cutting blanks off the end keeps the first character, if anything is left. -/
theorem head?_trimEnd {text : Text} {c : CodePoint} (h : (trimEnd text).head? = some c) :
    text.head? = some c := by
  obtain ⟨rest, eq⟩ := trimEnd_isPrefix text
  rw [← eq, List.head?_append, h]
  rfl

/-- Blanks at the end are no part of what is visible in front. -/
theorem head?_trimEnd_of_visible {text : Text} {c : CodePoint} (head : text.head? = some c)
    (visible : isBlank c = false) : (trimEnd text).head? = some c := by
  cases text with
  | nil => cases head
  | cons d rest =>
    obtain rfl := Option.some.inj head
    cases blank : allBlank rest with
    | true =>
      have alone : trimEnd [d] = [d] := trimEnd_eq_self fun e last => Option.some.inj last ▸ visible
      have dropped : trimEnd ([d] ++ rest) = trimEnd [d] := trimEnd_append_blank blank [d]
      rw [← List.singleton_append, dropped, alone]
      rfl
    | false =>
      have kept : trimEnd ([d] ++ rest) = [d] ++ trimEnd rest := trimEnd_append_of_visible blank [d]
      rw [← List.singleton_append, kept]
      rfl

theorem trimmed_trim (text : Text) : Trimmed (trim text) :=
  ⟨fun _ first => head?_trimStart _ (head?_trimEnd first), fun _ last => getLast?_trimEnd last⟩

/-- Only blanks are trimmed away. -/
theorem exists_padding (text : Text) : ∃ before after,
    text = before ++ trim text ++ after ∧ allBlank before = true ∧ allBlank after = true := by
  have ends : trim text ++ ((trimStart text).reverse.takeWhile isBlank).reverse =
      trimStart text := by
    rw [trim, trimEnd, ← List.reverse_append, List.takeWhile_append_dropWhile,
      List.reverse_reverse]
  refine ⟨text.takeWhile isBlank, ((trimStart text).reverse.takeWhile isBlank).reverse, ?_,
    List.all_takeWhile, ?_⟩
  · rw [List.append_assoc, ends]
    exact List.takeWhile_append_dropWhile.symm
  · rw [allBlank, List.all_reverse]
    exact List.all_takeWhile

theorem isInfix_trim (text : Text) : trim text <:+: text := by
  obtain ⟨before, after, eq, -, -⟩ := exists_padding text
  exact ⟨before, after, eq.symm⟩

theorem trimmed_of_trim_eq_self {text : Text} (h : trim text = text) : Trimmed text :=
  h ▸ trimmed_trim text

/-- What is left by trimming is empty for blanks alone. -/
theorem trim_eq_nil_iff {text : Text} : trim text = [] ↔ allBlank text = true := by
  constructor
  · intro empty
    have parts : trimStart text = [] := by
      cases eq : trimStart text with
      | nil => rfl
      | cons c rest =>
        have first : isBlank c = false := head?_trimStart text (by rw [eq]; rfl)
        rw [trim, eq, trimEnd, List.reverse_eq_nil_iff] at empty
        have blank := dropWhile_eq_nil_iff.mp empty
        simp [allBlank, first] at blank
    exact dropWhile_eq_nil_iff.mp parts
  · exact trim_blank

theorem Solid.trimEnd_append {front : Text} (solid : Solid front) (after : Text) :
    trimEnd (front ++ after) = front ++ trimEnd after := by
  cases blank : allBlank after with
  | true =>
    rw [trimEnd_append_blank blank, trimEnd_eq_self solid.trimmed.2, trimEnd_eq_nil_iff.mpr blank,
      List.append_nil]
  | false => exact trimEnd_append_of_visible blank front

/-- Around something that can be seen a text is trimmed at its ends alone. -/
theorem trim_append_mark {mark : Text} (solid : Solid mark) (before after : Text) :
    trim (before ++ mark ++ after) = trimStart before ++ mark ++ trimEnd after := by
  obtain ⟨c, rest, eq, visible⟩ := solid.exists_head
  have shown : allBlank mark = false := by
    rw [eq]
    simp [allBlank, visible]
  have starts : trimStart (before ++ mark ++ after) = trimStart before ++ (mark ++ after) := by
    rw [List.append_assoc]
    cases blank : allBlank before with
    | true =>
      rw [trimStart_append_blank blank, solid.trimStart_append, trimStart,
        dropWhile_eq_nil_iff.mpr blank, List.nil_append]
    | false => exact trimStart_append_of_visible blank _
  have whole : allBlank (mark ++ after) = false := by
    rw [allBlank_append, shown, Bool.false_and]
  rw [trim, starts, trimEnd_append_of_visible whole, solid.trimEnd_append, List.append_assoc]

section Blanks

/-- Blanks in front of something that can be seen are all the blanks there. -/
theorem takeWhile_blank_append {blanks rest : Text} (blank : allBlank blanks = true)
    (visible : ∀ c, rest.head? = some c → isBlank c = false) :
    (blanks ++ rest).takeWhile isBlank = blanks := by
  have stops : rest.takeWhile isBlank = [] := by
    cases rest with
    | nil => rfl
    | cons c others => simp [visible c rfl]
  rw [List.takeWhile_append_of_pos (List.all_eq_true.mp blank), stops, List.append_nil]

theorem trimStart_blank_append {blanks rest : Text} (blank : allBlank blanks = true)
    (visible : ∀ c, rest.head? = some c → isBlank c = false) :
    trimStart (blanks ++ rest) = rest :=
  (trimStart_append_blank blank rest).trans (trimStart_eq_self visible)

/-- Blanks with something that can be seen behind them are told from the text. -/
theorem blank_append_inj {blanks others rest last : Text} (blank : allBlank blanks = true)
    (other : allBlank others = true) (visible : ∀ c, rest.head? = some c → isBlank c = false)
    (seen : ∀ c, last.head? = some c → isBlank c = false)
    (same : blanks ++ rest = others ++ last) : blanks = others ∧ rest = last := by
  have front := congrArg (List.takeWhile isBlank) same
  rw [takeWhile_blank_append blank visible, takeWhile_blank_append other seen] at front
  subst front
  exact ⟨rfl, List.append_cancel_left same⟩

theorem takeWhile_append_trimStart (text : Text) :
    text.takeWhile isBlank ++ trimStart text = text :=
  List.takeWhile_append_dropWhile

theorem allBlank_takeWhile (text : Text) : allBlank (text.takeWhile isBlank) = true :=
  List.all_takeWhile

theorem allBlank_trimStart_eq_false {text : Text} (some : trimStart text ≠ []) :
    allBlank (trimStart text) = false := by
  obtain ⟨c, rest, eq⟩ := List.exists_cons_of_ne_nil some
  have visible := head?_trimStart text (c := c) (by rw [eq]; rfl)
  rw [eq, allBlank, List.all_cons, visible, Bool.false_and]

theorem trim_trimStart (text : Text) : trim (trimStart text) = trim text := by
  have same := trim_blank_append (allBlank_takeWhile text) (trimStart text)
  rw [takeWhile_append_trimStart] at same
  exact same.symm

theorem trim_trimEnd (text : Text) : trim (trimEnd text) = trim text := by
  have blank : allBlank (text.reverse.takeWhile isBlank).reverse = true := by
    rw [allBlank, List.all_reverse]
    exact List.all_takeWhile
  have same := trim_append_blank blank (trimEnd text)
  rw [trimEnd, ← List.reverse_append, List.takeWhile_append_dropWhile, List.reverse_reverse] at same
  exact same.symm

end Blanks

end SchemaBoard.Text
