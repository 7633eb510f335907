import SchemaBoard.Proofs.Text.Nesting

set_option autoImplicit false

/-!
Cutting what was joined. Parts joined by a mark within blanks are cut behind each other, so sealed
parts come back, and no text that is cut into as many pieces as were joined has other pieces.
-/
namespace SchemaBoard.Text

/-- The brackets and the mark can be seen, and the mark is no bracket. -/
def Brackets.Neutral (brackets : Brackets) (mark : CodePoint) : Prop :=
  isBlank mark = false ∧
    ∀ c ∈ brackets.openers ++ brackets.closers, isBlank c = false ∧ c ≠ mark

instance (brackets : Brackets) (mark : CodePoint) : Decidable (brackets.Neutral mark) :=
  inferInstanceAs (Decidable (_ ∧ _))

section Glue

theorem map_trim_glue_blank {first rest : List Text} {pad : Text} (left : first ≠ [])
    (blank : allBlank pad = true) :
    (glue first (pad :: rest)).map trim = first.map trim ++ rest.map trim := by
  induction first with
  | nil => exact absurd rfl left
  | cons piece others ih =>
    by_cases last : others = []
    · subst last
      simp [glue, trim_append_blank blank]
    · rw [glue_cons last, List.map_cons, ih last]
      rfl

theorem map_trim_glue_singleton {rest : List Text} {pad : Text} (right : rest ≠ [])
    (blank : allBlank pad = true) : (glue [pad] rest).map trim = rest.map trim := by
  obtain ⟨piece, others, rfl⟩ := List.exists_cons_of_ne_nil right
  simp [glue, trim_blank_append blank]

end Glue

section Join

variable {brackets : Brackets} {mark : CodePoint}

theorem Brackets.Neutral.depthAfter (neutral : brackets.Neutral mark) (depth : Nat) :
    brackets.depthAfter depth mark = depth := by
  have opens : mark ∉ brackets.openers := fun member =>
    (neutral.2 mark (List.mem_append_left _ member)).2 rfl
  have closes : mark ∉ brackets.closers := fun member =>
    (neutral.2 mark (List.mem_append_right _ member)).2 rfl
  rw [Brackets.depthAfter, if_neg opens, if_neg closes]

theorem Brackets.Neutral.not_closer (neutral : brackets.Neutral mark) : mark ∉ brackets.closers :=
  fun member => (neutral.2 mark (List.mem_append_right _ member)).2 rfl

/-- A barred mark at the end would stand outside of all brackets. -/
theorem Brackets.Seals.getLast?_ne {barred text : Text} (sealed : brackets.Seals barred text)
    (neutral : brackets.Neutral mark) (bars : mark ∈ barred) : text.getLast? ≠ some mark := by
  intro last
  obtain ⟨front, rfl⟩ := List.getLast?_eq_some_iff.mp last
  rw [Brackets.Seals, levelBehind?_append] at sealed
  obtain ⟨level, -, final⟩ := Option.bind_eq_some_iff.mp sealed
  obtain ⟨free, stays⟩ := levelBehind?_cons.mp final
  rw [neutral.depthAfter] at stays
  have opens : mark ∉ brackets.openers := fun member =>
    (neutral.2 mark (List.mem_append_left _ member)).2 rfl
  exact free ⟨Option.some.inj stays, opens, Or.inr bars⟩

/-- Blanks are no brackets. -/
theorem Brackets.Neutral.depthAfter_blank (neutral : brackets.Neutral mark) {c : CodePoint}
    (blank : isBlank c = true) (depth : Nat) : brackets.depthAfter depth c = depth := by
  have foreign : c ∉ brackets.openers ++ brackets.closers := by
    intro bracket
    have seen := (neutral.2 c bracket).1
    rw [blank] at seen
    cases seen
  rw [Brackets.depthAfter, if_neg fun opens => foreign (List.mem_append_left _ opens),
    if_neg fun closes => foreign (List.mem_append_right _ closes)]

theorem Brackets.Neutral.depthBehind_blank (neutral : brackets.Neutral mark) {pad : Text}
    (blank : allBlank pad = true) (depth : Nat) : brackets.depthBehind depth pad = depth := by
  induction pad with
  | nil => rfl
  | cons c rest ih =>
    obtain ⟨here, later⟩ := (Bool.and_eq_true _ _).mp (List.all_cons.symm.trans blank)
    rw [depthBehind_cons, neutral.depthAfter_blank here, ih later]

/-- Blanks are not cut. -/
theorem pieces_blank (neutral : brackets.Neutral mark) {pad : Text} (blank : allBlank pad = true)
    (depth : Nat) : pieces brackets [mark] depth pad = [pad] := by
  induction pad with
  | nil => rfl
  | cons c rest ih =>
    obtain ⟨here, later⟩ := (Bool.and_eq_true _ _).mp (List.all_cons.symm.trans blank)
    have goesOn : ¬([c] = [mark] ∧ brackets.depthAfter depth c = 0) := by
      rintro ⟨same, -⟩
      have visible := neutral.1
      rw [← List.head_eq_of_cons_eq same, here] at visible
      cases visible
    rw [pieces_cons_of_not_cut _ _ goesOn, neutral.depthAfter_blank here, ih later]
    rfl

theorem pieces_of_seals (neutral : brackets.Neutral mark) {barred text : Text}
    (bars : mark ∈ barred) (sealed : brackets.Seals barred text) :
    pieces brackets [mark] 0 text = [text] :=
  pieces_of_level brackets bars neutral.not_closer sealed

theorem pieces_blank_append (neutral : brackets.Neutral mark) {pad : Text}
    (blank : allBlank pad = true) (text : Text) :
    pieces brackets [mark] 0 (pad ++ text) = glue [pad] (pieces brackets [mark] 0 text) := by
  rw [pieces_append, pieces_blank neutral blank, neutral.depthBehind_blank blank]

theorem pieces_mark_cons (neutral : brackets.Neutral mark) (text : Text) :
    pieces brackets [mark] 0 (mark :: text) = [] :: pieces brackets [mark] 0 text :=
  pieces_cons_of_cut _ _ ⟨rfl, neutral.depthAfter 0⟩

/-- A mark within blanks cuts what stands in front of it from what follows. -/
theorem pieces_append_mark (neutral : brackets.Neutral mark) {before after part : Text}
    (first : allBlank before = true) (second : allBlank after = true)
    (closed : brackets.depthBehind 0 part = 0) (rest : Text) :
    (pieces brackets [mark] 0 (part ++ (before ++ mark :: (after ++ rest)))).map trim =
      (pieces brackets [mark] 0 part).map trim ++ (pieces brackets [mark] 0 rest).map trim := by
  have behind : pieces brackets [mark] 0 (before ++ mark :: (after ++ rest)) =
      before :: glue [after] (pieces brackets [mark] 0 rest) := by
    rw [pieces_blank_append neutral first, pieces_mark_cons neutral,
      pieces_blank_append neutral second]
    simp [glue]
  rw [pieces_append, closed, behind, map_trim_glue_blank (pieces_ne_nil _ _ _ _) first,
    map_trim_glue_singleton (pieces_ne_nil _ _ _ _) second]

/-- Blanks around a text do not show in its trimmed pieces. -/
theorem pieces_padded (neutral : brackets.Neutral mark) {before after : Text}
    (first : allBlank before = true) (second : allBlank after = true) (text : Text) :
    (pieces brackets [mark] 0 (before ++ text ++ after)).map trim =
      (pieces brackets [mark] 0 text).map trim := by
  rw [List.append_assoc, pieces_blank_append neutral first,
    map_trim_glue_singleton (pieces_ne_nil _ _ _ _) first, pieces_append,
    pieces_blank neutral second, map_trim_glue_blank (pieces_ne_nil _ _ _ _) second, List.map_nil,
    List.append_nil]

/-- Parts joined by a mark within blanks are cut one behind the other. -/
theorem pieces_join (neutral : brackets.Neutral mark) {before after : Text}
    (first : allBlank before = true) (second : allBlank after = true) {parts : List Text}
    (nonempty : parts ≠ []) (nested : ∀ part ∈ parts, brackets.Seals [] part) :
    (pieces brackets [mark] 0 (join (before ++ mark :: after) parts)).map trim =
      parts.flatMap fun part => (pieces brackets [mark] 0 part).map trim := by
  induction parts with
  | nil => exact absurd rfl nonempty
  | cons part rest ih =>
    by_cases last : rest = []
    · subst last
      simp
    · have later := ih last fun other member => nested other (List.mem_cons_of_mem part member)
      rw [join_cons_of_ne_nil _ part last, List.append_assoc, List.append_assoc, List.cons_append,
        pieces_append_mark neutral first second
          (depthBehind_eq_of_level (nested part (by simp))), later,
        List.flatMap_cons]

theorem dropEmptyLast_eq_self {parts : List Text} (last : parts.getLast? ≠ some []) :
    dropEmptyLast parts = parts :=
  if_neg last

/-- Sealed parts come back from the text that joins them. -/
theorem splitOutside_join (neutral : brackets.Neutral mark) (before after : Text) {barred : Text}
    (first : allBlank before = true) (second : allBlank after = true) (bars : mark ∈ barred)
    {parts : List Text} (sealed : ∀ part ∈ parts, brackets.Seals barred part)
    (trimmed : ∀ part ∈ parts, Trimmed part) (last : parts.getLast? ≠ some []) :
    splitOutside brackets [mark] (join (before ++ mark :: after) parts) = parts := by
  by_cases nonempty : parts = []
  · subst nonempty
    rfl
  · have single : ∀ part ∈ parts, (pieces brackets [mark] 0 part).map trim = [part] := by
      intro part member
      rw [pieces_of_seals neutral bars (sealed part member), List.map_singleton,
        trim_eq_self (trimmed part member)]
    have whole := pieces_join neutral first second nonempty fun part member =>
      (sealed part member).mono (List.nil_subset barred)
    have same : (parts.flatMap fun part => (pieces brackets [mark] 0 part).map trim) = parts := by
      rw [List.flatMap_def, List.map_congr_left single, ← List.flatMap_def, List.flatMap_singleton']
    rw [splitOutside, whole, same, dropEmptyLast_eq_self last]

/-- A text that is not cut is one part at most. -/
theorem splitOutside_length_le_of_pieces {text : Text}
    (whole : pieces brackets [mark] 0 text = [text]) :
    (splitOutside brackets [mark] text).length ≤ 1 := by
  rw [splitOutside, whole, dropEmptyLast]
  split
  · simp
  · simp

theorem splitOutside_of_seals (neutral : brackets.Neutral mark) {barred text : Text}
    (bars : mark ∈ barred) (sealed : brackets.Seals barred text) (trimmed : Trimmed text)
    (visible : text ≠ []) : splitOutside brackets [mark] text = [text] := by
  rw [splitOutside, pieces_of_seals neutral bars sealed, List.map_singleton,
    trim_eq_self trimmed, dropEmptyLast_eq_self (by simpa using visible)]

end Join

section Count

variable {brackets : Brackets} {mark : CodePoint}

/-- The last piece ends as the text does. -/
theorem getLast?_pieces {depth : Nat} {text piece : Text} {c : CodePoint}
    (last : text.getLast? = some c) (other : c ≠ mark)
    (h : (pieces brackets [mark] depth text).getLast? = some piece) : piece.getLast? = some c := by
  induction text generalizing depth piece with
  | nil => cases last
  | cons d rest ih =>
    by_cases only : rest = []
    · subst only
      obtain rfl := Option.some.inj last
      have goesOn : ¬([d] = [mark] ∧ brackets.depthAfter depth d = 0) := fun both =>
        other (List.head_eq_of_cons_eq both.1)
      rw [pieces_cons_of_not_cut _ _ goesOn] at h
      obtain rfl := Option.some.inj h
      rfl
    · rw [List.getLast?_cons_of_ne_nil only] at last
      by_cases cut : [d] = [mark] ∧ brackets.depthAfter depth d = 0
      · rw [pieces_cons_of_cut _ _ cut, List.getLast?_cons_of_ne_nil (pieces_ne_nil _ _ _ _)] at h
        exact ih last h
      · rw [pieces_cons_of_not_cut _ _ cut] at h
        obtain ⟨head, others, eq⟩ := List.exists_cons_of_ne_nil
          (pieces_ne_nil brackets [mark] (brackets.depthAfter depth d) rest)
        rw [eq] at h
        by_cases single : others = []
        · subst single
          have tail : head.getLast? = some c := ih last (by rw [eq]; rfl)
          have whole : d :: head = piece := Option.some.inj h
          rw [← whole, List.getLast?_cons, tail]
          rfl
        · have later : (head :: others).getLast? = some piece := by
            rw [List.getLast?_cons_of_ne_nil single]
            rwa [glue, List.getLast?_cons_of_ne_nil single] at h
          exact ih last (by rw [eq]; exact later)

/-- No piece is dropped behind a visible character. -/
theorem splitOutside_eq_map_pieces {text : Text} {c : CodePoint} (last : text.getLast? = some c)
    (visible : isBlank c = false) (other : c ≠ mark) :
    splitOutside brackets [mark] text = (pieces brackets [mark] 0 text).map trim := by
  refine dropEmptyLast_eq_self fun empty => ?_
  rw [List.getLast?_map] at empty
  obtain ⟨piece, found, nothing⟩ := Option.map_eq_some_iff.mp empty
  have ends := getLast?_pieces last other found
  have blank := List.all_eq_true.mp (trim_eq_nil_iff.mp nothing) c (List.mem_of_mem_getLast? ends)
  rw [visible] at blank
  cases blank

theorem pieces_length_pos (brackets : Brackets) (delimiter : Text) (depth : Nat) (text : Text) :
    0 < (pieces brackets delimiter depth text).length :=
  List.length_pos_iff.mpr (pieces_ne_nil brackets delimiter depth text)

theorem length_le_flatMap_length {Part Piece : Type} {parts : List Part} {cut : Part → List Piece}
    (some : ∀ part ∈ parts, 0 < (cut part).length) :
    parts.length ≤ (parts.flatMap cut).length := by
  induction parts with
  | nil => simp
  | cons part rest ih =>
    have here := some part (by simp)
    have later := ih fun other member => some other (List.mem_cons_of_mem part member)
    simp only [List.flatMap_cons, List.length_append, List.length_cons]
    omega

/-- If a text is cut into no more pieces than were joined, none of the parts is cut. -/
theorem pieces_length_of_flatMap {parts : List Text} {cut : Text → List Text}
    (some : ∀ part ∈ parts, 0 < (cut part).length)
    (count : (parts.flatMap cut).length = parts.length) :
    ∀ part ∈ parts, (cut part).length = 1 := by
  induction parts with
  | nil => simp
  | cons part rest ih =>
    have here := some part (by simp)
    have rest_some : ∀ other ∈ rest, 0 < (cut other).length :=
      fun other member => some other (List.mem_cons_of_mem part member)
    have least := length_le_flatMap_length rest_some
    simp only [List.flatMap_cons, List.length_append, List.length_cons] at count
    intro other member
    rcases List.mem_cons.mp member with rfl | member
    · omega
    · exact ih rest_some (by omega) other member

theorem glue_singleton_length (piece : Text) {rest : List Text} (right : rest ≠ []) :
    (glue [piece] rest).length = rest.length := by
  obtain ⟨first, others, rfl⟩ := List.exists_cons_of_ne_nil right
  rfl

/-- The only piece of a text that is not cut is the text. -/
theorem pieces_eq_of_length {delimiter : Text} {depth : Nat} {text : Text}
    (single : (pieces brackets delimiter depth text).length = 1) :
    pieces brackets delimiter depth text = [text] := by
  induction text generalizing depth with
  | nil => rfl
  | cons c rest ih =>
    have more := pieces_ne_nil brackets delimiter (brackets.depthAfter depth c) rest
    by_cases cut : [c] = delimiter ∧ brackets.depthAfter depth c = 0
    · rw [pieces_cons_of_cut _ _ cut, List.length_cons] at single
      have positive := pieces_length_pos brackets delimiter 0 rest
      omega
    · rw [pieces_cons_of_not_cut _ _ cut] at single ⊢
      rw [glue_singleton_length [c] more] at single
      rw [ih single]
      rfl

/-- Texts that a mark can be put between: some solid texts with nested brackets, none of which ends
with the mark. -/
structure Joinable (brackets : Brackets) (mark : CodePoint) (parts : List Text) : Prop where
  nonempty : parts ≠ []
  nested : ∀ part ∈ parts, brackets.Seals [] part
  solid : ∀ part ∈ parts, Solid part
  ends : ∀ part ∈ parts, part.getLast? ≠ some mark

section Joined

variable {before after : Text} {parts : List Text}

/-- Such texts are cut one behind the other, and nothing is dropped. -/
theorem splitOutside_join_eq (neutral : brackets.Neutral mark) (first : allBlank before = true)
    (second : allBlank after = true) (joinable : Joinable brackets mark parts) :
    splitOutside brackets [mark] (join (before ++ mark :: after) parts) =
      parts.flatMap fun part => (pieces brackets [mark] 0 part).map trim := by
  obtain ⟨part, member, same⟩ :=
    exists_getLast?_join (before ++ mark :: after) joinable.nonempty joinable.solid
  obtain ⟨rest, c, eq, visible⟩ := (joinable.solid part member).exists_last
  have last : part.getLast? = some c := by rw [eq, List.getLast?_concat]
  have other : c ≠ mark := by
    rintro rfl
    exact joinable.ends part member last
  rw [splitOutside_eq_map_pieces (same.trans last) visible other,
    pieces_join neutral first second joinable.nonempty joinable.nested]

theorem length_le_splitOutside_join (neutral : brackets.Neutral mark) (before after : Text)
    (first : allBlank before = true) (second : allBlank after = true)
    (joinable : Joinable brackets mark parts) :
    parts.length ≤
      (splitOutside brackets [mark] (join (before ++ mark :: after) parts)).length := by
  rw [splitOutside_join_eq neutral first second joinable]
  refine length_le_flatMap_length fun part _ => ?_
  rw [List.length_map]
  exact pieces_length_pos brackets [mark] 0 part

/-- If no more texts come back than were joined, none of them is cut. -/
theorem pieces_eq_of_splitOutside_join (neutral : brackets.Neutral mark)
    (first : allBlank before = true) (second : allBlank after = true)
    (joinable : Joinable brackets mark parts)
    (count : (splitOutside brackets [mark] (join (before ++ mark :: after) parts)).length =
      parts.length) :
    ∀ part ∈ parts, pieces brackets [mark] 0 part = [part] := by
  rw [splitOutside_join_eq neutral first second joinable] at count
  have some : ∀ part ∈ parts, 0 < ((pieces brackets [mark] 0 part).map trim).length := by
    intro part _
    rw [List.length_map]
    exact pieces_length_pos brackets [mark] 0 part
  intro part member
  have single := pieces_length_of_flatMap some count part member
  rw [List.length_map] at single
  exact pieces_eq_of_length single

/-- Texts that are not cut come back from the text that joins them. -/
theorem splitOutside_join_of_pieces (neutral : brackets.Neutral mark)
    (first : allBlank before = true) (second : allBlank after = true)
    (joinable : Joinable brackets mark parts)
    (whole : ∀ part ∈ parts, pieces brackets [mark] 0 part = [part]) :
    splitOutside brackets [mark] (join (before ++ mark :: after) parts) = parts := by
  have single : ∀ part ∈ parts, (pieces brackets [mark] 0 part).map trim = [part] := by
    intro part member
    rw [whole part member, List.map_singleton, trim_eq_self (joinable.solid part member).trimmed]
  rw [splitOutside_join_eq neutral first second joinable, List.flatMap_def,
    List.map_congr_left single, ← List.flatMap_def, List.flatMap_singleton']

end Joined

end Count

section Rows

variable {brackets : Brackets} {mark : CodePoint}

/-- Texts as a mark leaves them when it cuts: it cuts none of them, and all but the last close the
brackets that they open. -/
structure Row (brackets : Brackets) (mark : CodePoint) (parts : List Text) : Prop where
  whole : ∀ part ∈ parts, pieces brackets [mark] 0 part = [part]
  closed : parts.Pairwise fun part _ => brackets.depthBehind 0 part = 0

theorem Row.sublist {parts fewer : List Text} (row : Row brackets mark parts)
    (sublist : fewer.Sublist parts) : Row brackets mark fewer where
  whole := fun part here => row.whole part (sublist.subset here)
  closed := row.closed.sublist sublist

/-- The first piece goes on from the depth before it, and the others are a row. -/
theorem exists_pieces_row (neutral : brackets.Neutral mark) (depth : Nat) (text : Text) :
    ∃ first rest, pieces brackets [mark] depth text = first :: rest ∧
      pieces brackets [mark] depth first = [first] ∧
      (rest ≠ [] → brackets.depthBehind depth first = 0) ∧ Row brackets mark rest := by
  induction text generalizing depth with
  | nil => exact ⟨[], [], rfl, rfl, fun more => absurd rfl more, ⟨by simp, List.Pairwise.nil⟩⟩
  | cons c text ih =>
    by_cases cut : [c] = [mark] ∧ brackets.depthAfter depth c = 0
    · obtain ⟨first, rest, eq, whole, closed, row⟩ := ih 0
      have outside : depth = 0 := by
        have same := neutral.depthAfter depth
        rwa [← List.head_eq_of_cons_eq cut.1, cut.2, eq_comm] at same
      refine ⟨[], first :: rest, by rw [pieces_cons_of_cut _ _ cut, eq], rfl, fun _ => outside,
        ⟨?_, List.pairwise_cons.mpr ⟨fun other here => ?_, row.closed⟩⟩⟩
      · intro part here
        rcases List.mem_cons.mp here with rfl | later
        · exact whole
        · exact row.whole part later
      · exact closed (List.ne_nil_of_mem here)
    · obtain ⟨first, rest, eq, whole, closed, row⟩ := ih (brackets.depthAfter depth c)
      refine ⟨c :: first, rest, ?_, ?_, closed, row⟩
      · rw [pieces_cons_of_not_cut _ _ cut, eq]
        rfl
      · rw [pieces_cons_of_not_cut _ _ cut, whole]
        rfl

theorem row_pieces (neutral : brackets.Neutral mark) (text : Text) :
    Row brackets mark (pieces brackets [mark] 0 text) := by
  obtain ⟨first, rest, eq, whole, closed, row⟩ := exists_pieces_row neutral 0 text
  rw [eq]
  refine ⟨fun part here => ?_, List.pairwise_cons.mpr ⟨fun other here => ?_, row.closed⟩⟩
  · rcases List.mem_cons.mp here with rfl | later
    · exact whole
    · exact row.whole part later
  · exact closed (List.ne_nil_of_mem here)

theorem pieces_trim_of_whole (neutral : brackets.Neutral mark) {part : Text}
    (whole : pieces brackets [mark] 0 part = [part]) :
    pieces brackets [mark] 0 (trim part) = [trim part] := by
  obtain ⟨before, after, eq, first, second⟩ := exists_padding part
  have same := pieces_padded neutral first second (trim part)
  rw [← eq, whole] at same
  have count := congrArg List.length same
  rw [List.length_map, List.length_map] at count
  exact pieces_eq_of_length count.symm

theorem depthBehind_trim (neutral : brackets.Neutral mark) (depth : Nat) (part : Text) :
    brackets.depthBehind depth (trim part) = brackets.depthBehind depth part := by
  obtain ⟨before, after, eq, first, second⟩ := exists_padding part
  have whole : brackets.depthBehind depth (before ++ trim part ++ after) =
      brackets.depthBehind depth (trim part) := by
    rw [Brackets.depthBehind, List.foldl_append, List.foldl_append]
    show brackets.depthBehind (brackets.depthBehind (brackets.depthBehind depth before)
      (trim part)) after = _
    rw [neutral.depthBehind_blank second, neutral.depthBehind_blank first]
  rw [← whole, ← eq]

/-- The parts of a text between the marks are a row. -/
theorem row_splitOutside (neutral : brackets.Neutral mark) (text : Text) :
    Row brackets mark (splitOutside brackets [mark] text) := by
  have row := row_pieces neutral text
  have trimmed : Row brackets mark ((pieces brackets [mark] 0 text).map trim) := by
    refine ⟨fun part here => ?_, ?_⟩
    · obtain ⟨piece, inside, rfl⟩ := List.mem_map.mp here
      exact pieces_trim_of_whole neutral (row.whole piece inside)
    · exact List.pairwise_map.mpr (row.closed.imp fun closed =>
        (depthBehind_trim neutral 0 _).trans closed)
  rw [splitOutside, dropEmptyLast]
  split
  · exact trimmed.sublist (List.dropLast_sublist _)
  · exact trimmed

theorem Row.map_trim_pieces_join (neutral : brackets.Neutral mark) {before after : Text}
    (first : allBlank before = true) (second : allBlank after = true) {parts : List Text}
    (row : Row brackets mark parts) (some : parts ≠ [])
    (trimmed : ∀ part ∈ parts, Trimmed part) :
    (pieces brackets [mark] 0 (join (before ++ mark :: after) parts)).map trim = parts := by
  induction parts with
  | nil => exact absurd rfl some
  | cons part rest ih =>
    have alone : (pieces brackets [mark] 0 part).map trim = [part] := by
      rw [row.whole part List.mem_cons_self, List.map_singleton,
        trim_eq_self (trimmed part List.mem_cons_self)]
    by_cases last : rest = []
    · rw [last, join_singleton, alone]
    · obtain ⟨closed, -⟩ := List.pairwise_cons.mp row.closed
      obtain ⟨next, others, eq⟩ := List.exists_cons_of_ne_nil last
      have later := ih (row.sublist (List.sublist_cons_self part rest)) last
        fun other here => trimmed other (List.mem_cons_of_mem part here)
      rw [join_cons_of_ne_nil _ part last, List.append_assoc, List.append_assoc, List.cons_append,
        pieces_append_mark neutral first second (closed next (eq ▸ List.mem_cons_self)), alone,
        later]
      rfl

/-- The parts that are not blank are cut where they are joined again. -/
theorem Row.splitOutside_join (neutral : brackets.Neutral mark) {before after : Text}
    (first : allBlank before = true) (second : allBlank after = true) {parts : List Text}
    (row : Row brackets mark parts) (solid : ∀ part ∈ parts, Solid part) :
    splitOutside brackets [mark] (join (before ++ mark :: after) parts) = parts := by
  by_cases some : parts = []
  · subst some
    rfl
  · have trimmed : ∀ part ∈ parts, Trimmed part := fun part here => (solid part here).trimmed
    rw [splitOutside, row.map_trim_pieces_join neutral first second some trimmed]
    exact dropEmptyLast_eq_self fun empty =>
      (solid [] (List.mem_of_mem_getLast? empty)).nonempty rfl

end Rows

section Infixes

variable {brackets : Brackets} {delimiter text part : Text}

/-- The first piece starts the text, and the others stand in it. -/
theorem exists_pieces (brackets : Brackets) (delimiter : Text) (depth : Nat) (text : Text) :
    ∃ first others, pieces brackets delimiter depth text = first :: others ∧ first <+: text ∧
      ∀ part ∈ others, part <:+: text := by
  induction text generalizing depth with
  | nil => exact ⟨[], [], rfl, List.nil_prefix, nofun⟩
  | cons c rest ih =>
    by_cases cut : [c] = delimiter ∧ brackets.depthAfter depth c = 0
    · obtain ⟨first, others, eq, starts, inside⟩ := ih 0
      refine ⟨[], first :: others, ?_, List.nil_prefix, fun part member => ?_⟩
      · rw [pieces_cons_of_cut brackets delimiter cut, eq]
      · have within : part <:+: rest := by
          rcases List.mem_cons.mp member with rfl | later
          · exact starts.isInfix
          · exact inside part later
        exact within.trans (List.suffix_cons c rest).isInfix
    · obtain ⟨first, others, eq, starts, inside⟩ := ih (brackets.depthAfter depth c)
      refine ⟨c :: first, others, ?_, List.cons_prefix_cons.mpr ⟨rfl, starts⟩, fun part member =>
        (inside part member).trans (List.suffix_cons c rest).isInfix⟩
      rw [pieces_cons_of_not_cut brackets delimiter cut, eq]
      rfl

theorem isInfix_of_mem_splitOutside (member : part ∈ splitOutside brackets delimiter text) :
    part <:+: text := by
  obtain ⟨piece, known, rfl⟩ := List.mem_map.mp (mem_dropEmptyLast member)
  obtain ⟨first, others, eq, starts, inside⟩ := exists_pieces brackets delimiter 0 text
  have within : piece <:+: text := by
    rw [eq] at known
    rcases List.mem_cons.mp known with rfl | later
    · exact starts.isInfix
    · exact inside piece later
  exact (isInfix_trim piece).trans within

theorem isInfix_of_mem_splitCommas (member : part ∈ splitCommas text) : part <:+: text :=
  isInfix_of_mem_splitOutside (List.mem_filter.mp member).1

end Infixes

end SchemaBoard.Text
