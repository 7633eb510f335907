import SchemaBoard.Proofs.Text.Lines

set_option autoImplicit false

/-!
Marks of two characters inside of texts. Main statements: a text without the mark is what stands in
front of the mark put behind it, and no text closes a comment after its closing marks were broken
up.
-/
namespace SchemaBoard.Text

def Lacks (mark text : Text) : Prop := cut? mark text = none

instance (mark text : Text) : Decidable (Lacks mark text) :=
  inferInstanceAs (Decidable (_ = _))

section Pair

variable {first second : CodePoint}

theorem isPrefixOf?_pair_eq_none_iff {c : CodePoint} {rest : Text} :
    [first, second].isPrefixOf? (c :: rest) = none ↔
      ¬(c = first ∧ rest.head? = some second) := by
  constructor
  · rintro absent ⟨rfl, next⟩
    obtain ⟨others, rfl⟩ : ∃ others, rest = second :: others := by
      cases rest with
      | nil => cases next
      | cons d others => exact ⟨others, by rw [Option.some.inj next]⟩
    have found := isPrefixOf?_append [c, second] others
    rw [List.cons_append, List.cons_append, List.nil_append, absent] at found
    cases found
  · intro other
    cases found : [first, second].isPrefixOf? (c :: rest) with
    | none => rfl
    | some after =>
      exfalso
      obtain ⟨rfl, rfl⟩ := List.cons_eq_cons.mp (isPrefixOf?_eq_some_iff.mp found)
      exact other ⟨rfl, rfl⟩

theorem lacks_cons_iff {c : CodePoint} {rest : Text} :
    Lacks [first, second] (c :: rest) ↔
      ¬(c = first ∧ rest.head? = some second) ∧ Lacks [first, second] rest := by
  rw [← isPrefixOf?_pair_eq_none_iff, Lacks, cut?]
  cases found : [first, second].isPrefixOf? (c :: rest) with
  | none => simp [Lacks]
  | some after => simp

theorem Lacks.append {left right : Text} (before : Lacks [first, second] left)
    (after : Lacks [first, second] right)
    (border : left.getLast? = some first → right.head? ≠ some second) :
    Lacks [first, second] (left ++ right) := by
  induction left with
  | nil => exact after
  | cons c rest ih =>
    obtain ⟨here, later⟩ := lacks_cons_iff.mp before
    rw [List.cons_append, lacks_cons_iff]
    by_cases last : rest = []
    · subst last
      refine ⟨?_, after⟩
      rintro ⟨rfl, next⟩
      exact border rfl next
    · have behind : rest.getLast? = some first → right.head? ≠ some second := by
        rwa [List.getLast?_cons_of_ne_nil last] at border
      refine ⟨?_, ih later behind⟩
      obtain ⟨d, others, rfl⟩ := List.exists_cons_of_ne_nil last
      exact here

theorem Lacks.of_append {left right : Text} (whole : Lacks [first, second] (left ++ right)) :
    Lacks [first, second] left := by
  induction left with
  | nil => rfl
  | cons c rest ih =>
    rw [List.cons_append, lacks_cons_iff] at whole
    refine lacks_cons_iff.mpr ⟨?_, ih whole.2⟩
    rintro ⟨same, next⟩
    refine whole.1 ⟨same, ?_⟩
    rw [List.head?_append, next]
    rfl

theorem lacks_of_not_mem {text : Text} (free : second ∉ text) : Lacks [first, second] text := by
  induction text with
  | nil => rfl
  | cons c rest ih =>
    refine lacks_cons_iff.mpr ⟨?_, ih fun member => free (List.mem_cons_of_mem c member)⟩
    rintro ⟨-, next⟩
    exact free (List.mem_cons_of_mem c (List.mem_of_mem_head? next))

theorem lacks_of_first_not_mem {text : Text} (free : first ∉ text) :
    Lacks [first, second] text := by
  induction text with
  | nil => rfl
  | cons c rest ih =>
    refine lacks_cons_iff.mpr ⟨?_, ih fun member => free (List.mem_cons_of_mem c member)⟩
    rintro ⟨rfl, -⟩
    exact free List.mem_cons_self

theorem lacks_join {separator : Text} {parts : List Text}
    (between : Lacks [first, second] separator) (visible : separator ≠ [])
    (ends : separator.getLast? ≠ some first)
    (starts : separator.head? ≠ some second) (free : ∀ part ∈ parts, Lacks [first, second] part) :
    Lacks [first, second] (join separator parts) := by
  induction parts with
  | nil => rfl
  | cons part rest ih =>
    have here := free part (by simp)
    by_cases last : rest = []
    · subst last
      rwa [join_singleton]
    · have later := ih fun other member => free other (List.mem_cons_of_mem part member)
      rw [join_cons_of_ne_nil separator part last]
      refine (here.append between fun _ => starts).append later fun same => absurd ?_ ends
      obtain ⟨c, ends⟩ := Option.isSome_iff_exists.mp (List.getLast?_isSome.mpr visible)
      rw [List.getLast?_append, ends] at same
      rw [ends]
      exact same

/-- The mark is found where it was put. -/
theorem cut?_append (apart : first ≠ second) {inside : Text} (rest : Text)
    (free : Lacks [first, second] inside) :
    cut? [first, second] (inside ++ first :: second :: rest) = some (inside, rest) := by
  induction inside with
  | nil =>
    rw [List.nil_append, cut?, isPrefixOf?_eq_some_iff.mpr (by rfl)]
  | cons c inside ih =>
    obtain ⟨here, later⟩ := lacks_cons_iff.mp free
    have absent :
        [first, second].isPrefixOf? (c :: (inside ++ first :: second :: rest)) = none := by
      rw [isPrefixOf?_pair_eq_none_iff]
      rintro ⟨same, next⟩
      cases inside with
      | nil => exact apart (Option.some.inj next)
      | cons d others => exact here ⟨same, next⟩
    rw [List.cons_append, cut?, absent]
    simp [ih later]

/-- A mark of which no part stands in front of it is found where it was put. -/
theorem cut?_append_of_not_mem {inside : Text} (free : first ∉ inside) (rest : Text) :
    cut? [first, second] (inside ++ first :: second :: rest) = some (inside, rest) := by
  induction inside with
  | nil =>
    rw [List.nil_append, cut?, isPrefixOf?_eq_some_iff.mpr (by rfl)]
  | cons c inside ih =>
    have absent :
        [first, second].isPrefixOf? (c :: (inside ++ first :: second :: rest)) = none := by
      rw [isPrefixOf?_pair_eq_none_iff]
      rintro ⟨rfl, -⟩
      exact free List.mem_cons_self
    rw [List.cons_append, cut?, absent]
    simp [ih fun member => free (List.mem_cons_of_mem c member)]

end Pair

theorem eq_of_cut? {word text before after : Text} (found : cut? word text = some (before, after)) :
    text = before ++ word ++ after := by
  induction text generalizing before with
  | nil => cases found
  | cons c rest ih =>
    rw [cut?] at found
    split at found
    · next behind here =>
      obtain ⟨rfl, rfl⟩ := Prod.mk.inj (Option.some.inj found)
      exact isPrefixOf?_eq_some_iff.mp here
    · obtain ⟨⟨front, back⟩, later, same⟩ := Option.map_eq_some_iff.mp found
      obtain ⟨rfl, rfl⟩ := Prod.mk.inj same
      rw [ih later]
      rfl

/-- A mark inside of a text is found, there or in front. -/
theorem cut?_append_isSome (mark : Text) (some : mark ≠ []) (before rest : Text) :
    (cut? mark (before ++ mark ++ rest)).isSome = true := by
  induction before with
  | nil =>
    obtain ⟨c, others, rfl⟩ := List.exists_cons_of_ne_nil some
    rw [List.nil_append, List.cons_append, cut?, ← List.cons_append, isPrefixOf?_append]
    rfl
  | cons c before ih =>
    rw [List.cons_append, List.cons_append, cut?]
    split
    · rfl
    · rw [Option.isSome_map]
      exact ih

section Trimmed

variable {mark text : Text}

theorem lacks_iff (some : mark ≠ []) :
    Lacks mark text ↔ ∀ before after, text ≠ before ++ mark ++ after := by
  constructor
  · rintro free before after rfl
    have found := cut?_append_isSome mark some before after
    rw [Option.isSome_iff_ne_none] at found
    exact found free
  · intro absent
    cases found : cut? mark text with
    | none => exact found
    | some parts => exact absurd (eq_of_cut? found) (absent _ _)

/-- Blanks around a text do not change if a mark stands in it. -/
theorem lacks_trim_iff (solid : Solid mark) :
    Lacks mark (trim text) ↔ Lacks mark text := by
  rw [lacks_iff solid.nonempty, lacks_iff solid.nonempty]
  constructor
  · rintro absent before after rfl
    exact absent (trimStart before) (trimEnd after) (trim_append_mark solid before after)
  · intro absent before after eq
    obtain ⟨left, right, whole, -, -⟩ := exists_padding text
    refine absent (left ++ before) (after ++ right) ?_
    rw [whole, eq]
    simp only [List.append_assoc]

end Trimmed

section Foreign

variable {word : Text} {c : CodePoint}

/-- A word whose last character does not occur in the tail is not found across the border. -/
theorem isPrefixOf?_append_of_foreign (last : word.getLast? = some c) {tail : Text}
    (foreign : c ∉ tail) (text : Text) :
    word.isPrefixOf? (text ++ tail) = (word.isPrefixOf? text).map (· ++ tail) := by
  cases found : word.isPrefixOf? text with
  | some rest =>
    obtain rfl := isPrefixOf?_eq_some_iff.mp found
    rw [List.append_assoc, isPrefixOf?_append]
    rfl
  | none =>
    cases later : word.isPrefixOf? (text ++ tail) with
    | none => rfl
    | some rest =>
      exfalso
      have eq := isPrefixOf?_eq_some_iff.mp later
      rcases List.append_eq_append_iff.mp eq with ⟨more, rfl, same⟩ | ⟨more, same, -⟩
      · cases more with
        | nil =>
          rw [List.append_nil] at found
          have whole := isPrefixOf?_append text []
          rw [List.append_nil, found] at whole
          cases whole
        | cons d more =>
          have ends : (d :: more).getLast? = some c := by
            rw [← last, List.getLast?_append, List.getLast?_cons]
            rfl
          exact foreign (same ▸ List.mem_append_left rest (List.mem_of_mem_getLast? ends))
      · rw [same, isPrefixOf?_append] at found
        cases found

theorem cut?_eq_none_of_foreign (last : word.getLast? = some c) {tail : Text}
    (foreign : c ∉ tail) : cut? word tail = none := by
  induction tail with
  | nil => rfl
  | cons d rest ih =>
    have absent := isPrefixOf?_append_of_foreign last foreign []
    have nothing : word.isPrefixOf? [] = none := by
      cases word with
      | nil => cases last
      | cons e word => rfl
    rw [nothing, List.nil_append] at absent
    rw [cut?, absent, ih fun member => foreign (List.mem_cons_of_mem d member)]
    rfl

theorem cut?_append_of_foreign (last : word.getLast? = some c) {tail : Text} (foreign : c ∉ tail)
    (text : Text) :
    cut? word (text ++ tail) =
      (cut? word text).map fun (before, after) => (before, after ++ tail) := by
  induction text with
  | nil => exact cut?_eq_none_of_foreign last foreign
  | cons d rest ih =>
    have here := isPrefixOf?_append_of_foreign last foreign (d :: rest)
    rw [List.cons_append] at here ⊢
    rw [cut?, cut?, here]
    cases word.isPrefixOf? (d :: rest) with
    | some after => rfl
    | none =>
      rw [ih]
      cases cut? word rest <;> rfl

end Foreign

section Closes

theorem head?_breakCloses (text : Text) : (breakCloses text).head? = text.head? := by
  fun_cases breakCloses text <;> rfl

theorem getLast?_breakCloses (text : Text) : (breakCloses text).getLast? = text.getLast? := by
  fun_induction breakCloses text with
  | case1 rest ih =>
    cases rest with
    | nil => rfl
    | cons c rest =>
      have some : breakCloses (c :: rest) ≠ [] := fun empty => by
        have head := head?_breakCloses (c :: rest)
        rw [empty] at head
        cases head
      rw [List.getLast?_cons_cons, List.getLast?_cons_cons, List.getLast?_cons_of_ne_nil some, ih]
      rfl
  | case2 c rest other ih =>
    cases rest with
    | nil => rfl
    | cons d rest =>
      have some : breakCloses (d :: rest) ≠ [] := fun empty => by
        have head := head?_breakCloses (d :: rest)
        rw [empty] at head
        cases head
      rw [List.getLast?_cons_of_ne_nil some, ih]
      rfl
  | case3 => rfl

theorem lacks_breakCloses (text : Text) : Lacks ['*', '/'] (breakCloses text) := by
  fun_induction breakCloses text with
  | case1 rest ih =>
    have slash : Lacks ['*', '/'] (.char '/' :: breakCloses rest) :=
      lacks_cons_iff.mpr ⟨by simp, ih⟩
    have blank : Lacks ['*', '/'] (.char ' ' :: .char '/' :: breakCloses rest) :=
      lacks_cons_iff.mpr ⟨by simp, slash⟩
    exact lacks_cons_iff.mpr ⟨by simp, blank⟩
  | case2 c rest other ih =>
    refine lacks_cons_iff.mpr ⟨?_, ih⟩
    rw [head?_breakCloses]
    rintro ⟨rfl, next⟩
    cases rest with
    | nil => cases next
    | cons d others => exact other others rfl (by rw [Option.some.inj next])
  | case3 => rfl

theorem breakCloses_eq_self {text : Text} (free : Lacks ['*', '/'] text) :
    breakCloses text = text := by
  fun_induction breakCloses text with
  | case1 rest ih => exact absurd ⟨rfl, rfl⟩ (lacks_cons_iff.mp free).1
  | case2 c rest other ih => rw [ih (lacks_cons_iff.mp free).2]
  | case3 => rfl

theorem mem_breakCloses {text : Text} {c : CodePoint} (member : c ∈ breakCloses text) :
    c ∈ text ∨ c = ' ' := by
  fun_induction breakCloses text with
  | case1 rest ih =>
    simp only [List.mem_cons] at member ⊢
    rcases member with here | here | here | later
    · exact Or.inl (Or.inl here)
    · exact Or.inr here
    · exact Or.inl (Or.inr (Or.inl here))
    · rcases ih later with inside | blank
      · exact Or.inl (Or.inr (Or.inr inside))
      · exact Or.inr blank
  | case2 d rest other ih =>
    rcases List.mem_cons.mp member with here | later
    · exact Or.inl (here ▸ List.mem_cons_self)
    · exact (ih later).imp_left (List.mem_cons_of_mem d)
  | case3 => cases member

theorem SingleLine.breakCloses {text : Text} (inside : SingleLine text) :
    SingleLine (breakCloses text) := by
  intro c member
  rcases mem_breakCloses member with here | rfl
  · exact inside c here
  · decide

end Closes

end SchemaBoard.Text
