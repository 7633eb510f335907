import SchemaBoard.Declaration.Comment
import SchemaBoard.Proofs.Text.Marks

set_option autoImplicit false

/-!
Comments at the ends of texts. Main statements: what is dropped from a text stands behind all of it
that ends visibly and outside of its comments, and lines that close what they open leave no comment
open together.
-/
namespace SchemaBoard.Comment

open Text (Lacks)

/-- The last line of the text has a line comment in it. -/
def LineTail (text : Text) : Prop :=
  ∃ before inside, text = before ++ .char '/' :: .char '/' :: inside ∧ .char '\n' ∉ inside

/-- The text has a block comment in it that is not closed. -/
def BlockTail (text : Text) : Prop :=
  ∃ before inside, text = before ++ .char '/' :: .char '*' :: inside ∧ Lacks ['*', '/'] inside

/-- A comment of the text takes in the start of what stands behind the text. -/
def RunsInto (tail text : Text) : Prop := LineTail text ∨ BlockTail text ∧ tail ≠ []

/-- The text ends with a visible character that closes no comment. -/
def EndsVisibly (text : Text) : Prop :=
  ∃ before c, text = before ++ [c] ∧ Text.isBlank c = false ∧ c ≠ .char '/'

theorem LineTail.cons {text : Text} (c : CodePoint) (tail : LineTail text) :
    LineTail (c :: text) := by
  obtain ⟨before, inside, rfl, free⟩ := tail
  exact ⟨c :: before, inside, rfl, free⟩

theorem BlockTail.cons {text : Text} (c : CodePoint) (tail : BlockTail text) :
    BlockTail (c :: text) := by
  obtain ⟨before, inside, rfl, free⟩ := tail
  exact ⟨c :: before, inside, rfl, free⟩

theorem RunsInto.cons {text tail : Text} (c : CodePoint) (runs : RunsInto tail text) :
    RunsInto tail (c :: text) :=
  runs.imp (LineTail.cons c) fun block => ⟨block.1.cons c, block.2⟩

theorem lineTail_cons_iff {c : CodePoint} {rest : Text} : LineTail (c :: rest) ↔
    ("//".toText <+: c :: rest ∧ .char '\n' ∉ c :: rest) ∨ LineTail rest := by
  constructor
  · rintro ⟨before, inside, eq, free⟩
    cases before with
    | nil =>
      refine Or.inl ⟨⟨inside, eq.symm⟩, ?_⟩
      rw [eq, List.nil_append]
      simp [free]
    | cons d before =>
      obtain ⟨-, rfl⟩ := List.cons_eq_cons.mp eq
      exact Or.inr ⟨before, inside, rfl, free⟩
  · rintro (⟨⟨inside, eq⟩, free⟩ | tail)
    · refine ⟨[], inside, eq.symm, fun here => free ?_⟩
      rw [← eq]
      exact List.mem_append_right _ here
    · exact tail.cons c

theorem not_blockTail_nil : ¬BlockTail [] := by
  rintro ⟨before, inside, eq, -⟩
  simp at eq

theorem blockTail_cons_iff {c : CodePoint} {rest : Text} : BlockTail (c :: rest) ↔
    (∃ inside, c :: rest = .char '/' :: .char '*' :: inside ∧ Lacks ['*', '/'] inside) ∨
      BlockTail rest := by
  constructor
  · rintro ⟨before, inside, eq, free⟩
    cases before with
    | nil => exact Or.inl ⟨inside, eq, free⟩
    | cons d before => exact Or.inr ⟨before, inside, List.tail_eq_of_cons_eq eq, free⟩
  · rintro (⟨inside, eq, free⟩ | tail)
    · exact ⟨[], inside, eq, free⟩
    · exact tail.cons c

instance decidableLineTail : (text : Text) → Decidable (LineTail text)
  | [] => isFalse (by rintro ⟨before, inside, eq, -⟩; simp at eq)
  | _ :: rest =>
    have := decidableLineTail rest
    decidable_of_iff _ lineTail_cons_iff.symm

theorem EndsVisibly.ne_nil {text : Text} (ends : EndsVisibly text) : text ≠ [] := by
  obtain ⟨before, c, rfl, -⟩ := ends
  simp

theorem EndsVisibly.tail {c : CodePoint} {rest : Text} (ends : EndsVisibly (c :: rest))
    (some : rest ≠ []) : EndsVisibly rest := by
  obtain ⟨before, d, eq, visible, other⟩ := ends
  cases before with
  | nil => exact absurd (List.tail_eq_of_cons_eq eq) some
  | cons b before => exact ⟨before, d, List.tail_eq_of_cons_eq eq, visible, other⟩

theorem EndsVisibly.of_singleton {c : CodePoint} (ends : EndsVisibly [c]) :
    Text.isBlank c = false ∧ c ≠ .char '/' := by
  obtain ⟨before, d, eq, visible, other⟩ := ends
  cases before with
  | nil =>
    obtain rfl := List.head_eq_of_cons_eq eq
    exact ⟨visible, other⟩
  | cons b before => simp at eq

theorem EndsVisibly.rest_ne_nil {c : CodePoint} {rest : Text} (ends : EndsVisibly (c :: rest))
    (other : c = .char '/' ∨ Text.isBlank c = true) : rest ≠ [] := by
  rintro rfl
  obtain ⟨visible, noSlash⟩ := ends.of_singleton
  rcases other with slash | blank
  · exact noSlash slash
  · exact absurd blank (by simp [visible])

-- The three scanners call each other, so the lemmas about them do: each takes the step that its
-- scanner takes on the text in front of the tail, until the text ends inside of a comment.
mutual

/-- Comments go on behind a visible end only if one of them runs into what stands there. -/
theorem runsInto_of_onlyComments {text tail : Text} (only : onlyComments (text ++ tail) = true)
    (ends : EndsVisibly text) : RunsInto tail text := by
  obtain ⟨c, rest, rfl⟩ := List.exists_cons_of_ne_nil ends.ne_nil
  rw [List.cons_append] at only
  unfold onlyComments at only
  split at only
  · next eq => cases eq
  · next more eq =>
    obtain ⟨rfl, later⟩ := List.cons_eq_cons.mp eq
    obtain ⟨d, rest, rfl⟩ := List.exists_cons_of_ne_nil (ends.rest_ne_nil (Or.inl rfl))
    obtain ⟨rfl, rfl⟩ := List.cons_eq_cons.mp later
    have behind := (ends.tail (List.cons_ne_nil _ _)).tail
    rcases runsInto_of_blockThenComments only behind with ⟨free, further⟩ | runs
    · exact Or.inr ⟨⟨[], rest, rfl, free⟩, further⟩
    · exact (runs.cons _).cons _
  · next more eq =>
    obtain ⟨rfl, later⟩ := List.cons_eq_cons.mp eq
    obtain ⟨d, rest, rfl⟩ := List.exists_cons_of_ne_nil (ends.rest_ne_nil (Or.inl rfl))
    obtain ⟨rfl, rfl⟩ := List.cons_eq_cons.mp later
    have behind := (ends.tail (List.cons_ne_nil _ _)).tail
    rcases runsInto_of_lineThenComments only behind with free | runs
    · exact Or.inl ⟨[], rest, rfl, free⟩
    · exact (runs.cons _).cons _
  · next eq =>
    obtain ⟨rfl, rfl⟩ := List.cons_eq_cons.mp eq
    obtain ⟨blank, only⟩ := (Bool.and_eq_true _ _).mp only
    exact (runsInto_of_onlyComments only (ends.tail (ends.rest_ne_nil (Or.inr blank)))).cons c
termination_by text.length

theorem runsInto_of_blockThenComments {text tail : Text}
    (closes : blockThenComments (text ++ tail) = true) (ends : text ≠ [] → EndsVisibly text) :
    Lacks ['*', '/'] text ∧ tail ≠ [] ∨ RunsInto tail text := by
  match text with
  | [] =>
    refine Or.inl ⟨rfl, ?_⟩
    rintro rfl
    cases closes
  | c :: rest =>
    have ends := ends (List.cons_ne_nil _ _)
    rw [List.cons_append] at closes
    unfold blockThenComments at closes
    split at closes
    · next eq => cases eq
    · next more eq =>
      obtain ⟨rfl, later⟩ := List.cons_eq_cons.mp eq
      by_cases last : rest = []
      · subst last
        refine Or.inl ⟨by decide, ?_⟩
        rintro rfl
        cases later
      · obtain ⟨d, rest, rfl⟩ := List.exists_cons_of_ne_nil last
        obtain ⟨rfl, rfl⟩ := List.cons_eq_cons.mp later
        have close := ends.tail (List.cons_ne_nil _ _)
        have behind := close.tail (close.rest_ne_nil (Or.inl rfl))
        exact Or.inr (((runsInto_of_onlyComments closes behind).cons _).cons _)
    · next other eq =>
      obtain ⟨rfl, rfl⟩ := List.cons_eq_cons.mp eq
      rcases runsInto_of_blockThenComments closes ends.tail with ⟨free, further⟩ | runs
      · refine Or.inl ⟨Text.lacks_cons_iff.mpr ⟨?_, free⟩, further⟩
        rintro ⟨rfl, head⟩
        obtain ⟨more, rfl⟩ := List.head?_eq_some_iff.mp head
        exact other _ rfl rfl
      · exact Or.inr (runs.cons c)
termination_by text.length

theorem runsInto_of_lineThenComments {text tail : Text}
    (goesOn : lineThenComments (text ++ tail) = true) (ends : text ≠ [] → EndsVisibly text) :
    .char '\n' ∉ text ∨ RunsInto tail text := by
  match text with
  | [] => exact Or.inl List.not_mem_nil
  | c :: rest =>
    have ends := ends (List.cons_ne_nil _ _)
    rw [List.cons_append] at goesOn
    unfold lineThenComments at goesOn
    split at goesOn
    · next eq => cases eq
    · next more eq =>
      obtain ⟨rfl, later⟩ := List.cons_eq_cons.mp eq
      obtain ⟨d, rest, rfl⟩ := List.exists_cons_of_ne_nil (ends.rest_ne_nil (Or.inl rfl))
      obtain ⟨rfl, rfl⟩ := List.cons_eq_cons.mp later
      have star := ends.tail (List.cons_ne_nil _ _)
      rcases (Bool.or_eq_true _ _).mp goesOn with block | line
      · rcases runsInto_of_blockThenComments block star.tail with ⟨free, further⟩ | runs
        · exact Or.inr (Or.inr ⟨⟨[], rest, rfl, free⟩, further⟩)
        · exact Or.inr ((runs.cons _).cons _)
      · have goesOn : lineThenComments ((.char '*' :: rest) ++ tail) = true := line
        rcases runsInto_of_lineThenComments goesOn fun _ => star with free | runs
        · exact Or.inl (List.not_mem_cons_of_ne_of_not_mem (by decide) free)
        · exact Or.inr (runs.cons _)
    · next eq =>
      obtain ⟨rfl, rfl⟩ := List.cons_eq_cons.mp eq
      by_cases feed : c = .char '\n'
      · rw [if_pos feed] at goesOn
        have blank : Text.isBlank c = true := feed ▸ by decide
        have behind := ends.tail (ends.rest_ne_nil (Or.inr blank))
        exact Or.inr ((runsInto_of_onlyComments goesOn behind).cons c)
      · rw [if_neg feed] at goesOn
        rcases runsInto_of_lineThenComments goesOn ends.tail with free | runs
        · exact Or.inl (List.not_mem_cons_of_ne_of_not_mem (Ne.symm feed) free)
        · exact Or.inr (runs.cons c)
termination_by text.length

end

/-- What is dropped stands behind a text that ends visibly, if none of its comments runs into it. -/
theorem dropTrailing_append {text tail : Text} (ends : EndsVisibly text)
    (outside : ¬RunsInto tail text) : dropTrailing (text ++ tail) = text ++ dropTrailing tail := by
  induction text with
  | nil => rfl
  | cons c rest ih =>
    have stays : onlyComments ((c :: rest) ++ tail) = false := by
      cases only : onlyComments ((c :: rest) ++ tail) with
      | false => rfl
      | true => exact absurd (runsInto_of_onlyComments only ends) outside
    rw [List.cons_append] at stays
    rw [List.cons_append, dropTrailing, stays, Bool.false_and, if_neg Bool.false_ne_true]
    by_cases last : rest = []
    · rw [last]
      rfl
    · rw [ih (ends.tail last) fun runs => outside (runs.cons c), List.cons_append]

/-- The text ends visibly and outside of its comments. -/
structure EndsOutside (text : Text) : Prop where
  visible : EndsVisibly text
  noLine : ¬LineTail text
  noBlock : ¬BlockTail text

theorem EndsOutside.dropTrailing_append {text : Text} (ends : EndsOutside text) (tail : Text) :
    dropTrailing (text ++ tail) = text ++ dropTrailing tail := by
  refine Comment.dropTrailing_append ends.visible ?_
  rintro (line | ⟨block, -⟩)
  · exact ends.noLine line
  · exact ends.noBlock block

/-- Nothing is dropped from a text that ends visibly and not in a line comment. -/
theorem dropTrailing_eq_self {text : Text} (ends : EndsVisibly text) (outside : ¬LineTail text) :
    dropTrailing text = text := by
  have alone : ¬RunsInto [] text := by
    rintro (line | ⟨-, more⟩)
    · exact outside line
    · exact more rfl
  have whole := dropTrailing_append ends alone
  rwa [List.append_nil, dropTrailing, List.append_nil] at whole

theorem dropTrailing_eq_nil {text : Text} (only : onlyComments text = true)
    (visible : Text.allBlank text = false) : dropTrailing text = [] := by
  cases text with
  | nil => rfl
  | cons c rest => rw [dropTrailing, only, visible, Bool.not_false, Bool.true_and, if_pos rfl]

theorem not_lineTail_of_lacks {text : Text} (free : Lacks ['/', '/'] text) : ¬LineTail text := by
  rintro ⟨before, inside, rfl, -⟩
  have found := Text.cut?_append_isSome ['/', '/'] (List.cons_ne_nil _ _) before inside
  rw [List.append_assoc, List.cons_append, List.cons_append, List.nil_append, free] at found
  cases found

/-- No slash stands on the last line. -/
theorem not_lineTail_of_last (front : Text) {last : Text} (free : .char '/' ∉ last) :
    ¬LineTail (front ++ .char '\n' :: last) := by
  rintro ⟨before, inside, eq, noFeed⟩
  rcases List.append_eq_append_iff.mp eq with ⟨more, -, later⟩ | ⟨more, -, later⟩
  · cases more with
    | nil => exact absurd (List.head_eq_of_cons_eq later) (by decide)
    | cons c others =>
      have tail : last = others ++ .char '/' :: .char '/' :: inside :=
        List.tail_eq_of_cons_eq later
      exact free (by simp [tail])
  · match more with
    | [] => exact absurd (List.head_eq_of_cons_eq later) (by decide)
    | [_] => exact absurd (List.head_eq_of_cons_eq (List.tail_eq_of_cons_eq later)) (by decide)
    | _ :: _ :: others =>
      have behind : inside = others ++ .char '\n' :: last :=
        List.tail_eq_of_cons_eq (List.tail_eq_of_cons_eq later)
      exact noFeed (by simp [behind])

/-- The last line is a closing brace alone. -/
theorem not_lineTail_of_brace (before : Text) :
    ¬LineTail (before ++ [.char '\n', .char '\x7d']) :=
  not_lineTail_of_last before (by decide)

section Open

theorem afterLast?_cons (mark : Text) (c : CodePoint) (rest : Text) :
    Text.afterLast? mark (c :: rest) =
      (Text.afterLast? mark rest).or (mark.isPrefixOf? (c :: rest)) := by
  rw [Text.afterLast?]
  cases Text.afterLast? mark rest <;> rfl

theorem docOpen_isPrefixOf?_eq_none {c : CodePoint} (other : c ≠ .char '/') (rest : Text) :
    docOpen.isPrefixOf? (c :: rest) = none := by
  cases found : docOpen.isPrefixOf? (c :: rest) with
  | none => rfl
  | some after =>
    exact absurd (List.head_eq_of_cons_eq (Text.isPrefixOf?_eq_some_iff.mp found)) other

/-- A text without a slash opens nothing. -/
theorem leavesOpen_append_of_free (text : Text) (free : .char '/' ∉ text) (rest : Text) :
    leavesOpen (text ++ rest) = leavesOpen rest := by
  induction text with
  | nil => rfl
  | cons c text ih =>
    have other : c ≠ .char '/' := by
      rintro rfl
      exact free (List.mem_cons_self)
    have later := ih fun member => free (List.mem_cons_of_mem c member)
    rw [← later, List.cons_append, leavesOpen, afterLast?_cons,
      docOpen_isPrefixOf?_eq_none other, Option.or_none, leavesOpen]

theorem leavesOpen_of_lacks {text : Text} (free : Lacks ['/', '*'] text) :
    leavesOpen text = false := by
  have absent : Text.afterLast? docOpen text = none := by
    induction text with
    | nil => rfl
    | cons c rest ih =>
      obtain ⟨here, later⟩ := Text.lacks_cons_iff.mp free
      rw [afterLast?_cons, ih later, Option.none_or]
      cases found : docOpen.isPrefixOf? (c :: rest) with
      | none => rfl
      | some after =>
        obtain ⟨rfl, rfl⟩ := List.cons_eq_cons.mp (Text.isPrefixOf?_eq_some_iff.mp found)
        exact absurd ⟨rfl, rfl⟩ here
  rw [leavesOpen, absent]

/-- What opens in front of the closing mark is closed there, since the blank keeps the two stars
that open it apart from the star of the mark. -/
theorem cut?_isSome_of_opened {c : CodePoint} {text rest after : Text}
    (found : docOpen.isPrefixOf? (c :: (text ++ " */".toText ++ rest)) = some after) :
    (Text.cut? blockClose after).isSome = true := by
  have eq := List.tail_eq_of_cons_eq (Text.isPrefixOf?_eq_some_iff.mp found)
  obtain ⟨front, rfl⟩ : ∃ front, text = .char '*' :: .char '*' :: front := by
    match text with
    | [] => cases List.head_eq_of_cons_eq eq
    | [_] => cases List.head_eq_of_cons_eq (List.tail_eq_of_cons_eq eq)
    | first :: second :: front =>
      have one : first = .char '*' := List.head_eq_of_cons_eq eq
      have other : second = .char '*' := List.head_eq_of_cons_eq (List.tail_eq_of_cons_eq eq)
      exact ⟨front, by rw [one, other]⟩
  have same : after = front ++ [.char ' '] ++ blockClose ++ rest := by
    rw [List.append_assoc front]
    exact (List.tail_eq_of_cons_eq (List.tail_eq_of_cons_eq eq)).symm
  rw [same]
  exact Text.cut?_append_isSome blockClose (by decide) (front ++ [.char ' ']) rest

/-- The closing mark behind a blank closes all that was opened in front of it, if no star behind the
mark makes its slash open a doc comment. -/
theorem leavesOpen_append_close {rest : Text} (closed : leavesOpen rest = false)
    (apart : rest.head? ≠ some (.char '*')) (text : Text) :
    leavesOpen (text ++ " */".toText ++ rest) = false := by
  induction text with
  | nil =>
    have slash : docOpen.isPrefixOf? (.char '/' :: rest) = none := by
      cases found : docOpen.isPrefixOf? (.char '/' :: rest) with
      | none => rfl
      | some after =>
        obtain ⟨-, rfl⟩ := List.cons_eq_cons.mp (Text.isPrefixOf?_eq_some_iff.mp found)
        exact absurd rfl apart
    have behind : leavesOpen (.char '/' :: rest) = false := by
      rwa [leavesOpen, afterLast?_cons, slash, Option.or_none]
    exact (leavesOpen_append_of_free " *".toText (by decide) _).trans behind
  | cons c text ih =>
    rw [List.cons_append, List.cons_append, leavesOpen, afterLast?_cons]
    rw [leavesOpen] at ih
    cases later : Text.afterLast? docOpen (text ++ " */".toText ++ rest) with
    | some after =>
      rw [later] at ih
      exact ih
    | none =>
      rw [Option.none_or]
      cases found : docOpen.isPrefixOf? (c :: (text ++ " */".toText ++ rest)) with
      | none => rfl
      | some after =>
        have cut := cut?_isSome_of_opened found
        simpa [Option.isNone_iff_eq_none, Option.isSome_iff_ne_none] using cut

theorem afterLast?_append_of_foreign {tail : Text} (foreign : .char '*' ∉ tail) (text : Text) :
    Text.afterLast? docOpen (text ++ tail) = (Text.afterLast? docOpen text).map (· ++ tail) := by
  have last : docOpen.getLast? = some (.char '*') := by decide
  have nothing : Text.afterLast? docOpen tail = none := by
    induction tail with
    | nil => rfl
    | cons d rest ih =>
      have absent := Text.isPrefixOf?_append_of_foreign last foreign []
      rw [afterLast?_cons, ih fun member => foreign (List.mem_cons_of_mem d member), Option.none_or]
      exact absent
  induction text with
  | nil => exact nothing
  | cons d rest ih =>
    have here := Text.isPrefixOf?_append_of_foreign last foreign (d :: rest)
    rw [List.cons_append] at here ⊢
    rw [afterLast?_cons, afterLast?_cons, ih, here]
    cases Text.afterLast? docOpen rest <;> rfl

/-- A tail without stars and slashes closes nothing and opens nothing. -/
theorem leavesOpen_append_of_foreign {tail : Text} (noStar : .char '*' ∉ tail)
    (noSlash : .char '/' ∉ tail) (text : Text) : leavesOpen (text ++ tail) = leavesOpen text := by
  have last : blockClose.getLast? = some (.char '/') := by decide
  rw [leavesOpen, leavesOpen, afterLast?_append_of_foreign noStar]
  cases Text.afterLast? docOpen text with
  | none => rfl
  | some rest =>
    simp only [Option.map_some, Text.cut?_append_of_foreign last noSlash]
    cases Text.cut? blockClose rest <;> rfl

/-- A line that opens nothing, or closes all that it opens at its end. -/
def ClosedLine (line : Text) : Prop :=
  .char '/' ∉ line ∨ ∃ inside, line = inside ++ " */".toText

/-- Lines that close what they open leave nothing open together. -/
theorem leavesOpen_join {lines : List Text} (closed : ∀ line ∈ lines, ClosedLine line) :
    leavesOpen (Text.join ['\n'] lines) = false := by
  induction lines with
  | nil => rfl
  | cons line rest ih =>
    have later := ih fun other member => closed other (List.mem_cons_of_mem line member)
    have feed : leavesOpen (.char '\n' :: Text.join ['\n'] rest) = false :=
      (leavesOpen_append_of_free ['\n'] (by decide) _).trans later
    by_cases last : rest = []
    · subst last
      rw [Text.join_singleton]
      rcases closed line (by simp) with free | ⟨inside, rfl⟩
      · have whole := leavesOpen_append_of_free _ free []
        rw [List.append_nil] at whole
        exact whole
      · have whole := leavesOpen_append_close (rfl : leavesOpen [] = false) (by simp) inside
        rwa [List.append_nil] at whole
    · rw [Text.join_cons_of_ne_nil _ line last, List.append_assoc, List.singleton_append]
      rcases closed line (by simp) with free | ⟨inside, rfl⟩
      · exact (leavesOpen_append_of_free _ free _).trans feed
      · exact leavesOpen_append_close feed (by simp) inside

/-- Behind a line that closes what it opens, only what stands below can stay open. -/
theorem not_blockTail_append_of_free {text rest : Text} (free : .char '/' ∉ text)
    (closed : ¬BlockTail rest) : ¬BlockTail (text ++ rest) := by
  induction text with
  | nil => exact closed
  | cons c text ih =>
    intro tail
    rcases blockTail_cons_iff.mp tail with ⟨inside, eq, -⟩ | later
    · exact free (List.head_eq_of_cons_eq eq ▸ List.mem_cons_self)
    · exact ih (fun member => free (List.mem_cons_of_mem c member)) later

theorem not_lineTail_append_of_free {text rest : Text} (free : .char '/' ∉ text)
    (outside : ¬LineTail rest) : ¬LineTail (text ++ rest) := by
  induction text with
  | nil => exact outside
  | cons c text ih =>
    intro tail
    rcases lineTail_cons_iff.mp tail with ⟨⟨inside, eq⟩, -⟩ | later
    · exact free (List.head_eq_of_cons_eq eq ▸ List.mem_cons_self)
    · exact ih (fun member => free (List.mem_cons_of_mem c member)) later

theorem not_blockTail_append_close {rest : Text} (closed : ¬BlockTail rest)
    (apart : rest.head? ≠ some (.char '*')) (text : Text) :
    ¬BlockTail (text ++ " */".toText ++ rest) := by
  induction text with
  | nil =>
    have slash : ¬BlockTail (.char '/' :: rest) := by
      intro tail
      rcases blockTail_cons_iff.mp tail with ⟨inside, eq, -⟩ | later
      · obtain ⟨-, rfl⟩ := List.cons_eq_cons.mp eq
        exact apart rfl
      · exact closed later
    have whole : ¬BlockTail (" *".toText ++ .char '/' :: rest) :=
      not_blockTail_append_of_free (by decide) slash
    exact whole
  | cons c text ih =>
    intro tail
    rcases blockTail_cons_iff.mp tail with ⟨inside, eq, free⟩ | later
    · cases text with
      | nil => exact absurd (List.head_eq_of_cons_eq (List.tail_eq_of_cons_eq eq)) (by decide)
      | cons d text =>
        have same : inside = text ++ [.char ' '] ++ blockClose ++ rest := by
          rw [List.append_assoc text]
          exact (List.tail_eq_of_cons_eq (List.tail_eq_of_cons_eq eq)).symm
        have found := Text.cut?_append_isSome blockClose (by decide) (text ++ [.char ' ']) rest
        have absent : Text.cut? blockClose inside = none := free
        rw [← same, absent] at found
        cases found
    · exact ih later

theorem not_blockTail_of_free {text : Text} (free : .char '/' ∉ text) : ¬BlockTail text := by
  have whole := not_blockTail_append_of_free free not_blockTail_nil
  rwa [List.append_nil] at whole

/-- Lines that close what they open leave no block comment open together. -/
theorem not_blockTail_join {lines : List Text} (closed : ∀ line ∈ lines, ClosedLine line) :
    ¬BlockTail (Text.join ['\n'] lines) := by
  induction lines with
  | nil => exact not_blockTail_nil
  | cons line rest ih =>
    have later := ih fun other member => closed other (List.mem_cons_of_mem line member)
    have feed : ¬BlockTail ([.char '\n'] ++ Text.join ['\n'] rest) :=
      not_blockTail_append_of_free (by decide) later
    by_cases last : rest = []
    · subst last
      rw [Text.join_singleton]
      rcases closed line (by simp) with free | ⟨inside, rfl⟩
      · exact not_blockTail_of_free free
      · have whole := not_blockTail_append_close not_blockTail_nil (by simp) inside
        rwa [List.append_nil] at whole
    · rw [Text.join_cons_of_ne_nil _ line last, List.append_assoc, List.singleton_append]
      rcases closed line (by simp) with free | ⟨inside, rfl⟩
      · exact not_blockTail_append_of_free free feed
      · exact not_blockTail_append_close feed (by simp) inside

end Open

section Doc

/-- A doc comment is found at the front of a text, up to its closing mark. -/
theorem leadingDoc?_append {inside : Text} (free : Lacks ['*', '/'] inside) (rest : Text) :
    leadingDoc? (docOpen ++ (inside ++ blockClose ++ rest)) = some (inside, rest) := by
  rw [leadingDoc?, Text.isPrefixOf?_append]
  have found := Text.cut?_append (by decide) rest free
  rw [List.append_assoc]
  exact found

theorem leadingDoc?_eq_none {text : Text} (other : text.head? ≠ some (.char '/')) :
    leadingDoc? text = none := by
  cases text with
  | nil => rfl
  | cons c rest =>
    have apart : c ≠ .char '/' := by
      rintro rfl
      exact other rfl
    rw [leadingDoc?, docOpen_isPrefixOf?_eq_none apart]

theorem wholeDoc?_eq_none {text : Text} (other : text.head? ≠ some (.char '/')) :
    wholeDoc? text = none := by
  rw [wholeDoc?, leadingDoc?_eq_none other]

end Doc

end SchemaBoard.Comment
