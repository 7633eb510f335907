import SchemaBoard.Proofs.Member.Signature
import SchemaBoard.Proofs.Text.Splitting

set_option autoImplicit false

/-!
Signatures of methods and of indices. Both open a bracket where a property has its colon. Main
statement: none of them is read as a member.
-/
namespace SchemaBoard

open Text (Solid)

namespace Member

/-- What stands in front of the bracket that a method or an index signature opens: a name, perhaps
with a mark, or nothing but the modifier. -/
inductive ForeignFront : Text → CodePoint → Prop
  | method {name mark blanks : Text} {opener : CodePoint} (word : Text.isIdentifier name = true)
      (marked : mark = [] ∨ mark = "?".toText) (blank : Text.allBlank blanks = true)
      (opens : opener ∈ "(<".toText) : ForeignFront (name ++ (mark ++ blanks)) opener
  | index : ForeignFront [] '['
  | readonlyIndex {blanks : Text} (some : blanks ≠ []) (blank : Text.allBlank blanks = true) :
      ForeignFront ("readonly".toText ++ blanks) '['

/-- A text that begins like a method or an index signature. -/
def IsForeign (text : Text) : Prop :=
  ∃ front opener rest, ForeignFront front opener ∧ text = front ++ opener :: rest

namespace ForeignFront

variable {front : Text} {opener : CodePoint}

theorem opener_mem (foreign : ForeignFront front opener) : opener ∈ "(<[".toText := by
  cases foreign with
  | method _ _ _ opens =>
    have wider : ∀ c ∈ "(<".toText, c ∈ "(<[".toText := by decide
    exact wider opener opens
  | index | readonlyIndex => decide

theorem opener_apart (foreign : ForeignFront front opener) :
    Text.isBlank opener = false ∧ Text.isIdentifierPart opener = false ∧
      opener ≠ '?' ∧ opener ≠ ':' ∧ opener ≠ ';' ∧ opener ≠ '/' := by
  have known : ∀ c ∈ "(<[".toText, Text.isBlank c = false ∧ Text.isIdentifierPart c = false ∧
      c ≠ .char '?' ∧ c ≠ .char ':' ∧ c ≠ .char ';' ∧ c ≠ .char '/' := by decide
  exact known opener foreign.opener_mem

/-- A signature of a method or an index begins with a letter of a name or with its bracket. -/
theorem exists_head (foreign : ForeignFront front opener) (rest : Text) :
    ∃ c, (front ++ opener :: rest).head? = some c ∧ Text.isBlank c = false ∧ c ≠ '/' := by
  cases foreign with
  | method word _ _ _ =>
    obtain ⟨c, others, rfl, start, -⟩ := Text.isIdentifier_iff.mp word
    have part := Text.isIdentifierPart_of_start start
    exact ⟨c, rfl, Text.isBlank_of_isIdentifierPart part,
      Text.ne_of_isIdentifierPart '/' part (by decide)⟩
  | index => exact ⟨.char '[', rfl, by decide, by decide⟩
  | readonlyIndex _ _ => exact ⟨.char 'r', rfl, by decide, by decide⟩

theorem typed?_eq_none {blanks : Text} (blank : Text.allBlank blanks = true)
    (visible : Text.isBlank opener = false) (other : opener ≠ ':') (name rest : Text)
    (optional : Bool) : typed? name optional (blanks ++ opener :: rest) = none := by
  have start : Text.trimStart (blanks ++ opener :: rest) = opener :: rest :=
    Text.trimStart_blank_append blank fun c head => Option.some.inj head ▸ visible
  rw [typed?, start]
  split
  · next others eq => exact absurd (List.head_eq_of_cons_eq eq) other
  · rfl

theorem ofPlain?_bracket (opened : opener ∈ "(<[".toText) (rest : Text) :
    ofPlain? (opener :: rest) = none := by
  have known : ∀ c ∈ "(<[".toText, Text.isIdentifierStart c = false := by decide
  rw [ofPlain?, Text.identifier?, known opener opened, if_neg Bool.false_ne_true]

section Name

variable {name mark blanks : Text}

/-- What stands between a name and the bracket belongs to no name. -/
theorem head?_behind_name (marked : mark = [] ∨ mark = "?".toText)
    (blank : Text.allBlank blanks = true) (opened : opener ∈ "(<[".toText) (rest : Text) :
    ∀ c, (mark ++ (blanks ++ opener :: rest)).head? = some c →
      Text.isIdentifierPart c = false ∧ (mark = [] → c ≠ '?') := by
  have known : ∀ c ∈ "(<[".toText, Text.isIdentifierPart c = false ∧ c ≠ .char '?' := by decide
  intro c head
  rcases marked with rfl | rfl
  · cases blanks with
    | nil =>
      obtain ⟨noPart, noMark⟩ := known opener opened
      exact Option.some.inj head ▸ ⟨noPart, fun _ => noMark⟩
    | cons d others =>
      obtain rfl := Option.some.inj head
      have first : Text.isBlank d = true := List.all_eq_true.mp blank d (by simp)
      exact ⟨Text.isIdentifierPart_of_blank first, fun _ same => by rw [same] at first; cases first⟩
  · exact Option.some.inj head ▸ ⟨by decide, fun none => nomatch none⟩

theorem identifier?_name (word : Text.isIdentifier name = true)
    (marked : mark = [] ∨ mark = "?".toText) (blank : Text.allBlank blanks = true)
    (opened : opener ∈ "(<[".toText) (rest : Text) :
    Text.identifier? (name ++ (mark ++ (blanks ++ opener :: rest))) =
      some (name, mark ++ (blanks ++ opener :: rest)) :=
  Text.identifier?_append_of_boundary word fun c head =>
    (head?_behind_name marked blank opened rest c head).1

/-- Behind a name stands neither a mark and a colon nor a colon. -/
theorem ofPlain?_name (word : Text.isIdentifier name = true)
    (marked : mark = [] ∨ mark = "?".toText) (blank : Text.allBlank blanks = true)
    (opened : opener ∈ "(<[".toText) (rest : Text) :
    ofPlain? (name ++ (mark ++ (blanks ++ opener :: rest))) = none := by
  have known : ∀ c ∈ "(<[".toText, Text.isBlank c = false ∧ c ≠ .char ':' := by decide
  obtain ⟨visible, noColon⟩ := known opener opened
  have cut := identifier?_name word marked blank opened rest
  have unmarked := head?_behind_name marked blank opened rest
  rcases marked with rfl | rfl
  · rw [ofPlain?_of_unmarked cut fun head => (unmarked _ head).2 rfl rfl, List.nil_append,
      typed?_eq_none blank visible noColon]
  · exact (ofPlain?_of_marked cut).trans (typed?_eq_none blank visible noColon _ _ _)

/-- Behind the word of the modifier stands no signature of a member. -/
theorem afterWord?_bind_ofPlain?_name (word : Text.isIdentifier name = true)
    (marked : mark = [] ∨ mark = "?".toText) (blank : Text.allBlank blanks = true)
    (opened : opener ∈ "(<[".toText) (rest : Text) :
    (Text.afterWord? "readonly".toText (name ++ (mark ++ (blanks ++ opener :: rest)))).bind
      ofPlain? = none := by
  cases found : Text.afterWord? "readonly".toText
      (name ++ (mark ++ (blanks ++ opener :: rest))) with
  | none => rfl
  | some behind =>
    obtain ⟨others, some, other, seen, whole⟩ := Text.exists_of_afterWord? found
    obtain ⟨c, more, rfl⟩ := List.exists_cons_of_ne_nil some
    have first : Text.isBlank c = true := List.all_eq_true.mp other c (by simp)
    have boundary : ∀ d, (c :: more ++ behind).head? = Option.some d →
        Text.isIdentifierPart d = false :=
      fun d head => Option.some.inj head ▸ Text.isIdentifierPart_of_blank first
    have modifier : Text.identifier? ("readonly".toText ++ (c :: more ++ behind)) =
        Option.some ("readonly".toText, c :: more ++ behind) :=
      Text.identifier?_append_of_boundary (by decide) boundary
    rw [← List.append_assoc, whole, identifier?_name word marked blank opened rest] at modifier
    have same : mark ++ (blanks ++ opener :: rest) = c :: more ++ behind :=
      (Prod.mk.inj (Option.some.inj modifier)).2
    have visible : ∀ d ∈ "(<[".toText, Text.isBlank d = false := by decide
    rcases marked with rfl | rfl
    · have shown : ∀ d, (opener :: rest).head? = Option.some d → Text.isBlank d = false :=
        fun d head => Option.some.inj head ▸ visible opener opened
      obtain ⟨-, rfl⟩ := Text.blank_append_inj blank other shown seen same
      exact ofPlain?_bracket opened rest
    · obtain rfl : CodePoint.char '?' = c := List.head_eq_of_cons_eq same
      cases first

end Name

theorem ofSignature?_eq_none (foreign : ForeignFront front opener) (rest : Text) :
    ofSignature? (front ++ opener :: rest) = none := by
  cases foreign with
  | @method name mark blanks _ word marked blank opens =>
    have wider : ∀ c ∈ "(<".toText, c ∈ "(<[".toText := by decide
    have opened := wider opener opens
    rw [List.append_assoc, List.append_assoc, ofSignature?,
      afterWord?_bind_ofPlain?_name word marked blank opened,
      ofPlain?_name word marked blank opened]
  | index =>
    have bracket : ofPlain? (.char '[' :: rest) = none := ofPlain?_bracket (by decide) rest
    exact bracket
  | @readonlyIndex blanks some blank =>
    have opened : CodePoint.char '[' ∈ "(<[".toText := by decide
    have word : Text.isIdentifier "readonly".toText = true := by decide
    have modifier := afterWord?_bind_ofPlain?_name word (Or.inl rfl) blank opened rest
    have plain := ofPlain?_name word (Or.inl rfl) blank opened rest
    rw [List.nil_append] at modifier plain
    rw [List.append_assoc, ofSignature?, modifier, plain]

theorem solid_concat (foreign : ForeignFront front opener) : Solid (front ++ [opener]) := by
  obtain ⟨c, head, visible, -⟩ := foreign.exists_head []
  exact Text.solid_of_ends head List.getLast?_concat visible foreign.opener_apart.1

end ForeignFront

namespace IsForeign

variable {text : Text}

theorem trim (foreign : IsForeign text) : IsForeign (Text.trim text) := by
  obtain ⟨front, opener, rest, begins, rfl⟩ := foreign
  have kept := Text.trim_append_mark begins.solid_concat [] rest
  simp only [List.nil_append, List.append_assoc, List.singleton_append] at kept
  exact ⟨front, opener, Text.trimEnd rest, begins, kept⟩

theorem dropFinal (foreign : IsForeign text) : IsForeign (Text.dropFinal ';' text) := by
  obtain ⟨front, opener, rest, begins, rfl⟩ := foreign
  rw [Text.dropFinal]
  split
  · next final =>
    rcases List.eq_nil_or_concat rest with rfl | ⟨others, c, rfl⟩
    · rw [List.getLast?_concat] at final
      exact absurd (Option.some.inj final) begins.opener_apart.2.2.2.2.1
    · refine ⟨front, opener, others, begins, ?_⟩
      rw [List.concat_eq_append, ← List.cons_append, ← List.append_assoc, List.dropLast_concat]
  · exact ⟨front, opener, rest, begins, rfl⟩

/-- No method and no index signature is read as a member. -/
theorem read?_eq_none (foreign : IsForeign text) : read? text = none := by
  obtain ⟨front, opener, rest, begins, eq⟩ := foreign.trim.dropFinal.trim
  rw [read?, signatureText, eq, begins.ofSignature?_eq_none]

theorem head?_ne (foreign : IsForeign text) : text.head? ≠ some (.char '/') := by
  obtain ⟨front, opener, rest, begins, rfl⟩ := foreign
  obtain ⟨c, head, -, other⟩ := begins.exists_head rest
  rw [head]
  exact fun same => other (Option.some.inj same)

end IsForeign

end Member

end SchemaBoard
