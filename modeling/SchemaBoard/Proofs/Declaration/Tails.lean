import SchemaBoard.Proofs.Declaration.Legible
import SchemaBoard.Proofs.Declaration.RoundTrip

set_option autoImplicit false

/-!
Tails: blanks and comments behind a declaration. They are found from the left, anywhere in the text,
although the comments of members may hold the same marks. Main statement: behind a legible
declaration every tail is dropped, and so is `export` in front of it.
-/
namespace SchemaBoard

open Text (Lacks Solid)

namespace Comment

/-- Blanks, block comments up to their first closing mark, and line comments up to a line feed or to
the end of the text. -/
inductive IsTail : Text → Prop where
  | nil : IsTail []
  | blank {c : CodePoint} {rest : Text} (blank : Text.isBlank c = true) (later : IsTail rest) :
      IsTail (c :: rest)
  | block {inside rest : Text} (free : Lacks ['*', '/'] inside) (later : IsTail rest) :
      IsTail ("/*".toText ++ (inside ++ (blockClose ++ rest)))
  | line {inside rest : Text} (single : .char '\n' ∉ inside) (later : IsTail rest) :
      IsTail ("//".toText ++ (inside ++ .char '\n' :: rest))
  | last {inside : Text} (single : .char '\n' ∉ inside) : IsTail ("//".toText ++ inside)

section Tail

variable {inside rest tail : Text}

theorem onlyComments_cons_of_blank {c : CodePoint} (blank : Text.isBlank c = true)
    (only : onlyComments rest = true) : onlyComments (c :: rest) = true := by
  have other : c ≠ .char '/' := by
    rintro rfl
    cases blank
  unfold onlyComments
  split
  · rfl
  · next eq => exact absurd (List.head_eq_of_cons_eq eq) other
  · next eq => exact absurd (List.head_eq_of_cons_eq eq) other
  · next eq =>
    obtain ⟨rfl, rfl⟩ := List.cons_eq_cons.mp eq
    rw [blank, only, Bool.true_and]

theorem blockThenComments_append (free : Lacks ['*', '/'] inside) (rest : Text) :
    blockThenComments (inside ++ (blockClose ++ rest)) = onlyComments rest := by
  induction inside with
  | nil => rfl
  | cons c inside ih =>
    obtain ⟨apart, later⟩ := Text.lacks_cons_iff.mp free
    rw [← ih later, List.cons_append, blockThenComments]
    intro more star slash
    cases inside with
    | nil => cases slash
    | cons d inside => exact apart ⟨star, congrArg some (List.head_eq_of_cons_eq slash)⟩

theorem lineThenComments_append (free : .char '\n' ∉ inside)
    (goesOn : lineThenComments rest = true) : lineThenComments (inside ++ rest) = true := by
  induction inside with
  | nil => exact goesOn
  | cons c inside ih =>
    have later := ih fun member => free (List.mem_cons_of_mem c member)
    rw [List.cons_append]
    unfold lineThenComments
    split
    · rfl
    · next more eq =>
      obtain ⟨-, same⟩ := List.cons_eq_cons.mp eq
      rw [← same, later, Bool.or_true]
    · next eq =>
      obtain ⟨rfl, rfl⟩ := List.cons_eq_cons.mp eq
      have other : c ≠ .char '\n' := fun same => free (same ▸ List.mem_cons_self)
      rw [if_neg other, later]

theorem IsTail.onlyComments (tails : IsTail tail) : Comment.onlyComments tail = true := by
  induction tails with
  | nil => rfl
  | blank blank _ ih => exact onlyComments_cons_of_blank blank ih
  | block free _ ih => exact (blockThenComments_append free _).trans ih
  | @line inside rest single _ ih =>
    have feed : lineThenComments (.char '\n' :: rest) = true := ih
    have whole : lineThenComments (inside ++ .char '\n' :: rest) = true :=
      lineThenComments_append single feed
    exact whole
  | @last inside single =>
    have whole : lineThenComments (inside ++ []) = true := lineThenComments_append single rfl
    rw [List.append_nil] at whole
    exact whole

theorem isTail_trimEnd_last (single : .char '\n' ∉ inside) :
    IsTail (Text.trimEnd ("//".toText ++ inside)) := by
  rw [(by decide : Solid "//".toText).trimEnd_append]
  exact .last fun member => single ((Text.trimEnd_isPrefix inside).subset member)

/-- A tail that is trimmed is a tail. -/
theorem IsTail.trimEnd (tails : IsTail tail) : IsTail (Text.trimEnd tail) := by
  induction tails with
  | nil => exact .nil
  -- Blanks and the feed of a line comment are trimmed exactly if only blanks stand behind them.
  | @blank c rest blank later ih =>
    cases visible : Text.allBlank rest with
    | true =>
      have all : Text.allBlank (c :: rest) = true := by
        rw [Text.allBlank, List.all_cons, blank, Bool.true_and]
        exact visible
      rw [Text.trimEnd_eq_nil_iff.mpr all]
      exact .nil
    | false =>
      have kept := Text.trimEnd_append_of_visible visible [c]
      rw [List.singleton_append] at kept
      rw [kept]
      exact .blank blank ih
  | @block inside rest free later ih =>
    have solid : Solid ("/*".toText ++ (inside ++ blockClose)) := by
      rw [← List.append_assoc]
      exact Solid.between (by decide) _ (by decide)
    have kept := solid.trimEnd_append rest
    simp only [List.append_assoc] at kept
    rw [kept]
    exact .block free ih
  | @line inside rest single later ih =>
    cases visible : Text.allBlank rest with
    | true =>
      have blank : Text.allBlank (.char '\n' :: rest) = true := visible
      rw [← List.append_assoc, Text.trimEnd_append_blank blank]
      exact isTail_trimEnd_last single
    | false =>
      have kept := Text.trimEnd_append_of_visible visible ("//".toText ++ inside ++ [.char '\n'])
      simp only [List.append_assoc, List.singleton_append] at kept
      rw [kept]
      exact .line single ih
  | last single => exact isTail_trimEnd_last single

theorem EndsOutside.append_of_free {front text : Text} (free : .char '/' ∉ front)
    (ends : EndsOutside text) : EndsOutside (front ++ text) where
  visible := ends.visible.append front
  noLine := not_lineTail_append_of_free free ends.noLine
  noBlock := not_blockTail_append_of_free free ends.noBlock

/-- Behind a text that ends outside of its comments a trimmed tail is dropped. -/
theorem dropTrailing_tail {text : Text} (ends : EndsOutside text) (tails : IsTail tail) :
    dropTrailing (text ++ Text.trimEnd tail) = text := by
  rw [ends.dropTrailing_append]
  by_cases blank : Text.allBlank tail = true
  · rw [Text.trimEnd_eq_nil_iff.mpr blank, dropTrailing, List.append_nil]
  · have visible : Text.allBlank (Text.trimEnd tail) = false := by
      rw [← Bool.not_eq_true, ← Text.trim_eq_nil_iff, Text.trim_trimEnd, Text.trim_eq_nil_iff]
      exact blank
    rw [dropTrailing_eq_nil tails.trimEnd.onlyComments visible, List.append_nil]

end Tail

end Comment

namespace Outline

section Around

variable {declaration : Declaration} {comment : Option Text} {body tail : Text}

/-- The text of the comment in front of a declaration, with the line feed that sets it apart. -/
def headerText (comment : Option Text) : Text :=
  (headerLines comment).flatMap fun line => line ++ [.char '\n']

theorem headed_eq_append (comment : Option Text) (body : Text) :
    headed comment body = headerText comment ++ body := by
  rw [headed, headerText]
  induction headerLines comment with
  | nil => exact Text.join_singleton _ _
  | cons line rest ih =>
    rw [List.cons_append, Text.join_cons_of_ne_nil _ _ (by simp), ih, List.flatMap_cons]
    simp only [List.append_assoc]

theorem headerText_append_bodyText (declaration : Declaration) :
    headerText declaration.comment ++ declaration.bodyText = declaration.render := by
  rw [← headed_eq_append, bodyText, ← render_eq_headed]

/-- The blanks at the ends of a text say nothing. -/
theorem read?_trim (text : Text) : read? (Text.trim text) = read? text := by
  rw [read?, read?, Text.trim_eq_self (Text.trimmed_trim text)]

/-- The comment in front of a text is read, and the tail behind it is dropped. -/
theorem read?_headed_tail (solid : Solid body) (plain : body.head? ≠ some (.char '/'))
    (ends : Comment.EndsOutside body) (tails : Comment.IsTail tail) :
    read? (headed comment (body ++ tail)) =
      ((interface? body).or (assigned? body)).map
        fun found => { found with comment := settledHeader comment } := by
  have behind : ∀ rest, headed comment (body ++ rest) = headed comment body ++ rest := by
    intro rest
    rw [headed_eq_append, headed_eq_append, List.append_assoc]
  have trimmed : ∀ front : Text, Solid front →
      Text.trim (front ++ tail) = front ++ Text.trimEnd tail := by
    intro front whole
    have cut := Text.trim_append_mark whole [] tail
    rwa [List.nil_append] at cut
  have solidTail : Solid (body ++ Text.trimEnd tail) := by
    rw [← trimmed body solid]
    refine ⟨?_, Text.trimmed_trim _⟩
    rw [trimmed body solid]
    simp [solid.nonempty]
  have plainTail : (body ++ Text.trimEnd tail).head? ≠ some (.char '/') := by
    obtain ⟨c, rest, rfl, -⟩ := solid.exists_head
    exact plain
  rw [← read?_trim, behind, trimmed _ (solid_headed solid), ← behind,
    read?_headed solidTail plainTail, Comment.dropTrailing_tail ends tails]

end Around

section Export

variable {body : Text}

/-- Behind `export` a text that does not start with it is read as it is on its own. -/
theorem afterExport_export (solid : Solid body) :
    afterExport ("export ".toText ++ body) = body := by
  have found : Text.afterWord? "export".toText ("export ".toText ++ body) = some body :=
    (Text.afterWord?_append "export".toText body (by decide)).trans
      (congrArg some (Text.trimStart_eq_self solid.trimmed.1))
  rw [afterExport, found, Option.getD_some]

theorem interface?_export (solid : Solid body) (own : afterExport body = body) :
    interface? ("export ".toText ++ body) = interface? body := by
  rw [interface?, interface?, afterExport_export solid, own]

theorem assigned?_export (solid : Solid body) (own : afterExport body = body) :
    assigned? ("export ".toText ++ body) = assigned? body := by
  rw [assigned?, assigned?, afterExport_export solid, own]

theorem afterExport_bodyText {declaration : Declaration} (parts : HasLegibleParts declaration) :
    afterExport declaration.bodyText = declaration.bodyText := by
  rcases parts.kinds with interface | assigned
  · rw [bodyText_of_interface interface]
    exact afterExport_of_other rfl
  · rw [bodyText_of_alias assigned]
    exact afterExport_of_other rfl

end Export

/-- Records are legible. -/
theorem isLegible_of_isRecord {declaration : Declaration}
    (record : isRecord declaration = true) : IsLegible declaration := by
  have none : ∀ texts : List Text, texts = [] → ∀ text ∈ texts, isBlankOrWord text = true := by
    rintro _ rfl text absent
    cases absent
  rcases (Bool.or_eq_true _ _).mp record with interface | object
  · obtain ⟨kind, word, bases, members, noUnion, noIntersection⟩ :=
      regularInterface_iff.mp interface
    refine ⟨⟨?_, bases, fun member here => ?_, none _ noUnion, none _ noIntersection⟩, word⟩
    · rw [kind]
      decide
    · exact (Member.isLegible_of_isRegular (members member here)).fitsLine
  · obtain ⟨kind, word, -, members, noBases, noUnion, noIntersection⟩ :=
      regularObject_iff.mp object
    refine ⟨⟨?_, ?_, fun member here => ?_, none _ noUnion, none _ noIntersection⟩, word⟩
    · rw [kind]
      decide
    · rw [noBases]
      exact nofun
    · exact (Member.isLegible_of_isRegular (members member here)).fitsLine

/-- Neither a tail behind a legible declaration nor `export` in front of it changes what is read,
whatever marks the comments of its members hold. -/
theorem read?_export_tail {declaration : Declaration} {tail : Text}
    (legible : IsLegible declaration) (tails : Comment.IsTail tail) :
    headerText declaration.comment ++ declaration.bodyText = declaration.render ∧
      ∃ found, read? declaration.render = some found ∧
        read? (headerText declaration.comment ++ (declaration.bodyText ++ tail)) = some found ∧
        read? (headerText declaration.comment ++
          ("export ".toText ++ (declaration.bodyText ++ tail))) = some found := by
  have parts := legible.toHasLegibleParts
  have ends := legible.endsOutside
  obtain ⟨solid, plain⟩ := solid_bodyText parts ends.visible
  obtain ⟨inner, declares, -⟩ := exists_declared_of_isLegible legible
  refine ⟨headerText_append_bodyText declaration,
    { inner with comment := settledHeader declaration.comment }, ?_, ?_, ?_⟩
  · rw [read?_render_of_endsOutside parts ends, declares]
    rfl
  · rw [← headed_eq_append, read?_headed_tail solid plain ends tails, declares]
    rfl
  · have exported : Comment.EndsOutside ("export ".toText ++ declaration.bodyText) :=
      ends.append_of_free (by decide)
    have solidExport := exported.visible.solid (c := .char 'e') rfl (by decide)
    have own := afterExport_bodyText parts
    have text : "export ".toText ++ (declaration.bodyText ++ tail) =
        ("export ".toText ++ declaration.bodyText) ++ tail := (List.append_assoc _ _ _).symm
    rw [text, ← headed_eq_append, read?_headed_tail solidExport nofun exported tails,
      interface?_export solid own, assigned?_export solid own, declares]
    rfl

/-- The comments around an interface and in it hold the marks of each other, and the tail holds
those of declarations. -/
theorem read?_export_tail_marks :
    let declaration : Declaration :=
      { name := "A".toText, kind := .interface
        fields := [{ name := "x".toText, type := .primitive .string
                     comment := some "see // and /* too".toText }]
        comment := some "An order. /*".toText }
    let tail := " /* \x7d */ // interface B \x7b\n// end".toText
    headerText declaration.comment ++ (declaration.bodyText ++ tail) =
        ("/**\n * An order. /*\n */\ninterface A \x7b\n  /** see // and /* too */\n" ++
          "  x: string;\n\x7d /* \x7d */ // interface B \x7b\n// end").toText ∧
      ∃ found, read? declaration.render = some found ∧
        read? (headerText declaration.comment ++ (declaration.bodyText ++ tail)) = some found ∧
        read? (headerText declaration.comment ++
          ("export ".toText ++ (declaration.bodyText ++ tail))) = some found := by
  have block : Lacks ['*', '/'] " \x7d ".toText := by decide
  have line : CodePoint.char '\n' ∉ " interface B \x7b".toText := by decide
  have last : CodePoint.char '\n' ∉ " end".toText := by decide
  have tails : Comment.IsTail " /* \x7d */ // interface B \x7b\n// end".toText :=
    .blank rfl (.block block (.blank rfl (.line line (.last last))))
  exact ⟨by decide +kernel, (read?_export_tail (isLegible_of_isRecord (by decide)) tails).2⟩

end Outline

end SchemaBoard
