import SchemaBoard.Proofs.Declaration.Documented
import SchemaBoard.Proofs.Declaration.Trailing

set_option autoImplicit false

/-!
Blocks of written declarations. Whatever the comments in front of them say, a text of declarations
is cut into the written forms of these declarations, and the comment in front of each is its own.
-/
namespace SchemaBoard

open Text (SingleLine)
open Comment (docOpen blockClose EndsVisibly)

/-- The lines of a declaration below its comment: the first one starts a declaration and no other
does, the last one ends visibly, and no doc comment is left open. -/
structure Outline.IsBody (body : List Text) : Prop where
  starts : ∃ first rest, body = first :: rest ∧ Batch.startsDeclaration first = true ∧
    (∃ c, first.head? = some c ∧ Text.isIdentifierStart c = true) ∧
    ∀ line ∈ rest, Batch.startsDeclaration line = false
  single : ∀ line ∈ body, SingleLine line
  ends : ∃ front last, body = front ++ [last] ∧ EndsVisibly last
  closed : Comment.leavesOpen (Text.join ['\n'] body) = false

/-- The text of a declaration below its comment: it begins with a word, ends visibly and leaves no
doc comment open. -/
structure Outline.IsBodyText (text : Text) : Prop where
  head : ∃ c, text.head? = some c ∧ Text.isIdentifierStart c = true
  ends : EndsVisibly text
  closed : Comment.leavesOpen text = false

namespace Comment

theorem EndsVisibly.append {text : Text} (ends : EndsVisibly text) (before : Text) :
    EndsVisibly (before ++ text) := by
  obtain ⟨front, c, rfl, visible, other⟩ := ends
  exact ⟨before ++ front, c, (List.append_assoc _ _ _).symm, visible, other⟩

theorem EndsVisibly.trimEnd_eq {text : Text} (ends : EndsVisibly text) :
    Text.trimEnd text = text := by
  obtain ⟨front, c, rfl, visible, -⟩ := ends
  refine Text.trimEnd_eq_self fun d last => ?_
  rw [List.getLast?_concat] at last
  exact Option.some.inj last ▸ visible

theorem EndsVisibly.solid {text : Text} (ends : EndsVisibly text) {c : CodePoint}
    (head : text.head? = some c) (visible : Text.isBlank c = false) : Text.Solid text := by
  obtain ⟨front, d, eq, seen, -⟩ := ends
  have last : text.getLast? = some d := by rw [eq, List.getLast?_concat]
  exact Text.solid_of_ends head last visible seen

theorem EndsVisibly.not_allBlank {text : Text} (ends : EndsVisibly text) :
    Text.allBlank text = false := by
  obtain ⟨front, c, rfl, visible, -⟩ := ends
  rw [Text.allBlank_append]
  simp [Text.allBlank, visible]

end Comment

namespace Outline

section Body

variable {body : List Text}

theorem endsVisibly_join {front : List Text} {last : Text} (ends : EndsVisibly last) :
    EndsVisibly (Text.join ['\n'] (front ++ [last])) := by
  by_cases alone : front = []
  · subst alone
    rw [List.nil_append, Text.join_singleton]
    exact ends
  · rw [Text.join_append _ alone (List.cons_ne_nil _ _), Text.join_singleton]
    exact ends.append _

theorem IsBody.text (sound : IsBody body) : IsBodyText (Text.join ['\n'] body) where
  head := by
    obtain ⟨first, rest, rfl, -, ⟨c, head, start⟩, -⟩ := sound.starts
    refine ⟨c, ?_, start⟩
    by_cases only : rest = []
    · rw [only, Text.join_singleton]
      exact head
    · rw [Text.join_cons_of_ne_nil _ first only, List.append_assoc, List.head?_append, head]
      rfl
  ends := by
    obtain ⟨front, last, rfl, ends⟩ := sound.ends
    exact endsVisibly_join ends
  closed := sound.closed

variable {text : Text}

theorem IsBodyText.solid (sound : IsBodyText text) : Text.Solid text := by
  obtain ⟨c, head, start⟩ := sound.head
  exact sound.ends.solid head
    (Text.isBlank_of_isIdentifierPart (Text.isIdentifierPart_of_start start))

theorem IsBodyText.head?_ne (sound : IsBodyText text) : text.head? ≠ some (.char '/') := by
  obtain ⟨c, head, start⟩ := sound.head
  rw [head]
  intro same
  exact Text.ne_of_isIdentifierPart '/' (Text.isIdentifierPart_of_start start)
    (by decide) (Option.some.inj same)

end Body

theorem headerLines_eq (comment : Option Text) :
    headerLines comment = [] ∧ settledHeader comment = none ∨
      ∃ text, text ≠ [] ∧ headerLines comment = commentLines text ∧
        settledHeader comment = some (Comment.dedent (headerInside text)) := by
  cases comment with
  | none => exact Or.inl ⟨rfl, rfl⟩
  | some text =>
    cases visible : text.isEmpty with
    | true =>
      left
      rw [headerLines, settledHeader, visible]
      exact ⟨rfl, rfl⟩
    | false =>
      right
      rw [headerLines, settledHeader, visible]
      exact ⟨text, by simpa using visible, rfl, rfl⟩

theorem exists_last_bodyLines (declaration : Declaration) :
    ∃ front last, declaration.bodyLines = front ++ [last] ∧ EndsVisibly last := by
  have brace : EndsVisibly "\x7d".toText := ⟨[], .char '\x7d', rfl, by decide, by decide⟩
  rw [bodyLines]
  cases declaration.kind with
  | interface => exact ⟨_, _, rfl, brace⟩
  | enum => exact ⟨["enum ".toText ++ nameText declaration.name ++ " \x7b".toText], _, rfl, brace⟩
  | type | synonym => exact ⟨[], _, rfl, _, .char ';', rfl, by decide, by decide⟩

theorem bodyLines_ne_nil (declaration : Declaration) : declaration.bodyLines ≠ [] := by
  obtain ⟨front, last, eq, -⟩ := exists_last_bodyLines declaration
  simp [eq]

/-- The text of a declaration behind the comment in front of it. -/
def headed (comment : Option Text) (body : Text) : Text :=
  Text.join ['\n'] (headerLines comment ++ [body])

theorem join_headerLines_append (comment : Option Text) {body : List Text} (some : body ≠ []) :
    Text.join ['\n'] (headerLines comment ++ body) = headed comment (Text.join ['\n'] body) := by
  rw [headed]
  by_cases bare : headerLines comment = []
  · rw [bare, List.nil_append, List.nil_append, Text.join_singleton]
  · rw [Text.join_append _ bare some, Text.join_append _ bare (List.cons_ne_nil _ _),
      Text.join_singleton]

theorem render_eq_headed (declaration : Declaration) :
    declaration.render = headed declaration.comment (Text.join ['\n'] declaration.bodyLines) :=
  join_headerLines_append _ (bodyLines_ne_nil declaration)

/-- A text below no comment, or behind one that is closed. -/
theorem headed_eq (comment : Option Text) (body : Text) :
    headed comment body = body ∧ settledHeader comment = none ∨
      ∃ text, headed comment body =
          docOpen ++ (headerInside text ++ blockClose ++ .char '\n' :: body) ∧
        settledHeader comment = some (Comment.dedent (headerInside text)) := by
  rcases headerLines_eq comment with ⟨nothing, settled⟩ | ⟨text, some, lines, settled⟩
  · left
    rw [headed, nothing, List.nil_append, Text.join_singleton]
    exact ⟨rfl, settled⟩
  · right
    refine ⟨text, ?_, settled⟩
    rw [headed, lines, Text.join_append _ (by simp [commentLines]) (List.cons_ne_nil _ _),
      join_commentLines some, Text.join_singleton]
    simp only [List.append_assoc, List.singleton_append]

/-- The written form below no comment, or behind one that is closed. -/
theorem render_eq (declaration : Declaration) :
    declaration.render = Text.join ['\n'] declaration.bodyLines ∧
        settledHeader declaration.comment = none ∨
      ∃ text, declaration.render = docOpen ++ (headerInside text ++ blockClose ++
          .char '\n' :: Text.join ['\n'] declaration.bodyLines) ∧
        settledHeader declaration.comment = some (Comment.dedent (headerInside text)) := by
  rw [render_eq_headed]
  exact headed_eq _ _

theorem render_ne_nil (declaration : Declaration) : declaration.render ≠ [] := by
  obtain ⟨front, last, lines, ends⟩ := exists_last_bodyLines declaration
  rcases render_eq declaration with ⟨eq, -⟩ | ⟨text, eq, -⟩
  · rw [eq, lines]
    exact (endsVisibly_join ends).ne_nil
  · rw [eq]
    exact List.append_ne_nil_of_left_ne_nil (List.cons_ne_nil _ _) _

section Headed

variable {comment : Option Text} {body : Text}

theorem solid_headed (solid : Text.Solid body) : Text.Solid (headed comment body) := by
  rcases headed_eq comment body with ⟨eq, -⟩ | ⟨text, eq, -⟩
  · rwa [eq]
  · have front : Text.Solid docOpen := by decide
    have whole := front.between (headerInside text ++ blockClose ++ [.char '\n']) solid
    rw [eq]
    simpa only [List.append_assoc, List.singleton_append] using whole

/-- The comment in front of a text is read, whatever that text turns out to be. -/
theorem read?_headed (solid : Text.Solid body) (plain : body.head? ≠ some (.char '/')) :
    read? (headed comment body) =
      ((interface? (Comment.dropTrailing body)).or
        (assigned? (Comment.dropTrailing body))).map
          fun found => { found with comment := settledHeader comment } := by
  have trim : Text.trim (headed comment body) = headed comment body :=
    Text.trim_eq_self (solid_headed solid).trimmed
  have bodyTrim := Text.trim_eq_self solid.trimmed
  rw [read?, trim]
  rcases headed_eq comment body with ⟨eq, settled⟩ | ⟨text, eq, settled⟩
  · simp only [eq, Comment.leadingDoc?_eq_none plain, settled]
  · have found := Comment.leadingDoc?_append (lacks_headerInside text) (.char '\n' :: body)
    have rest : Text.trim (.char '\n' :: body) = body :=
      (Text.trim_blank_append (by decide : Text.allBlank [.char '\n'] = true) _).trans bodyTrim
    simp only [eq, found, rest, settled]

/-- Without a comment in front of it and behind it, a text is read as what it declares. -/
theorem read?_of_ends (ends : EndsVisibly body) (outside : ¬Comment.LineTail body) {c : CodePoint}
    (head : body.head? = some c) (visible : Text.isBlank c = false) (other : c ≠ '/') :
    read? body = ((interface? body).or (assigned? body)).map
      fun found => { found with comment := none } := by
  have alone : headed none body = body := Text.join_singleton _ _
  have plain : body.head? ≠ some (.char '/') := by
    rw [head]
    exact fun same => other (Option.some.inj same)
  have found : read? (headed none body) = _ := read?_headed (ends.solid head visible) plain
  rwa [alone, Comment.dropTrailing_eq_self ends outside] at found

end Headed

section Written

variable {declaration : Declaration}

theorem solid_render (sound : IsBodyText (Text.join ['\n'] declaration.bodyLines)) :
    Text.Solid declaration.render := by
  rw [render_eq_headed]
  exact solid_headed sound.solid

/-- A written declaration does not wait for the block behind it. -/
theorem needsMore_render (sound : IsBodyText (Text.join ['\n'] declaration.bodyLines)) :
    Batch.needsMore declaration.render = false := by
  rw [Batch.needsMore, Bool.or_eq_false_iff]
  rcases render_eq declaration with ⟨eq, -⟩ | ⟨text, eq, -⟩
  · rw [eq, Comment.wholeDoc?_eq_none sound.head?_ne]
    exact ⟨sound.closed, rfl⟩
  · rw [eq]
    constructor
    · have closed : Comment.leavesOpen
          (.char '\n' :: Text.join ['\n'] declaration.bodyLines) = false :=
        (Comment.leavesOpen_append_of_free ['\n'] (by decide) _).trans sound.closed
      have whole := Comment.leavesOpen_append_close closed (by simp)
        (docOpen ++ (.char '\n' :: Text.join ['\n'] ((Text.lines text).map starLine) ++
          [.char '\n']))
      have same : docOpen ++ (.char '\n' :: Text.join ['\n'] ((Text.lines text).map starLine) ++
            [.char '\n']) ++ " */".toText ++ .char '\n' :: Text.join ['\n'] declaration.bodyLines =
          docOpen ++ (headerInside text ++ blockClose ++
            .char '\n' :: Text.join ['\n'] declaration.bodyLines) := by
        rw [headerInside]
        simp only [List.append_assoc, List.cons_append]
        rfl
      rwa [same] at whole
    · rw [Comment.wholeDoc?, Comment.leadingDoc?_append (lacks_headerInside text)]
      rfl

/-- The comment in front of a declaration is read, and nothing is dropped behind the declaration. -/
theorem read?_render (sound : IsBodyText (Text.join ['\n'] declaration.bodyLines))
    (outside : ¬Comment.LineTail (Text.join ['\n'] declaration.bodyLines)) :
    read? declaration.render =
      ((interface? (Text.join ['\n'] declaration.bodyLines)).or
        (assigned? (Text.join ['\n'] declaration.bodyLines))).map
          fun found => { found with comment := settledHeader declaration.comment } := by
  rw [render_eq_headed, read?_headed sound.solid sound.head?_ne,
    Comment.dropTrailing_eq_self sound.ends outside]

end Written

end Outline

namespace Batch

open Outline

section Cut

/-- Lines that start no declaration go on the block that is growing. -/
theorem blockLines_append (more : List Text)
    (inside : ∀ line ∈ more, startsDeclaration line = false) (current rest : List Text) :
    blockLines current (more ++ rest) = blockLines (current ++ more) rest := by
  induction more generalizing current with
  | nil => rw [List.nil_append, List.append_nil]
  | cons line more ih =>
    have here := inside line (by simp)
    rw [List.cons_append, blockLines, here, Bool.false_and, if_neg Bool.false_ne_true,
      ih (fun other member => inside other (List.mem_cons_of_mem line member)), List.append_assoc,
      List.singleton_append]

/-- A line that begins with a star or a slash starts no declaration. -/
theorem startsDeclaration_eq_false {line rest : Text} {c : CodePoint}
    (start : Text.trimStart line = c :: rest) (other : c ∉ "eit".toText) :
    startsDeclaration line = false := by
  have absent : ∀ first others, first ∈ "eit".toText →
      Text.afterWord? (first :: others) (c :: rest) = none := by
    intro first others known
    apply Text.afterWord?_eq_none
    rw [Option.eq_none_iff_forall_ne_some]
    intro after found
    have same : c = first := List.head_eq_of_cons_eq (Text.isPrefixOf?_eq_some_iff.mp found)
    exact other (same ▸ known)
  have noExport : afterExport (c :: rest) = c :: rest := by
    rw [afterExport, show "export".toText = .char 'e' :: "xport".toText from rfl,
      absent _ _ (by decide), Option.getD_none]
  rw [startsDeclaration, start, noExport,
    show "interface".toText = .char 'i' :: "nterface".toText from rfl, absent _ _ (by decide),
    show "type".toText = .char 't' :: "ype".toText from rfl, absent _ _ (by decide)]
  rfl

theorem startsDeclaration_of_mem_commentLines {comment line : Text}
    (member : line ∈ commentLines comment) : startsDeclaration line = false := by
  rw [commentLines, List.mem_append, List.mem_cons] at member
  rcases member with (rfl | inside) | last
  · decide
  · obtain ⟨source, -, rfl⟩ := List.mem_map.mp inside
    obtain ⟨rest, start⟩ := trimStart_starLine source
    exact startsDeclaration_eq_false start (by decide)
  · obtain rfl := List.mem_singleton.mp last
    decide

theorem startsDeclaration_of_mem_headerLines {comment : Option Text} {line : Text}
    (member : line ∈ headerLines comment) : startsDeclaration line = false := by
  rcases headerLines_eq comment with ⟨nothing, -⟩ | ⟨text, -, lines, -⟩
  · rw [nothing] at member
    cases member
  · rw [lines] at member
    exact startsDeclaration_of_mem_commentLines member

theorem isCarried_commentLines (comment : Text) : IsCarried (commentLines comment) := by
  refine ⟨docOpen, (Text.lines comment).map starLine ++ [" */".toText], [], ?_,
    ⟨by decide, fun line member => ?_, " */".toText, ?_, by decide⟩, rfl, fun _ => by decide⟩
  · rw [List.append_nil]
    rfl
  · rcases List.mem_append.mp member with inside | last
    · obtain ⟨source, -, rfl⟩ := List.mem_map.mp inside
      obtain ⟨rest, start⟩ := trimStart_starLine source
      rw [isStarLine, start]
      rfl
    · rw [List.mem_singleton.mp last]
      decide
  · rw [← List.cons_append, List.getLast?_concat]

/-- From lines that end visibly nothing is taken, also if blank lines stand behind them. -/
theorem takeTrailingDoc_of_endsVisibly (front : List Text) {last : Text} (ends : EndsVisibly last)
    (blanks : List Text) (blank : ∀ line ∈ blanks, Text.allBlank line = true) :
    takeTrailingDoc (front ++ last :: blanks) = (front ++ last :: blanks, []) := by
  refine Decidable.byContradiction fun taken => ?_
  obtain ⟨kept, first, later, others, eq, looks, other⟩ := exists_doc_of_taken taken
  obtain ⟨before, final, parts, closes⟩ := looks.exists_last
  have lines : front ++ last :: blanks = (kept ++ before) ++ final :: others := by
    rw [eq, ← List.cons_append, parts]
    simp only [List.append_assoc, List.singleton_append]
  have same : last = final := by
    have here := (reverse_blanks front ends.not_allBlank
      (hasText_eq_false_iff_allBlank.mpr blank)).2
    rw [lines, (reverse_blanks _ (allBlank_of_closesDoc closes) other).2] at here
    exact (List.head_eq_of_cons_eq here).symm
  rw [← same, closesDoc, ends.trimEnd_eq] at closes
  obtain ⟨inside, whole⟩ := List.isSuffixOf_iff_suffix.mp closes
  obtain ⟨start, c, ended, -, noSlash⟩ := ends
  have slash : last.getLast? = some (.char '/') := by
    rw [← whole, List.getLast?_append]
    rfl
  rw [ended, List.getLast?_concat] at slash
  exact noSlash (Option.some.inj slash)

end Cut

section Blocks

def declarationLines (declaration : Declaration) : List Text :=
  headerLines declaration.comment ++ declaration.bodyLines

/-- The lines of written declarations, with a blank line in front of each. -/
def followingLines (declarations : List Declaration) : List Text :=
  declarations.flatMap fun declaration => [] :: declarationLines declaration

variable {declaration : Declaration}

theorem exists_last_declarationLines (sound : IsBody declaration.bodyLines) :
    ∃ front last, declarationLines declaration = front ++ [last] ∧ EndsVisibly last := by
  obtain ⟨front, last, eq, ends⟩ := sound.ends
  exact ⟨headerLines declaration.comment ++ front, last, by
    rw [declarationLines, eq, List.append_assoc], ends⟩

theorem singleLine_of_mem_declarationLines (sound : IsBody declaration.bodyLines) {line : Text}
    (member : line ∈ declarationLines declaration) : SingleLine line := by
  rcases List.mem_append.mp member with header | body
  · rcases headerLines_eq declaration.comment with ⟨nothing, -⟩ | ⟨text, -, lines, -⟩
    · rw [nothing] at header
      cases header
    · rw [lines] at header
      exact singleLine_of_mem_commentLines header
  · exact sound.single line body

/-- A block that was read so far: nothing, or lines that end visibly with a blank line behind. -/
def Complete (current : List Text) : Prop :=
  current = [] ∨ ∃ front last, current = front ++ [last, []] ∧ EndsVisibly last

theorem takeTrailingDoc_header {current : List Text} (complete : Complete current)
    (comment : Option Text) :
    takeTrailingDoc (current ++ headerLines comment) = (current, headerLines comment) := by
  rcases headerLines_eq comment with ⟨nothing, -⟩ | ⟨text, -, lines, -⟩
  · rw [nothing, List.append_nil]
    rcases complete with rfl | ⟨front, last, rfl, ends⟩
    · rfl
    · exact takeTrailingDoc_of_endsVisibly front ends _ (by decide)
  · rw [lines]
    exact takeTrailingDoc_append_of_isCarried current (isCarried_commentLines text)

/-- A line that starts a declaration, with the comment in front of it, cuts off what was complete
behind a blank line. -/
theorem blockLines_comment_start {current : List Text} (complete : Complete current)
    (comment : Option Text) {start : Text} (starts : startsDeclaration start = true)
    (rest : List Text) :
    blockLines current (headerLines comment ++ start :: rest) =
      [current].filter hasText ++ blockLines (headerLines comment ++ [start]) rest := by
  have header : ∀ line ∈ headerLines comment, startsDeclaration line = false :=
    fun line member => startsDeclaration_of_mem_headerLines member
  rw [blockLines_append _ header, blockLines, starts, Bool.true_and]
  by_cases empty : current ++ headerLines comment = []
  · obtain ⟨rfl, nothing⟩ := List.append_eq_nil_iff.mp empty
    rw [nothing]
    rfl
  · have cut : (current ++ headerLines comment).isEmpty = false := by
      simpa using empty
    rw [cut, Bool.not_false, if_pos rfl, takeTrailingDoc_header complete]

/-- One declaration: the block in front of it ends, and its own lines grow the next one. -/
theorem blockLines_declaration (sound : IsBody declaration.bodyLines) {current : List Text}
    (complete : Complete current) (rest : List Text) :
    blockLines current (declarationLines declaration ++ rest) =
      [current].filter hasText ++ blockLines (declarationLines declaration) rest := by
  obtain ⟨first, others, eq, starts, -, inside⟩ := sound.starts
  rw [declarationLines, eq, List.append_assoc, List.cons_append,
    blockLines_comment_start complete _ starts, blockLines_append _ inside, List.append_assoc,
    List.singleton_append]

theorem blockLines_nil (front : List Text) {last : Text} (ends : EndsVisibly last) :
    blockLines (front ++ [last]) [] = [front ++ [last]] := by
  have whole := takeTrailingDoc_of_endsVisibly front ends [] (by simp)
  have some : hasText (front ++ [last]) = true := by
    simp [hasText, ends.not_allBlank]
  rw [blockLines, whole]
  show [front ++ [last], []].filter hasText = _
  rw [List.filter_cons_of_pos some]
  rfl

/-- What is left in the end is the last declaration. -/
theorem blockLines_end (sound : IsBody declaration.bodyLines) :
    blockLines (declarationLines declaration) [] = [declarationLines declaration] := by
  obtain ⟨front, last, eq, ends⟩ := exists_last_declarationLines sound
  rw [eq, blockLines_nil front ends]

/-- Written declarations are cut in front of each one, behind the blank line. -/
theorem blockLines_following {declarations : List Declaration}
    (sound : IsBody declaration.bodyLines)
    (bodies : ∀ other ∈ declarations, IsBody other.bodyLines) :
    (blockLines (declarationLines declaration) (followingLines declarations)).map
        (fun lines => Text.trim (Text.join ['\n'] lines)) =
      (declaration :: declarations).map render := by
  have alone : ∀ {other : Declaration}, IsBody other.bodyLines →
      Text.trim (Text.join ['\n'] (declarationLines other)) = other.render :=
    fun valid => Text.trim_eq_self (solid_render valid.text).trimmed
  induction declarations generalizing declaration with
  | nil =>
    rw [followingLines, List.flatMap_nil, blockLines_end sound, List.map_singleton, alone sound]
    rfl
  | cons next rest ih =>
    have valid := bodies next (by simp)
    have later := ih valid fun other member => bodies other (List.mem_cons_of_mem next member)
    obtain ⟨front, last, eq, ends⟩ := exists_last_declarationLines sound
    have complete : Complete (declarationLines declaration ++ [[]]) :=
      Or.inr ⟨front, last, by rw [eq, List.append_assoc]; rfl, ends⟩
    have some : hasText (declarationLines declaration ++ [[]]) = true := by
      rw [eq]
      simp [hasText, ends.not_allBlank]
    have blank : blockLines (declarationLines declaration)
        ([] :: (declarationLines next ++ followingLines rest)) =
          blockLines (declarationLines declaration ++ [[]])
            (declarationLines next ++ followingLines rest) := by
      exact blockLines_append [[]] (by decide) _ _
    have nonempty : declarationLines declaration ≠ [] := by
      rw [eq]
      simp
    have padded : Text.trim (Text.join ['\n'] (declarationLines declaration ++ [[]])) =
        declaration.render := by
      rw [Text.join_append _ nonempty (List.cons_ne_nil _ _), Text.join_singleton,
        List.append_nil, Text.trim_append_blank (by decide), alone sound]
    have step : followingLines (next :: rest) =
        [] :: (declarationLines next ++ followingLines rest) := rfl
    rw [step, blank, blockLines_declaration valid complete, List.filter_cons_of_pos some,
      List.filter_nil, List.map_append, List.map_singleton, padded, later]
    rfl

theorem renderAll_cons (declaration : Declaration) (declarations : List Declaration)
    (sound : IsBody declaration.bodyLines)
    (bodies : ∀ other ∈ declarations, IsBody other.bodyLines) :
    renderAll (declaration :: declarations) =
      Text.join ['\n'] (declarationLines declaration ++ followingLines declarations) := by
  induction declarations generalizing declaration with
  | nil =>
    rw [followingLines, List.flatMap_nil, List.append_nil]
    exact Text.join_singleton _ _
  | cons next rest ih =>
    have later := ih next (bodies next (by simp))
      fun other member => bodies other (List.mem_cons_of_mem next member)
    obtain ⟨front, last, eq, -⟩ := exists_last_declarationLines sound
    have nonempty : declarationLines declaration ≠ [] := by
      rw [eq]
      simp
    have some : declarationLines next ++ followingLines rest ≠ [] := by
      obtain ⟨front, last, eq, -⟩ := exists_last_declarationLines (bodies next (by simp))
      rw [eq]
      simp
    have step : followingLines (next :: rest) =
        [[]] ++ (declarationLines next ++ followingLines rest) := rfl
    rw [step, Text.join_append _ nonempty (by simp),
      Text.join_append _ (List.cons_ne_nil _ _) some, Text.join_singleton, ← later]
    exact (Text.join_cons_cons _ _ _ _).trans (by
      simp only [List.append_assoc, List.nil_append]
      rfl)

theorem getLast?_lines_ne {declarations : List Declaration}
    (sound : IsBody declaration.bodyLines)
    (bodies : ∀ other ∈ declarations, IsBody other.bodyLines) :
    (declarationLines declaration ++ followingLines declarations).getLast? ≠ some [] := by
  obtain ⟨front, last, eq, ends⟩ := exists_last_declarationLines sound
  induction declarations generalizing declaration front last with
  | nil =>
    rw [followingLines, List.flatMap_nil, List.append_nil, eq, List.getLast?_concat]
    exact fun empty => ends.ne_nil (Option.some.inj empty)
  | cons next rest ih =>
    have valid := bodies next (by simp)
    obtain ⟨before, other, same, visible⟩ := exists_last_declarationLines valid
    have later := ih valid (fun other member => bodies other (List.mem_cons_of_mem next member))
      before other same visible
    have some : declarationLines next ++ followingLines rest ≠ [] := by
      rw [same]
      simp
    obtain ⟨line, found⟩ := Option.isSome_iff_exists.mp (List.getLast?_isSome.mpr some)
    have step : followingLines (next :: rest) =
        [] :: (declarationLines next ++ followingLines rest) := rfl
    rw [found] at later
    rw [step, List.getLast?_append, List.getLast?_cons_of_ne_nil some, found]
    exact later

theorem lines_renderAll_cons {declarations : List Declaration}
    (sound : IsBody declaration.bodyLines)
    (bodies : ∀ other ∈ declarations, IsBody other.bodyLines) :
    Text.lines (renderAll (declaration :: declarations)) =
      declarationLines declaration ++ followingLines declarations := by
  rw [renderAll_cons declaration declarations sound bodies]
  apply Text.lines_join
  · intro line member
    rcases List.mem_append.mp member with here | later
    · exact singleLine_of_mem_declarationLines sound here
    · obtain ⟨other, inside, here⟩ := List.mem_flatMap.mp later
      rcases List.mem_cons.mp here with rfl | here
      · intro c absent
        cases absent
      · exact singleLine_of_mem_declarationLines (bodies other inside) here
  · exact getLast?_lines_ne sound bodies

theorem mergeFrom_eq {block : Text} {blocks : List Text} (complete : needsMore block = false)
    (others : ∀ other ∈ blocks, needsMore other = false) :
    mergeFrom block blocks = block :: blocks := by
  induction blocks generalizing block with
  | nil => rfl
  | cons next rest ih =>
    have later : ∀ other ∈ rest, needsMore other = false :=
      fun other member => others other (List.mem_cons_of_mem next member)
    rw [mergeFrom, complete, if_neg Bool.false_ne_true, ih (others next (by simp)) later]

/-- Written declarations are cut into the written forms of the single ones. -/
theorem split_renderAll {declarations : List Declaration}
    (bodies : ∀ declaration ∈ declarations, IsBody declaration.bodyLines) :
    split (renderAll declarations) = declarations.map render := by
  cases declarations with
  | nil => rfl
  | cons declaration rest =>
    have sound := bodies declaration (by simp)
    have others : ∀ other ∈ rest, IsBody other.bodyLines :=
      fun other member => bodies other (List.mem_cons_of_mem declaration member)
    have first := blockLines_declaration sound (Or.inl rfl) (followingLines rest)
    have nothing : [[]].filter hasText = [] := rfl
    rw [split, lines_renderAll_cons sound others, first, nothing, List.nil_append,
      blockLines_following sound others, List.map_cons, merge]
    refine mergeFrom_eq (needsMore_render sound.text) fun block member => ?_
    obtain ⟨other, inside, rfl⟩ := List.mem_map.mp member
    exact needsMore_render (others other inside).text

end Blocks

end Batch

end SchemaBoard
