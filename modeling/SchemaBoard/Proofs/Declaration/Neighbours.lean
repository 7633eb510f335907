import SchemaBoard.Proofs.Declaration.RoundTrip

set_option autoImplicit false

/-!
Texts one behind the other. A declaration is cut off from a text that ends visibly, and lines that
start no declaration go on its last block. Main statements: what such a text and a declaration
behind it are read as is what they are read as apart, if the last block of the text waits for
nothing.
-/
namespace SchemaBoard

open Comment (EndsVisibly)

namespace Comment

theorem endsVisibly_iff {text : Text} :
    EndsVisibly text ↔
      ∃ c, text.getLast? = some c ∧ Text.isBlank c = false ∧ c ≠ .char '/' := by
  constructor
  · rintro ⟨before, c, rfl, visible, other⟩
    exact ⟨c, List.getLast?_concat, visible, other⟩
  · rintro ⟨c, last, visible, other⟩
    obtain ⟨before, rfl⟩ := List.getLast?_eq_some_iff.mp last
    exact ⟨before, c, rfl, visible, other⟩

theorem EndsVisibly.exists_last_line {text : Text} (ends : EndsVisibly text) :
    ∃ front line, Text.lines text = front ++ [line] ∧ EndsVisibly line := by
  obtain ⟨c, last, visible, other⟩ := endsVisibly_iff.mp ends
  obtain ⟨front, line, eq, same⟩ :=
    Text.exists_last_line last (Text.isLineBreak_of_not_blank visible)
  exact ⟨front, line, eq, endsVisibly_iff.mpr ⟨c, same, visible, other⟩⟩

/-- A line feed behind such a text parts the lines. -/
theorem EndsVisibly.lines_append_feed {text : Text} (ends : EndsVisibly text) (rest : Text) :
    Text.lines (text ++ .char '\n' :: rest) = Text.lines text ++ Text.lines rest := by
  obtain ⟨c, last, visible, -⟩ := endsVisibly_iff.mp ends
  exact Text.lines_append_feed_of_last last (Text.isLineBreak_of_not_blank visible) rest

/-- Between two visible ends nothing is trimmed. -/
theorem EndsVisibly.trim_append {first second : Text} (left : EndsVisibly first)
    (right : EndsVisibly second) : Text.trim (first ++ second) = Text.trim first ++ second := by
  obtain ⟨middle, c, rfl, visible, -⟩ := right
  have solid : Text.Solid [c] := Text.solid_of_ends rfl rfl visible visible
  have front : Text.trim first = Text.trimStart first := by
    refine Text.trimEnd_eq_self fun d last => ?_
    obtain ⟨e, same, seen, -⟩ := endsVisibly_iff.mp left
    obtain ⟨before, eq⟩ : Text.trimStart first <:+ first := List.dropWhile_suffix Text.isBlank
    rw [← eq, List.getLast?_append, last] at same
    exact Option.some.inj same ▸ seen
  rw [front, ← List.append_assoc, ← List.append_assoc]
  exact Text.trim_append_solid left.not_allBlank middle solid

end Comment

namespace Batch

open Outline

section Feed

/-- Whatever follows, the first lines give some blocks and leave one growing, whose last line is the
last of them. -/
theorem exists_blockLines_feed (current lines : List Text) :
    ∃ blocks growing, growing.getLast? = (current ++ lines).getLast? ∧
      ∀ rest, blockLines current (lines ++ rest) = blocks ++ blockLines growing rest := by
  induction lines generalizing current with
  | nil => exact ⟨[], current, by rw [List.append_nil], fun rest => rfl⟩
  | cons line lines ih =>
    have same : ∀ front : List Text, (front ++ [line] ++ lines).getLast? =
        (current ++ line :: lines).getLast? := by
      intro front
      simp [List.getLast?_append, List.getLast?_cons]
    cases starts : startsDeclaration line && !current.isEmpty with
    | true =>
      obtain ⟨blocks, growing, last, feed⟩ := ih ((takeTrailingDoc current).2 ++ [line])
      refine ⟨[(takeTrailingDoc current).1].filter hasText ++ blocks, growing,
        last.trans (same _), fun rest => ?_⟩
      rw [List.cons_append, blockLines, starts, if_pos rfl, List.append_assoc]
      exact congrArg (_ ++ ·) (feed rest)
    | false =>
      obtain ⟨blocks, growing, last, feed⟩ := ih (current ++ [line])
      refine ⟨blocks, growing, last.trans (same _), fun rest => ?_⟩
      rw [List.cons_append, blockLines, starts, if_neg Bool.false_ne_true]
      exact feed rest

/-- Lines that end visibly give some blocks and leave one growing that ends as they do. -/
theorem exists_blockLines_endsVisibly {lines : List Text} {last : Text}
    (same : lines.getLast? = some last) (ends : EndsVisibly last) :
    ∃ blocks front, blockLines [] lines = blocks ++ [front ++ [last]] ∧
      ∀ rest, blockLines [] (lines ++ rest) = blocks ++ blockLines (front ++ [last]) rest := by
  obtain ⟨blocks, growing, growingLast, feed⟩ := exists_blockLines_feed [] lines
  rw [List.nil_append, same] at growingLast
  obtain ⟨front, rfl⟩ := List.getLast?_eq_some_iff.mp growingLast
  have whole := feed []
  rw [List.append_nil, blockLines_nil front ends] at whole
  exact ⟨blocks, front, whole, feed⟩

end Feed

/-- What follows this text starts a line. -/
def AtLineStart (text : Text) : Prop := ∀ c, text.getLast? = some c → c = .char '\n'

theorem atLineStart_nil : AtLineStart [] := fun _ last => nomatch last

theorem atLineStart_concat (text : Text) : AtLineStart (text ++ [.char '\n']) := by
  intro c last
  rw [List.getLast?_concat] at last
  exact (Option.some.inj last).symm

theorem AtLineStart.append {first second : Text} (left : AtLineStart first)
    (right : AtLineStart second) : AtLineStart (first ++ second) := by
  intro c last
  rw [List.getLast?_append] at last
  cases ends : second.getLast? with
  | none =>
    rw [ends] at last
    exact left c last
  | some d =>
    rw [ends] at last
    exact right c (ends.trans last)

section Merge

theorem mergeFrom_ne_nil (block : Text) (blocks : List Text) : mergeFrom block blocks ≠ [] := by
  induction blocks generalizing block with
  | nil => exact List.cons_ne_nil _ _
  | cons next rest ih =>
    rw [mergeFrom]
    split
    · exact ih _
    · exact List.cons_ne_nil _ _

/-- Only the last of the merged blocks can join what follows. -/
theorem mergeFrom_append {block : Text} {blocks : List Text} (more : List Text)
    (complete : ∀ last, (mergeFrom block blocks).getLast? = some last → needsMore last = false) :
    mergeFrom block (blocks ++ more) = mergeFrom block blocks ++ merge more := by
  induction blocks generalizing block with
  | nil =>
    have alone : needsMore block = false := complete block rfl
    cases more with
    | nil => rfl
    | cons next rest =>
      have step : mergeFrom block (next :: rest) = block :: mergeFrom next rest := by
        rw [mergeFrom, alone, if_neg Bool.false_ne_true]
      exact step
  | cons next rest ih =>
    rw [List.cons_append, mergeFrom, mergeFrom]
    rw [mergeFrom] at complete
    split
    · next waits =>
      rw [if_pos waits] at complete
      exact ih complete
    · next ready =>
      rw [if_neg ready, List.getLast?_cons_of_ne_nil (mergeFrom_ne_nil next rest)] at complete
      exact congrArg (block :: ·) (ih complete)

theorem merge_append {blocks : List Text} (more : List Text)
    (complete : ∀ last, (merge blocks).getLast? = some last → needsMore last = false) :
    merge (blocks ++ more) = merge blocks ++ merge more := by
  cases blocks with
  | nil => rfl
  | cons block rest => exact mergeFrom_append more complete

theorem exists_mergeFrom_concat (block : Text) (blocks : List Text) :
    ∃ merged front, AtLineStart front ∧
      ∀ last, mergeFrom block (blocks ++ [last]) = merged ++ [front ++ last] := by
  induction blocks generalizing block with
  | nil =>
    cases waits : needsMore block with
    | true =>
      refine ⟨[], block ++ [.char '\n'], atLineStart_concat block, fun last => ?_⟩
      rw [List.nil_append, mergeFrom, waits, if_pos rfl, mergeFrom, List.append_assoc]
      rfl
    | false =>
      refine ⟨[block], [], atLineStart_nil, fun last => ?_⟩
      rw [List.nil_append, mergeFrom, waits, if_neg Bool.false_ne_true, mergeFrom]
      rfl
  | cons next rest ih =>
    cases waits : needsMore block with
    | true =>
      obtain ⟨merged, front, border, eq⟩ := ih (block ++ .char '\n' :: next)
      refine ⟨merged, front, border, fun last => ?_⟩
      rw [List.cons_append, mergeFrom, waits, if_pos rfl, eq]
    | false =>
      obtain ⟨merged, front, border, eq⟩ := ih next
      refine ⟨block :: merged, front, border, fun last => ?_⟩
      rw [List.cons_append, mergeFrom, waits, if_neg Bool.false_ne_true, eq, List.cons_append]

/-- How blocks are merged does not depend on the last one. -/
theorem exists_merge_concat (blocks : List Text) :
    ∃ merged front, AtLineStart front ∧
      ∀ last, merge (blocks ++ [last]) = merged ++ [front ++ last] := by
  cases blocks with
  | nil => exact ⟨[], [], atLineStart_nil, fun last => rfl⟩
  | cons block rest => exact exists_mergeFrom_concat block rest

end Merge

section Split

/-- The blocks of some lines before any of them are merged. -/
def blockTexts (lines : List Text) : List Text :=
  (blockLines [] lines).map fun block => Text.trim (Text.join ['\n'] block)

theorem split_eq_merge (text : Text) : split text = merge (blockTexts (Text.lines text)) := rfl

/-- The lines of a declaration: a comment as it is written, and a line that starts one. -/
def StartsWith (lines : List Text) : Prop :=
  ∃ comment start rest, lines = headerLines comment ++ start :: rest ∧
    startsDeclaration start = true

variable {text next : Text}

/-- A declaration is cut off from the text in front of it. -/
theorem split_append (ends : EndsVisibly text)
    (complete : ∀ last, (split text).getLast? = some last → needsMore last = false)
    (starts : StartsWith (Text.lines next)) :
    split (text ++ .char '\n' :: .char '\n' :: next) = split text ++ split next := by
  obtain ⟨comment, start, rest, eq, starting⟩ := starts
  obtain ⟨before, last, lines, visible⟩ := ends.exists_last_line
  have lastLine : (Text.lines text).getLast? = some last := by rw [lines, List.getLast?_concat]
  obtain ⟨blocks, front, whole, feed⟩ := exists_blockLines_endsVisibly lastLine visible
  have parted : Text.lines (text ++ .char '\n' :: .char '\n' :: next) =
      Text.lines text ++ [] :: (headerLines comment ++ start :: rest) := by
    rw [ends.lines_append_feed, Text.lines_feed_cons, eq]
  have nonempty : front ++ [last] ≠ [] := by simp
  have current : Complete (front ++ [last] ++ [[]]) :=
    Or.inr ⟨front, last, List.append_assoc _ _ _, visible⟩
  have some : hasText (front ++ [last] ++ [[]]) = true := by
    simp [hasText, visible.not_allBlank]
  have behind : blockLines [] (headerLines comment ++ start :: rest) =
      blockLines (headerLines comment ++ [start]) rest :=
    blockLines_comment_start (Or.inl rfl) comment starting rest
  have blank : blockLines (front ++ [last]) ([] :: (headerLines comment ++ start :: rest)) =
      blockLines (front ++ [last] ++ [[]]) (headerLines comment ++ start :: rest) :=
    blockLines_append [[]] (by decide) _ _
  have texts : blockTexts (Text.lines (text ++ .char '\n' :: .char '\n' :: next)) =
      blockTexts (Text.lines text) ++ blockTexts (Text.lines next) := by
    rw [blockTexts, blockTexts, blockTexts, parted, feed, blank,
      blockLines_comment_start current comment starting, List.filter_cons_of_pos some, whole, eq,
      behind]
    simp only [List.filter_nil, List.map_append, List.map_cons, List.map_nil,
      trim_join_append_blanks (rfl : hasText [[]] = false)]
    simp only [List.append_assoc]
  rw [split_eq_merge, texts]
  exact merge_append _ complete

theorem join_blank_cons {lines more : List Text} (left : lines ≠ []) (right : more ≠ []) :
    Text.join ['\n'] (lines ++ [] :: more) =
      Text.join ['\n'] lines ++ .char '\n' :: .char '\n' :: Text.join ['\n'] more := by
  rw [Text.join_append _ left (List.cons_ne_nil _ _), Text.join_cons_of_ne_nil _ _ right,
    List.append_assoc]
  rfl

def LastLine (line text : Text) : Prop := ∃ front, text = front ++ line ∧ AtLineStart front

theorem LastLine.append {line front : Text} (final : LastLine line text)
    (border : AtLineStart front) : LastLine line (front ++ text) := by
  obtain ⟨before, rfl, start⟩ := final
  exact ⟨front ++ before, (List.append_assoc _ _ _).symm, border.append start⟩

theorem lastLine_trim_join {line : Text} (solid : Text.Solid line) (front : List Text) :
    LastLine line (Text.trim (Text.join ['\n'] (front ++ [line]))) := by
  have whole := Text.trim_eq_self solid.trimmed
  by_cases alone : front = []
  · subst alone
    rw [List.nil_append, Text.join_singleton, whole]
    exact ⟨[], rfl, atLineStart_nil⟩
  · rw [Text.join_append _ alone (List.cons_ne_nil _ _), Text.join_singleton]
    cases blank : Text.allBlank (Text.join ['\n'] front) with
    | true =>
      rw [List.append_assoc, Text.trim_blank_append blank, Text.trim_blank_append (by decide),
        whole]
      exact ⟨[], rfl, atLineStart_nil⟩
    | false =>
      rw [Text.trim_append_solid blank _ solid]
      exact ⟨_, rfl, atLineStart_concat _⟩

/-- Lines that start no declaration go on the last block of the text in front of them. -/
theorem exists_split_append (ends : EndsVisibly text) :
    ∃ merged last, split text = merged ++ [last] ∧
      (∀ line, (Text.lines text).getLast? = some line → Text.Solid line → LastLine line last) ∧
      ∀ more final, more.getLast? = some final → EndsVisibly final →
        (∀ line ∈ more, Text.SingleLine line ∧ startsDeclaration line = false) →
        split (text ++ .char '\n' :: .char '\n' :: Text.join ['\n'] more) =
          merged ++ [last ++ .char '\n' :: .char '\n' :: Text.join ['\n'] more] := by
  obtain ⟨before, last, lines, visible⟩ := ends.exists_last_line
  have lastLine : (Text.lines text).getLast? = some last := by rw [lines, List.getLast?_concat]
  obtain ⟨blocks, front, whole, feed⟩ := exists_blockLines_endsVisibly lastLine visible
  obtain ⟨merged, glued, border, eq⟩ := exists_merge_concat
    (blocks.map fun block => Text.trim (Text.join ['\n'] block))
  refine ⟨merged, glued ++ Text.trim (Text.join ['\n'] (front ++ [last])), ?_, ?_, ?_⟩
  · rw [split_eq_merge, blockTexts, whole, List.map_append, List.map_singleton, eq]
  · intro line same solid
    obtain rfl : last = line := Option.some.inj (lastLine.symm.trans same)
    exact (lastLine_trim_join solid front).append border
  · intro more final moreLast finalEnds inside
    have nonempty : front ++ [last] ≠ [] := by simp
    obtain ⟨rest, rfl⟩ := List.getLast?_eq_some_iff.mp moreLast
    have some : rest ++ [final] ≠ [] := by simp
    have known : Text.lines (Text.join ['\n'] (rest ++ [final])) = rest ++ [final] := by
      refine Text.lines_join (fun line here => (inside line here).1) ?_
      rw [moreLast]
      exact fun empty => finalEnds.ne_nil (Option.some.inj empty)
    have grown : blockLines (front ++ [last]) ([] :: (rest ++ [final])) =
        [front ++ [last] ++ [] :: (rest ++ [final])] := by
      have start : ∀ line ∈ [] :: (rest ++ [final]), startsDeclaration line = false := by
        intro line member
        rcases List.mem_cons.mp member with rfl | here
        · decide
        · exact (inside line here).2
      have all := blockLines_append _ start (front ++ [last]) []
      rw [List.append_nil] at all
      have same : front ++ [last] ++ [] :: (rest ++ [final]) =
          front ++ [last] ++ [] :: rest ++ [final] := by simp
      rw [all, same, blockLines_nil _ finalEnds]
    have behind : EndsVisibly
        (.char '\n' :: .char '\n' :: Text.join ['\n'] (rest ++ [final])) :=
      (endsVisibly_join finalEnds).append ['\n', '\n']
    rw [split_eq_merge, blockTexts, ends.lines_append_feed, Text.lines_feed_cons, known, feed,
      grown, List.map_append, List.map_singleton, join_blank_cons nonempty some,
      (endsVisibly_join visible).trim_append behind, eq, List.append_assoc]

end Split

section Written

variable {declaration : Declaration}

theorem endsVisibly_render (declaration : Declaration) : EndsVisibly declaration.render := by
  obtain ⟨front, last, eq, ends⟩ := exists_last_bodyLines declaration
  rw [render, eq, ← List.append_assoc]
  exact endsVisibly_join ends

theorem singleLine_of_mem_headerLines {comment : Option Text} {line : Text}
    (member : line ∈ headerLines comment) : Text.SingleLine line := by
  rcases headerLines_eq comment with ⟨nothing, -⟩ | ⟨text, -, lines, -⟩
  · rw [nothing] at member
    cases member
  · rw [lines] at member
    exact singleLine_of_mem_commentLines member

/-- The first line below the comment of an interface or an alias starts a declaration, however its
other lines are broken. -/
theorem exists_start_bodyLines (word : Text.isIdentifier declaration.name = true)
    (kind : declaration.kind = .interface ∨ declaration.kind = .type) :
    ∃ start rest, Text.lines (Text.join ['\n'] declaration.bodyLines) = start :: rest ∧
      startsDeclaration start = true := by
  have name := nameText_of_isIdentifier word
  have first : ∀ (keyword behind : Text) (more : List Text), Text.SingleLine keyword →
      keyword ≠ [] → ∃ after rest,
        Text.lines (Text.join ['\n'] ((keyword ++ (declaration.name ++ behind)) :: more)) =
          (keyword ++ (declaration.name ++ after)) :: rest := by
    intro keyword behind more single some
    have inside := single.append (Text.singleLine_identifier word)
    obtain ⟨after, rest, eq⟩ := Text.exists_lines_append inside (by simp [some])
      (Text.join ['\n'] (behind :: more))
    refine ⟨after, rest, ?_⟩
    rw [← List.append_assoc, Text.join_append_cons, eq, List.append_assoc]
  rcases kind with kind | kind
  · obtain ⟨after, rest, eq⟩ := first "interface ".toText (behindName declaration.bases)
      (declaration.fields.flatMap memberLines ++ ["\x7d".toText]) (by decide) (by decide)
    refine ⟨_, rest, ?_, startsDeclaration_interface word after⟩
    rw [← eq, bodyLines, kind, name, behindName]
    simp only [List.append_assoc, List.cons_append, List.nil_append]
  · obtain ⟨after, rest, eq⟩ := first "type ".toText
      (" = ".toText ++ (aliasRoot declaration ++ [.char ';'])) [] (by decide) (by decide)
    refine ⟨_, rest, ?_, startsDeclaration_type word after⟩
    rw [← eq, bodyLines, kind, name]
    simp only [List.append_assoc]

theorem startsWith_render (word : Text.isIdentifier declaration.name = true)
    (kind : declaration.kind = .interface ∨ declaration.kind = .type) :
    StartsWith (Text.lines declaration.render) := by
  obtain ⟨start, rest, eq, starts⟩ := exists_start_bodyLines word kind
  refine ⟨declaration.comment, start, rest, ?_, starts⟩
  rw [render, Text.lines_join_append (fun line => singleLine_of_mem_headerLines)
    (bodyLines_ne_nil declaration), eq]

end Written

section Parts

variable {text next : Text} {found more : List Declaration} {declaration : Declaration}

/-- A text that is read as those declarations and that a declaration can stand behind. -/
structure Part (text : Text) (found : List Declaration) : Prop where
  ends : EndsVisibly text
  read : Batch.read text = found
  complete : ∀ last, (split text).getLast? = some last → needsMore last = false

theorem endsVisibly_behind (ends : EndsVisibly next) (text : Text) :
    EndsVisibly (text ++ .char '\n' :: .char '\n' :: next) := by
  have whole := ends.append (text ++ [.char '\n', .char '\n'])
  rwa [List.append_assoc] at whole

/-- A declaration behind the text is read as it is alone. -/
theorem Part.append (part : Part text found) (behind : Part next more)
    (starts : StartsWith (Text.lines next)) :
    Part (text ++ .char '\n' :: .char '\n' :: next) (found ++ more) ∧
      (split (text ++ .char '\n' :: .char '\n' :: next)).getLast? = (split next).getLast? := by
  have cut := split_append part.ends part.complete starts
  obtain ⟨merged, last, same, -⟩ := exists_split_append behind.ends
  have final : (split (text ++ .char '\n' :: .char '\n' :: next)).getLast? =
      (split next).getLast? := by
    rw [cut, same, ← List.append_assoc, List.getLast?_concat, List.getLast?_concat]
  refine ⟨⟨endsVisibly_behind behind.ends text, ?_, final ▸ behind.complete⟩, final⟩
  have first : (split text).filterMap read? = found := part.read
  have second : (split next).filterMap read? = more := behind.read
  show (split _).filterMap read? = _
  rw [cut, List.filterMap_append, first, second]

/-- The text of declarations behind another one. -/
def followingText (declarations : List Declaration) : Text :=
  declarations.flatMap fun declaration => .char '\n' :: .char '\n' :: declaration.render

theorem append_followingText_cons (text : Text) (next : Declaration) (rest : List Declaration) :
    text ++ followingText (next :: rest) =
      text ++ .char '\n' :: .char '\n' :: next.render ++ followingText rest := by
  rw [followingText, List.flatMap_cons, List.append_assoc]
  rfl

theorem renderAll_cons_eq (declaration : Declaration) (rest : List Declaration) :
    renderAll (declaration :: rest) = declaration.render ++ followingText rest := by
  induction rest generalizing declaration with
  | nil => exact (Text.join_singleton _ _).trans (List.append_nil _).symm
  | cons next rest ih =>
    have step : renderAll (declaration :: next :: rest) =
        declaration.render ++ [.char '\n', .char '\n'] ++ renderAll (next :: rest) :=
      Text.join_cons_cons _ _ _ _
    rw [step, ih, List.append_assoc]
    rfl

/-- An interface or an alias that is read alone as that declaration. -/
structure ReadAs (declaration back : Declaration) : Prop where
  word : Text.isIdentifier declaration.name = true
  kind : declaration.kind = .interface ∨ declaration.kind = .type
  part : Part declaration.render [back]

variable {declarations : List Declaration} {back : Declaration → Declaration}

theorem part_followingText_of_readAs (all : ∀ other ∈ declarations, ReadAs other (back other))
    (part : Part text found) :
    Part (text ++ followingText declarations) (found ++ declarations.map back) := by
  induction declarations generalizing text found with
  | nil =>
    rw [followingText, List.flatMap_nil, List.append_nil, List.map_nil, List.append_nil]
    exact part
  | cons next rest ih =>
    have alone := all next List.mem_cons_self
    obtain ⟨longer, -⟩ := part.append alone.part (startsWith_render alone.word alone.kind)
    rw [append_followingText_cons, List.map_cons, List.append_cons found]
    exact ih (fun other here => all other (List.mem_cons_of_mem next here)) longer

/-- Declarations are read one by one as each of them is alone. -/
theorem read_renderAll_of_readAs (all : ∀ other ∈ declarations, ReadAs other (back other)) :
    read (renderAll declarations) = declarations.map back := by
  cases declarations with
  | nil => rfl
  | cons first rest =>
    have later := fun other here => all other (List.mem_cons_of_mem first here)
    rw [renderAll_cons_eq]
    exact (part_followingText_of_readAs later (all first List.mem_cons_self).part).read

end Parts

end Batch

end SchemaBoard
