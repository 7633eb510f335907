import SchemaBoard.Proofs.Declaration.Members

set_option autoImplicit false

/-!
Written interfaces. Main statement: an interface of identifiers and writable members is read back,
with the comments that come back from in front of it and its members.
-/
namespace SchemaBoard.Outline

open Text (Brackets SingleLine)

/-- Whether the declaration is an interface of identifiers and regular members, with nothing that
belongs to an alias. -/
def isRegularInterface (declaration : Declaration) : Bool :=
  declaration.kind == .interface && Text.isIdentifier declaration.name &&
    declaration.bases.all Text.isIdentifier && declaration.fields.all Member.isRegular &&
    declaration.unionTypes.isEmpty && declaration.intersectionTypes.isEmpty

/-- An interface of identifiers and writable members, with nothing that belongs to an alias. -/
structure IsWritableInterface (declaration : Declaration) : Prop where
  kind : declaration.kind = .interface
  word : Text.isIdentifier declaration.name = true
  bases : ∀ base ∈ declaration.bases, Text.isIdentifier base = true
  members : ∀ member ∈ declaration.fields, member.IsWritable
  noUnion : declaration.unionTypes = []
  noIntersection : declaration.intersectionTypes = []

def behindName (bases : List Text) : Text := basesText bases ++ " \x7b".toText

section Bases

variable {bases : List Text}

/-- A blank in front of a list belongs to its first text. -/
theorem map_trim_splitOn_blank (text : Text) :
    ((CodePoint.char ' ' :: text).splitOn (.char ',')).map Text.trim =
      (text.splitOn (.char ',')).map Text.trim := by
  have apart : (CodePoint.char ' ' == .char ',') = false := by decide
  rw [List.splitOn_cons_eq_if_modifyHead, apart, if_neg Bool.false_ne_true]
  cases text.splitOn (.char ',') with
  | nil => rfl
  | cons part rest =>
    rw [List.modifyHead_cons, List.map_cons, List.map_cons]
    exact congrArg (· :: rest.map Text.trim)
      (Text.trim_blank_append (by decide : Text.allBlank [.char ' '] = true) part)

/-- Identifiers between commas come back. -/
theorem map_trim_splitOn_join (words : ∀ base ∈ bases, Text.isIdentifier base = true)
    (some : bases ≠ []) :
    ((Text.join ", ".toText bases ++ [CodePoint.char ' ']).splitOn (.char ',')).map Text.trim =
      bases := by
  induction bases with
  | nil => exact absurd rfl some
  | cons base rest ih =>
    have word := words base (by simp)
    have free : .char ',' ∉ base := Text.not_mem_identifier word (by decide)
    have trimmed := Text.trim_eq_self (Text.solid_identifier word).trimmed
    by_cases last : rest = []
    · subst last
      have alone : CodePoint.char ',' ∉ base ++ [CodePoint.char ' '] := by
        intro inside
        rcases List.mem_append.mp inside with here | blank
        · exact free here
        · exact absurd blank (by decide)
      rw [Text.join_singleton, List.splitOn_eq_singleton alone, List.map_singleton,
        Text.trim_append_blank (by decide), trimmed]
    · have later := ih (fun other member => words other (List.mem_cons_of_mem base member)) last
      have front : Text.join ", ".toText (base :: rest) ++ [.char ' '] =
          base ++ .char ',' :: .char ' ' :: (Text.join ", ".toText rest ++ [.char ' ']) := by
        rw [Text.join_cons_of_ne_nil _ base last]
        simp only [List.append_assoc]
        rfl
      rw [front, List.splitOn_append_cons_self_of_not_mem free, List.map_cons, trimmed,
        map_trim_splitOn_blank, later]

/-- The names in the clause behind `extends`, with the blanks around them. -/
def clause (bases : List Text) : Text := .char ' ' :: (Text.join ", ".toText bases ++ [.char ' '])

theorem commaList_clause (words : ∀ base ∈ bases, Text.isIdentifier base = true)
    (some : bases ≠ []) : commaList (clause bases) = bases := by
  rw [commaList, clause, map_trim_splitOn_blank, map_trim_splitOn_join words some,
    List.filter_eq_self]
  intro base member
  simpa using (Text.solid_identifier (words base member)).nonempty

/-- The characters of the clause are parts of identifiers, commas and blanks. -/
theorem mem_clause (words : ∀ base ∈ bases, Text.isIdentifier base = true)
    {c : CodePoint} (inside : c ∈ clause bases) :
    Text.isIdentifierPart c = true ∨ c ∈ ", ".toText := by
  rcases List.mem_cons.mp inside with rfl | inside
  · exact Or.inr (by decide)
  · rcases List.mem_append.mp inside with names | blank
    · rcases Text.mem_join names with separator | ⟨base, member, here⟩
      · exact Or.inr separator
      · exact Or.inl (Text.part_of_mem_identifier (words base member) here)
    · obtain rfl := List.mem_singleton.mp blank
      exact Or.inr (by decide)

theorem isBasesChar_of_mem_clause (words : ∀ base ∈ bases, Text.isIdentifier base = true)
    {c : CodePoint} (inside : c ∈ clause bases) : isBasesChar c = true := by
  rcases mem_clause words inside with part | separator
  · simp [isBasesChar, part]
  · have known : ∀ c ∈ ", ".toText, isBasesChar c = true := by decide
    exact known c separator

theorem bases?_of_other {text : Text}
    (absent : "extends".toText.isPrefixOf? (Text.trimStart text) = none) : bases? text = none := by
  cases text with
  | nil => rfl
  | cons c rest =>
    unfold bases?
    simp only [absent]

theorem bases?_eq_of_found {text after : Text} {c : CodePoint} (head : text.head? = some c)
    (found : "extends".toText.isPrefixOf? (Text.trimStart text) = some after) :
    bases? text =
      if Text.isBlank c && (after.takeWhile (· ≠ .char '\x7b')).head?.any Text.isBlank &&
          1 < (after.takeWhile (· ≠ .char '\x7b')).length &&
          (after.takeWhile (· ≠ .char '\x7b')).all isBasesChar then
        some (commaList (after.takeWhile (· ≠ .char '\x7b')), after.dropWhile (· ≠ .char '\x7b'))
      else none := by
  cases text with
  | nil => cases head
  | cons d rest =>
    obtain rfl := Option.some.inj head
    unfold bases?
    simp only [found]

theorem bases?_of_clause {text after names : Text} {c : CodePoint} (head : text.head? = some c)
    (blank : Text.isBlank c = true)
    (found : "extends".toText.isPrefixOf? (Text.trimStart text) = some after)
    (taken : after.takeWhile (· ≠ .char '\x7b') = names)
    (padded : names.head?.any Text.isBlank = true) (long : 1 < names.length)
    (allowed : names.all isBasesChar = true) :
    bases? text = some (commaList names, after.dropWhile (· ≠ .char '\x7b')) := by
  rw [bases?_eq_of_found head found, taken, blank, padded, allowed]
  simp [long]

/-- The clause is read up to the brace. -/
theorem bases?_behindName (words : ∀ base ∈ bases, Text.isIdentifier base = true) (rest : Text) :
    (bases? (behindName bases ++ rest)).getD ([], behindName bases ++ rest) =
      (bases, if bases.isEmpty then " \x7b".toText ++ rest else .char '\x7b' :: rest) := by
  by_cases empty : bases = []
  · subst empty
    have none : bases? (behindName [] ++ rest) = none := bases?_of_other rfl
    rw [none]
    rfl
  · have written : behindName bases ++ rest =
        " extends".toText ++ (clause bases ++ .char '\x7b' :: rest) := by
      rw [behindName, basesText, if_neg (by simpa using empty), clause]
      simp only [List.append_assoc, List.cons_append]
      rfl
    have noBrace : ∀ c ∈ clause bases, decide (c ≠ .char '\x7b') = true := by
      intro c inside
      rw [decide_eq_true_eq]
      rintro rfl
      exact absurd (isBasesChar_of_mem_clause words inside) (by decide)
    have taken : (clause bases ++ .char '\x7b' :: rest).takeWhile (· ≠ .char '\x7b') =
        clause bases := by
      rw [List.takeWhile_append_of_pos noBrace, List.takeWhile_cons_of_neg (by simp),
        List.append_nil]
    have dropped : (clause bases ++ .char '\x7b' :: rest).dropWhile (· ≠ .char '\x7b') =
        .char '\x7b' :: rest := by
      rw [List.dropWhile_append_of_pos noBrace, List.dropWhile_cons_of_neg (by simp)]
    have found : "extends".toText.isPrefixOf?
        (Text.trimStart (" extends".toText ++ (clause bases ++ .char '\x7b' :: rest))) =
          some (clause bases ++ .char '\x7b' :: rest) :=
      Text.isPrefixOf?_append "extends".toText _
    have long : 1 < (clause bases).length := by
      rw [clause, List.length_cons, List.length_append]
      simp
    have all : (clause bases).all isBasesChar = true :=
      List.all_eq_true.mpr fun c inside => isBasesChar_of_mem_clause words inside
    rw [written, bases?_of_clause (c := ' ') rfl (by decide) found taken rfl long all, dropped,
      commaList_clause words empty, if_neg (by simpa using empty)]
    rfl

end Bases

section Interface

variable {declaration : Declaration}

theorem regularInterface_iff : isRegularInterface declaration = true ↔
    declaration.kind = .interface ∧ Text.isIdentifier declaration.name = true ∧
      (∀ base ∈ declaration.bases, Text.isIdentifier base = true) ∧
      (∀ member ∈ declaration.fields, member.isRegular = true) ∧
      declaration.unionTypes = [] ∧ declaration.intersectionTypes = [] := by
  simp [isRegularInterface, and_assoc]

theorem isWritableInterface_of_regular (regular : isRegularInterface declaration = true) :
    IsWritableInterface declaration := by
  obtain ⟨kind, word, bases, members, noUnion, noIntersection⟩ := regularInterface_iff.mp regular
  exact ⟨kind, word, bases, fun member here => Member.isWritable_of_isRegular (members member here),
    noUnion, noIntersection⟩

theorem nameText_of_isIdentifier {name : Text} (word : Text.isIdentifier name = true) :
    nameText name = name := by
  rw [nameText, if_neg (by simpa using (Text.solid_identifier word).nonempty)]

theorem bodyLines_of_interface (kind : declaration.kind = .interface) :
    declaration.bodyLines =
      ("interface ".toText ++ (nameText declaration.name ++ behindName declaration.bases)) ::
        (declaration.fields.flatMap memberLines ++ ["\x7d".toText]) := by
  rw [bodyLines, kind, behindName]
  simp only [List.append_assoc, List.cons_append, List.nil_append]

theorem bodyLines_interface (writable : IsWritableInterface declaration) :
    declaration.bodyLines =
      ("interface ".toText ++ (declaration.name ++ behindName declaration.bases)) ::
        (declaration.fields.flatMap memberLines ++ ["\x7d".toText]) := by
  rw [bodyLines_of_interface writable.kind, nameText_of_isIdentifier writable.word]

/-- What stands between the braces of an interface, given its lines. -/
def insideOf (inner : List Text) : Text := Text.join ['\n'] ([] :: inner) ++ [.char '\n']

/-- What an interface holds between its braces. -/
def interfaceInside (declaration : Declaration) : Text :=
  insideOf (declaration.fields.flatMap memberLines)

theorem join_interfaceLines (name : Text) (bases inner : List Text) :
    Text.join ['\n'] (("interface ".toText ++ (name ++ behindName bases)) ::
        (inner ++ ["\x7d".toText])) =
      "interface ".toText ++ (name ++ (behindName bases ++ (insideOf inner ++ "\x7d".toText))) := by
  have front : ("interface ".toText ++ (name ++ behindName bases)) =
      ("interface ".toText ++ (name ++ behindName bases)) ++ [] :=
    (List.append_nil _).symm
  rw [front, Text.join_append_cons, ← List.cons_append,
    Text.join_append _ (List.cons_ne_nil _ _) (List.cons_ne_nil _ _), insideOf]
  simp only [List.append_assoc, Text.join_singleton]

/-- The brace that closes an interface stands on a line of its own. -/
theorem not_lineTail_interfaceLines (name : Text) (bases inner : List Text) :
    ¬Comment.LineTail (Text.join ['\n'] (("interface ".toText ++ (name ++ behindName bases)) ::
      (inner ++ ["\x7d".toText]))) := by
  have written : Text.join ['\n'] (("interface ".toText ++ (name ++ behindName bases)) ::
      (inner ++ ["\x7d".toText])) =
        "interface ".toText ++ (name ++ (behindName bases ++ Text.join ['\n'] ([] :: inner))) ++
          [.char '\n', .char '\x7d'] := by
    rw [join_interfaceLines, insideOf]
    simp only [List.append_assoc]
    rfl
  rw [written]
  exact Comment.not_lineTail_of_brace _

theorem join_bodyLines_interface (writable : IsWritableInterface declaration) :
    Text.join ['\n'] declaration.bodyLines =
      "interface ".toText ++ (declaration.name ++ (behindName declaration.bases ++
        (interfaceInside declaration ++ "\x7d".toText))) := by
  rw [bodyLines_interface writable, join_interfaceLines, interfaceInside]

theorem mem_behindName {bases : List Text}
    (words : ∀ base ∈ bases, Text.isIdentifier base = true) {c : CodePoint}
    (inside : c ∈ behindName bases) : Text.isIdentifierPart c = true ∨ c ∈ ", \x7b".toText := by
  have wider : ∀ c ∈ ", ".toText, c ∈ ", \x7b".toText := by decide
  rcases List.mem_append.mp inside with names | brace
  · rw [basesText] at names
    split at names
    · cases names
    · rcases List.mem_append.mp names with word | names
      · have known : ∀ c ∈ " extends ".toText,
            Text.isIdentifierPart c = true ∨ c ∈ ", \x7b".toText := by decide
        exact known c word
      · exact (mem_clause words (List.mem_cons_of_mem _ (List.mem_append_left _ names))).imp_right
          (wider c)
  · have known : ∀ c ∈ " \x7b".toText, c ∈ ", \x7b".toText := by decide
    exact Or.inr (known c brace)

theorem head?_behindName (bases : List Text) : (behindName bases).head? = some (.char ' ') := by
  rw [behindName, basesText]
  split <;> rfl

theorem mem_firstLine (writable : IsWritableInterface declaration) {c : CodePoint}
    (inside : c ∈ "interface ".toText ++ (declaration.name ++ behindName declaration.bases)) :
    Text.isIdentifierPart c = true ∨ c ∈ ", \x7b".toText := by
  rcases List.mem_append.mp inside with keyword | inside
  · have known : ∀ c ∈ "interface ".toText,
        Text.isIdentifierPart c = true ∨ c ∈ ", \x7b".toText := by decide
    exact known c keyword
  · rcases List.mem_append.mp inside with name | behind
    · exact Or.inl (Text.part_of_mem_identifier writable.word name)
    · exact mem_behindName writable.bases behind

/-- The first line of an interface holds no slash and no line break. -/
theorem plain_firstLine (writable : IsWritableInterface declaration) :
    .char '/' ∉ "interface ".toText ++ (declaration.name ++ behindName declaration.bases) ∧
      SingleLine ("interface ".toText ++ (declaration.name ++ behindName declaration.bases)) := by
  constructor
  · intro inside
    rcases mem_firstLine writable inside with part | known
    · exact absurd part (by decide)
    · exact absurd known (by decide)
  · intro c inside
    rcases mem_firstLine writable inside with part | known
    · exact Text.isLineBreak_of_not_blank (Text.isBlank_of_isIdentifierPart part)
    · have checked : ∀ c ∈ ", \x7b".toText, Text.isLineBreak c = false := by decide
      exact checked c known

theorem afterExport_of_other {text : Text} (absent : "export".toText.isPrefixOf? text = none) :
    afterExport text = text := by
  rw [afterExport, Text.afterWord?_eq_none absent, Option.getD_none]

/-- The keyword is left behind together with its blank. -/
theorem afterWord?_keyword {keyword name : Text} (word : Text.isIdentifier name = true)
    (rest : Text) : Text.afterWord? keyword (keyword ++ .char ' ' :: (name ++ rest)) =
      some (name ++ rest) := by
  rw [Text.afterWord?_append _ _ (by decide), (Text.solid_identifier word).trimStart_append]

theorem startsDeclaration_interface {name : Text} (word : Text.isIdentifier name = true)
    (rest : Text) : Batch.startsDeclaration ("interface ".toText ++ (name ++ rest)) = true := by
  have found : Text.afterWord? "interface".toText ("interface ".toText ++ (name ++ rest)) =
      some (name ++ rest) := afterWord?_keyword word rest
  have start : Text.trimStart ("interface ".toText ++ (name ++ rest)) =
      "interface ".toText ++ (name ++ rest) := rfl
  obtain ⟨first, others, rfl, starts, -⟩ := Text.isIdentifier_iff.mp word
  rw [Batch.startsDeclaration, start, afterExport_of_other rfl, found]
  exact starts

theorem isBody_interface (writable : IsWritableInterface declaration) :
    IsBody declaration.bodyLines := by
  obtain ⟨noSlash, single⟩ := plain_firstLine writable
  have lines := bodyLines_interface writable
  have inside : ∀ line ∈ declaration.fields.flatMap memberLines,
      ∃ member, member.IsWritable ∧ line ∈ memberLines member := by
    intro line here
    obtain ⟨member, known, there⟩ := List.mem_flatMap.mp here
    exact ⟨member, writable.members member known, there⟩
  constructor
  · refine ⟨_, _, lines, ?_, ⟨.char 'i', rfl, by decide⟩, fun line here => ?_⟩
    · exact startsDeclaration_interface writable.word _
    · rcases List.mem_append.mp here with member | brace
      · obtain ⟨member, valid, there⟩ := inside line member
        exact startsDeclaration_of_mem_memberLines valid.toFitsLine there
      · obtain rfl := List.mem_singleton.mp brace
        decide
  · rw [lines]
    intro line here
    rcases List.mem_cons.mp here with rfl | here
    · exact single
    · rcases List.mem_append.mp here with member | brace
      · obtain ⟨member, valid, there⟩ := inside line member
        exact singleLine_of_mem_memberLines valid.toFitsLine there
      · obtain rfl := List.mem_singleton.mp brace
        decide
  · exact ⟨_, "\x7d".toText, by rw [lines, ← List.cons_append], [], .char '\x7d', rfl,
      by decide, by decide⟩
  · rw [lines]
    refine Comment.leavesOpen_join fun line here => ?_
    rcases List.mem_cons.mp here with rfl | here
    · exact Or.inl noSlash
    · rcases List.mem_append.mp here with member | brace
      · obtain ⟨member, valid, there⟩ := inside line member
        exact closedLine_of_mem_memberLines valid.toFitsLine there
      · obtain rfl := List.mem_singleton.mp brace
        exact Or.inl (by decide)

theorem beforeLastBrace?_append (inside : Text) :
    beforeLastBrace? (inside ++ "\x7d".toText) = some inside := by
  have last : (inside ++ "\x7d".toText).getLast? = some (.char '\x7d') := List.getLast?_concat
  have kept : Text.dropFinal ';' (inside ++ "\x7d".toText) = inside ++ "\x7d".toText :=
    Text.dropFinal_concat_of_ne (by decide) inside
  have trimmed : Text.trimEnd (inside ++ "\x7d".toText) = inside ++ "\x7d".toText := by
    refine Text.trimEnd_eq_self fun c here => ?_
    rw [last] at here
    exact Option.some.inj here ▸ by decide
  have reversed : (inside ++ "\x7d".toText).reverse = .char '\x7d' :: inside.reverse := by
    rw [List.reverse_append]
    rfl
  rw [beforeLastBrace?, kept, trimmed, reversed]
  exact congrArg some (List.reverse_reverse inside)

theorem beforeLastBrace?_append_semicolon (inside : Text) :
    beforeLastBrace? (inside ++ "\x7d;".toText) = some inside := by
  have whole : inside ++ "\x7d;".toText = (inside ++ "\x7d".toText) ++ [.char ';'] := by
    rw [List.append_assoc]
    rfl
  have dropped : Text.dropFinal ';' (inside ++ "\x7d;".toText) =
      Text.dropFinal ';' (inside ++ "\x7d".toText) := by
    rw [whole, Text.dropFinal_concat]
    exact (Text.dropFinal_concat_of_ne (by decide) inside).symm
  rw [beforeLastBrace?, dropped, ← beforeLastBrace?, beforeLastBrace?_append]

theorem readMembers_insideOf {inner : List Text} (single : ∀ line ∈ inner, SingleLine line) :
    readMembers (insideOf inner) = readLines none inner := by
  have lines : ∀ line ∈ [] :: inner, SingleLine line := by
    intro line here
    rcases List.mem_cons.mp here with rfl | inside
    · intro c absent
      cases absent
    · exact single line inside
  rw [readMembers, insideOf, Text.lines_join_feed lines (List.cons_ne_nil _ _), readLines]
  rfl

theorem singleLine_of_mem_flatMap_memberLines {members : List Member}
    (fits : ∀ member ∈ members, member.FitsLine) {line : Text}
    (here : line ∈ members.flatMap memberLines) : SingleLine line := by
  obtain ⟨member, known, there⟩ := List.mem_flatMap.mp here
  exact singleLine_of_mem_memberLines (fits member known) there

theorem readMembers_interface (members : ∀ member ∈ declaration.fields, member.IsWritable) :
    readMembers (interfaceInside declaration) = declaration.fields.map Member.settled := by
  rw [interfaceInside, readMembers_insideOf fun line => singleLine_of_mem_flatMap_memberLines
    fun member here => (members member here).toFitsLine, readLines_members members]

/-- The name, the clause and what stands between the braces of an interface are read one behind the
other. -/
theorem interface?_of_body {name : Text} {bases : List Text} {rest inside : Text}
    (word : Text.isIdentifier name = true) (words : ∀ base ∈ bases, Text.isIdentifier base = true)
    (closed : beforeLastBrace? rest = some inside) :
    interface? ("interface ".toText ++ (name ++ (behindName bases ++ rest))) =
      some { name := name, kind := .interface, fields := readMembers inside, bases := bases } := by
  have boundary : ∀ c, (behindName bases ++ rest).head? = some c →
      Text.isIdentifierPart c = false := by
    intro c head
    rw [List.head?_append, head?_behindName] at head
    exact Option.some.inj head ▸ by decide
  have keyword : Text.afterWord? "interface".toText
      ("interface ".toText ++ (name ++ (behindName bases ++ rest))) =
        some (name ++ (behindName bases ++ rest)) :=
    afterWord?_keyword word _
  have brace : Text.trimStart (if bases.isEmpty then " \x7b".toText ++ rest
      else .char '\x7b' :: rest) = .char '\x7b' :: rest := by
    split <;> rfl
  rw [interface?, afterExport_of_other rfl, keyword, Option.bind_some,
    Text.identifier?_append_of_boundary word boundary]
  simp only [bases?_behindName words rest, brace, closed, Option.map_some]

/-- A written interface is read with the comments of its members that settle. -/
theorem interface?_render (writable : IsWritableInterface declaration) :
    interface? (Text.join ['\n'] declaration.bodyLines) =
      some { declaration with
        fields := declaration.fields.map Member.settled
        comment := none } := by
  rw [join_bodyLines_interface writable,
    interface?_of_body writable.word writable.bases (beforeLastBrace?_append _),
    readMembers_interface writable.members]
  obtain ⟨kind, -, -, -, noUnion, noIntersection⟩ := writable
  obtain ⟨_, _, _, _, _, _, _⟩ := declaration
  subst kind noUnion noIntersection
  rfl

end Interface

end SchemaBoard.Outline
