import SchemaBoard.Proofs.Declaration.Interface

set_option autoImplicit false

/-!
The heads of declarations. What stands in front of the body of an interface or the right-hand side
of an alias is read from left to right, each part by a reader that leaves the rest. Main statement:
none of these readers goes on behind the closing brace at the end of a text, whatever follows it.
-/
namespace SchemaBoard.Outline

/-- The text ends with a closing brace. -/
def Shut (text : Text) : Prop := text.getLast? = some (.char '\x7d')

section Shut

variable {text : Text}

theorem Shut.ne_nil (shut : Shut text) : text ≠ [] := by
  rintro rfl
  cases shut

theorem Shut.mem (shut : Shut text) : .char '\x7d' ∈ text := List.mem_of_mem_getLast? shut

theorem Shut.of_suffix {part : Text} (shut : Shut text) (suffix : part <:+ text)
    (some : part ≠ []) : Shut part := by
  obtain ⟨front, rfl⟩ := suffix
  obtain ⟨c, last⟩ := Option.isSome_iff_exists.mp (List.getLast?_isSome.mpr some)
  rw [Shut, List.getLast?_append, last] at shut
  rw [Shut, last]
  exact shut

theorem Shut.tail {c : CodePoint} (shut : Shut (c :: text)) (other : c ≠ .char '\x7d') :
    Shut text := by
  refine shut.of_suffix (List.suffix_cons c text) ?_
  rintro rfl
  exact other (Option.some.inj shut)

theorem Shut.not_allBlank (shut : Shut text) : Text.allBlank text = false := by
  cases blank : Text.allBlank text with
  | false => rfl
  | true => exact absurd shut.mem (Text.not_mem_of_visible blank (by decide))

theorem trimStart_suffix (text : Text) : Text.trimStart text <:+ text :=
  List.dropWhile_suffix Text.isBlank

theorem Shut.trimStart (shut : Shut text) : Shut (Text.trimStart text) := by
  refine shut.of_suffix (trimStart_suffix text) fun empty => ?_
  have blank := Text.dropWhile_eq_nil_iff.mp empty
  rw [shut.not_allBlank] at blank
  cases blank

/-- Nothing is trimmed behind the brace. -/
theorem Shut.trim_eq (shut : Shut text) : Text.trim text = Text.trimStart text := by
  refine Text.trimEnd_eq_self fun c last => ?_
  rw [shut.trimStart] at last
  exact Option.some.inj last ▸ by decide

theorem Shut.trim (shut : Shut text) : Shut (Text.trim text) := by
  rw [shut.trim_eq]
  exact shut.trimStart

theorem Shut.dropFinal_eq (shut : Shut text) : Text.dropFinal ';' text = text := by
  rw [Text.dropFinal, shut, if_neg (by decide)]

theorem Shut.trimStart_append (shut : Shut text) (tail : Text) :
    Text.trimStart (text ++ tail) = Text.trimStart text ++ tail :=
  Text.trimStart_append_of_visible shut.not_allBlank tail

theorem Shut.isPrefixOf?_append (shut : Shut text) {word : Text} (free : .char '\x7d' ∉ word)
    (tail : Text) :
    word.isPrefixOf? (text ++ tail) = (word.isPrefixOf? text).map (· ++ tail) := by
  cases found : word.isPrefixOf? text with
  | some rest =>
    obtain rfl := Text.isPrefixOf?_eq_some_iff.mp found
    rw [List.append_assoc, Text.isPrefixOf?_append]
    rfl
  | none =>
    cases later : word.isPrefixOf? (text ++ tail) with
    | none => rfl
    | some rest =>
      exfalso
      have eq := Text.isPrefixOf?_eq_some_iff.mp later
      rcases List.append_eq_append_iff.mp eq with ⟨more, same, -⟩ | ⟨more, same, -⟩
      · exact free (same ▸ List.mem_append_left _ shut.mem)
      · rw [same, Text.isPrefixOf?_append] at found
        cases found

theorem Shut.of_isPrefixOf? (shut : Shut text) {word rest : Text} (free : .char '\x7d' ∉ word)
    (found : word.isPrefixOf? text = some rest) : Shut rest ∧ rest <:+ text := by
  obtain rfl := Text.isPrefixOf?_eq_some_iff.mp found
  refine ⟨shut.of_suffix (List.suffix_append _ _) ?_, List.suffix_append _ _⟩
  rintro rfl
  rw [List.append_nil] at shut
  exact free shut.mem

/-- A search that stops within a text does not see what follows. -/
theorem search_append_of_stop {p : CodePoint → Bool} {c : CodePoint} (member : c ∈ text)
    (stop : p c = false) (tail : Text) :
    (text ++ tail).takeWhile p = text.takeWhile p ∧
      (text ++ tail).dropWhile p = text.dropWhile p ++ tail ∧ text.dropWhile p ≠ [] := by
  induction text with
  | nil => cases member
  | cons d rest ih =>
    cases here : p d with
    | false => simp [here]
    | true =>
      have later : c ∈ rest := by
        rcases List.mem_cons.mp member with rfl | later
        · rw [here] at stop
          cases stop
        · exact later
      simpa [here] using ih later

end Shut

/-- A reader of the front of a text gives what it found and the rest. -/
abbrev Reader (Found : Type) : Type := Text → Option (Found × Text)

/-- On a text that ends with a closing brace the reader does not see what follows, and it leaves an
end of the text. -/
def StopsAtBrace {Found : Type} (reader : Reader Found) : Prop :=
  ∀ text, Shut text →
    (∀ tail, reader (text ++ tail) = (reader text).map fun result => (result.1, result.2 ++ tail)) ∧
      ∀ found rest, reader text = some (found, rest) → Shut rest ∧ rest <:+ text

def Reader.andThen {Found Other : Type} (first : Reader Found) (second : Found → Reader Other) :
    Reader Other :=
  fun text => (first text).bind fun result => second result.1 result.2

/-- What was found, or a default in front of the whole text. -/
def Reader.withDefault {Found : Type} (reader : Reader Found) (default : Found) : Reader Found :=
  fun text => some ((reader text).getD (default, text))

def keyword (word : Text) : Reader Unit :=
  fun text => (Text.afterWord? word text).map fun rest => ((), rest)

/-- A mark behind any blanks. -/
def mark (c : CodePoint) : Reader Unit := fun text =>
  match Text.trimStart text with
  | d :: rest => if d = c then some ((), rest) else none
  | [] => none

/-- A keyword, possibly behind `export`, and the name behind it. -/
def declared (word : Text) : Reader Text :=
  Reader.andThen (Reader.withDefault (keyword "export".toText) ()) fun _ =>
    Reader.andThen (keyword word) fun _ => Text.identifier?

/-- The name of an interface and the names it extends, up to its opening brace. -/
def interfaceHead : Reader (Text × List Text) :=
  Reader.andThen (declared "interface".toText) fun name =>
    Reader.andThen (Reader.withDefault bases? []) fun bases =>
      Reader.andThen (mark '\x7b') fun _ text => some ((name, bases), text)

/-- The name of an alias, up to its equals sign. -/
def assignedHead : Reader Text :=
  Reader.andThen (declared "type".toText) fun name =>
    Reader.andThen (mark '=') fun _ text => some (name, text)

/-- The comment in front of a declaration, and the trimmed text behind it. -/
def commentAndBody (text : Text) : Option Text × Text :=
  match Comment.leadingDoc? (Text.trim text) with
  | some (inside, rest) => (some (Comment.dedent inside), Text.trim rest)
  | none => (none, Text.trim text)

section Heads

theorem read?_eq_body (text : Text) :
    read? text =
      ((interface? (Comment.dropTrailing (commentAndBody text).2)).or
        (assigned? (Comment.dropTrailing (commentAndBody text).2))).map
          fun declaration => { declaration with comment := (commentAndBody text).1 } := rfl

theorem declared_eq (word text : Text) :
    declared word text = (Text.afterWord? word (afterExport text)).bind Text.identifier? := by
  have front : (keyword "export".toText).withDefault () text = some ((), afterExport text) := by
    rw [Reader.withDefault, keyword, afterExport]
    cases Text.afterWord? "export".toText text <;> rfl
  rw [declared, Reader.andThen, front, Option.bind_some, Reader.andThen, keyword,
    Option.bind_map]
  rfl

theorem interface?_eq_head (text : Text) :
    interface? text = (interfaceHead text).bind fun ((name, bases), body) =>
      (beforeLastBrace? body).map fun inside =>
        { name := name, kind := .interface, fields := readMembers inside, bases := bases } := by
  rw [interface?, ← declared_eq, interfaceHead, Reader.andThen]
  cases declared "interface".toText text with
  | none => rfl
  | some result =>
    obtain ⟨name, rest⟩ := result
    dsimp only [Option.bind_some, Reader.andThen, Reader.withDefault, mark]
    split
    · next eq => simp [eq]
    · next other =>
      cases eq : Text.trimStart ((bases? rest).getD ([], rest)).2 with
      | nil => rfl
      | cons c body =>
        have apart : c ≠ .char '\x7b' := by
          rintro rfl
          exact other body eq
        simp [apart]

theorem assigned?_eq_head (text : Text) :
    assigned? text = (assignedHead text).bind fun (name, rest) =>
      let root := Text.trim (Text.dropFinal ';' (Text.trim rest))
      if root.isEmpty then none else some (ofRightHandSide name root) := by
  rw [assigned?, ← declared_eq, assignedHead, Reader.andThen]
  cases declared "type".toText text with
  | none => rfl
  | some result =>
    obtain ⟨name, rest⟩ := result
    dsimp only [Option.bind_some, Reader.andThen, mark]
    split
    · next eq => simp [eq]
    · next other =>
      cases eq : Text.trimStart rest with
      | nil => rfl
      | cons c behind =>
        have apart : c ≠ .char '=' := by
          rintro rfl
          exact other behind eq
        simp [apart]

end Heads

section Readers

variable {Found Other : Type}

theorem StopsAtBrace.andThen {first : Reader Found} {second : Found → Reader Other}
    (left : StopsAtBrace first) (right : ∀ found, StopsAtBrace (second found)) :
    StopsAtBrace (first.andThen second) := by
  intro text shut
  obtain ⟨append, rests⟩ := left text shut
  unfold Reader.andThen
  cases result : first text with
  | none =>
    refine ⟨fun tail => ?_, fun found rest same => by cases same⟩
    rw [append, result]
    rfl
  | some pair =>
    obtain ⟨found, rest⟩ := pair
    obtain ⟨ends, suffix⟩ := rests found rest result
    obtain ⟨laterAppend, laterRests⟩ := right found rest ends
    refine ⟨fun tail => ?_, fun other after same => ?_⟩
    · rw [append, result]
      exact laterAppend tail
    · obtain ⟨afterEnds, afterSuffix⟩ := laterRests other after same
      exact ⟨afterEnds, afterSuffix.trans suffix⟩

theorem StopsAtBrace.withDefault {reader : Reader Found} (stops : StopsAtBrace reader)
    (default : Found) : StopsAtBrace (reader.withDefault default) := by
  intro text shut
  obtain ⟨append, rests⟩ := stops text shut
  unfold Reader.withDefault
  cases result : reader text with
  | none =>
    refine ⟨fun tail => ?_, fun found rest same => ?_⟩
    · rw [append, result]
      rfl
    · obtain ⟨-, rfl⟩ := Prod.mk.inj (Option.some.inj same)
      exact ⟨shut, List.suffix_refl _⟩
  | some pair =>
    refine ⟨fun tail => ?_, fun found rest same => ?_⟩
    · rw [append, result]
      rfl
    · exact rests found rest (result.trans same)

theorem stopsAtBrace_some (found : Found) : StopsAtBrace fun text => some (found, text) := by
  intro text shut
  refine ⟨fun tail => rfl, fun other rest same => ?_⟩
  obtain ⟨-, rfl⟩ := Prod.mk.inj (Option.some.inj same)
  exact ⟨shut, List.suffix_refl _⟩

theorem stopsAtBrace_keyword {word : Text} (free : .char '\x7d' ∉ word) :
    StopsAtBrace (keyword word) := by
  intro text shut
  have step := fun tail => shut.isPrefixOf?_append free tail
  cases found : word.isPrefixOf? text with
  | none =>
    have absent := Text.afterWord?_eq_none found
    rw [keyword, absent]
    refine ⟨fun tail => ?_, fun _ _ same => by cases same⟩
    rw [keyword, Text.afterWord?_eq_none (by rw [step, found]; rfl)]
    rfl
  | some behind =>
    obtain ⟨ends, suffix⟩ := shut.of_isPrefixOf? free found
    obtain ⟨c, others, rfl⟩ := List.exists_cons_of_ne_nil ends.ne_nil
    have here : Text.afterWord? word text =
        if Text.isBlank c then some (Text.trimStart others) else none := by
      rw [Text.afterWord?, found]
    have there : ∀ tail, Text.afterWord? word (text ++ tail) =
        if Text.isBlank c then some (Text.trimStart (others ++ tail)) else none := by
      intro tail
      rw [Text.afterWord?, step, found]
      rfl
    simp only [keyword, here, there]
    cases blank : Text.isBlank c with
    | false => exact ⟨fun tail => rfl, fun _ _ same => by cases same⟩
    | true =>
      have other : c ≠ .char '\x7d' := by
        rintro rfl
        cases blank
      have behind := ends.tail other
      refine ⟨fun tail => ?_, fun _ rest same => ?_⟩
      · simp [behind.trimStart_append]
      · obtain ⟨-, rfl⟩ := Prod.mk.inj (Option.some.inj same)
        exact ⟨behind.trimStart,
          ((trimStart_suffix others).trans (List.suffix_cons c others)).trans suffix⟩

theorem stopsAtBrace_mark {c : CodePoint} (other : c ≠ .char '\x7d') : StopsAtBrace (mark c) := by
  intro text shut
  obtain ⟨d, others, eq⟩ := List.exists_cons_of_ne_nil shut.trimStart.ne_nil
  have here : mark c text = if d = c then some ((), others) else none := by
    rw [mark, eq]
  have there : ∀ tail, mark c (text ++ tail) =
      if d = c then some ((), others ++ tail) else none := by
    intro tail
    rw [mark, shut.trimStart_append, eq]
    rfl
  simp only [here, there]
  by_cases same : d = c
  · have ends : Shut (d :: others) := eq ▸ shut.trimStart
    have suffix : d :: others <:+ text := eq ▸ trimStart_suffix text
    refine ⟨fun tail => by simp [same], fun _ rest found => ?_⟩
    rw [if_pos same] at found
    obtain ⟨-, rfl⟩ := Prod.mk.inj (Option.some.inj found)
    exact ⟨ends.tail (same ▸ other), (List.suffix_cons d others).trans suffix⟩
  · simp [same]

theorem stopsAtBrace_identifier : StopsAtBrace Text.identifier? := by
  intro text shut
  obtain ⟨c, others, rfl⟩ := List.exists_cons_of_ne_nil shut.ne_nil
  cases start : Text.isIdentifierStart c with
  | false => simp [Text.identifier?, start]
  | true =>
    have other : c ≠ .char '\x7d' := by
      rintro rfl
      cases start
    have behind := shut.tail other
    have stop : Text.isIdentifierPart (.char '\x7d') = false := by decide
    have search := search_append_of_stop behind.mem stop
    refine ⟨fun tail => ?_, fun name rest found => ?_⟩
    · obtain ⟨taken, dropped, -⟩ := search tail
      simp [Text.identifier?, start, taken, dropped]
    · simp only [Text.identifier?, start, if_true, Option.some.injEq, Prod.mk.injEq] at found
      obtain ⟨-, rfl⟩ := found
      have suffix : others.dropWhile Text.isIdentifierPart <:+ others := List.dropWhile_suffix _
      exact ⟨behind.of_suffix suffix (search []).2.2, suffix.trans (List.suffix_cons c others)⟩

/-- Without an opening brace the clause goes on to the closing brace at least, which stands in no
clause. -/
theorem all_isBasesChar_takeWhile {after : Text} (shut : Shut after)
    (absent : .char '\x7b' ∉ after) (tail : Text) :
    ((after ++ tail).takeWhile (· ≠ .char '\x7b')).all isBasesChar = false := by
  have all : ∀ c ∈ after, decide (c ≠ .char '\x7b') = true := by
    intro c inside
    rw [decide_eq_true_eq]
    rintro rfl
    exact absent inside
  have closer : after.all isBasesChar = false := by
    cases every : after.all isBasesChar with
    | false => rfl
    | true => exact absurd (List.all_eq_true.mp every _ shut.mem) (by decide)
  rw [List.takeWhile_append_of_pos all, List.all_append, closer, Bool.false_and]

theorem stopsAtBrace_bases : StopsAtBrace bases? := by
  intro text shut
  obtain ⟨c, others, rfl⟩ := List.exists_cons_of_ne_nil shut.ne_nil
  have free : .char '\x7d' ∉ "extends".toText := by decide
  have word := fun tail => shut.trimStart.isPrefixOf?_append free tail
  cases found : "extends".toText.isPrefixOf? (Text.trimStart (c :: others)) with
  | none =>
    have later : ∀ tail, bases? (c :: others ++ tail) = none := by
      intro tail
      apply bases?_of_other
      rw [shut.trimStart_append, word, found]
      rfl
    rw [bases?_of_other found]
    exact ⟨later, fun _ _ same => by cases same⟩
  | some after =>
    obtain ⟨behind, suffix⟩ := shut.trimStart.of_isPrefixOf? free found
    have there : ∀ tail, "extends".toText.isPrefixOf? (Text.trimStart (c :: others ++ tail)) =
        some (after ++ tail) := by
      intro tail
      rw [shut.trimStart_append, word, found]
      rfl
    by_cases opens : .char '\x7b' ∈ after
    · have search := search_append_of_stop (p := (· ≠ .char '\x7b')) opens (by decide)
      rw [bases?_eq_of_found (c := c) rfl found]
      refine ⟨fun tail => ?_, fun bases rest same => ?_⟩
      · obtain ⟨taken, dropped, -⟩ := search tail
        rw [bases?_eq_of_found (c := c) rfl (there tail), taken, dropped]
        split <;> rfl
      · split at same
        · obtain ⟨-, rfl⟩ := Prod.mk.inj (Option.some.inj same)
          have ends : after.dropWhile (· ≠ .char '\x7b') <:+ after := List.dropWhile_suffix _
          exact ⟨behind.of_suffix ends (search []).2.2,
            (ends.trans suffix).trans (trimStart_suffix _)⟩
        · cases same
    · have absent : ∀ tail, bases? (c :: others ++ tail) = none := by
        intro tail
        rw [bases?_eq_of_found (c := c) rfl (there tail), all_isBasesChar_takeWhile behind opens,
          Bool.and_false, if_neg Bool.false_ne_true]
      have nothing := absent []
      rw [List.append_nil] at nothing
      rw [nothing]
      exact ⟨absent, fun _ _ same => by cases same⟩

theorem stopsAtBrace_declared {word : Text} (free : .char '\x7d' ∉ word) :
    StopsAtBrace (declared word) :=
  ((stopsAtBrace_keyword (by decide)).withDefault ()).andThen fun _ =>
    (stopsAtBrace_keyword free).andThen fun _ => stopsAtBrace_identifier

theorem stopsAtBrace_interfaceHead : StopsAtBrace interfaceHead :=
  (stopsAtBrace_declared (by decide)).andThen fun name =>
    (stopsAtBrace_bases.withDefault []).andThen fun bases =>
      (stopsAtBrace_mark (by decide)).andThen fun _ => stopsAtBrace_some (name, bases)

theorem stopsAtBrace_assignedHead : StopsAtBrace assignedHead :=
  (stopsAtBrace_declared (by decide)).andThen fun name =>
    (stopsAtBrace_mark (by decide)).andThen fun _ => stopsAtBrace_some name

end Readers

section RightHandSide

/-- The four ways to read a right-hand side. -/
theorem ofRightHandSide_cases (name root : Text) :
    (∃ inside, Text.unwrap? '\x7b' '\x7d' root = some inside ∧
      ofRightHandSide name root = { name := name, fields := readMembers inside }) ∨
    (1 < (Text.splitTop ['|'] root).length ∧
      ofRightHandSide name root = { name := name, unionTypes := Text.splitTop ['|'] root }) ∨
    (1 < (Text.splitTop ['&'] root).length ∧
      ofRightHandSide name root =
        { name := name, intersectionTypes := Text.splitTop ['&'] root }) ∨
    ((Text.splitTop ['|'] root).length ≤ 1 ∧
      ofRightHandSide name root = { name := name, unionTypes := [root] }) := by
  rw [ofRightHandSide]
  cases Text.unwrap? '\x7b' '\x7d' root with
  | some inside => exact Or.inl ⟨inside, rfl, rfl⟩
  | none =>
    refine Or.inr ?_
    by_cases union : 1 < (Text.splitTop ['|'] root).length
    · exact Or.inl ⟨union, if_pos union⟩
    · refine Or.inr ?_
      by_cases intersection : 1 < (Text.splitTop ['&'] root).length
      · exact Or.inl ⟨intersection, (if_neg union).trans (if_pos intersection)⟩
      · exact Or.inr ⟨Nat.le_of_not_lt union, (if_neg union).trans (if_neg intersection)⟩

theorem ofRightHandSide_parts (name root : Text) :
    (ofRightHandSide name root).name = name ∧ (ofRightHandSide name root).kind = .type ∧
      (ofRightHandSide name root).bases = [] ∧ (ofRightHandSide name root).comment = none := by
  rcases ofRightHandSide_cases name root with ⟨inside, -, eq⟩ | ⟨-, eq⟩ | ⟨-, eq⟩ | ⟨-, eq⟩ <;>
    rw [eq] <;> exact ⟨rfl, rfl, rfl, rfl⟩

end RightHandSide

section Names

variable {text : Text} {found : Declaration}

theorem declared_of_interface? (reads : interface? text = some found) :
    (∃ rest, declared "interface".toText text = some (found.name, rest)) ∧
      ∃ inside, found = { name := found.name, kind := .interface, fields := readMembers inside
                          bases := found.bases } := by
  rw [interface?_eq_head] at reads
  obtain ⟨⟨⟨name, bases⟩, body⟩, head, rest⟩ := Option.bind_eq_some_iff.mp reads
  obtain ⟨inside, -, rfl⟩ := Option.map_eq_some_iff.mp rest
  obtain ⟨⟨first, behind⟩, named, later⟩ := Option.bind_eq_some_iff.mp head
  obtain ⟨⟨bases', clause⟩, -, later⟩ := Option.bind_eq_some_iff.mp later
  obtain ⟨⟨_, after⟩, -, same⟩ := Option.bind_eq_some_iff.mp later
  obtain ⟨⟨rfl, -⟩, -⟩ := by simpa using same
  exact ⟨⟨behind, named⟩, inside, rfl⟩

theorem declared_of_assigned? (reads : assigned? text = some found) :
    ∃ rest, declared "type".toText text = some (found.name, rest) := by
  rw [assigned?_eq_head] at reads
  obtain ⟨⟨name, rest⟩, head, inner⟩ := Option.bind_eq_some_iff.mp reads
  dsimp only at inner
  split at inner
  · cases inner
  · obtain rfl := Option.some.inj inner
    obtain ⟨⟨first, behind⟩, named, later⟩ := Option.bind_eq_some_iff.mp head
    obtain ⟨⟨_, after⟩, -, same⟩ := Option.bind_eq_some_iff.mp later
    obtain ⟨rfl, -⟩ := Prod.mk.inj (Option.some.inj same)
    rw [(ofRightHandSide_parts _ _).1]
    exact ⟨behind, named⟩

/-- Blanks behind a keyword are passed over, and the name is looked for behind them. -/
theorem head?_of_declared {word blanks rest name behind : Text} {c : CodePoint}
    (plain : "export".toText.isPrefixOf? (word ++ .char ' ' :: (blanks ++ rest)) = none)
    (blank : Text.allBlank blanks = true) (head : rest.head? = some c)
    (visible : Text.isBlank c = false)
    (reads : declared word (word ++ .char ' ' :: (blanks ++ rest)) = some (name, behind)) :
    name.head? = some c := by
  have starts : ∀ d, rest.head? = some d → Text.isBlank d = false := by
    intro d here
    obtain rfl := Option.some.inj (head.symm.trans here)
    exact visible
  rw [declared_eq, afterExport_of_other plain, Text.afterWord?_append word _ (by decide),
    Text.trimStart_blank_append blank starts, Option.bind_some] at reads
  obtain ⟨first, others, rfl, -⟩ := Text.isIdentifier_iff.mp (Text.identifier?_isIdentifier reads)
  rw [← Text.identifier?_append reads] at head
  exact head

theorem declared_eq_none {word : Text} (plain : "export".toText.isPrefixOf? text = none)
    (other : word.isPrefixOf? text = none) : declared word text = none := by
  rw [declared_eq, afterExport_of_other plain, Text.afterWord?_eq_none other, Option.bind_none]

/-- Whatever stands behind the keyword and its blanks begins the name. -/
theorem head?_name_of_keyword {keyword blanks rest : Text} {c : CodePoint}
    (known : keyword = "interface".toText ∨ keyword = "type".toText)
    (blank : Text.allBlank blanks = true) (head : rest.head? = some c)
    (visible : Text.isBlank c = false)
    (reads : (interface? (keyword ++ .char ' ' :: (blanks ++ rest))).or
      (assigned? (keyword ++ .char ' ' :: (blanks ++ rest))) = some found) :
    found.name.head? = some c := by
  rcases Option.or_eq_some_iff.mp reads with interface | ⟨-, assigned⟩
  · obtain ⟨⟨behind, named⟩, -⟩ := declared_of_interface? interface
    rcases known with rfl | rfl
    · exact head?_of_declared rfl blank head visible named
    · rw [declared_eq_none rfl rfl] at named
      cases named
  · obtain ⟨behind, named⟩ := declared_of_assigned? assigned
    rcases known with rfl | rfl
    · rw [declared_eq_none rfl rfl] at named
      cases named
    · exact head?_of_declared rfl blank head visible named

end Names

end SchemaBoard.Outline
