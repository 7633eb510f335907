import SchemaBoard.Proofs.Declaration.Enumerations

set_option autoImplicit false

/-!
Lists of declarations with enumerations in them. Main statement: a list in which no alias stands
directly in front of an enumeration is read as if its enumerations were left out.
-/
namespace SchemaBoard

open Comment (EndsVisibly)

namespace Outline

section Alone

variable {declaration : Declaration}

def IsPlainEnumeration (declaration : Declaration) : Prop :=
  declaration.kind = .enum ∧ Text.isIdentifier declaration.name = true ∧ declaration.comment = none

instance (declaration : Declaration) : Decidable (IsPlainEnumeration declaration) :=
  inferInstanceAs (Decidable (_ ∧ _))

/-- A declaration that is read back from its own written form, no block of which waits for what
follows. -/
structure StandsAlone (declaration : Declaration) : Prop where
  word : Text.isIdentifier declaration.name = true
  read : Batch.read (renderAll [declaration]) = [declaration]
  complete : ∀ block ∈ Batch.split (renderAll [declaration]), Batch.needsMore block = false

theorem read?_kind {text : Text} (found : read? text = some declaration) :
    declaration.kind = .interface ∨ declaration.kind = .type := by
  rw [read?_eq_body] at found
  obtain ⟨inner, body, rfl⟩ := Option.map_eq_some_iff.mp found
  rcases Option.or_eq_some_iff.mp body with interface | ⟨-, assigned⟩
  · rw [interface?_eq_head] at interface
    obtain ⟨head, -, rest⟩ := Option.bind_eq_some_iff.mp interface
    obtain ⟨inside, -, rfl⟩ := Option.map_eq_some_iff.mp rest
    exact Or.inl rfl
  · rw [assigned?_eq_head] at assigned
    obtain ⟨head, -, rest⟩ := Option.bind_eq_some_iff.mp assigned
    dsimp only at rest
    split at rest
    · cases rest
    · obtain rfl := Option.some.inj rest
      exact Or.inr (ofRightHandSide_parts _ _).2.1

theorem StandsAlone.kind (alone : StandsAlone declaration) :
    declaration.kind = .interface ∨ declaration.kind = .type := by
  have member : declaration ∈ Batch.read (renderAll [declaration]) := by
    rw [alone.read]
    exact List.mem_singleton_self declaration
  obtain ⟨block, -, found⟩ := List.mem_filterMap.mp member
  exact read?_kind found

theorem StandsAlone.of_render (alone : StandsAlone declaration) :
    Batch.read declaration.render = [declaration] ∧
      ∀ block ∈ Batch.split declaration.render, Batch.needsMore block = false := by
  have same : renderAll [declaration] = declaration.render := Text.join_singleton _ _
  exact ⟨same ▸ alone.read, same ▸ alone.complete⟩

theorem standsAlone_of_isCanonical (canonical : isCanonical declaration = true) :
    StandsAlone declaration := by
  have back := comesBack_of_isCanonical canonical
  have only : ∀ other ∈ [declaration], ComesBack other :=
    fun other member => List.mem_singleton.mp member ▸ back
  refine ⟨?_, ?_, ?_⟩
  · simp only [isCanonical, Bool.and_eq_true, Bool.or_eq_true] at canonical
    rcases canonical.2 with (⟨interface, -⟩ | ⟨object, -⟩) | regular
    · exact (regularInterface_iff.mp interface).2.1
    · exact (regularObject_iff.mp object).2.1
    · exact (regularAlias_iff.mp regular).2.1
  · rw [Batch.read_renderAll_eq_map_settled only, List.map_singleton, settled_eq_self canonical]
  · rw [Batch.split_renderAll fun other member => (only other member).body]
    intro block member
    obtain rfl := List.mem_singleton.mp member
    exact needsMore_render back.body.text

end Alone

end Outline

namespace Batch

open Outline

section Interfaces

variable {declaration : Declaration}

/-- What stands above the closing brace of an interface ends visibly. -/
theorem exists_bodyLines_interface (kind : declaration.kind = .interface) :
    ∃ front last, declaration.bodyLines = front ++ [last] ++ ["\x7d".toText] ∧
      EndsVisibly last := by
  obtain ⟨top, eq, brace⟩ : ∃ top, declaration.bodyLines =
      top :: declaration.fields.flatMap memberLines ++ ["\x7d".toText] ∧ EndsVisibly top := by
    rw [bodyLines, kind]
    exact ⟨_, rfl, EndsVisibly.append ⟨[.char ' '], .char '\x7b', rfl, by decide, by decide⟩ _⟩
  rcases List.eq_nil_or_concat declaration.fields with none | ⟨before, member, fields⟩
  · exact ⟨[], top, by rw [eq, none]; rfl, brace⟩
  · have semicolon : EndsVisibly ("  ".toText ++ member.render) :=
      EndsVisibly.append ⟨_, .char ';', rfl, by decide, by decide⟩ _
    refine ⟨top :: (before.flatMap memberLines ++ memberCommentLines member.comment), _, ?_,
      semicolon⟩
    rw [eq, fields, List.concat_eq_append, List.flatMap_append, List.flatMap_singleton, memberLines]
    simp only [List.append_assoc, List.cons_append]

/-- The last line of an interface is its closing brace, however its other lines are broken. -/
theorem getLast?_lines_interface (kind : declaration.kind = .interface) :
    (Text.lines declaration.render).getLast? = some "\x7d".toText := by
  obtain ⟨front, last, eq, ends⟩ := exists_bodyLines_interface kind
  have some : headerLines declaration.comment ++ front ++ [last] ≠ [] := by simp
  rw [render, eq, ← List.append_assoc, ← List.append_assoc,
    Text.join_append _ some (List.cons_ne_nil _ _), Text.join_singleton, List.append_assoc]
  show (Text.lines (_ ++ .char '\n' :: _)).getLast? = _
  rw [(endsVisibly_join ends).lines_append_feed, List.getLast?_append]
  rfl

end Interfaces

section Parts

variable {text : Text} {found : List Declaration} {declaration : Declaration}

/-- The last block of the text ends with a brace on a line of its own and is no alias. -/
def TakesEnumerations (text : Text) : Prop :=
  ∀ last, (split text).getLast? = some last → LastLine "\x7d".toText last ∧
    ∀ declaration, read? last = some declaration → declaration.kind = .interface

theorem readAs_of_standsAlone (alone : StandsAlone declaration) :
    ReadAs declaration declaration where
  word := alone.word
  kind := alone.kind
  part :=
    { ends := endsVisibly_render declaration
      read := alone.of_render.1
      complete := fun last final => alone.of_render.2 last (List.mem_of_mem_getLast? final) }

theorem takesEnumerations_render (alone : StandsAlone declaration)
    (kind : declaration.kind = .interface) : TakesEnumerations declaration.render := by
  obtain ⟨merged, last, cut, final, -⟩ := exists_split_append (endsVisibly_render declaration)
  intro other here
  rw [cut, List.getLast?_concat] at here
  obtain rfl := Option.some.inj here
  refine ⟨final _ (getLast?_lines_interface kind) (by decide), fun found readable => ?_⟩
  have member : found ∈ Batch.read declaration.render :=
    List.mem_filterMap.mpr ⟨last, by simp [cut], readable⟩
  rw [alone.of_render.1] at member
  rw [List.mem_singleton.mp member, kind]

/-- A further declaration is read behind the text. -/
theorem Part.append_alone (part : Part text found) (alone : StandsAlone declaration) :
    Part (text ++ .char '\n' :: .char '\n' :: declaration.render) (found ++ [declaration]) ∧
      (declaration.kind = .interface →
        TakesEnumerations (text ++ .char '\n' :: .char '\n' :: declaration.render)) := by
  obtain ⟨longer, final⟩ := part.append (readAs_of_standsAlone alone).part
    (startsWith_render alone.word alone.kind)
  refine ⟨longer, fun kind => ?_⟩
  rw [TakesEnumerations, final]
  exact takesEnumerations_render alone kind

theorem needsMore_append_enumeration {name block : Text} (word : Text.isIdentifier name = true)
    (shut : Shut block) (complete : needsMore block = false) :
    needsMore (block ++ enumerationTail name) = false := by
  have noStar : .char '*' ∉ enumerationTail name :=
    not_mem_enumerationTail word (by decide) (by decide)
  have noSlash : .char '/' ∉ enumerationTail name :=
    not_mem_enumerationTail word (by decide) (by decide)
  obtain ⟨append, rests⟩ := leadingDoc?_append_enumeration word shut
  have noDoc : Comment.wholeDoc? (block ++ enumerationTail name) = none := by
    rw [Comment.wholeDoc?, append]
    cases doc : Comment.leadingDoc? block with
    | none => rfl
    | some result =>
      obtain ⟨inside, rest⟩ := result
      obtain ⟨c, others, rfl⟩ := List.exists_cons_of_ne_nil (rests inside rest doc).1.ne_nil
      rfl
  rw [needsMore, Bool.or_eq_false_iff] at complete
  rw [needsMore, Comment.leavesOpen_append_of_foreign noStar noSlash, complete.1, noDoc]
  rfl

theorem render_enumeration (bare : IsPlainEnumeration declaration) :
    declaration.render = Text.join ['\n'] (enumerationLines declaration.name) := by
  obtain ⟨kind, word, noComment⟩ := bare
  rw [render, noComment, bodyLines, kind, nameText_of_isIdentifier word, enumerationLines,
    enumerationHead, ← List.append_assoc]
  rfl

theorem of_mem_enumerationLines {name line : Text} (word : Text.isIdentifier name = true)
    (member : line ∈ enumerationLines name) :
    Text.SingleLine line ∧ startsDeclaration line = false := by
  rcases List.mem_cons.mp member with rfl | brace
  · exact ⟨singleLine_enumerationHead word, rfl⟩
  · obtain rfl := List.mem_singleton.mp brace
    exact ⟨by decide, by decide⟩

/-- An enumeration behind the text goes on its last block and adds nothing. -/
theorem Part.append_enumeration (part : Part text found) (takes : TakesEnumerations text)
    (bare : IsPlainEnumeration declaration) :
    Part (text ++ .char '\n' :: .char '\n' :: declaration.render) found ∧
      TakesEnumerations (text ++ .char '\n' :: .char '\n' :: declaration.render) := by
  have word := bare.2.1
  obtain ⟨merged, last, cut, -, append⟩ := exists_split_append part.ends
  have split_eq : split (text ++ .char '\n' :: .char '\n' :: declaration.render) =
      merged ++ [last ++ enumerationTail declaration.name] := by
    rw [render_enumeration bare]
    exact append _ "\x7d".toText rfl ⟨[], .char '\x7d', rfl, by decide, by decide⟩
      fun line => of_mem_enumerationLines word
  have here : (split text).getLast? = some last := by rw [cut, List.getLast?_concat]
  obtain ⟨final, onlyInterface⟩ := takes last here
  have same := read?_append_enumeration word final onlyInterface
  have ends := endsVisibly_behind (endsVisibly_render declaration) text
  refine ⟨⟨ends, ?_, fun block final => ?_⟩, fun block final => ?_⟩
  · have found_eq : (split text).filterMap read? = found := part.read
    rw [cut, List.filterMap_append] at found_eq
    show (split _).filterMap read? = _
    rw [split_eq, List.filterMap_append, ← found_eq, List.filterMap_cons, List.filterMap_cons, same]
  · rw [split_eq, List.getLast?_concat] at final
    obtain rfl := Option.some.inj final
    exact needsMore_append_enumeration word (shut_of_lastLine (takes last here).1)
      (part.complete last here)
  · rw [split_eq, List.getLast?_concat] at final
    obtain rfl := Option.some.inj final
    refine ⟨lastLine_append_enumeration _ last, ?_⟩
    rw [same]
    exact onlyInterface

theorem solid_enumeration (name : Text) :
    Text.Solid (Text.join ['\n'] (enumerationLines name)) := by
  refine Text.Solid.join ['\n'] (List.cons_ne_nil _ _) fun part here => ?_
  rcases List.mem_cons.mp here with rfl | last
  · exact solid_enumerationHead name
  · exact List.mem_singleton.mp last ▸ by decide

theorem lastLine_enumeration (name : Text) :
    LastLine "\x7d".toText (Text.join ['\n'] (enumerationLines name)) :=
  ⟨enumerationHead name ++ [.char '\n'], Text.join_cons_cons _ _ _ _, atLineStart_concat _⟩

theorem head?_enumeration (name : Text) :
    (Text.join ['\n'] (enumerationLines name)).head? = some (.char 'e') := rfl

/-- An enumeration alone is one block. -/
theorem split_enumeration {name : Text} (word : Text.isIdentifier name = true) :
    split (Text.join ['\n'] (enumerationLines name)) =
      [Text.join ['\n'] (enumerationLines name)] := by
  have inside : ∀ line ∈ enumerationLines name,
      Text.SingleLine line ∧ startsDeclaration line = false :=
    fun line => of_mem_enumerationLines word
  have brace : EndsVisibly "\x7d".toText := ⟨[], .char '\x7d', rfl, by decide, by decide⟩
  have known : Text.lines (Text.join ['\n'] (enumerationLines name)) = enumerationLines name :=
    Text.lines_join (fun line here => (inside line here).1)
      (by rw [enumerationLines, List.getLast?_cons_cons]; decide)
  have whole := blockLines_append _ (fun line here => (inside line here).2) [] []
  rw [List.append_nil, List.nil_append] at whole
  have alone : blockLines (enumerationLines name) [] = [enumerationLines name] :=
    blockLines_nil [enumerationHead name] brace
  rw [split_eq_merge, blockTexts, known, whole, alone, List.map_singleton,
    Text.trim_eq_self (solid_enumeration name).trimmed]
  rfl

/-- An enumeration is no supported declaration. -/
theorem read?_enumeration (name : Text) :
    read? (Text.join ['\n'] (enumerationLines name)) = none := by
  have noDoc : Comment.leadingDoc? (Text.join ['\n'] (enumerationLines name)) = none :=
    Comment.leadingDoc?_eq_none (by rw [head?_enumeration]; decide)
  have front : commentAndBody (Text.join ['\n'] (enumerationLines name)) =
      (none, Text.join ['\n'] (enumerationLines name)) := by
    rw [commentAndBody, Text.trim_eq_self (solid_enumeration name).trimmed, noDoc]
  have noInterface : Text.afterWord? "interface".toText
      (Text.join ['\n'] (enumerationLines name)) = none := Text.afterWord?_eq_none rfl
  have noAlias : Text.afterWord? "type".toText
      (Text.join ['\n'] (enumerationLines name)) = none := Text.afterWord?_eq_none rfl
  have noExport : afterExport (Text.join ['\n'] (enumerationLines name)) =
      Text.join ['\n'] (enumerationLines name) := by
    rw [afterExport, Text.afterWord?_eq_none rfl]
    rfl
  rw [read?_eq_body, front, dropTrailing_of_lastLine (lastLine_enumeration name), interface?,
    assigned?, noExport, noInterface, noAlias]
  rfl

theorem part_enumeration (bare : IsPlainEnumeration declaration) :
    Part declaration.render [] ∧ TakesEnumerations declaration.render := by
  have cut := split_enumeration bare.2.1
  rw [← render_enumeration bare] at cut
  have absent : read? declaration.render = none := by
    rw [render_enumeration bare, read?_enumeration]
  have only : ∀ last, (split declaration.render).getLast? = some last →
      last = Text.join ['\n'] (enumerationLines declaration.name) := by
    intro last here
    rw [cut] at here
    exact (Option.some.inj here).symm.trans (render_enumeration bare)
  refine ⟨⟨endsVisibly_render declaration, ?_, fun last here => ?_⟩, fun last here => ?_⟩
  · show (split _).filterMap read? = _
    rw [cut, List.filterMap_cons_none absent, List.filterMap_nil]
  · have noStar : .char '*' ∉ enumerationTail declaration.name :=
      not_mem_enumerationTail bare.2.1 (by decide) (by decide)
    have free := fun inside => noStar (List.mem_cons_of_mem _ (List.mem_cons_of_mem _ inside))
    rw [only last here, needsMore, Comment.wholeDoc?_eq_none (by rw [head?_enumeration]; decide),
      Comment.leavesOpen_of_lacks (Text.lacks_of_not_mem free)]
    rfl
  · rw [only last here, read?_enumeration]
    exact ⟨lastLine_enumeration _, fun other found => by cases found⟩

end Parts

section Run

/-- Whether no alias stands directly in front of an enumeration. -/
def keepsApart : List Declaration → Bool
  | first :: second :: rest =>
    !(first.kind == .type && second.kind == .enum) && keepsApart (second :: rest)
  | _ => true

/-- Whether a declaration is no enumeration. -/
def isSupported (declaration : Declaration) : Bool := declaration.kind != .enum

/-- A declaration that stands alone, or an enumeration without a comment. -/
def IsPart (declaration : Declaration) : Prop :=
  StandsAlone declaration ∨ IsPlainEnumeration declaration

variable {declaration : Declaration} {declarations : List Declaration} {text : Text}
  {found : List Declaration}

/-- Every further declaration is read, and every enumeration is skipped. -/
theorem part_followingText (parts : ∀ other ∈ declarations, IsPart other)
    (apart : keepsApart (declaration :: declarations) = true) (part : Part text found)
    (takes : declaration.kind ≠ .type → TakesEnumerations text) :
    Part (text ++ followingText declarations) (found ++ declarations.filter isSupported) := by
  induction declarations generalizing declaration text found with
  | nil =>
    rw [followingText, List.flatMap_nil, List.append_nil, List.filter_nil, List.append_nil]
    exact part
  | cons next rest ih =>
    have later : ∀ other ∈ rest, IsPart other :=
      fun other here => parts other (List.mem_cons_of_mem next here)
    rw [keepsApart, Bool.and_eq_true] at apart
    rw [append_followingText_cons]
    rcases parts next List.mem_cons_self with alone | bare
    · obtain ⟨longer, more⟩ := part.append_alone alone
      have supported : isSupported next = true := by
        rcases alone.kind with kind | kind <;> rw [isSupported, kind] <;> rfl
      have whole := ih later apart.2 longer fun other => more (alone.kind.resolve_right other)
      rwa [List.filter_cons_of_pos supported, List.append_cons found next]
    · have other : declaration.kind ≠ .type := by
        intro assigned
        have first := apart.1
        rw [assigned, bare.1] at first
        cases first
      have skipped : ¬isSupported next = true := by
        rw [isSupported, bare.1]
        decide
      obtain ⟨longer, more⟩ := part.append_enumeration (takes other) bare
      rw [List.filter_cons_of_neg skipped]
      exact ih later apart.2 longer fun _ => more

/-- Where no alias stands in front of an enumeration every other declaration is read. -/
theorem read_renderAll_eq_filter (parts : ∀ other ∈ declarations, IsPart other)
    (apart : keepsApart declarations = true) :
    read (renderAll declarations) = declarations.filter isSupported := by
  cases declarations with
  | nil => rfl
  | cons first rest =>
    have later : ∀ other ∈ rest, IsPart other :=
      fun other here => parts other (List.mem_cons_of_mem first here)
    rw [renderAll_cons_eq]
    rcases parts first List.mem_cons_self with alone | bare
    · have supported : isSupported first = true := by
        rcases alone.kind with kind | kind <;> rw [isSupported, kind] <;> rfl
      have whole := part_followingText later apart (readAs_of_standsAlone alone).part fun other =>
        takesEnumerations_render alone (alone.kind.resolve_right other)
      rw [List.filter_cons_of_pos supported]
      exact whole.read
    · have skipped : ¬isSupported first = true := by
        rw [isSupported, bare.1]
        decide
      obtain ⟨part, takes⟩ := part_enumeration bare
      rw [List.filter_cons_of_neg skipped]
      exact (part_followingText later apart part fun _ => takes).read

theorem keepsApart_of_isSupported
    (supported : ∀ other ∈ declarations, isSupported other = true) :
    keepsApart declarations = true := by
  induction declarations with
  | nil => rfl
  | cons first rest ih =>
    have later := ih fun other here => supported other (List.mem_cons_of_mem first here)
    cases rest with
    | nil => rfl
    | cons second rest =>
      have kind : (second.kind == .enum) = false := by
        simpa [isSupported] using supported second (by simp)
      rw [keepsApart, kind, later, Bool.and_false]
      rfl

/-- Enumerations disturb none of the declarations around them, as long as no alias stands directly
in front of one: the text is read as if they were left out, and every other declaration is found. -/
theorem read_renderAll_filter_isSupported (parts : ∀ other ∈ declarations, IsPart other)
    (apart : keepsApart declarations = true) :
    read (renderAll declarations) = read (renderAll (declarations.filter isSupported)) ∧
      read (renderAll (declarations.filter isSupported)) = declarations.filter isSupported := by
  have others : ∀ other ∈ declarations.filter isSupported, IsPart other :=
    fun other here => parts other ((List.mem_filter.mp here).1)
  have apart_others : keepsApart (declarations.filter isSupported) = true :=
    keepsApart_of_isSupported fun other here => (List.mem_filter.mp here).2
  have alone := read_renderAll_eq_filter others apart_others
  rw [List.filter_filter] at alone
  simp only [Bool.and_self] at alone
  exact ⟨(read_renderAll_eq_filter parts apart).trans alone.symm, alone⟩

theorem read_renderAll_filter_isSupported_between :
    let declarations : List Declaration :=
      [{ name := "Color".toText, kind := .enum },
       { name := "Order".toText, kind := .interface
         fields := [{ name := "id".toText, type := .primitive .string
                      comment := some "key".toText }]
         comment := some "An order.".toText },
       { name := "Shade".toText, kind := .enum },
       { name := "Tone".toText, kind := .enum },
       { name := "Key".toText, unionTypes := ["string".toText, "A & B".toText] },
       { name := "Empty".toText, kind := .interface },
       { name := "Last".toText, kind := .enum }]
    ((∀ declaration ∈ declarations, IsPart declaration) ∧ keepsApart declarations = true) ∧
      read (renderAll declarations) = read (renderAll (declarations.filter isSupported)) ∧
      read (renderAll (declarations.filter isSupported)) = declarations.filter isSupported := by
  intro declarations
  have parts : ∀ declaration ∈ declarations, IsPart declaration := by
    have known : ∀ declaration ∈ declarations,
        isCanonical declaration = true ∨ IsPlainEnumeration declaration := by decide
    exact fun declaration here => (known declaration here).imp_left standsAlone_of_isCanonical
  exact ⟨⟨parts, by decide⟩, read_renderAll_filter_isSupported parts (by decide)⟩

/-- An enumeration directly behind an alias becomes part of its right-hand side. -/
theorem read_renderAll_alias_enumeration :
    let key : Declaration := { name := "Key".toText, unionTypes := ["string".toText] }
    let color : Declaration := { name := "Color".toText, kind := .enum }
    isCanonical key = true ∧ IsPlainEnumeration color ∧
      read (renderAll [key, color]) =
        [{ key with unionTypes := ["string;\n\nenum Color \x7b\n\x7d".toText] }] ∧
      read (renderAll ([key, color].filter isSupported)) = [key] := by
  decide

end Run

end Batch

end SchemaBoard
