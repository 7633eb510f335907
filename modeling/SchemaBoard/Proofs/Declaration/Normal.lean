import SchemaBoard.Proofs.Declaration.Neighbours
import SchemaBoard.Proofs.Declaration.Operands
import SchemaBoard.Proofs.TypeExpr.Fixpoint

set_option autoImplicit false

/-!
Texts that are read, written and read once more. Types come back with the same text, comments as
they settle, and the operands of an alias as they are written. Main statement: if every declaration
of a text is tidy, its written form is written the same once it is read again, and no field and no
operand is lost.
-/
namespace SchemaBoard

open Text (SingleLine Solid OnlyFeeds)

namespace Member

def normal (member : Member) : Member := { member with type := TypeExpr.read member.type.render }

/-- Whether the type of a member can be written in a line and keeps its text there: every node of it
is stable, or it comes back as it is, as inline objects do, which are kept verbatim. -/
def isSteady (member : Member) : Bool :=
  decide (IsTypeText member.type.render) &&
    (TypeExpr.everywhere TypeExpr.isStableNode member.type || member.type.readsBack)

section Normal

variable {member : Member}

theorem isTypeText_of_isSteady (steady : member.isSteady = true) :
    IsTypeText member.type.render := by
  rw [isSteady, Bool.and_eq_true] at steady
  exact of_decide_eq_true steady.1

theorem render_type_normal (steady : member.isSteady = true) :
    member.normal.type.render = member.type.render := by
  rw [isSteady, Bool.and_eq_true, Bool.or_eq_true] at steady
  rcases steady.2 with stable | back
  · exact (TypeExpr.steady_clauses stable).comesBack_render.written
  · exact congrArg TypeExpr.render (eq_of_beq back)

theorem isWritable_normal (word : Text.isIdentifier member.name = true)
    (steady : member.isSteady = true) : member.normal.IsWritable := by
  have same := render_type_normal steady
  exact ⟨⟨word, same ▸ isTypeText_of_isSteady steady⟩, congrArg TypeExpr.read same⟩

theorem signature_normal (steady : member.isSteady = true) :
    member.normal.signature = member.signature := by
  rw [signature, signature, render_type_normal steady, normal]

end Normal

end Member

namespace Outline

/-- The declaration with the types that the written types of its members are read as. -/
def normal (declaration : Declaration) : Declaration :=
  { declaration with fields := declaration.fields.map Member.normal }

/-- Whether a declaration is written with members. -/
def listsFields (declaration : Declaration) : Bool :=
  declaration.kind == .interface || !declaration.fields.isEmpty

/-- Whether the bases of a record are words, the types of its members keep their text and no comment
in an interface begins with a star. -/
def isTidyRecord (declaration : Declaration) : Bool :=
  declaration.bases.all Text.isIdentifier && declaration.fields.all Member.isSteady &&
    (declaration.kind != .interface || declaration.fields.all fun member =>
      member.comment.all fun text => text.head? != some (.char '*'))

/-- The text of a declaration is one block that ends with its last character: no line behind the
first one starts a declaration, no doc comment stays open, and the last line has no line comment. -/
structure IsOneBlock (text : Text) : Prop where
  inside : ∀ line ∈ (Text.lines text).tail, Batch.startsDeclaration line = false
  closed : Comment.leavesOpen text = false
  outside : ¬Comment.LineTail text

instance (text : Text) : Decidable (IsOneBlock text) :=
  decidable_of_iff ((∀ line ∈ (Text.lines text).tail, Batch.startsDeclaration line = false) ∧
      Comment.leavesOpen text = false ∧ ¬Comment.LineTail text)
    ⟨fun ⟨inside, closed, outside⟩ => ⟨inside, closed, outside⟩,
      fun ⟨inside, closed, outside⟩ => ⟨inside, closed, outside⟩⟩

/-- Whether an alias keeps its operator and is written as one block. -/
def isTidyAlias (declaration : Declaration) : Bool :=
  keepsOperator declaration &&
    decide (IsOneBlock (aliasText declaration.name (aliasRoot declaration)))

/-- Whether a declaration that was read can be read again from its written form. What cannot: bases
that are no words, types and comments that change on their way, operators that are not the outermost
ones any more, and aliases that are cut by what stands inside their own text. -/
def isTidy (declaration : Declaration) : Bool :=
  if listsFields declaration then isTidyRecord declaration else isTidyAlias declaration

def reread (declaration : Declaration) : Declaration :=
  if listsFields declaration then (normal declaration).settled
  else { declaration.regained with comment := settledHeader declaration.comment }

/-- What a declaration says besides its comments: its members by their signatures, and its operands
whatever joins them. -/
def content (declaration : Declaration) : Outline Text :=
  { declaration.map Member.signature with
    unionTypes := if listsFields declaration then [] else declaration.operands
    intersectionTypes := []
    comment := none }

section Written

variable {declaration : Declaration}

/-- Declarations that differ in what is not written of their fields have the same lines. -/
theorem bodyLines_with_fields {fields : List Member} {comment : Option Text}
    (signatures : fields.map Member.signature = declaration.fields.map Member.signature)
    (lines : declaration.kind = .interface →
      fields.map memberLines = declaration.fields.map memberLines) :
    bodyLines { declaration with fields := fields, comment := comment } =
      declaration.bodyLines := by
  have empty : fields.isEmpty = declaration.fields.isEmpty := by
    have count := congrArg List.isEmpty signatures
    rwa [List.isEmpty_map, List.isEmpty_map] at count
  have root : aliasRoot { declaration with fields := fields, comment := comment } =
      aliasRoot declaration := by
    rw [aliasRoot, aliasRoot, inlineObject, inlineObject, signatures, empty]
  rw [bodyLines, bodyLines, root]
  cases kind : declaration.kind with
  | interface => simp only [List.flatMap_def, lines kind]
  | type | enum | synonym => rfl

theorem memberLines_eq_of_signature {one other : Member}
    (signature : one.signature = other.signature)
    (comment : memberCommentLines one.comment = memberCommentLines other.comment) :
    memberLines one = memberLines other := by
  rw [memberLines, memberLines, comment, Member.render, Member.render, signature]

theorem map_signature_normal
    (steady : ∀ member ∈ declaration.fields, member.isSteady = true) :
    (normal declaration).fields.map Member.signature =
      declaration.fields.map Member.signature := by
  rw [normal, List.map_map]
  exact List.map_congr_left fun member here => Member.signature_normal (steady member here)

theorem map_signature_settled (declaration : Declaration) :
    declaration.settled.fields.map Member.signature = declaration.fields.map Member.signature := by
  rw [settled, List.map_map]
  refine List.map_congr_left fun member _ => ?_
  rw [Function.comp_apply]
  split <;> rfl

theorem render_normal (steady : ∀ member ∈ declaration.fields, member.isSteady = true) :
    (normal declaration).render = declaration.render := by
  have body : (normal declaration).bodyLines = declaration.bodyLines := by
    refine bodyLines_with_fields (map_signature_normal steady) fun _ => ?_
    rw [List.map_map]
    refine List.map_congr_left fun member here => ?_
    exact memberLines_eq_of_signature (Member.signature_normal (steady member here)) rfl
  rw [render, render, body]
  rfl

/-- Trimmed comments are written as they settle. -/
theorem render_settled (trimmed : ∀ text, declaration.comment = some text → Text.Trimmed text)
    (notes : declaration.kind = .interface → ∀ member ∈ declaration.fields,
      memberCommentLines (settledNote member.comment) = memberCommentLines member.comment) :
    declaration.settled.render = declaration.render := by
  have body : declaration.settled.bodyLines = declaration.bodyLines := by
    refine bodyLines_with_fields (map_signature_settled declaration) fun kind => ?_
    rw [if_pos kind, List.map_map]
    refine List.map_congr_left fun member here => ?_
    exact memberLines_eq_of_signature rfl (notes kind member here)
  rw [render, render, body]
  exact congrArg (fun header => Text.join ['\n'] (header ++ declaration.bodyLines))
    (headerLines_settledHeader trimmed)

end Written

section Record

variable {declaration : Declaration}

theorem IsFound.parts (found : declaration.IsFound) :
    (declaration.kind = .interface ∧ declaration.unionTypes = [] ∧
      declaration.intersectionTypes = []) ∨
    (declaration.kind = .type ∧ declaration.bases = [] ∧ (declaration.fields ≠ [] →
      declaration.unionTypes = [] ∧ declaration.intersectionTypes = [])) := by
  obtain interface | ⟨root, -, -, whole⟩ := found.form
  · exact Or.inl interface
  · obtain ⟨-, kind, bases, -⟩ := ofRightHandSide_parts declaration.name root
    refine Or.inr ⟨by rw [whole]; exact kind, by rw [whole]; exact bases, fun some => ?_⟩
    rw [whole] at some ⊢
    rcases ofRightHandSide_cases declaration.name root with ⟨inside, -, eq⟩ | ⟨-, eq⟩ | ⟨-, eq⟩ |
      ⟨-, eq⟩ <;> rw [eq] at some ⊢
    · exact ⟨rfl, rfl⟩
    all_goals exact absurd rfl some

theorem listsFields_iff : listsFields declaration = true ↔
    declaration.kind = .interface ∨ declaration.fields ≠ [] := by
  simp [listsFields]

theorem tidyRecord_iff : isTidyRecord declaration = true ↔
    (∀ base ∈ declaration.bases, Text.isIdentifier base = true) ∧
      (∀ member ∈ declaration.fields, member.isSteady = true) ∧
      (declaration.kind = .interface → ∀ member ∈ declaration.fields, ∀ text,
        member.comment = some text → text.head? ≠ some (.char '*')) := by
  have notes : ∀ comment : Option Text,
      comment.all (fun text => text.head? != some (.char '*')) = true ↔
        ∀ text, comment = some text → text.head? ≠ some (.char '*') := by
    intro comment
    cases comment with
    | none => simp
    | some text => simp
  simp only [isTidyRecord, Bool.and_eq_true, Bool.or_eq_true, List.all_eq_true, notes,
    bne_iff_ne, and_assoc]
  refine and_congr_right fun _ => and_congr_right fun _ => ?_
  exact ⟨fun either kind => either.resolve_left fun other => other kind,
    fun only => Decidable.or_iff_not_imp_left.mpr fun same => only (Decidable.not_not.mp same)⟩

theorem comesBack_normal (found : declaration.IsFound) (lists : listsFields declaration = true)
    (tidy : isTidyRecord declaration = true) : ComesBack (normal declaration) := by
  obtain ⟨words, steady, -⟩ := tidyRecord_iff.mp tidy
  have members : ∀ member ∈ (normal declaration).fields, member.IsWritable := by
    intro member here
    obtain ⟨source, inside, rfl⟩ := List.mem_map.mp here
    exact Member.isWritable_normal (found.fields source inside).word (steady source inside)
  rcases found.parts with ⟨kind, union, intersection⟩ | ⟨kind, bases, others⟩
  · exact comesBack_interface ⟨kind, found.word, words, members, union, intersection⟩
  · have some : declaration.fields ≠ [] := by
      refine (listsFields_iff.mp lists).resolve_left ?_
      rw [kind]
      decide
    obtain ⟨union, intersection⟩ := others some
    have nonempty : (normal declaration).fields ≠ [] := by simpa [normal] using some
    exact comesBack_object ⟨kind, found.word, nonempty, members, bases, union, intersection⟩

theorem render_settled_normal (found : declaration.IsFound)
    (tidy : isTidyRecord declaration = true) :
    (normal declaration).settled.render = declaration.render := by
  obtain ⟨-, steady, stars⟩ := tidyRecord_iff.mp tidy
  rw [← render_normal steady]
  refine render_settled found.comment fun kind member here => ?_
  obtain ⟨source, inside, rfl⟩ := List.mem_map.mp here
  exact memberCommentLines_settledNote (found.fields source inside).comment
    (stars kind source inside)

end Record

end Outline

namespace Batch

open Outline

section Alone

variable {declaration : Declaration}

theorem readAs_of_comesBack (back : ComesBack declaration)
    (word : Text.isIdentifier declaration.name = true)
    (kind : declaration.kind = .interface ∨ declaration.kind = .type) :
    ReadAs declaration declaration.settled := by
  have only : ∀ other ∈ [declaration], ComesBack other :=
    fun other member => List.mem_singleton.mp member ▸ back
  have same : renderAll [declaration] = declaration.render := Text.join_singleton _ _
  have cut := split_renderAll fun other member => (only other member).body
  have found := read_renderAll_eq_map_settled only
  rw [same] at cut found
  refine ⟨word, kind, endsVisibly_render declaration, found, fun last final => ?_⟩
  rw [cut] at final
  rw [← Option.some.inj final]
  exact needsMore_render back.body.text

/-- A written declaration is one block if no line below its first one starts a declaration. -/
theorem split_render (feeds : ∀ line ∈ declaration.bodyLines, OnlyFeeds line)
    (sound : IsBodyText (Text.join ['\n'] declaration.bodyLines)) {start : Text} {rest : List Text}
    (lines : Text.lines (Text.join ['\n'] declaration.bodyLines) = start :: rest)
    (starts : startsDeclaration start = true)
    (inside : ∀ line ∈ rest, startsDeclaration line = false) :
    split declaration.render = [declaration.render] := by
  have header : ∀ line ∈ headerLines declaration.comment, SingleLine line :=
    fun line => singleLine_of_mem_headerLines
  have whole : Text.lines declaration.render =
      headerLines declaration.comment ++ start :: rest := by
    rw [render, Text.lines_join_append header (bodyLines_ne_nil declaration), lines]
  obtain ⟨front, last, cut, ends⟩ := (endsVisibly_render declaration).exists_last_line
  have joined : Text.join ['\n'] (Text.lines declaration.render) = declaration.render := by
    obtain ⟨c, final, visible, -⟩ := Comment.endsVisibly_iff.mp (endsVisibly_render declaration)
    refine Text.join_lines_of_onlyFeeds ?_ final (Text.isLineBreak_of_not_blank visible)
    refine OnlyFeeds.join (fun c here _ => List.mem_singleton.mp here) fun line here => ?_
    rcases List.mem_append.mp here with above | below
    · exact (header line above).onlyFeeds
    · exact feeds line below
  have growing : blockLines [] (Text.lines declaration.render) =
      [Text.lines declaration.render] := by
    have behind := blockLines_append rest inside (headerLines declaration.comment ++ [start]) []
    rw [List.append_nil, List.append_assoc, List.singleton_append, ← whole] at behind
    rw [whole, blockLines_comment_start (Or.inl rfl) _ starts, behind, cut, blockLines_nil _ ends,
      ← cut, whole]
    rfl
  rw [split_eq_merge, blockTexts, growing, List.map_singleton, joined,
    Text.trim_eq_self (solid_render sound).trimmed]
  rfl

theorem isBodyText_aliasText {name root : Text} (block : IsOneBlock (aliasText name root)) :
    IsBodyText (aliasText name root) where
  head := ⟨.char 't', rfl, by decide⟩
  ends := endsVisibly_aliasText
  closed := block.closed

theorem onlyFeeds_aliasText {name root : Text} (word : Text.isIdentifier name = true)
    (feeds : OnlyFeeds root) : OnlyFeeds (aliasText name root) := by
  have keyword : OnlyFeeds "type ".toText := SingleLine.onlyFeeds (by decide)
  have equals : OnlyFeeds " = ".toText := SingleLine.onlyFeeds (by decide)
  have semicolon : OnlyFeeds [.char ';'] := SingleLine.onlyFeeds (by decide)
  have declared := (Text.singleLine_identifier word).onlyFeeds
  exact keyword.append (((declared.append equals).append feeds).append semicolon)

/-- An alias that is written as one block is read as what its right-hand side says. -/
theorem readAs_alias (word : Text.isIdentifier declaration.name = true)
    (kind : declaration.kind = .type) (solid : Solid (aliasRoot declaration))
    (feeds : OnlyFeeds (aliasRoot declaration))
    (block : IsOneBlock (aliasText declaration.name (aliasRoot declaration))) :
    ReadAs declaration { ofRightHandSide declaration.name (aliasRoot declaration) with
      comment := settledHeader declaration.comment } := by
  have lines := bodyLines_alias kind word
  have body : Text.join ['\n'] declaration.bodyLines =
      aliasText declaration.name (aliasRoot declaration) := by
    rw [lines, Text.join_singleton]
  have sound : IsBodyText (Text.join ['\n'] declaration.bodyLines) :=
    body ▸ isBodyText_aliasText block
  obtain ⟨start, rest, eq, starts⟩ := exists_start_bodyLines word (Or.inr kind)
  have inside := block.inside
  rw [← body, eq] at inside
  have only : ∀ line ∈ declaration.bodyLines, OnlyFeeds line := by
    intro line here
    rw [lines] at here
    exact List.mem_singleton.mp here ▸ onlyFeeds_aliasText word feeds
  have cut := split_render only sound eq starts inside
  refine ⟨word, Or.inr kind, endsVisibly_render declaration, ?_, fun last final => ?_⟩
  · have found := read?_render sound (body ▸ block.outside)
    rw [body, interface?_aliasText, assigned?_aliasText word solid, Option.none_or] at found
    show (split declaration.render).filterMap read? = _
    rw [cut, List.filterMap_cons_some found]
    rfl
  · rw [cut] at final
    rw [← Option.some.inj final]
    exact needsMore_render sound

theorem readAs_record (found : declaration.IsFound) (lists : listsFields declaration = true)
    (tidy : isTidyRecord declaration = true) :
    ReadAs declaration (normal declaration).settled := by
  have kind := found.parts.imp And.left And.left
  have back := readAs_of_comesBack (comesBack_normal found lists tidy) found.word kind
  obtain ⟨-, steady, -⟩ := tidyRecord_iff.mp tidy
  exact ⟨found.word, kind, render_normal steady ▸ back.part⟩

/-- A tidy declaration is a record, or an alias of operands. -/
theorem tidy_cases (found : declaration.IsFound) (tidy : isTidy declaration = true) :
    (listsFields declaration = true ∧ isTidyRecord declaration = true ∧
      declaration.reread = (normal declaration).settled) ∨
    (listsFields declaration = false ∧ isTidyAlias declaration = true ∧
      (declaration.kind = .type ∧ declaration.bases = [] ∧ declaration.fields = []) ∧
      AreOperands declaration.operator declaration.operands ∧ declaration.reread =
        { declaration.regained with comment := settledHeader declaration.comment }) := by
  rw [isTidy] at tidy
  rw [reread]
  cases lists : listsFields declaration with
  | true =>
    rw [lists, if_pos rfl] at tidy
    exact Or.inl ⟨rfl, tidy, if_pos rfl⟩
  | false =>
    rw [lists, if_neg Bool.false_ne_true] at tidy
    obtain ⟨other, noFields⟩ : declaration.kind ≠ .interface ∧ declaration.fields = [] := by
      simpa [listsFields] using lists
    obtain ⟨kind, bases, -⟩ := found.parts.resolve_left fun interface => other interface.1
    exact Or.inr ⟨rfl, tidy, ⟨kind, bases, noFields⟩, found.areOperands kind,
      if_neg Bool.false_ne_true⟩

/-- Whatever is tidy is read as what it is written with. -/
theorem readAs_reread (found : declaration.IsFound) (tidy : isTidy declaration = true) :
    ReadAs declaration declaration.reread := by
  rcases tidy_cases found tidy with ⟨lists, record, eq⟩ |
    ⟨-, oneBlock, ⟨kind, -, noFields⟩, known, eq⟩
  · rw [eq]
    exact readAs_record found lists record
  · rw [isTidyAlias, Bool.and_eq_true, decide_eq_true_eq] at oneBlock
    have back := readAs_alias found.word kind (known.solid_aliasRoot noFields)
      (known.onlyFeeds_aliasRoot noFields) oneBlock.2
    rw [ofRightHandSide_aliasRoot known noFields oneBlock.1] at back
    rwa [eq]

theorem render_reread (found : declaration.IsFound) (tidy : isTidy declaration = true) :
    declaration.reread.render = declaration.render := by
  rcases tidy_cases found tidy with ⟨-, record, eq⟩ | ⟨-, -, ⟨kind, -, noFields⟩, known, eq⟩
  · rw [eq, render_settled_normal found record]
  · obtain ⟨name, sort, -⟩ := regained_parts declaration
    have body : declaration.reread.bodyLines = declaration.bodyLines := by
      have root := (aliasRoot_regained known noFields).2
      have word := found.word
      rw [← name] at word
      have lines := bodyLines_alias sort word
      rw [root, name] at lines
      rw [eq, bodyLines_alias kind found.word]
      exact lines
    rw [render, render, body, eq]
    exact congrArg (fun header => Text.join ['\n'] (header ++ declaration.bodyLines))
      (headerLines_settledHeader found.comment)

theorem content_reread (found : declaration.IsFound) (tidy : isTidy declaration = true) :
    declaration.reread.content = declaration.content := by
  rcases tidy_cases found tidy with ⟨lists, record, eq⟩ |
    ⟨lists, -, ⟨kind, bases, noFields⟩, known, eq⟩
  · obtain ⟨-, steady, -⟩ := tidyRecord_iff.mp record
    have fields : (normal declaration).settled.fields.map Member.signature =
        declaration.fields.map Member.signature :=
      (map_signature_settled _).trans (map_signature_normal steady)
    have same : listsFields (normal declaration).settled = true := by
      rw [← lists, listsFields, listsFields, settled, normal, List.isEmpty_map, List.isEmpty_map]
    rw [eq, content, content, same, lists, Outline.map, Outline.map, fields]
    rfl
  · obtain ⟨name, sort, noBases, none⟩ := regained_parts declaration
    have operands := (aliasRoot_regained known noFields).1
    have same : listsFields declaration.regained = false := by
      rw [listsFields, sort, none]
      rfl
    have regained_eq : declaration.regained.content = declaration.content := by
      rw [content, content, same, lists, Outline.map, Outline.map, name, sort, noBases, none, kind,
        bases, noFields, operands]
    rw [eq, ← regained_eq]
    rfl

end Alone

variable {text : Text}

/-- The text of what was read stays as it is when it is read and written again, as long as every
declaration in it is tidy; no declaration, field or operand is lost. -/
theorem renderAll_read_renderAll (tidy : ∀ declaration ∈ read text, isTidy declaration = true) :
    renderAll (read (renderAll (read text))) = renderAll (read text) ∧
      (read (renderAll (read text))).map content = (read text).map content := by
  have back : read (renderAll (read text)) = (read text).map reread :=
    read_renderAll_of_readAs fun declaration here =>
      readAs_reread (isFound_of_mem_read here) (tidy declaration here)
  rw [back]
  constructor
  · rw [renderAll, renderAll, List.map_map]
    refine congrArg _ (List.map_congr_left fun declaration here => ?_)
    exact render_reread (isFound_of_mem_read here) (tidy declaration here)
  · rw [List.map_map]
    exact List.map_congr_left fun declaration here =>
      content_reread (isFound_of_mem_read here) (tidy declaration here)

/-- An alias over several lines, types that are read as others once they are written, and an inline
object that is kept verbatim. -/
theorem renderAll_read_renderAll_key :
    let text := ("/** Keys. */\ntype Key =\n  | string\n  | Map<A,\n    B>; // keys\n".toText ++
      "interface Order extends Key \x7b\n  /** all */\n  of?: (A | (B|404))[]\n".toText ++
      "  by: \x7b c: string[]; d: E \x7d;\n\x7d\n".toText ++
      "type Box = \x7b a: Map<K> \x7d".toText)
    (∀ declaration ∈ read text, isTidy declaration = true) ∧
      renderAll (read (renderAll (read text))) = renderAll (read text) ∧
      (read (renderAll (read text))).map content = (read text).map content := by
  intro text
  have tidy : ∀ declaration ∈ read text, isTidy declaration = true := by decide +kernel
  exact ⟨tidy, renderAll_read_renderAll tidy⟩

/-- A comment inside an alias comes to stand on the only line of its written form, where the operand
behind it is lost. -/
theorem renderAll_read_renderAll_line_comment :
    let text := "type A = string // c\n| number;".toText
    renderAll (read text) = "type A = string // c | number;".toText ∧
      renderAll (read (renderAll (read text))) = "type A = string;".toText := by
  decide

end Batch

end SchemaBoard
