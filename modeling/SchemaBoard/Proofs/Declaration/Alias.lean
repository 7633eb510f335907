import SchemaBoard.Proofs.Declaration.Interface

set_option autoImplicit false

/-!
Written type aliases. Main statements: an alias of an inline object is read back with its members
but without their comments, and an alias of some other type with the texts of its operands.
-/
namespace SchemaBoard

open Text (Brackets SingleLine Lacks Solid)

namespace Text

/-- A brace that is closed in front of the end is not the outermost one. -/
theorem beforeLastCloser?_eq_none {inside rest : Text} (more : rest ≠ []) {depth : Nat}
    (closes : Brackets.braces.levelBehind? [] (depth + 1) inside = some 0) :
    beforeLastCloser? '{' '}' (depth + 1) (inside ++ rest) = none := by
  induction inside generalizing depth with
  | nil => cases Option.some.inj closes
  | cons c inside ih =>
    obtain ⟨-, later⟩ := levelBehind?_cons.mp closes
    rw [List.cons_append, beforeLastCloser?]
    by_cases opens : c = .char '{'
    · have deeper : Brackets.braces.depthAfter (depth + 1) c = depth + 1 + 1 := by
        rw [opens]
        rfl
      rw [deeper] at later
      rw [if_pos opens, ih later]
      rfl
    · by_cases shuts : c = .char '}'
      · have back : Brackets.braces.depthAfter (depth + 1) c = depth := by
          rw [shuts]
          rfl
        rw [back] at later
        rw [if_neg opens, if_pos shuts]
        by_cases outermost : depth + 1 ≤ 1
        · rw [if_pos outermost, if_neg (by simp [more])]
        · obtain ⟨below, rfl⟩ : ∃ below, depth = below + 1 := ⟨depth - 1, by omega⟩
          rw [if_neg outermost, Nat.add_sub_cancel, ih later]
          rfl
      · have same : Brackets.braces.depthAfter (depth + 1) c = depth + 1 := by
          simp [Brackets.depthAfter, Brackets.braces, opens, shuts]
        rw [same] at later
        rw [if_neg opens, if_neg shuts, ih later]
        rfl

/-- A text that goes on behind nested braces is not wrapped in them. -/
theorem unwrap?_append_eq_none {first rest : Text} (nested : Brackets.braces.Seals [] first)
    (some : first ≠ []) (more : rest ≠ []) : unwrap? '{' '}' (first ++ rest) = none := by
  obtain ⟨c, inside, rfl⟩ := List.exists_cons_of_ne_nil some
  rw [List.cons_append, unwrap?]
  by_cases opens : c = .char '{'
  · subst opens
    rw [if_pos rfl]
    exact beforeLastCloser?_eq_none more (levelBehind?_cons.mp nested).2
  · rw [if_neg opens]

end Text

namespace Outline

/-- A right-hand side that stays on its line and holds no comment. -/
structure IsRoot (root : Text) : Prop where
  solid : Solid root
  single : SingleLine root
  noLine : Lacks ['/', '/'] root
  noBlock : Lacks ['/', '*'] root

section Root

variable {name root : Text}

def aliasText (name root : Text) : Text :=
  "type ".toText ++ (name ++ " = ".toText ++ root ++ [.char ';'])

theorem bodyLines_of_alias {declaration : Declaration}
    (kind : declaration.kind = .type ∨ declaration.kind = .synonym) :
    declaration.bodyLines = [aliasText (nameText declaration.name) (aliasRoot declaration)] := by
  rcases kind with kind | kind
  all_goals
    rw [bodyLines, kind, aliasText]
    simp only [List.append_assoc]

theorem endsVisibly_aliasText : Comment.EndsVisibly (aliasText name root) :=
  ⟨"type ".toText ++ (name ++ " = ".toText ++ root), .char ';', by
    rw [aliasText]
    simp only [List.append_assoc], by decide, by decide⟩

theorem lacks_aliasText {first second : CodePoint} (word : Text.isIdentifier name = true)
    (free : Lacks [first, second] root)
    (foreign : first ≠ ' ' ∧ second ∉ "type = ;".toText ∧ Text.isIdentifierPart second = false) :
    Lacks [first, second] (aliasText name root) := by
  have front : Lacks [first, second] ("type ".toText ++ (name ++ " = ".toText)) := by
    apply Text.lacks_of_not_mem
    intro inside
    have wider : (∀ c ∈ "type ".toText, c ∈ "type = ;".toText) ∧
        ∀ c ∈ " = ".toText, c ∈ "type = ;".toText := by decide
    rcases List.mem_append.mp inside with keyword | inside
    · exact foreign.2.1 (wider.1 second keyword)
    · rcases List.mem_append.mp inside with here | equals
      · exact Text.not_mem_identifier word foreign.2.2 here
      · exact foreign.2.1 (wider.2 second equals)
  have whole : aliasText name root =
      ("type ".toText ++ (name ++ " = ".toText)) ++ (root ++ [.char ';']) := by
    rw [aliasText]
    simp only [List.append_assoc]
  have last : ("type ".toText ++ (name ++ " = ".toText)).getLast? = some (.char ' ') := by
    rw [← List.append_assoc, List.getLast?_append]
    rfl
  have semicolon : Lacks [first, second] [.char ';'] := by
    apply Text.lacks_of_not_mem
    intro inside
    obtain rfl := List.mem_singleton.mp inside
    exact foreign.2.1 (by decide)
  rw [whole]
  refine front.append (free.append semicolon fun _ head => ?_) fun same => ?_
  · obtain rfl := Option.some.inj head
    exact foreign.2.1 (by decide)
  · rw [last] at same
    exact absurd (Option.some.inj same).symm foreign.1

theorem singleLine_aliasText (word : Text.isIdentifier name = true) (single : SingleLine root) :
    SingleLine (aliasText name root) :=
  Text.SingleLine.append (by decide) ((((Text.singleLine_identifier word).append (by decide)).append
    single).append (by decide))

theorem startsDeclaration_type {name : Text} (word : Text.isIdentifier name = true)
    (rest : Text) : Batch.startsDeclaration ("type ".toText ++ (name ++ rest)) = true := by
  have found : Text.afterWord? "type".toText ("type ".toText ++ (name ++ rest)) =
      some (name ++ rest) := afterWord?_keyword word rest
  have start : Text.trimStart ("type ".toText ++ (name ++ rest)) =
      "type ".toText ++ (name ++ rest) := rfl
  have noInterface : Text.afterWord? "interface".toText ("type ".toText ++ (name ++ rest)) = none :=
    Text.afterWord?_eq_none rfl
  obtain ⟨first, others, rfl, starts, -⟩ := Text.isIdentifier_iff.mp word
  rw [Batch.startsDeclaration, start, afterExport_of_other rfl, noInterface, found]
  exact starts

theorem startsDeclaration_aliasText (word : Text.isIdentifier name = true) :
    Batch.startsDeclaration (aliasText name root) = true := by
  rw [aliasText, List.append_assoc name, List.append_assoc name]
  exact startsDeclaration_type word _

theorem isBody_aliasText (word : Text.isIdentifier name = true) (sound : IsRoot root) :
    IsBody [aliasText name root] where
  starts := ⟨aliasText name root, [], rfl, startsDeclaration_aliasText word,
    ⟨.char 't', rfl, by decide⟩, by simp⟩
  single := by
    intro line here
    obtain rfl := List.mem_singleton.mp here
    exact singleLine_aliasText word sound.single
  ends := ⟨[], aliasText name root, rfl, endsVisibly_aliasText⟩
  closed := by
    rw [Text.join_singleton]
    exact Comment.leavesOpen_of_lacks
      (lacks_aliasText word sound.noBlock ⟨by decide, by decide, by decide⟩)

theorem not_lineTail_aliasText (word : Text.isIdentifier name = true) (sound : IsRoot root) :
    ¬Comment.LineTail (aliasText name root) :=
  Comment.not_lineTail_of_lacks
    (lacks_aliasText word sound.noLine ⟨by decide, by decide, by decide⟩)

/-- Behind the name of an alias stands its right-hand side, up to a final semicolon. -/
theorem assigned?_of_root (word : Text.isIdentifier name = true) (solid : Solid root) {final : Text}
    (closed : Solid (root ++ final)) (dropped : Text.dropFinal ';' (root ++ final) = root) :
    assigned? ("type ".toText ++ (name ++ (" = ".toText ++ (root ++ final)))) =
      some (ofRightHandSide name root) := by
  have found : Text.afterWord? "type".toText
      ("type ".toText ++ (name ++ (" = ".toText ++ (root ++ final)))) =
        some (name ++ (" = ".toText ++ (root ++ final))) := afterWord?_keyword word _
  have boundary : ∀ c, (" = ".toText ++ (root ++ final)).head? = some c →
      Text.isIdentifierPart c = false := by
    intro c head
    obtain rfl : .char ' ' = c := Option.some.inj head
    decide
  have equals : Text.trimStart (" = ".toText ++ (root ++ final)) =
      .char '=' :: .char ' ' :: (root ++ final) := rfl
  have trimmed : Text.trim (.char ' ' :: (root ++ final)) = root ++ final :=
    (Text.trim_blank_append (by decide : Text.allBlank [.char ' '] = true) _).trans
      (Text.trim_eq_self closed.trimmed)
  have some : root.isEmpty = false := by simpa using solid.nonempty
  rw [assigned?, afterExport_of_other rfl, found, Option.bind_some,
    Text.identifier?_append_of_boundary word boundary]
  simp only [equals, trimmed, dropped, Text.trim_eq_self solid.trimmed, some, Bool.false_eq_true,
    if_false]

/-- An alias is read as its name and its right-hand side. -/
theorem assigned?_aliasText (word : Text.isIdentifier name = true) (solid : Solid root) :
    assigned? (aliasText name root) = some (ofRightHandSide name root) := by
  rw [aliasText, List.append_assoc name, List.append_assoc name]
  exact assigned?_of_root word solid (solid.append (by decide)) (Text.dropFinal_concat ';' root)

theorem interface?_type (rest : Text) : interface? ("type ".toText ++ rest) = none := by
  have absent : Text.afterWord? "interface".toText ("type ".toText ++ rest) = none :=
    Text.afterWord?_eq_none rfl
  rw [interface?, afterExport_of_other rfl, absent]
  rfl

theorem interface?_aliasText : interface? (aliasText name root) = none := interface?_type _

end Root

/-- Whether the declaration is an alias of an object type with regular members, and of nothing
else. -/
def isRegularObject (declaration : Declaration) : Bool :=
  declaration.kind == .type && Text.isIdentifier declaration.name &&
    !declaration.fields.isEmpty && declaration.fields.all Member.isRegular &&
    declaration.bases.isEmpty && declaration.unionTypes.isEmpty &&
    declaration.intersectionTypes.isEmpty

/-- Whether a text is solid, stays on its line, holds no comment, and keeps some characters inside
of its brackets. -/
def isOperandText (barred text : Text) : Bool :=
  decide (Solid text) && decide (SingleLine text) && decide (Lacks ['/', '/'] text) &&
    decide (Lacks ['/', '*'] text) && decide (Brackets.plain.Seals barred text)

/-- Whether texts can be the members of a union: several operands of a union with nested braces, or
one operand of neither operator that is no object type. -/
def isUnionOf (texts : List Text) : Bool :=
  match texts with
  | [] => false
  | [text] => isOperandText ['|', '&'] text && (Text.unwrap? '{' '}' text).isNone
  | several => several.all fun text =>
      isOperandText ['|'] text && decide (Brackets.braces.Seals [] text)

/-- Whether texts can be the members of an intersection: several operands of it with nested
braces. -/
def isIntersectionOf (texts : List Text) : Bool :=
  1 < texts.length && texts.all fun text =>
    isOperandText ['|', '&'] text && decide (Brackets.braces.Seals [] text)

/-- Whether the declaration is an alias of a union or of an intersection, and of nothing else. -/
def isRegularAlias (declaration : Declaration) : Bool :=
  declaration.kind == .type && Text.isIdentifier declaration.name &&
    declaration.fields.isEmpty && declaration.bases.isEmpty &&
    ((isUnionOf declaration.unionTypes && declaration.intersectionTypes.isEmpty) ||
      (declaration.unionTypes.isEmpty && isIntersectionOf declaration.intersectionTypes))

theorem regularObject_iff {declaration : Declaration} : isRegularObject declaration = true ↔
    declaration.kind = .type ∧ Text.isIdentifier declaration.name = true ∧
      declaration.fields ≠ [] ∧ (∀ member ∈ declaration.fields, member.isRegular = true) ∧
      declaration.bases = [] ∧ declaration.unionTypes = [] ∧
      declaration.intersectionTypes = [] := by
  simp [isRegularObject, and_assoc]

theorem regularAlias_iff {declaration : Declaration} : isRegularAlias declaration = true ↔
    declaration.kind = .type ∧ Text.isIdentifier declaration.name = true ∧
      declaration.fields = [] ∧ declaration.bases = [] ∧
      (isUnionOf declaration.unionTypes = true ∧ declaration.intersectionTypes = [] ∨
        declaration.unionTypes = [] ∧ isIntersectionOf declaration.intersectionTypes = true) := by
  simp [isRegularAlias, and_assoc]

/-- An alias of an object type with writable members, and of nothing else. -/
structure IsWritableObject (declaration : Declaration) : Prop where
  kind : declaration.kind = .type
  word : Text.isIdentifier declaration.name = true
  some : declaration.fields ≠ []
  members : ∀ member ∈ declaration.fields, member.IsWritable
  noBases : declaration.bases = []
  noUnion : declaration.unionTypes = []
  noIntersection : declaration.intersectionTypes = []

theorem isWritableObject_of_regular {declaration : Declaration}
    (regular : isRegularObject declaration = true) : IsWritableObject declaration := by
  obtain ⟨kind, word, some, members, noBases, noUnion, noIntersection⟩ :=
    regularObject_iff.mp regular
  exact ⟨kind, word, some, fun member here => Member.isWritable_of_isRegular (members member here),
    noBases, noUnion, noIntersection⟩

section Operands

theorem isOperandText_iff {barred text : Text} : isOperandText barred text = true ↔
    IsRoot text ∧ Brackets.plain.Seals barred text := by
  simp only [isOperandText, Bool.and_eq_true, decide_eq_true_eq]
  constructor
  · rintro ⟨⟨⟨⟨solid, single⟩, noLine⟩, noBlock⟩, sealed⟩
    exact ⟨⟨solid, single, noLine, noBlock⟩, sealed⟩
  · rintro ⟨root, sealed⟩
    exact ⟨⟨⟨⟨root.solid, root.single⟩, root.noLine⟩, root.noBlock⟩, sealed⟩

variable {texts : List Text}

/-- Right-hand sides with an operator between them are one. -/
theorem IsRoot.join {separator : Text} (some : texts ≠ []) (roots : ∀ text ∈ texts, IsRoot text)
    (between : separator = " | ".toText ∨ separator = " & ".toText) :
    IsRoot (Text.join separator texts) where
  solid := Solid.join separator some fun text here => (roots text here).solid
  single := by
    intro c inside
    rcases Text.mem_join inside with here | ⟨text, member, here⟩
    · have plain : (∀ c ∈ " | ".toText, Text.isLineBreak c = false) ∧
          ∀ c ∈ " & ".toText, Text.isLineBreak c = false := by decide
      rcases between with rfl | rfl
      · exact plain.1 c here
      · exact plain.2 c here
    · exact (roots text member).single c here
  noLine := by
    have free := fun text here => (roots text here).noLine
    rcases between with rfl | rfl
    · exact Text.lacks_join (by decide) (by decide) (by decide) (by decide) free
    · exact Text.lacks_join (by decide) (by decide) (by decide) (by decide) free
  noBlock := by
    have free := fun text here => (roots text here).noBlock
    rcases between with rfl | rfl
    · exact Text.lacks_join (by decide) (by decide) (by decide) (by decide) free
    · exact Text.lacks_join (by decide) (by decide) (by decide) (by decide) free

theorem filter_solid (roots : ∀ text ∈ texts, IsRoot text) :
    texts.filter (fun text => !Text.allBlank text) = texts := by
  rw [List.filter_eq_self]
  intro text here
  obtain ⟨c, rest, rfl, visible⟩ := (roots text here).solid.exists_head
  simp [Text.allBlank, visible]

theorem splitTop_join (mark : CodePoint) (separator : Text) {barred : Text}
    (neutral : Brackets.plain.Neutral mark)
    (written : separator = [.char ' '] ++ mark :: [.char ' ']) (bars : mark ∈ barred)
    (valid : ∀ text ∈ texts, IsRoot text ∧ Brackets.plain.Seals barred text) :
    Text.splitTop [mark] (Text.join separator texts) = texts := by
  rw [written]
  refine Text.splitOutside_join neutral _ _ (by decide) (by decide) bars
    (fun text here => (valid text here).2) (fun text here => (valid text here).1.solid.trimmed) ?_
  intro empty
  exact (valid [] (List.mem_of_mem_getLast? empty)).1.solid.nonempty rfl

theorem unwrap?_join_eq_none (separator : Text) (several : 1 < texts.length)
    (nested : ∀ text ∈ texts, Brackets.braces.Seals [] text) (roots : ∀ text ∈ texts, IsRoot text)
    (visible : separator ≠ []) : Text.unwrap? '{' '}' (Text.join separator texts) = none := by
  match texts with
  | first :: second :: rest =>
    rw [Text.join_cons_cons, List.append_assoc]
    have some : first ≠ [] := (roots first (by simp)).solid.nonempty
    refine Text.unwrap?_append_eq_none (nested first (by simp)) some ?_
    simp [visible]

/-- Alternatives are read as such. -/
theorem ofRightHandSide_union (name : Text) (union : isUnionOf texts = true) :
    IsRoot (Text.join " | ".toText texts) ∧
      ofRightHandSide name (Text.join " | ".toText texts) =
        { name := name, unionTypes := texts } := by
  match texts with
  | [] => cases union
  | [text] =>
    simp only [isUnionOf, Bool.and_eq_true, Option.isNone_iff_eq_none, isOperandText_iff] at union
    obtain ⟨⟨root, sealed⟩, noObject⟩ := union
    have whole : ∀ mark : CodePoint, mark ∈ [CodePoint.char '|', .char '&'] →
        Brackets.plain.Neutral mark → Text.splitTop [mark] text = [text] :=
      fun mark bars neutral =>
        Text.splitOutside_of_seals neutral bars sealed root.solid.trimmed root.solid.nonempty
    rw [Text.join_singleton]
    refine ⟨root, ?_⟩
    rw [ofRightHandSide, noObject]
    simp only [whole '|' (by decide) (by decide), whole '&' (by decide) (by decide)]
    rfl
  | first :: second :: rest =>
    simp only [isUnionOf, List.all_eq_true, Bool.and_eq_true, decide_eq_true_eq,
      isOperandText_iff] at union
    have roots := fun text here => (union text here).1.1
    have noObject := unwrap?_join_eq_none " | ".toText (by simp)
      (fun text here => (union text here).2) roots (by decide)
    have cut := splitTop_join '|' " | ".toText (by decide) rfl (by simp)
      (fun text here => (union text here).1)
    refine ⟨IsRoot.join (List.cons_ne_nil _ _) roots (Or.inl rfl), ?_⟩
    rw [ofRightHandSide, noObject]
    simp only [cut]
    rfl

theorem ofRightHandSide_intersection (name : Text) (intersection : isIntersectionOf texts = true) :
    IsRoot (Text.join " & ".toText texts) ∧
      ofRightHandSide name (Text.join " & ".toText texts) =
        { name := name, intersectionTypes := texts } := by
  simp only [isIntersectionOf, Bool.and_eq_true, decide_eq_true_eq, List.all_eq_true,
    isOperandText_iff] at intersection
  obtain ⟨several, valid⟩ := intersection
  have some : texts ≠ [] := by
    rintro rfl
    cases several
  have roots := fun text here => (valid text here).1.1
  have root := IsRoot.join some roots (Or.inr rfl)
  have noObject := unwrap?_join_eq_none " & ".toText several
    (fun text here => (valid text here).2) roots (by decide)
  have cut := splitTop_join '&' " & ".toText (by decide) rfl (by simp)
    (fun text here => (valid text here).1)
  have sealed : Brackets.plain.Seals [.char '|'] (Text.join " & ".toText texts) := by
    refine Brackets.Seals.join (by decide) fun text here => ?_
    exact (valid text here).1.2.mono (by simp)
  have whole : Text.splitTop ['|'] (Text.join " & ".toText texts) =
      [Text.join " & ".toText texts] :=
    Text.splitOutside_of_seals (by decide) (by simp) sealed root.solid.trimmed root.solid.nonempty
  refine ⟨root, ?_⟩
  rw [ofRightHandSide, noObject]
  simp only [cut, whole, several, List.length_singleton, Nat.lt_irrefl, if_false, if_true]

end Operands

section WrittenTypes

variable {type : TypeExpr}

theorem isRoot_of_typeChars {text : Text} (solid : Solid text) (allowed : TypeExpr.TypeChars text) :
    IsRoot text where
  solid := solid
  single := allowed.singleLine
  noLine := Text.lacks_of_not_mem (allowed.not_mem (by decide))
  noBlock := Text.lacks_of_not_mem (allowed.not_mem (by decide))

/-- The written form of a canonical type over identifiers, in parentheses or not. -/
theorem isOperandText_parenthesize (needed : Bool) (barred : Text)
    (named : TypeExpr.everywhere TypeExpr.hasTypeName type = true)
    (canonical : TypeExpr.everywhere TypeExpr.isCanonicalNode type = true)
    (structuring : barred ⊆ TypeExpr.marks) (sealed : needed = false → barred ⊆ type.sealedMarks) :
    isOperandText barred (Text.parenthesize needed type.render) = true ∧
      Brackets.braces.Seals [] (Text.parenthesize needed type.render) := by
  have plain := TypeExpr.everywhere_hasPlainName named
  have arities := TypeExpr.everywhere_mono (fun _ => TypeExpr.hasReadArity_of_isCanonicalNode)
    canonical
  have chars := TypeExpr.typeChars_parenthesize needed (TypeExpr.typeChars_render named)
  have marked : Brackets.plain.Seals barred (Text.parenthesize needed type.render) :=
    (TypeExpr.suits_plain structuring).parenthesize (TypeExpr.seals_render_plain plain)
      fun single => (TypeExpr.seals_sealedMarks_render plain arities).mono (sealed single)
  refine ⟨isOperandText_iff.mpr ⟨isRoot_of_typeChars ?_ chars, marked⟩,
    TypeExpr.seals_braces_of_typeChars chars⟩
  exact TypeExpr.solid_parenthesize (TypeExpr.solid_render plain)

variable {types : List TypeExpr}
  (named : ∀ type ∈ types, TypeExpr.everywhere TypeExpr.hasTypeName type = true)
  (canonical : ∀ type ∈ types, TypeExpr.everywhere TypeExpr.isCanonicalNode type = true)

include named canonical

/-- Canonical types over identifiers that are no unions can be written as the members of one; a type
alone must be no intersection either. -/
theorem isUnionOf_render (some : types ≠ []) (noUnion : ∀ type ∈ types, type.isUnion = false)
    (alone : types.length = 1 → ∀ type ∈ types, type.isIntersection = false) :
    isUnionOf (types.map TypeExpr.render) = true := by
  match types with
  | [type] =>
    have here := List.mem_singleton_self type
    have marks : [CodePoint.char '|', .char '&'] ⊆ type.sealedMarks := by
      have single := alone rfl type here
      have other := noUnion type here
      cases type <;> simp_all [TypeExpr.sealedMarks, TypeExpr.isUnion, TypeExpr.isIntersection]
    have noObject : Text.unwrap? '{' '}' type.render = none := by
      apply Text.unwrap?_eq_none_of_head
      intro head
      exact (TypeExpr.typeChars_render (named type here)).not_mem (by decide)
        (List.mem_of_mem_head? head)
    have operand := (isOperandText_parenthesize false _ (named type here)
      (canonical type here) (by decide) fun _ => marks).1
    exact (Bool.and_eq_true _ _).mpr ⟨operand, by rw [noObject]; rfl⟩
  | first :: second :: rest =>
    refine List.all_eq_true.mpr fun text inside => ?_
    rw [← List.map_cons] at inside
    obtain ⟨type, here, rfl⟩ := List.mem_map.mp inside
    have marks := TypeExpr.sealedMarks_of_not_union (noUnion type here)
    have operand := isOperandText_parenthesize false ['|'] (named type here)
      (canonical type here) (by decide) fun _ c bar => marks (List.mem_cons_of_mem _ bar)
    exact (Bool.and_eq_true _ _).mpr ⟨operand.1, decide_eq_true operand.2⟩

/-- Canonical types over identifiers that are no intersections can be written as the members of
one. -/
theorem isIntersectionOf_conjunct (several : 1 < types.length)
    (other : ∀ type ∈ types, type.isIntersection = false) :
    isIntersectionOf (types.map TypeExpr.conjunct) = true := by
  rw [isIntersectionOf, List.length_map, Bool.and_eq_true, decide_eq_true_eq, List.all_eq_true]
  refine ⟨several, fun text inside => ?_⟩
  obtain ⟨type, here, rfl⟩ := List.mem_map.mp inside
  have arity := TypeExpr.hasReadArity_of_isCanonicalNode
    (TypeExpr.check_of_everywhere (canonical type here))
  have operand := isOperandText_parenthesize type.isChoice ['|', '&']
    (named type here) (canonical type here) (by decide) fun single => by
      have noUnion := TypeExpr.not_union_of_not_choice arity single
      have foreign := other type here
      cases type <;> simp_all [TypeExpr.sealedMarks, TypeExpr.isUnion, TypeExpr.isIntersection]
  exact (Bool.and_eq_true _ _).mpr ⟨operand.1, decide_eq_true operand.2⟩

end WrittenTypes

section Object

variable {members : List Member}

theorem isRoot_inlineObject (fits : ∀ member ∈ members, member.FitsLine) :
    IsRoot (inlineObject members) := by
  have free : Text.Lacks ['/', '/'] (inlineObject members) ∧
      Text.Lacks ['/', '*'] (inlineObject members) := by
    have noSlash := slash_not_mem_inlineObject fits
    exact ⟨Text.lacks_of_not_mem noSlash, Text.lacks_of_first_not_mem noSlash⟩
  refine ⟨?_, ?_, free.1, free.2⟩
  · rw [inlineObject_eq]
    exact Solid.wrap _ (by decide) (by decide)
  · rw [inlineObject_eq]
    have front := Text.SingleLine.append (by decide : SingleLine [.char '{'])
      (singleLine_inlineInside fits)
    exact front.append (by decide)

theorem ofRightHandSide_inlineObject (name : Text) (some : members ≠ [])
    (writable : ∀ member ∈ members, member.IsWritable) :
    ofRightHandSide name (inlineObject members) =
      { name := name, fields := members.map Member.bare } := by
  have nested := seals_inlineInside fun member here => (writable member here).toFitsLine
  rw [ofRightHandSide, inlineObject_eq, Text.unwrap?_wrap (by decide) nested]
  simp only [readMembers_inline some writable]

end Object

end Outline

end SchemaBoard
