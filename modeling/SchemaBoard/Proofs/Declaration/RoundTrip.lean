import SchemaBoard.Proofs.Declaration.Alias

set_option autoImplicit false

/-!
Texts of declarations are read back. Whatever their comments say, regular declarations come back one
by one with the comments that settle in front of them and their members. Main statements: canonical
declarations come back as they were, aliases with the types that they stand for, and no comment
changes anything but comments.
-/
namespace SchemaBoard

open Text (Brackets SingleLine Lacks Solid)

namespace Outline

/-- The declaration with the comments that come back: those in front of it and in front of the
members of an interface. -/
def settled (declaration : Declaration) : Declaration :=
  { declaration with
    fields := declaration.fields.map
      (if declaration.kind = .interface then Member.settled else Member.bare)
    comment := settledHeader declaration.comment }

def bare (declaration : Declaration) : Declaration :=
  { declaration with fields := declaration.fields.map Member.bare, comment := none }

/-- Whether the declaration is a regular interface or an alias of a regular object type. -/
def isRecord (declaration : Declaration) : Bool :=
  isRegularInterface declaration || isRegularObject declaration

/-- Whether the comment of a declaration and those of its members are as they are read. -/
def isCanonical (declaration : Declaration) : Bool :=
  declaration.comment.all isCanonicalHeader &&
    ((isRegularInterface declaration &&
        declaration.fields.all fun member => member.comment.all isCanonicalNote) ||
      (isRegularObject declaration &&
        declaration.fields.all fun member => member.comment.isNone) ||
      isRegularAlias declaration)

section Single

variable {declaration : Declaration}

/-- A declaration whose written form is read as what settles. -/
structure ComesBack (declaration : Declaration) : Prop where
  body : IsBody declaration.bodyLines
  read : read? declaration.render = some declaration.settled

theorem comesBack_interface (writable : IsWritableInterface declaration) :
    ComesBack declaration := by
  have sound := isBody_interface writable
  have outside : ¬Comment.LineTail (Text.join ['\n'] declaration.bodyLines) := by
    rw [bodyLines_interface writable]
    exact not_lineTail_interfaceLines _ _ _
  refine ⟨sound, ?_⟩
  rw [read?_render sound.text outside, interface?_render writable, Option.some_or, Option.map_some,
    settled, if_pos writable.kind]

theorem bodyLines_alias (kind : declaration.kind = .type)
    (word : Text.isIdentifier declaration.name = true) :
    declaration.bodyLines = [aliasText declaration.name (aliasRoot declaration)] := by
  rw [bodyLines_of_alias (Or.inl kind), nameText_of_isIdentifier word]

/-- An alias comes back if its right-hand side is read as what settles. -/
theorem comesBack_alias (kind : declaration.kind = .type)
    (word : Text.isIdentifier declaration.name = true) (root : IsRoot (aliasRoot declaration))
    (found : ofRightHandSide declaration.name (aliasRoot declaration) =
      { declaration with fields := declaration.fields.map Member.bare, comment := none }) :
    ComesBack declaration := by
  have lines := bodyLines_alias kind word
  have sound : IsBody declaration.bodyLines := lines ▸ isBody_aliasText word root
  have written : Text.join ['\n'] declaration.bodyLines =
      aliasText declaration.name (aliasRoot declaration) := by
    rw [lines, Text.join_singleton]
  have outside : ¬Comment.LineTail (Text.join ['\n'] declaration.bodyLines) :=
    written ▸ not_lineTail_aliasText word root
  have other : declaration.kind ≠ .interface := by
    rw [kind]
    decide
  refine ⟨sound, ?_⟩
  rw [read?_render sound.text outside, written, interface?_aliasText,
    assigned?_aliasText word root.solid, found, Option.none_or, Option.map_some, settled,
    if_neg other]

theorem comesBack_object (writable : IsWritableObject declaration) :
    ComesBack declaration := by
  obtain ⟨kind, word, some, members, noBases, noUnion, noIntersection⟩ := writable
  have root : aliasRoot declaration = inlineObject declaration.fields := by
    rw [aliasRoot, noUnion, noIntersection]
    simp [some]
  have fits := fun member here => (members member here).toFitsLine
  refine comesBack_alias kind word (root ▸ isRoot_inlineObject fits) ?_
  rw [root, ofRightHandSide_inlineObject _ some members, ← kind]
  obtain ⟨_, _, _, _, _, _, _⟩ := declaration
  subst noBases noUnion noIntersection
  rfl

theorem isUnionOf_roots {texts : List Text} (union : isUnionOf texts = true) :
    texts ≠ [] ∧ ∀ text ∈ texts, IsRoot text := by
  match texts with
  | [] => cases union
  | [text] =>
    simp only [isUnionOf, Bool.and_eq_true, isOperandText_iff] at union
    refine ⟨List.cons_ne_nil _ _, fun other here => ?_⟩
    exact List.mem_singleton.mp here ▸ union.1.1
  | first :: second :: rest =>
    simp only [isUnionOf, List.all_eq_true, Bool.and_eq_true, isOperandText_iff] at union
    exact ⟨List.cons_ne_nil _ _, fun other here => (union other here).1.1⟩

theorem isIntersectionOf_roots {texts : List Text} (conjuncts : isIntersectionOf texts = true) :
    texts ≠ [] ∧ ∀ text ∈ texts, IsRoot text := by
  simp only [isIntersectionOf, Bool.and_eq_true, decide_eq_true_eq, List.all_eq_true,
    isOperandText_iff] at conjuncts
  refine ⟨?_, fun text here => (conjuncts.2 text here).1.1⟩
  rintro rfl
  cases conjuncts.1

theorem aliasRoot_union (union : isUnionOf declaration.unionTypes = true) :
    aliasRoot declaration = Text.join " | ".toText declaration.unionTypes := by
  obtain ⟨some, roots⟩ := isUnionOf_roots union
  rw [aliasRoot, filter_solid roots]
  simp [some]

theorem aliasRoot_intersection (noUnion : declaration.unionTypes = [])
    (conjuncts : isIntersectionOf declaration.intersectionTypes = true) :
    aliasRoot declaration = Text.join " & ".toText declaration.intersectionTypes := by
  obtain ⟨some, roots⟩ := isIntersectionOf_roots conjuncts
  rw [aliasRoot, noUnion, filter_solid roots]
  simp [some]

theorem comesBack_regularAlias (regular : isRegularAlias declaration = true) :
    ComesBack declaration := by
  obtain ⟨kind, word, noFields, noBases, ⟨union, noIntersection⟩ | ⟨noUnion, conjuncts⟩⟩ :=
    regularAlias_iff.mp regular
  · have root := aliasRoot_union union
    obtain ⟨sound, found⟩ := ofRightHandSide_union declaration.name union
    refine comesBack_alias kind word (root ▸ sound) ?_
    rw [root, found, ← kind]
    obtain ⟨_, _, _, _, _, _, _⟩ := declaration
    subst noFields noBases noIntersection
    rfl
  · have root := aliasRoot_intersection noUnion conjuncts
    obtain ⟨sound, found⟩ := ofRightHandSide_intersection declaration.name conjuncts
    refine comesBack_alias kind word (root ▸ sound) ?_
    rw [root, found, ← kind]
    obtain ⟨_, _, _, _, _, _, _⟩ := declaration
    subst noFields noBases noUnion
    rfl

theorem comesBack_record (record : isRecord declaration = true) : ComesBack declaration := by
  rcases (Bool.or_eq_true _ _).mp record with interface | object
  · exact comesBack_interface (isWritableInterface_of_regular interface)
  · exact comesBack_object (isWritableObject_of_regular object)

end Single

end Outline

namespace Batch

open Outline

/-- The declarations of a text that comes back part by part. -/
theorem read_renderAll_eq_map_settled {declarations : List Declaration}
    (valid : ∀ declaration ∈ declarations, ComesBack declaration) :
    read (renderAll declarations) = declarations.map settled := by
  rw [read, split_renderAll fun declaration here => (valid declaration here).body]
  induction declarations with
  | nil => rfl
  | cons declaration rest ih =>
    have later := ih fun other here => valid other (List.mem_cons_of_mem declaration here)
    rw [List.map_cons, List.filterMap_cons_some (valid declaration (by simp)).read, later,
      List.map_cons]

end Batch

namespace Outline

section Canonical

variable {declaration : Declaration}

theorem comesBack_of_isCanonical (canonical : isCanonical declaration = true) :
    ComesBack declaration := by
  simp only [isCanonical, Bool.and_eq_true, Bool.or_eq_true] at canonical
  rcases canonical.2 with (⟨interface, -⟩ | ⟨object, -⟩) | regular
  · exact comesBack_interface (isWritableInterface_of_regular interface)
  · exact comesBack_object (isWritableObject_of_regular object)
  · exact comesBack_regularAlias regular

theorem settledHeader_eq_self {comment : Option Text}
    (canonical : comment.all isCanonicalHeader = true) : settledHeader comment = comment := by
  cases comment with
  | none => rfl
  | some text => exact settledHeader_of_canonical canonical

theorem settledNote_eq_self {comment : Option Text}
    (canonical : comment.all isCanonicalNote = true) : settledNote comment = comment := by
  cases comment with
  | none => rfl
  | some text => exact settledNote_of_canonical canonical

/-- Canonical comments stay as they are. -/
theorem settled_eq_self (canonical : isCanonical declaration = true) :
    declaration.settled = declaration := by
  simp only [isCanonical, Bool.and_eq_true, Bool.or_eq_true, List.all_eq_true,
    Option.isNone_iff_eq_none] at canonical
  obtain ⟨header, cases⟩ := canonical
  have fields : declaration.fields.map
      (if declaration.kind = .interface then Member.settled else Member.bare) =
        declaration.fields.map id := by
    rcases cases with (⟨interface, notes⟩ | ⟨object, noNotes⟩) | regular
    · rw [if_pos (regularInterface_iff.mp interface).1]
      refine List.map_congr_left fun member here => ?_
      rw [Member.settled, settledNote_eq_self (notes member here)]
      rfl
    · have other : declaration.kind ≠ .interface := by
        rw [(regularObject_iff.mp object).1]
        decide
      rw [if_neg other]
      refine List.map_congr_left fun member here => ?_
      rw [Member.bare, ← noNotes member here]
      rfl
    · rw [(regularAlias_iff.mp regular).2.2.1]
      rfl
  rw [settled, settledHeader_eq_self header, fields, List.map_id]

end Canonical

/-- The alias of a type: the members of a union or of an intersection, or one alternative. -/
def ofType (name : Text) : TypeExpr → Declaration
  | .union members => { name := name, unionTypes := members.map TypeExpr.render }
  | .intersection members => { name := name, intersectionTypes := members.map TypeExpr.conjunct }
  | type => { name := name, unionTypes := [type.render] }

section OfType

variable {declaration : Declaration} {name : Text} {type : TypeExpr}

theorem isCanonical_of_isRegularAlias (regular : isRegularAlias declaration = true)
    (bare : declaration.comment = none) : isCanonical declaration = true := by
  rw [isCanonical, regular, bare, Bool.or_true]
  rfl

theorem isRegularAlias_of_isUnionOf (word : Text.isIdentifier name = true) {texts : List Text}
    (union : isUnionOf texts = true) :
    isRegularAlias { name := name, unionTypes := texts } = true :=
  regularAlias_iff.mpr ⟨rfl, word, rfl, rfl, Or.inl ⟨union, rfl⟩⟩

/-- The alias of a canonical type is canonical, and its right-hand side is the written type. -/
theorem isCanonical_ofType (word : Text.isIdentifier name = true)
    (named : TypeExpr.everywhere TypeExpr.hasTypeName type = true)
    (canonical : TypeExpr.everywhere TypeExpr.isCanonicalNode type = true) :
    isCanonical (ofType name type) = true ∧ aliasRoot (ofType name type) = type.render := by
  have names : ∀ part ∈ type.parts, TypeExpr.everywhere TypeExpr.hasTypeName part = true :=
    fun part here => TypeExpr.everywhere_of_mem_parts named here
  have parts : ∀ part ∈ type.parts, TypeExpr.everywhere TypeExpr.isCanonicalNode part = true :=
    fun part here => TypeExpr.everywhere_of_mem_parts canonical here
  have node := TypeExpr.check_of_everywhere canonical
  cases type with
  | union members =>
    obtain ⟨several, other⟩ : 1 < members.length ∧ ∀ member ∈ members, member.isUnion = false := by
      simpa [TypeExpr.isCanonicalNode] using node
    have some := TypeExpr.ne_nil_of_arity several
    have union : isUnionOf (members.map TypeExpr.render) = true :=
      isUnionOf_render names parts some other fun single => absurd single several.ne'
    exact ⟨isCanonical_of_isRegularAlias (isRegularAlias_of_isUnionOf word union) rfl,
      (aliasRoot_union union).trans (TypeExpr.render_union some).symm⟩
  | intersection members =>
    obtain ⟨several, other⟩ :
        1 < members.length ∧ ∀ member ∈ members, member.isIntersection = false := by
      simpa [TypeExpr.isCanonicalNode] using node
    have some := TypeExpr.ne_nil_of_arity several
    have conjuncts : isIntersectionOf (members.map TypeExpr.conjunct) = true :=
      isIntersectionOf_conjunct names parts several other
    have regular : isRegularAlias (ofType name (.intersection members)) = true :=
      regularAlias_iff.mpr ⟨rfl, word, rfl, rfl, Or.inr ⟨rfl, conjuncts⟩⟩
    exact ⟨isCanonical_of_isRegularAlias regular rfl,
      (aliasRoot_intersection rfl conjuncts).trans (TypeExpr.render_intersection some).symm⟩
  | primitive | custom | builtIn =>
    -- A type that is neither is the only alternative of its alias.
    have union := isUnionOf_render (List.forall_mem_singleton.mpr named)
      (List.forall_mem_singleton.mpr canonical) (List.cons_ne_nil _ _)
      (List.forall_mem_singleton.mpr rfl) fun _ => List.forall_mem_singleton.mpr rfl
    exact ⟨isCanonical_of_isRegularAlias (isRegularAlias_of_isUnionOf word union) rfl,
      (aliasRoot_union union).trans (Text.join_singleton _ _)⟩

end OfType

section Bare

variable {declaration : Declaration}

theorem bare_settled (declaration : Declaration) : declaration.settled.bare = declaration.bare := by
  have fields : ∀ member : Member, (if declaration.kind = .interface then Member.settled member
      else Member.bare member).bare = member.bare := by
    intro member
    split <;> rfl
  simp only [settled, bare, List.map_map, Outline.mk.injEq, true_and, and_true]
  refine List.map_congr_left fun member _ => ?_
  rw [← fields member]
  split <;> rfl

theorem isRecord_bare (record : isRecord declaration = true) :
    isRecord declaration.bare = true := by
  rcases (Bool.or_eq_true _ _).mp record with interface | object
  · refine (Bool.or_eq_true _ _).mpr (Or.inl ?_)
    obtain ⟨kind, word, words, regular, rest⟩ := regularInterface_iff.mp interface
    refine regularInterface_iff.mpr ⟨kind, word, words, fun member here => ?_, rest⟩
    obtain ⟨source, inside, rfl⟩ := List.mem_map.mp here
    exact regular source inside
  · refine (Bool.or_eq_true _ _).mpr (Or.inr ?_)
    obtain ⟨kind, word, some, regular, rest⟩ := regularObject_iff.mp object
    have fields : declaration.bare.fields ≠ [] := by simpa [bare] using some
    refine regularObject_iff.mpr ⟨kind, word, fields, fun member here => ?_, rest⟩
    obtain ⟨source, inside, rfl⟩ := List.mem_map.mp here
    exact regular source inside

theorem bare_bare (declaration : Declaration) : declaration.bare.bare = declaration.bare := by
  simp only [bare, List.map_map, Outline.mk.injEq, true_and, and_true]
  exact List.map_congr_left fun _ _ => rfl

end Bare

end Outline

namespace Batch

open Outline

/-- Whatever their comments say, records come back with everything but their comments. -/
theorem map_bare_read_renderAll_eq {declarations : List Declaration}
    (records : ∀ declaration ∈ declarations, isRecord declaration = true) :
    (read (renderAll declarations)).map bare = declarations.map bare := by
  rw [read_renderAll_eq_map_settled fun declaration here =>
    comesBack_record (records declaration here), List.map_map]
  exact List.map_congr_left fun declaration _ => bare_settled declaration

/-- Canonical declarations come back from their written form, in whatever order they stand. -/
theorem read_renderAll_of_isCanonical {declarations : List Declaration}
    (canonical : ∀ declaration ∈ declarations, isCanonical declaration = true) :
    read (renderAll declarations) = declarations := by
  rw [read_renderAll_eq_map_settled fun declaration here =>
    comesBack_of_isCanonical (canonical declaration here)]
  calc declarations.map settled = declarations.map id :=
        List.map_congr_left fun declaration here => settled_eq_self (canonical declaration here)
    _ = declarations := List.map_id declarations

theorem read_renderAll_of_isCanonical_order :
    let declarations : List Declaration :=
      [{ name := "Order".toText, kind := .interface, bases := ["Base".toText]
         fields := [{ name := "items".toText, type := .builtIn .array [.custom "Item".toText]
                      readonly := true, comment := some "at /** least one".toText }]
         comment := some "An order.\n\ninterface Order \x7b".toText },
       { name := "Item".toText, fields := [{ name := "id".toText, type := .primitive .string }] },
       { name := "Key".toText, unionTypes := ["string".toText, "A & B".toText] },
       { name := "Both".toText, intersectionTypes := ["A".toText, "(B | C)".toText] }]
    (∀ declaration ∈ declarations, isCanonical declaration = true) ∧
      read (renderAll declarations) = declarations :=
  ⟨by decide, read_renderAll_of_isCanonical (by decide)⟩

/-- Aliases of canonical types come back, and with them the types. -/
theorem map_read_aliasRoot_read_renderAll {aliases : List (Text × TypeExpr)}
    (words : ∀ one ∈ aliases, Text.isIdentifier one.1 = true)
    (named : ∀ one ∈ aliases, TypeExpr.everywhere TypeExpr.hasTypeName one.2 = true)
    (canonical : ∀ one ∈ aliases, TypeExpr.everywhere TypeExpr.isCanonicalNode one.2 = true) :
    (read (renderAll (aliases.map fun one => ofType one.1 one.2))).map
      (fun declaration => (declaration.name, TypeExpr.read (aliasRoot declaration))) = aliases := by
  have each := fun one here =>
    isCanonical_ofType (words one here) (named one here) (canonical one here)
  have back := read_renderAll_eq_map_settled (List.forall_mem_map.mpr fun one here =>
    comesBack_of_isCanonical (each one here).1)
  rw [back, List.map_map, List.map_map]
  calc _ = aliases.map id := List.map_congr_left fun one here => ?_
    _ = aliases := List.map_id aliases
  have name : (ofType one.1 one.2).name = one.1 := by
    cases one.2 <;> rfl
  have plain := TypeExpr.everywhere_hasPlainName (named one here)
  simp only [Function.comp_apply, settled_eq_self (each one here).1, name, (each one here).2,
    TypeExpr.read_render_of_canonical plain (canonical one here), id]

/-- No comment of a record changes anything but comments: the same records come back with any
comments and with none. -/
theorem read_renderAll_bare {declarations : List Declaration}
    (records : ∀ declaration ∈ declarations, isRecord declaration = true) :
    (read (renderAll declarations)).map bare =
        (read (renderAll (declarations.map bare))).map bare ∧
      (read (renderAll (declarations.map bare))).map bare = declarations.map bare := by
  have records_bare : ∀ declaration ∈ declarations.map bare, isRecord declaration = true := by
    intro declaration here
    obtain ⟨source, inside, rfl⟩ := List.mem_map.mp here
    exact isRecord_bare (records source inside)
  have plain : (read (renderAll (declarations.map bare))).map bare = declarations.map bare := by
    rw [map_bare_read_renderAll_eq records_bare, List.map_map]
    exact List.map_congr_left fun declaration _ => bare_bare declaration
  exact ⟨(map_bare_read_renderAll_eq records).trans plain.symm, plain⟩

/-- A comment that closes itself and goes on with another declaration is text like any other. -/
theorem read_renderAll_bare_injection :
    let declaration : Declaration :=
      { name := "A".toText, kind := .interface
        fields := [{ name := "x".toText, type := .primitive .any
                     comment := some "*/ y: string; /**\r// ".toText }]
        comment := some "*/\ninterface B \x7b\x7d\n/**".toText }
    (read (renderAll [declaration])).map bare = (read (renderAll [bare declaration])).map bare ∧
      (read (renderAll [bare declaration])).map bare = [bare declaration] :=
  read_renderAll_bare (by decide)

end Batch

end SchemaBoard
