import SchemaBoard.Proofs.TypeExpr.Clauses

set_option autoImplicit false

/-!
Written types that stay the same. What is read from a written type can be another tree: operators in
each other are regrouped, arguments are filled in, and suffixes alone are a name. Main statement: it
is written with the same text, however many members and arguments the nodes of the type have.
-/
namespace SchemaBoard.TypeExpr

open Shape

/-- Whether a node keeps its written form: a name is plain and none of the two containers that get
arguments, a generic container has no arguments, and no several types stand in the parentheses of an
intersection of nothing else. -/
def isStableNode : TypeExpr → Bool
  | custom name => isPlainName name && name != "Object".toText && name != "Map".toText
  | intersection [member] => !member.isChoice
  | builtIn .generic arguments => arguments.isEmpty
  | _ => true

theorem hasPlainName_of_isStableNode {node : TypeExpr} (stable : isStableNode node = true) :
    hasPlainName node = true := by
  cases node with
  | custom name =>
    simp only [isStableNode, Bool.and_eq_true] at stable
    exact stable.1.1
  | primitive | union | intersection | builtIn => rfl

/-- An operand that comes back without parentheses around it. -/
structure Lone (operand : Text) : Prop where
  simple : (read operand).isCompound = false
  written : (read operand).render = operand

/-- A text that comes back as an argument does. -/
structure ComesBack (text : Text) : Prop where
  fits : Fits .choice text
  written : (read text).render = text

/-- A text that comes back as an operand does. What it is read as needs no parentheses there beyond
those that an intersection gives it. -/
structure Keeps (operand : Text) : Prop where
  fits : Fits .operand operand
  compound : (read operand).isCompound = (read operand).isChoice
  written : (read operand).conjunct = operand

/-- An operand that is a whole clause is nothing in parentheses. -/
def Alone (clauses : List (List Text)) : Prop :=
  ∀ operand, [operand] ∈ clauses → (read operand).isChoice = false

/-- Clauses that come back. -/
structure Steady (clauses : List (List Text)) : Prop where
  filled : Filled Keeps clauses
  alone : Alone clauses

theorem Lone.of_read {operand : Text} {type : TypeExpr} (value : read operand = type)
    (simple : type.isCompound = false) (written : type.render = operand) : Lone operand :=
  ⟨by rw [value, simple], by rw [value, written]⟩

section Words

variable {name : Text}

theorem fits_of_isPlainName (plain : isPlainName name = true) : Fits .operand name := by
  obtain ⟨solid, free⟩ := isPlainName_iff.mp plain
  exact ⟨solid, nested_flat free, (suits_plain (barred_subset_marks _)).flat name free⟩

theorem lone_of_isPlainName (plain : isPlainName name = true) (noObject : name ≠ "Object".toText)
    (noMap : name ≠ "Map".toText) : Lone name := by
  have value := read_of_isPlainName plain
  rw [ofWord] at value
  cases keyword : Primitive.ofKeyword? name with
  | some p =>
    rw [keyword] at value
    exact Lone.of_read value rfl (Primitive.ofKeyword?_eq_some keyword)
  | none =>
    rw [keyword, if_neg noObject, if_neg noMap] at value
    exact Lone.of_read value rfl (render_custom (isPlainName_iff.mp plain).1)

theorem comesBack_of_isPlainName (plain : isPlainName name = true)
    (noObject : name ≠ "Object".toText) (noMap : name ≠ "Map".toText) : ComesBack name := by
  have fits := fits_of_isPlainName plain
  exact ⟨⟨fits.solid, fits.nested, fits.sealed.mono (by decide)⟩,
    (lone_of_isPlainName plain noObject noMap).written⟩

end Words

section Suffixes

variable {text : Text}

theorem isReserved_of_head {name : Text} (head : name.head? = some (.char '[')) :
    isReserved name = false := by
  have foreign : ∀ p : Primitive, p.keyword.head? ≠ some (.char '[') := by
    intro p
    cases p <;> decide
  have noKeyword : Primitive.ofKeyword? name = none := by
    cases found : Primitive.ofKeyword? name with
    | none => rfl
    | some p => exact absurd (Primitive.ofKeyword?_eq_some found ▸ head) (foreign p)
  have noObject : name ≠ "Object".toText := by
    rintro rfl
    cases head
  have noMap : name ≠ "Map".toText := by
    rintro rfl
    cases head
  simp [isReserved, noKeyword, noObject, noMap]

/-- Two suffixes or more, and nothing in front of them, are a name. -/
theorem read_only_suffixes (fits : Fits .operand text)
    (only : (arraySuffixes text.reverse).2 = []) :
    read (text ++ arrayMark) = custom (text ++ arrayMark) := by
  have whole := fits.suffixed.isOperand
  have noArray : array? (text ++ arrayMark) = none :=
    array?_of_only_suffixes (by rw [arraySuffixes_append]; exact only)
  obtain ⟨rest, rfl⟩ := exists_of_only_suffixes fits.solid.nonempty only
  have noTuple : Text.unwrap? '[' ']' (arrayMark ++ rest ++ arrayMark) = none := by
    simp [Text.unwrap?, Text.beforeLastCloser?]
  have noGroup : Text.unwrap? '(' ')' (arrayMark ++ rest ++ arrayMark) = none :=
    Text.unwrap?_eq_none_of_head (by simp)
  rw [read_eq_word whole noArray noTuple noGroup rfl]
  exact ofWord_eq_custom_iff.mpr (isReserved_of_head rfl)

end Suffixes

section Operands

variable {operand : Text}

theorem compound_eq_choice_of_simple {type : TypeExpr} (simple : type.isCompound = false) :
    type.isCompound = type.isChoice := by
  cases type with
  | union members => rfl
  | intersection members => exact simple
  | primitive | custom | builtIn => rfl

theorem Lone.isChoice (lone : Lone operand) : (read operand).isChoice = false := by
  rw [← compound_eq_choice_of_simple lone.simple, lone.simple]

theorem Lone.keeps (lone : Lone operand) (fits : Fits .operand operand) : Keeps operand := by
  refine ⟨fits, compound_eq_choice_of_simple lone.simple, ?_⟩
  rw [conjunct, lone.isChoice]
  exact lone.written

theorem steady_single (lone : Lone operand) (fits : Fits .operand operand) :
    Steady [[operand]] where
  filled := Filled.single (lone.keeps fits)
  alone := by
    intro other here
    obtain rfl : other = operand := by simpa using here
    exact lone.isChoice

theorem keeps_group {text : Text} (nested : Nested text) (choice : (read text).isChoice = true)
    (written : (read text).render = text) : Keeps (Text.parenthesize true text) := by
  refine ⟨fits_group nested, ?_, ?_⟩
  · rw [read_group nested]
    cases back : read text with
    | union members => rfl
    | primitive | custom | intersection | builtIn => rw [back] at choice; cases choice
  · rw [read_group nested, conjunct, choice, written]

/-- With a suffix behind it, an operand that comes back needs no parentheses. -/
theorem Keeps.lone_suffixed (keeps : Keeps operand) : Lone (operand ++ arrayMark) := by
  by_cases only : (arraySuffixes operand.reverse).2 = []
  · exact Lone.of_read (read_only_suffixes keeps.fits only) rfl
      (render_custom keeps.fits.suffixed.solid)
  · refine Lone.of_read (keeps.fits.read_suffixed only) rfl ?_
    rw [render_array, keeps.compound]
    exact congrArg (· ++ arrayMark) keeps.written

theorem Keeps.suffixed (keeps : Keeps operand) : Keeps (operand ++ arrayMark) :=
  keeps.lone_suffixed.keeps keeps.fits.suffixed

end Operands

section Clauses

variable {clauses : List (List Text)}

theorem render_clause {clause : List Text} (some : clause ≠ [])
    (keeps : ∀ operand ∈ clause, Keeps operand)
    (alone : ∀ operand, clause = [operand] → (read operand).isChoice = false) :
    (operation intersection (clause.map read)).render = clauseText clause := by
  match clause with
  | [] => exact absurd rfl some
  | [operand] =>
    have written := (keeps operand (by simp)).written
    rw [conjunct, alone operand rfl] at written
    exact written.trans (Text.join_singleton _ _).symm
  | first :: second :: rest =>
    have same : ((first :: second :: rest).map read).map conjunct = first :: second :: rest := by
      rw [List.map_map]
      exact (List.map_congr_left fun operand here => (keeps operand here).written).trans
        (List.map_id _)
    rw [operation_of_several (by simp), render_intersection (by simp), same, clauseText]

/-- Steady clauses are written as they were. -/
theorem Steady.render_choiceOf (steady : Steady clauses) :
    (choiceOf clauses).render = choiceText clauses := by
  have each : ∀ clause ∈ clauses,
      (operation intersection (clause.map read)).render = clauseText clause := by
    intro clause here
    refine render_clause (steady.filled.inhabited clause here) (steady.filled.each clause here) ?_
    rintro operand rfl
    exact steady.alone operand here
  by_cases several : 1 < clauses.length
  · rw [choiceOf, operation_of_several (by simpa using several),
      render_union (by simpa using steady.filled.nonempty), choiceText, List.map_map]
    exact congrArg _ (List.map_congr_left each)
  · have positive := List.length_pos_iff.mpr steady.filled.nonempty
    obtain ⟨clause, rfl⟩ := List.length_eq_one_iff.mp (by omega : clauses.length = 1)
    exact (each clause (by simp)).trans (Text.join_singleton _ _).symm

theorem Steady.comesBack (steady : Steady clauses) : ComesBack (choiceText clauses) := by
  have reads := reads_choiceText (steady.filled.mono fun _ keeps => keeps.fits)
  exact ⟨reads.fits, by rw [reads.read_eq, steady.render_choiceOf]⟩

theorem Steady.flatMap {members : List TypeExpr} (some : members ≠ [])
    (steady : ∀ member ∈ members, Steady member.clauses) :
    Steady (members.flatMap TypeExpr.clauses) where
  filled := Filled.flatMap some fun member here => (steady member here).filled
  alone := by
    intro operand here
    obtain ⟨member, inside, clause⟩ := List.mem_flatMap.mp here
    exact (steady member inside).alone operand clause

theorem Steady.suffixed (steady : Steady clauses) : Steady (TypeExpr.suffixed clauses) where
  filled := steady.filled.suffixed fun _ keeps => keeps.suffixed
  alone := by
    obtain ⟨front, operands, last, rfl⟩ := steady.filled.exists_last
    have final : Keeps last := steady.filled.each (operands ++ [last]) (by simp) last (by simp)
    intro operand here
    rw [suffixed_concat, List.mem_append, List.mem_singleton] at here
    rcases here with before | same
    · exact steady.alone operand (List.mem_append_left _ before)
    · obtain rfl : operand = last ++ arrayMark := by
        simpa using congrArg List.getLast? same
      exact final.lone_suffixed.isChoice

theorem Alone.mono {fewer : List (List Text)} (alone : Alone clauses)
    (subset : ∀ clause ∈ fewer, clause ∈ clauses) : Alone fewer :=
  fun operand here => alone operand (subset _ here)

/-- Only the parentheses of a member of an intersection can make a clause on their own. -/
theorem alone_memberClauses {member : TypeExpr} (alone : Alone member.clauses) :
    Alone member.memberClauses.dropLast ∧ Alone member.memberClauses.tail := by
  rw [memberClauses]
  split
  · exact ⟨fun _ here => absurd here List.not_mem_nil, fun _ here => absurd here List.not_mem_nil⟩
  · exact ⟨alone.mono fun _ here => List.dropLast_subset _ here,
      alone.mono fun _ here => List.mem_of_mem_tail here⟩

/-- Across the border, a clause has an operand of each side. -/
theorem Alone.glue {first second : List (List Text)} (left : Filled Keeps first)
    (right : Filled Keeps second) (front : Alone first.dropLast) (behind : Alone second.tail) :
    Alone (Text.glue first second) := by
  intro operand here
  rcases Filled.mem_glue left right here with
    before | after | ⟨last, inside, next, follows, across⟩
  · exact front operand before
  · exact behind operand after
  · have some := List.length_pos_iff.mpr (left.inhabited last inside)
    have more := List.length_pos_iff.mpr (right.inhabited next follows)
    have count := congrArg List.length across
    rw [List.length_append, List.length_singleton] at count
    omega

section Members

variable {members : List TypeExpr}
  (filled : ∀ member ∈ members, Filled Keeps member.memberClauses)
  (alone : ∀ member ∈ members, Alone member.clauses)

include filled alone

/-- Several members of an intersection put something beside each pair of parentheses. Behind the
first clause that holds of any number of members, and so the induction is on that. -/
theorem alone_conjunctClauses_tail : Alone (conjunctClauses members).tail := by
  induction members with
  | nil => exact fun _ here => absurd here List.not_mem_nil
  | cons member rest ih =>
    obtain ⟨front, behind⟩ := alone_memberClauses (alone member (by simp))
    by_cases last : rest = []
    · rwa [last, conjunctClauses_singleton]
    · have others := fun other there => filled other (List.mem_cons_of_mem member there)
      have later := ih others fun other there => alone other (List.mem_cons_of_mem member there)
      rw [conjunctClauses_cons]
      exact (Alone.glue (filled member (by simp)) (filled_conjunctClauses last others) front
        later).mono fun _ here => List.mem_of_mem_tail here

theorem alone_conjunctClauses (several : 1 < members.length) :
    Alone (conjunctClauses members) := by
  obtain ⟨member, rest, rfl⟩ := List.exists_cons_of_ne_nil (ne_nil_of_arity several)
  have some : rest ≠ [] := by
    rintro rfl
    exact Nat.lt_irrefl 1 several
  have others := fun other there => filled other (List.mem_cons_of_mem member there)
  have behind := alone_conjunctClauses_tail others fun other there =>
    alone other (List.mem_cons_of_mem member there)
  rw [conjunctClauses_cons]
  exact Alone.glue (filled member (by simp)) (filled_conjunctClauses some others)
    (alone_memberClauses (alone member (by simp))).1 behind

end Members

end Clauses

section Containers

variable {written : List Text}

theorem ComesBack.isArgument {text : Text} (back : ComesBack text) : IsArgument text :=
  ⟨back.fits.solid, back.fits.sealed⟩

/-- What is read from arguments that come back is written with these arguments. -/
theorem lone_containerText {head : Container} {compound : Bool} (other : head ≠ .array)
    (bare : head = .generic → written = []) (back : ∀ text ∈ written, ComesBack text) :
    Lone (containerText head compound written) := by
  have argument : ∀ text ∈ written, IsArgument text := fun text here => (back text here).isArgument
  have getD : ∀ index default, ComesBack default →
      (read (written.getD index default)).render = written.getD index default :=
    fun index _ absent => (holds_getD index back absent).written
  have unknown : ComesBack "unknown".toText :=
    comesBack_of_isPlainName (by decide) (by decide) (by decide)
  have string : ComesBack "string".toText :=
    comesBack_of_isPlainName (by decide) (by decide) (by decide)
  cases head with
  | array => exact absurd rfl other
  | tuple =>
    have value := read_tupleText (fun text here => (argument text here).sealed)
      (fun text here => (argument text here).solid)
      fun text here => (back text here).fits.nested.squares
    have same : (written.map read).map render = written := by
      rw [List.map_map]
      exact (List.map_congr_left fun text here => (back text here).written).trans (List.map_id _)
    refine Lone.of_read value rfl ?_
    rw [render, renderAll_eq_map, same]
    rfl
  | set =>
    refine Lone.of_read (read_containerText_set argument) rfl ?_
    simp only [render, renderAll, containerText, getD 0 _ unknown]
    rfl
  | map =>
    refine Lone.of_read (read_containerText_map argument) rfl ?_
    simp only [render, renderAll, containerText, getD 0 _ unknown, getD 1 _ unknown]
    rfl
  | object =>
    refine Lone.of_read (read_containerText_object argument) rfl ?_
    simp only [render, renderAll, containerText, getD 0 _ string, getD 1 _ unknown]
    rfl
  | generic =>
    rw [bare rfl]
    exact (lone_of_isPlainName (by decide) (by decide) (by decide) :
      Lone (Container.name .generic))

/-- Parentheses in front of a suffix come back if there has to be something in them. -/
theorem lone_group_suffixed {text : Text} (nested : Nested text)
    (compound : (read text).isCompound = true) (written : (read text).render = text) :
    Lone (Text.parenthesize true text ++ arrayMark) := by
  refine Lone.of_read (read_group_suffixed nested) rfl ?_
  rw [render_array, compound, written]

/-- An array of several types is written as the array of their union. -/
theorem render_array_several {arguments : List TypeExpr} (several : 1 < arguments.length) :
    (builtIn .array arguments).render =
      Text.parenthesize true (union arguments).render ++ arrayMark := by
  rw [render_union (ne_nil_of_arity several), render, renderAll_eq_map]
  cases arguments with
  | nil => cases several
  | cons first rest =>
    cases rest with
    | nil => exact absurd several (Nat.lt_irrefl 1)
    | cons second others => rfl

end Containers

section Types

variable {type : TypeExpr}

theorem plain_of_stable (stable : everywhere isStableNode type = true) :
    everywhere hasPlainName type = true :=
  everywhere_mono (fun _ => hasPlainName_of_isStableNode) stable

theorem Steady.comesBack_render (steady : Steady type.clauses) : ComesBack type.render := by
  rw [render_eq_choiceText]
  exact steady.comesBack

/-- A compound type comes back from the parentheses in front of a suffix. -/
theorem lone_compound_suffixed (plain : everywhere hasPlainName type = true)
    (compound : type.isCompound = true) (steady : Steady type.clauses) :
    Lone (Text.parenthesize true type.render ++ arrayMark) :=
  lone_group_suffixed (nested_render plain) (isCompound_read_render plain compound)
    steady.comesBack_render.written

/-- An array that is written as one operand comes back: it has no element, a compound one, or
several, which are written as their union. -/
theorem lone_array {arguments : List TypeExpr}
    (plain : everywhere hasPlainName (builtIn .array arguments) = true)
    (atomic : (builtIn .array arguments).isAtomic = true)
    (inside : ∀ argument ∈ arguments, Steady argument.clauses) :
    Lone (builtIn .array arguments).render := by
  by_cases several : 1 < arguments.length
  · have named : everywhere hasPlainName (union arguments) = true :=
      everywhere_iff.mpr ⟨rfl, fun part here => everywhere_of_mem_parts plain here⟩
    have some := ne_nil_of_arity several
    have steady : Steady (union arguments).clauses := by
      rw [clauses_union some]
      exact Steady.flatMap some inside
    rw [render_array_several several]
    exact lone_compound_suffixed named (decide_eq_true several) steady
  · rcases eq_nil_or_singleton (Nat.le_of_not_lt several) with rfl | ⟨element, rfl⟩
    · have value : read (builtIn .array []).render = builtIn .array [primitive .any] := by
        rw [read_render_array_nil, read_of_isPlainName (by decide)]
        rfl
      exact Lone.of_read value rfl rfl
    · have compound : element.isCompound = true := atomic
      rw [render_array, compound]
      exact lone_compound_suffixed (everywhere_of_mem_parts plain (List.mem_singleton_self element))
        compound (inside element (List.mem_singleton_self element))

/-- What is written as one operand comes back as one. -/
theorem lone_of_isAtomic (stable : everywhere isStableNode type = true)
    (atomic : type.isAtomic = true) (inside : ∀ part ∈ type.parts, Steady part.clauses) :
    Lone type.render := by
  have node := check_of_everywhere stable
  cases type with
  | primitive name =>
    exact lone_of_isPlainName (by cases name <;> decide) (by cases name <;> decide)
      (by cases name <;> decide)
  | custom name =>
    simp only [isStableNode, Bool.and_eq_true, bne_iff_ne] at node
    obtain ⟨⟨word, noObject⟩, noMap⟩ := node
    rw [render_custom (isPlainName_iff.mp word).1]
    exact lone_of_isPlainName word noObject noMap
  | union members | intersection members =>
    obtain rfl : members = [] := List.isEmpty_iff.mp atomic
    exact lone_of_isPlainName (by decide) (by decide) (by decide)
  | builtIn head arguments =>
    by_cases array : head = .array
    · subst array
      exact lone_array (plain_of_stable stable) atomic inside
    · have back : ∀ text ∈ arguments.map render, ComesBack text :=
        List.forall_mem_map.mpr fun part here => (inside part here).comesBack_render
      rw [render, renderAll_eq_map]
      refine lone_containerText array (fun generic => ?_) back
      subst generic
      rw [List.isEmpty_iff.mp node, List.map_nil]

theorem keeps_memberClauses (stable : everywhere isStableNode type = true)
    (steady : Steady type.clauses) : Filled Keeps type.memberClauses := by
  have plain := plain_of_stable stable
  refine filled_memberClauses (fun choice => ?_) steady.filled
  exact keeps_group (nested_render plain) (isChoice_read_render plain choice)
    steady.comesBack_render.written

/-- The clauses of a type come back: the step for every kind of node. -/
theorem steady_clauses (stable : everywhere isStableNode type = true) : Steady type.clauses := by
  induction type using clauses_induction with
  | atom type atomic ih =>
    have inside : ∀ part ∈ type.parts, Steady part.clauses :=
      fun part here => ih part here (everywhere_of_mem_parts stable here)
    rw [clauses_of_isAtomic atomic]
    exact steady_single (lone_of_isAtomic stable atomic inside)
      (fits_atomic (plain_of_stable stable) atomic)
  | union members some ih =>
    rw [clauses_union some]
    exact Steady.flatMap some fun member here =>
      ih member here (everywhere_of_mem_parts stable here)
  | intersection members some ih =>
    have inside := fun member here => ih member here (everywhere_of_mem_parts stable here)
    have filled : ∀ member ∈ members, Filled Keeps member.memberClauses := fun member here =>
      keeps_memberClauses (everywhere_of_mem_parts stable here) (inside member here)
    rw [clauses_intersection some]
    refine ⟨filled_conjunctClauses some filled, ?_⟩
    by_cases several : 1 < members.length
    · exact alone_conjunctClauses filled (fun member here => (inside member here).alone) several
    · -- The only member of an intersection is written without parentheses.
      obtain ⟨member, rfl⟩ :=
        (eq_nil_or_singleton (Nat.le_of_not_lt several)).resolve_left some
      have single : member.isChoice = false := by
        simpa [isStableNode] using check_of_everywhere stable
      rw [conjunctClauses_singleton, memberClauses, single]
      exact (inside member (by simp)).alone
  | array element simple ih =>
    rw [clauses_array simple]
    exact (ih (everywhere_of_mem_parts stable (List.mem_singleton_self element))).suffixed

/-- What is read from a written type is written with the same text. -/
theorem render_read_render (stable : everywhere isStableNode type = true) :
    (read type.render).render = type.render :=
  (steady_clauses stable).comesBack_render.written

/-- Operators of one member or none, a map without arguments and suffixes of suffixes keep their
text, though another tree is read from it. -/
theorem render_read_render_degenerate :
    everywhere isStableNode (union [union [custom "Order".toText], intersection [],
        builtIn .array [builtIn .array [builtIn .tuple []]], builtIn .map []]) = true ∧
      (read (union [union [custom "Order".toText], intersection [],
          builtIn .array [builtIn .array [builtIn .tuple []]], builtIn .map []]).render).render =
        (union [union [custom "Order".toText], intersection [],
          builtIn .array [builtIn .array [builtIn .tuple []]], builtIn .map []]).render :=
  ⟨by decide, render_read_render (by decide)⟩

end Types

end SchemaBoard.TypeExpr
