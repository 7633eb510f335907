import SchemaBoard.Proofs.Declaration.Legible

set_option autoImplicit false

/-!
Sketches: declarations with gaps. A name may be missing, a list may be empty and a type may lack its
parts; comments are any text. Main statement: the text of a sketch is read as a declaration of its
name, with the bases and the members of an interface, exactly if its name is not made of blanks. An
empty name is filled in, but blanks are written as they are and leave nothing that can be read as a
name.
-/
namespace SchemaBoard

namespace Member

/-- The name that a member goes by in a text. -/
def givenName (member : Member) : Text :=
  if Text.allBlank member.name then "unnamed".toText else member.name

/-- The member under the name that it goes by. -/
def titled (member : Member) : Member := { member with name := member.givenName }

/-- What a signature says in front of the type. -/
def heading (member : Member) : Text × Bool × Bool :=
  (member.name, member.optional, member.readonly)

theorem nameText_givenName (member : Member) :
    nameText member.givenName = nameText member.name := by
  rw [givenName]
  split
  · next blank =>
    rw [nameText, nameText, Text.trim_blank blank]
    decide
  · rfl

theorem signature_titled (member : Member) : member.titled.signature = member.signature := by
  rw [signature, signature, titled, nameText_givenName]

end Member

namespace Outline

/-- A declaration that may have gaps: a name is an identifier or blank, and so is every operand of
an alias. -/
structure IsSketch (sketch : Declaration) : Prop where
  kind : sketch.kind ≠ .enum
  name : isBlankOrWord sketch.name = true
  bases : ∀ base ∈ sketch.bases, Text.isIdentifier base = true
  names : ∀ member ∈ sketch.fields, isBlankOrWord member.name = true
  types : ∀ member ∈ sketch.fields, TypeExpr.everywhere TypeExpr.hasIdentifier member.type = true
  union : ∀ text ∈ sketch.unionTypes, isBlankOrWord text = true
  intersection : ∀ text ∈ sketch.intersectionTypes, isBlankOrWord text = true

def givenName (sketch : Declaration) : Text :=
  if Text.allBlank sketch.name then "Unnamed".toText else sketch.name

/-- What the text of a sketch is to be read as. -/
structure Survives (sketch found : Declaration) : Prop where
  name : found.name = sketch.givenName
  interface : sketch.kind = .interface → found.kind = .interface ∧ found.bases = sketch.bases ∧
    found.fields.map Member.heading = sketch.fields.map fun member => member.titled.heading

/-- The sketch with its members titled and under another name. -/
def retitled (sketch : Declaration) (name : Text) : Declaration :=
  { sketch with name := name, fields := sketch.fields.map Member.titled }

section Sketch

variable {sketch : Declaration} {name : Text}

theorem givenName_of_isBlankOrWord {text default : Text}
    (either : isBlankOrWord text = true) (word : Text.isIdentifier default = true) :
    Text.isIdentifier (if Text.allBlank text then default else text) = true := by
  rw [isBlankOrWord, Bool.or_eq_true] at either
  split
  · exact word
  · next visible => exact either.resolve_left visible

theorem isLegible_titled (valid : IsSketch sketch) {member : Member}
    (here : member ∈ sketch.fields) : member.titled.IsLegible where
  word := givenName_of_isBlankOrWord (valid.names member here) (by decide)
  named := TypeExpr.everywhere_mono (fun _ => TypeExpr.hasTypeName_of_hasIdentifier)
    (valid.types member here)

theorem hasLegibleParts_retitled (valid : IsSketch sketch) (name : Text) :
    HasLegibleParts (sketch.retitled name) where
  kind := valid.kind
  bases := valid.bases
  members := by
    intro member here
    obtain ⟨source, inside, rfl⟩ := List.mem_map.mp here
    exact (isLegible_titled valid inside).fitsLine
  union := valid.union
  intersection := valid.intersection

/-- A name that is written the same, and titles that are written anyway, change nothing. -/
theorem render_retitled (same : nameText name = nameText sketch.name) :
    (sketch.retitled name).render = sketch.render := by
  have lines : (sketch.fields.map Member.titled).flatMap memberLines =
      sketch.fields.flatMap memberLines := by
    rw [List.flatMap_map]
    refine List.flatMap_congr fun member _ => ?_
    rw [memberLines, memberLines, Member.render, Member.render, Member.signature_titled]
    rfl
  have root : aliasRoot (sketch.retitled name) = aliasRoot sketch := by
    have signatures : (sketch.fields.map Member.titled).map Member.signature =
        sketch.fields.map Member.signature := by
      rw [List.map_map]
      exact List.map_congr_left fun member _ => Member.signature_titled member
    rw [aliasRoot, aliasRoot, retitled, inlineObject, signatures, List.isEmpty_map, inlineObject]
  have body : (sketch.retitled name).bodyLines = sketch.bodyLines := by
    rw [bodyLines, bodyLines, root, retitled, same, lines]
  rw [render, render, body, retitled]

/-- With its name filled in, a sketch is read as what it names. -/
theorem exists_survivor (valid : IsSketch sketch)
    (filled : Text.allBlank sketch.name = true → sketch.name = []) :
    ∃ found, read? sketch.render = some found ∧ Survives sketch found := by
  have same : nameText sketch.givenName = nameText sketch.name := by
    rw [givenName]
    split
    · next blank =>
      rw [filled blank]
      decide
    · rfl
  have legible : IsLegible (sketch.retitled sketch.givenName) :=
    ⟨hasLegibleParts_retitled valid _, givenName_of_isBlankOrWord valid.name (by decide)⟩
  obtain ⟨found, reads, called, interface⟩ := exists_declared_of_isLegible legible
  refine ⟨{ found with comment := settledHeader sketch.comment }, ?_, called, fun kind => ?_⟩
  · rw [← render_retitled same, read?_render_of_endsOutside legible.toHasLegibleParts
      legible.endsOutside, reads]
    rfl
  · obtain ⟨sameKind, bases, fields⟩ := interface kind
    refine ⟨sameKind, bases, ?_⟩
    have headings := congrArg (List.map Member.heading) fields
    rw [List.map_map, List.map_map, retitled, List.map_map] at headings
    exact headings

/-- Behind the name of a declaration stands a brace, the word that leads its bases, or an equals
sign. -/
theorem exists_behind_name {declaration : Declaration} (parts : HasLegibleParts declaration) :
    ∃ keyword rest, ∃ c ∈ "\x7be=".toText,
      (keyword = "interface".toText ∨ keyword = "type".toText) ∧ rest.head? = some c ∧
        declaration.bodyText =
          keyword ++ .char ' ' :: ((nameText declaration.name ++ [.char ' ']) ++ rest) := by
  rcases parts.kinds with interface | assigned
  · have behind : ∃ rest, ∃ c ∈ "\x7be=".toText, rest.head? = some c ∧
        behindName declaration.bases = .char ' ' :: rest := by
      rw [behindName, basesText]
      split
      · exact ⟨_, .char '\x7b', by decide, rfl, rfl⟩
      · exact ⟨_, .char 'e', by decide, rfl, rfl⟩
    obtain ⟨rest, c, known, head, eq⟩ := behind
    refine ⟨"interface".toText, rest ++ (insideOf (declaration.fields.flatMap memberLines) ++
      "\x7d".toText), c, known, Or.inl rfl, ?_, ?_⟩
    · rw [List.head?_append, head]
      rfl
    · rw [bodyText_of_interface interface, eq]
      simp only [List.append_assoc, List.cons_append]
      rfl
  · refine ⟨"type".toText, "= ".toText ++ (aliasRoot declaration ++ [.char ';']), .char '=',
      by decide, Or.inr rfl, rfl, ?_⟩
    rw [bodyText_of_alias assigned, aliasText]
    simp only [List.append_assoc]
    rfl

/-- Behind a name of blanks a text goes on with a brace, a clause or an equals sign, so that it is
not read under the name that fills a gap. -/
theorem name_ne_of_blank {declaration found : Declaration} (parts : HasLegibleParts declaration)
    (blank : Text.allBlank declaration.name = true) (there : declaration.name ≠ [])
    (reads : read? declaration.render = some found) : found.name ≠ "Unnamed".toText := by
  have own : nameText declaration.name = declaration.name := if_neg (by simpa using there)
  have free : .char '/' ∉ nameText declaration.name := by
    rw [own]
    exact Text.not_mem_of_visible blank (by decide)
  rw [read?_render_of_endsOutside parts (endsOutside_bodyText parts free)] at reads
  obtain ⟨inner, declares, rfl⟩ := Option.map_eq_some_iff.mp reads
  obtain ⟨keyword, rest, c, mark, known, head, body⟩ := exists_behind_name parts
  have visible : ∀ c ∈ "\x7be=".toText, Text.isBlank c = false ∧ some c ≠ some (.char 'U') := by
    decide
  have blanks : Text.allBlank (nameText declaration.name ++ [.char ' ']) = true := by
    rw [own, Text.allBlank_append, blank]
    decide
  rw [body] at declares
  have starts := head?_name_of_keyword known blanks head (visible c mark).1 declares
  intro same
  have first : inner.name.head? = some (.char 'U') := congrArg List.head? same
  exact (visible c mark).2 (starts.symm.trans first)

/-- The text of a sketch is read as what it names exactly if its name is empty or not blank. -/
theorem read?_sketch_iff (valid : IsSketch sketch) :
    (∃ found, read? sketch.render = some found ∧ Survives sketch found) ↔
      (Text.allBlank sketch.name = true → sketch.name = []) := by
  constructor
  · rintro ⟨found, reads, survives⟩ blank
    by_contra some
    have other := name_ne_of_blank (hasLegibleParts_retitled valid sketch.name) blank some
      ((render_retitled rfl).symm ▸ reads)
    rw [survives.name, givenName, if_pos blank] at other
    exact other rfl
  · exact exists_survivor valid

/-- An interface without a name, whose members have no name, no type and several types of an
element, and a comment that closes itself. -/
theorem read?_sketch_iff_gaps :
    let sketch : Declaration :=
      { name := [], kind := .interface, bases := ["Base".toText]
        fields := [{ name := "\t".toText, type := .union [], optional := true
                     comment := some "a // b */ c".toText },
                   { name := "id".toText
                     type := .builtIn .array [.primitive .string, .builtIn .map []]
                     readonly := true }] }
    sketch.render = ("interface Unnamed extends Base \x7b\n  /** a // b * / c */\n" ++
        "  unnamed?: unknown;\n  readonly id: (string | Map<unknown, unknown>)[];\n\x7d").toText ∧
      ∃ found, read? sketch.render = some found ∧ Survives sketch found :=
  ⟨by decide +kernel, (read?_sketch_iff
    ⟨by decide, by decide, by decide, by decide, by decide, by decide, by decide⟩).mpr fun _ => rfl⟩

/-- Blanks for a name are written between the keyword and the brace, where no name is read. -/
theorem read?_sketch_blank_name :
    let sketch : Declaration := { name := " ".toText, kind := .interface }
    IsSketch sketch ∧ sketch.render = "interface   \x7b\n\x7d".toText ∧
      read? sketch.render = none :=
  ⟨⟨by decide, by decide, by decide, by decide, by decide, by decide, by decide⟩,
    by decide +kernel, by decide +kernel⟩

end Sketch

end Outline

end SchemaBoard
