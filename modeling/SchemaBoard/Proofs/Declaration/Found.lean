import SchemaBoard.Proofs.Declaration.Conservation
import SchemaBoard.Proofs.Declaration.Heads
import SchemaBoard.Proofs.TypeExpr.Reading

set_option autoImplicit false

/-!
What is read. Whatever a text says, the declarations that are read from it have identifiers for
names, trimmed comments, types with the arities of their containers, and operands that were cut from
one right-hand side. Main statement: every declaration that is read from a text has this form.
-/
namespace SchemaBoard

namespace Text

/-- What follows a keyword is an end of the text. -/
theorem afterWord?_suffix {word text rest : Text} (found : afterWord? word text = some rest) :
    rest <:+ text := by
  unfold afterWord? at found
  split at found
  · next c behind eq =>
    split at found
    · have whole := isPrefixOf?_eq_some_iff.mp eq
      obtain rfl := Option.some.inj found
      have start : trimStart behind <:+ behind := List.dropWhile_suffix isBlank
      rw [whole]
      exact (start.trans (List.suffix_cons c behind)).trans (List.suffix_append word _)
    · cases found
  · cases found

theorem identifier?_suffix {text name rest : Text} (found : identifier? text = some (name, rest)) :
    rest <:+ text :=
  identifier?_append found ▸ List.suffix_append name rest

theorem dropFinal_subset (c : CodePoint) (text : Text) : dropFinal c text ⊆ text := by
  unfold dropFinal
  split
  · exact (List.dropLast_sublist text).subset
  · exact List.Subset.refl text

theorem trim_subset (text : Text) : trim text ⊆ text := (isInfix_trim text).subset

end Text

namespace Member

/-- What is known about every member that is read. -/
structure IsFound (member : Member) : Prop where
  word : Text.isIdentifier member.name = true
  arities : TypeExpr.everywhere TypeExpr.hasReadArity member.type = true
  comment : ∀ text, member.comment = some text → Text.Trimmed text

section Found

variable {member : Member} {text : Text}

theorem isFound_of_ofPlain? (found : ofPlain? text = some member) : member.IsFound := by
  unfold ofPlain? at found
  split at found
  · cases found
  · next name rest named =>
    dsimp only at found
    split at found
    · split at found
      · cases found
      · obtain rfl := Option.some.inj found
        exact ⟨Text.identifier?_isIdentifier named, TypeExpr.everywhere_hasReadArity_read _,
          fun _ same => by cases same⟩
    · cases found

theorem isFound_of_read? (found : read? text = some member) : member.IsFound := by
  unfold read? ofSignature? at found
  split at found
  · next plain eq =>
    obtain ⟨rest, -, inner⟩ := Option.bind_eq_some_iff.mp eq
    obtain rfl := Option.some.inj found
    have known := isFound_of_ofPlain? inner
    exact ⟨known.word, known.arities, known.comment⟩
  · exact isFound_of_ofPlain? found

end Found

end Member

namespace Outline

section Members

variable {member : Member} {pending : Option Text}

theorem isFound_document {members : List Member} (found : ∀ member ∈ members, member.IsFound)
    (trimmed : ∀ text, pending = some text → Text.Trimmed text) :
    (∀ member ∈ (document pending members).1, member.IsFound) ∧
      ∀ text, (document pending members).2 = some text → Text.Trimmed text := by
  cases members with
  | nil =>
    refine ⟨fun member here => ?_, trimmed⟩
    cases here
  | cons first rest =>
    have later : ∀ member ∈ rest, member.IsFound :=
      fun member here => found member (List.mem_cons_of_mem first here)
    have here := found first List.mem_cons_self
    cases pending with
    | none => exact ⟨found, fun _ same => by cases same⟩
    | some comment =>
      refine ⟨fun member inside => ?_, fun _ same => by cases same⟩
      rcases List.mem_cons.mp inside with rfl | inside
      · exact ⟨here.word, here.arities, trimmed⟩
      · exact later member inside

theorem isFound_of_mem_readLines {lines : List Text}
    (trimmed : ∀ text, pending = some text → Text.Trimmed text)
    (here : member ∈ readLines pending lines) : member.IsFound := by
  induction lines generalizing pending with
  | nil => cases here
  | cons raw rest ih =>
    rw [readLines] at here
    dsimp only at here
    split at here
    · refine ih (fun text same => ?_) here
      split at same
      · cases same
      · exact Option.some.inj same ▸ Text.trimmed_trim _
    · have found : ∀ line : Text, ∀ member ∈ lineMembers line, member.IsFound := by
        intro line member inside
        obtain ⟨signature, -, read⟩ := List.mem_filterMap.mp inside
        exact Member.isFound_of_read? read
      obtain ⟨known, unused⟩ := isFound_document (found _) trimmed
      rcases List.mem_append.mp here with first | later
      · exact known member first
      · exact ih unused later

theorem isFound_of_mem_readMembers {body : Text} (here : member ∈ readMembers body) :
    member.IsFound := by
  refine isFound_of_mem_readLines (fun text same => ?_) here
  cases same

end Members

/-- What is known about every declaration that is read: an interface lists no operands, and an alias
is what its right-hand side says. -/
structure IsFound (declaration : Declaration) : Prop where
  word : Text.isIdentifier declaration.name = true
  comment : ∀ text, declaration.comment = some text → Text.Trimmed text
  fields : ∀ member ∈ declaration.fields, member.IsFound
  form : (declaration.kind = .interface ∧ declaration.unionTypes = [] ∧
      declaration.intersectionTypes = []) ∨
    ∃ root, Text.Solid root ∧ Text.OnlyFeeds root ∧ declaration =
      { ofRightHandSide declaration.name root with comment := declaration.comment }

section Declarations

variable {declaration : Declaration} {text : Text}

theorem of_declared {word name rest : Text} (found : declared word text = some (name, rest)) :
    Text.isIdentifier name = true ∧ rest <:+ text := by
  rw [declared_eq] at found
  obtain ⟨behind, keyword, named⟩ := Option.bind_eq_some_iff.mp found
  have exported : afterExport text <:+ text := by
    rw [afterExport]
    cases modifier : Text.afterWord? "export".toText text with
    | none => exact List.suffix_refl text
    | some after => exact Text.afterWord?_suffix modifier
  exact ⟨Text.identifier?_isIdentifier named, (Text.identifier?_suffix named).trans
    ((Text.afterWord?_suffix keyword).trans exported)⟩

theorem mark_suffix {c : CodePoint} {rest : Text} (found : mark c text = some ((), rest)) :
    rest <:+ text := by
  unfold mark at found
  split at found
  · next d behind eq =>
    split at found
    · obtain ⟨-, rfl⟩ := Prod.mk.inj (Option.some.inj found)
      have start : d :: behind <:+ text := eq ▸ trimStart_suffix text
      exact (List.suffix_cons d behind).trans start
    · cases found
  · cases found

theorem isFound_of_interface? (found : interface? text = some declaration) :
    declaration.IsFound := by
  obtain ⟨⟨rest, named⟩, inside, same⟩ := declared_of_interface? found
  rw [same]
  refine ⟨(of_declared named).1, fun _ absent => ?_, fun member => isFound_of_mem_readMembers,
    Or.inl ⟨rfl, rfl, rfl⟩⟩
  cases absent

theorem isFound_ofRightHandSide {name root : Text} (word : Text.isIdentifier name = true)
    (solid : Text.Solid root) (feeds : Text.OnlyFeeds root) :
    (ofRightHandSide name root).IsFound := by
  obtain ⟨sameName, -, -, noComment⟩ := ofRightHandSide_parts name root
  refine ⟨by rwa [sameName], fun text some => ?_, fun member here => ?_,
    Or.inr ⟨root, solid, feeds, by rw [sameName]⟩⟩
  · rw [noComment] at some
    cases some
  · rcases ofRightHandSide_cases name root with ⟨inside, -, eq⟩ | ⟨-, eq⟩ | ⟨-, eq⟩ | ⟨-, eq⟩ <;>
      rw [eq] at here
    · exact isFound_of_mem_readMembers here
    all_goals cases here

theorem isFound_of_assigned? (feeds : Text.OnlyFeeds text)
    (found : assigned? text = some declaration) : declaration.IsFound := by
  rw [assigned?_eq_head] at found
  obtain ⟨⟨name, rest⟩, head, inner⟩ := Option.bind_eq_some_iff.mp found
  dsimp only at inner
  split at inner
  · cases inner
  · next visible =>
    obtain rfl := Option.some.inj inner
    obtain ⟨⟨first, behind⟩, named, later⟩ := Option.bind_eq_some_iff.mp head
    obtain ⟨⟨_, after⟩, equals, same⟩ := Option.bind_eq_some_iff.mp later
    obtain ⟨rfl, rfl⟩ := Prod.mk.inj (Option.some.inj same)
    obtain ⟨word, suffix⟩ := of_declared named
    have whole : after ⊆ text := ((mark_suffix equals).trans suffix).subset
    have trimmed := List.Subset.trans (Text.trim_subset after) whole
    have dropped := List.Subset.trans (Text.dropFinal_subset ';' _) trimmed
    have inside := List.Subset.trans (Text.trim_subset _) dropped
    exact isFound_ofRightHandSide word ⟨by simpa using visible, Text.trimmed_trim _⟩
      (feeds.subset inside)

theorem dropTrailing_isPrefix (text : Text) : Comment.dropTrailing text <+: text := by
  induction text with
  | nil => exact List.prefix_refl []
  | cons c rest ih =>
    rw [Comment.dropTrailing]
    split
    · exact List.nil_prefix
    · exact List.cons_prefix_cons.mpr ⟨rfl, ih⟩

theorem commentAndBody_subset (text : Text) : (commentAndBody text).2 ⊆ text := by
  rw [commentAndBody]
  split
  · next inside rest found =>
    have behind : rest ⊆ Text.trim text := by
      unfold Comment.leadingDoc? at found
      split at found
      · next after eq =>
        rw [Text.isPrefixOf?_eq_some_iff.mp eq, Text.eq_of_cut? found]
        exact List.Subset.trans (List.subset_append_right _ _) (List.subset_append_right _ _)
      · cases found
    exact List.Subset.trans (Text.trim_subset rest)
      (List.Subset.trans behind (Text.trim_subset text))
  · exact Text.trim_subset text

theorem trimmed_commentAndBody {comment : Text} (found : (commentAndBody text).1 = some comment) :
    Text.Trimmed comment := by
  rw [commentAndBody] at found
  split at found
  · exact Option.some.inj found ▸ Text.trimmed_trim _
  · cases found

theorem isFound_of_read? (feeds : Text.OnlyFeeds text) (found : read? text = some declaration) :
    declaration.IsFound := by
  rw [read?_eq_body] at found
  obtain ⟨inner, body, rfl⟩ := Option.map_eq_some_iff.mp found
  have inside := List.Subset.trans (dropTrailing_isPrefix _).subset (commentAndBody_subset text)
  have known : inner.IsFound := by
    rcases Option.or_eq_some_iff.mp body with interface | ⟨-, assigned⟩
    · exact isFound_of_interface? interface
    · exact isFound_of_assigned? (feeds.subset inside) assigned
  refine ⟨known.word, fun comment some => trimmed_commentAndBody some, known.fields, ?_⟩
  rcases known.form with interface | ⟨root, solid, only, eq⟩
  · exact Or.inl interface
  · refine Or.inr ⟨root, solid, only, ?_⟩
    have same := congrArg (fun other : Declaration =>
      { other with comment := (commentAndBody text).1 }) eq
    exact same

end Declarations

end Outline

namespace Batch

/-- Blocks have no other line breaks than those between their lines. -/
theorem onlyFeeds_of_mem_split {text block : Text} (here : block ∈ split text) :
    Text.OnlyFeeds block := by
  have feed : Text.OnlyFeeds [.char '\n'] := fun c here _ => List.mem_singleton.mp here
  have each : ∀ other ∈ (blockLines [] (Text.lines text)).map fun lines =>
      Text.trim (Text.join ['\n'] lines), Text.OnlyFeeds other := by
    intro other inside
    obtain ⟨lines, member, rfl⟩ := List.mem_map.mp inside
    refine Text.OnlyFeeds.subset (feed.join fun line listed => ?_) (Text.trim_subset _)
    have known := (of_mem_blockLines member).2 line listed
    rw [List.nil_append] at known
    exact (Text.singleLine_of_mem_lines known).onlyFeeds
  exact (grown_of_mem_merge each block here).of_closed (fun _ known => known)
    fun _ _ left right => left.append (feed.append right)

/-- Every declaration that is read has the form of what is found. -/
theorem isFound_of_mem_read {text : Text} {declaration : Declaration}
    (here : declaration ∈ read text) : declaration.IsFound := by
  obtain ⟨block, inside, found⟩ := List.mem_filterMap.mp here
  exact Outline.isFound_of_read? (onlyFeeds_of_mem_split inside) found

end Batch

end SchemaBoard
