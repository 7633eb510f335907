import Mathlib.Data.List.Basic
import SchemaBoard.Proofs.Declaration.MemberLines
import SchemaBoard.Proofs.Declaration.RoundTrip

set_option autoImplicit false

/-!
Remarks among members. The body of an interface is read line by line, and a block comment that is no
doc comment is not known there: its lines are read like the lines around it. Main statement: a block
comment between the members of an interface changes nothing exactly if each of its lines is silent.
-/
namespace SchemaBoard

open Text (Lacks)
open Comment (docOpen blockClose)

namespace Comment

/-- What stands between the opening mark of a block comment and its closing mark. -/
def block (inside : Text) : Text := "/*".toText ++ inside ++ blockClose

theorem eq_of_wholeDoc? {text inside : Text} (doc : wholeDoc? text = some inside) :
    text = docOpen ++ inside ++ blockClose := by
  unfold wholeDoc? at doc
  split at doc
  · next words found =>
    obtain rfl := Option.some.inj doc
    rw [leadingDoc?] at found
    split at found
    · next rest opened =>
      rw [Text.isPrefixOf?_eq_some_iff.mp opened, Text.eq_of_cut? found, List.append_nil,
        List.append_assoc]
    · cases found
  · cases doc

/-- Whatever doc comment is found in a block comment ends where the block comment does. -/
theorem eq_nil_of_doc_in_block {before inside front words behind : Text}
    (blank : Text.allBlank before = true) (free : Lacks ['*', '/'] inside)
    (same : before ++ block inside = front ++ (docOpen ++ words ++ blockClose) ++ behind) :
    behind = [] := by
  rcases List.eq_nil_or_concat behind with none | ⟨rest, c, rfl⟩
  · exact none
  exfalso
  have open_ : Lacks ['*', '/'] (inside ++ [.char '*']) :=
    free.append (by decide) fun _ => by decide
  -- Without its last character the block comment has no closing mark.
  have cut : (before ++ "/*".toText) ++ (inside ++ [.char '*']) =
      (front ++ docOpen ++ words) ++ (blockClose ++ rest) := by
    have whole : ((before ++ "/*".toText) ++ (inside ++ [.char '*'])) ++ [.char '/'] =
        ((front ++ docOpen ++ words) ++ (blockClose ++ rest)) ++ [c] := by
      simpa [block, blockClose, String.toText] using same
    exact (List.append_inj' whole rfl).1
  rcases List.append_eq_append_iff.mp cut with ⟨more, early, late⟩ | ⟨more, early, -⟩
  · refine (Text.lacks_iff (by decide)).mp open_ more rest ?_
    rw [late, List.append_assoc]
    rfl
  · -- A doc comment opens with two stars, and there is only one star so far.
    have none : before.count (.char '*') = 0 :=
      List.count_eq_zero.mpr (Text.not_mem_of_visible blank (by decide))
    have count := congrArg (List.count (.char '*')) early
    simp only [List.count_append, none] at count
    have opened : List.count (.char '*') docOpen = 2 ∧
        List.count (.char '*') "/*".toText = 1 := by decide
    omega

end Comment

namespace Outline

/-- The written form of a declaration with a text on lines of its own behind the first `count` of
its members, which have no comments. -/
def renderAround (declaration : Declaration) (count : Nat) (text : Text) : Text :=
  Text.join ['\n'] (headerLines declaration.comment ++
    (declaration.bodyLines.take (count + 1) ++ text :: declaration.bodyLines.drop (count + 1)))

def remark (before inside after : Text) : Text := before ++ Comment.block inside ++ after

section Remark

variable {before inside after : Text}

/-- Of the lines of a block comment only the last one may be a doc comment. -/
theorem exists_shown_remark (first : Text.allBlank before = true)
    (second : Text.allBlank after = true) (free : Lacks ['*', '/'] inside) :
    ∃ front last, Text.shown (remark before inside after) = front ++ [last] ∧
      ∀ line ∈ front, docLine? line = none := by
  have ends : (before ++ Comment.block inside).getLast? = some (.char '/') := by
    rw [Comment.block, ← List.append_assoc, List.getLast?_append]
    rfl
  obtain ⟨front, rest, whole, some, shown⟩ := Text.exists_shown_concat ends (by decide)
  refine ⟨Text.shown front, Text.trim rest, ?_, fun line member => ?_⟩
  · rw [remark, Text.shown_append_blank second, shown]
  · rw [docLine?, Option.map_eq_none_iff, Option.eq_none_iff_forall_ne_some]
    intro words doc
    obtain ⟨left, right, eq⟩ :=
      (Text.isInfix_trim line).trans (Text.isInfix_of_mem_shown member)
    rw [Comment.eq_of_wholeDoc? doc] at eq
    have same : before ++ Comment.block inside =
        left ++ (docOpen ++ words ++ blockClose) ++ (right ++ rest) := by
      rw [whole, ← eq]
      simp only [List.append_assoc]
    exact some (List.append_eq_nil_iff.mp (Comment.eq_nil_of_doc_in_block first free same)).2

/-- Lines of which at most the last one is a doc comment stand unnoticed in front of a member
exactly if they are silent. -/
theorem readLines_append_signature_eq_iff {front : List Text} {last : Text}
    (plain : ∀ line ∈ front, docLine? line = none) {member : Member} (writable : member.IsWritable)
    (rest : List Text) :
    readLines none ((front ++ [last]) ++ member.render :: rest) =
        readLines none (member.render :: rest) ↔
      ∀ line ∈ front ++ [last], IsSilent line := by
  have shows := Text.trim_eq_self (Member.solid_render writable.toFitsLine).trimmed
  refine ⟨fun same => ?_, fun silent => readLines_silent_append silent _⟩
  have nothing : (front ++ [last]).flatMap held = [] := by
    have members := congrArg (List.map Member.bare) same
    rw [map_bare_readLines, map_bare_readLines, List.flatMap_append] at members
    exact List.append_left_eq_self.mp members
  have noMember : ∀ line ∈ front ++ [last], ¬HoldsMember line := fun line member =>
    (held_eq_nil_iff line).mp (List.flatMap_eq_nil_iff.mp nothing line member)
  have none : (front ++ [last]).foldl unusedBehind none = none := by
    have unread : readLines none (front ++ [last]) = [] := by
      rw [← List.map_eq_nil_iff (f := Member.bare), map_bare_readLines, nothing]
    rw [readLines_append, unread, readLines_signature writable shows,
      readLines_signature writable shows] at same
    exact congrArg Member.comment (List.head_eq_of_cons_eq same)
  intro line member
  refine ⟨noMember line member, fun words doc => ?_⟩
  rcases List.mem_append.mp member with above | here
  · rw [plain line above] at doc
    cases doc
  · obtain rfl := List.mem_singleton.mp here
    rw [List.foldl_append, List.foldl_cons, List.foldl_nil, unusedBehind, doc] at none
    simpa using none

end Remark

section Around

variable {declaration : Declaration}

/-- The lines of members without comments. -/
def plainLines (members : List Member) : List Text :=
  members.map fun member => "  ".toText ++ member.render

theorem flatMap_memberLines {members : List Member}
    (plain : ∀ member ∈ members, member.comment = none) :
    members.flatMap memberLines = plainLines members := by
  rw [plainLines, List.map_eq_flatMap]
  refine List.flatMap_congr fun member here => ?_
  rw [memberLines, plain member here]
  rfl

theorem flatMap_shown_plainLines {members : List Member}
    (writable : ∀ member ∈ members, member.IsWritable) :
    (plainLines members).flatMap Text.shown = members.map Member.render := by
  rw [plainLines, List.flatMap_map, List.map_eq_flatMap]
  refine List.flatMap_congr fun member here => ?_
  have fits := (writable member here).toFitsLine
  have shown := (Member.solid_render fits).shown_eq (Member.singleLine_render fits)
  rw [Text.shown_blank_append (by decide), shown]

/-- Behind members no comment is unused. -/
theorem readLines_render_append {members : List Member}
    (writable : ∀ member ∈ members, member.IsWritable) (below : List Text) :
    readLines none (members.map Member.render ++ below) =
      members.map Member.bare ++ readLines none below := by
  induction members with
  | nil => rfl
  | cons member rest ih =>
    have here := writable member (by simp)
    have shows := Text.trim_eq_self (Member.solid_render here.toFitsLine).trimmed
    have later := ih fun other inside => writable other (List.mem_cons_of_mem member inside)
    rw [List.map_cons, List.cons_append, readLines_signature here shows, later]
    rfl

theorem readLines_plainLines_append {members : List Member}
    (writable : ∀ member ∈ members, member.IsWritable) (below : List Text) :
    readLines none ((plainLines members ++ below).flatMap Text.shown) =
      members.map Member.bare ++ readLines none (below.flatMap Text.shown) := by
  rw [List.flatMap_append, flatMap_shown_plainLines writable, readLines_render_append writable]

theorem lines_renderAround (writable : IsWritableInterface declaration)
    (plain : ∀ member ∈ declaration.fields, member.comment = none) {count : Nat}
    (inside : count ≤ declaration.fields.length) (text : Text) :
    declaration.bodyLines.take (count + 1) ++ text :: declaration.bodyLines.drop (count + 1) =
      ("interface ".toText ++ (declaration.name ++ behindName declaration.bases)) ::
        ((plainLines (declaration.fields.take count) ++
          text :: plainLines (declaration.fields.drop count)) ++ ["\x7d".toText]) := by
  have within : count ≤ (plainLines declaration.fields).length := by
    rwa [plainLines, List.length_map]
  rw [bodyLines_interface writable, flatMap_memberLines plain, List.take_succ_cons,
    List.drop_succ_cons, List.take_append_of_le_length within,
    List.drop_append_of_le_length within, plainLines, plainLines, plainLines, List.map_take,
    List.map_drop]
  simp only [List.cons_append, List.append_assoc]

/-- The members of an interface have no comments. A block comment on lines of its own between two of
them, or in front of the first one, changes nothing in what is read exactly if each of its lines is
silent: no signature of a member stands between the semicolons of the line, in front of `//`, and
the line is no doc comment that says something. -/
theorem read?_renderAround_remark_iff (writable : IsWritableInterface declaration)
    (plain : ∀ member ∈ declaration.fields, member.comment = none) {count : Nat}
    (between : count < declaration.fields.length) {before inside after : Text}
    (first : Text.allBlank before = true) (second : Text.allBlank after = true)
    (free : Lacks ['*', '/'] inside) :
    read? (renderAround declaration count (remark before inside after)) =
        read? declaration.render ↔
      ∀ line ∈ Text.lines (remark before inside after), IsSilent line := by
  obtain ⟨front, last, shown, noDoc⟩ := exists_shown_remark first second free
  obtain ⟨member, rest, below⟩ : ∃ member rest, declaration.fields.drop count = member :: rest :=
    List.exists_cons_of_ne_nil fun none => absurd (List.drop_eq_nil_iff.mp none) (by omega)
  have upper : ∀ member ∈ declaration.fields.take count, member.IsWritable :=
    fun member taken => writable.members member (List.mem_of_mem_take taken)
  have lower : ∀ member ∈ declaration.fields.drop count, member.IsWritable :=
    fun member taken => writable.members member (List.mem_of_mem_drop taken)
  have parted : declaration.fields.flatMap memberLines =
      plainLines (declaration.fields.take count) ++ plainLines (declaration.fields.drop count) := by
    rw [flatMap_memberLines plain, plainLines, plainLines, plainLines, ← List.map_append,
      List.take_append_drop]
  have alone : read? declaration.render = some { declaration with
      fields := (declaration.fields.take count).map Member.bare ++
        readLines none ((member :: rest).map Member.render)
      comment := settledHeader declaration.comment } := by
    rw [render, bodyLines_interface writable, read?_lines_of_writable writable, parted,
      readLines_plainLines_append upper, flatMap_shown_plainLines lower, below]
  have around : read? (renderAround declaration count (remark before inside after)) =
      some { declaration with
        fields := (declaration.fields.take count).map Member.bare ++
          readLines none ((front ++ [last]) ++ (member :: rest).map Member.render)
        comment := settledHeader declaration.comment } := by
    rw [renderAround, lines_renderAround writable plain (Nat.le_of_lt between),
      read?_lines_of_writable writable, readLines_plainLines_append upper, List.flatMap_cons, shown,
      flatMap_shown_plainLines lower, below]
  have next : member.IsWritable := lower member (below ▸ List.mem_cons_self)
  rw [around, alone, forall_lines_isSilent_iff, shown,
    ← readLines_append_signature_eq_iff noDoc next (rest.map Member.render), List.map_cons]
  constructor
  · intro same
    exact List.append_cancel_left (congrArg Outline.fields (Option.some.inj same))
  · intro same
    rw [same]

theorem read?_renderAround_remark_iff_prose :
    let declaration : Declaration :=
      { name := "A".toText, kind := .interface
        fields := [{ name := "a".toText, type := .primitive .string },
                   { name := "b".toText, type := .primitive .number }] }
    let text := remark "\t".toText " was: a list; see\r\n B ".toText "  ".toText
    IsWritableInterface declaration ∧ (∀ member ∈ declaration.fields, member.comment = none) ∧
      text = "\t/* was: a list; see\r\n B */  ".toText ∧
      read? (renderAround declaration 1 text) = read? declaration.render := by
  intro declaration text
  have writable : IsWritableInterface declaration := isWritableInterface_of_regular (by decide)
  have plain : ∀ member ∈ declaration.fields, member.comment = none := by decide
  exact ⟨writable, plain, by decide,
    (read?_renderAround_remark_iff writable plain (by decide) (by decide) (by decide)
      (by decide)).mpr (by decide)⟩

/-- A member is read from inside a block comment. -/
theorem read?_renderAround_remark_member :
    let a : Member := { name := "a".toText, type := .primitive .string }
    let b : Member := { name := "b".toText, type := .primitive .string }
    let x : Member := { name := "x".toText, type := .primitive .number }
    let declaration : Declaration := { name := "A".toText, kind := .interface, fields := [a, b] }
    let text := remark "  ".toText "\n  x: number;\n  ".toText []
    text = "  /*\n  x: number;\n  */".toText ∧ read? declaration.render = some declaration ∧
      read? (renderAround declaration 1 text) = some { declaration with fields := [a, x, b] } := by
  intro a b x declaration text
  have writable : IsWritableInterface declaration := isWritableInterface_of_regular (by decide)
  have plain : ∀ member ∈ declaration.fields, member.comment = none := by decide
  have regular : ∀ member ∈ [a, x, b], member.isRegular = true := by decide
  have each : ∀ member ∈ [a, x, b], member.IsWritable := fun member here =>
    Member.isWritable_of_isRegular (regular member here)
  have step : ∀ member ∈ [a, x, b], ∀ below, readLines none (member.render :: below) =
      member.bare :: readLines none below := fun member here below =>
    readLines_signature (each member here)
      (Text.trim_eq_self (Member.solid_render (each member here).toFitsLine).trimmed) none below
  have shown : (plainLines [a] ++ text :: plainLines [b]).flatMap Text.shown =
      a.render :: (["/*".toText] ++ x.render :: (["*/".toText] ++ [b.render])) := by decide
  refine ⟨by decide, (comesBack_interface writable).read, ?_⟩
  rw [renderAround, lines_renderAround writable plain (by decide), read?_lines_of_writable writable]
  have fields : readLines none ((plainLines [a] ++ text :: plainLines [b]).flatMap Text.shown) =
      [a, x, b] := by
    rw [shown, step a (by decide), readLines_silent_append (by decide), step x (by decide),
      readLines_silent_append (by decide), step b (by decide)]
    rfl
  exact congrArg (fun members => some { declaration with fields := members }) fields

end Around

end Outline

end SchemaBoard
