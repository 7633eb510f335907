import Mathlib.Data.List.Basic
import SchemaBoard.Proofs.Declaration.Blocks
import SchemaBoard.Proofs.Session.Invariant

set_option autoImplicit false

/-!
Importing source text. Main statement: an import puts the declarations of a text behind the others,
one box for each, and exporting gives their text back.
-/
namespace SchemaBoard

/-- Two texts with a blank line between them, unless one of them is empty. -/
def Text.withBlankLine (first second : Text) : Text :=
  if first.isEmpty || second.isEmpty then first ++ second
  else first ++ (['\n', '\n'] : Text) ++ second

/-- A session after boxes for some declarations have been put behind the others, and nothing else
has been done. The boxes stand at the origin under ids that were not issued before. For each of them
the clock is read three times, the third time for the board. -/
structure Session.Appends (ids : IdSource) (clock : Clock) (declarations : List Declaration)
    (made : List Box) (session next : Session) : Prop where
  declared : made.map Box.declaration = declarations
  boxes : next.board.boxes = session.board.boxes ++ made.map fun box => (box.id, box)
  order : next.board.order = session.board.order ++ made.map Box.id
  settings : next.settings = session.settings
  selection : next.selection = session.selection
  focus : next.focus = session.focus
  issued : session.issued ≤ next.issued
  issuedIds : ∀ box ∈ made, ∃ number, session.issued ≤ number ∧ number < next.issued ∧
    box.id = ids number
  fresh : ∀ box ∈ made, box.id ∉ session.board.keys
  distinct : (made.map Box.id).Nodup
  places : ∀ box ∈ made, box.position = {}
  times : ∀ (number : Nat) (less : number < made.length),
    made[number].createdAt = clock.reading (3 * number) ∧
      made[number].updatedAt = clock.reading (3 * number + 1)

namespace Outline

theorem renderAll_eq_nil_iff {declarations : List Declaration} :
    renderAll declarations = [] ↔ declarations = [] := by
  constructor
  · intro empty
    cases declarations with
    | nil => rfl
    | cons first rest =>
      have inside : ∀ c ∈ first.render, c ∈ renderAll (first :: rest) :=
        fun c member => Text.mem_join_of_mem _ (List.mem_cons_self) member
      obtain ⟨c, member⟩ := List.exists_mem_of_ne_nil _ (render_ne_nil first)
      have absent := inside c member
      rw [empty] at absent
      cases absent
  · rintro rfl
    rfl

/-- A blank line stands between the texts of neighbours. -/
theorem renderAll_append (first second : List Declaration) :
    renderAll (first ++ second) = Text.withBlankLine (renderAll first) (renderAll second) := by
  unfold Text.withBlankLine
  by_cases left : first = []
  · subst left
    rfl
  by_cases right : second = []
  · subst right
    simp [renderAll, Text.join]
  · have leftText : (renderAll first).isEmpty = false := by
      simpa [renderAll_eq_nil_iff] using left
    have rightText : (renderAll second).isEmpty = false := by
      simpa [renderAll_eq_nil_iff] using right
    rw [leftText, rightText]
    simp only [renderAll, List.map_append]
    exact Text.join_append _ (mt List.map_eq_nil_iff.mp left) (mt List.map_eq_nil_iff.mp right)

end Outline

namespace Session

section Appending

variable {ids : IdSource} {clock : Clock} {declarations others : List Declaration}
  {made more : List Box} {session next last : Session}

theorem Appends.keys (appends : Appends ids clock declarations made session next) :
    next.board.keys = session.board.keys ++ made.map Box.id := by
  rw [Board.keys, appends.boxes, List.map_append, List.map_map]
  rfl

theorem Appends.refl (ids : IdSource) (clock : Clock) (session : Session) :
    Appends ids clock [] [] session session where
  declared := rfl
  boxes := (List.append_nil _).symm
  order := (List.append_nil _).symm
  settings := rfl
  selection := rfl
  focus := rfl
  issued := Nat.le_refl _
  issuedIds := nofun
  fresh := nofun
  distinct := List.nodup_nil
  places := nofun
  times := nofun

theorem Appends.trans (first : Appends ids clock declarations made session next)
    (second : Appends ids (clock.after (3 * made.length)) others more next last) :
    Appends ids clock (declarations ++ others) (made ++ more) session last where
  declared := by rw [List.map_append, first.declared, second.declared]
  boxes := by rw [second.boxes, first.boxes, List.map_append, List.append_assoc]
  order := by rw [second.order, first.order, List.map_append, List.append_assoc]
  settings := second.settings.trans first.settings
  selection := second.selection.trans first.selection
  focus := second.focus.trans first.focus
  issued := Nat.le_trans first.issued second.issued
  issuedIds := by
    intro box member
    rcases List.mem_append.mp member with before | behind
    · obtain ⟨number, later, less, own⟩ := first.issuedIds box before
      exact ⟨number, later, Nat.lt_of_lt_of_le less second.issued, own⟩
    · obtain ⟨number, later, less, own⟩ := second.issuedIds box behind
      exact ⟨number, Nat.le_trans first.issued later, less, own⟩
  fresh := by
    intro box member
    rcases List.mem_append.mp member with before | behind
    · exact first.fresh box before
    · intro known
      refine second.fresh box behind ?_
      rw [first.keys]
      exact List.mem_append_left _ known
  distinct := by
    rw [List.map_append, List.nodup_append]
    refine ⟨first.distinct, second.distinct, ?_⟩
    intro one before other behind
    rintro rfl
    obtain ⟨box, member, own⟩ := List.mem_map.mp behind
    refine second.fresh box member ?_
    rw [first.keys, own]
    exact List.mem_append_right _ before
  places := by
    intro box member
    rcases List.mem_append.mp member with before | behind
    · exact first.places box before
    · exact second.places box behind
  times := by
    intro number less
    rw [List.getElem_append]
    split
    · next before => exact first.times number before
    · next behind =>
      have inside : number - made.length < more.length := by
        rw [List.length_append] at less
        omega
      have shifted : 3 * (number - made.length) + 3 * made.length = 3 * number := by omega
      have times := second.times (number - made.length) inside
      rwa [Clock.reading_after, Clock.reading_after, Nat.add_right_comm, shifted] at times

/-- One declaration becomes one box. -/
theorem appends_insertDeclaration (sound : IsSound ids session)
    (distinct : Function.Injective ids) (clock : Clock) (draft : OutlineDraft) :
    ∃ box, (session.insertDeclaration ids clock draft).2 = box.id ∧
      Appends ids clock [draft.declaration] [box] session
        (session.insertDeclaration ids clock draft).1 := by
  -- The id of the box is the last one that is issued for it, behind those of its properties.
  obtain ⟨number, later, own, used⟩ :=
    draft.settle_dated ids clock (clock.reading 2) session.issued
  have fresh := own ▸ sound.not_mem_keys distinct later
  refine ⟨((draft.dated clock).settle ids (clock.reading 2) session.issued).1, rfl, ?_⟩
  exact
    { declared := congrArg (fun declaration => [declaration])
        (Outline.settle_declaration ids session.issued draft)
      boxes := Board.put_of_not_mem fresh
      order := rfl
      settings := rfl
      selection := rfl
      focus := rfl
      issued := by
        have after : (session.insertDeclaration ids clock draft).1.issued = number + 1 := used
        omega
      issuedIds := by
        intro box member
        obtain rfl := List.mem_singleton.mp member
        exact ⟨number, later, Nat.lt_of_lt_of_eq (Nat.lt_succ_self number) used.symm, own⟩
      fresh := by
        intro box member
        obtain rfl := List.mem_singleton.mp member
        exact fresh
      distinct := List.pairwise_singleton _ _
      places := by
        intro box member
        obtain rfl := List.mem_singleton.mp member
        rfl
      times := by
        intro number less
        obtain rfl := Nat.lt_one_iff.mp less
        exact ⟨rfl, rfl⟩ }

/-- Declarations become boxes one behind the other. -/
theorem appends_insertAll (sound : IsSound ids session) (distinct : Function.Injective ids)
    (clock : Clock) (drafts : List OutlineDraft) :
    ∃ boxes, (session.insertAll ids clock drafts).2 = boxes.map Box.id ∧
      Appends ids clock (drafts.map Outline.declaration) boxes session
        (session.insertAll ids clock drafts).1 := by
  induction drafts generalizing session clock with
  | nil => exact ⟨[], rfl, Appends.refl ids clock session⟩
  | cons draft rest ih =>
    obtain ⟨box, created, first⟩ := appends_insertDeclaration sound distinct clock draft
    obtain ⟨boxes, later, second⟩ :=
      ih (sound.insertDeclaration distinct clock draft).1 (clock.after 3)
    refine ⟨box :: boxes, ?_, first.trans second⟩
    simp only [insertAll, created, later, List.map_cons]

theorem declaration_draft (declaration : Declaration) :
    Outline.declaration (declaration.map Member.draft) = declaration := by
  rw [Outline.declaration, Outline.map_map]
  exact Outline.map_id declaration

theorem appends_performImport [Data.Coercions] (sound : IsSound ids session)
    (distinct : Function.Injective ids) (clock : Clock) (text : Text) :
    ∃ boxes notes,
      (session.performImport ids clock text).2 = .ok (.imported (boxes.map Box.id) notes) ∧
      Appends ids clock (Batch.read text) boxes session
        (session.performImport ids clock text).1 := by
  obtain ⟨boxes, created, appends⟩ :=
    appends_insertAll sound distinct clock ((Batch.read text).map (Outline.map Member.draft))
  have read : ((Batch.read text).map (Outline.map Member.draft)).map Outline.declaration =
      Batch.read text := by
    rw [List.map_map]
    exact (List.map_congr_left fun declaration _ => declaration_draft declaration).trans
      (List.map_id _)
  rw [read] at appends
  exact ⟨boxes, _, congrArg (fun created => Except.ok (Answer.imported created _)) created, appends⟩

end Appending

section Exporting

variable {ids : IdSource} {clock : Clock} {declarations : List Declaration} {made : List Box}
  {session next : Session}

theorem Appends.get?_of_mem_keys (appends : Appends ids clock declarations made session next)
    {key : Text} (known : key ∈ session.board.keys) :
    next.board.get? key = session.board.get? key := by
  obtain ⟨box, found⟩ := Option.isSome_iff_exists.mp (Board.get?_isSome_of_mem_keys known)
  rw [found, Board.get?, appends.boxes, List.lookup_append]
  rw [Board.get?] at found
  rw [found, Option.some_or]

theorem Appends.get?_of_mem (appends : Appends ids clock declarations made session next)
    (sound : IsSound ids next) {box : Box} (member : box ∈ made) :
    next.board.get? box.id = some box := by
  refine Board.lookup_eq_some_of_mem sound.board.keysNodup ?_
  rw [appends.boxes]
  exact List.mem_append_right _ (List.mem_map_of_mem member)

/-- The boxes are declared behind the others. -/
theorem Appends.ordered (appends : Appends ids clock declarations made session next)
    (before : IsSound ids session) (after : IsSound ids next) :
    next.board.ordered = session.board.ordered ++ made := by
  rw [Board.ordered, appends.order, List.filterMap_append]
  have old : session.board.order.filterMap next.board.get? = session.board.ordered :=
    List.filterMap_congr fun key listed =>
      appends.get?_of_mem_keys ((before.board.sameKeys key).mp listed)
  have new : (made.map Box.id).filterMap next.board.get? = made := by
    have each : ∀ box ∈ made, (next.board.get? ∘ Box.id) box = some box :=
      fun box member => appends.get?_of_mem after member
    rw [List.filterMap_map, List.filterMap_congr each, List.filterMap_some]
  rw [old, new]

/-- What the export was before stands in front of the text of the new boxes. -/
theorem Appends.source (appends : Appends ids clock declarations made session next)
    (before : IsSound ids session) (after : IsSound ids next) :
    next.board.source none =
      Text.withBlankLine (session.board.source none) (Outline.renderAll declarations) := by
  have all : ∀ boxes : List Box, (boxes.filter fun box =>
      (none : Option (List Text)).all fun ids => ids.contains box.id) = boxes :=
    fun boxes => List.filter_eq_self.mpr fun _ _ => rfl
  rw [Board.source, Board.source, all, all, appends.ordered before after, List.map_append,
    appends.declared, Outline.renderAll_append]

/-- No box that was there before is exported under the ids of the new ones. -/
theorem Appends.source_created (appends : Appends ids clock declarations made session next)
    (before : IsSound ids session) (after : IsSound ids next) :
    next.board.source (some (made.map Box.id)) = Outline.renderAll declarations := by
  have old : (session.board.ordered.filter fun box =>
      (some (made.map Box.id)).all fun ids => ids.contains box.id) = [] := by
    apply List.filter_eq_nil_iff.mpr
    intro box listed named
    obtain ⟨key, -, found⟩ := List.mem_filterMap.mp listed
    have own : box.id = key := before.board.ownIds _ (Board.mem_boxes_of_get? found)
    obtain ⟨other, member, same⟩ := List.mem_map.mp (List.contains_iff_mem.mp named)
    refine appends.fresh other member ?_
    rw [same, own]
    exact Board.mem_keys_of_get? found
  have new : (made.filter fun box =>
      (some (made.map Box.id)).all fun ids => ids.contains box.id) = made :=
    List.filter_eq_self.mpr fun box member =>
      List.contains_iff_mem.mpr (List.mem_map_of_mem member)
  rw [Board.source, appends.ordered before after, List.filter_append, old, new, List.nil_append,
    appends.declared]

/-- An import puts a box for each declaration of the text behind the others and does nothing else.
The export of the new boxes is the text of the declarations; it stands behind what the export was
before. -/
theorem import_appends [Data.Coercions] (distinct : Function.Injective ids) (settings : Settings)
    (start : Int) (steps : List (Clock × Command)) (clock later : Clock) (text : Text) :
    let session := run ids steps (new settings start)
    let result := session.perform ids clock (.importSource text)
    ∃ made notes before,
      result.2 = .ok (.imported (made.map Box.id) notes) ∧
      Appends ids clock (Batch.read text) made session result.1 ∧
      (result.1.perform ids later (.exportSource (some (made.map Box.id)))).2 =
        .ok (.source (Outline.renderAll (Batch.read text))) ∧
      (session.perform ids clock (.exportSource none)).2 = .ok (.source before) ∧
      (result.1.perform ids later (.exportSource none)).2 =
        .ok (.source (Text.withBlankLine before (Outline.renderAll (Batch.read text)))) := by
  intro session result
  have sound : IsSound ids session := (isSound_new ids settings start).run distinct steps
  have soundAfter : IsSound ids result.1 := sound.perform distinct clock _
  obtain ⟨made, notes, answer, appends⟩ := appends_performImport sound distinct clock text
  have created := appends.source_created sound soundAfter
  have all := appends.source sound soundAfter
  exact ⟨made, notes, session.board.source none, answer, appends,
    congrArg (fun source => Except.ok (Answer.source source)) created, rfl,
    congrArg (fun source => Except.ok (Answer.source source)) all⟩

end Exporting

/-- Two declarations behind one that is not supported, imported behind a box after another one has
been taken off. -/
theorem import_appends_growingIds :
    let steps : List (Clock × Command) :=
      [(1, .addBox .null .null .null), (2, .addBox .null .null .null), (3, .removeBox "_00".toText)]
    let text := "const c = 1;\ninterface A \x7b\nx: string;\n\x7d\ntype B = A | null".toText
    let session := run growingIds steps (new {} 0)
    let result := session.perform growingIds 4 (.importSource text)
    Function.Injective growingIds ∧ (Batch.read text).length = 2 ∧
    ∃ made notes before,
      result.2 = .ok (.imported (made.map Box.id) notes) ∧
      Appends growingIds 4 (Batch.read text) made session result.1 ∧
      (result.1.perform growingIds 5 (.exportSource (some (made.map Box.id)))).2 =
        .ok (.source (Outline.renderAll (Batch.read text))) ∧
      (session.perform growingIds 4 (.exportSource none)).2 = .ok (.source before) ∧
      (result.1.perform growingIds 5 (.exportSource none)).2 =
        .ok (.source (Text.withBlankLine before (Outline.renderAll (Batch.read text)))) := by
  intro steps text session result
  exact ⟨growingIds_injective, by decide +kernel,
    import_appends growingIds_injective {} 0 steps 4 5 text⟩

end Session

end SchemaBoard
