import SchemaBoard.Board.Stamp
import SchemaBoard.Session.Command

set_option autoImplicit false

/-!
What a command can do to a session. Every command either leaves the session as it is or makes one of
a few changes, each under a condition on the board. Main statement: a command that is refused, or
whose box or property is not on the board, leaves no trace.
-/
namespace SchemaBoard

def Box.hasProperty (id : Text) (box : Box) : Bool :=
  box.fields.any fun property => property.id = id

namespace Command

/-- Whether the command names a box that is not on the board, or a property that its box lacks. A
command that takes boxes off the board names one that is there if any of them is. -/
def misses (board : Board) : Command → Bool
  | updateBox key _ | updatePosition key _ _ | removeBox key | addProperty key _ _ _ _
  | select (some key) _ => (board.get? key).isNone
  | removeBoxes keys => keys.all fun key => (board.get? key).isNone
  | updateProperty key id _ | removeProperty key id => !(board.get? key).any (Box.hasProperty id)
  | _ => false

def asks : Command → Bool
  | getBox _ | names _ | idsWithNames | exportSource _ => true
  | _ => false

end Command

def growingIds : IdSource := fun number => idOfDigits none (List.replicate number (.char '0'))

theorem growingIds_injective : Function.Injective growingIds := by
  intro one other same
  have lengths := congrArg List.length same
  simp only [growingIds, idOfDigits, List.length_append, List.length_map,
    List.length_replicate] at lengths
  omega

namespace Session

/-- What a session becomes by a command that takes effect while the clock moves on, and what the
command answers then. -/
inductive Change [Data.Coercions] (ids : IdSource) (clock : Clock) (session : Session) :
    Command → Session → Answer → Prop
  | boxAdded {name kind properties : Data} {draft : OutlineDraft}
      (made : session.newBox name kind properties = .ok draft) :
    Change ids clock session (.addBox name kind properties) (session.addBox ids clock draft).1
      (.created (session.addBox ids clock draft).2)
  | declarationInserted {declaration : Data} {draft : OutlineDraft}
      (checked : Outline.ofData declaration = .valid draft) :
    Change ids clock session (.insertDeclaration declaration)
      (session.insertDeclaration ids clock draft).1
      (.created (session.insertDeclaration ids clock draft).2)
  | sourceImported {text : Text} {drafts : List OutlineDraft} (notes : List Text)
      (read : (Batch.read text).map (Outline.map Member.draft) = drafts) :
    Change ids clock session (.importSource text) (session.insertAll ids clock drafts).1
      (.imported (session.insertAll ids clock drafts).2 notes)
  | boxUpdated {key : Text} {box : Box} {fields : Data.Fields} {edit : BoxEdit}
      (found : session.board.get? key = some box)
      (checked : BoxEdit.ofFields fields = .valid edit) :
    Change ids clock session (.updateBox key (.record fields))
      { session.replaceBox clock key (edit.apply ids session.issued box).1 with
        issued := (edit.apply ids session.issued box).2 }
      .done
  | boxMoved {key : Text} {box : Box} {x y : Data} {position : Position}
      (found : session.board.get? key = some box)
      (checked : Position.ofFields [("x".toText, x), ("y".toText, y)] = .valid position) :
    Change ids clock session (.updatePosition key x y)
      (session.replaceBox clock key { box with position := position }) .done
  | boxRemoved {key : Text} {box : Box} (found : session.board.get? key = some box) :
    Change ids clock session (.removeBox key) (session.removeBoxes clock [key]) .done
  | boxesRemoved {keys : List Text} {key : Text} {box : Box} (here : key ∈ keys)
      (found : session.board.get? key = some box) :
    Change ids clock session (.removeBoxes keys) (session.removeBoxes clock keys) .done
  | propertyAdded {key : Text} {box : Box} {given : Data} {draft : PropertyDraft}
      (name type optional readonly : Data) (found : session.board.get? key = some box)
      (checked : PropertyDraft.ofFields [("name".toText, name), ("type".toText, given),
        ("optional".toText, optional), ("readonly".toText, readonly)] = .valid draft) :
    Change ids clock session (.addProperty key name type optional readonly)
      (session.addProperty ids clock key box draft).1
      (.property (session.addProperty ids clock key box draft).2.head?)
  | propertyUpdated {key id : Text} {box : Box} {fields : Data.Fields} {edit : PropertyEdit}
      (found : session.board.get? key = some box) (has : box.hasProperty id = true)
      (checked : PropertyEdit.ofFields fields = .valid edit) :
    Change ids clock session (.updateProperty key id (.record fields))
      (session.replaceBox clock key { box with
        fields := box.fields.map fun property =>
          if property.id = id then edit.apply property else property })
      .done
  | propertyRemoved {key id : Text} {box : Box} (found : session.board.get? key = some box)
      (has : box.hasProperty id = true) :
    Change ids clock session (.removeProperty key id) (session.removeProperty clock key box id)
      .done
  | selected {key : Option Text} (additive : Bool)
      (known : (Command.select key additive).misses session.board = false) :
    Change ids clock session (.select key additive) (session.select key additive) .done
  | focused (property : Option Text) :
    Change ids clock session (.selectProperty property) { session with focus := property } .done

/-- What a session can become by a command: it stays as it is, for one of three reasons, or the
command takes effect. -/
inductive Outcome [Data.Coercions] (ids : IdSource) (clock : Clock) (session : Session) :
    Command → Session → Except Refusal Answer → Prop
  | refused (command : Command) (refusal : Refusal) :
    Outcome ids clock session command session (.error refusal)
  | missed {command : Command} (missing : command.misses session.board = true)
      (answer : Answer) :
    Outcome ids clock session command session (.ok answer)
  | told {command : Command} (asks : command.asks = true) (answer : Answer) :
    Outcome ids clock session command session (.ok answer)
  | changed {command : Command} {next : Session} {answer : Answer}
      (change : Change ids clock session command next answer) :
    Outcome ids clock session command next (.ok answer)

section Perform

variable {session : Session} {key id : Text}

/-- Where none of the boxes is on the board, taking them off changes nothing. -/
theorem removeBoxes_eq_self (clock : Clock) {keys : List Text}
    (absent : keys.all (fun key => (session.board.get? key).isNone) = true) :
    session.removeBoxes clock keys = session := by
  have none : keys.filter (fun key => (session.board.get? key).isSome) = [] := by
    rw [List.filter_eq_nil_iff]
    intro key here
    have missing := List.all_eq_true.mp absent key here
    simpa using missing
  rw [removeBoxes, none]
  rfl

theorem all_ne_eq_not_hasProperty (id : Text) (box : Box) :
    (box.fields.all fun property => property.id ≠ id) = !box.hasProperty id := by
  simp [Box.hasProperty, List.all_eq_not_any_not]

theorem hasProperty_of_not_all {box : Box}
    (has : ¬(box.fields.all fun property => property.id ≠ id) = true) :
    box.hasProperty id = true := by
  rwa [all_ne_eq_not_hasProperty, Bool.not_eq_true, Bool.not_eq_false'] at has

theorem misses_of_all {box : Box} (found : session.board.get? key = some box)
    (lacks : (box.fields.all fun property => property.id ≠ id) = true) :
    (!(session.board.get? key).any (Box.hasProperty id)) = true := by
  rw [found, Option.any_some]
  rwa [all_ne_eq_not_hasProperty] at lacks

variable [Data.Coercions] (ids : IdSource) (clock : Clock)

theorem outcome_addBox (name kind properties : Data) (session : Session) :
    Outcome ids clock session (.addBox name kind properties)
      (session.performAddBox ids clock name kind properties).1
      (session.performAddBox ids clock name kind properties).2 := by
  unfold performAddBox
  split
  · exact .refused _ _
  · next made => exact .changed (.boxAdded made)

theorem outcome_insertDeclaration (declaration : Data) (session : Session) :
    Outcome ids clock session (.insertDeclaration declaration)
      (session.performInsert ids clock declaration).1
      (session.performInsert ids clock declaration).2 := by
  unfold performInsert
  split
  · exact .refused _ _
  · next checked => exact .changed (.declarationInserted checked)

theorem outcome_updateBox (key : Text) (patch : Data) (session : Session) :
    Outcome ids clock session (.updateBox key patch)
      (session.performUpdateBox ids clock key patch).1
      (session.performUpdateBox ids clock key patch).2 := by
  unfold performUpdateBox
  split
  · next absent =>
    refine .missed ?_ _
    exact Option.isNone_iff_eq_none.mpr absent
  · next box found =>
    split
    · split
      · exact .refused _ _
      · next checked => exact .changed (.boxUpdated found checked)
    · exact .refused _ _

theorem outcome_updatePosition (key : Text) (x y : Data) (session : Session) :
    Outcome ids clock session (.updatePosition key x y)
      (session.performUpdatePosition clock key x y).1
      (session.performUpdatePosition clock key x y).2 := by
  unfold performUpdatePosition
  split
  · next absent =>
    refine .missed ?_ _
    exact Option.isNone_iff_eq_none.mpr absent
  · next box found =>
    split
    · exact .refused _ _
    · next checked => exact .changed (.boxMoved found checked)

theorem outcome_addProperty (key : Text) (name type optional readonly : Data)
    (session : Session) :
    Outcome ids clock session (.addProperty key name type optional readonly)
      (session.performAddProperty ids clock key name type optional readonly).1
      (session.performAddProperty ids clock key name type optional readonly).2 := by
  unfold performAddProperty
  split
  · next absent =>
    refine .missed ?_ _
    exact Option.isNone_iff_eq_none.mpr absent
  · next box found =>
    dsimp only
    split
    · exact .refused _ _
    · next checked =>
      exact .changed (.propertyAdded name type optional readonly found checked)

theorem outcome_updateProperty (key id : Text) (patch : Data) (session : Session) :
    Outcome ids clock session (.updateProperty key id patch)
      (session.performUpdateProperty clock key id patch).1
      (session.performUpdateProperty clock key id patch).2 := by
  unfold performUpdateProperty
  split
  · next absent => exact .missed (by rw [Command.misses, absent]; rfl) _
  · next box found =>
    split
    · next lacks =>
      refine .missed ?_ _
      exact misses_of_all found lacks
    · next has =>
      split
      · split
        · exact .refused _ _
        · next checked =>
          exact .changed (.propertyUpdated found (hasProperty_of_not_all has) checked)
      · exact .refused _ _

theorem outcome_removeProperty (key id : Text) (session : Session) :
    Outcome ids clock session (.removeProperty key id)
      (session.performRemoveProperty clock key id).1
      (session.performRemoveProperty clock key id).2 := by
  unfold performRemoveProperty
  split
  · next absent => exact .missed (by rw [Command.misses, absent]; rfl) _
  · next box found =>
    split
    · next lacks =>
      refine .missed ?_ _
      exact misses_of_all found lacks
    · next has => exact .changed (.propertyRemoved found (hasProperty_of_not_all has))

theorem outcome_removeBox (key : Text) (session : Session) :
    Outcome ids clock session (.removeBox key) (session.removeBoxes clock [key]) (.ok .done) := by
  cases found : session.board.get? key with
  | none =>
    have absent : [key].all (fun key => (session.board.get? key).isNone) = true := by
      simp [found]
    rw [removeBoxes_eq_self clock absent]
    refine .missed ?_ _
    exact Option.isNone_iff_eq_none.mpr found
  | some box => exact .changed (.boxRemoved found)

theorem outcome_removeBoxes (keys : List Text) (session : Session) :
    Outcome ids clock session (.removeBoxes keys) (session.removeBoxes clock keys) (.ok .done) := by
  by_cases absent : keys.all (fun key => (session.board.get? key).isNone) = true
  · have same := removeBoxes_eq_self clock absent
    rw [same]
    refine .missed ?_ _
    exact absent
  · obtain ⟨key, here, box, found⟩ : ∃ key ∈ keys, ∃ box, session.board.get? key = some box := by
      simpa [← Option.ne_none_iff_exists'] using absent
    exact .changed (.boxesRemoved here found)

theorem outcome_select (key : Option Text) (additive : Bool) (session : Session) :
    Outcome ids clock session (.select key additive) (session.select key additive) (.ok .done) := by
  cases known : (Command.select key additive).misses session.board with
  | false => exact .changed (.selected additive known)
  | true =>
    cases key with
    | none => cases known
    | some key =>
      have absent : (session.board.get? key).isNone = true := known
      have same : session.select (some key) additive = session := if_pos absent
      rw [same]
      refine .missed ?_ _
      exact absent

/-- Whatever a command does is one of the outcomes. -/
theorem outcome_perform (command : Command) (session : Session) :
    Outcome ids clock session command (session.perform ids clock command).1
      (session.perform ids clock command).2 := by
  cases command with
  | addBox name kind properties => exact outcome_addBox ids clock name kind properties session
  | insertDeclaration declaration => exact outcome_insertDeclaration ids clock declaration session
  | updateBox box patch => exact outcome_updateBox ids clock box patch session
  | updatePosition box x y => exact outcome_updatePosition ids clock box x y session
  | removeBox box => exact outcome_removeBox ids clock box session
  | removeBoxes boxes => exact outcome_removeBoxes ids clock boxes session
  | addProperty box name type optional readonly =>
    exact outcome_addProperty ids clock box name type optional readonly session
  | updateProperty box property patch =>
    exact outcome_updateProperty ids clock box property patch session
  | removeProperty box property => exact outcome_removeProperty ids clock box property session
  | select box additive => exact outcome_select ids clock box additive session
  | selectProperty property => exact .changed (.focused property)
  | getBox box => exact .told rfl _
  | names excluded => exact .told rfl _
  | idsWithNames => exact .told rfl _
  | importSource text => exact .changed (.sourceImported _ rfl)
  | exportSource boxes => exact .told rfl _

/-- A command leaves the session as it is, or it takes effect. -/
theorem perform_eq_self_or_change (command : Command) (session : Session) :
    (session.perform ids clock command).1 = session ∨
      ∃ answer, Change ids clock session command (session.perform ids clock command).1 answer := by
  have outcome := outcome_perform ids clock command session
  generalize session.perform ids clock command = result at outcome ⊢
  obtain ⟨next, answer⟩ := result
  cases outcome with
  | refused | missed | told => exact .inl rfl
  | changed change => exact .inr ⟨_, change⟩

end Perform

section Idle

variable [Data.Coercions] {ids : IdSource} {clock : Clock} {session : Session} {command : Command}

/-- A command that takes effect names only what is on the board. -/
theorem Change.misses_eq_false {next : Session} {answer : Answer}
    (change : Change ids clock session command next answer) :
    command.misses session.board = false := by
  cases change with
  | boxAdded | declarationInserted | sourceImported | focused => rfl
  | boxUpdated found | boxMoved found | boxRemoved found
  | propertyAdded _ _ _ _ found =>
    rw [Command.misses, found]
    rfl
  | boxesRemoved here found =>
    rw [Command.misses, List.all_eq_false]
    exact ⟨_, here, by simp [found]⟩
  | propertyUpdated found has | propertyRemoved found has =>
    rw [Command.misses, found, Option.any_some, has]
    rfl
  | selected _ known => exact known

/-- A command that is refused, or whose box or property is not on the board, changes nothing. -/
theorem perform_eq_self_of_idle
    (idle : (session.perform ids clock command).2.isOk = false ∨
      command.misses session.board = true) :
    (session.perform ids clock command).1 = session := by
  have outcome := outcome_perform ids clock command session
  generalize session.perform ids clock command = result at idle outcome ⊢
  obtain ⟨next, answer⟩ := result
  cases outcome with
  | refused | missed | told => rfl
  | changed change =>
    rcases idle with refused | missed
    · cases refused
    · rw [change.misses_eq_false] at missed
      cases missed

end Idle

/-- A patch whose second field is at fault, and one of a property that the box does not have. -/
theorem perform_eq_self_of_idle_patches :
    let ids := growingIds
    let reached := Session.run ids
      [(1, .addBox .null .null .null), (2, .selectProperty (some "_0".toText))] (new {} 0)
    let refused := Command.updateBox "_00".toText
      (.record [("name".toText, .text "User".toText), ("kind".toText, .integer 1)])
    let missing := Command.updateProperty "_00".toText "gone".toText
      (.record [("name".toText, .text "email".toText)])
    ((reached.perform ids 3 refused).2.isOk = false ∧
      (reached.perform ids 3 refused).1 = reached) ∧
    (missing.misses reached.board = true ∧ (reached.perform ids 3 missing).1 = reached) := by
  intro ids reached refused missing
  have error : (reached.perform ids 3 refused).2.isOk = false := by decide +kernel
  have absent : missing.misses reached.board = true := by decide +kernel
  exact ⟨⟨error, perform_eq_self_of_idle (Or.inl error)⟩,
    ⟨absent, perform_eq_self_of_idle (Or.inr absent)⟩⟩

end Session
end SchemaBoard
