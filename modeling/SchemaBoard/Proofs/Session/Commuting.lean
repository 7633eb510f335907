import Mathlib.Logic.Equiv.Defs
import SchemaBoard.Proofs.Board.Lookup
import SchemaBoard.Proofs.Session.Deeds
import SchemaBoard.Proofs.Session.Focus

set_option autoImplicit false

/-!
Commands that do not get in each other's way. Main statement: two commands that write different
boxes, or different properties of one box, may trade places.
-/
namespace SchemaBoard

/-- Whether an id is the other one, or one of the ids issued from `first` on and before `last` that
becomes the other one when the numbers of issue are renamed. -/
def IdSource.Renames (ids : IdSource) (rename : Nat → Nat) (first last : Nat)
    (one other : Text) : Prop :=
  one = other ∨
    ∃ number, first ≤ number ∧ number < last ∧ one = ids number ∧ other = ids (rename number)

namespace Command

/-- The key of the box and the id of its properties that the command changes. -/
def alters? : Command → Option (Text × Text)
  | updateProperty key id _ | removeProperty key id => some (key, id)
  | _ => none

/-- Two commands that write different boxes, or different properties of one box. -/
inductive AreIndependent (one other : Command) : Prop
  | boxes {key name : Text} (first : one.writes? = some key) (second : other.writes? = some name)
      (apart : key ≠ name)
  | properties {key id property : Text} (first : one.alters? = some (key, id))
      (second : other.alters? = some (key, property)) (apart : id ≠ property)

end Command

def Property.KeepsIds (change : Property → Option Property) : Prop :=
  ∀ property changed, change property = some changed → changed.id = property.id

def Board.EntriesAlike (same : Text → Text → Prop) (entry other : Text × Box) : Prop :=
  entry.1 = other.1 ∧ entry.2.Alike same other.2

/-- Two sessions that differ at most in times and in the ids of properties. -/
structure Session.AgreesUpTo (same : Text → Text → Prop) (session other : Session) : Prop where
  settings : session.settings = other.settings
  boxes : List.Forall₂ (Board.EntriesAlike same) session.board.boxes other.board.boxes
  order : session.board.order = other.board.order
  version : session.board.version = other.board.version
  selection : session.selection = other.selection
  focus : session.focus = other.focus
  issued : session.issued = other.issued

/-- Two sessions that differ at most in times and in which property got which of the ids issued
after the first `start` ones. -/
def Session.AgreesUpToIds (ids : IdSource) (start : Nat) (session other : Session) : Prop :=
  ∃ rename : Equiv.Perm Nat, (∀ number < start, rename number = number) ∧
    AgreesUpTo (IdSource.Renames ids rename start session.issued) session other

/-- The permutation that exchanges two neighbouring runs of numbers: `first` numbers from `start` on
and the `second` numbers behind them. -/
def exchange (start first second : Nat) : Equiv.Perm Nat where
  toFun number :=
    if number < start then number
    else if number < start + first then number + second
    else if number < start + first + second then number - first
    else number
  invFun number :=
    if number < start then number
    else if number < start + second then number + first
    else if number < start + first + second then number - second
    else number
  left_inv number := by
    dsimp only
    split_ifs <;> omega
  right_inv number := by
    dsimp only
    split_ifs <;> omega

theorem IdSource.Renames.refl (ids : IdSource) (rename : Nat → Nat) (first last : Nat) (id : Text) :
    IdSource.Renames ids rename first last id id :=
  Or.inl rfl

section Exchange

variable {start first second number : Nat}

theorem exchange_before (before : number < start) : exchange start first second number = number :=
  if_pos before

theorem exchange_first (inside : number < first) :
    exchange start first second (start + number) = start + second + number := by
  simp only [exchange, Equiv.coe_fn_mk]
  split_ifs <;> omega

theorem exchange_second (inside : number < second) :
    exchange start first second (start + first + number) = start + number := by
  simp only [exchange, Equiv.coe_fn_mk]
  split_ifs <;> omega

end Exchange

namespace Board

variable {same : Text → Text → Prop} {key other : Text} {entries others : List (Text × Box)}

theorem lookup_place (made : Option Box) (apart : other ≠ key) :
    (place key made entries).lookup other = entries.lookup other := by
  cases made with
  | some box => exact (lookup_put key other box entries).trans (if_neg apart)
  | none =>
    have kept := lookup_filter_fst (fun name => decide (name ≠ key)) other entries
    rw [decide_eq_true apart, if_pos rfl] at kept
    exact kept

/-- Two keys may be written in either order, if one of them has a place already. -/
theorem place_comm (apart : key ≠ other) (known : key ∈ entries.map Prod.fst)
    (made written : Option Box) :
    place key made (place other written entries) =
      place other written (place key made entries) := by
  cases made with
  | some box =>
    cases written with
    | some changed => exact put_comm apart known
    | none => exact put_filter_fst (fun name => decide (name ≠ other)) (decide_eq_true apart) box _
  | none =>
    cases written with
    | some changed =>
      exact (put_filter_fst (fun name => decide (name ≠ key)) (decide_eq_true apart.symm) changed
        entries).symm
    | none =>
      simp only [place, List.filter_filter, Bool.and_comm]

theorem EntriesAlike.refl (refl : ∀ id, same id id) (entry : Text × Box) :
    EntriesAlike same entry entry :=
  ⟨rfl, Box.Alike.refl refl entry.2⟩

theorem forall₂_put (key : Text) {box changed : Box} (alike : box.Alike same changed)
    (rest : List.Forall₂ (EntriesAlike same) entries others) :
    List.Forall₂ (EntriesAlike same) (put key box entries) (put key changed others) := by
  induction rest with
  | nil => exact List.Forall₂.cons ⟨rfl, alike⟩ List.Forall₂.nil
  | @cons entry other _ _ here rest ih =>
    obtain ⟨name, old⟩ := entry
    obtain ⟨name, new⟩ := other
    obtain ⟨rfl, boxes⟩ := here
    by_cases found : name = key
    · simp only [put, if_pos found]
      exact List.Forall₂.cons ⟨rfl, alike⟩ rest
    · simp only [put, if_neg found]
      exact List.Forall₂.cons ⟨rfl, boxes⟩ ih

/-- Alike boxes that are written under one key leave alike entries. -/
theorem forall₂_place (key : Text) {made written : Option Box}
    (alike : Option.Rel (Box.Alike same) made written)
    (rest : List.Forall₂ (EntriesAlike same) entries others) :
    List.Forall₂ (EntriesAlike same) (place key made entries) (place key written others) := by
  cases alike with
  | some boxes => exact forall₂_put key boxes rest
  | none =>
    refine List.rel_filter (fun entry other alike => ?_) rest
    obtain ⟨keys, -⟩ := alike
    exact iff_of_eq (by simp only [keys])

end Board

namespace Session

section Writes

variable {same : Text → Text → Prop} {session : Session} {key other : Text}

theorem AgreesUpTo.refl (refl : ∀ id, same id id) (session : Session) :
    AgreesUpTo same session session :=
  ⟨rfl, List.forall₂_same.mpr fun entry _ => Board.EntriesAlike.refl refl entry, rfl, rfl, rfl,
    rfl, rfl⟩

theorem rel_withTimes {made written : Option Box}
    (alike : Option.Rel (Box.Alike same) made written) (now later : Int) :
    Option.Rel (Box.Alike same) (made.map fun box => { box with updatedAt := now })
      (written.map fun box => { box with updatedAt := later }) := by
  cases alike with
  | some boxes => exact Option.Rel.some (boxes.withTimes now later)
  | none => exact Option.Rel.none

theorem isSome_eq_of_rel {made written : Option Box}
    (alike : Option.Rel (Box.Alike same) made written) : made.isSome = written.isSome := by
  cases alike <;> rfl

theorem get?_write (clock : Clock) (made : Option Box) (lost : Text → Bool) (issued : Nat)
    (apart : other ≠ key) :
    (session.write clock key made lost issued).board.get? other = session.board.get? other :=
  Board.lookup_place _ apart

theorem get?_write_self (clock : Clock) (box : Box) (lost : Text → Bool) (issued : Nat) :
    (session.write clock key (some box) lost issued).board.get? key =
      some { box with updatedAt := clock.reading 0 } :=
  (Board.lookup_put key key _ _).trans (if_pos rfl)

/-- Alike boxes may be written at different times. -/
theorem agrees_write (refl : ∀ id, same id id) (clock later : Clock) {made written : Option Box}
    (lost : Text → Bool) (issued : Nat) (alike : Option.Rel (Box.Alike same) made written) :
    AgreesUpTo same (session.write clock key made lost issued)
      (session.write later key written lost issued) where
  settings := rfl
  boxes := Board.forall₂_place key (rel_withTimes alike (clock.reading 0) (later.reading 0))
    (AgreesUpTo.refl refl session).boxes
  order := by simp only [write, isSome_eq_of_rel alike, Board.touch_order]
  version := rfl
  selection := by simp only [write, isSome_eq_of_rel alike]
  focus := rfl
  issued := rfl

/-- Boxes may be written under two keys in either order. -/
theorem agrees_write_write (refl : ∀ id, same id id) (apart : key ≠ other)
    (known : key ∈ session.board.keys) (c₁ c₂ c₃ c₄ : Clock)
    {made remade written rewritten : Option Box} (lost gone : Text → Bool) (one two : Nat)
    {issued number : Nat} (equal : issued = number)
    (alike : Option.Rel (Box.Alike same) made remade)
    (alikeToo : Option.Rel (Box.Alike same) written rewritten) :
    AgreesUpTo same
      ((session.write c₁ key made lost one).write c₂ other written gone issued)
      ((session.write c₃ other rewritten gone two).write c₄ key remade lost number) where
  settings := rfl
  boxes := by
    have inner := Board.forall₂_place other (rel_withTimes alikeToo (c₂.reading 0) (c₃.reading 0))
      (AgreesUpTo.refl refl session).boxes
    have outer := Board.forall₂_place key (rel_withTimes alike (c₁.reading 0) (c₄.reading 0)) inner
    rw [Board.place_comm apart known] at outer
    exact outer
  order := by
    simp only [write, Board.touch_order, List.filter_filter, isSome_eq_of_rel alike,
      isSome_eq_of_rel alikeToo, Bool.and_comm]
  version := rfl
  selection := by
    simp only [write, List.filter_filter, isSome_eq_of_rel alike, isSome_eq_of_rel alikeToo,
      Bool.and_comm]
  focus := by simp only [write, Option.filter_filter, Bool.and_comm]
  issued := equal

/-- A box that is written over another one leaves no trace of it but a lost focus. -/
theorem agrees_write_over (refl : ∀ id, same id id) (c₁ c₂ c₃ c₄ : Clock)
    {first second box changed : Box} (lost gone : Text → Bool) (one two issued : Nat)
    (alike : box.Alike same changed) :
    AgreesUpTo same
      ((session.write c₁ key (some first) lost one).write c₂ key (some box) gone issued)
      ((session.write c₃ key (some second) gone two).write c₄ key (some changed) lost issued) where
  settings := rfl
  boxes := by
    have written := Board.forall₂_put key (alike.withTimes (c₂.reading 0) (c₄.reading 0))
      (AgreesUpTo.refl refl session).boxes
    have twice : ∀ before after : Box, Board.place key (some after)
        (Board.place key (some before) session.board.boxes) =
          Board.put key after session.board.boxes :=
      fun before after => Board.put_put key before after _
    simp only [write, Board.touch_boxes, Option.map_some, twice]
    exact written
  order := rfl
  version := rfl
  selection := rfl
  focus := by simp only [write, Option.filter_filter, Bool.and_comm]
  issued := rfl

end Writes

section Properties

variable {id other : Text} {change : Property → Option Property}

/-- A change of some properties does not touch those of another id. -/
theorem hasProperty_alter (keeps : Property.KeepsIds change) (apart : other ≠ id) (box : Box) :
    (box.alter id change).hasProperty other = box.hasProperty other := by
  rw [Bool.eq_iff_iff]
  simp only [Box.hasProperty, Box.alter, List.any_eq_true, List.mem_filterMap, decide_eq_true_eq]
  constructor
  · rintro ⟨changed, ⟨property, member, made⟩, named⟩
    by_cases same : property.id = id
    · rw [if_pos same] at made
      exact absurd (named.symm.trans ((keeps property changed made).trans same)) apart
    · rw [if_neg same] at made
      cases made
      exact ⟨changed, member, named⟩
  · rintro ⟨property, member, named⟩
    refine ⟨property, ⟨property, member, ?_⟩, named⟩
    rw [if_neg (named ▸ apart)]

theorem bind_of_keeps {changeToo : Property → Option Property} {property : Property}
    (keeps : Property.KeepsIds change) (apart : property.id ≠ other) :
    ((change property).bind fun changed =>
      if changed.id = other then changeToo changed else some changed) = change property := by
  cases made : change property with
  | none => rfl
  | some changed => exact if_neg (keeps property changed made ▸ apart)

/-- Changes of the properties of two ids may trade places. -/
theorem alter_alter {changeToo : Property → Option Property}
    (keeps : Property.KeepsIds change) (keepsToo : Property.KeepsIds changeToo)
    (apart : other ≠ id) (box : Box) :
    (box.alter id change).alter other changeToo = (box.alter other changeToo).alter id change := by
  simp only [Box.alter, List.filterMap_filterMap]
  congr 3
  funext property
  by_cases here : property.id = id
  · have there : property.id ≠ other := here ▸ apart.symm
    simp only [if_pos here, if_neg there, Option.bind_some]
    exact bind_of_keeps keeps there
  · simp only [if_neg here, Option.bind_some]
    by_cases there : property.id = other
    · simp only [if_pos there]
      exact (bind_of_keeps keepsToo here).symm
    · simp only [if_neg here, if_neg there, Option.bind_some]

end Properties

section Commuting

variable {ids : IdSource} {session other : Session} {key name : Text} {deed act : Deed}

/-- Sessions that agree whatever ids are taken for the same agree. -/
theorem agreesUpToIds_of_all (start : Nat)
    (agrees : ∀ same : Text → Text → Prop, (∀ id, same id id) → AgreesUpTo same session other) :
    AgreesUpToIds ids start session other :=
  ⟨Equiv.refl Nat, fun _ _ => rfl, agrees _ (IdSource.Renames.refl ids _ _ _)⟩

/-- A deed may be committed at another time. -/
theorem agreesUpToIds_commit (c₁ c₂ : Clock) (start : Nat)
    (uniform : deed.IsUniform ids) :
    AgreesUpToIds ids start (session.commit c₁ key deed).1 (session.commit c₂ key deed).1 := by
  refine agreesUpToIds_of_all start fun same refl => ?_
  cases deed with
  | leaves answer => exact AgreesUpTo.refl refl session
  | writes used make lost =>
    exact agrees_write refl c₁ c₂ lost _ (uniform same _ _ refl fun _ _ => refl _)

/-- Deeds under two keys may trade places. -/
theorem agreesUpToIds_commit_commit (apart : key ≠ name)
    (known : ∀ used make lost, deed = .writes used make lost → key ∈ session.board.keys)
    (uniform : deed.IsUniform ids) (uniformToo : act.IsUniform ids)
    (c₁ c₂ c₃ c₄ : Clock) :
    AgreesUpToIds ids session.issued
      ((session.commit c₁ key deed).1.commit c₂ name act).1
      ((session.commit c₃ name act).1.commit c₄ key deed).1 := by
  cases deed with
  | leaves answer => exact agreesUpToIds_commit c₂ c₃ session.issued uniformToo
  | writes used make lost =>
    cases act with
    | leaves answer => exact agreesUpToIds_commit c₁ c₄ session.issued uniform
    | writes more remake gone =>
      -- Either deed gets the ids behind those of the deed that is committed before it.
      refine ⟨exchange session.issued used more, fun _ before => exchange_before before, ?_⟩
      let same := IdSource.Renames ids (exchange session.issued used more) session.issued
        (session.issued + used + more)
      have refl : ∀ id, same id id := IdSource.Renames.refl ids _ _ _
      have alike : Option.Rel (Box.Alike same) (make session.issued)
          (make (session.issued + more)) := by
        refine uniform same _ _ refl fun number less => Or.inr ⟨session.issued + number, ?_⟩
        rw [exchange_first less]
        exact ⟨Nat.le_add_right _ _, by omega, rfl, rfl⟩
      have alikeToo : Option.Rel (Box.Alike same) (remake (session.issued + used))
          (remake session.issued) := by
        refine uniformToo same _ _ refl fun number less =>
          Or.inr ⟨session.issued + used + number, ?_⟩
        rw [exchange_second less]
        exact ⟨by omega, Nat.add_lt_add_left less _, rfl, rfl⟩
      exact agrees_write_write refl apart (known used make lost rfl) c₁ c₂ c₃ c₄ lost gone _ _
        (Nat.add_right_comm _ _ _) alike alikeToo

/-- What a command answers does not depend on the session but through its deed. -/
theorem commit_answer (clock later : Clock) (deed : Deed) (session other : Session) :
    (session.commit clock key deed).2 = (other.commit later name deed).2 := by
  cases deed <;> rfl

theorem get?_commit (clock : Clock) (deed : Deed) (session : Session) (apart : name ≠ key) :
    (session.commit clock key deed).1.board.get? name = session.board.get? name := by
  cases deed with
  | leaves answer => rfl
  | writes used make lost => exact get?_write clock _ lost _ apart

theorem writes?_of_alters? {command : Command} {id : Text}
    (alters : command.alters? = some (key, id)) : command.writes? = some key := by
  cases command <;> cases alters <;> rfl

variable [Data.Coercions]

theorem mem_keys_of_writes {command : Command} {used : Nat} {make : Nat → Option Box}
    {lost : Text → Bool}
    (writes : command.deed ids (session.board.get? key) = .writes used make lost) :
    key ∈ session.board.keys := by
  cases found : session.board.get? key with
  | none =>
    rw [found] at writes
    cases writes
  | some box => exact Board.mem_keys_of_get? found

/-- Commands that write two boxes may trade places. -/
theorem perform_comm_boxes (ids : IdSource) (session : Session) {one other : Command}
    (first : one.writes? = some key) (second : other.writes? = some name) (apart : key ≠ name)
    (c₁ c₂ c₃ c₄ : Clock) :
    let done := session.perform ids c₁ one
    let both := done.1.perform ids c₂ other
    let swapped := session.perform ids c₃ other
    let back := swapped.1.perform ids c₄ one
    AgreesUpToIds ids session.issued both.1 back.1 ∧ done.2 = back.2 ∧ both.2 = swapped.2 := by
  intro done both swapped back
  have doneEq : done = _ := perform_eq_commit ids c₁ first session
  have swappedEq : swapped = _ := perform_eq_commit ids c₃ second session
  have bothEq : both = done.1.commit c₂ name (other.deed ids (session.board.get? name)) := by
    rw [← get?_commit c₁ (one.deed ids (session.board.get? key)) session apart.symm, ← doneEq]
    exact perform_eq_commit ids c₂ second done.1
  have backEq : back = swapped.1.commit c₄ key (one.deed ids (session.board.get? key)) := by
    rw [← get?_commit c₃ (other.deed ids (session.board.get? name)) session apart, ← swappedEq]
    exact perform_eq_commit ids c₄ first swapped.1
  rw [bothEq, backEq, doneEq, swappedEq]
  refine ⟨?_, commit_answer _ _ _ _ _, commit_answer _ _ _ _ _⟩
  exact agreesUpToIds_commit_commit apart (fun _ _ _ writes => mem_keys_of_writes writes)
    (Command.isUniform_deed ids one _) (Command.isUniform_deed ids other _) c₁ c₂ c₃ c₄

theorem exists_onProperty (ids : IdSource) {command : Command} {id : Text}
    (alters : command.alters? = some (key, id)) :
    ∃ change lost, (∀ box, command.deed ids (some box) = .onProperty id change lost box) ∧
      ∀ made, change = .ok made → Property.KeepsIds made := by
  cases command with
  | updateProperty key id patch =>
    cases alters
    refine ⟨_, _, fun box => rfl, fun made accepted property changed made' => ?_⟩
    cases checked : PropertyEdit.ofPatch patch with
    | error refusal =>
      rw [checked] at accepted
      cases accepted
    | ok edit =>
      rw [checked] at accepted
      cases accepted
      cases made'
      rfl
  | removeProperty key id =>
    cases alters
    refine ⟨_, _, fun box => rfl, fun made accepted property changed made' => ?_⟩
    cases accepted
    cases made'
  | _ => cases alters

/-- A command on the properties of an id leaves the session as it is, or it changes these
properties; which of both depends on whether there are such properties. -/
theorem perform_property_cases (ids : IdSource) {command : Command} {id : Text}
    (alters : command.alters? = some (key, id)) (has : Bool) :
    (∃ answer, ∀ (clock : Clock) (session : Session),
      (session.board.get? key).any (Box.hasProperty id) = has →
      session.perform ids clock command = (session, answer)) ∨
    (has = true ∧ ∃ change lost, Property.KeepsIds change ∧
      ∀ (clock : Clock) (session : Session) (box : Box), session.board.get? key = some box →
      box.hasProperty id = true →
      session.perform ids clock command =
        (session.write clock key (some (box.alter id change)) lost session.issued, .ok .done)) := by
  obtain ⟨checked, lost, deed, keeps⟩ := exists_onProperty ids alters
  have perform : ∀ (clock : Clock) (session : Session), session.perform ids clock command =
      session.commit clock key (command.deed ids (session.board.get? key)) :=
    fun clock session => perform_eq_commit ids clock (writes?_of_alters? alters) session
  cases has with
  | false =>
    refine Or.inl ⟨.ok .done, fun clock session lacks => ?_⟩
    rw [perform]
    cases found : session.board.get? key with
    | none => rfl
    | some box =>
      rw [found, Option.any_some] at lacks
      rw [deed, Deed.onProperty, lacks]
      rfl
  | true =>
    cases checked with
    | error refusal =>
      refine Or.inl ⟨.error refusal, fun clock session has => ?_⟩
      obtain ⟨box, found, has⟩ := (Option.any_eq_true _ _).mp has
      rw [perform, found, deed, Deed.onProperty, has]
      rfl
    | ok change =>
      refine Or.inr ⟨rfl, change, lost, keeps change rfl, fun clock session box found has => ?_⟩
      rw [perform, found, deed, Deed.onProperty, has]
      rfl

/-- A command on the properties of one id neither makes properties of another id nor takes them
away. -/
theorem any_hasProperty_perform (ids : IdSource) (clock : Clock) {command : Command}
    {id other : Text} (alters : command.alters? = some (key, id)) (apart : other ≠ id)
    (session : Session) :
    ((session.perform ids clock command).1.board.get? key).any (Box.hasProperty other) =
      (session.board.get? key).any (Box.hasProperty other) := by
  rcases perform_property_cases ids alters
      ((session.board.get? key).any (Box.hasProperty id)) with
    ⟨answer, stays⟩ | ⟨has, change, lost, keeps, writes⟩
  · rw [stays clock session rfl]
  · obtain ⟨box, found, has⟩ := (Option.any_eq_true _ _).mp has
    rw [writes clock session box found has, get?_write_self, found]
    exact hasProperty_alter keeps apart box

theorem agreesUpToIds_perform (ids : IdSource) {command : Command} (start : Nat) (c₁ c₂ : Clock)
    (writes : command.writes? = some key) (session : Session) :
    AgreesUpToIds ids start (session.perform ids c₁ command).1
        (session.perform ids c₂ command).1 ∧
      (session.perform ids c₁ command).2 = (session.perform ids c₂ command).2 := by
  rw [perform_eq_commit ids c₁ writes, perform_eq_commit ids c₂ writes]
  exact ⟨agreesUpToIds_commit c₁ c₂ start (Command.isUniform_deed ids command _),
    commit_answer _ _ _ _ _⟩

/-- Commands that change different properties of one box may trade places. -/
theorem perform_comm_properties (ids : IdSource) (session : Session) {one other : Command}
    {id property : Text} (first : one.alters? = some (key, id))
    (second : other.alters? = some (key, property)) (apart : id ≠ property) (c₁ c₂ c₃ c₄ : Clock) :
    let done := session.perform ids c₁ one
    let both := done.1.perform ids c₂ other
    let swapped := session.perform ids c₃ other
    let back := swapped.1.perform ids c₄ one
    AgreesUpToIds ids session.issued both.1 back.1 ∧ done.2 = back.2 ∧ both.2 = swapped.2 := by
  intro done both swapped back
  have sameDone := any_hasProperty_perform ids c₁ first apart.symm session
  have sameSwapped := any_hasProperty_perform ids c₃ second apart session
  rcases perform_property_cases ids first ((session.board.get? key).any (Box.hasProperty id)) with
    ⟨answer, stays⟩ | ⟨has, change, lost, keeps, alters⟩
  · have doneEq : done = (session, answer) := stays c₁ session rfl
    have bothEq : both = done.1.perform ids c₂ other := rfl
    have backEq : back = (swapped.1, answer) := stays c₄ swapped.1 sameSwapped
    rw [bothEq, backEq, doneEq]
    obtain ⟨agrees, answers⟩ :=
      agreesUpToIds_perform ids session.issued c₂ c₃ (writes?_of_alters? second) session
    exact ⟨agrees, rfl, answers⟩
  rcases perform_property_cases ids second
      ((session.board.get? key).any (Box.hasProperty property)) with
    ⟨answer, stays⟩ | ⟨hasToo, changeToo, gone, keepsToo, altersToo⟩
  · have swappedEq : swapped = (session, answer) := stays c₃ session rfl
    have bothEq : both = (done.1, answer) := stays c₂ done.1 sameDone
    have backEq : back = swapped.1.perform ids c₄ one := rfl
    rw [backEq, bothEq, swappedEq]
    obtain ⟨agrees, answers⟩ :=
      agreesUpToIds_perform ids session.issued c₁ c₄ (writes?_of_alters? first) session
    exact ⟨agrees, answers, rfl⟩
  · obtain ⟨box, found, has⟩ := (Option.any_eq_true _ _).mp has
    obtain ⟨_, foundToo, hasToo⟩ := (Option.any_eq_true _ _).mp hasToo
    obtain rfl := Option.some.inj (found.symm.trans foundToo)
    have doneEq : done = (session.write c₁ key (some (box.alter id change)) lost session.issued,
        .ok .done) := alters c₁ session box found has
    have swappedEq : swapped = (session.write c₃ key (some (box.alter property changeToo)) gone
        session.issued, .ok .done) := altersToo c₃ session box found hasToo
    have foundDone : done.1.board.get? key =
        some { box.alter id change with updatedAt := c₁.reading 0 } := by
      rw [doneEq]
      exact get?_write_self c₁ _ lost _
    have foundSwapped : swapped.1.board.get? key =
        some { box.alter property changeToo with updatedAt := c₃.reading 0 } := by
      rw [swappedEq]
      exact get?_write_self c₃ _ gone _
    have bothEq : both = _ := altersToo c₂ done.1 _ foundDone
      ((hasProperty_alter keeps apart.symm box).trans hasToo)
    have backEq : back = _ := alters c₄ swapped.1 _ foundSwapped
      ((hasProperty_alter keepsToo apart box).trans has)
    rw [bothEq, backEq, doneEq, swappedEq]
    refine ⟨agreesUpToIds_of_all session.issued fun same refl => ?_, rfl, rfl⟩
    refine agrees_write_over refl c₁ c₂ c₃ c₄ lost gone _ _ _ ?_
    have swap := alter_alter keeps keepsToo apart.symm box
    have alike : Box.Alike same ((box.alter id change).alter property changeToo)
        ((box.alter property changeToo).alter id change) := swap ▸ Box.Alike.refl refl _
    exact alike.withTimes _ _

/-- Two commands that write different boxes, or different properties of one box, may trade places:
each of them answers the same, and the sessions after both differ at most in times and in which
property got which of the ids issued meanwhile. -/
theorem perform_comm (ids : IdSource) (session : Session) {one other : Command}
    (independent : one.AreIndependent other) (c₁ c₂ c₃ c₄ : Clock) :
    let done := session.perform ids c₁ one
    let both := done.1.perform ids c₂ other
    let swapped := session.perform ids c₃ other
    let back := swapped.1.perform ids c₄ one
    AgreesUpToIds ids session.issued both.1 back.1 ∧ done.2 = back.2 ∧ both.2 = swapped.2 := by
  cases independent with
  | boxes first second apart =>
    exact perform_comm_boxes ids session first second apart c₁ c₂ c₃ c₄
  | properties first second apart =>
    exact perform_comm_properties ids session first second apart c₁ c₂ c₃ c₄

end Commuting

/-- Both boxes of a board are patched with a property whose id is left open, so the ids trade
places. -/
theorem perform_comm_relisted :
    let reached := run growingIds
      [(1, .addBox .null .null .null), (2, .addBox .null .null .null)] (new {} 0)
    let listed := fun name : Text => Data.record [("properties".toText, .list [.record
      [("name".toText, .text name), ("type".toText, .text "string".toText)]])]
    let one := Command.updateBox "_00".toText (listed "email".toText)
    let other := Command.updateBox "_00000".toText (listed "phone".toText)
    let done := reached.perform growingIds 3 one
    let both := done.1.perform growingIds 4 other
    let swapped := reached.perform growingIds 5 other
    let back := swapped.1.perform growingIds 6 one
    one.AreIndependent other ∧ both.1.board.propertyIds ≠ back.1.board.propertyIds ∧
      AgreesUpToIds growingIds reached.issued both.1 back.1 ∧ done.2 = back.2 ∧
      both.2 = swapped.2 := by
  intro reached listed one other done both swapped back
  have independent : one.AreIndependent other :=
    .boxes rfl rfl (by decide)
  exact ⟨independent, by decide +kernel, perform_comm growingIds reached independent 3 4 5 6⟩

end Session

end SchemaBoard
