import SchemaBoard.Settings.Reader

set_option autoImplicit false

/-!
Answers to a request for settings: settings or a refusal. Main statement: whatever the reader of
documents, a text or a file is answered exactly if it can be decoded, its document has a value or is
malformed, and the unknown keys of a mapping can be told.
-/
namespace SchemaBoard

namespace Yaml

/-- Values with an order to a common one have an order among each other. -/
theorem Rank.isComparable_of_common {first one other : Rank}
    (left : first.isComparable one = true) (right : first.isComparable other = true) :
    one.isComparable other = true := by
  cases first <;> cases one <;> cases left <;> cases other <;> first | rfl | cases right

namespace Atom

/-- Each two of the values have an order. -/
def Comparable (atoms : List Atom) : Prop :=
  atoms.Pairwise fun one other => one.rank.isComparable other.rank = true

/-- Values are put in order exactly if each two of them have one. -/
theorem sorted?_isSome_iff {atoms : List Atom} :
    (sorted? atoms).isSome = true ↔ Comparable atoms := by
  cases atoms with
  | nil => exact iff_of_true rfl List.Pairwise.nil
  | cons first rest =>
    rw [Comparable, List.pairwise_cons, sorted?]
    constructor
    · intro found
      split at found
      · next all =>
        have ordered := List.all_eq_true.mp all
        refine ⟨ordered, List.pairwise_of_forall_mem_list fun one here other there => ?_⟩
        exact Rank.isComparable_of_common (ordered one here) (ordered other there)
      · cases found
    · rintro ⟨ordered, -⟩
      rw [if_pos (List.all_eq_true.mpr ordered)]
      rfl

theorem perm_of_sorted? {atoms sorted : List Atom} (found : sorted? atoms = some sorted) :
    sorted.Perm atoms := by
  cases atoms with
  | nil => exact Option.some.inj found ▸ List.Perm.nil
  | cons first rest =>
    rw [sorted?] at found
    split at found
    · exact Option.some.inj found ▸ List.mergeSort_perm _ _
    · cases found

end Atom
end Yaml

namespace Settings

/-- An outcome is settings or a refusal. -/
def IsAnswered : Except Failure Settings → Prop
  | .ok _ | .error (.refused _) => True
  | .error _ => False

/-- The reader of documents found a value or a malformed text. -/
def IsDocument (outcome : Except Yaml.Failure Yaml.Value) : Prop :=
  ∀ failure, outcome = .error failure → failure = .malformed

/-- Unknown keys of a mapping have an order and can be displayed. -/
def KeysCanBeTold (outcome : Except Yaml.Failure Yaml.Value) : Prop :=
  ∀ entries, outcome = .ok (.mapping entries) →
    Yaml.Atom.Comparable (unknownKeys entries) ∧
      ∀ key ∈ unknownKeys entries, key.isDisplayable = true

theorem isAnswered_mapError {outcome : Except Refusal Settings} :
    IsAnswered (outcome.mapError .refused) := by
  cases outcome <;> trivial

theorem isAnswered_mapping_iff {entries : List (Yaml.Atom × Yaml.Value)} :
    IsAnswered (ofValue (.mapping entries)) ↔
      Yaml.Atom.Comparable (unknownKeys entries) ∧
        ∀ key ∈ unknownKeys entries, key.isDisplayable = true := by
  rw [← Yaml.Atom.sorted?_isSome_iff, ofValue]
  cases sorted : Yaml.Atom.sorted? (unknownKeys entries) with
  | none => exact iff_of_false id fun told => nomatch told.1
  | some keys =>
    have same := Yaml.Atom.perm_of_sorted? sorted
    have told : (∀ key ∈ unknownKeys entries, key.isDisplayable = true) ↔
        keys.all Yaml.Atom.isDisplayable = true := by
      rw [List.all_eq_true]
      exact forall_congr' fun key => imp_congr_left same.mem_iff.symm
    rw [told]
    cases keys with
    | nil => exact iff_of_true isAnswered_mapError ⟨rfl, rfl⟩
    | cons key rest =>
      cases displayable : (key :: rest).all Yaml.Atom.isDisplayable with
      | true => simp [displayable, IsAnswered]
      | false => simp [displayable, IsAnswered]

theorem keysCanBeTold_of_other {outcome : Except Yaml.Failure Yaml.Value}
    (other : ∀ entries, outcome ≠ .ok (.mapping entries)) : KeysCanBeTold outcome :=
  fun entries same => absurd same (other entries)

/-- An outcome of reading a document is answered exactly if it is a malformed document, or a value
whose unknown keys can be told if it is a mapping. -/
theorem isAnswered_ofOutcome_iff {outcome : Except Yaml.Failure Yaml.Value} :
    IsAnswered (ofOutcome outcome) ↔ IsDocument outcome ∧ KeysCanBeTold outcome := by
  cases outcome with
  | error failure =>
    have told : KeysCanBeTold (.error failure) := keysCanBeTold_of_other fun _ same => nomatch same
    have document : IsDocument (.error failure) ↔ failure = .malformed := by simp [IsDocument]
    rw [document, and_iff_left told]
    cases failure with
    | malformed => exact iff_of_true trivial rfl
    | _ => exact iff_of_false id fun same => nomatch same
  | ok value =>
    have document : IsDocument (.ok value) := fun _ same => nomatch same
    rw [and_iff_right document, ofOutcome]
    cases value with
    | mapping entries => simp [isAnswered_mapping_iff, KeysCanBeTold]
    | atom value =>
      refine iff_of_true ?_ (keysCanBeTold_of_other fun _ same => nomatch same)
      cases value <;> trivial
    | _ => exact iff_of_true trivial (keysCanBeTold_of_other fun _ same => nomatch same)

/-- Of a text and of a file alike, and whatever the reader of documents: there are settings or a
refusal exactly if what is read is a text at all, its document has a value or is malformed, and the
unknown keys of a mapping can be told. -/
theorem isAnswered_iff (reader : DocumentReader) (text : Text) (file : File) :
    (IsAnswered (readBy reader text) ↔
        IsDocument (reader text) ∧ KeysCanBeTold (reader text)) ∧
      (IsAnswered (loadBy reader file) ↔
        ∀ bytes, file = .ok bytes → ∃ decoded, String.fromUTF8? bytes = some decoded ∧
          IsDocument (reader (Text.withLineFeeds decoded.toText)) ∧
            KeysCanBeTold (reader (Text.withLineFeeds decoded.toText))) := by
  refine ⟨isAnswered_ofOutcome_iff, ?_⟩
  cases file with
  | error obstacle => exact iff_of_true trivial fun _ same => nomatch same
  | ok bytes =>
    rw [loadBy]
    cases decoded : String.fromUTF8? bytes with
    | none => simp [IsAnswered, decoded]
    | some content => simp [readBy, isAnswered_ofOutcome_iff, decoded]

instance : DecidablePred IsAnswered := fun outcome =>
  match outcome with
  | .ok _ | .error (.refused _) => isTrue trivial
  | .error .notText | .error .keysUnordered | .error .keyTooLong | .error (.scalar _) => isFalse id

/-- The document of two unknown keys without an order has a value and no answer, and neither has a
file of one byte that is no text. -/
theorem not_isAnswered_mixed_keys :
    (Yaml.Value.read "1: a\nb: c".toText).isOk = true ∧
      ¬IsAnswered (read "1: a\nb: c".toText) ∧ ¬IsAnswered (load (.ok ⟨#[0xFF]⟩)) := by
  refine ⟨?_, ?_, ?_⟩ <;> decide +kernel

end Settings
end SchemaBoard
