import Mathlib.Data.List.Forall2
import SchemaBoard.Proofs.Session.OpenIds
import SchemaBoard.Proofs.Settings.Answers

set_option autoImplicit false

/-!
The format of settings. Main statement: a document without a value, and a mapping whose keys are
texts, is read as the settings that it describes and is refused if it describes none; the lines of
these settings are all signatures, and a box that is made without properties has one property for
each of them.
-/
namespace SchemaBoard

theorem DeclarationKind.ofWord?_eq_some_iff {word : Text} {kind : DeclarationKind} :
    ofWord? word = some kind ↔ word = kind.word := by
  constructor
  · intro found
    have same := List.find?_some (p := fun kind : DeclarationKind => kind.word == word) found
    exact (beq_iff_eq.mp same).symm
  · rintro rfl
    exact ofWord?_word kind

namespace Settings

def MeansText (value : Yaml.Value) (text : Text) : Prop := value = .atom (.text text)

def MeansKind (value : Yaml.Value) (kind : DeclarationKind) : Prop :=
  value = .atom (.text kind.word)

/-- The value lists signatures of members. -/
def MeansLines (value : Yaml.Value) (lines : List Text) : Prop :=
  value = .list (lines.map fun line => .atom (.text line)) ∧
    ∀ line ∈ lines, ∃ member, Member.read? line = some member

/-- The value under the key of a field stands for a result. Without one, the default does. -/
def Gives {α : Type} (entries : List (Yaml.Atom × Yaml.Value)) (field : Field) (default : α)
    (means : Yaml.Value → α → Prop) (result : α) : Prop :=
  match Yaml.lookupText field.key entries with
  | some value => means value result
  | none => result = default

/-- The settings that a value describes. Nothing describes the defaults; a mapping has no other keys
than those of fields, and what it does not say is a default. -/
inductive Describes : Yaml.Value → Settings → Prop
  | nothing : Describes (.atom .null) {}
  | fields {entries : List (Yaml.Atom × Yaml.Value)} {settings : Settings}
      (known : ∀ entry ∈ entries, ∃ field : Field, entry.1 = .text field.key)
      (nameStem : Gives entries .nameStem ({} : Settings).nameStem MeansText settings.nameStem)
      (defaultKind : Gives entries .defaultKind ({} : Settings).defaultKind MeansKind
        settings.defaultKind)
      (propertyLines : Gives entries .propertyLines ({} : Settings).propertyLines MeansLines
        settings.propertyLines) : Describes (.mapping entries) settings

/-- The value is nothing or a mapping whose keys are texts. -/
def IsKeyedByText : Yaml.Value → Prop
  | .atom .null => True
  | .mapping entries => ∀ entry ∈ entries, ∃ key, entry.1 = .text key
  | _ => False

instance decidableIsTextKey (key : Yaml.Atom) : Decidable (∃ text, key = .text text) :=
  match key with
  | .text text => isTrue ⟨text, rfl⟩
  | .null | .flag _ | .integer _ | .number _ | .nan _ | .bytes _ | .date _ | .moment _ =>
    isFalse nofun

instance : DecidablePred IsKeyedByText := fun value =>
  match value with
  | .atom .null => isTrue trivial
  | .mapping entries => inferInstanceAs (Decidable (∀ entry ∈ entries, ∃ key, entry.1 = .text key))
  | .atom (.flag _) | .atom (.integer _) | .atom (.number _) | .atom (.nan _) | .atom (.text _)
  | .atom (.bytes _) | .atom (.date _) | .atom (.moment _) | .list _ | .pair _ _ | .set _
  | .cycle => isFalse id

section Fields

variable {entries : List (Yaml.Atom × Yaml.Value)}

theorem textIn_eq_ok_iff (field : Field) {value : Yaml.Value} {text : Text} :
    textIn field value = .ok text ↔ MeansText value text := by
  unfold textIn MeansText
  split
  · simp
  · next other => exact iff_of_false nofun (other text)

theorem kindIn_eq_ok_iff {value : Yaml.Value} {kind : DeclarationKind} :
    kindIn value = .ok kind ↔ MeansKind value kind := by
  unfold kindIn MeansKind
  rw [bind_eq_ok_iff]
  constructor
  · rintro ⟨word, isText, done⟩
    split at done
    · next found named =>
      cases done
      rw [(textIn_eq_ok_iff _).mp isText, DeclarationKind.ofWord?_eq_some_iff.mp named]
    · cases done
  · intro same
    refine ⟨kind.word, (textIn_eq_ok_iff _).mpr same, ?_⟩
    rw [DeclarationKind.ofWord?_word]
    rfl

theorem meansLines_nil_iff {lines : List Text} : MeansLines (.list []) lines ↔ lines = [] := by
  constructor
  · rintro ⟨same, -⟩
    exact List.map_eq_nil_iff.mp (Yaml.Value.list.inj same).symm
  · rintro rfl
    exact ⟨rfl, nofun⟩

theorem meansLines_cons_iff {item : Yaml.Value} {rest : List Yaml.Value} {lines : List Text} :
    MeansLines (.list (item :: rest)) lines ↔ ∃ line more, lines = line :: more ∧
      item = .atom (.text line) ∧ (Member.read? line).isSome = true ∧
        MeansLines (.list rest) more := by
  constructor
  · rintro ⟨same, each⟩
    obtain ⟨line, more, rfl, rfl, rfl⟩ := List.map_eq_cons_iff.mp (Yaml.Value.list.inj same).symm
    exact ⟨line, more, rfl, rfl,
      Option.isSome_iff_exists.mpr (each line List.mem_cons_self), rfl,
      fun other here => each other (List.mem_cons_of_mem _ here)⟩
  · rintro ⟨line, more, rfl, rfl, first, same, each⟩
    obtain rfl := Yaml.Value.list.inj same
    exact ⟨rfl, List.forall_mem_cons.mpr ⟨Option.isSome_iff_exists.mp first, each⟩⟩

theorem signatures_eq_ok_iff {index : Nat} {items : List Yaml.Value} {lines : List Text} :
    signatures index items = .ok lines ↔ MeansLines (.list items) lines := by
  fun_induction signatures index items generalizing lines with
  | case1 index =>
    rw [meansLines_nil_iff]
    exact ⟨fun done => (Except.ok.inj done).symm, fun done => congrArg Except.ok done.symm⟩
  | case2 index line rest isSignature ih =>
    rw [meansLines_cons_iff]
    constructor
    · intro done
      cases later : signatures (index + 1) rest with
      | error refusal =>
        rw [later] at done
        cases done
      | ok more =>
        rw [later] at done
        cases done
        exact ⟨line, more, rfl, rfl, isSignature, ih.mp later⟩
    · rintro ⟨other, more, rfl, same, -, later⟩
      cases same
      rw [ih.mpr later]
      rfl
  | case3 index line rest notSignature =>
    rw [meansLines_cons_iff]
    refine iff_of_false nofun ?_
    rintro ⟨other, more, -, same, isSignature, -⟩
    cases same
    exact notSignature isSignature
  | case4 index item rest notText =>
    rw [meansLines_cons_iff]
    refine iff_of_false nofun ?_
    rintro ⟨line, more, -, same, -⟩
    exact notText line same

theorem signaturesIn_eq_ok_iff {value : Yaml.Value} {lines : List Text} :
    signaturesIn value = .ok lines ↔ MeansLines value lines := by
  unfold signaturesIn
  split
  · exact signatures_eq_ok_iff
  · next other => exact iff_of_false nofun fun means => other _ means.1

theorem fieldIn_eq_ok_iff {α : Type} {field : Field} {default result : α}
    {read : Yaml.Value → Except Refusal α} {means : Yaml.Value → α → Prop}
    (same : ∀ value, read value = .ok result ↔ means value result) :
    fieldIn entries field default read = .ok result ↔ Gives entries field default means result := by
  unfold fieldIn Gives
  cases Yaml.lookupText field.key entries with
  | some value => exact same value
  | none => exact ⟨fun done => (Except.ok.inj done).symm, fun done => congrArg Except.ok done.symm⟩

theorem ofFields_eq_ok_iff {settings : Settings} :
    ofFields entries = .ok settings ↔
      Gives entries .nameStem ({} : Settings).nameStem MeansText settings.nameStem ∧
      Gives entries .defaultKind ({} : Settings).defaultKind MeansKind settings.defaultKind ∧
      Gives entries .propertyLines ({} : Settings).propertyLines MeansLines
        settings.propertyLines := by
  rw [← fieldIn_eq_ok_iff fun _ => textIn_eq_ok_iff .nameStem,
    ← fieldIn_eq_ok_iff fun _ => kindIn_eq_ok_iff,
    ← fieldIn_eq_ok_iff fun _ => signaturesIn_eq_ok_iff]
  unfold ofFields
  simp only [bind_eq_ok_iff]
  constructor
  · rintro ⟨nameStem, hasStem, defaultKind, hasKind, propertyLines, hasLines, same⟩
    cases same
    exact ⟨hasStem, hasKind, hasLines⟩
  · rintro ⟨hasStem, hasKind, hasLines⟩
    exact ⟨_, hasStem, _, hasKind, _, hasLines, rfl⟩

theorem isKnown_iff {key : Yaml.Atom} :
    (Field.all.any fun field => key.isText field.key) = true ↔
      ∃ field : Field, key = .text field.key := by
  have isText (wanted : Text) : key.isText wanted = true ↔ key = .text wanted := by
    cases key <;> simp [Yaml.Atom.isText]
  simp only [List.any_eq_true, isText]
  refine exists_congr fun field => and_iff_right ?_
  cases field <;> decide

theorem unknownKeys_eq_nil_iff :
    unknownKeys entries = [] ↔ ∀ entry ∈ entries, ∃ field : Field, entry.1 = .text field.key := by
  simp only [unknownKeys, List.filter_eq_nil_iff, List.forall_mem_map, Bool.not_eq_true',
    Bool.not_eq_false, isKnown_iff]

theorem ofValue_mapping_eq_ok_iff {settings : Settings} :
    ofValue (.mapping entries) = .ok settings ↔
      unknownKeys entries = [] ∧ ofFields entries = .ok settings := by
  rw [ofValue]
  cases sorted : Yaml.Atom.sorted? (unknownKeys entries) with
  | none =>
    constructor
    · intro done
      cases done
    · rintro ⟨none, -⟩
      rw [none] at sorted
      cases sorted
  | some keys =>
    have same := Yaml.Atom.perm_of_sorted? sorted
    cases keys with
    | nil =>
      rw [and_iff_right same.nil_eq.symm]
      cases ofFields entries with
      | error refusal => simp [Except.mapError]
      | ok found => simp [Except.mapError]
    | cons key rest =>
      constructor
      · intro done
        dsimp only at done
        split at done <;> cases done
      · rintro ⟨none, -⟩
        rw [none] at same
        exact absurd same.eq_nil (List.cons_ne_nil key rest)

/-- The settings of a value are those that it describes. -/
theorem ofValue_eq_ok_iff {value : Yaml.Value} {settings : Settings} :
    ofValue value = .ok settings ↔ Describes value settings := by
  constructor
  · intro done
    cases value with
    | mapping entries =>
      obtain ⟨known, found⟩ := ofValue_mapping_eq_ok_iff.mp done
      obtain ⟨hasStem, hasKind, hasLines⟩ := ofFields_eq_ok_iff.mp found
      exact .fields (unknownKeys_eq_nil_iff.mp known) hasStem hasKind hasLines
    | atom value =>
      cases value with
      | null =>
        cases done
        exact .nothing
      | _ => cases done
    | _ => cases done
  · intro describes
    cases describes with
    | nothing => rfl
    | fields known hasStem hasKind hasLines =>
      exact ofValue_mapping_eq_ok_iff.mpr
        ⟨unknownKeys_eq_nil_iff.mpr known, ofFields_eq_ok_iff.mpr ⟨hasStem, hasKind, hasLines⟩⟩

/-- Keys that are texts can be put in order and told. -/
theorem isAnswered_of_isKeyedByText {value : Yaml.Value} (keyed : IsKeyedByText value) :
    IsAnswered (ofValue value) := by
  cases value with
  | mapping entries =>
    have isText (key : Yaml.Atom) (here : key ∈ unknownKeys entries) :
        ∃ text, key = .text text := by
      obtain ⟨entry, member, rfl⟩ := List.mem_map.mp (List.mem_filter.mp here).1
      exact keyed entry member
    refine isAnswered_mapping_iff.mpr ⟨?_, fun key here => ?_⟩
    · refine List.pairwise_of_forall_mem_list fun one here other there => ?_
      obtain ⟨_, rfl⟩ := isText one here
      obtain ⟨_, rfl⟩ := isText other there
      rfl
    · obtain ⟨_, rfl⟩ := isText key here
      rfl
  | atom value => cases value <;> trivial
  | _ => trivial

end Fields

section Lines

variable {settings : Settings}

theorem Describes.isSignature {value : Yaml.Value} (describes : Describes value settings) :
    ∀ line ∈ settings.propertyLines, ∃ member, Member.read? line = some member := by
  have usual : ∀ line ∈ ({} : Settings).propertyLines,
      ∃ member, Member.read? line = some member := by
    simp only [← Option.isSome_iff_exists]
    decide +kernel
  cases describes with
  | nothing => exact usual
  | fields known hasStem hasKind hasLines =>
    unfold Gives at hasLines
    split at hasLines
    · exact hasLines.2
    · exact hasLines ▸ usual

/-- Where each line is a signature, none is passed over. -/
theorem members_of_isSignature
    (each : ∀ line ∈ settings.propertyLines, ∃ member, Member.read? line = some member) :
    List.Forall₂ (fun line member => Member.read? line = some member) settings.propertyLines
      settings.members := by
  unfold members
  generalize settings.propertyLines = lines at each
  induction lines with
  | nil => exact .nil
  | cons line rest ih =>
    obtain ⟨⟨member, first⟩, later⟩ := List.forall_mem_cons.mp each
    rw [List.filterMap_cons_some first]
    exact .cons first (ih later)

end Lines

end Settings

namespace Session

variable [Data.Coercions] {ids : IdSource} {clock : Clock} {session : Session}

/-- A box that is made without properties gets the default ones. -/
theorem exists_box_of_addBox {name kind : Data} {id : Text}
    (done : (session.perform ids clock (.addBox name kind .null)).2 = .ok (.created id)) :
    ∃ box, (session.perform ids clock (.addBox name kind .null)).1.board.get? id = some box ∧
      box.fields.map Property.toMember = session.settings.members := by
  simp only [perform, performAddBox] at done ⊢
  cases made : session.newBox name kind .null with
  | error refusal =>
    rw [made] at done
    cases done
  | ok draft =>
    rw [made] at done
    cases done
    refine ⟨((draft.dated clock).settle ids (clock.reading 2) session.issued).1, ?_, ?_⟩
    · exact (Board.lookup_put _ _ _ _).trans (if_pos rfl)
    · have fields : draft.fields = session.settings.members.map Member.draft :=
        (Except.ok.inj (newFields_of_newBox made)).symm
      calc
        (PropertyDraft.settleAll ids session.issued draft.fields).1.map Property.toMember
          = draft.fields.map PropertyDraft.toMember :=
            PropertyDraft.settleAll_toMember ids session.issued draft.fields
        _ = session.settings.members.map (PropertyDraft.toMember ∘ Member.draft) := by
            rw [fields, List.map_map]
        _ = session.settings.members := List.map_id _

end Session

namespace Settings

/-- A text in which the reader of documents finds nothing or a mapping with texts for keys is read
as the settings that this value describes, and refused if it describes none. Each line of these
settings is the signature of a member; the members for a box that is made without properties are
those of the lines, in order, and so are the properties that the box then has. -/
theorem read_format [Data.Coercions] (reader : DocumentReader) (text : Text) {value : Yaml.Value}
    (given : reader text = .ok value) (keyed : IsKeyedByText value) :
    (∀ settings, readBy reader text = .ok settings ↔ Describes value settings) ∧
    ((¬∃ settings, Describes value settings) →
      ∃ refusal, readBy reader text = .error (.refused refusal)) ∧
    ∀ settings, Describes value settings →
      List.Forall₂ (fun line member => Member.read? line = some member) settings.propertyLines
        settings.members ∧
      ∀ (ids : IdSource) (clock : Clock) (session : Session), session.settings = settings →
        (∃ id, (session.perform ids clock (.addBox .null .null .null)).2 = .ok (.created id)) ∧
        ∀ name kind id,
          (session.perform ids clock (.addBox name kind .null)).2 = .ok (.created id) →
          ∃ box, (session.perform ids clock (.addBox name kind .null)).1.board.get? id = some box ∧
            List.Forall₂ (fun line property => Member.read? line = some property.toMember)
              settings.propertyLines box.fields := by
  have whole : readBy reader text = ofValue value := by rw [readBy, given, ofOutcome]
  refine ⟨fun settings => whole ▸ ofValue_eq_ok_iff, fun none => ?_, fun settings describes => ?_⟩
  · have answered := isAnswered_of_isKeyedByText keyed
    rw [whole]
    cases outcome : ofValue value with
    | ok settings => exact absurd ⟨settings, ofValue_eq_ok_iff.mp outcome⟩ none
    | error failure =>
      rw [outcome] at answered
      cases failure with
      | refused refusal => exact ⟨refusal, rfl⟩
      | _ => cases answered
  · have members := members_of_isSignature describes.isSignature
    refine ⟨members, fun ids clock session same => ⟨⟨_, rfl⟩, ?_⟩⟩
    intro name kind id done
    obtain ⟨box, found, fields⟩ := Session.exists_box_of_addBox done
    refine ⟨box, found, ?_⟩
    rw [same] at fields
    rwa [← fields, List.forall₂_map_right_iff] at members

/-- A document with two of the three fields, and one with a key that is none of them, both in the
usual syntax. -/
theorem read_format_two_fields :
    let text := "default-kind: enum\ndefault-properties: ['a: T']".toText
    let settings : Settings := { defaultKind := .enum, propertyLines := ["a: T".toText] }
    ∃ value other, Yaml.Value.read text = .ok value ∧ IsKeyedByText value ∧
      Yaml.Value.read "prefix: T".toText = .ok other ∧ IsKeyedByText other ∧
      Describes value settings ∧ (¬∃ settings, Describes other settings) ∧
      List.Forall₂ (fun line member => Member.read? line = some member) settings.propertyLines
        settings.members ∧
      ∃ refusal, read "prefix: T".toText = .error (.refused refusal) := by
  intro text settings
  have isKeyed (text : Text) (check : (match Yaml.Value.read text with
      | .ok value => decide (IsKeyedByText value)
      | .error _ => false) = true) :
      ∃ value, Yaml.Value.read text = .ok value ∧ IsKeyedByText value := by
    split at check
    · next value given => exact ⟨value, given, of_decide_eq_true check⟩
    · cases check
  obtain ⟨value, given, keyed⟩ := isKeyed text (by decide +kernel)
  obtain ⟨other, otherGiven, otherKeyed⟩ := isKeyed "prefix: T".toText (by decide +kernel)
  obtain ⟨same, -, lines⟩ := read_format Yaml.Value.read text given keyed
  obtain ⟨otherSame, refused, -⟩ :=
    read_format Yaml.Value.read "prefix: T".toText otherGiven otherKeyed
  have describes : Describes value settings := (same settings).mp (by decide +kernel)
  have none : ¬∃ settings, Describes other settings := by
    rintro ⟨settings, describes⟩
    have isError : (readBy Yaml.Value.read "prefix: T".toText).isOk = false := by decide +kernel
    rw [(otherSame settings).mpr describes] at isError
    cases isError
  exact ⟨value, other, given, keyed, otherGiven, otherKeyed, describes, none,
    (lines settings describes).1, refused none⟩

end Settings

end SchemaBoard
