import SchemaBoard.Settings.Basic
import SchemaBoard.Text.Lines
import SchemaBoard.Yaml.Reader

set_option autoImplicit false

/-!
Settings from a document. The document is a mapping with up to three fields; what is absent keeps
its default. How a document is written is not said here: texts and files are read by a reader of
documents, and the reader of the usual syntax is one of them.
-/
namespace SchemaBoard.Settings

inductive Field where
  | nameStem
  | defaultKind
  | propertyLines
deriving DecidableEq, Repr

def Field.key : Field → Text
  | nameStem => "new-type-prefix".toText
  | defaultKind => "default-kind".toText
  | propertyLines => "default-properties".toText

def Field.all : List Field := [nameStem, defaultKind, propertyLines]

/-- Where settings are kept, if not in a readable file. -/
inductive Obstacle where
  | missing
  /-- The file may not be read. -/
  | denied
  | directory
  /-- What the path takes for a directory is a file. -/
  | insideFile
deriving DecidableEq, Repr

inductive Refusal where
  | unreadable (obstacle : Obstacle)
  /-- The text is no well-formed document. -/
  | malformed
  | notMapping
  /-- There are keys that are no fields. -/
  | unknownKeys (names : List Text)
  /-- A field that holds a text holds something else. -/
  | notText (field : Field)
  | unknownKind (given : Text)
  | linesNotList
  | lineNotText (index : Nat)
  /-- A line is no signature of a member. -/
  | notSignature (index : Nat) (line : Text)
deriving DecidableEq, Repr

/-- Why there are no settings: a refusal, or a fault that is no refusal. -/
inductive Failure where
  | refused (refusal : Refusal)
  /-- The bytes of the file are no text. -/
  | notText
  /-- The unknown keys have no order. -/
  | keysUnordered
  /-- An unknown key is an integer with too many digits to be told. -/
  | keyTooLong
  /-- A scalar of the document has no value. -/
  | scalar (failure : Yaml.Failure)
deriving DecidableEq, Repr

/-- A key or a field's name between quotes. -/
def Field.quoted (field : Field) : Text := .char '\'' :: field.key ++ [.char '\'']

/-- What is said about a refusal; `label` names the source of the settings. -/
def Refusal.message (label : Text) : Refusal → Text
  | unreadable .missing => "Editor config file not found: ".toText ++ label
  | unreadable .denied =>
    "Cannot read editor config file: [Errno 13] Permission denied: ".toText ++ Text.quoted label
  | unreadable .directory =>
    "Cannot read editor config file: [Errno 21] Is a directory: ".toText ++ Text.quoted label
  | unreadable .insideFile =>
    "Cannot read editor config file: [Errno 20] Not a directory: ".toText ++ Text.quoted label
  | malformed => "Invalid YAML in ".toText ++ label
  | notMapping => label ++ ": editor config must be a YAML mapping".toText
  | unknownKeys names => label ++ ": unknown field(s): ".toText ++ Text.join ", ".toText names
  | notText field => label ++ ": ".toText ++ field.quoted ++ " must be a string".toText
  | unknownKind given =>
    label ++ ": ".toText ++ Field.defaultKind.quoted ++ " must be one of ".toText ++
      Text.join ", ".toText (DeclarationKind.all.map DeclarationKind.word) ++ ", got ".toText ++
      given.quoted
  | linesNotList => label ++ ": ".toText ++ Field.propertyLines.quoted ++ " must be a list".toText
  | lineNotText index => label ++ ": ".toText ++ place index ++ " must be a string".toText
  | notSignature index line =>
    label ++ ": ".toText ++ place index ++ ": not a property signature: ".toText ++ line.quoted
where
  /-- The place of a line. -/
  place (index : Nat) : Text :=
    Field.propertyLines.key ++ .char '[' :: Text.ofNat index ++ [.char ']']

def keyTooLongMessage : Text := Yaml.capacityMessage ++ Yaml.capacityAdvice

def textIn (field : Field) : Yaml.Value → Except Refusal Text
  | .atom (.text text) => .ok text
  | _ => .error (.notText field)

def kindIn (value : Yaml.Value) : Except Refusal DeclarationKind := do
  let word ← textIn .defaultKind value
  match DeclarationKind.ofWord? word with
  | some kind => return kind
  | none => .error (.unknownKind word)

/-- Signatures of members, the first of them at `index`. -/
def signatures (index : Nat) : List Yaml.Value → Except Refusal (List Text)
  | [] => .ok []
  | .atom (.text line) :: rest =>
    if (Member.read? line).isSome then (signatures (index + 1) rest).map (line :: ·)
    else .error (.notSignature index line)
  | _ :: _ => .error (.lineNotText index)

def signaturesIn : Yaml.Value → Except Refusal (List Text)
  | .list items => signatures 0 items
  | _ => .error .linesNotList

def fieldIn {α : Type} (entries : List (Yaml.Atom × Yaml.Value)) (field : Field) (default : α)
    (read : Yaml.Value → Except Refusal α) : Except Refusal α :=
  match Yaml.lookupText field.key entries with
  | some value => read value
  | none => .ok default

def unknownKeys (entries : List (Yaml.Atom × Yaml.Value)) : List Yaml.Atom :=
  (entries.map Prod.fst).filter fun key => !Field.all.any fun field => key.isText field.key

/-- The settings in the entries of a mapping, all of which are fields. -/
def ofFields (entries : List (Yaml.Atom × Yaml.Value)) : Except Refusal Settings := do
  let usual : Settings := {}
  let nameStem ← fieldIn entries .nameStem usual.nameStem (textIn .nameStem)
  let defaultKind ← fieldIn entries .defaultKind usual.defaultKind kindIn
  let propertyLines ← fieldIn entries .propertyLines usual.propertyLines signaturesIn
  return { nameStem := nameStem, defaultKind := defaultKind, propertyLines := propertyLines }

/-- The settings that a value stands for. Nothing stands for the defaults. Unknown keys are told in
order. -/
def ofValue : Yaml.Value → Except Failure Settings
  | .atom .null => .ok {}
  | .mapping entries =>
    match Yaml.Atom.sorted? (unknownKeys entries) with
    | none => .error .keysUnordered
    | some [] => (ofFields entries).mapError .refused
    | some keys =>
      if keys.all Yaml.Atom.isDisplayable then
        .error (.refused (.unknownKeys (keys.map Yaml.Atom.display)))
      else .error .keyTooLong
  | _ => .error (.refused .notMapping)

def ofOutcome : Except Yaml.Failure Yaml.Value → Except Failure Settings
  | .ok value => ofValue value
  | .error .malformed => .error (.refused .malformed)
  | .error failure => .error (.scalar failure)

/-- A reader of documents: the value of the document in a text, or why there is none. -/
abbrev DocumentReader := Text → Except Yaml.Failure Yaml.Value

/-- What is found where settings are looked for: an obstacle, or the bytes of a file. -/
abbrev File := Except Obstacle ByteArray

section Reading

variable (reader : DocumentReader)

def readBy (text : Text) : Except Failure Settings := ofOutcome (reader text)

/-- The settings of a file. Its lines may end in any of the usual ways. -/
def loadBy : File → Except Failure Settings
  | .error obstacle => .error (.refused (.unreadable obstacle))
  | .ok bytes =>
    match String.fromUTF8? bytes with
    | some text => readBy reader (Text.withLineFeeds text.toText)
    | none => .error .notText

end Reading

def read : Text → Except Failure Settings := readBy Yaml.Value.read

def load : File → Except Failure Settings := loadBy Yaml.Value.read

end SchemaBoard.Settings
