import SchemaBoard.Checks.Report
import SchemaBoard.Text.DigitTable

set_option autoImplicit false

/-!
The command line of the check runner: keys of steps, `--fail-fast` and `--help`. Long options may be
cut short as long as they stay unambiguous. The keys have to stand together.
-/
namespace SchemaBoard.Checks

/-- What one word of the command line is. -/
inductive Argument where
  /-- The key of a step. -/
  | key (text : Text)
  /-- The mark behind which every word is a key. -/
  | separator
  /-- The flag that stops a run at the first failure. -/
  | failFast
  /-- The request for help. -/
  | help
  /-- A flag with a value, which no flag takes. -/
  | flagWithValue
  /-- An option that does not exist. -/
  | unknown
  /-- A beginning of more than one option. -/
  | ambiguous
deriving DecidableEq, Repr

def longOptions : List (Text × Argument) :=
  [("--help".toText, .help), ("--fail-fast".toText, .failFast)]

/-- Whether the word is a negative number, which counts as a key. A line break may end it. -/
def isNegativeNumber (word : Text) : Bool :=
  let isDigit := fun c => (Text.digitValue? c).isSome
  match Text.dropFinal '\n' word with
  | .char '-' :: rest =>
    let fraction := rest.dropWhile isDigit
    match fraction with
    | [] => !rest.isEmpty
    | .char '.' :: digits => !digits.isEmpty && digits.all isDigit
    | _ => false
  | _ => false

/-- A word that starts with a minus sign and is no option. -/
def otherWord (word : Text) : Argument :=
  if isNegativeNumber word || word.contains ' ' then .key word else .unknown

def longWord (word : Text) : Argument :=
  let name := word.takeWhile (· ≠ .char '=')
  let hasValue := word.contains '='
  let exact := longOptions.filter fun option => option.1 == name
  let found := if exact.isEmpty then longOptions.filter fun option => name.isPrefixOf option.1
    else exact
  match found with
  | [] => otherWord word
  | [option] => if hasValue then .flagWithValue else option.2
  | _ => .ambiguous

/-- What a word is that starts with `-h`. The letters behind it are further short options, of which
there is no other one; a single equals sign may stand between. -/
def shortWord (rest : Text) : Argument :=
  let letters :=
    match rest with
    | .char '=' :: c :: more => c :: more
    | other => other
  if letters.all (· == .char 'h') then .help else .flagWithValue

def classify (word : Text) : Argument :=
  match word with
  | [.char '-', .char '-'] => .separator
  | .char '-' :: .char '-' :: _ => longWord word
  | .char '-' :: .char 'h' :: rest => shortWord rest
  | .char '-' :: _ :: _ => otherWord word
  | _ => .key word

def classifyAll : List Text → List Argument
  | [] => []
  | word :: rest =>
    match classify word with
    | .separator => .separator :: rest.map Argument.key
    | argument => argument :: classifyAll rest

structure Request where
  keys : List Text := []
  failFast : Bool := false
deriving DecidableEq, Repr

/-- Why there is no request: help was asked for, or the command line is wrong. -/
inductive Stop where
  | helpWanted
  | misused
deriving DecidableEq, Repr

def Stop.exitCode : Stop → Int
  | helpWanted => 0
  | misused => 2

/-- Where reading stands with respect to the keys. -/
inductive KeyRun where
  | before
  | inside
  | behind
deriving DecidableEq, Repr

/-- The run of keys is over once an option comes behind it. -/
def KeyRun.atOption : KeyRun → KeyRun
  | before => before
  | _ => behind

/-- Reads classified words from the left. `spoiled` says that a word could not be placed, which only
help outweighs. -/
def readArguments : KeyRun → Bool → Request → List Argument → Except Stop Request
  | _, spoiled, request, [] => if spoiled then .error .misused else .ok request
  | run, spoiled, request, argument :: rest =>
    match argument with
    | .key text =>
      if run = .behind then readArguments run true request rest
      else readArguments .inside spoiled { request with keys := request.keys ++ [text] } rest
    | .separator =>
      if run = .behind then readArguments run true request rest
      else readArguments .inside spoiled request rest
    | .failFast => readArguments run.atOption spoiled { request with failFast := true } rest
    | .help => .error .helpWanted
    | .flagWithValue => .error .misused
    | .unknown => readArguments run.atOption true request rest
    | .ambiguous => .error .misused

/-- The request of a command line. An ambiguous option spoils it before anything else is read. -/
def Request.ofWords (words : List Text) : Except Stop Request :=
  let arguments := classifyAll words
  if arguments.contains .ambiguous then .error .misused
  else readArguments .before false {} arguments

/-- What a run of the program leaves behind. -/
structure Report where
  code : Int
  ran : List Step := []
  output : Text := []
  errors : Text := []

/-- Runs the steps that are asked for and prints a summary. No step of the pipeline runs twice, so
the step alone says how it ends. -/
def Request.run (execute : Step → Outcome) (request : Request) : Report :=
  match select pipeline request.keys with
  | .error unknown =>
    { code := 2, errors := line (Colour.red.paint (unknownMessage pipeline unknown)) }
  | .ok steps =>
    let results := Checks.run (fun _ => execute) request.failFast steps
    { code := exitCode results
      ran := results.map StepResult.step
      output := transcript results }

def reportOf (execute : Step → Outcome) (words : List Text) : Except Stop Report :=
  (Request.ofWords words).map (Request.run execute)

end SchemaBoard.Checks
