import SchemaBoard.Decimal.Places
import SchemaBoard.Text.Basic

set_option autoImplicit false

/-!
The checks of the code base: named steps in a fixed order, each with the command that runs it.
-/
namespace SchemaBoard.Checks

/-- A named check and its command. -/
structure Step where
  key : Text
  title : Text
  command : List Text
deriving DecidableEq, Repr

/-- A step from words and a command line whose words single spaces separate. -/
def Step.ofLine (key title line : String) : Step :=
  { key := key.toText, title := title.toText, command := line.toText.splitOn (.char ' ') }

def pipeline : List Step := [
  .ofLine "format" "Format check" "uv run ruff format --check src/ tests/ tools/",
  .ofLine "lint" "Lint" "uv run ruff check src/ tests/ tools/",
  .ofLine "types" "Type check" "uv run ty check src/",
  .ofLine "tests" "Tests" "uv run pytest --cov=typecanvas --cov-report=term-missing",
  .ofLine "build" "Build" "uv build"]

def isKnown (steps : List Step) (key : Text) : Bool := steps.any fun step => step.key == key

/-- The steps that some keys name, in the order of the pipeline, or all steps if no key is given.
The failure is the list of keys that name none. -/
def select (steps : List Step) (keys : List Text) : Except (List Text) (List Step) :=
  let unknown := keys.filter fun key => !isKnown steps key
  if !unknown.isEmpty then .error unknown
  else if keys.isEmpty then .ok steps
  else .ok (steps.filter fun step => keys.contains step.key)

def unknownMessage (steps : List Step) (unknown : List Text) : Text :=
  let known := (steps.map Step.key).mergeSort Text.isNotBehind
  "Unknown step(s): ".toText ++ Text.join ", ".toText unknown ++ " (choose from ".toText ++
    Text.join ", ".toText known ++ [.char ')']

/-- How a command ended: its exit code and the seconds it took. -/
structure Outcome where
  code : Int := 0
  seconds : Float := 0.0

structure StepResult where
  step : Step
  passed : Bool
  seconds : Float

def resultOf (execute : Step → Outcome) (step : Step) : StepResult :=
  let outcome := execute step
  { step := step, passed := outcome.code == 0, seconds := outcome.seconds }

/-- Runs the steps in order; with `failFast` the first step that fails is the last one run. How a
step ends may also depend on how many steps ran before it. -/
def run (execute : Nat → Step → Outcome) (failFast : Bool) : List Step → List StepResult
  | [] => []
  | step :: rest =>
    let result := resultOf (execute 0) step
    if failFast && !result.passed then [result]
    else result :: run (fun before => execute (before + 1)) failFast rest

/-- Zero if every step passed, else one. -/
def exitCode (results : List StepResult) : Int :=
  if results.all StepResult.passed then 0 else 1

end SchemaBoard.Checks
