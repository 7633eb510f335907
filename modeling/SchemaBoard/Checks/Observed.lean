import SchemaBoard.Checks.Pipeline
import SchemaBoard.Decimal.Literal

set_option autoImplicit false

/-!
Outcomes of commands that were run elsewhere, as lines of a key, an exit code and a duration with
single spaces between them.
-/
namespace SchemaBoard.Checks

def outcomeOn? (line : Text) : Option (Text × Outcome) :=
  match line.splitOn (.char ' ') with
  | [key, code, seconds] => do
    let code ← Decimal.wholeNumber? code
    let seconds ← Decimal.Literal.read? seconds
    return (key, { code := code, seconds := seconds.toFloat })
  | _ => none

/-- The outcome of a step by the first line that has its key. A step without one passed at once. -/
def observed (lines : List Text) (step : Step) : Outcome :=
  ((lines.filterMap outcomeOn?).lookup step.key).getD {}

end SchemaBoard.Checks
