import SchemaBoard.Checks.Pipeline

set_option autoImplicit false

/-!
What a run of the checks prints: a banner for each step and a summary, in the colours of a terminal.
-/
namespace SchemaBoard.Checks

inductive Colour where
  | red
  | green
  | blue
deriving DecidableEq, Repr

def Colour.code : Colour → Text
  | red => "31".toText
  | green => "32".toText
  | blue => "34".toText

def Colour.opening (colour : Colour) : Text := "\x1b[".toText ++ colour.code ++ "m".toText

def closing : Text := "\x1b[39m".toText

/-- The text with `opening` behind every closing sequence. -/
def reopened (opening : Text) : Text → Text
  | [] => []
  | .char '\x1b' :: .char '[' :: .char '3' :: .char '9' :: .char 'm' :: rest =>
    closing ++ opening ++ reopened opening rest
  | c :: rest => c :: reopened opening rest

/-- The text with the colour switched off in front of every line break and on again behind it. A
carriage return in front of a line feed belongs to the break. -/
def perLine (opening : Text) : Text → Text
  | [] => []
  | .char '\r' :: .char '\n' :: rest =>
    closing ++ .char '\r' :: .char '\n' :: opening ++ perLine opening rest
  | .char '\n' :: rest => closing ++ .char '\n' :: opening ++ perLine opening rest
  | c :: rest => c :: perLine opening rest

def reset : Text := "\x1b[0m".toText

/-- What stands in front of the next reset of the same line, and what stands behind that reset. -/
def resetAhead? : Text → Option (Text × Text)
  | [] => none
  | .char '\n' :: _ => none
  | .char '\x1b' :: .char '[' :: .char '0' :: .char 'm' :: rest => some ([], rest)
  | c :: rest => (resetAhead? rest).map fun (inside, behind) => (c :: inside, behind)

theorem resetAhead?_length {text inside behind : Text}
    (found : resetAhead? text = some (inside, behind)) : behind.length < text.length := by
  fun_induction resetAhead? text generalizing inside with
  | case1 => cases found
  | case2 => cases found
  | case3 rest =>
    obtain ⟨-, rfl⟩ := Prod.mk.inj (Option.some.inj found)
    simp only [List.length_cons]
    omega
  | case4 c rest _ _ ih =>
    obtain ⟨pair, ahead, same⟩ := Option.map_eq_some_iff.1 found
    obtain ⟨-, rfl⟩ := Prod.mk.inj same
    have shorter := ih ahead
    simp only [List.length_cons]
    omega

/-- The text with the colour switched off around every stretch of a line that lies between two
resets, and on again behind it. A reset without a second one on its line is left as it is. -/
def outsideResets (opening : Text) : Text → Text
  | [] => []
  | .char '\x1b' :: .char '[' :: .char '0' :: .char 'm' :: rest =>
    match found : resetAhead? rest with
    | some (inside, behind) =>
      have := resetAhead?_length found
      closing ++ reset ++ inside ++ reset ++ opening ++ outsideResets opening behind
    | none => reset ++ outsideResets opening rest
  | c :: rest => c :: outsideResets opening rest
termination_by text => text.length
decreasing_by all_goals simp only [List.length_cons]; omega

/-- The text in a colour, with the default colour behind it. The colour goes on behind an end of
colour inside; it reaches neither into what stands between two resets nor across a line break. -/
def Colour.paint (colour : Colour) (text : Text) : Text :=
  let opening := colour.opening
  opening ++ perLine opening (outsideResets opening (reopened opening text)) ++ closing

def line (text : Text) : Text := text ++ [.char '\n']

/-- A title between two rules, with an empty line above. -/
def banner (title : Text) : Text :=
  let rule := Colour.blue.paint (List.replicate 60 '=')
  .char '\n' :: line rule ++ line (Colour.blue.paint title) ++ line rule

/-- The line of the summary for one step. -/
def resultLine (result : StepResult) : Text :=
  let (word, colour) := if result.passed then ("PASS", Colour.green) else ("FAIL", Colour.red)
  line (colour.paint ("  ".toText ++ word.toText ++ "  ".toText ++ result.step.title ++
    " (".toText ++ Decimal.secondsText result.seconds ++ "s)".toText))

def summary (results : List StepResult) : Text :=
  banner "  Summary".toText ++ results.flatMap resultLine ++ [.char '\n']

def transcript (results : List StepResult) : Text :=
  results.flatMap (fun result => banner result.step.title) ++ summary results

end SchemaBoard.Checks
