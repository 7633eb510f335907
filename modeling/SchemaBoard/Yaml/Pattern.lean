import SchemaBoard.Text.Basic

set_option autoImplicit false

/-!
The forms of plain scalars that stand for something other than a text.
-/
namespace SchemaBoard.Yaml

/-- The text without one line feed at its end. -/
def withoutFinalBreak (text : Text) : Text := Text.dropFinal '\n' text

def unsigned (text : Text) : Text :=
  match text with
  | .char '-' :: rest => rest
  | .char '+' :: rest => rest
  | rest => rest

/-- Whether a character is a digit below some base, or an underscore. -/
def isDigitOrJoint (base : Nat) (c : CodePoint) : Bool :=
  c == '_' || (c.isDigit && c.number - 48 < base) ||
    (base == 16 && (('a' ≤ c && c ≤ 'f') || ('A' ≤ c && c ≤ 'F')))

/-- Whether a text is not empty and all its characters are digits or underscores. -/
def isRun (base : Nat) (text : Text) : Bool := !text.isEmpty && text.all (isDigitOrJoint base)

/-- Whether a text is one or more parts below sixty, each behind a colon. -/
def isSexagesimalTail (text : Text) : Bool :=
  match text.splitOn (.char ':') with
  | [] :: parts =>
    !parts.isEmpty && parts.all fun part =>
      match part with
      | [a] => a.isDigit
      | [a, b] => '0' ≤ a && a ≤ '5' && b.isDigit
      | _ => false
  | _ => false

/-- Whether a text is written as an integer: binary, octal, decimal, hexadecimal or in base
sixty. -/
def isIntegerForm (text : Text) : Bool :=
  match unsigned text with
  | [.char '0'] => true
  | .char '0' :: .char 'b' :: digits => isRun 2 digits
  | .char '0' :: .char 'x' :: digits => isRun 16 digits
  | .char '0' :: digits => isRun 8 digits
  | c :: rest =>
    let joint := isDigitOrJoint 10
    c.isDigit && ((rest.dropWhile joint).isEmpty || isSexagesimalTail (rest.dropWhile joint))
  | [] => false

/-- Whether a text is empty or an exponent with a sign. -/
def isExponentOrEmpty (text : Text) : Bool :=
  match text with
  | [] => true
  | mark :: sign :: digits =>
    (mark == 'e' || mark == 'E') && (sign == '-' || sign == '+') && !digits.isEmpty &&
      digits.all CodePoint.isDigit
  | _ => false

/-- Whether a text without a sign is written as a number with a point. -/
def isPointForm (signed : Bool) (text : Text) : Bool :=
  let joint := isDigitOrJoint 10
  match text with
  | .char '.' :: c :: rest => !signed && c.isDigit && isExponentOrEmpty (rest.dropWhile joint)
  | c :: rest =>
    c.isDigit &&
      (match rest.dropWhile joint with
        | .char '.' :: fraction => isExponentOrEmpty (fraction.dropWhile joint)
        | tail =>
          isSexagesimalTail (tail.takeWhile (· ≠ .char '.')) &&
            (match tail.dropWhile (· ≠ .char '.') with
              | .char '.' :: fraction => fraction.all joint
              | _ => false))
  | [] => false

/-- Whether a text is written as a number: with a point, infinite, or no number at all. -/
def isNumberForm (text : Text) : Bool :=
  let body := unsigned text
  isPointForm (body.length < text.length) body ||
    [".inf", ".Inf", ".INF"].any (fun word => word.toText == body) ||
    [".nan", ".NaN", ".NAN"].any (fun word => word.toText == text)

def flagWords : List String :=
  ["yes", "Yes", "YES", "no", "No", "NO", "true", "True", "TRUE", "false", "False", "FALSE", "on",
    "On", "ON", "off", "Off", "OFF"]

def isFlagForm (text : Text) : Bool := flagWords.any fun word => word.toText == text

def isNullForm (text : Text) : Bool :=
  ["", "~", "null", "Null", "NULL"].any fun word => word.toText == text

end SchemaBoard.Yaml
