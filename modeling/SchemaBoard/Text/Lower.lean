import SchemaBoard.Text.CaseTable
import SchemaBoard.Text.LowerTable
import SchemaBoard.Text.Basic

set_option autoImplicit false

/-!
Texts in small letters. The small form of a letter is its own, but for sigma, which has a form of
its own at the end of a word.
-/
namespace SchemaBoard.Text

def CapitalRange.holds (range : CapitalRange) (n : Nat) : Bool :=
  range.first ≤ n && n ≤ range.last && (n - range.first) % range.step == 0

def lowerChar (c : CodePoint) : Text :=
  if c.number < 0x80 then [c.toLower]
  else if c == '\u0130' then [.char 'i', .char '\u0307']
  else
    match capitalRanges.find? fun range => range.holds c.number with
    | some range => [Char.ofNat (c.number + range.distance).toNat]
    | none => [c]

def isCased (c : CodePoint) : Bool :=
  if c.number < 0x80 then c.isAlpha else inRanges c.number casedRanges

/-- Whether a character is passed over when the case of the surroundings is looked up. -/
def isCaseIgnorable (c : CodePoint) : Bool :=
  if c.number < 0x80 then "'.:^\x60".toText.contains c else inRanges c.number caseIgnorableRanges

/-- Whether the next character that is not passed over has a case. -/
def startsCased : Text → Bool
  | [] => false
  | c :: rest => if isCaseIgnorable c then startsCased rest else isCased c

/-- The text in small letters; `inWord` says whether a cased character stands in front. -/
def lowerFrom : (inWord : Bool) → Text → Text
  | _, [] => []
  | inWord, c :: rest =>
    let isFinalSigma := c == '\u03A3' && inWord && !startsCased rest
    let small := if isFinalSigma then [.char '\u03C2'] else lowerChar c
    small ++ lowerFrom (if isCaseIgnorable c then inWord else isCased c) rest

def lower (text : Text) : Text := lowerFrom false text

end SchemaBoard.Text
