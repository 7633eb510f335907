import SchemaBoard.Text.Blank
import SchemaBoard.Text.WordTable

set_option autoImplicit false

/-!
Identifiers: an ASCII letter, `_` or `$`, then word characters of any script and `$`. An identifier
read from a text is always the longest one there.
-/
namespace SchemaBoard.Text

/-- Whether a character is a letter, a numeric character or `_`. -/
def isWord (c : CodePoint) : Bool :=
  if c.number < 0x80 then c.isAlphanum || c == '_' else inRanges c.number wordRanges

def isIdentifierStart (c : CodePoint) : Bool := c.isAlpha || c == '_' || c == '$'

def isIdentifierPart (c : CodePoint) : Bool := isWord c || c == '$'

def isIdentifier : Text → Bool
  | [] => false
  | c :: rest => isIdentifierStart c && rest.all isIdentifierPart

/-- The longest identifier that starts the text, and the rest. -/
def identifier? : Text → Option (Text × Text)
  | [] => none
  | c :: rest =>
    if isIdentifierStart c then
      some (c :: rest.takeWhile isIdentifierPart, rest.dropWhile isIdentifierPart)
    else none

/-- What follows `word` and the blanks behind it, of which there has to be one. -/
def afterWord? (word : Text) (text : Text) : Option Text :=
  match word.isPrefixOf? text with
  | some (c :: rest) => if isBlank c then some (trimStart rest) else none
  | _ => none

theorem identifier?_append {text name rest : Text} (h : identifier? text = some (name, rest)) :
    name ++ rest = text := by
  cases text with
  | nil => simp [identifier?] at h
  | cons c tail =>
    simp only [identifier?] at h
    split at h
    · simp only [Option.some.injEq, Prod.mk.injEq] at h
      obtain ⟨rfl, rfl⟩ := h
      simp [List.takeWhile_append_dropWhile]
    · simp at h

theorem identifier?_isIdentifier {text name rest : Text}
    (h : identifier? text = some (name, rest)) : isIdentifier name = true := by
  cases text with
  | nil => simp [identifier?] at h
  | cons c tail =>
    simp only [identifier?] at h
    split at h
    · next start =>
      simp only [Option.some.injEq, Prod.mk.injEq] at h
      obtain ⟨rfl, -⟩ := h
      simp [isIdentifier, start]
    · simp at h

end SchemaBoard.Text
