import SchemaBoard.Text.Basic

set_option autoImplicit false

/-!
Lines of a text. Twelve characters or pairs end a line; a carriage return and a line feed in a row
are one break, and a break at the very end opens no further line.
-/
namespace SchemaBoard.Text

def isLineBreak (c : CodePoint) : Bool :=
  let n := c.number
  (10 ≤ n && n ≤ 13) || (28 ≤ n && n ≤ 30) || n == 0x85 || n == 0x2028 || n == 0x2029

/-- The lines of a text, without the characters that end them. -/
def lines : Text → List Text
  | [] => []
  | .char '\r' :: .char '\n' :: rest => [] :: lines rest
  | c :: rest =>
    if isLineBreak c then [] :: lines rest
    else
      match lines rest with
      | [] => [[c]]
      | line :: others => (c :: line) :: others

/-- The text with each carriage return, alone or in front of a line feed, made one line feed. -/
def withLineFeeds : Text → Text
  | [] => []
  | .char '\r' :: .char '\n' :: rest => .char '\n' :: withLineFeeds rest
  | c :: rest => (if c = '\r' then '\n' else c) :: withLineFeeds rest

theorem lines_nil : lines [] = [] := rfl

end SchemaBoard.Text
