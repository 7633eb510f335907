import SchemaBoard.Text.Basic

set_option autoImplicit false

/-!
Blank characters and trimming. The blanks are the code points of bidirectional type B, S or WS and
those of category Zs, which includes the separators U+001C to U+001F and the no-break space. The
padding around a number is made of the blanks without these four separators.
-/
namespace SchemaBoard.Text

def isBlank (c : CodePoint) : Bool :=
  let n := c.number
  (9 ≤ n && n ≤ 13) || (28 ≤ n && n ≤ 32) || n == 0x85 || n == 0xA0 || n == 0x1680 ||
    (0x2000 ≤ n && n ≤ 0x200A) || n == 0x2028 || n == 0x2029 || n == 0x202F || n == 0x205F ||
    n == 0x3000

def trimStart (text : Text) : Text := text.dropWhile isBlank

def trimEnd (text : Text) : Text := (text.reverse.dropWhile isBlank).reverse

def trim (text : Text) : Text := trimEnd (trimStart text)

def isPadding (c : CodePoint) : Bool := isBlank c && !(28 ≤ c.number && c.number ≤ 31)

def unpadded (text : Text) : Text :=
  ((text.dropWhile isPadding).reverse.dropWhile isPadding).reverse

def allBlank (text : Text) : Bool := text.all isBlank

theorem dropWhile_length_le (p : CodePoint → Bool) (text : Text) :
    (text.dropWhile p).length ≤ text.length :=
  (List.dropWhile_sublist p).length_le

theorem trimStart_length_le (text : Text) : (trimStart text).length ≤ text.length :=
  dropWhile_length_le _ _

theorem trimEnd_length_le (text : Text) : (trimEnd text).length ≤ text.length := by
  simpa [trimEnd] using dropWhile_length_le isBlank text.reverse

theorem trim_length_le (text : Text) : (trim text).length ≤ text.length :=
  Nat.le_trans (trimEnd_length_le _) (trimStart_length_le _)

end SchemaBoard.Text
