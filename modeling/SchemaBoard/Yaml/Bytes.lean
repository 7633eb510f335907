import SchemaBoard.Text.Quoted

set_option autoImplicit false

/-!
Bytes that are written with sixty-four characters, six bits each. Characters that carry no bits are
passed over.
-/
namespace SchemaBoard.Yaml

def sextet? (c : CodePoint) : Option Nat :=
  if 'A' ≤ c && c ≤ 'Z' then some (c.number - 65)
  else if 'a' ≤ c && c ≤ 'z' then some (c.number - 71)
  else if c.isDigit then some (c.number + 4)
  else if c == '+' then some 62
  else if c == '/' then some 63
  else none

/-- The whole bytes in at most four groups of six bits. -/
def bytesOfSextets (sextets : List Nat) : List Nat :=
  let padded := sextets ++ List.replicate (4 - sextets.length) 0
  let bits := padded.foldl (fun bits sextet => 64 * bits + sextet) 0
  [bits / 65536, bits / 256 % 256, bits % 256].take (sextets.length - 1)

/-- The bytes of a text, where `held` are the six-bit groups of the open quadruple and `pads` counts
the equals signs behind them. A quadruple that equals signs fill up ends the text; one that stays
open makes it unreadable. -/
def decodeBytes? (held : List Nat) (pads : Nat) : Text → Option (List Nat)
  | [] => if held.isEmpty then some [] else none
  | c :: rest =>
    if c = '=' then
      if held.length < 2 then decodeBytes? held pads rest
      else if 4 ≤ held.length + pads + 1 then some (bytesOfSextets held)
      else decodeBytes? held (pads + 1) rest
    else
      match sextet? c with
      | none => decodeBytes? held pads rest
      | some sextet =>
        if held.length = 3 then
          (decodeBytes? [] 0 rest).map (bytesOfSextets (held ++ [sextet]) ++ ·)
        else decodeBytes? (held ++ [sextet]) 0 rest

/-- The bytes that a text of plain characters stands for. -/
def bytesOf? (text : Text) : Option (List Nat) :=
  if text.all fun c => c.number < 128 then decodeBytes? [] 0 text else none

def byteText (quote : CodePoint) (byte : Nat) : Text :=
  if byte < 128 then Text.quoteChar quote (Char.ofNat byte)
  else .char '\\' :: .char 'x' :: Text.hexDigits 2 byte

/-- Bytes between quotes, behind the letter `b`. -/
def bytesText (bytes : List Nat) : Text :=
  let quote := Text.quoteFor (bytes.map fun byte => .char (Char.ofNat byte))
  .char 'b' :: quote :: bytes.flatMap (byteText quote) ++ [quote]

end SchemaBoard.Yaml
