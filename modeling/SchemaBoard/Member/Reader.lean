import SchemaBoard.Member.Basic
import SchemaBoard.TypeExpr.Reader

set_option autoImplicit false

/-!
Reading signatures such as `readonly tags?: string[];`. Method and index signatures are none.
-/
namespace SchemaBoard.Member

/-- The text between the blanks around a signature and in front of one final semicolon. -/
def signatureText (line : Text) : Text := Text.trim (Text.dropFinal ';' (Text.trim line))

/-- Reads a signature without a modifier: a name, a mark if it is optional, a colon and a type. -/
def ofPlain? (text : Text) : Option Member :=
  match Text.identifier? text with
  | none => none
  | some (name, rest) =>
    let (optional, rest) :=
      match rest with
      | .char '?' :: others => (true, others)
      | _ => (false, rest)
    match Text.trimStart rest with
    | .char ':' :: others =>
      let typeText := Text.trimStart others
      if typeText.isEmpty then none
      else some { name := name, type := TypeExpr.read typeText, optional := optional }
    | _ => none

/-- Reads a trimmed signature. `readonly` is a modifier if a signature stands behind it, and a name
otherwise. -/
def ofSignature? (text : Text) : Option Member :=
  match (Text.afterWord? "readonly".toText text).bind ofPlain? with
  | some member => some { member with readonly := true }
  | none => ofPlain? text

/-- Reads a line that holds one signature, or nothing. -/
def read? (line : Text) : Option Member := ofSignature? (signatureText line)

end SchemaBoard.Member
