import Taskdown.Text.Bytes
import Taskdown.Text.Shapeless

/-!
# Quoted text

Text as it is shown to people who look for errors: between double quotes, with escapes for the
characters that would not be seen.
-/

namespace Taskdown.Text

/-- The digits of a number in lower-case hexadecimal. -/
def hexDigits (n : Nat) : Text := Nat.toDigits 16 n

/-- A character as it is written between the quotes. -/
def quotedChar (c : Char) : Text :=
  if c = '\x00' then ['\\', '0']
  else if c = '\t' then ['\\', 't']
  else if c = '\n' then ['\\', 'n']
  else if c = '\r' then ['\\', 'r']
  else if c = '"' then ['\\', '"']
  else if c = '\\' then ['\\', '\\']
  else if isShapeless c then ['\\', 'u', '\x7b'] ++ hexDigits c.toNat ++ ['\x7d']
  else [c]

/-- A text between quotes. -/
def quoted (cs : Text) : String := String.ofList ('"' :: cs.flatMap quotedChar ++ ['"'])

end Taskdown.Text
