import Taskdown.Text.Blank
import Taskdown.Text.CharacterReference

/-!
# Quoted text

Text is written between double quotes, where a backslash escapes, or between single quotes, where
nothing does. Three quotes at either end let the text run over several lines.

* `readBasic?` and `readLiteral?` read what is behind the opening quotes.
* `basic` writes any text between double quotes, and `literal` writes some texts between single
  ones.
-/

namespace Taskdown.Toml

/-- A control character other than the tab. Such characters do not stand in a document as they
    are. -/
def isForbidden (c : Char) : Bool := (c.toNat < 0x20 && c ≠ '\t') || c = '\x7f'

/-! ## Reading -/

/-- The character of a short escape. -/
def shortEscape? (c : Char) : Option Char :=
  match c with
  | 'b' => some '\x08'
  | 't' => some '\t'
  | 'n' => some '\n'
  | 'f' => some '\x0c'
  | 'r' => some '\r'
  | 'e' => some '\x1b'
  | '"' => some '"'
  | '\\' => some '\\'
  | _ => none

/-- The number of digits of a numbered escape. -/
def escapeLength? (c : Char) : Option Nat :=
  match c with
  | 'x' => some 2
  | 'u' => some 4
  | 'U' => some 8
  | _ => none

/-- Where the reader stands between double quotes. -/
inductive Place where
  | plain
  /-- Behind a backslash. -/
  | escape
  /-- In a numbered escape of which this many digits are missing, with the value of the others. -/
  | number (missing value : Nat)
  /-- Behind a backslash at the end of a line, which skips all white space. -/
  | skipping
deriving DecidableEq, Repr

/-- Does a character with what follows it end a line? -/
def isLineBreak (c : Char) (rest : Text) : Bool := c = '\n' || (c = '\r' && rest.head? = some '\n')

/-- Are there only blanks up to the end of the line? -/
def isBlankToLineBreak : Text → Bool
  | [] => false
  | c :: cs => isLineBreak c cs || (Text.isSpaceTab c && isBlankToLineBreak cs)

/-- What a run of quotes means that may end a text over several lines: as many as three end it, and
    up to two more in front of these belong to the text. The rest of the text comes with it. -/
def closing? (quote : Char) (cs : Text) : Option (Text × Text) :=
  let n := (cs.takeWhile (· = quote)).length
  if n < 3 then none else some (List.replicate (min (n - 3) 2) quote, cs.drop (min n 5))

/-- Reads a text between double quotes from some place on, and gives it back with what follows the
    closing quotes. -/
def readBasic? (multiline : Bool) : Place → Text → Option (Text × Text)
  | _, [] => none
  | .escape, c :: cs =>
    match shortEscape? c, escapeLength? c with
    | some d, _ => (readBasic? multiline .plain cs).map fun (text, rest) => (d :: text, rest)
    | none, some n => readBasic? multiline (.number n 0) cs
    | none, none =>
      if multiline && isBlankToLineBreak (c :: cs) then readBasic? multiline .skipping cs else none
  | .number missing value, c :: cs =>
    match Text.hexDigit? c with
    | none => none
    | some d =>
      let value := 16 * value + d
      if 1 < missing then readBasic? multiline (.number (missing - 1) value) cs
      else if value.isValidChar then
        (readBasic? multiline .plain cs).map fun (text, rest) => (Char.ofNat value :: text, rest)
      else none
  | place, c :: cs =>
    if place = .skipping && (Text.isSpaceTab c || isLineBreak c cs)
      then readBasic? multiline .skipping cs
    else if c = '\\' then readBasic? multiline .escape cs
    else
      match multiline, c with
      | false, '"' => some ([], cs)
      | true, '"' =>
        match closing? '"' (c :: cs) with
        | some closed => some closed
        | none => (readBasic? multiline .plain cs).map fun (text, rest) => (c :: text, rest)
      | _, _ =>
        if isForbidden c && !(multiline && isLineBreak c cs) then none
        else (readBasic? multiline .plain cs).map fun (text, rest) => (c :: text, rest)

/-- Reads a text between single quotes, and gives it back with what follows the closing quotes. -/
def readLiteral? (multiline : Bool) : Text → Option (Text × Text)
  | [] => none
  | c :: cs =>
    match multiline, c with
    | false, '\'' => some ([], cs)
    | true, '\'' =>
      match closing? '\'' (c :: cs) with
      | some closed => some closed
      | none => (readLiteral? multiline cs).map fun (text, rest) => (c :: text, rest)
    | _, _ =>
      if isForbidden c && !(multiline && isLineBreak c cs) then none
      else (readLiteral? multiline cs).map fun (text, rest) => (c :: text, rest)

/-- A text without the line break at its start. -/
def dropLineBreak : Text → Text
  | '\n' :: cs => cs
  | '\r' :: '\n' :: cs => cs
  | cs => cs

/-- Reads the quoted text at the start of a text, if one starts there. -/
def quoted? : Text → Option (Text × Text)
  | '"' :: '"' :: '"' :: cs => readBasic? true .plain (dropLineBreak cs)
  | '"' :: cs => readBasic? false .plain cs
  | '\'' :: '\'' :: '\'' :: cs => readLiteral? true (dropLineBreak cs)
  | '\'' :: cs => readLiteral? false cs
  | _ => none

/-! ## Writing -/

/-- A hexadecimal digit, in upper case. -/
def upperHexDigit (n : Nat) : Char :=
  if n < 10 then Char.ofNat ('0'.toNat + n) else Char.ofNat ('A'.toNat + n - 10)

/-- A character as it is written between double quotes. -/
def escaped (c : Char) : Text :=
  if c = '\x08' then ['\\', 'b']
  else if c = '\t' then ['\\', 't']
  else if c = '\n' then ['\\', 'n']
  else if c = '\x0c' then ['\\', 'f']
  else if c = '\r' then ['\\', 'r']
  else if c = '"' then ['\\', '"']
  else if c = '\\' then ['\\', '\\']
  else if isForbidden c then
    ['\\', 'u', '0', '0', upperHexDigit (c.toNat / 16), upperHexDigit (c.toNat % 16)]
  else [c]

/-- A text between double quotes. -/
def basic (cs : Text) : Text := '"' :: cs.flatMap escaped ++ ['"']

/-- A text between single quotes. It must not contain any, nor anything that is written as an escape
    only. -/
def literal (cs : Text) : Text := '\'' :: cs ++ ['\'']

end Taskdown.Toml
