import Taskdown.Text.Bytes
import Taskdown.Text.NamedReference

/-!
# Character references

A *character reference* is `&name;`, `&#decimal;` or `&#xhex;`. Recognising one is a matter of its
form alone: at most seven decimal or six hexadecimal digits, or a letter followed by up to
thirty-one letters and digits. Decoding may then still fail, because no character has this name or
number.
-/

namespace Taskdown.Text

/-- The body of a character reference: what stands between `&` and `;`. -/
inductive Reference where
  | hex (mark : Char) (digits : Text)
  | decimal (digits : Text)
  | named (name : Text)
deriving DecidableEq, Repr

/-- An ASCII letter. -/
def isLetter (c : Char) : Bool := ('a' ≤ c && c ≤ 'z') || ('A' ≤ c && c ≤ 'Z')

/-- An ASCII digit. -/
def isDigit (c : Char) : Bool := '0' ≤ c && c ≤ '9'

/-- A hexadecimal digit. -/
def isHexDigit (c : Char) : Bool := (hexDigit? c).isSome

/-- An ASCII punctuation character. -/
def isPunctuation (c : Char) : Bool :=
  ('!' ≤ c && c ≤ '/') || (':' ≤ c && c ≤ '@') || ('[' ≤ c && c ≤ '\x60') || ('\x7b' ≤ c && c ≤ '~')

/-- A run of between one and `most` characters of a class, up to the `;` right behind it. -/
def closedRun? (p : Char → Bool) (most : Nat) (cs : Text) : Option Text :=
  let run := cs.takeWhile p
  if run ≠ [] ∧ run.length ≤ most ∧ (cs.dropWhile p).head? = some ';' then some run else none

/-- The reference whose `&` stands before a text, if there is one. -/
def reference? : Text → Option Reference
  | '#' :: 'x' :: cs => (closedRun? isHexDigit 6 cs).map (.hex 'x')
  | '#' :: 'X' :: cs => (closedRun? isHexDigit 6 cs).map (.hex 'X')
  | '#' :: cs => (closedRun? isDigit 7 cs).map .decimal
  | c :: cs =>
    if isLetter c then
      (closedRun? (fun d => isLetter d || isDigit d) 31 cs).map fun run => .named (c :: run)
    else none
  | [] => none

/-- The number of characters of a reference, from `&` to `;`. -/
def Reference.length : Reference → Nat
  | .hex _ digits => digits.length + 4
  | .decimal digits => digits.length + 3
  | .named name => name.length + 2

/-- The value of a text of decimal digits. -/
def ofDecimal (digits : Text) : Nat := digits.foldl (fun n c => 10 * n + (c.toNat - '0'.toNat)) 0

/-- The character with a number, unless the number names no character, or a control character other
    than tab and the line terminators. -/
def numberedChar? (n : Nat) : Option Char :=
  if n.isValidChar ∧ ¬ (n ≤ 8 ∨ n = 11 ∨ (14 ≤ n ∧ n ≤ 31)) then some (Char.ofNat n) else none

/-- The character that a reference stands for. -/
def Reference.decode? : Reference → Option Char
  | .hex _ digits => numberedChar? (ofHex digits)
  | .decimal digits => numberedChar? (ofDecimal digits)
  | .named name => namedReferences.lookup (String.ofList name)

end Taskdown.Text
