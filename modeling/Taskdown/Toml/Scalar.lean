import Taskdown.Text.CharacterReference
import Taskdown.Toml.Value

/-!
# Values without quotes

Numbers, truth values, dates and times are written without quotes or brackets. Such a value is read
in two steps: first the run of characters that may belong to it, then what the run says.

* Integers are decimal, or hexadecimal, octal or binary without a sign. Single underscores may stand
  between digits.
* Numbers must fit: integers into 128 bits, floating-point numbers into the range of 64-bit ones.
* Dates must exist.
-/

namespace Taskdown.Toml

/-! ## Numbers -/

/-- A text without its sign. -/
def unsigned : Text → Text
  | '+' :: cs => cs
  | '-' :: cs => cs
  | cs => cs

/-- The digits of a run in which underscores stand between digits only. -/
def grouped? (isDigit : Char → Bool) : Text → Option Text
  | [] => none
  | [c] => if isDigit c then some [c] else none
  | c :: '_' :: cs => if isDigit c then (grouped? isDigit cs).map (c :: ·) else none
  | c :: cs => if isDigit c then (grouped? isDigit cs).map (c :: ·) else none

/-- The digits of a decimal run. A zero leads nothing but itself. -/
def decimal? (cs : Text) : Option Text :=
  (grouped? Text.isDigit cs).bind fun ds =>
    if ds.head? = some '0' && ds.length ≠ 1 then none else some ds

/-- The value of digits in a base up to ten. -/
def ofBase (base : Nat) (digits : Text) : Nat :=
  digits.foldl (fun n c => base * n + (c.toNat - '0'.toNat)) 0

/-- An integer, however large. -/
def wideInteger? : Text → Option Int
  | '0' :: 'x' :: cs => (grouped? Text.isHexDigit cs).map fun ds => (Text.ofHex ds : Nat)
  | '0' :: 'o' :: cs =>
    (grouped? (fun c => '0' ≤ c && c ≤ '7') cs).map fun ds => (ofBase 8 ds : Nat)
  | '0' :: 'b' :: cs =>
    (grouped? (fun c => c = '0' || c = '1') cs).map fun ds => (ofBase 2 ds : Nat)
  | '+' :: cs => (decimal? cs).map fun ds => (Text.ofDecimal ds : Nat)
  | '-' :: cs => (decimal? cs).map fun ds => -(Text.ofDecimal ds : Nat)
  | cs => (decimal? cs).map fun ds => (Text.ofDecimal ds : Nat)

/-- The least integer that can be given. -/
def leastInteger : Int := -0x80000000000000000000000000000000

/-- The greatest integer that can be given. -/
def greatestInteger : Int := 0xffffffffffffffffffffffffffffffff

/-- An integer. -/
def integer? (cs : Text) : Option Int :=
  (wideInteger? cs).bind fun n => if leastInteger ≤ n ∧ n ≤ greatestInteger then some n else none

/-- Is `n * 10 ^ e` closer to a 64-bit floating-point number than to the first power of two beyond
    them? -/
def isInRange (n : Nat) (e : Int) : Bool :=
  let magnitude := (Nat.toDigits 10 n).length + e
  if n = 0 || magnitude < 309 then true
  else if 309 < magnitude then false
  else n * Nat.pow 10 e.toNat < (Nat.pow 2 1024 - Nat.pow 2 970) * Nat.pow 10 (-e).toNat

/-- Is a text a floating-point number: a decimal number with a fraction, an exponent, or both; or
    one of the values that are no numbers? -/
def isFloat (cs : Text) : Bool :=
  let cs := unsigned cs
  let (mantissa, exponent) := cs.span fun c => c ≠ 'e' && c ≠ 'E'
  let (whole, fraction) := mantissa.span (· ≠ '.')
  let places? := if fraction.isEmpty then some [] else grouped? Text.isDigit fraction.tail
  let power? := if exponent.isEmpty then some [] else grouped? Text.isDigit (unsigned exponent.tail)
  match decimal? whole, places?, power? with
  | some digits, some places, some power =>
    let size : Int := Text.ofDecimal power
    let e := if exponent.tail.head? = some '-' then -size else size
    !(fraction.isEmpty && exponent.isEmpty) &&
      isInRange (Text.ofDecimal (digits ++ places)) (e - places.length)
  | _, _, _ => cs = "inf".toList || cs = "nan".toList

/-! ## Dates and times -/

/-- Do digits form a number within bounds? -/
def isBetween (least most : Nat) (digits : Text) : Bool :=
  digits.all Text.isDigit && least ≤ Text.ofDecimal digits && Text.ofDecimal digits ≤ most

/-- The number of days of a month. -/
def daysOfMonth (year month : Nat) : Nat :=
  if month = 2 then if year % 4 = 0 ∧ (year % 100 ≠ 0 ∨ year % 400 = 0) then 29 else 28
  else if month = 4 ∨ month = 6 ∨ month = 9 ∨ month = 11 then 30
  else 31

/-- What follows a date. -/
def afterDate? : Text → Option Text
  | y₁ :: y₂ :: y₃ :: y₄ :: '-' :: m₁ :: m₂ :: '-' :: d₁ :: d₂ :: cs =>
    let year := [y₁, y₂, y₃, y₄]
    let days := daysOfMonth (Text.ofDecimal year) (Text.ofDecimal [m₁, m₂])
    if isBetween 0 9999 year && isBetween 1 12 [m₁, m₂] && isBetween 1 days [d₁, d₂]
      then some cs else none
  | _ => none

/-- What follows a fraction of a second, which may be missing. -/
def afterFraction? : Text → Option Text
  | '.' :: c :: cs => if Text.isDigit c then some (cs.dropWhile Text.isDigit) else none
  | '.' :: [] => none
  | cs => some cs

/-- What follows a time. The seconds may be missing. -/
def afterTime? : Text → Option Text
  | h₁ :: h₂ :: ':' :: m₁ :: m₂ :: cs =>
    if isBetween 0 23 [h₁, h₂] && isBetween 0 59 [m₁, m₂] then
      match cs with
      | ':' :: s₁ :: s₂ :: cs => if isBetween 0 60 [s₁, s₂] then afterFraction? cs else none
      | cs => some cs
    else none
  | _ => none

/-- Is a text the offset of a time, or nothing? -/
def isOffset : Text → Bool
  | [] => true
  | ['Z'] => true
  | ['z'] => true
  | [sign, h₁, h₂, ':', m₁, m₂] =>
    (sign = '+' || sign = '-') && isBetween 0 23 [h₁, h₂] && isBetween 0 59 [m₁, m₂]
  | _ => false

/-- Is a text a date, a time, or both with an offset? -/
def isDateTime (cs : Text) : Bool :=
  match afterDate? cs with
  | some [] => true
  | some (c :: cs) => (c = 'T' || c = 't' || c = ' ') && (afterTime? cs).any isOffset
  | none => (afterTime? cs).any List.isEmpty

/-! ## All of them -/

/-- The value of a run. -/
def scalarOfRun? (run : Text) : Option Value :=
  if run = "true".toList then some (.boolean true)
  else if run = "false".toList then some (.boolean false)
  else
    match integer? run with
    | some n => some (.integer n)
    | none =>
      if isFloat run then some (.float run)
      else if isDateTime run then some (.dateTime run)
      else none

/-- A character that may stand in a value without quotes. -/
def isScalarChar (c : Char) : Bool :=
  Text.isLetter c || Text.isDigit c || c = '+' || c = '-' || c = '_' || c = '.' || c = ':'

/-- The run at the start of a text, and the rest. A space between a date and a time belongs to the
    run. -/
def scalarRun (cs : Text) : Text × Text :=
  match cs.span isScalarChar with
  | (date, ' ' :: c :: rest) =>
    if afterDate? date = some [] && Text.isDigit c then
      let (time, rest) := (c :: rest).span isScalarChar
      (date ++ ' ' :: time, rest)
    else (date, ' ' :: c :: rest)
  | (run, rest) => (run, rest)

/-- The value without quotes at the start of a text, and the rest. -/
def scalar? (cs : Text) : Option (Value × Text) :=
  let (run, rest) := scalarRun cs
  (scalarOfRun? run).map (·, rest)

end Taskdown.Toml
