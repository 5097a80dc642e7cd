import Taskdown.Text.NamedReference

/-!
# Ranges of code points

A class of characters is written down as rows of ranges in hexadecimal, `first-last` or a single
code point.
-/

namespace Taskdown.Text

/-- A row entry, taken apart. -/
def rangeOfEntry (entry : String) : Nat × Nat :=
  let cs := entry.toList
  let first := ofHex (cs.takeWhile (· ≠ '-'))
  match cs.dropWhile (· ≠ '-') with
  | [] => (first, first)
  | _ :: last => (first, ofHex last)

/-- The ranges in rows. -/
def rangesOfRows (rows : List String) : List (Nat × Nat) :=
  rows.flatMap fun row => (row.splitOn " ").map rangeOfEntry

/-- Is a character in one of the ranges? -/
def inRanges (ranges : List (Nat × Nat)) (c : Char) : Bool :=
  ranges.any fun (first, last) => first ≤ c.toNat && c.toNat ≤ last

end Taskdown.Text
