import Taskdown.Output.LineRecord

/-!
# The lines of an output

A *line buffer* holds the records of all finished lines, each chained to the one before it. Lines
are found by their index or by an offset of the output.
-/

namespace Taskdown

/-- The records of the finished lines, in order. -/
structure LineBuffer where
  records : List LineRecord := []
deriving DecidableEq, Repr, Inhabited

namespace LineBuffer

/-- The number of lines. -/
def length (b : LineBuffer) : Nat := b.records.length

/-- Are there no lines? -/
def isEmpty (b : LineBuffer) : Bool := b.records.isEmpty

/-- The line with an index. -/
def line? (b : LineBuffer) (index : Nat) : Option LineRecord := b.records[index]?

/-- The last line. -/
def last? (b : LineBuffer) : Option LineRecord := b.records.getLast?

/-- The length of the output. -/
def totalLength (b : LineBuffer) : Nat := (b.last?.map (·.sum)).getD 0

/-- Adds a line, whose record is given back too. -/
def append (b : LineBuffer) (shape : LineShape) : Except Error (LineRecord × LineBuffer) := do
  let r ← LineRecord.chain b.last? shape
  return (r, ⟨b.records ++ [r]⟩)

/-- The first lines, as many as are asked for. -/
def truncate (b : LineBuffer) (count : Nat) : LineBuffer := ⟨b.records.take count⟩

/-- Makes the last line the last of its run. No sum depends on that. -/
def markLast (b : LineBuffer) : LineBuffer :=
  match b.last? with
  | some r => ⟨b.records.dropLast ++ [{ r with part := .last }]⟩
  | none => b

/-- The lines with the given shapes. -/
def ofShapes (shapes : List LineShape) : Except Error LineBuffer :=
  shapes.foldlM (fun b shape => return (← b.append shape).2) {}

/-- The offset of a line. The line behind the last one would start at the end of the output. -/
def offsetOf (b : LineBuffer) (index : Nat) : Option Nat :=
  match b.records[index]? with
  | some r => some r.start
  | none => if index = b.length then some b.totalLength else none

/-- The first number of a stretch at which a condition fails that holds up to there and not from
    there on. The stretch is halved until nothing of it is left. -/
def bisect (holds : Nat → Bool) (low high : Nat) : Nat :=
  if low < high then
    let middle := low + (high - low) / 2
    if holds middle then bisect holds (middle + 1) high else bisect holds low middle
  else low
termination_by high - low

/-- The line that holds an offset of the output. It is the first one whose sum is beyond the
    offset. -/
def lineAt? (b : LineBuffer) (offset : Nat) : Option LineRecord :=
  b.records[bisect (fun i => b.records[i]?.any (·.sum ≤ offset)) 0 b.length]?

/-- The number of blank lines at the end that belong to no preformatted run. -/
def trailingBlankLines (b : LineBuffer) : Nat :=
  (b.records.reverse.takeWhile fun r => r.isBlank && !r.isPreformatted).length

end LineBuffer

end Taskdown
