import Taskdown.Source.View

/-!
# Lines and columns

Offsets of a source have coordinates, counted from one: the line, and the column as a count of
characters. Any number is accepted as an offset: it is moved back to the nearest boundary of the
source.

The plain functions let every terminator (`\n`, `\r\n`, a lone `\r`) end a line; those with
`Newline` in their names know `\n` only.
-/

namespace Taskdown

/-- A line and a column, both counted from one. -/
structure LineColumn where
  line : Nat
  column : Nat
deriving DecidableEq, Repr

/-- Coordinates as they are written. -/
def LineColumn.display (p : LineColumn) : String := s!"{p.line}:{p.column}"

namespace Source

/-- The offsets at which a line starts behind a terminator, in order; the text starts at an
    offset. -/
def lineStartsFrom : Nat → Text → List Nat
  | _, [] => []
  | offset, c :: cs =>
    let next := offset + c.utf8Size
    if Text.endsLine c cs then next :: lineStartsFrom next cs else lineStartsFrom next cs

/-- The line starts of a source at or before an offset, the start of the source left out. -/
def lineStartsTo (s : Source) (offset : Nat) : List Nat :=
  (lineStartsFrom 0 s.text).takeWhile (· ≤ offset)

/-- The start of the line that holds an offset. -/
def lineStart (s : Source) (offset : Nat) : Nat :=
  ((s.lineStartsTo (Text.floorBoundary s.text offset)).getLast?).getD 0

/-- The column of an offset. -/
def column (s : Source) (offset : Nat) : Nat :=
  let offset := Text.floorBoundary s.text offset
  (Text.slice s.text (s.lineStart offset) offset).length + 1

/-- The line and the column of an offset. -/
def lineColumn (s : Source) (offset : Nat) : LineColumn :=
  ⟨(s.lineStartsTo (Text.floorBoundary s.text offset)).length + 1, s.column offset⟩

/-- The offset of the next character of a class at or after an offset, or the end of the source. -/
def nextWhere (p : Char → Bool) (s : Source) (offset : Nat) : Nat :=
  let offset := Text.floorBoundary s.text offset
  offset + Text.width ((Text.dropBytes s.text offset).takeWhile (!p ·))

/-- The offset behind the previous character of a class before an offset, or the start of the
    source. -/
def afterPreviousWhere (p : Char → Bool) (s : Source) (offset : Nat) : Nat :=
  let offset := Text.floorBoundary s.text offset
  offset - Text.width ((Text.takeBytes s.text offset).reverse.takeWhile (!p ·))

/-- The next terminator at or after an offset. -/
def lineEnd (s : Source) (offset : Nat) : Nat := s.nextWhere Text.isLineEnd offset

/-- The next `\n` at or after an offset. -/
def lineEndNewline (s : Source) (offset : Nat) : Nat := s.nextWhere (· = '\n') offset

/-- The place behind the previous `\n`. -/
def lineStartNewline (s : Source) (offset : Nat) : Nat := s.afterPreviousWhere (· = '\n') offset

/-- The span of the line that holds an offset, without its terminator. An offset between `\r` and
    `\n` lies in the line that the pair ends. -/
def lineSpan (s : Source) (offset : Nat) : Span :=
  let start := s.lineStart offset
  let stop := s.lineEnd offset
  if start < stop ∧ Text.charAt? s.text (stop - 1) = some '\r' then ⟨start, stop - 1⟩
  else ⟨start, stop⟩

end Source

end Taskdown
