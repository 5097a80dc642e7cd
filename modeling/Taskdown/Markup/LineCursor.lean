import Taskdown.Text.Line

/-!
# Reading along a line

Block structure is read line by line. A *cursor* stands within a line: it knows what is left of it
and at which offset it stands. Indentation is measured in columns, and a tab reaches to the next
multiple of four; a cursor that takes only some of the columns of a tab keeps the others as *spare*
columns.
-/

namespace Taskdown

/-- A line of a text. -/
structure SourceLine where
  /-- The offset of its first character. -/
  start : Nat
  /-- The line without its terminator. -/
  body : Text
  /-- The offset behind its terminator. -/
  stop : Nat
  /-- Does it have a terminator? -/
  terminated : Bool
deriving DecidableEq, Repr, Inhabited

namespace SourceLine

/-- The lines of a text, the first of which starts at an offset. -/
def listOf : Nat → List Text → List SourceLine
  | _, [] => []
  | start, line :: rest =>
    let stop := start + Text.width line
    let body := Text.chomp line
    ⟨start, body, stop, body ≠ line⟩ :: listOf stop rest

/-- The lines of a text. -/
def ofText (cs : Text) : List SourceLine := listOf 0 (Text.lines cs)

/-- The offset of the terminator. -/
def bodyStop (l : SourceLine) : Nat := l.start + Text.width l.body

end SourceLine

/-- A place in a line. -/
structure LineCursor where
  /-- What is left of the line. -/
  rest : Text
  /-- The offset of what is left. -/
  offset : Nat
  /-- The column, counted from the last tab stop that is known. -/
  column : Nat := 0
  /-- Columns of the tab before the cursor that are not used up. -/
  spare : Nat := 0
deriving DecidableEq, Repr, Inhabited

namespace LineCursor

/-- The start of a line. -/
def atStart (l : SourceLine) : LineCursor := ⟨l.body, l.start, 0, 0⟩

/-- Is nothing left of the line? -/
def atEnd (c : LineCursor) : Bool := c.rest.isEmpty

/-- Skips blanks from the front of a text, at most `limit` columns of them. The number of columns
    that were skipped comes first. -/
def skipText : Text → Nat → Nat → Nat → Nat × LineCursor
  | ' ' :: cs, offset, column, limit + 1 =>
    let (n, c) := skipText cs (offset + 1) (column + 1) limit
    (n + 1, c)
  | '\t' :: cs, offset, column, limit + 1 =>
    let wide := 4 - column % 4
    if wide ≤ limit + 1 then
      let (n, c) := skipText cs (offset + 1) 0 (limit + 1 - wide)
      (n + wide, c)
    else (limit + 1, ⟨cs, offset + 1, 0, wide - (limit + 1)⟩)
  | cs, offset, column, _ => (0, ⟨cs, offset, column, 0⟩)

/-- Skips blanks, at most `limit` columns of them, spare columns first. -/
def skip (c : LineCursor) (limit : Nat) : Nat × LineCursor :=
  if limit ≤ c.spare then (limit, { c with spare := c.spare - limit })
  else
    let (n, d) := skipText c.rest c.offset c.column (limit - c.spare)
    (c.spare + n, d)

/-- Skips exactly `columns` columns of blanks, if there are so many. -/
def skipExactly? (c : LineCursor) (columns : Nat) : Option LineCursor :=
  let (n, d) := c.skip columns
  if n = columns then some d else none

/-- Skips all spaces and tabs. -/
def skipAll (c : LineCursor) : LineCursor :=
  let blanks := c.rest.takeWhile Text.isSpaceTab
  { rest := c.rest.drop blanks.length
    offset := c.offset + blanks.length
    column := c.column + blanks.length
    spare := 0 }

/-- Moves over characters that are no blanks, each one byte and one column wide. -/
def forward (c : LineCursor) (count : Nat) : LineCursor :=
  { c with rest := c.rest.drop count, offset := c.offset + count, column := c.column + count }

end LineCursor

end Taskdown
