import Taskdown.Markup.LineCursor
import Taskdown.Markup.Leaf

/-!
# Tables

A table starts with two lines with pipes in them: a header, and a delimiter row of hyphens with as
many columns as the header. In a header, pipes behind a backslash are text.
-/

namespace Taskdown.Markup

/-- The number of pipes in a line that no backslash protects. -/
def pipeCount : Text → Nat
  | [] => 0
  | '\\' :: _ :: cs => pipeCount cs
  | c :: cs => (if c = '|' then 1 else 0) + pipeCount cs

/-- Is the last pipe that counts the last character of the line, blanks aside? -/
def endsWithPipe : Text → Bool
  | [] => false
  | '\\' :: _ :: cs => endsWithPipe cs
  | c :: cs => (c = '|' && isBlankLine cs) || endsWithPipe cs

/-- The number of columns of a header. Pipes at its two ends stand around the columns, not between
    them. -/
def headerColumns (cs : Text) : Nat :=
  let pipes := pipeCount cs
  let inner := if (cs.dropWhile isLineBlank).head? = some '|' then pipes - 1 else pipes
  if endsWithPipe cs then inner else inner + 1

/-- The number of columns that are left in a delimiter row. A colon or a hyphen starts a column
    (`started`), which needs a hyphen (`ruled`) before its pipe. -/
def delimiterColumnsFrom (started ruled : Bool) : Text → Option Nat
  | [] => some (if started then 1 else 0)
  | c :: cs =>
    if c = ' ' then delimiterColumnsFrom started ruled cs
    else if c = ':' then delimiterColumnsFrom true ruled cs
    else if c = '-' then delimiterColumnsFrom true true cs
    else if c = '|' then
      if ruled then (delimiterColumnsFrom false false cs).map (· + 1) else none
    else none

/-- The number of columns of a delimiter row, which may be indented by up to three columns, counted
    from the cursor. -/
def delimiterColumns? (c : LineCursor) : Option Nat :=
  match LineCursor.skip ⟨c.rest, c.offset, 0, 0⟩ 4 with
  | (4, _) => none
  | (_, d) =>
    let row := if d.rest.head? = some '|' then d.rest.drop 1 else d.rest
    if '|' ∉ d.rest ∨ '-' ∉ d.rest then none else delimiterColumnsFrom false false row

end Taskdown.Markup
