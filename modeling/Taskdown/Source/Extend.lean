import Taskdown.Source.View

/-!
# Growing a view

A view grows into the text around it by looking at the characters behind its end or before its
start. Growing never fails: where nothing fits, the view stays as it is.
-/

namespace Taskdown.View

/-- At most `limit` characters from the front of a text; all of them without a limit. -/
def firstChars (limit : Option Nat) (cs : Text) : Text :=
  match limit with
  | none => cs
  | some n => cs.take n

/-- The view with its end moved. -/
def withStop (v : View) (stop : Nat) : View := v.withSpan ⟨v.start, stop⟩

/-- The view with its start moved. -/
def withStart (v : View) (start : Nat) : View := v.withSpan ⟨start, v.stop⟩

/-- Grows the end over a run of characters of a set, of which at most `limit` are taken. -/
def extendOver (v : View) (set : Text) (limit : Option Nat := none) : View :=
  v.withStop (v.stop + Text.width ((firstChars limit v.textAfter).takeWhile set.contains))

/-- Grows the end over one character of a set. -/
def extendOverOne (v : View) (set : Text) : View := v.extendOver set (some 1)

/-- Grows the end up to and over the first character of a set, provided that it is among the next
    `limit` characters. -/
def extendTo (v : View) (set : Text) (limit : Option Nat := none) : View :=
  let ahead := firstChars limit v.textAfter
  match ahead.dropWhile (!set.contains ·) with
  | [] => v
  | c :: _ => v.withStop (v.stop + Text.width (ahead.takeWhile (!set.contains ·)) + c.utf8Size)

/-- Grows the end to the next terminator, or to the end of the source; `inclusive` takes the
    terminator too, and takes `\r\n` as one if both are terminators. A view that ends with a
    terminator stays as it is. -/
def extendToLineEnd (v : View) (inclusive : Bool) (terminators : Text := ['\r', '\n']) : View :=
  if v.text.getLast?.any terminators.contains then v
  else
    let line := v.textAfter.takeWhile (!terminators.contains ·)
    let stop := v.stop + Text.width line
    match v.textAfter.dropWhile (!terminators.contains ·) with
    | [] => v.withStop stop
    | c :: rest =>
      if !inclusive then v.withStop stop
      else if c = '\r' ∧ '\n' ∈ terminators ∧ rest.head? = some '\n' then v.withStop (stop + 2)
      else v.withStop (stop + c.utf8Size)

/-- Grows the start back behind the previous terminator, or to the start of the source; `inclusive`
    takes the terminator too, and takes `\r\n` as one if both are terminators. A view that starts
    with a terminator stays as it is. -/
def extendToLineStart (v : View) (inclusive : Bool) (terminators : Text := ['\r', '\n']) : View :=
  if v.text.head?.any terminators.contains then v
  else
    let back := v.textBefore.reverse
    let start := v.start - Text.width (back.takeWhile (!terminators.contains ·))
    match back.dropWhile (!terminators.contains ·) with
    | [] => v.withStart 0
    | c :: rest =>
      if !inclusive then v.withStart start
      else if c = '\n' ∧ '\r' ∈ terminators ∧ rest.head? = some '\r' then v.withStart (start - 2)
      else v.withStart (start - c.utf8Size)

/-! ## Indentation -/

/-- The column after a character that stands at a column: a tab leads to the next multiple of
    four. -/
def nextColumn (column : Nat) (c : Char) : Nat :=
  if c = '\t' then column + 4 - column % 4 else column + 1

/-- The column after a text that starts at a column. -/
def columnAfter (column : Nat) (cs : Text) : Nat := cs.foldl nextColumn column

/-- The characters of a text, each with the column at which it stands. -/
def columns : Nat → Text → List (Char × Nat)
  | _, [] => []
  | column, c :: cs => (c, column) :: columns (nextColumn column c) cs

/-- Grows the start back over the spaces and tabs before the view, taking at most `limit` columns. A
    blank that is wider than what is left of the limit is not taken. -/
def withIndent (v : View) (limit : Option Nat := none) : View :=
  let line := (v.textBefore.reverse.takeWhile (!Text.isLineEnd ·)).reverse
  let column := columnAfter 0 line
  let indent := (columns 0 line).reverse.takeWhile fun (c, before) =>
    Text.isSpaceTab c && limit.all (column - before ≤ ·)
  v.withStart (v.start - indent.length)

end Taskdown.View
