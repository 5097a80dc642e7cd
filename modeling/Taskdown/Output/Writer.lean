import Taskdown.Output.LineBuffer
import Taskdown.Text.Blank

/-!
# Writing lines

A *writer* puts lines together from fragments of text. Fragments gather in a pending line; when that
line ends, it is given the *leads* that are in force, one behind the other. A lead may have a first
form (a list marker, for instance), which goes to the first line with content and gives way to the
other form from then on.

Blank lines are limited in number, and those at the end are dropped when the writer finishes. Lines
between `openRun` and `closeRun` are *preformatted*: they are kept as they are.

A writer keeps its lines, and what it has written is read off them. How the text and its records are
kept side by side is said by a `Recorder`, which follows the same scripts.
-/

namespace Taskdown

/-- What is put in front of the lines. -/
structure Lead where
  /-- The first form, until it has been used. -/
  first : Option Text
  /-- The form for all other lines. -/
  rest : Text
deriving DecidableEq, Repr, Inhabited

/-- The form of a lead for the next line. Lines without content leave first forms alone. -/
def Lead.form (content : Bool) (l : Lead) : Text := if content then l.first.getD l.rest else l.rest

/-- A lead after the next line. -/
def Lead.used (content : Bool) (l : Lead) : Lead := if content then { l with first := none } else l

/-- A line that has ended. Its terminator is always `\n`. -/
structure WrittenLine where
  lead : Text
  text : Text
  part : RunPart
deriving DecidableEq, Repr, Inhabited

/-- The characters of a line. -/
def WrittenLine.chars (l : WrittenLine) : Text := l.lead ++ l.text ++ ['\n']

/-- The lengths of a line, and what is blank about it. -/
def WrittenLine.shape (l : WrittenLine) : LineShape where
  leadLength := Text.width l.lead
  textLength := Text.width l.text
  length := Text.width l.lead + Text.width l.text + 1
  blankLead := Text.isBlank l.lead
  blankText := Text.isBlank l.text
  part := l.part

/-- Lines in the making. -/
structure Writer where
  /-- The lines that have ended, the last one first. -/
  ended : List WrittenLine := []
  /-- The leads in force, the outermost first. -/
  leads : List Lead := []
  /-- The text of the line that has not ended. -/
  pending : Text := []
  /-- The number of blank lines allowed between two lines with content. -/
  maxBlankLines : Nat := 1
  /-- The number of runs that are open. -/
  runDepth : Nat := 0
  /-- The number of lines in the outermost run that was opened last. -/
  runLines : Nat := 0
  /-- The number of blank lines at the end that belong to no run. -/
  trailingBlanks : Nat := 0
deriving DecidableEq, Repr, Inhabited

namespace Writer

/-- The text of the lines that have ended. -/
def text (w : Writer) : Text := w.ended.reverse.flatMap WrittenLine.chars

/-- The records of the lines that have ended. -/
def lines (w : Writer) : Except Error LineBuffer :=
  LineBuffer.ofShapes (w.ended.reverse.map WrittenLine.shape)

/-! ## Leads -/

/-- Puts a lead in front of the lines to come. -/
def pushLead (w : Writer) (lead : Text) : Writer :=
  { w with leads := w.leads ++ [⟨none, lead⟩] }

/-- Puts a lead with a first form in front of the lines to come. -/
def pushLeadFirst (w : Writer) (first rest : Text) : Writer :=
  { w with leads := w.leads ++ [⟨some first, rest⟩] }

/-- Takes the innermost lead away. -/
def popLead (w : Writer) : Writer := { w with leads := w.leads.dropLast }

/-! ## Ending lines -/

/-- The part of its run that the next line is. -/
def nextPart (w : Writer) : RunPart :=
  if w.runDepth = 0 then .outside else if w.runLines = 0 then .first else .body

/-- Ends the pending line, blank or not. A blank line outside of runs loses its text, and a lead
    without text loses the white space at its end. -/
def endLine (w : Writer) : Writer :=
  let part := w.nextPart
  let content := !(Text.isBlank w.pending && part = .outside)
  let lead := w.leads.flatMap (Lead.form content)
  let text := if content then w.pending else []
  let lead := if text.isEmpty then Text.trimEnd lead else lead
  { w with
    ended := ⟨lead, text, part⟩ :: w.ended
    leads := w.leads.map (Lead.used content)
    pending := []
    runLines := if w.runDepth = 0 then w.runLines else w.runLines + 1
    trailingBlanks := if content then 0 else w.trailingBlanks + 1 }

/-- Ends the pending line if it has any text. -/
def line (w : Writer) : Writer := if w.pending.isEmpty then w else w.endLine

/-- Ends the pending line, and adds a blank one unless there are enough already or nothing stands
    before it. Within a run the blank line is always added. -/
def blankLine (w : Writer) : Writer :=
  let w := w.line
  if w.runDepth = 0 ∧ (w.ended.isEmpty ∨ w.maxBlankLines ≤ w.trailingBlanks) then w else w.endLine

/-! ## Text -/

/-- The pieces of a text: each `\n` ends one. The flag says whether the piece was ended. -/
def pieces : Text → List (Text × Bool)
  | [] => []
  | c :: cs =>
    if c = '\n' then ([], true) :: pieces cs
    else
      match pieces cs with
      | [] => [([c], false)]
      | (piece, ended) :: rest => (c :: piece, ended) :: rest

/-- A piece that was ended, without the `\r` before its end. -/
def dropReturn (piece : Text) : Text := if piece.getLast? = some '\r' then piece.dropLast else piece

/-- Appends a piece to the pending line. -/
def appendPiece (w : Writer) : Text × Bool → Writer
  | (piece, true) => { w with pending := w.pending ++ dropReturn piece }.endLine
  | (piece, false) => { w with pending := w.pending ++ piece }

/-- Appends text to the pending line. Each `\n` in it ends a line. -/
def append (w : Writer) (cs : Text) : Writer := (pieces cs).foldl appendPiece w

/-! ## Runs -/

/-- Opens a preformatted run. -/
def openRun (w : Writer) : Writer :=
  let w := w.line
  { w with runLines := if w.runDepth = 0 then 0 else w.runLines, runDepth := w.runDepth + 1 }

/-- Makes the last line the last of its run. -/
def markLast (w : Writer) : Writer :=
  match w.ended with
  | l :: ended => { w with ended := { l with part := .last } :: ended }
  | [] => w

/-- Closes a preformatted run. Closing the outermost one marks its last line, if it has at least
    two. -/
def closeRun (w : Writer) : Writer :=
  let w := w.line
  let w := { w with runDepth := w.runDepth - 1 }
  if w.runDepth = 0 ∧ 1 < w.runLines then w.markLast else w

/-! ## The end -/

/-- Ends the pending line and drops the blank lines at the end. -/
def finish (w : Writer) : Writer :=
  let w := w.line
  { w with ended := w.ended.drop w.trailingBlanks, trailingBlanks := 0 }

end Writer

end Taskdown
