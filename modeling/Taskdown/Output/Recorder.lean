import Taskdown.Output.Script

/-!
# Writing a text and its records

A *recorder* follows scripts as a writer does, but it does not keep the lines that have ended. It
keeps two outputs instead: the text, and a line buffer that says where its lines are. A line that
ends goes to the line buffer first, which may refuse it, and then to the text. When the recorder
finishes, the blank lines at the end are taken from both.

Nothing ties the two outputs together but what is done to them. A cut that is not possible is an
error, in either of them.
-/

namespace Taskdown

/-- The first bytes of a text, as many as are asked for. There may be fewer; a character is not
    cut. -/
def Text.truncate (cs : Text) (length : Nat) : Except Error Text :=
  if Text.width cs ≤ length then .ok cs
  else if Text.isBoundary cs length then .ok (Text.takeBytes cs length)
  else .error (.insideChar length)

theorem Text.truncate_append (as bs : Text) :
    Text.truncate (as ++ bs) (Text.width as) = .ok as := by
  rw [Text.truncate]
  split
  · next hle =>
    rw [Text.width_append] at hle
    have hnil : bs = [] := Text.width_eq_zero_iff.1 (by omega)
    rw [hnil, List.append_nil]
  · rw [if_pos (Text.isBoundary_append_left as bs), Text.takeBytes_width_append]

/-- Lines in the making, of which two outputs are kept. -/
structure Recorder where
  /-- The text of the lines that have ended. -/
  text : Text := []
  /-- The records of the lines that have ended. -/
  lines : LineBuffer := {}
  /-- The leads in force, the outermost first. -/
  leads : List Lead := []
  /-- The text of the line that has not ended. -/
  pending : Text := []
  /-- The number of blank lines allowed between two lines with content. -/
  maxBlankLines : Nat := 1
  /-- The number of runs that are open. -/
  runDepth : Nat := 0
  /-- The number of lines in the outermost run that was opened last. -/
  runLines : Nat := 0
  /-- The number of blank lines at the end that belong to no run. -/
  trailingBlanks : Nat := 0
deriving DecidableEq, Repr, Inhabited

namespace Recorder

/-! ## Ending lines -/

/-- The part of its run that the next line is. -/
def nextPart (r : Recorder) : RunPart :=
  if r.runDepth = 0 then .outside else if r.runLines = 0 then .first else .body

/-- Does the pending line have content, so that it is kept as it is? Within a run every line has. -/
def hasContent (r : Recorder) : Bool := !(Text.isBlank r.pending && r.nextPart = .outside)

/-- The text of the next line. A blank line outside of runs loses its text. -/
def nextText (r : Recorder) : Text := if r.hasContent then r.pending else []

/-- The lead of the next line. Without text it loses the white space at its end. -/
def nextLead (r : Recorder) : Text :=
  let lead := r.leads.flatMap (Lead.form r.hasContent)
  if r.nextText.isEmpty then Text.trimEnd lead else lead

/-- What goes to the line buffer. Whether the text is blank is asked of the pending line, before it
    may have lost its text. -/
def nextShape (r : Recorder) : LineShape where
  leadLength := Text.width r.nextLead
  textLength := Text.width r.nextText
  length := Text.width r.nextLead + Text.width r.nextText + 1
  blankLead := Text.isBlank r.nextLead
  blankText := Text.isBlank r.pending
  part := r.nextPart

/-- Ends the pending line, blank or not. -/
def endLine (r : Recorder) : Except Error Recorder := do
  let (_, lines) ← r.lines.append r.nextShape
  return { r with
    text := r.text ++ r.nextLead ++ r.nextText ++ ['\n']
    lines
    leads := r.leads.map (Lead.used r.hasContent)
    pending := []
    runLines := if r.runDepth = 0 then r.runLines else r.runLines + 1
    trailingBlanks := if r.hasContent then 0 else r.trailingBlanks + 1 }

/-- Ends the pending line if it has any text. -/
def line (r : Recorder) : Except Error Recorder :=
  if r.pending.isEmpty then return r else r.endLine

/-- Ends the pending line, and adds a blank one unless there are enough already or nothing stands
    before it. Within a run the blank line is always added. -/
def blankLine (r : Recorder) : Except Error Recorder := do
  let r ← r.line
  if r.runDepth = 0 ∧ (r.lines.isEmpty ∨ r.maxBlankLines ≤ r.trailingBlanks) then return r
  else r.endLine

/-! ## Text -/

/-- Appends a piece to the pending line. -/
def appendPiece (r : Recorder) : Text × Bool → Except Error Recorder
  | (piece, true) => { r with pending := r.pending ++ Writer.dropReturn piece }.endLine
  | (piece, false) => return { r with pending := r.pending ++ piece }

/-- Appends text to the pending line. Each `\n` in it ends a line. -/
def append (r : Recorder) (cs : Text) : Except Error Recorder :=
  (Writer.pieces cs).foldlM appendPiece r

/-! ## Runs -/

/-- Opens a preformatted run. -/
def openRun (r : Recorder) : Except Error Recorder := do
  let r ← r.line
  return { r with
    runLines := if r.runDepth = 0 then 0 else r.runLines
    runDepth := r.runDepth + 1 }

/-- Closes a preformatted run. Closing the outermost one marks the record of its last line, if it
    has at least two. -/
def closeRun (r : Recorder) : Except Error Recorder := do
  let r ← r.line
  let r := { r with runDepth := r.runDepth - 1 }
  if r.runDepth = 0 ∧ 1 < r.runLines then return { r with lines := r.lines.markLast }
  else return r

/-! ## Scripts -/

/-- Does one thing. -/
def step (r : Recorder) : Writer.Step → Except Error Recorder
  | .append text => r.append text
  | .line => r.line
  | .blankLine => r.blankLine
  | .openRun => r.openRun
  | .closeRun => r.closeRun
  | .pushLead lead => return { r with leads := r.leads ++ [⟨none, lead⟩] }
  | .pushLeadFirst first rest => return { r with leads := r.leads ++ [⟨some first, rest⟩] }
  | .popLead => return { r with leads := r.leads.dropLast }

/-- Follows a script, up to the first line that is refused. -/
def run (r : Recorder) (script : Script) : Except Error Recorder := script.foldlM step r

/-- Ends the pending line and gives the two outputs back, without the blank lines at the end: so
    many records are dropped, and the text is cut where the lines that are left end. -/
def finish (r : Recorder) : Except Error (Text × LineBuffer) := do
  let r ← r.line
  if r.trailingBlanks = 0 then return (r.text, r.lines)
  else if r.lines.length < r.trailingBlanks then
    .error (.rangeOutOfBounds r.trailingBlanks r.lines.length r.lines.length)
  else
    let lines := r.lines.truncate (r.lines.length - r.trailingBlanks)
    return (← Text.truncate r.text lines.totalLength, lines)

end Recorder

end Taskdown
