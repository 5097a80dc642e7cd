import Taskdown.Error

/-!
# Records of output lines

A finished output line consists of a *lead* (markers and indentation), its text, and a terminator.
Its *record* says how long these parts are and which of them are blank, and sums the lengths of all
lines up to and including this one, so that every offset of a line is known without looking at the
others.

* `LineRecord.chain` builds a record on the one before it, and refuses lengths that do not fit.
-/

namespace Taskdown

/-- Where a line stands with regard to a preformatted run (a block of code, for instance). -/
inductive RunPart where
  /-- Outside of any run. -/
  | outside
  /-- The first line of a run, perhaps its only one. -/
  | first
  /-- A line within a run. -/
  | body
  /-- The last line of a run of at least two. -/
  | last
deriving DecidableEq, Repr, Inhabited

namespace RunPart

/-- The name of a part. -/
def name : RunPart → String
  | .outside => "none"
  | .first => "first"
  | .body => "body"
  | .last => "last"

/-- The part with a name. -/
def ofName (s : String) : Except Error RunPart :=
  match s with
  | "none" => .ok .outside
  | "first" => .ok .first
  | "body" => .ok .body
  | "last" => .ok .last
  | _ => .error (.unknownRunPart s)

/-- The part with a number: they are numbered from zero, in the order in which they are listed. -/
def ofNumber (n : Nat) : Except Error RunPart :=
  match n with
  | 0 => .ok .outside
  | 1 => .ok .first
  | 2 => .ok .body
  | 3 => .ok .last
  | _ => .error (.unknownRunPart (toString n))

theorem ofName_name (p : RunPart) : ofName p.name = .ok p := by cases p <;> rfl

end RunPart

/-- The greatest length of an output: lengths and offsets are counted in 64 bits. -/
def maxLength : Nat := 0xffffffffffffffff

/-- What is known of a line alone. -/
structure LineShape where
  /-- Bytes before the text. -/
  leadLength : Nat
  /-- Bytes of text. -/
  textLength : Nat
  /-- Bytes of the whole line, its terminator included. -/
  length : Nat
  /-- Is the lead white space only? -/
  blankLead : Bool := false
  /-- Is the text white space only? -/
  blankText : Bool := false
  part : RunPart := .outside
deriving DecidableEq, Repr, Inhabited

/-- A line among the lines before it. -/
structure LineRecord where
  /-- The number of lines before this one. -/
  index : Nat
  leadLength : Nat
  textLength : Nat
  length : Nat
  /-- The sum of the lead lengths up to this line. -/
  sumLead : Nat
  /-- The sum of the text lengths up to this line. -/
  sumText : Nat
  /-- The sum of the lengths up to this line. -/
  sum : Nat
  blankLead : Bool
  blankText : Bool
  part : RunPart
deriving DecidableEq, Repr, Inhabited

namespace LineRecord

/-- The record of a line behind another one, or of a first line. A part without bytes is blank
    whatever is said of it. Lead and text must fit into the line, and no sum may pass the greatest
    length. -/
def chain (previous : Option LineRecord) (shape : LineShape) : Except Error LineRecord :=
  let index := (previous.map (·.index + 1)).getD 0
  let sumLead := (previous.map sumLead).getD 0 + shape.leadLength
  let sumText := (previous.map sumText).getD 0 + shape.textLength
  let sum := (previous.map sum).getD 0 + shape.length
  if shape.length < shape.leadLength + shape.textLength ∨ maxLength < sumLead ∨
      maxLength < sumText ∨ maxLength < sum then
    .error (.invalidLine shape.leadLength shape.textLength shape.length)
  else
    .ok
      { index
        leadLength := shape.leadLength
        textLength := shape.textLength
        length := shape.length
        sumLead
        sumText
        sum
        blankLead := shape.blankLead || shape.leadLength = 0
        blankText := shape.blankText || shape.textLength = 0
        part := shape.part }

/-- The offset of the first byte of the line in the output. -/
def start (r : LineRecord) : Nat := r.sum - r.length

/-- The offset behind the line. -/
def stop (r : LineRecord) : Nat := r.sum

/-- Are lead and text blank? -/
def isBlank (r : LineRecord) : Bool := r.blankLead && r.blankText

/-- Is the line part of a preformatted run? -/
def isPreformatted (r : LineRecord) : Bool := r.part ≠ .outside

/-- Does the line have a terminator? -/
def hasTerminator (r : LineRecord) : Bool := r.leadLength + r.textLength < r.length

/-- The length of the terminator. -/
def terminatorLength (r : LineRecord) : Nat := r.length - r.leadLength - r.textLength

/-- The text within the line. -/
def textSpan (r : LineRecord) : Span := ⟨r.leadLength, r.leadLength + r.textLength⟩

/-- The text within the output. -/
def outputSpan (r : LineRecord) : Span := ⟨r.start + r.textSpan.start, r.start + r.textSpan.stop⟩

/-- A record as it is written. -/
def display (r : LineRecord) : String :=
  let lengths := s!"i={r.index}, pl={r.leadLength}, tl={r.textLength}, l={r.length}"
  let sums := s!", sumPl={r.sumLead}, sumTl={r.sumText}, sumL={r.sum}"
  let flags :=
    (if r.blankLead then ", bp" else "") ++ (if r.blankText then ", bt" else "") ++
      (if r.hasTerminator then ", eol" else "") ++
      (if r.isPreformatted then ", " ++ r.part.name else "")
  "LineInfo\x7b" ++ lengths ++ sums ++ flags ++ "\x7d"

end LineRecord

end Taskdown
