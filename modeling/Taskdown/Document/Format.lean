import Taskdown.Document.Build
import Taskdown.Document.Render
import Taskdown.Output.Recorder

/-!
# Formatting

A text is formatted by building its document and laying it out again. The result comes with the
records of its lines.
-/

namespace Taskdown

/-- A text that has been formatted. -/
structure Formatted where
  text : Text
  lines : LineBuffer
deriving DecidableEq, Repr, Inhabited

/-- The text of a line, without what is in front of it and without its end. -/
def Formatted.lineText? (f : Formatted) (index : Nat) : Option Text := do
  let span := (← f.lines.line? index).outputSpan
  guard (Text.isBoundary f.text span.start && Text.isBoundary f.text span.stop)
  return Text.slice f.text span.start span.stop

/-- What a writer makes of the blocks of a document. -/
def FormatOptions.write (o : FormatOptions) (blocks : List Block) : Except Failure Writer := do
  let w : Writer := { maxBlankLines := o.maxBlankLines }
  return (w.run (← Block.scriptOfBlocks o 0 true false blocks)).finish

/-- Writes the blocks of a document, and records the lines. -/
def FormatOptions.record (o : FormatOptions) (blocks : List Block) : Except Failure Formatted := do
  let script ← Block.scriptOfBlocks o 0 true false blocks
  let r ← ({ maxBlankLines := o.maxBlankLines } : Recorder).run script
  let (text, lines) ← r.finish
  return ⟨text, lines⟩

/-- Formats a text. -/
def FormatOptions.format (o : FormatOptions) (text : Text) : Except Failure Formatted := do
  o.record (← Block.listOfView (View.of ⟨0, text⟩))

end Taskdown
