import Taskdown.Output.Writer

/-!
# Scripts

A *script* is a list of what a writer shall do. Whoever lays out a document writes a script and need
not know the state of the writer that follows it.
-/

namespace Taskdown

/-- One thing for a writer to do. -/
inductive Writer.Step where
  | append (text : Text)
  | line
  | blankLine
  | openRun
  | closeRun
  | pushLead (lead : Text)
  | pushLeadFirst (first rest : Text)
  | popLead
deriving DecidableEq, Repr

/-- A list of steps for a writer. -/
abbrev Script := List Writer.Step

namespace Writer

/-- Does one thing. -/
def step (w : Writer) : Step → Writer
  | .append text => w.append text
  | .line => w.line
  | .blankLine => w.blankLine
  | .openRun => w.openRun
  | .closeRun => w.closeRun
  | .pushLead lead => w.pushLead lead
  | .pushLeadFirst first rest => w.pushLeadFirst first rest
  | .popLead => w.popLead

/-- Follows a script. -/
def run (w : Writer) (script : Script) : Writer := script.foldl step w

@[simp] theorem run_nil (w : Writer) : w.run [] = w := rfl

@[simp] theorem run_cons (w : Writer) (s : Step) (script : Script) :
    w.run (s :: script) = (w.step s).run script := rfl

/-- A script may be followed in parts. -/
theorem run_append (w : Writer) (a b : Script) : w.run (a ++ b) = (w.run a).run b :=
  List.foldl_append

end Writer

end Taskdown
