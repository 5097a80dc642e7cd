import Taskdown.Markup.Html
import Taskdown.Markup.LineCursor

/-!
# Link reference definitions

A definition `[label]: destination "title"` gives a name to a link. It is no block of its own, so
all that matters is how many lines it takes. Label, destination and title may stand on lines of
their own, as long as each line would continue a paragraph; `next` tells what such a line holds
behind the marks of the blocks around it.
-/

namespace Taskdown.Markup

/-- What the lines below hold if they continue a paragraph: the rest of the line, and the lines
    below it. -/
abbrev NextLine := List SourceLine → Option (Text × List SourceLine)

/-- Where reading a label on one line ends. -/
inductive LabelEnd where
  /-- At the closing bracket; what follows it on the line. -/
  | closed (rest : Text)
  /-- At the end of the line. -/
  | lineEnd
  /-- At a bracket that a label cannot hold. -/
  | broken
deriving DecidableEq, Repr

/-- Reads a label to the end of its line. The flag says whether a character that is not blank was
    found. -/
def labelOnLine (found : Bool) : Text → LabelEnd × Bool
  | [] => (.lineEnd, found)
  | '\\' :: _ :: cs => labelOnLine true cs
  | c :: cs =>
    if c = '[' then (.broken, found)
    else if c = ']' then (.closed cs, found)
    else labelOnLine (found || !isLineBlank c) cs

/-- Reads a label, of which at most `fuel` further lines are looked at: what follows it on its last
    line, and the lines below. A label needs a character that is not blank, and holds no blank
    line. -/
def afterLabel? (next : NextLine) :
    Nat → Bool → Text → List SourceLine → Option (Text × List SourceLine)
  | 0, _, _, _ => none
  | fuel + 1, found, cs, below =>
    match labelOnLine found cs with
    | (.closed rest, true) => some (rest, below)
    | (.lineEnd, found) =>
      match next below with
      | some (line, below) =>
        if isBlankLine line then none else afterLabel? next fuel found line below
      | none => none
    | _ => none

/-- Skips blanks, and at most one line end among them: what follows, the lines below, and whether a
    line end was skipped. -/
def afterSpace? (next : NextLine) (cs : Text) (below : List SourceLine) :
    Option (Text × List SourceLine × Bool) :=
  match skipBlanks cs with
  | [] =>
    match next below with
    | some (line, below) =>
      match skipBlanks line with
      | [] => none
      | rest => some (rest, below, true)
    | none => none
  | rest => some (rest, below, false)

/-- What follows a destination between angle brackets; the opening one is left out. -/
def afterPointed? : Text → Option Text
  | [] => none
  | '\\' :: c :: cs => if Text.isPunctuation c then afterPointed? cs else afterPointed? (c :: cs)
  | c :: cs => if c = '>' then some cs else if c = '<' then none else afterPointed? cs

/-- What follows a destination without angle brackets, in which `depth` parentheses are open. -/
def afterPlain? (depth : Nat) : Text → Option Text
  | [] => if depth = 0 then some [] else none
  | '\\' :: c :: cs =>
    if Text.isPunctuation c then afterPlain? depth cs else afterPlain? depth (c :: cs)
  | c :: cs =>
    if c ≤ ' ' then if depth = 0 then some (c :: cs) else none
    else if c = '(' then if depth ≤ 32 then afterPlain? (depth + 1) cs else none
    else if c = ')' then if depth = 0 then some (c :: cs) else afterPlain? (depth - 1) cs
    else afterPlain? depth cs

/-- What follows a destination. -/
def afterDestination? : Text → Option Text
  | '<' :: cs => afterPointed? cs
  | cs =>
    match afterPlain? 0 cs with
    | some rest => if rest.length = cs.length then none else some rest
    | none => none

/-- What follows a title on this line, if it ends here. -/
def titleOnLine (close : Char) : Text → Option Text
  | [] => none
  | '\\' :: _ :: cs => titleOnLine close cs
  | c :: cs => if c = close then some cs else titleOnLine close cs

/-- Reads a title, of which at most `fuel` further lines are looked at. -/
def afterTitleText? (next : NextLine) (close : Char) :
    Nat → Text → List SourceLine → Option (Text × List SourceLine)
  | 0, _, _ => none
  | fuel + 1, cs, below =>
    match titleOnLine close cs with
    | some rest => some (rest, below)
    | none =>
      match next below with
      | some (line, below) =>
        if isBlankLine line then none else afterTitleText? next close fuel line below
      | none => none

/-- Reads a title between quotes or parentheses. -/
def afterTitle? (next : NextLine) (cs : Text) (below : List SourceLine) :
    Option (Text × List SourceLine) :=
  match cs with
  | '"' :: rest => afterTitleText? next '"' (below.length + 1) rest below
  | '\'' :: rest => afterTitleText? next '\'' (below.length + 1) rest below
  | '(' :: rest => afterTitleText? next ')' (below.length + 1) rest below
  | _ => none

/-- The lines below a definition that starts with a text and goes on in the lines below it. A title
    on a line of its own that turns out to be none is left to the text that follows. -/
def afterDefinition? (next : NextLine) (cs : Text) (below : List SourceLine) :
    Option (List SourceLine) := do
  let ('[' :: cs) := cs | none
  let (':' :: cs, below) ← afterLabel? next (below.length + 1) false cs below | none
  let (cs, below, _) ← afterSpace? next cs below
  let cs ← afterDestination? cs
  match afterSpace? next cs below with
  | none => some below
  | some (title, belowTitle, newLine) =>
    if title.length = cs.length && !newLine then none
    else
      match afterTitle? next title belowTitle with
      | some (rest, belowAll) =>
        if isBlankLine rest then some belowAll else if newLine then some below else none
      | none => if newLine then some below else none

end Taskdown.Markup
