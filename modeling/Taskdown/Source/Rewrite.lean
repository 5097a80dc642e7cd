import Taskdown.Source.Provenance
import Taskdown.Source.View

/-!
# Rewriting text

A *rewriting* of a text takes it apart into pieces, from left to right, and says of each piece
whether it stays or what is written in its place. The pieces hold the text (`Rewriting.input`), what
it becomes (`Rewriting.output`), and how the two belong together (`Rewriting.record`).
-/

namespace Taskdown

/-- A piece of a text that is rewritten. -/
inductive Piece where
  /-- A character that stays. -/
  | keep (c : Char)
  /-- A text and what is written in its place. -/
  | change (old new : Text)
deriving DecidableEq, Repr

/-- The characters of a piece before rewriting. -/
def Piece.input : Piece → Text
  | .keep c => [c]
  | .change old _ => old

/-- The characters of a piece after rewriting. -/
def Piece.output : Piece → Text
  | .keep c => [c]
  | .change _ new => new

/-- Does a piece stay as it is? -/
def Piece.isKept : Piece → Bool
  | .keep _ => true
  | .change _ _ => false

/-- A text in pieces. -/
abbrev Rewriting := List Piece

namespace Rewriting

/-- The text that is rewritten. -/
def input (r : Rewriting) : Text := r.flatMap Piece.input

/-- The rewritten text. -/
def output (r : Rewriting) : Text := r.flatMap Piece.output

/-- Does the whole text stay as it is? -/
def isIdentity (r : Rewriting) : Bool := r.all Piece.isKept

/-- Records where the rewritten text comes from, if the text starts at an offset of its source. -/
def record : Nat → Rewriting → Provenance → Provenance
  | _, [], p => p
  | offset, .keep c :: r, p =>
    record (offset + c.utf8Size) r (p.copy ⟨offset, offset + c.utf8Size⟩)
  | offset, .change old new :: r, p =>
    let stop := offset + Text.width old
    record stop r (p.replace ⟨offset, stop⟩ (Text.width new))

end Rewriting

/-- Rewritten text, and whether it is the text of the view as it was. -/
structure Rewritten where
  text : Text
  unchanged : Bool
deriving DecidableEq, Repr

/-- What a rewriting makes of its text. -/
def Rewriting.result (r : Rewriting) : Rewritten := ⟨r.output, r.isIdentity⟩

end Taskdown
