import Taskdown.Text.Line

/-!
# How leaf blocks look

A line shows by its first characters that it starts, ends or underlines a block without blocks in
it. All of these tests look at the rest of one line, behind the marks of the blocks around it and
its indentation.
-/

namespace Taskdown.Markup

/-- A blank within a line, in the wide sense: form feed and vertical tab count. -/
def isLineBlank (c : Char) : Bool := c = ' ' || c = '\t' || c = '\x0b' || c = '\x0c'

/-- Is there nothing but blanks? -/
def isBlankLine (cs : Text) : Bool := cs.all isLineBlank

/-- A thematic break: at least three of one of the marks `*`, `-` and `_`, and nothing else but
    blanks. -/
def isThematicBreak : Text → Bool
  | [] => false
  | c :: cs =>
    (c = '*' || c = '-' || c = '_') && (c :: cs).all (fun d => d = c || Text.isSpaceTab d) &&
      2 ≤ cs.count c

/-- A heading that is marked by one to six `#`. -/
def isHeading (cs : Text) : Bool :=
  let level := (cs.takeWhile (· = '#')).length
  1 ≤ level && level ≤ 6 && ((cs.drop level).head?.all isLineBlank)

/-- The underline of a heading: a run of `=` or of `-`. -/
def isUnderline : Text → Bool
  | [] => false
  | c :: cs => (c = '=' || c = '-') && isBlankLine (cs.dropWhile (· = c))

/-- A fence around code. -/
structure Fence where
  /-- A backtick or a tilde. -/
  mark : Char
  /-- The number of marks. -/
  count : Nat
deriving DecidableEq, Repr, Inhabited

/-- The fence that opens a block of code. No backtick may follow a fence of backticks. -/
def openingFence? : Text → Option Fence
  | [] => none
  | c :: cs =>
    let count := 1 + (cs.takeWhile (· = c)).length
    if (c = '\x60' ∨ c = '~') ∧ 3 ≤ count ∧ ¬ (c = '\x60' ∧ c ∈ cs.dropWhile (· = c))
      then some ⟨c, count⟩
    else none

/-- The number of characters of a fence that closes a block of code, blanks behind it included. -/
def closingFence? (fence : Fence) (cs : Text) : Option Nat :=
  let count := (cs.takeWhile (· = fence.mark)).length
  if fence.count ≤ count ∧ (cs.drop count).all (· = ' ') then some cs.length else none

end Taskdown.Markup
