import Taskdown.Error
import Taskdown.Text.Line

/-!
# Views of a source

A *source* is a text with an identity: two sources with the same characters may still be different
sources. A *view* is a span of a source. Views are never copied text: whatever is derived from a
view is a view of the same source, and carries the same *anchor*, an offset of the source that
somebody follows (a caret, for instance).

Views are built by `View.of`, `View.ofRange` and the derivations below. Both ends of such a view are
boundaries of its source.
-/

namespace Taskdown

/-- A text with an identity. -/
structure Source where
  /-- Tells sources with equal text apart. -/
  key : Nat
  /-- The characters of the source. -/
  text : Text
deriving DecidableEq, Repr, Inhabited

/-- The number of bytes of a source. -/
def Source.size (s : Source) : Nat := Text.width s.text

/-- The side to which an anchor belongs when it stands on the border between two views. -/
inductive Bias where
  /-- It belongs to both sides. -/
  | neutral
  /-- It belongs to the text before it. -/
  | left
  /-- It belongs to the text after it. -/
  | right
deriving DecidableEq, Repr, Inhabited

/-- An offset of a source that is followed from view to view. -/
structure Anchor where
  /-- The absolute offset. -/
  offset : Nat
  /-- The side that it belongs to. -/
  bias : Bias
deriving DecidableEq, Repr, Inhabited

/-- A span of a source, with the anchor that it inherited. -/
structure View where
  /-- What the view looks at. -/
  source : Source
  /-- The part of the source that is seen. -/
  span : Span
  /-- The offset that is followed, if any. -/
  anchor : Option Anchor := none
deriving DecidableEq, Repr, Inhabited

/-- Refuses an offset that is no boundary of the text. -/
def checkBoundary (cs : Text) (offset : Nat) : Except Error Unit :=
  if Text.isBoundary cs offset then .ok () else .error (.insideChar offset)

/-- Refuses a span that is no span of the text. Its bounds are checked first, then its start, then
    its end. -/
def checkSpan (cs : Text) (span : Span) : Except Error Unit :=
  if span.stop < span.start ∨ Text.width cs < span.stop then
    .error (.rangeOutOfBounds span.start span.stop (Text.width cs))
  else do
    checkBoundary cs span.start
    checkBoundary cs span.stop

namespace View

/-! ## Making views -/

/-- The view of a whole source. -/
def of (source : Source) : View := ⟨source, ⟨0, source.size⟩, none⟩

/-- The view of a span of a source. -/
def ofRange (source : Source) (start stop : Nat) : Except Error View := do
  checkSpan source.text ⟨start, stop⟩
  return ⟨source, ⟨start, stop⟩, none⟩

/-- The view of a source from an offset on. -/
def ofFrom (source : Source) (start : Nat) : Except Error View :=
  ofRange source start source.size

/-- The view of another span of the same source, following the same anchor. -/
def withSpan (v : View) (span : Span) : View := { v with span }

/-! ## Looking at views -/

/-- The first offset of the view. -/
def start (v : View) : Nat := v.span.start

/-- The first offset behind the view. -/
def stop (v : View) : Nat := v.span.stop

/-- The number of bytes in view. -/
def length (v : View) : Nat := v.span.length

/-- Is nothing in view? -/
def isEmpty (v : View) : Bool := v.span.isEmpty

/-- The text in view. -/
def text (v : View) : Text := Text.slice v.source.text v.start v.stop

/-- The text of the source before the view. -/
def textBefore (v : View) : Text := Text.takeBytes v.source.text v.start

/-- The text of the source behind the view. -/
def textAfter (v : View) : Text := Text.dropBytes v.source.text v.stop

/-- The absolute offset of an index into the view; the end of the view has one too. -/
def offsetOf (v : View) (index : Nat) : Except Error Nat :=
  if v.length < index then .error (.indexOutOfBounds index v.length) else .ok (v.start + index)

/-- The character at an index. -/
def charAt (v : View) (index : Nat) : Except Error Char :=
  if v.length ≤ index then .error (.indexOutOfBounds index v.length)
  else
    match Text.charAt? v.text index with
    | some c => .ok c
    | none => .error (.insideChar (v.start + index))

/-- The character at an index that may lie anywhere; the null character if no character of the view
    starts there. -/
def peek (v : View) (index : Int) : Char :=
  if index < 0 then '\x00' else (Text.charAt? v.text index.toNat).getD '\x00'

/-- The character of the source at an absolute offset that may lie anywhere; the null character if
    none starts there. -/
def peekSource (v : View) (offset : Int) : Char :=
  if offset < 0 then '\x00' else (Text.charAt? v.source.text offset.toNat).getD '\x00'

/-! ## Cutting views -/

/-- The part of the view between two indices. Bounds are checked against the view, boundaries
    against the source. -/
def sub (v : View) (start stop : Nat) : Except Error View :=
  if stop < start ∨ v.length < stop then .error (.rangeOutOfBounds start stop v.length)
  else do
    checkBoundary v.source.text (v.start + start)
    checkBoundary v.source.text (v.start + stop)
    return v.withSpan ⟨v.start + start, v.start + stop⟩

/-- The part of the view from an index on. -/
def subFrom (v : View) (start : Nat) : Except Error View := v.sub start v.length

/-- The view of any span of the source. -/
def subSource (v : View) (start stop : Nat) : Except Error View := do
  checkSpan v.source.text ⟨start, stop⟩
  return v.withSpan ⟨start, stop⟩

/-- The view of the source from an offset on. -/
def subSourceFrom (v : View) (start : Nat) : Except Error View := v.subSource start v.source.size

/-- The empty view at the start of the view. -/
def atStart (v : View) : View := v.withSpan v.span.atStart

/-- The empty view at the end of the view. -/
def atStop (v : View) : View := v.withSpan v.span.atStop

/-! ## Two views -/

/-- Do both views look at the same source? -/
def sameSource (v w : View) : Bool := v.source = w.source

/-- Refuses two views that look at different sources. -/
def checkSources (op : PairOp) (v w : View) : Except Misuse Unit :=
  if v.sameSource w then .ok () else .error (.differentSources op v.span w.span)

/-- Does `w` start where `v` ends? -/
def isContinuedBy (v w : View) : Except Misuse Bool := do
  checkSources .continuedBy v w
  return w.start = v.stop

/-- Does `v` start where `w` ends? -/
def isContinuationOf (v w : View) : Except Misuse Bool := w.isContinuedBy v

/-- The view of both `v` and `w`, provided that `w` continues `v`. It follows the anchor of `v`, or
    that of `w` if `v` has none. -/
def join (v w : View) : View :=
  { v with span := ⟨v.start, w.stop⟩, anchor := v.anchor.or w.anchor }

/-- Joins a view to the one that it continues. -/
def splice (v w : View) : Except Misuse View := do
  if ← v.isContinuedBy w then return v.join w
  else throw (.notAdjacent w.span v.span)

/-- Joins a view to the one that it continues, and refuses any other. -/
def trySplice (v w : View) : Except Error View :=
  if v.sameSource w ∧ w.start = v.stop then .ok (v.join w)
  else .error (.notContinuation v.stop w.start)

/-- Does `w` lie within `v`? -/
def containsAll (v w : View) : Except Misuse Bool := do
  checkSources .containsAll v w
  return v.span.containsAll w.span

/-- Do `v` and `w` have a byte in common? -/
def containsSome (v w : View) : Except Misuse Bool := do
  checkSources .containsSome v w
  return v.span.containsSome w.span

/-- The part of `v` before `w` starts. -/
def before (v w : View) : Except Misuse View := do
  checkSources .before v w
  return v.withSpan (v.span.before w.span)

/-- The part of `v` after `w` ends. -/
def after (v w : View) : Except Misuse View := do
  checkSources .after v w
  return v.withSpan (v.span.after w.span)

/-- The part of `v` that is also in `w`. -/
def inter (v w : View) : Except Misuse View := do
  checkSources .inter v w
  return v.withSpan (v.span.inter w.span)

/-- Do the two views show the same text, wherever it comes from? -/
def sameText (v w : View) : Bool := v.text = w.text

/-! ## Trimming views -/

/-- The view without the blanks at its start. -/
def trimStart (v : View) : View :=
  v.withSpan ⟨v.start + Text.width (v.text.takeWhile Text.isTrimmed), v.stop⟩

/-- The view without the blanks at its end. -/
def trimEnd (v : View) : View :=
  v.withSpan ⟨v.start, v.start + Text.width (Text.dropEndWhile Text.isTrimmed v.text)⟩

/-- The view without the blanks at either end. A blank view becomes the empty view at its end. -/
def trim (v : View) : View := v.trimStart.trimEnd

/-- The view without the line terminator at its end. -/
def chomp (v : View) : View := v.withSpan ⟨v.start, v.start + Text.width (Text.chomp v.text)⟩

/-- The views of consecutive texts, the first of which starts at an offset. -/
def tile (v : View) : Nat → List Text → List View
  | _, [] => []
  | offset, cs :: rest =>
    v.withSpan ⟨offset, offset + Text.width cs⟩ :: v.tile (offset + Text.width cs) rest

/-- The lines of the view, each with its terminator. -/
def lines (v : View) : List View := v.tile v.start (Text.lines v.text)

end View

end Taskdown
