import Taskdown.Source.View

/-!
# Anchors

A view that follows an anchor can tell where the anchor lies in it. An anchor on the border of a
view counts as inside unless its bias points away from the view, to text that exists.
-/

namespace Taskdown.View

/-- The view, following the offset of an index from now on. -/
def track (v : View) (index : Nat) (bias : Bias := .neutral) : Except Error View := do
  let offset ← v.offsetOf index
  checkBoundary v.source.text offset
  return { v with anchor := some ⟨offset, bias⟩ }

/-- The view, following nothing. -/
def untrack (v : View) : View := { v with anchor := none }

/-- Does the view follow an anchor? -/
def isTracking (v : View) : Bool := v.anchor.isSome

/-- The index at which a span shows an anchor, in a source of the given size. An empty span shows
    the anchor that it stands on, whatever its bias. -/
def anchorIndex (span : Span) (size : Nat) (anchor : Anchor) : Option Nat :=
  if anchor.offset < span.start ∨ span.stop < anchor.offset then none
  else if span.isEmpty then some 0
  else if anchor.offset = span.start ∧ anchor.bias = .left ∧ 0 < span.start then none
  else if anchor.offset = span.stop ∧ anchor.bias = .right ∧ span.stop < size then none
  else some (anchor.offset - span.start)

/-- The index of the anchor in the view, if the view follows one and shows it. -/
def trackedIndex (v : View) : Option Nat := v.anchor.bind (anchorIndex v.span v.source.size)

/-- The place of the anchor in another text, into which the view is written at `start`; at most
    `limit`. -/
def trackedOffset (v : View) (start limit : Nat) : Option Nat :=
  v.trackedIndex.map fun index => min (start + index) limit

end Taskdown.View
