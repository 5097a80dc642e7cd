import Taskdown.Tracker.Basic

/-!
# Cursors

A *cursor* walks over a tracker while the tracker is edited. It holds the position of the element
that it visits next, so elements that are inserted at or right behind the one visited last are not
visited, and elements that are removed are skipped.
-/

namespace Taskdown

/-- A walk over a tracker. -/
structure Cursor where
  /-- The position of the element that is visited next. -/
  next : Position
deriving DecidableEq, Repr, Inhabited

namespace Tracker

variable {α : Type}

/-- A walk that starts at the first element. -/
def cursor (t : Tracker α) : Cursor × Tracker α :=
  let (next, t) := t.first
  (⟨next⟩, t)

/-- Gives a cursor up. -/
def releaseCursor (t : Tracker α) (c : Cursor) : Tracker α := t.release c.next

/-- A step of a walk: the position of the element that is visited, and the rest of the walk; nothing
    at the end. The place behind the element is registered first, then the old place is given up. -/
def advance (t : Tracker α) (c : Cursor) :
    Except Misuse (Option (Position × Cursor × Tracker α)) := do
  t.checkOwns c.next
  let index := (t.state c.next).index
  if t.length ≤ index then return none
  else
    let (next, t) := t.register (index + 1)
    let (here, t) := (t.release c.next).register index
    return some (here, ⟨next⟩, t)

end Tracker

end Taskdown
