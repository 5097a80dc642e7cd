import Taskdown.Tracker.Cursor

/-!
# Gathering elements

Elements of a tracker that are wanted are *gathered* at its front. A cursor walks over the tracker
while a position, the *boundary*, stands behind the elements that have been gathered. A wanted
element that stands at the boundary already moves the boundary behind it; any other is taken out and
put back before the boundary. Both keep their order: the elements that are wanted, and those that
are not.
-/

namespace Taskdown.Tracker

variable {α : Type}

/-- Gathers the wanted elements that a cursor still visits, in at most `fuel` steps. The boundary
    comes back too. -/
def gatherFrom (wanted : α → Bool) :
    Nat → Cursor → Position → Tracker α → Except Failure (Position × Tracker α)
  | 0, _, boundary, t => return (boundary, t)
  | fuel + 1, c, boundary, t => do
    match ← t.advance c with
    | none => return (boundary, t)
    | some (here, c, t) =>
      match ← t.element? here with
      | none => gatherFrom wanted fuel c boundary (t.release here)
      | some value =>
        if !wanted value then gatherFrom wanted fuel c boundary (t.release here)
        else if (t.state here).index = (t.state boundary).index then
          let (next, t) ← t.position ((t.state here).index + 1)
          gatherFrom wanted fuel c next ((t.release boundary).release here)
        else
          match ← t.removeAt here with
          | none => gatherFrom wanted fuel c boundary (t.release here)
          | some (value, t) =>
            let t ← (← t.insertBefore boundary value)
            gatherFrom wanted fuel c boundary (t.release here)

/-- Gathers all wanted elements at the front. The position behind them comes back too. Every step
    visits another element, so there are no more steps than elements. -/
def gather (wanted : α → Bool) (t : Tracker α) : Except Failure (Position × Tracker α) :=
  let (boundary, t) := t.first
  let (c, t) := t.cursor
  gatherFrom wanted t.length c boundary t

end Taskdown.Tracker
