import Taskdown.Tracker.Cursor

/-!
# Several trackers at once

A *registry* keeps trackers by their number. A tracker that is dropped leaves its place empty; its
positions are then lost, and belong to none of the others.
-/

namespace Taskdown

/-- Trackers by number. -/
structure Registry (α : Type) where
  trackers : List (Option (Tracker α))

namespace Registry

variable {α : Type}

/-- A tracker for each of the lists. -/
def ofLists (lists : List (List α)) : Registry α :=
  ⟨lists.zipIdx.map fun (items, id) => some { id, items }⟩

/-- The tracker with a number. -/
def get? (r : Registry α) (id : Nat) : Option (Tracker α) := (r.trackers[id]?).join

/-- Puts a tracker back in its place. -/
def put (r : Registry α) (t : Tracker α) : Registry α := ⟨r.trackers.set t.id (some t)⟩

/-- Drops a tracker. -/
def drop (r : Registry α) (id : Nat) : Registry α := ⟨r.trackers.set id none⟩

/-- The tracker that a position belongs to. -/
def owner? (r : Registry α) (p : Position) : Option (Tracker α) := p.owner.bind r.get?

/-- What a position says now. -/
def state (r : Registry α) (p : Position) : PositionState :=
  match r.owner? p with
  | some t => t.state p
  | none => .lost

/-- The index of a position whose element is still there. -/
def validIndex? (r : Registry α) (p : Position) : Option Nat := (r.owner? p).bind (·.validIndex? p)

/-- Copies a position within its tracker. -/
def copyPosition (r : Registry α) (p : Position) : Position × Registry α :=
  match r.owner? p with
  | some t =>
    let (q, t) := t.copyPosition p
    (q, r.put t)
  | none => (⟨none, p.key⟩, r)

/-- Gives a position up. -/
def release (r : Registry α) (p : Position) : Registry α :=
  match r.owner? p with
  | some t => r.put (t.release p)
  | none => r

end Registry

end Taskdown
