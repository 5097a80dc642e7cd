import Taskdown.Error
import Taskdown.Tracker.Arena

/-!
# Collections that keep positions in step

A *tracker* is a list with positions. A *position* is registered on an index, and follows the
element there through every insertion and removal elsewhere; when its element is removed it stays
where the element was, and is no longer valid. The index behind the last element can be registered
too: such a position always stands at the end.

A position belongs to one tracker and means nothing to any other. Operations that take a position
check this first.
-/

namespace Taskdown

/-- A registered place in a tracker. -/
structure Position where
  /-- The tracker that it belongs to; none if it was copied from a position that had lost its
      slot. -/
  owner : Option Nat
  /-- The slot that keeps its index. -/
  key : SlotKey
deriving DecidableEq, Repr, Inhabited

/-- A list whose positions stay in step with it. -/
structure Tracker (α : Type) where
  /-- Tells trackers apart. -/
  id : Nat
  /-- The elements. -/
  items : List α
  /-- The slots of the positions. -/
  arena : Arena := {}
deriving DecidableEq, Repr

namespace Tracker

variable {α : Type}

/-! ## Positions -/

/-- The number of elements. -/
def length (t : Tracker α) : Nat := t.items.length

/-- Does a position belong to the tracker? -/
def owns (t : Tracker α) (p : Position) : Bool := p.owner = some t.id

/-- Refuses a position that belongs elsewhere. -/
def checkOwns (t : Tracker α) (p : Position) : Except Misuse Unit :=
  if t.owns p then .ok () else .error .foreignPosition

/-- What a position says now. -/
def state (t : Tracker α) (p : Position) : PositionState :=
  if t.owns p then (t.arena.get? p.key).getD .lost else .lost

/-- The index of a position whose element is still there. -/
def validIndex? (t : Tracker α) (p : Position) : Option Nat :=
  let s := t.state p
  if s.valid then some s.index else none

/-- Registers a state. -/
def registerState (t : Tracker α) (state : PositionState) : Position × Tracker α :=
  let (key, arena) := t.arena.register state
  (⟨some t.id, key⟩, { t with arena })

/-- Registers an index without looking at it. -/
def register (t : Tracker α) (index : Nat) : Position × Tracker α := t.registerState ⟨index, true⟩

/-- Registers the position of an element, or of the end. -/
def position (t : Tracker α) (index : Nat) : Except Error (Position × Tracker α) :=
  if t.length < index then .error (.indexOutOfBounds index t.length) else .ok (t.register index)

/-- Registers the position of the first element, or of the end if there is none. -/
def first (t : Tracker α) : Position × Tracker α := t.register 0

/-- Registers the position of the last element. -/
def last (t : Tracker α) : Except Error (Position × Tracker α) :=
  if t.length = 0 then .error (.indexOutOfBounds 0 0) else .ok (t.register (t.length - 1))

/-- Registers the position behind the last element. -/
def atEnd (t : Tracker α) : Position × Tracker α := t.register t.length

/-- The number of positions that are held. -/
def livePositions (t : Tracker α) : Nat := t.arena.live

/-- Gives a position up. -/
def release (t : Tracker α) (p : Position) : Tracker α :=
  if t.owns p then { t with arena := t.arena.release p.key } else t

/-- Registers a second position where a position is. A position that has lost its slot has no place
    any more: its copy belongs to no tracker. -/
def copyPosition (t : Tracker α) (p : Position) : Position × Tracker α :=
  match if t.owns p then t.arena.get? p.key else none with
  | some state => t.registerState state
  | none => (⟨none, p.key⟩, t)

/-! ## Elements -/

/-- The element at an index. -/
def get (t : Tracker α) (index : Nat) : Except Error α :=
  match t.items[index]? with
  | some a => .ok a
  | none => .error (.indexOutOfBounds index t.length)

/-- The element at an index, if there is one. -/
def get? (t : Tracker α) (index : Nat) : Option α := t.items[index]?

/-- What a view of elements makes of the element at an index. -/
def getAs? {β : Type} (t : Tracker α) (index : Nat) (kind : α → Option β) : Option β :=
  t.items[index]?.bind kind

/-- Puts another element in the place of the one at an index, which is given back. No position
    moves. -/
def exchange (t : Tracker α) (index : Nat) (value : α) : Except Error (α × Tracker α) :=
  match t.items[index]? with
  | some old => .ok (old, { t with items := t.items.set index value })
  | none => .error (.indexOutOfBounds index t.length)

/-- Inserts elements at an index that is known to exist. -/
def splice (t : Tracker α) (index : Nat) (values : List α) : Tracker α :=
  { t with
    items := t.items.take index ++ values ++ t.items.drop index
    arena := if values.isEmpty then t.arena else t.arena.inserted index values.length }

/-- Appends an element. -/
def add (t : Tracker α) (value : α) : Tracker α := t.splice t.length [value]

/-- Appends elements. -/
def addAll (t : Tracker α) (values : List α) : Tracker α := t.splice t.length values

/-- Inserts elements before the one at an index. -/
def insertAll (t : Tracker α) (index : Nat) (values : List α) : Except Error (Tracker α) :=
  if t.length < index then .error (.indexOutOfBounds index t.length)
  else .ok (t.splice index values)

/-- Inserts an element before the one at an index. -/
def insert (t : Tracker α) (index : Nat) (value : α) : Except Error (Tracker α) :=
  t.insertAll index [value]

/-- Removes the elements of a range that is known to exist. -/
def cut (t : Tracker α) (start stop : Nat) : List α × Tracker α :=
  ((t.items.drop start).take (stop - start),
    { t with
      items := t.items.take start ++ t.items.drop stop
      arena := if start = stop then t.arena else t.arena.removed start (stop - start) })

/-- Removes the elements of a range, which are given back. -/
def removeRange (t : Tracker α) (start stop : Nat) : Except Error (List α × Tracker α) :=
  if stop < start ∨ t.length < stop then .error (.rangeOutOfBounds start stop t.length)
  else .ok (t.cut start stop)

/-- Removes the element at an index, which is given back. -/
def remove (t : Tracker α) (index : Nat) : Except Error (α × Tracker α) :=
  match t.items[index]? with
  | some value => .ok (value, (t.cut index (index + 1)).2)
  | none => .error (.indexOutOfBounds index t.length)

/-- Puts an element in the place of the one at an index, which is given back; at the end of the list
    it is appended. -/
def set (t : Tracker α) (index : Nat) (value : α) : Except Error (Option α × Tracker α) :=
  match t.items[index]? with
  | some old => .ok (some old, { t with items := t.items.set index value })
  | none =>
    if index = t.length then .ok (none, t.add value) else .error (.indexOutOfBounds index t.length)

/-- Removes all elements, and takes their slots away from all positions. -/
def clear (t : Tracker α) : Tracker α := { t with items := [], arena := t.arena.detachAll }

/-! ## Elements at positions -/

/-- The element at a position, if it is still there. -/
def element? (t : Tracker α) (p : Position) : Except Misuse (Option α) := do
  t.checkOwns p
  return (t.validIndex? p).bind (t.items[·]?)

/-- Inserts an element before the place of a position. -/
def insertBefore (t : Tracker α) (p : Position) (value : α) :
    Except Misuse (Except Error (Tracker α)) := do
  t.checkOwns p
  return t.insert (t.state p).index value

/-- Removes the element at a position, which is given back; nothing happens if it is already
    gone. -/
def removeAt (t : Tracker α) (p : Position) : Except Misuse (Option (α × Tracker α)) := do
  t.checkOwns p
  return (t.validIndex? p).bind fun index => (t.remove index).toOption

/-! ## Descriptions -/

/-- A tracker, described. -/
def describe (t : Tracker α) (item : α → String) : String :=
  "PositionTracker \x7b items: [" ++ ", ".intercalate (t.items.map item) ++ "], live_positions: " ++
    toString t.livePositions ++ " \x7d"

end Tracker

/-- A position state, described. -/
def PositionState.describe (s : PositionState) : String :=
  "Position \x7b index: " ++ toString s.index ++ ", valid: " ++ toString s.valid ++ " \x7d"

end Taskdown
