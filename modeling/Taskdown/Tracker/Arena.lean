/-!
# Slots behind positions

Every position that is held owns a *slot*, in which its index is kept up to date. A slot is
addressed by a key with a generation: the generation grows whenever the slot is given back, so a key
that outlives its slot finds nothing, even after the slot has been given to somebody else.

An arena keeps three accounts of the same thing: the state of each slot, the stack of free slots,
and the number of occupied ones.
-/

namespace Taskdown

/-- The name of a slot at one time of its life. -/
structure SlotKey where
  slot : Nat
  generation : UInt32
deriving DecidableEq, Repr, Inhabited

/-- What a position says: an index, and whether the element that it was registered on is still
    there. -/
structure PositionState where
  index : Nat
  valid : Bool
deriving DecidableEq, Repr, Inhabited

/-- The state of a position that has lost its slot. -/
def PositionState.lost : PositionState := ⟨0, false⟩

/-- Where a position goes when `count` elements are inserted at an index. -/
def PositionState.inserted (index count : Nat) (p : PositionState) : PositionState :=
  if index ≤ p.index then { p with index := p.index + count } else p

/-- Where a position goes when `count` elements are removed from an index on: a position on a
    removed element stays where the elements were, and is no longer valid. -/
def PositionState.removed (index count : Nat) (p : PositionState) : PositionState :=
  if index + count ≤ p.index then { p with index := p.index - count }
  else if index ≤ p.index then ⟨index, false⟩
  else p

/-- A slot, occupied or free. -/
structure Slot where
  generation : UInt32
  state : Option PositionState
deriving DecidableEq, Repr, Inhabited

/-- All slots of a collection. -/
structure Arena where
  /-- The slots, by number. -/
  slots : List Slot := []
  /-- The numbers of the free slots; the first is given out next. -/
  free : List Nat := []
  /-- The number of occupied slots. -/
  live : Nat := 0
deriving DecidableEq, Repr, Inhabited

namespace Arena

/-- Occupies a slot, a free one if there is one. -/
def register (a : Arena) (state : PositionState) : SlotKey × Arena :=
  match a.free with
  | slot :: free =>
    let generation := (a.slots[slot]?.map Slot.generation).getD 0
    (⟨slot, generation⟩,
      { slots := a.slots.modify slot fun s => { s with state := some state }
        free
        live := a.live + 1 })
  | [] =>
    (⟨a.slots.length, 0⟩,
      { slots := a.slots ++ [⟨0, some state⟩]
        free := []
        live := a.live + 1 })

/-- The state that a key leads to, unless the key has outlived its slot. -/
def get? (a : Arena) (key : SlotKey) : Option PositionState :=
  match a.slots[key.slot]? with
  | some s => if s.generation = key.generation then s.state else none
  | none => none

/-- Gives a slot back. A key that has outlived its slot changes nothing. -/
def release (a : Arena) (key : SlotKey) : Arena :=
  if (a.get? key).isSome then
    { slots := a.slots.modify key.slot fun s => ⟨s.generation + 1, none⟩
      free := key.slot :: a.free
      live := a.live - 1 }
  else a

/-- Changes the state of every occupied slot. -/
def mapStates (a : Arena) (f : PositionState → PositionState) : Arena :=
  { a with slots := a.slots.map fun s => { s with state := s.state.map f } }

/-- Moves the positions at or behind an index to the right. -/
def inserted (a : Arena) (index count : Nat) : Arena := a.mapStates (.inserted index count)

/-- Moves the positions behind a removed range to the left, and gathers those on it at its start. -/
def removed (a : Arena) (index count : Nat) : Arena := a.mapStates (.removed index count)

/-- The numbers of the occupied slots, in order; the first slot has the given number. -/
def occupied : Nat → List Slot → List Nat
  | _, [] => []
  | n, s :: slots => if s.state.isSome then n :: occupied (n + 1) slots else occupied (n + 1) slots

/-- Takes every slot away from its position. -/
def detachAll (a : Arena) : Arena :=
  let taken := occupied 0 a.slots
  { slots := a.slots.map fun s => if s.state.isSome then ⟨s.generation + 1, none⟩ else s
    free := taken.reverse ++ a.free
    live := a.live - taken.length }

end Arena

end Taskdown
