import Taskdown.Tracker.Cursor

/-!
# Procedures on trackers

A *procedure* changes a tracker as it goes: it looks at what it is asked for, changes the list, and
then renumbers the positions. When something is wrong it stops, and the tracker stays behind as far
as it has been changed by then.

Each procedure does what the function of the same name does (`insert_apply` and its like). Where the
function fails, the procedure leaves the tracker as it has been, since whatever may be wrong is
found before the first change.
-/

namespace Taskdown

/-! ## Procedures with a state -/

section

variable {ε σ β γ : Type} (s : σ)

theorem get_bind_apply (f : σ → EStateM ε σ β) : (get >>= f) s = f s s := rfl

theorem modify_bind_apply (g : σ → σ) (f : Unit → EStateM ε σ β) :
    (modify g >>= f) s = f () (g s) := rfl

/-- What comes next finds the state that has been left. -/
theorem bind_apply (x : EStateM ε σ β) (f : β → EStateM ε σ γ) : (x >>= f) s = match x s with
    | .ok b s' => f b s'
    | .error e s' => .error e s' := by
  change EStateM.bind x f s = _
  rw [EStateM.bind]
  cases x s <;> rfl

end

/-- A procedure on a tracker. Whatever becomes of it, there is a tracker left. -/
abbrev Procedure (α β : Type) := EStateM Failure (Tracker α) β

namespace Procedure

variable {α : Type}

/-! ## Positions -/

/-- Stops at a position that belongs elsewhere. -/
def checkOwns (p : Position) : Procedure α Unit := do
  if (← get).owns p then return
  else throw (.misuse .foreignPosition)

/-- Registers an index without looking at it. -/
def register (index : Nat) : Procedure α Position := modifyGet (·.register index)

/-- Gives a position up. -/
def release (p : Position) : Procedure α Unit := modify (·.release p)

/-- Registers the position of an element, or of the end. -/
def position (index : Nat) : Procedure α Position := do
  let length := (← get).length
  if length < index then throw (.error (.indexOutOfBounds index length))
  else register index

/-- Registers the position of the first element, or of the end if there is none. -/
def first : Procedure α Position := register 0

/-- Registers the position of the last element. -/
def last : Procedure α Position := do
  let length := (← get).length
  if length = 0 then throw (.error (.indexOutOfBounds 0 0))
  else register (length - 1)

/-- Registers the position behind the last element. -/
def atEnd : Procedure α Position := do register (← get).length

/-- Registers a second position where a position is. -/
def copyPosition (p : Position) : Procedure α Position := modifyGet (·.copyPosition p)

/-- Starts a walk at the first element. -/
def cursor : Procedure α Cursor := do return ⟨← first⟩

/-- Takes a step of a walk. The place behind the element is registered first, then the old place is
    given up. -/
def advance (c : Cursor) : Procedure α (Option (Position × Cursor)) := do
  checkOwns c.next
  let index := ((← get).state c.next).index
  if (← get).length ≤ index then return none
  else
    let next ← register (index + 1)
    release c.next
    let here ← register index
    return some (here, ⟨next⟩)

/-! ## Elements -/

/-- Changes the list and no position. -/
def changeItems (f : List α → List α) : Procedure α Unit :=
  modify fun t => { t with items := f t.items }

/-- Renumbers the positions for elements that have been inserted at an index. -/
def inserted (index count : Nat) : Procedure α Unit :=
  if count = 0 then return
  else modify fun t => { t with arena := t.arena.inserted index count }

/-- Renumbers the positions for elements that have been removed from an index on. -/
def removed (index count : Nat) : Procedure α Unit :=
  if count = 0 then return
  else modify fun t => { t with arena := t.arena.removed index count }

/-- Appends an element. -/
def add (value : α) : Procedure α Unit := do
  let index := (← get).length
  changeItems (· ++ [value])
  inserted index 1

/-- Appends elements. -/
def addAll (values : List α) : Procedure α Unit := do
  let index := (← get).length
  changeItems (· ++ values)
  inserted index ((← get).length - index)

/-- Stops at an index behind the end. -/
def checkInsert (index : Nat) : Procedure α Unit := do
  let length := (← get).length
  if length < index then throw (.error (.indexOutOfBounds index length))
  else return

/-- Inserts an element before the one at an index. -/
def insert (index : Nat) (value : α) : Procedure α Unit := do
  checkInsert index
  changeItems fun items => items.take index ++ [value] ++ items.drop index
  inserted index 1

/-- Inserts elements before the one at an index. -/
def insertAll (index : Nat) (values : List α) : Procedure α Unit := do
  checkInsert index
  let before := (← get).length
  changeItems fun items => items.take index ++ values ++ items.drop index
  inserted index ((← get).length - before)

/-- Removes the element at an index, which is given back. -/
def remove (index : Nat) : Procedure α α := do
  match (← get).items[index]? with
  | none => throw (.error (.indexOutOfBounds index (← get).length))
  | some value =>
    changeItems fun items => items.take index ++ items.drop (index + 1)
    removed index 1
    return value

/-- Removes the elements of a range, which are given back. -/
def removeRange (start stop : Nat) : Procedure α (List α) := do
  let length := (← get).length
  if stop < start ∨ length < stop then throw (.error (.rangeOutOfBounds start stop length))
  else
    let values := ((← get).items.drop start).take (stop - start)
    changeItems fun items => items.take start ++ items.drop stop
    removed start (stop - start)
    return values

/-- Puts another element in the place of the one at an index, which is given back. -/
def exchange (index : Nat) (value : α) : Procedure α α := do
  match (← get).items[index]? with
  | none => throw (.error (.indexOutOfBounds index (← get).length))
  | some old =>
    changeItems (·.set index value)
    return old

/-- Puts an element in the place of the one at an index, which is given back; at the end of the list
    it is appended. -/
def set (index : Nat) (value : α) : Procedure α (Option α) := do
  if index < (← get).length then return some (← exchange index value)
  else if index = (← get).length then
    add value
    return none
  else throw (.error (.indexOutOfBounds index (← get).length))

/-! ## Elements at positions -/

/-- The result of a procedure, or nothing if it fails. -/
def attempt {β : Type} (procedure : Procedure α β) : Procedure α (Option β) := fun t =>
  match procedure t with
  | .ok b t' => .ok (some b) t'
  | .error _ t' => .ok none t'

/-- Inserts an element before the place of a position. -/
def insertBefore (p : Position) (value : α) : Procedure α Unit := do
  checkOwns p
  insert ((← get).state p).index value

/-- Removes the element at a position, which is given back; nothing happens if it is already
    gone. -/
def removeAt (p : Position) : Procedure α (Option α) := do
  checkOwns p
  match (← get).validIndex? p with
  | none => return none
  | some index => attempt (remove index)

/-! ## Procedures and functions -/

section

variable {β : Type} (t : Tracker α) (c : Cursor) (p : Position) (index start stop : Nat)
  (value : α) (values : List α)

/-- What a procedure comes to that does what a function does. If the function fails, the tracker
    stays as it has been. -/
def outcome (x : Except Error (β × Tracker α)) : EStateM.Result Failure (Tracker α) β :=
  match x with
  | .ok (b, t') => .ok b t'
  | .error e => .error (.error e) t

theorem checkOwns_bind_apply (f : Unit → Procedure α β) : (checkOwns p >>= f) t =
    if t.owns p then f () t else .error (.misuse .foreignPosition) t := by
  rw [bind_apply, checkOwns, get_bind_apply]
  cases t.owns p <;> rfl

theorem checkInsert_bind_apply (f : Unit → Procedure α β) : (checkInsert index >>= f) t =
    if t.length < index then .error (.error (.indexOutOfBounds index t.length)) t else f () t := by
  rw [bind_apply, checkInsert, get_bind_apply]
  by_cases h : t.length < index
  · rw [if_pos h, if_pos h]
    rfl
  · rw [if_neg h, if_neg h]
    rfl

theorem position_apply : position index t = outcome t (t.position index) := by
  rw [position, get_bind_apply, Tracker.position]
  split <;> rfl

theorem last_apply : last t = outcome t t.last := by
  rw [last, get_bind_apply, Tracker.last]
  split <;> rfl

theorem advance_apply : advance c t = match t.advance c with
    | .ok (some (p, c, t')) => .ok (some (p, c)) t'
    | .ok none => .ok none t
    | .error e => .error (.misuse e) t := by
  rw [advance, checkOwns_bind_apply, Tracker.advance, Tracker.checkOwns]
  split
  · rw [bind_of_eq_ok rfl, get_bind_apply, get_bind_apply]
    dsimp only
    split <;> rfl
  · rfl

/-- The positions are renumbered for as many elements as have been inserted. -/
theorem inserted_apply_splice : inserted index values.length
    { t with items := t.items.take index ++ values ++ t.items.drop index } =
      .ok () (t.splice index values) := by
  cases values <;> rfl

/-- What has been appended is inserted at the end. -/
theorem append_items : t.items ++ values =
    t.items.take t.length ++ values ++ t.items.drop t.length := by
  rw [Tracker.length, List.take_length, List.drop_length, List.append_nil]

theorem add_apply : add value t = .ok () (t.add value) := by
  rw [add, get_bind_apply, changeItems, modify_bind_apply, append_items]
  exact inserted_apply_splice t t.length [value]

theorem addAll_apply : addAll values t = .ok () (t.addAll values) := by
  have hcount : (t.items ++ values).length - t.items.length = values.length := by
    rw [List.length_append, Nat.add_sub_cancel_left]
  rw [addAll, get_bind_apply, changeItems, modify_bind_apply, get_bind_apply, Tracker.length,
    Tracker.length, hcount, append_items]
  exact inserted_apply_splice t t.length values

theorem insert_apply : insert index value t = match t.insert index value with
    | .ok t' => .ok () t'
    | .error e => .error (.error e) t := by
  rw [insert, checkInsert_bind_apply, Tracker.insert, Tracker.insertAll]
  split
  · rfl
  · exact inserted_apply_splice t index [value]

theorem insertAll_apply : insertAll index values t = match t.insertAll index values with
    | .ok t' => .ok () t'
    | .error e => .error (.error e) t := by
  rw [insertAll, checkInsert_bind_apply, Tracker.insertAll]
  split
  · rfl
  · next hle =>
    have hcount : (t.items.take index ++ values ++ t.items.drop index).length - t.items.length =
        values.length := by
      rw [Tracker.length] at hle
      simp only [List.length_append, List.length_take, List.length_drop]
      omega
    rw [get_bind_apply, changeItems, modify_bind_apply, get_bind_apply, Tracker.length,
      Tracker.length, hcount]
    exact inserted_apply_splice t index values

theorem remove_apply : remove index t = outcome t (t.remove index) := by
  rw [remove, get_bind_apply, Tracker.remove]
  cases t.items[index]? with
  | none => rfl
  | some value =>
    dsimp only
    rw [Tracker.cut, if_neg (Nat.ne_of_lt (Nat.lt_succ_self index)), Nat.add_sub_cancel_left]
    rfl

theorem removeRange_apply : removeRange start stop t = outcome t (t.removeRange start stop) := by
  rw [removeRange, get_bind_apply, Tracker.removeRange]
  by_cases h : stop < start ∨ t.length < stop
  · rw [if_pos h, if_pos h]
    rfl
  · rw [if_neg h, if_neg h, get_bind_apply, changeItems, modify_bind_apply, removed, Tracker.cut]
    by_cases heq : start = stop
    · rw [if_pos heq, if_pos (by omega)]
      rfl
    · rw [if_neg heq, if_neg (by omega)]
      rfl

theorem exchange_apply : exchange index value t = outcome t (t.exchange index value) := by
  rw [exchange, get_bind_apply, Tracker.exchange]
  cases t.items[index]? <;> rfl

theorem set_apply : set index value t = outcome t (t.set index value) := by
  rw [set, get_bind_apply, Tracker.set]
  by_cases h : index < t.length
  · rw [if_pos h, bind_apply, exchange_apply, Tracker.exchange, List.getElem?_eq_getElem h]
    rfl
  · rw [if_neg h, get_bind_apply, List.getElem?_eq_none_iff.2 (Nat.le_of_not_lt h)]
    dsimp only
    split
    · rw [bind_apply, add_apply]
      rfl
    · rfl

theorem insertBefore_apply : insertBefore p value t = match t.insertBefore p value with
    | .ok (.ok t') => .ok () t'
    | .ok (.error e) => .error (.error e) t
    | .error e => .error (.misuse e) t := by
  rw [insertBefore, checkOwns_bind_apply, Tracker.insertBefore, Tracker.checkOwns]
  split
  · rw [bind_of_eq_ok rfl, get_bind_apply, insert_apply]
    cases t.insert (t.state p).index value <;> rfl
  · rfl

theorem removeAt_apply : removeAt p t = match t.removeAt p with
    | .ok (some (value, t')) => .ok (some value) t'
    | .ok none => .ok none t
    | .error e => .error (.misuse e) t := by
  rw [removeAt, checkOwns_bind_apply, Tracker.removeAt, Tracker.checkOwns]
  split
  · rw [bind_of_eq_ok rfl, get_bind_apply]
    cases t.validIndex? p with
    | none => rfl
    | some index =>
      have hremove := remove_apply t index
      dsimp only
      rw [Option.bind_some, attempt, hremove]
      cases t.remove index <;> rfl
  · rfl

end

end Procedure

end Taskdown
