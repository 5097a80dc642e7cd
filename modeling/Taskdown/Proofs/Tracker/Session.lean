import Taskdown.Tracker.Procedure

/-!
# Sessions

A *session* is a tracker together with everything that is held on it: positions and cursors, called
by the order in which they were made. A `Call` is anything that may be asked of the tracker, short
of emptying it. To make a call is to run a procedure on the session (`Session.perform`), which
leaves a session behind even if it fails. What it comes to is what the functions on trackers make of
it, and if it fails, the session is left as it was (`Session.perform_outcome`).

Beside the session a *ledger* is kept, in which the elements have identities. An element gets its
identity when it is inserted and keeps it for good: when other elements are inserted or removed, and
also when its value is exchanged. The ledger also notes the *site* of every handle, the element that
it was registered on or the end of the list. A copy of a position has the site of the original. A
session with its ledger is a `History`.

What the ledger says of a handle is independent of slots, keys and indices, which is what makes it
worth comparing with what the tracker says.
-/

namespace Taskdown

/-! ## Sessions -/

/-- What can be held on a tracker. -/
inductive Handle where
  | position (p : Position)
  | cursor (c : Cursor)
deriving DecidableEq, Repr

/-- The position that a handle keeps registered. -/
def Handle.place : Handle → Position
  | .position p => p
  | .cursor c => c.next

/-- A position that is passed to a call. -/
inductive Argument where
  /-- The position held under a number. -/
  | held (number : Nat)
  /-- A position that belongs to another tracker, or to none. -/
  | foreign (p : Position)
deriving DecidableEq, Repr

/-- What may be asked of a tracker; all but emptying it. -/
inductive Call (α : Type) where
  | position (index : Nat)
  | first
  | last
  | atEnd
  | cursor
  | copy (number : Nat)
  | drop (number : Nat)
  | next (number : Nat)
  | add (value : α)
  | insert (index : Nat) (value : α)
  | addAll (values : List α)
  | insertAll (index : Nat) (values : List α)
  | remove (index : Nat)
  | removeRange (start stop : Nat)
  | set (index : Nat) (value : α)
  | exchange (index : Nat) (value : α)
  | insertBefore (argument : Argument) (value : α)
  | removeAt (argument : Argument)
deriving Repr

/-- A tracker and what is held on it. A handle that was dropped leaves its number empty. -/
structure Session (α : Type) where
  tracker : Tracker α
  handles : List (Option Handle)
deriving DecidableEq, Repr

namespace Session

variable {α : Type}

/-- The handle with a number. -/
def handle? (s : Session α) (number : Nat) : Option Handle := (s.handles[number]?).join

/-- The position with a number. -/
def position? (s : Session α) (number : Nat) : Option Position :=
  match s.handle? number with
  | some (.position p) => some p
  | _ => none

/-- The cursor with a number. -/
def cursor? (s : Session α) (number : Nat) : Option Cursor :=
  match s.handle? number with
  | some (.cursor c) => some c
  | _ => none

/-- The position that a call is given. -/
def argument? (s : Session α) : Argument → Option Position
  | .held number => s.position? number
  | .foreign p => if s.tracker.owns p then none else some p

/-- The session with another state of its tracker. -/
def keep (s : Session α) (t : Tracker α) : Session α := { s with tracker := t }

/-- The session with one handle more. -/
def hold (s : Session α) (handle : Handle) (t : Tracker α) : Session α :=
  ⟨t, s.handles ++ [some handle]⟩

/-- A procedure on the tracker of a session. -/
def within {β : Type} (procedure : Procedure α β) : EStateM Failure (Session α) β := fun s =>
  match procedure s.tracker with
  | .ok b t => .ok b (s.keep t)
  | .error e t => .error e (s.keep t)

/-- Holds what a procedure has given. -/
def holdNew (handle : Handle) : EStateM Failure (Session α) Unit :=
  modify fun s => s.hold handle s.tracker

/-- Puts another handle, or none, under a number. -/
def putHandle (number : Nat) (handle : Option Handle) : EStateM Failure (Session α) Unit :=
  modify fun s => { s with handles := s.handles.set number handle }

/-- Makes a call. Numbers of nothing are no arguments: such a call does nothing. -/
def perform : Call α → EStateM Failure (Session α) Unit
  | .position index => do holdNew (.position (← within (.position index)))
  | .first => do holdNew (.position (← within .first))
  | .last => do holdNew (.position (← within .last))
  | .atEnd => do holdNew (.position (← within .atEnd))
  | .cursor => do holdNew (.cursor (← within .cursor))
  | .copy number => do
    match (← get).position? number with
    | some p => holdNew (.position (← within (.copyPosition p)))
    | none => return
  | .drop number => do
    match (← get).handle? number with
    | some handle =>
      within (.release handle.place)
      putHandle number none
    | none => return
  | .next number => do
    match (← get).cursor? number with
    | some c =>
      match ← within (.advance c) with
      | some (p, c) =>
        putHandle number (some (.cursor c))
        holdNew (.position p)
      | none => return
    | none => return
  | .add value => within (.add value)
  | .insert index value => within (.insert index value)
  | .addAll values => within (.addAll values)
  | .insertAll index values => within (.insertAll index values)
  | .remove index => do let _ ← within (.remove index)
  | .removeRange start stop => do let _ ← within (.removeRange start stop)
  | .set index value => do let _ ← within (.set index value)
  | .exchange index value => do let _ ← within (.exchange index value)
  | .insertBefore argument value => do
    match (← get).argument? argument with
    | some p => within (.insertBefore p value)
    | none => return
  | .removeAt argument => do
    match (← get).argument? argument with
    | some p =>
      let _ ← within (.removeAt p)
    | none => return

/-- The session after a call, unless the call fails. -/
def call? (s : Session α) (c : Call α) : Option (Session α) :=
  match perform c s with
  | .ok _ s' => some s'
  | .error _ _ => none

/-- The session that a call leaves behind, whether it fails or not. -/
def after (s : Session α) (c : Call α) : Session α :=
  match perform c s with
  | .ok _ s' => s'
  | .error _ s' => s'

/-- What the functions on trackers make of a call, unless one of them fails. -/
def outcome? (s : Session α) : Call α → Option (Session α)
  | .position index => (s.tracker.position index).toOption.map fun (p, t) => s.hold (.position p) t
  | .first => some (s.hold (.position s.tracker.first.1) s.tracker.first.2)
  | .last => s.tracker.last.toOption.map fun (p, t) => s.hold (.position p) t
  | .atEnd => some (s.hold (.position s.tracker.atEnd.1) s.tracker.atEnd.2)
  | .cursor => some (s.hold (.cursor s.tracker.cursor.1) s.tracker.cursor.2)
  | .copy number =>
    match s.position? number with
    | some p => some (s.hold (.position (s.tracker.copyPosition p).1) (s.tracker.copyPosition p).2)
    | none => some s
  | .drop number =>
    match s.handle? number with
    | some handle => some ⟨s.tracker.release handle.place, s.handles.set number none⟩
    | none => some s
  | .next number =>
    match s.cursor? number with
    | some c => (s.tracker.advance c).toOption.map fun
      | some (p, c, t) => ⟨t, s.handles.set number (some (.cursor c)) ++ [some (.position p)]⟩
      | none => s
    | none => some s
  | .add value => some (s.keep (s.tracker.add value))
  | .insert index value => (s.tracker.insert index value).toOption.map s.keep
  | .addAll values => some (s.keep (s.tracker.addAll values))
  | .insertAll index values => (s.tracker.insertAll index values).toOption.map s.keep
  | .remove index => (s.tracker.remove index).toOption.map fun (_, t) => s.keep t
  | .removeRange start stop =>
    (s.tracker.removeRange start stop).toOption.map fun (_, t) => s.keep t
  | .set index value => (s.tracker.set index value).toOption.map fun (_, t) => s.keep t
  | .exchange index value => (s.tracker.exchange index value).toOption.map fun (_, t) => s.keep t
  | .insertBefore argument value =>
    match s.argument? argument with
    | some p => ((s.tracker.insertBefore p value).toOption.bind Except.toOption).map s.keep
    | none => some s
  | .removeAt argument =>
    match s.argument? argument with
    | some p => (s.tracker.removeAt p).toOption.map fun
      | some (_, t) => s.keep t
      | none => s
    | none => some s

variable (s : Session α) (c : Call α)

/-- A procedure within a call, and what is made of its result, come to what the function of the
    procedure gives. If that fails, the session stays as it was. -/
theorem within_bind_outcome {β : Type} {procedure : Procedure α β}
    {x : Except Error (β × Tracker α)}
    (happly : procedure s.tracker = Procedure.outcome s.tracker x)
    {f : β → EStateM Failure (Session α) Unit} {g : β × Tracker α → Session α}
    (hf : ∀ b t, f b (s.keep t) = .ok () (g (b, t))) : match x.toOption.map g with
      | some s' => (within procedure >>= f) s = .ok () s'
      | none => ∃ e, (within procedure >>= f) s = .error e s := by
  rw [bind_apply, within, happly]
  cases x with
  | error e => exact ⟨_, rfl⟩
  | ok r => exact hf r.1 r.2

/-- A call comes to what the functions on trackers make of it. If one of them fails, the call fails,
    and the session that it leaves behind is the one that it has found. -/
theorem perform_outcome : match s.outcome? c with
    | some s' => perform c s = .ok () s'
    | none => ∃ e, perform c s = .error e s := by
  cases c with
  | first | atEnd | cursor => rfl
  | position index => exact s.within_bind_outcome (Procedure.position_apply ..) fun _ _ => rfl
  | last => exact s.within_bind_outcome (Procedure.last_apply ..) fun _ _ => rfl
  | copy number =>
    rw [outcome?, perform, get_bind_apply]
    cases s.position? number <;> rfl
  | drop number =>
    rw [outcome?, perform, get_bind_apply]
    cases s.handle? number <;> rfl
  | next number =>
    rw [outcome?, perform, get_bind_apply]
    cases s.cursor? number with
    | none => rfl
    | some c =>
      dsimp only
      rw [bind_apply, within, Procedure.advance_apply]
      cases s.tracker.advance c with
      | error e => exact ⟨_, rfl⟩
      | ok r => cases r <;> rfl
  | add value =>
    rw [outcome?, perform, within, Procedure.add_apply]
  | insert index value =>
    rw [outcome?, perform, within, Procedure.insert_apply]
    cases s.tracker.insert index value with
    | error e => exact ⟨_, rfl⟩
    | ok t => rfl
  | addAll values =>
    rw [outcome?, perform, within, Procedure.addAll_apply]
  | insertAll index values =>
    rw [outcome?, perform, within, Procedure.insertAll_apply]
    cases s.tracker.insertAll index values with
    | error e => exact ⟨_, rfl⟩
    | ok t => rfl
  | remove index => exact s.within_bind_outcome (Procedure.remove_apply ..) fun _ _ => rfl
  | removeRange start stop =>
    exact s.within_bind_outcome (Procedure.removeRange_apply ..) fun _ _ => rfl
  | set index value => exact s.within_bind_outcome (Procedure.set_apply ..) fun _ _ => rfl
  | exchange index value => exact s.within_bind_outcome (Procedure.exchange_apply ..) fun _ _ => rfl
  | insertBefore argument value =>
    rw [outcome?, perform, get_bind_apply]
    cases s.argument? argument with
    | none => rfl
    | some p =>
      dsimp only
      rw [within, Procedure.insertBefore_apply]
      rcases s.tracker.insertBefore p value with e | e | t
      · exact ⟨_, rfl⟩
      · exact ⟨_, rfl⟩
      · rfl
  | removeAt argument =>
    rw [outcome?, perform, get_bind_apply]
    cases s.argument? argument with
    | none => rfl
    | some p =>
      dsimp only
      rw [bind_apply, within, Procedure.removeAt_apply]
      rcases s.tracker.removeAt p with e | r
      · exact ⟨_, rfl⟩
      · cases r <;> rfl

/-- A call succeeds, or it fails and leaves the session as it was. -/
theorem perform_cases : (∃ s', s.outcome? c = some s' ∧ perform c s = .ok () s') ∨
    s.outcome? c = none ∧ ∃ e, perform c s = .error e s := by
  have h := s.perform_outcome c
  cases hc : s.outcome? c with
  | some s' =>
    rw [hc] at h
    exact .inl ⟨s', rfl, h⟩
  | none =>
    rw [hc] at h
    exact .inr ⟨rfl, h⟩

theorem call?_eq : s.call? c = s.outcome? c := by
  rw [call?]
  rcases s.perform_cases c with ⟨s', hs, hperform⟩ | ⟨hs, e, hperform⟩
  · rw [hs, hperform]
  · rw [hs, hperform]

theorem after_eq : s.after c = (s.outcome? c).getD s := by
  rw [after]
  rcases s.perform_cases c with ⟨s', hs, hperform⟩ | ⟨hs, e, hperform⟩
  · rw [hs, hperform]
    rfl
  · rw [hs, hperform]
    rfl

end Session

/-! ## Ledgers -/

/-- Where a handle was registered. -/
inductive Site where
  /-- On the element with an identity. -/
  | element (identity : Nat)
  /-- Behind the last element. -/
  | atEnd
deriving DecidableEq, Repr

/-- The identities of the elements, and the sites of the handles. -/
structure Ledger (α : Type) where
  /-- The elements in the list, each with its identity. -/
  elements : List (α × Nat)
  /-- The number of identities that have been given. -/
  given : Nat
  /-- The sites of all handles, by number. -/
  sites : List Site
deriving DecidableEq, Repr

namespace Ledger

variable {α : Type}

/-- The identities of the elements in the list. -/
def identities (l : Ledger α) : List Nat := l.elements.map Prod.snd

/-- The site of an index. -/
def siteAt (l : Ledger α) (index : Nat) : Site :=
  match l.identities[index]? with
  | some x => .element x
  | none => .atEnd

/-- Notes a handle. -/
def register (l : Ledger α) (site : Site) : Ledger α := { l with sites := l.sites ++ [site] }

/-- Inserts elements, which get new identities. -/
def splice (l : Ledger α) (index : Nat) (values : List α) : Ledger α :=
  { l with
    elements := l.elements.take index ++ values.zipIdx l.given ++ l.elements.drop index
    given := l.given + values.length }

/-- Removes the elements of a range. -/
def cut (l : Ledger α) (start stop : Nat) : Ledger α :=
  { l with elements := l.elements.take start ++ l.elements.drop stop }

/-- Exchanges the value of an element. -/
def exchange (l : Ledger α) (index : Nat) (value : α) : Ledger α :=
  { l with elements := l.elements.modify index fun e => (value, e.2) }

/-- The ledger after a call that has not failed. -/
def record (l : Ledger α) (s : Session α) : Call α → Ledger α
  | .position index => l.register (l.siteAt index)
  | .first => l.register (l.siteAt 0)
  | .last => l.register (l.siteAt (s.tracker.length - 1))
  | .atEnd => l.register (l.siteAt s.tracker.length)
  | .cursor => l.register (l.siteAt 0)
  | .copy number =>
    if (s.position? number).isSome then l.register (l.sites.getD number .atEnd) else l
  | .drop _ => l
  | .next number =>
    match s.cursor? number with
    | some c =>
      let index := (s.tracker.state c.next).index
      if index < s.tracker.length then
        { l with sites := l.sites.set number (l.siteAt (index + 1)) ++ [l.siteAt index] }
      else l
    | none => l
  | .add value => l.splice s.tracker.length [value]
  | .insert index value => l.splice index [value]
  | .addAll values => l.splice s.tracker.length values
  | .insertAll index values => l.splice index values
  | .remove index => l.cut index (index + 1)
  | .removeRange start stop => l.cut start stop
  | .set index value =>
    if index < s.tracker.length then l.exchange index value else l.splice index [value]
  | .exchange index value => l.exchange index value
  | .insertBefore argument value =>
    match s.argument? argument with
    | some p => l.splice (s.tracker.state p).index [value]
    | none => l
  | .removeAt argument =>
    match (s.argument? argument).bind s.tracker.validIndex? with
    | some index => l.cut index (index + 1)
    | none => l

/-- Does a position state say what is true of its site? On an element it is valid as long as the
    element is there, and then its index is that of the element; at the end it is always valid, and
    its index is the length of the list. -/
def Agrees (l : Ledger α) (state : PositionState) : Site → Prop
  | .element x =>
    (state.valid = true ↔ x ∈ l.identities) ∧
      (state.valid = true → l.identities[state.index]? = some x)
  | .atEnd => state.valid = true ∧ state.index = l.elements.length

end Ledger

/-! ## Histories -/

/-- A session with its ledger. -/
structure History (α : Type) where
  session : Session α
  ledger : Ledger α
deriving DecidableEq, Repr

namespace History

variable {α : Type}

/-- A list of which nothing is held yet. -/
def start (id : Nat) (items : List α) : History α where
  session := ⟨{ id, items }, []⟩
  ledger := ⟨items.zipIdx, items.length, []⟩

/-- Makes a call. The ledger takes note of it unless it fails; the session is what the call leaves
    behind. -/
def step (h : History α) (c : Call α) : History α :=
  match Session.perform c h.session with
  | .ok _ session => ⟨session, h.ledger.record h.session c⟩
  | .error _ session => ⟨session, h.ledger⟩

/-- A call that fails changes nothing. -/
theorem step_eq (h : History α) (c : Call α) : h.step c = match h.session.outcome? c with
    | some session => ⟨session, h.ledger.record h.session c⟩
    | none => h := by
  rw [step]
  rcases h.session.perform_cases c with ⟨s, hs, hperform⟩ | ⟨hs, e, hperform⟩
  · rw [hs, hperform]
  · rw [hs, hperform]

/-- Makes calls, one after the other. -/
def run (h : History α) (calls : List (Call α)) : History α := calls.foldl step h

@[simp] theorem run_nil (h : History α) : h.run [] = h := rfl

@[simp] theorem run_cons (h : History α) (c : Call α) (calls : List (Call α)) :
    h.run (c :: calls) = (h.step c).run calls := rfl

end History

end Taskdown
