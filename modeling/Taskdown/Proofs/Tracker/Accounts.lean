import Taskdown.Proofs.Tracker.Letting

/-!
# The accounts of an arena

Whether a slot is occupied is recorded three times: by its state, by the stack of free slots, and by
the counter. Five calls can be made on an arena (`Arena.Call`), and three of them change all three
records, each under a guard of its own. A key that is given back may be any key: the one that its
slot is let under, one that has outlived its slot, or one that has been given back before.

* `Arena.Sound.run`: the records agree after any calls;
* `Arena.Sound.free_perm`: the stack holds what an arena without a stack would have to look for;
* `Arena.Sound.live_release_add_one`, `Arena.Sound.live_detachAll_add_length`: the counter is never
  lowered by more than it has counted.
-/

namespace Taskdown.Arena

/-! ## Calls -/

/-- What can be asked of an arena. -/
inductive Call where
  | register (state : PositionState)
  | release (key : SlotKey)
  | inserted (index count : Nat)
  | removed (index count : Nat)
  | detachAll
deriving DecidableEq, Repr

/-- The arena after a call. -/
def call (a : Arena) : Call → Arena
  | .register state => (a.register state).2
  | .release key => a.release key
  | .inserted index count => a.inserted index count
  | .removed index count => a.removed index count
  | .detachAll => a.detachAll

/-- Makes calls, one after the other. -/
def run (a : Arena) (calls : List Call) : Arena := calls.foldl call a

@[simp] theorem run_nil (a : Arena) : a.run [] = a := rfl

@[simp] theorem run_cons (a : Arena) (c : Call) (calls : List Call) :
    a.run (c :: calls) = (a.call c).run calls := rfl

variable {a : Arena} {n : Nat} {s : Slot}

theorem Sound.call (h : a.Sound) (c : Call) : (a.call c).Sound := by
  cases c with
  | register state => exact h.register state
  | release key => exact h.release key
  | inserted index count => exact h.mapStates _
  | removed index count => exact h.mapStates _
  | detachAll => exact h.detachAll

/-- No call brings the accounts of an arena out of step, whatever keys are given back. -/
theorem Sound.run (h : a.Sound) (calls : List Call) : (a.run calls).Sound := by
  induction calls generalizing a with
  | nil => exact h
  | cons c calls ih => exact ih (h.call c)

/-! ## Slots without a state -/

/-- The slot that is let had no state. -/
theorem Sound.stateAt?_register_slot (h : a.Sound) (st : PositionState) :
    a.stateAt? (a.register st).1.slot = none := by
  rw [stateAt?]
  cases hs : a.slots[(a.register st).1.slot]? with
  | none => rfl
  | some s => exact h.state_of_register st hs

theorem getElem?_mapStates_of_free (f : PositionState → PositionState) (hs : a.slots[n]? = some s)
    (hfree : s.state = none) : (a.mapStates f).slots[n]? = some s := by
  obtain ⟨generation, state⟩ := s
  subst hfree
  simp [mapStates, hs]

theorem getElem?_detachAll_of_free (hs : a.slots[n]? = some s) (hfree : s.state = none) :
    a.detachAll.slots[n]? = some s := by
  simp [detachAll, hs, hfree]

/-! ## The accounts -/

/-- The stack of free slots lists the slots without a state. -/
theorem Sound.free_perm (h : a.Sound) :
    a.free.Perm ((List.range a.slots.length).filter fun n => (a.stateAt? n).isNone) := by
  refine (List.perm_ext_iff_of_nodup h.free_nodup (List.nodup_range.filter _)).2 fun n => ?_
  rw [h.mem_free_iff, List.mem_filter, List.mem_range, stateAt?]
  cases hs : a.slots[n]? with
  | none => simp [List.getElem?_eq_none_iff.1 hs]
  | some s => simp [(List.getElem?_eq_some_iff.1 hs).1]

/-- A key that leads somewhere leads to one of the slots that are counted. -/
theorem Sound.live_release_add_one (h : a.Sound) {key : SlotKey} (hk : (a.get? key).isSome) :
    (a.release key).live + 1 = a.live := by
  obtain ⟨st, hst⟩ := Option.isSome_iff_exists.1 hk
  have hmem : (⟨key.generation, some st⟩ : Slot) ∈ a.slots :=
    List.mem_of_getElem? (get?_eq_some_iff.1 hst)
  have hpos : 0 < a.live := h.live_eq ▸ List.countP_pos_iff.2 ⟨_, hmem, rfl⟩
  rw [live_release hk, Nat.sub_add_cancel hpos]

/-- All slots that are taken away have been counted, and no others. -/
theorem Sound.live_detachAll_add_length (h : a.Sound) :
    a.detachAll.live + (occupied 0 a.slots).length = a.live := by
  rw [h.live_detachAll, Nat.zero_add, length_occupied, h.live_eq]

/-- After any calls on an arena that starts empty, whatever keys have been given back,
    * the counter is the number of slots that are occupied, and wherever it is lowered it is at
      least as high as what it is lowered by;
    * the stack of free slots holds every slot without a state, once, and nothing else;
    * a registration takes a slot without a state, and changes no other;
    * giving a key back changes at most the slot that the key names;
    * a slot without a state is not changed when positions are renumbered or all slots are taken
      away. -/
theorem accounts_agree (calls : List Call) :
    let a := run {} calls
    a.live = a.slots.countP (·.state.isSome) ∧
      (∀ key, (a.get? key).isSome → (a.release key).live + 1 = a.live) ∧
      a.detachAll.live + (occupied 0 a.slots).length = a.live ∧
      a.free.Perm ((List.range a.slots.length).filter fun n => (a.stateAt? n).isNone) ∧
      (∀ st, let key := (a.register st).1
        a.stateAt? key.slot = none ∧ ∀ n,
          (a.register st).2.slots[n]? =
            if n = key.slot then some ⟨key.generation, some st⟩ else a.slots[n]?) ∧
      (∀ key n, n ≠ key.slot → (a.release key).slots[n]? = a.slots[n]?) ∧
      ∀ (n : Nat) (s : Slot), a.slots[n]? = some s → s.state = none →
        (∀ index count, (a.inserted index count).slots[n]? = some s ∧
          (a.removed index count).slots[n]? = some s) ∧ a.detachAll.slots[n]? = some s := by
  intro a
  have h : a.Sound := sound_empty.run calls
  refine ⟨h.live_eq, fun key => h.live_release_add_one, h.live_detachAll_add_length, h.free_perm,
    fun st => ?_, fun key n hn => ?_, fun n s hs hfree => ⟨fun index count => ?_, ?_⟩⟩
  · exact ⟨h.stateAt?_register_slot st, h.getElem?_register st⟩
  · rw [getElem?_release, if_neg fun hslot => hn hslot.1]
  · exact ⟨getElem?_mapStates_of_free _ hs hfree, getElem?_mapStates_of_free _ hs hfree⟩
  · exact getElem?_detachAll_of_free hs hfree

/-- A slot is let, given back, and let again. Giving the first key back once more does not take it
    away. -/
example :
    let (key, a) := register {} ⟨1, true⟩
    let (_, b) := (a.release key).register ⟨2, true⟩
    b.release key = b ∧ b.slots = [⟨1, some ⟨2, true⟩⟩] := by
  decide

end Taskdown.Arena
