import Taskdown.Tracker.Arena

/-!
# Slots and keys

An arena keeps three accounts of the same thing. It is *sound* when they agree: the free slots are
those without a state, each listed once, and the counter counts the others. Every operation of an
arena keeps it sound.

To a holder of keys an arena is the function `get?` from keys to states, and nothing else:

* `get?_register`: registering gives out a key that led nowhere before (`get?_register_key`), and
  which then leads to the new state; no other key is affected;
* `get?_release`: giving a key back makes it lead nowhere, and affects no other;
* `get?_mapStates`: renumbering changes what every key leads to.

The first two follow from what happens to the slots themselves: one of them changes at most
(`Sound.getElem?_register`, `getElem?_release`).
-/

namespace Taskdown.Arena

attribute [ext] SlotKey

/-- The three accounts of an arena agree. -/
structure Sound (a : Arena) : Prop where
  /-- No slot is listed as free twice. -/
  free_nodup : a.free.Nodup
  /-- The slots listed as free are those without a state. -/
  mem_free_iff : ∀ n, n ∈ a.free ↔ ∃ s, a.slots[n]? = some s ∧ s.state = none
  /-- The counter counts the slots with a state. -/
  live_eq : a.live = a.slots.countP (·.state.isSome)

variable {a : Arena}

theorem sound_empty : Sound {} where
  free_nodup := List.nodup_nil
  mem_free_iff n := by simp
  live_eq := rfl

/-! ## Looking a key up -/

theorem get?_eq_some_iff {key : SlotKey} {st : PositionState} :
    a.get? key = some st ↔ a.slots[key.slot]? = some ⟨key.generation, some st⟩ := by
  unfold get?
  cases h : a.slots[key.slot]? with
  | none => simp
  | some s =>
    obtain ⟨generation, state⟩ := s
    simp only [Option.some.injEq, Slot.mk.injEq]
    split
    · simp_all
    · simp_all

theorem get?_of_slot {key : SlotKey} {s : Slot} (hs : a.slots[key.slot]? = some s) :
    a.get? key = if s.generation = key.generation then s.state else none := by
  rw [get?, hs]

/-- No key leads to a slot without a state. -/
theorem get?_eq_none_of_free {key : SlotKey} {s : Slot} (hs : a.slots[key.slot]? = some s)
    (hfree : s.state = none) : a.get? key = none := by
  rw [get?_of_slot hs, hfree, ite_self]

/-! ## Registering -/

/-- A free slot is occupied again under the generation that it has. -/
theorem Sound.register_of_free (h : a.Sound) {slot : Nat} {free : List Nat}
    (hf : a.free = slot :: free) (st : PositionState) :
    ∃ s, a.slots[slot]? = some s ∧ s.state = none ∧
      a.register st = (⟨slot, s.generation⟩,
        { slots := a.slots.set slot ⟨s.generation, some st⟩, free, live := a.live + 1 }) := by
  obtain ⟨s, hs, hnone⟩ := (h.mem_free_iff slot).1 (hf ▸ List.mem_cons_self)
  refine ⟨s, hs, hnone, ?_⟩
  rw [register, hf]
  simp [List.modify_eq_set, hs]

/-- Without a free slot another one is made. -/
theorem register_of_full (hf : a.free = []) (st : PositionState) :
    a.register st = (⟨a.slots.length, 0⟩,
      { slots := a.slots ++ [⟨0, some st⟩], free := [], live := a.live + 1 }) := by
  rw [register, hf]

/-- The slot that is let was free, if there was one. -/
theorem Sound.state_of_register (h : a.Sound) (st : PositionState) {s : Slot}
    (hs : a.slots[(a.register st).1.slot]? = some s) : s.state = none := by
  cases hf : a.free with
  | nil => simp [register_of_full hf] at hs
  | cons slot free =>
    obtain ⟨s', hs', hnone, hr⟩ := h.register_of_free hf st
    rw [hr] at hs
    exact Option.some.inj (hs'.symm.trans hs) ▸ hnone

/-- No key led to the slot that is let. -/
theorem Sound.get?_eq_none_of_register (h : a.Sound) (st : PositionState) {key : SlotKey}
    (hslot : key.slot = (a.register st).1.slot) : a.get? key = none := by
  cases hs : a.slots[key.slot]? with
  | none => rw [get?, hs]
  | some s => exact get?_eq_none_of_free hs (h.state_of_register st (hslot ▸ hs))

/-- A key that is given out led nowhere before. -/
theorem get?_register_key (h : a.Sound) (st : PositionState) : a.get? (a.register st).1 = none :=
  h.get?_eq_none_of_register st rfl

/-- Only the slot that is let changes. It is occupied under the key that is given out. -/
theorem Sound.getElem?_register (h : a.Sound) (st : PositionState) (n : Nat) :
    (a.register st).2.slots[n]? =
      if n = (a.register st).1.slot then some ⟨(a.register st).1.generation, some st⟩
      else a.slots[n]? := by
  cases hf : a.free with
  | nil =>
    rw [register_of_full hf]
    dsimp only
    split
    · next hn => simp [hn]
    · next hn =>
      -- Before the new slot all are as they were, and behind it there is none.
      rcases Nat.lt_or_gt_of_ne hn with hlt | hgt
      · exact List.getElem?_append_left hlt
      · rw [List.getElem?_eq_none (Nat.le_of_lt hgt), List.getElem?_eq_none]
        simpa using Nat.succ_le_of_lt hgt
  | cons slot free =>
    obtain ⟨s, hs, -, hr⟩ := h.register_of_free hf st
    have hlt : slot < a.slots.length := (List.getElem?_eq_some_iff.1 hs).1
    rw [hr]
    dsimp only
    split
    · next hn => rw [hn, List.getElem?_set_self hlt]
    · next hn => exact List.getElem?_set_ne (Ne.symm hn)

/-- After a registration the new key leads to the new state, and all others lead where they led. -/
theorem get?_register (h : a.Sound) (st : PositionState) (key : SlotKey) :
    (a.register st).2.get? key = if key = (a.register st).1 then some st else a.get? key := by
  by_cases hslot : key.slot = (a.register st).1.slot
  · -- Of the keys of the slot only the new one leads there, and none did before.
    rw [get?_of_slot ((h.getElem?_register st _).trans (if_pos hslot)),
      h.get?_eq_none_of_register st hslot]
    simp only [SlotKey.ext_iff, hslot, true_and, eq_comm]
  · rw [get?, h.getElem?_register, if_neg hslot,
      if_neg fun hkey => hslot (congrArg SlotKey.slot hkey)]
    rfl

theorem live_register (a : Arena) (st : PositionState) : (a.register st).2.live = a.live + 1 := by
  cases hf : a.free with
  | nil => rw [register_of_full hf]
  | cons slot free => rw [register, hf]

theorem Sound.register (h : a.Sound) (st : PositionState) : (a.register st).2.Sound := by
  -- The slots that are free now are those that were, but for the one that is let.
  have hfree : ∀ n, (∃ s, (a.register st).2.slots[n]? = some s ∧ s.state = none) ↔
      n ≠ (a.register st).1.slot ∧ n ∈ a.free := by
    intro n
    rw [h.getElem?_register, h.mem_free_iff]
    split <;> simp [*]
  cases hf : a.free with
  | nil =>
    refine ⟨?_, fun n => ?_, ?_⟩
    · simp [register_of_full hf]
    · rw [hfree, hf]
      simp [register_of_full hf]
    · simp [register_of_full hf, h.live_eq]
  | cons slot free =>
    obtain ⟨s, hs, hnone, hr⟩ := h.register_of_free hf st
    obtain ⟨hslot, hnodup⟩ := List.nodup_cons.1 (hf ▸ h.free_nodup)
    refine ⟨?_, fun n => ?_, ?_⟩
    · rw [hr]
      exact hnodup
    · rw [hfree, hf, hr, List.mem_cons, and_or_left]
      simp only [ne_eq, not_and_self_iff, false_or]
      exact ⟨fun hn => ⟨fun e => hslot (e ▸ hn), hn⟩, And.right⟩
    · obtain ⟨hlt, hs'⟩ := List.getElem?_eq_some_iff.1 hs
      simp [hr, List.countP_set hlt, hs', hnone, h.live_eq]

/-! ## Giving back -/

/-- Giving a key back that leads somewhere empties its slot and moves the generation on. -/
theorem release_of_get? {key : SlotKey} {st : PositionState} (hk : a.get? key = some st) :
    a.release key =
      { slots := a.slots.set key.slot ⟨key.generation + 1, none⟩
        free := key.slot :: a.free
        live := a.live - 1 } := by
  have hs := get?_eq_some_iff.1 hk
  rw [release, if_pos (by rw [hk]; rfl)]
  simp [List.modify_eq_set, hs]

theorem release_of_get?_eq_none {key : SlotKey} (hk : a.get? key = none) : a.release key = a := by
  rw [release, if_neg (by simp [hk])]

/-- Only the slot that the key names changes, and only if the key leads there. -/
theorem getElem?_release (a : Arena) (key : SlotKey) (n : Nat) :
    (a.release key).slots[n]? =
      if n = key.slot ∧ (a.get? key).isSome then some ⟨key.generation + 1, none⟩
      else a.slots[n]? := by
  cases hk : a.get? key with
  | none => rw [release_of_get?_eq_none hk, if_neg (by simp)]
  | some st =>
    have hlt : key.slot < a.slots.length := (List.getElem?_eq_some_iff.1 (get?_eq_some_iff.1 hk)).1
    rw [release_of_get? hk]
    dsimp only
    split
    · next hn => rw [hn.1, List.getElem?_set_self hlt]
    · next hn => exact List.getElem?_set_ne fun e => hn ⟨e.symm, rfl⟩

/-- A key that is given back leads nowhere, and all others lead where they led. -/
theorem get?_release (a : Arena) (key other : SlotKey) :
    (a.release key).get? other = if other = key then none else a.get? other := by
  by_cases hn : other.slot = key.slot ∧ (a.get? key).isSome
  · -- Of the keys of the slot only the one that is given back led anywhere.
    obtain ⟨st, hk⟩ := Option.isSome_iff_exists.1 hn.2
    have hs := hn.1 ▸ get?_eq_some_iff.1 hk
    rw [get?_eq_none_of_free ((getElem?_release a key _).trans (if_pos hn)) rfl, get?_of_slot hs]
    simp only [SlotKey.ext_iff, hn.1, true_and]
    split
    · rfl
    · next hne => exact (if_neg (Ne.symm hne)).symm
  · have hother : (a.release key).get? other = a.get? other := by
      rw [get?, getElem?_release, if_neg hn, get?]
    rw [hother]
    split
    · next hkey =>
      subst hkey
      simpa using hn
    · rfl

theorem live_release {key : SlotKey} (hk : (a.get? key).isSome) :
    (a.release key).live = a.live - 1 := by
  obtain ⟨st, hst⟩ := Option.isSome_iff_exists.1 hk
  rw [release_of_get? hst]

theorem Sound.release (h : a.Sound) (key : SlotKey) : (a.release key).Sound := by
  cases hk : a.get? key with
  | none => rwa [release_of_get?_eq_none hk]
  | some st =>
    have hs := get?_eq_some_iff.1 hk
    have hlt : key.slot < a.slots.length := (List.getElem?_eq_some_iff.1 hs).1
    rw [release_of_get? hk]
    refine ⟨List.nodup_cons.2 ⟨fun hmem => ?_, h.free_nodup⟩, fun n => ?_, ?_⟩
    · obtain ⟨s, hs', hnone⟩ := (h.mem_free_iff _).1 hmem
      obtain rfl := Option.some.inj (hs.symm.trans hs')
      cases hnone
    · by_cases hn : n = key.slot
      · subst hn
        simp [hlt]
      · simp [hn, List.getElem?_set_ne (Ne.symm hn), h.mem_free_iff n]
    · have hs' : a.slots[key.slot] = ⟨key.generation, some st⟩ := (List.getElem?_eq_some_iff.1 hs).2
      simp [List.countP_set hlt, hs', h.live_eq]

/-! ## Renumbering -/

theorem get?_mapStates (a : Arena) (f : PositionState → PositionState) (key : SlotKey) :
    (a.mapStates f).get? key = (a.get? key).map f := by
  simp only [get?, mapStates, List.getElem?_map]
  cases a.slots[key.slot]? with
  | none => rfl
  | some s =>
    simp only [Option.map_some]
    split <;> rfl

theorem Sound.mapStates (h : a.Sound) (f : PositionState → PositionState) :
    (a.mapStates f).Sound where
  free_nodup := h.free_nodup
  mem_free_iff n := by
    rw [show (a.mapStates f).free = a.free from rfl, h.mem_free_iff]
    simp only [Arena.mapStates, List.getElem?_map]
    cases a.slots[n]? <;> simp
  live_eq := by
    simp [Arena.mapStates, List.countP_map, h.live_eq, Function.comp_def]

/-- A change that changes no state changes nothing. -/
theorem mapStates_eq_self {f : PositionState → PositionState} (hf : ∀ p, f p = p) (a : Arena) :
    a.mapStates f = a := by
  have : (fun s : Slot => { s with state := s.state.map f }) = id := by
    funext ⟨generation, state⟩
    cases state <;> simp [hf]
  simp [mapStates, this]

end Taskdown.Arena
