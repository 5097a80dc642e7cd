import Taskdown.Proofs.Tracker.Identity

/-!
# Clearing

Clearing a tracker takes the elements out of the list and the slots away from all positions. What is
held is lost, so a history goes on without handles (`History.clear`). All else is as before: the
slots and the ledger are sound, and identities that have been given are not given again.

* `History.Reached`: the histories of a tracker that is cleared every now and then;
* `History.Reached.inv`: in all of them tracker, handles and ledger agree.
-/

namespace Taskdown

namespace Arena

variable {a : Arena}

theorem le_of_mem_occupied {m n : Nat} {slots : List Slot} (h : n ∈ occupied m slots) : m ≤ n := by
  induction slots generalizing m with
  | nil => cases h
  | cons s slots ih =>
    rw [occupied] at h
    split at h
    · rcases List.mem_cons.1 h with rfl | h
      · exact Nat.le_refl _
      · exact Nat.le_of_succ_le (ih h)
    · exact Nat.le_of_succ_le (ih h)

/-- The occupied slots are those with a state. -/
theorem mem_occupied {m i : Nat} {slots : List Slot} :
    m + i ∈ occupied m slots ↔ ∃ s, slots[i]? = some s ∧ s.state.isSome := by
  induction slots generalizing m i with
  | nil => simp [occupied]
  | cons s slots ih =>
    have hm : m ∉ occupied (m + 1) slots := fun h => Nat.not_succ_le_self m (le_of_mem_occupied h)
    rw [occupied]
    cases i with
    | zero =>
      split
      · next hs => simp [hs]
      · next hs => simpa [hs] using hm
    | succ i =>
      have hi : m + (i + 1) = m + 1 + i := by omega
      have hne : m + 1 + i ≠ m := by omega
      rw [hi, List.getElem?_cons_succ, ← ih]
      split
      · rw [List.mem_cons, or_iff_right hne]
      · rfl

theorem nodup_occupied (m : Nat) (slots : List Slot) : (occupied m slots).Nodup := by
  induction slots generalizing m with
  | nil => exact List.nodup_nil
  | cons s slots ih =>
    rw [occupied]
    split
    · exact List.nodup_cons.2 ⟨fun h => Nat.not_succ_le_self m (le_of_mem_occupied h), ih _⟩
    · exact ih _

theorem length_occupied (m : Nat) (slots : List Slot) :
    (occupied m slots).length = slots.countP (·.state.isSome) := by
  induction slots generalizing m with
  | nil => rfl
  | cons s slots ih =>
    rw [occupied, List.countP_cons]
    split <;> simp [ih]

theorem Sound.live_detachAll (h : a.Sound) : a.detachAll.live = 0 := by
  change a.live - (occupied 0 a.slots).length = 0
  rw [length_occupied, h.live_eq, Nat.sub_self]

/-- No slot has a state any more. -/
theorem state_of_detachAll {n : Nat} {s : Slot} (hs : a.detachAll.slots[n]? = some s) :
    s.state = none := by
  obtain ⟨old, -, rfl⟩ := Option.map_eq_some_iff.1 (List.getElem?_map .. ▸ hs)
  split
  · rfl
  · next hnone => simpa using hnone

theorem Sound.detachAll (h : a.Sound) : a.detachAll.Sound where
  free_nodup := by
    refine List.nodup_append.2 ⟨(List.reverse_perm _).nodup_iff.2 (nodup_occupied 0 _),
      h.free_nodup, ?_⟩
    rintro n hn _ hfree rfl
    -- A slot that was occupied was not free.
    rw [List.mem_reverse, ← Nat.zero_add n, mem_occupied] at hn
    obtain ⟨s, hs, hsome⟩ := hn
    obtain ⟨s', hs', hnone⟩ := (h.mem_free_iff n).1 hfree
    obtain rfl := Option.some.inj (hs.symm.trans hs')
    rw [hnone] at hsome
    cases hsome
  mem_free_iff n := by
    have hfree : n ∈ a.detachAll.free ↔ n ∈ occupied 0 a.slots ∨ n ∈ a.free :=
      List.mem_append.trans (or_congr_left List.mem_reverse)
    have hslots : a.detachAll.slots.length = a.slots.length := List.length_map _
    rw [hfree, ← Nat.zero_add n, mem_occupied, Nat.zero_add, h.mem_free_iff]
    constructor
    · intro hslot
      obtain ⟨s, hs⟩ : ∃ s, a.slots[n]? = some s := by
        rcases hslot with ⟨s, hs, -⟩ | ⟨s, hs, -⟩ <;> exact ⟨s, hs⟩
      have hlt : n < a.detachAll.slots.length := hslots ▸ (List.getElem?_eq_some_iff.1 hs).1
      exact ⟨_, List.getElem?_eq_getElem hlt, state_of_detachAll (List.getElem?_eq_getElem hlt)⟩
    · rintro ⟨s, hs, -⟩
      have hlt : n < a.slots.length := hslots ▸ (List.getElem?_eq_some_iff.1 hs).1
      cases hstate : a.slots[n].state with
      | some st => exact .inl ⟨_, List.getElem?_eq_getElem hlt, by rw [hstate]; rfl⟩
      | none => exact .inr ⟨_, List.getElem?_eq_getElem hlt, hstate⟩
  live_eq := by
    rw [h.live_detachAll, eq_comm, List.countP_eq_zero]
    intro s hs
    obtain ⟨n, hn⟩ := List.getElem?_of_mem hs
    simp [state_of_detachAll hn]

end Arena

namespace History

variable {α : Type} {h : History α}

/-! ## Clearing histories -/

/-- The history after its tracker has been cleared. What was held is lost. -/
def clear (h : History α) : History α :=
  ⟨⟨h.session.tracker.clear, h.session.handles.map fun _ => none⟩, { h.ledger with elements := [] }⟩

theorem handle?_clear (n : Nat) : h.clear.session.handle? n = none := by
  rw [Session.handle?, clear, List.getElem?_map]
  cases h.session.handles[n]? <;> rfl

theorem Inv.clear (hi : h.Inv) : h.clear.Inv where
  items := rfl
  arena := hi.arena.detachAll
  ledger := ⟨List.nodup_nil, nofun⟩
  sites := hi.sites.trans (List.length_map _).symm
  held n a hn := by
    rw [handle?_clear] at hn
    cases hn
  apart m n a b hm := by
    rw [handle?_clear] at hm
    cases hm
  live := by
    rw [eq_comm, show h.clear.session.tracker.arena.live = 0 from hi.arena.live_detachAll,
      List.countP_eq_zero]
    simp [History.clear]

/-- The histories of a tracker: it starts with some elements, then calls are made, and it is
    cleared. -/
inductive Reached : History α → Prop
  | start (id : Nat) (items : List α) : Reached (start id items)
  | step {h : History α} (hr : Reached h) (c : Call α) : Reached (h.step c)
  | clear {h : History α} (hr : Reached h) : Reached h.clear

theorem Reached.inv (hr : h.Reached) : h.Inv := by
  induction hr with
  | start id items => exact inv_start id items
  | step _ c hi => exact hi.step c
  | clear _ hi => exact hi.clear

end History

end Taskdown
