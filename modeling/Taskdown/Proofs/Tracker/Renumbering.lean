import Taskdown.Proofs.Tracker.Session
import Taskdown.Proofs.Tracker.Slots

/-!
# Renumbering

What an edit does to a position is decided by numbers alone (`PositionState.inserted`,
`PositionState.removed`), while the list is cut and put together again. Here the two are compared,
in the terms of a ledger: a position state `Tells` of a site when it is right about it, and it stays
right when the list is spliced (`Tells.splice`) or cut (`Tells.cut`).

On the side of the tracker, `Holds` says that a position has its slot and finds a state there.
Registering, releasing and editing leave every other position its slot.
-/

namespace Taskdown

/-! ## Numbers -/

namespace PositionState

theorem inserted_zero (index : Nat) (p : PositionState) : p.inserted index 0 = p := by
  rw [inserted]
  split <;> rfl

theorem removed_zero (index : Nat) (p : PositionState) : p.removed index 0 = p := by
  rw [removed]
  split
  · rfl
  · rw [if_neg (by omega)]

theorem valid_inserted (index count : Nat) (p : PositionState) :
    (p.inserted index count).valid = p.valid := by
  rw [inserted]
  split <;> rfl

end PositionState

/-! ## Ledgers -/

namespace Ledger

variable {α : Type} {l : Ledger α} {st : PositionState} {site : Site}

/-- A position state is right about its site. On an element that is gone it is still within the
    list. -/
def Tells (l : Ledger α) (st : PositionState) : Site → Prop
  | .element x => x < l.given ∧ (st.valid = true ∧ l.identities[st.index]? = some x ∨
      st.valid = false ∧ x ∉ l.identities ∧ st.index ≤ l.elements.length)
  | .atEnd => st.valid = true ∧ st.index = l.elements.length

@[simp] theorem length_identities (l : Ledger α) : l.identities.length = l.elements.length :=
  List.length_map _

theorem Tells.index_le (h : l.Tells st site) : st.index ≤ l.elements.length := by
  cases site with
  | element x =>
    rcases h.2 with ⟨-, hx⟩ | ⟨-, -, hle⟩
    · have := (List.getElem?_eq_some_iff.1 hx).1
      rw [length_identities] at this
      omega
    · exact hle
  | atEnd => exact Nat.le_of_eq h.2

theorem Tells.agrees (h : l.Tells st site) : l.Agrees st site := by
  cases site with
  | element x =>
    rcases h.2 with ⟨hv, hx⟩ | ⟨hv, hx, -⟩
    · exact ⟨iff_of_true hv (List.mem_of_getElem? hx), fun _ => hx⟩
    · exact ⟨by simp [hv, hx], by simp [hv]⟩
  | atEnd => exact h

/-- Identities are distinct, and all of them have been given. -/
structure Sound (l : Ledger α) : Prop where
  nodup : l.identities.Nodup
  lt_given : ∀ x ∈ l.identities, x < l.given

/-- What is registered on an index tells of the site there. -/
theorem Sound.tells_siteAt (hl : l.Sound) {index : Nat} (hi : index ≤ l.elements.length) :
    l.Tells ⟨index, true⟩ (l.siteAt index) := by
  unfold siteAt
  cases hx : l.identities[index]? with
  | some x => exact ⟨hl.lt_given x (List.mem_of_getElem? hx), .inl ⟨rfl, hx⟩⟩
  | none =>
    rw [List.getElem?_eq_none_iff, length_identities] at hx
    exact ⟨rfl, Nat.le_antisymm hi hx⟩

/-! ### Inserting -/

theorem identities_splice (l : Ledger α) (index : Nat) (values : List α) :
    (l.splice index values).identities =
      l.identities.take index ++ List.range' l.given values.length ++ l.identities.drop index := by
  simp [identities, splice, List.zipIdx_map_snd]

theorem length_splice (l : Ledger α) {index : Nat} (hi : index ≤ l.elements.length)
    (values : List α) : (l.splice index values).elements.length =
    l.elements.length + values.length := by
  simp only [splice, List.length_append, List.length_take, List.length_zipIdx, List.length_drop]
  omega

theorem mem_identities_splice {x index : Nat} {values : List α} (hx : x < l.given) :
    x ∈ (l.splice index values).identities ↔ x ∈ l.identities := by
  have hnew : x ∉ List.range' l.given values.length := by
    rw [List.mem_range'_1]
    omega
  rw [identities_splice, List.append_assoc, List.mem_append, List.mem_append, or_iff_right hnew,
    ← List.mem_append, List.take_append_drop]

theorem Sound.splice (hl : l.Sound) (index : Nat) (values : List α) :
    (l.splice index values).Sound where
  nodup := by
    -- A new identity is none of those given before, and the old ones are what they were.
    have hnew : ∀ x ∈ List.range' l.given values.length, x ∉ l.identities := fun x hx hmem => by
      have := hl.lt_given x hmem
      rw [List.mem_range'_1] at hx
      omega
    have hold := List.take_append_drop index l.identities ▸ hl.nodup
    rw [List.nodup_append] at hold
    rw [identities_splice, List.nodup_append, List.nodup_append]
    refine ⟨⟨hold.1, List.nodup_range', ?_⟩, hold.2.1, ?_⟩
    · rintro x hx y hy rfl
      exact hnew x hy (List.mem_of_mem_take hx)
    · rintro x hx y hy rfl
      rcases List.mem_append.1 hx with hx | hx
      · exact hold.2.2 x hx x hy rfl
      · exact hnew x hx (List.mem_of_mem_drop hy)
  lt_given x hx := by
    rw [identities_splice, List.mem_append, List.mem_append, List.mem_range'_1] at hx
    have hgiven : (l.splice index values).given = l.given + values.length := rfl
    rcases hx with (hx | hx) | hx
    · have := hl.lt_given x (List.mem_of_mem_take hx)
      omega
    · omega
    · have := hl.lt_given x (List.mem_of_mem_drop hx)
      omega

/-- An element keeps its identity at the index to which `PositionState.inserted` moves it. -/
theorem getElem?_identities_splice {x index : Nat} {values : List α} {p : PositionState}
    (hi : index ≤ l.elements.length) (hx : l.identities[p.index]? = some x) :
    (l.splice index values).identities[(p.inserted index values.length).index]? = some x := by
  have hlen : (l.identities.take index).length = index := by simp [hi]
  rw [identities_splice, PositionState.inserted, List.append_assoc]
  split
  · next hle =>
    rw [List.getElem?_append_right (by simp only [hlen]; omega), hlen,
      List.getElem?_append_right (by simp only [List.length_range']; omega), List.length_range',
      List.getElem?_drop]
    simpa only [show index + (p.index + values.length - index - values.length) = p.index by omega]
      using hx
  · next hlt =>
    rw [List.getElem?_append_left (by omega), List.getElem?_take_of_lt (by omega)]
    exact hx

theorem Tells.splice (h : l.Tells st site) {index : Nat} (hi : index ≤ l.elements.length)
    (values : List α) : (l.splice index values).Tells (st.inserted index values.length) site := by
  have hlen := l.length_splice hi values
  cases site with
  | element x =>
    refine ⟨Nat.lt_add_right _ h.1, ?_⟩
    rw [PositionState.valid_inserted]
    rcases h.2 with ⟨hv, hx⟩ | ⟨hv, hx, hle⟩
    · exact .inl ⟨hv, getElem?_identities_splice hi hx⟩
    · refine .inr ⟨hv, (not_congr (mem_identities_splice h.1)).2 hx, ?_⟩
      rw [hlen, PositionState.inserted]
      split
      · exact Nat.add_le_add_right hle _
      · exact Nat.le_add_right_of_le hle
  | atEnd =>
    refine ⟨(PositionState.valid_inserted ..).trans h.1, ?_⟩
    rw [hlen, PositionState.inserted, if_pos (h.2 ▸ hi), ← h.2]

/-! ### Removing -/

theorem identities_cut (l : Ledger α) (start stop : Nat) :
    (l.cut start stop).identities = l.identities.take start ++ l.identities.drop stop := by
  simp [identities, cut]

theorem length_cut (l : Ledger α) {start stop : Nat} (hs : start ≤ stop)
    (hl : stop ≤ l.elements.length) :
    (l.cut start stop).elements.length = l.elements.length - (stop - start) := by
  simp only [cut, List.length_append, List.length_take, List.length_drop]
  omega

theorem mem_of_mem_identities_cut {x start stop : Nat} (hx : x ∈ (l.cut start stop).identities) :
    x ∈ l.identities := by
  rw [identities_cut] at hx
  exact (List.mem_append.1 hx).elim List.mem_of_mem_take List.mem_of_mem_drop

theorem Sound.cut (hl : l.Sound) {start stop : Nat} (hs : start ≤ stop) :
    (l.cut start stop).Sound where
  nodup := by
    rw [identities_cut]
    refine List.Nodup.sublist ?_ hl.nodup
    conv => rhs; rw [← List.take_append_drop start l.identities]
    exact (List.Sublist.refl _).append (List.drop_sublist_drop_left _ hs)
  lt_given x hx := hl.lt_given x (mem_of_mem_identities_cut hx)

/-- The identity of an element of the range is no longer among the others. -/
theorem Sound.not_mem_identities_cut (hl : l.Sound) {x i start stop : Nat}
    (hx : l.identities[i]? = some x) (h₁ : start ≤ i) (h₂ : i < stop) :
    x ∉ (l.cut start stop).identities := by
  obtain ⟨hi, hxi⟩ := List.getElem?_eq_some_iff.1 hx
  rw [identities_cut, List.mem_append, List.mem_take_iff_getElem, List.mem_drop_iff_getElem]
  rintro (⟨j, hj, hjx⟩ | ⟨j, hj, hjx⟩)
  · have := (List.getElem_inj hl.nodup).1 (hjx.trans hxi.symm)
    omega
  · have := (List.getElem_inj hl.nodup).1 (hjx.trans hxi.symm)
    omega

theorem Tells.cut (h : l.Tells st site) (hl : l.Sound) {start stop : Nat} (hs : start ≤ stop)
    (hstop : stop ≤ l.elements.length) :
    (l.cut start stop).Tells (st.removed start (stop - start)) site := by
  have hlen := l.length_cut hs hstop
  have htake : (l.identities.take start).length = start := by
    rw [List.length_take, length_identities]
    omega
  cases site with
  | element x =>
    refine ⟨h.1, ?_⟩
    have hindex := h.index_le
    rw [PositionState.removed, show start + (stop - start) = stop by omega]
    rcases h.2 with ⟨hv, hx⟩ | ⟨hv, hx, hle⟩
    · split
      · -- behind the range
        refine .inl ⟨hv, ?_⟩
        rw [identities_cut, List.getElem?_append_right (by simp only [htake]; omega),
          htake, List.getElem?_drop]
        simpa only [show stop + (st.index - (stop - start) - start) = st.index by omega] using hx
      · split
        · -- in the range
          exact .inr ⟨rfl, hl.not_mem_identities_cut hx ‹_› (by omega), by simp only [hlen]; omega⟩
        · -- before the range
          refine .inl ⟨hv, ?_⟩
          rw [identities_cut, List.getElem?_append_left (by omega),
            List.getElem?_take_of_lt (by omega)]
          exact hx
    · have hgone : x ∉ (l.cut start stop).identities :=
        fun hmem => hx (mem_of_mem_identities_cut hmem)
      rw [hlen]
      split
      · exact .inr ⟨hv, hgone, by simp only; omega⟩
      · split
        · exact .inr ⟨rfl, hgone, by simp only; omega⟩
        · exact .inr ⟨hv, hgone, by omega⟩
  | atEnd =>
    obtain ⟨hv, hindex⟩ := h
    rw [PositionState.removed, if_pos (by omega)]
    exact ⟨hv, by rw [hlen, hindex]⟩

/-! ### Exchanging -/

theorem identities_exchange (l : Ledger α) (index : Nat) (value : α) :
    (l.exchange index value).identities = l.identities := by
  refine List.ext_getElem? fun i => ?_
  simp only [identities, exchange, List.getElem?_map, List.getElem?_modify]
  cases l.elements[i]? with
  | none => rfl
  | some e => split <;> rfl

theorem length_exchange (l : Ledger α) (index : Nat) (value : α) :
    (l.exchange index value).elements.length = l.elements.length := List.length_modify ..

theorem Tells.exchange (h : l.Tells st site) (index : Nat) (value : α) :
    (l.exchange index value).Tells st site := by
  cases site with
  | element x => rwa [Tells, identities_exchange, length_exchange]
  | atEnd => rwa [Tells, length_exchange]

theorem Sound.exchange (hl : l.Sound) (index : Nat) (value : α) :
    (l.exchange index value).Sound where
  nodup := by
    rw [identities_exchange]
    exact hl.nodup
  lt_given x hx := hl.lt_given x (l.identities_exchange index value ▸ hx)

end Ledger

/-! ## Trackers -/

namespace Tracker

variable {α : Type} {t : Tracker α} {p q : Position} {st : PositionState}

/-- The position belongs to the tracker, and its slot says `st`. -/
def Holds (t : Tracker α) (p : Position) (st : PositionState) : Prop :=
  t.owns p = true ∧ t.arena.get? p.key = some st

theorem Holds.state_eq (h : t.Holds p st) : t.state p = st := by
  rw [state, if_pos h.1, h.2, Option.getD_some]

theorem Holds.checkOwns (h : t.Holds p st) : t.checkOwns p = .ok () := if_pos h.1

theorem Holds.copyPosition (h : t.Holds p st) : t.copyPosition p = t.registerState st := by
  rw [Tracker.copyPosition, if_pos h.1, h.2]

theorem holds_registerState (ha : t.arena.Sound) (st : PositionState) :
    (t.registerState st).2.Holds (t.registerState st).1 st := by
  refine ⟨decide_eq_true rfl, ?_⟩
  exact (Arena.get?_register ha st _).trans (if_pos rfl)

/-- A new position has a slot of its own. -/
theorem Holds.key_ne (h : t.Holds p st) (ha : t.arena.Sound) (new : PositionState) :
    p.key ≠ (t.registerState new).1.key := fun e => by
  have hnone := Arena.get?_register_key ha new
  rw [show (t.arena.register new).1 = p.key from e.symm, h.2] at hnone
  cases hnone

theorem Holds.registerState (h : t.Holds p st) (ha : t.arena.Sound) (new : PositionState) :
    (t.registerState new).2.Holds p st :=
  ⟨h.1, ((Arena.get?_register ha new _).trans (if_neg (h.key_ne ha new))).trans h.2⟩

theorem release_of_owns (h : t.owns q = true) :
    t.release q = { t with arena := t.arena.release q.key } :=
  if_pos h

theorem id_release (t : Tracker α) (p : Position) : (t.release p).id = t.id := by
  rw [release]
  split <;> rfl

theorem sound_release (h : t.arena.Sound) (p : Position) : (t.release p).arena.Sound := by
  rw [Tracker.release]
  split
  · exact h.release _
  · exact h

theorem Holds.release (h : t.Holds p st) (hq : t.owns q = true) (hne : p.key ≠ q.key) :
    (t.release q).Holds p st := by
  rw [release_of_owns hq]
  exact ⟨h.1, ((Arena.get?_release ..).trans (if_neg hne)).trans h.2⟩

/-- What a cursor does to the slots: a place is registered, the old place is given up, and another
    one is registered. All three are told apart from each other and from all other positions. -/
theorem Holds.replace (hq : t.Holds q st) (ha : t.arena.Sound) (i j : Nat) :
    let next := t.register i
    let here := (next.2.release q).register j
    here.2.items = t.items ∧ here.2.arena.Sound ∧ here.2.arena.live = t.arena.live + 1 ∧
      here.2.Holds next.1 ⟨i, true⟩ ∧ here.2.Holds here.1 ⟨j, true⟩ ∧ next.1.key ≠ here.1.key ∧
      ∀ p st', t.Holds p st' → p.key ≠ q.key →
        here.2.Holds p st' ∧ p.key ≠ next.1.key ∧ p.key ≠ here.1.key := by
  intro next here
  have hq₁ : next.2.Holds q st := hq.registerState ha _
  have hrel : next.2.release q = { next.2 with arena := next.2.arena.release q.key } :=
    release_of_owns hq₁.1
  have ha₁ : next.2.arena.Sound := ha.register _
  have ha₂ : (next.2.release q).arena.Sound := by
    rw [hrel]
    exact ha₁.release _
  have hnext : (next.2.release q).Holds next.1 ⟨i, true⟩ :=
    (holds_registerState ha _).release hq₁.1 (hq.key_ne ha _).symm
  refine ⟨?_, ha₂.register _, ?_, hnext.registerState ha₂ _, holds_registerState ha₂ _,
    hnext.key_ne ha₂ _, ?_⟩
  · change (next.2.release q).items = _
    rw [hrel]
    rfl
  · have hlive₁ : next.2.arena.live = t.arena.live + 1 := Arena.live_register ..
    have hlive₂ : (next.2.release q).arena.live = next.2.arena.live - 1 := by
      rw [hrel]
      exact Arena.live_release (by rw [hq₁.2]; rfl)
    have hlive₃ : here.2.arena.live = (next.2.release q).arena.live + 1 := Arena.live_register ..
    omega
  · intro p st' hp hne
    have hp₂ : (next.2.release q).Holds p st' := (hp.registerState ha _).release hq₁.1 hne
    exact ⟨hp₂.registerState ha₂ _, hp.key_ne ha _, hp₂.key_ne ha₂ _⟩

/-- Inserting moves every position, though by nothing if nothing is inserted. -/
theorem arena_splice (t : Tracker α) (index : Nat) (values : List α) :
    (t.splice index values).arena = t.arena.inserted index values.length := by
  cases values with
  | nil => exact (Arena.mapStates_eq_self (PositionState.inserted_zero index) _).symm
  | cons v vs => rfl

theorem arena_cut (t : Tracker α) (start stop : Nat) :
    (t.cut start stop).2.arena = t.arena.removed start (stop - start) := by
  by_cases h : start = stop
  · subst h
    rw [Arena.removed, Nat.sub_self, Arena.mapStates_eq_self (PositionState.removed_zero start)]
    exact if_pos rfl
  · exact if_neg h

theorem Holds.splice (h : t.Holds p st) (index : Nat) (values : List α) :
    (t.splice index values).Holds p (st.inserted index values.length) := by
  refine ⟨h.1, ?_⟩
  rw [arena_splice, Arena.inserted, Arena.get?_mapStates, h.2]
  rfl

theorem Holds.cut (h : t.Holds p st) (start stop : Nat) :
    (t.cut start stop).2.Holds p (st.removed start (stop - start)) := by
  refine ⟨h.1, ?_⟩
  rw [arena_cut, Arena.removed, Arena.get?_mapStates, h.2]
  rfl

end Tracker

end Taskdown
