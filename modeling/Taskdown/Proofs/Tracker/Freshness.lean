import Taskdown.Proofs.Tracker.Letting

/-!
# Fresh slots

The generations of a slot start again when they are used up, and then a key is given out for the
second time. Until then a slot is *fresh* (`Session.Fresh`): the key of a handle that has been let
the slot leads there, or the slot has gone on to a later generation (`Arena.Given`), and no two
handles have one key. So a handle that has lost its slot never gets it back, and nobody loses a slot
because somebody else is dropped.

* `Session.Turn.fresh`: a request leaves a slot fresh, unless it takes the slot to a generation that
  is not later;
* `Session.fresh_of_returns`: a slot is fresh until it has been returned 2 ^ 32 times.
-/

namespace Taskdown

variable {α : Type}

/-! ## Keys that have been given out -/

namespace Arena

variable {a : Arena} {key other : SlotKey}

/-- The key has been given out: it leads to its slot, or the slot has gone on to a later
    generation. -/
def Given (a : Arena) (key : SlotKey) : Prop :=
  (a.get? key).isSome ∨ key.generation < a.generationAt key.slot

/-- A key of an earlier generation leads nowhere. -/
theorem get?_eq_none_of_lt (h : key.generation < a.generationAt key.slot) : a.get? key = none := by
  rw [get?_eq_stateAt?, if_neg]
  intro heq
  rw [heq] at h
  exact UInt32.lt_irrefl _ h

theorem Given.lt_of_get?_eq_none (h : a.Given key) (hnone : a.get? key = none) :
    key.generation < a.generationAt key.slot := by
  refine h.resolve_left fun hsome => ?_
  rw [hnone] at hsome
  cases hsome

theorem generationAt_of_isSome (h : (a.get? key).isSome) :
    a.generationAt key.slot = key.generation ∧ (a.stateAt? key.slot).isSome := by
  rw [get?_eq_stateAt?] at h
  split at h
  · next hgeneration => exact ⟨hgeneration, h⟩
  · cases h

theorem given_register (ha : a.Sound) (st : PositionState) :
    (a.register st).2.Given (a.register st).1 := by
  refine .inl ?_
  rw [get?_register ha, if_pos rfl]
  rfl

/-- A key that is given out is none of those that have been. -/
theorem Given.key_ne (h : a.Given key) (ha : a.Sound) (st : PositionState) :
    key ≠ (a.register st).1 := by
  rintro rfl
  have hlt := h.lt_of_get?_eq_none (get?_register_key ha st)
  have hnew : ((a.register st).2.get? (a.register st).1).isSome := by
    rw [get?_register ha, if_pos rfl]
    rfl
  rw [← generationAt_register a st, (generationAt_of_isSome hnew).1] at hlt
  exact UInt32.lt_irrefl _ hlt

theorem Given.register (h : a.Given key) (ha : a.Sound) (st : PositionState) :
    (a.register st).2.Given key := by
  rw [Given, get?_register ha, if_neg (h.key_ne ha st), generationAt_register]
  exact h

theorem Given.mapStates (h : a.Given key) (f : PositionState → PositionState) :
    (a.mapStates f).Given key := by
  rw [Given, get?_mapStates, Option.isSome_map, generationAt_mapStates]
  exact h

theorem Given.release (h : a.Given key) (hne : key ≠ other)
    (hle : a.generationAt key.slot ≤ (a.release other).generationAt key.slot) :
    (a.release other).Given key := by
  rcases h with h | h
  · refine .inl ?_
    rwa [get?_release, if_neg hne]
  · exact .inr (UInt32.lt_of_lt_of_le h hle)

/-- Emptying a slot brings it to a later generation, as long as there is one. -/
theorem Given.detachAll (h : a.Given key)
    (hle : a.generationAt key.slot ≤ a.detachAll.generationAt key.slot) :
    a.detachAll.Given key := by
  refine .inr ?_
  rcases h with h | h
  · obtain ⟨hgeneration, hstate⟩ := generationAt_of_isSome h
    rw [generationAt_detachAll, emptied, if_pos hstate, hgeneration] at hle ⊢
    refine UInt32.lt_of_le_of_ne hle fun heq => ?_
    have hdvd := (Session.add_ofNat_eq_self_iff key.generation 1).1 heq.symm
    omega
  · exact UInt32.lt_of_lt_of_le h hle

/-- When all slots have been taken away no key leads anywhere. -/
theorem get?_detachAll (a : Arena) (key : SlotKey) : a.detachAll.get? key = none := by
  cases hs : a.detachAll.slots[key.slot]? with
  | none => rw [get?, hs]
  | some s => exact get?_eq_none_of_free hs (state_of_detachAll hs)

end Arena

theorem Tracker.owns_congr {t t' : Tracker α} (h : t'.id = t.id) (p : Position) :
    t'.owns p = t.owns p := by
  rw [owns, owns, h]

namespace Session

variable {s s' : Session α} {r : Request α} {n : Nat}

/-! ## Keys that have not been given out twice -/

/-- The generations of a slot are not used up: every handle that has been let the slot has a key
    that has been given out in one of them, and none has that of another. -/
structure Fresh (s : Session α) (n : Nat) : Prop where
  given : ∀ m a, s.handle? m = some a → s.tracker.owns a.place → a.place.key.slot = n →
    s.tracker.arena.Given a.place.key
  apart : ∀ k m a b, s.handle? k = some a → s.handle? m = some b → s.tracker.owns a.place →
    s.tracker.owns b.place → a.place.key.slot = n → a.place.key = b.place.key → k = m

theorem fresh_of_isEmpty (id : Nat) (items : List α) (n : Nat) : Fresh ⟨{ id, items }, []⟩ n where
  given m a hm := by simp [handle?] at hm
  apart k m a b hk := by simp [handle?] at hk

/-- The same handles under other numbers. -/
theorem Fresh.renumber (hi : s.Fresh n) (ht : s'.tracker = s.tracker) (number : Nat → Nat)
    (hnumber : ∀ m a, s'.handle? m = some a → s.handle? (number m) = some a)
    (hinj : ∀ k m a b, s'.handle? k = some a → s'.handle? m = some b → number k = number m →
      k = m) : s'.Fresh n where
  given m a hm := by
    rw [ht]
    exact hi.given _ a (hnumber m a hm)
  apart k m a b hk hm hka hmb hslot hkey := by
    rw [ht] at hka hmb
    exact hinj k m a b hk hm (hi.apart _ _ a b (hnumber k a hk) (hnumber m b hm) hka hmb hslot hkey)

theorem Fresh.edit (hi : s.Fresh n) {t : Tracker α} (ht : s.tracker.Edits t) :
    (s.keep t).Fresh n := by
  obtain ⟨hid, f, harena⟩ := ht
  refine ⟨fun m a hm ho hslot => ?_, fun k m a b hk hm hka hmb => ?_⟩
  · rw [keep, Tracker.owns_congr hid] at ho
    have hgiven := hi.given m a hm ho hslot
    change t.arena.Given a.place.key
    rw [harena]
    exact hgiven.mapStates f
  · rw [keep, Tracker.owns_congr hid] at hka hmb
    exact hi.apart k m a b hk hm hka hmb

theorem Fresh.clear (hi : s.Fresh n)
    (hle : s.tracker.arena.generationAt n ≤ s.tracker.arena.detachAll.generationAt n) :
    (s.keep s.tracker.clear).Fresh n := by
  refine ⟨fun m a hm ho hslot => ?_, hi.apart⟩
  exact (hi.given m a hm ho hslot).detachAll (hslot ▸ hle)

/-- The copy of a lost position has been let no slot. -/
theorem Fresh.copy (hi : s.Fresh n) (key : SlotKey) :
    (s.hold (.position ⟨none, key⟩) s.tracker).Fresh n := by
  have hnot : s.tracker.owns (Handle.position ⟨none, key⟩).place = true → False := fun ho =>
    nomatch of_decide_eq_true ho
  refine ⟨fun m a hm ho hslot => ?_, fun k m a b hk hm hka hmb hslot hkey => ?_⟩
  · rcases handle?_hold.1 hm with hm | ⟨-, rfl⟩
    · exact hi.given m a hm ho hslot
    · exact (hnot ho).elim
  · rcases handle?_hold.1 hk with hk | ⟨-, rfl⟩
    · rcases handle?_hold.1 hm with hm | ⟨-, rfl⟩
      · exact hi.apart k m a b hk hm hka hmb hslot hkey
      · exact (hnot hmb).elim
    · exact (hnot hka).elim

theorem Fresh.register (hi : s.Fresh n) (hs : s.tracker.arena.Sound) (handle : Position → Handle)
    (hplace : ∀ p, (handle p).place = p) (st : PositionState) :
    (s.hold (handle (s.tracker.registerState st).1) (s.tracker.registerState st).2).Fresh n := by
  -- The new handle has a key that no other handle has.
  have hnew : ∀ m a, s.handle? m = some a → s.tracker.owns a.place → a.place.key.slot = n →
      a.place.key ≠ (handle (s.tracker.registerState st).1).place.key := by
    intro m a hm ho hslot
    rw [hplace]
    exact (hi.given m a hm ho hslot).key_ne hs st
  refine ⟨fun m a hm ho hslot => ?_, fun k m a b hk hm hka hmb hslot hkey => ?_⟩
  · rcases handle?_hold.1 hm with hm | ⟨-, rfl⟩
    · exact (hi.given m a hm ho hslot).register hs st
    · rw [hplace]
      exact Arena.given_register hs st
  · rcases handle?_hold.1 hk with hk | ⟨rfl, rfl⟩ <;> rcases handle?_hold.1 hm with hm | ⟨rfl, rfl⟩
    · exact hi.apart k m a b hk hm hka hmb hslot hkey
    · exact absurd hkey (hnew k a hk hka hslot)
    · exact absurd hkey.symm (hnew m b hm hmb (hkey ▸ hslot))
    · rfl

theorem Fresh.drop (hi : s.Fresh n) {m : Nat} {b : Handle} (hm : s.handle? m = some b)
    (hle : s.tracker.arena.generationAt n ≤ (s.tracker.release b.place).arena.generationAt n) :
    Fresh ⟨s.tracker.release b.place, s.handles.set m none⟩ n := by
  have howns := Tracker.owns_congr (s.tracker.id_release b.place)
  refine ⟨fun k a hk ho hslot => ?_, fun j k a c hj hk hja hkc => ?_⟩
  · rw [handle?_set hm] at hk
    rw [howns] at ho
    split at hk
    · cases hk
    · next hne =>
      have hgiven := hi.given k a hk ho hslot
      change (s.tracker.release b.place).arena.Given a.place.key
      cases hb : s.tracker.owns b.place with
      | false => rwa [Tracker.release, hb]
      | true =>
        rw [Tracker.release_of_owns hb] at hle ⊢
        exact hgiven.release (fun hkey => hne (hi.apart k m a b hk hm ho hb hslot hkey))
          (hslot ▸ hle)
  · rw [handle?_set hm] at hj hk
    rw [howns] at hja hkc
    split at hj
    · cases hj
    · split at hk
      · cases hk
      · exact hi.apart j k a c hj hk hja hkc

/-- A step of a cursor makes a handle, drops one, and makes another one. The first one then gets the
    number of the one that has been dropped. -/
theorem Fresh.visited (hi : s.Fresh n) (hs : s.tracker.arena.Sound) {number : Nat} {c : Cursor}
    (hc : s.cursor? number = some c) (index : Nat)
    (hle : s.tracker.arena.generationAt n ≤ (s.visited number index c).tracker.arena.generationAt
      n) :
    (s.visited number index c).Fresh n := by
  have hn := handle?_of_cursor? hc
  have hlt := lt_length_of_handle? hn
  let next := s.tracker.register (index + 1)
  have hmade : (s.hold (.cursor ⟨next.1⟩) next.2).Fresh n :=
    hi.register hs (fun p => .cursor ⟨p⟩) (fun _ => rfl) _
  have hn' : (s.hold (.cursor ⟨next.1⟩) next.2).handle? number = some (.cursor c) :=
    handle?_hold.2 (.inl hn)
  have hle' : next.2.arena.generationAt n ≤ (next.2.release c.next).arena.generationAt n := by
    have hbefore : next.2.arena.generationAt n = s.tracker.arena.generationAt n :=
      Arena.generationAt_register ..
    have hafter : (s.visited number index c).tracker.arena.generationAt n =
        (next.2.release c.next).arena.generationAt n := Arena.generationAt_register ..
    rw [hbefore, ← hafter]
    exact hle
  have hdropped := hmade.drop hn' hle'
  have hvisited := hdropped.register (Tracker.sound_release (hs.register _) c.next)
    .position (fun _ => rfl) ⟨index, true⟩
  have hlength : ((s.hold (.cursor ⟨next.1⟩) next.2).handles.set number none).length =
      s.handles.length + 1 := by
    rw [List.length_set]
    exact List.length_append
  refine hvisited.renumber rfl
    (fun m =>
      if m = number then s.handles.length
      else if m = s.handles.length then s.handles.length + 1 else m)
    (fun m a hm => ?_) (fun k m a b hk hm hkm => ?_)
  · rcases handle?_set_hold hn hm with ⟨rfl, rfl⟩ | ⟨rfl, rfl⟩ | ⟨hne, hm⟩
    · rw [if_neg (Nat.ne_of_gt hlt), if_pos rfl]
      exact handle?_hold.2 (.inr ⟨hlength.symm, rfl⟩)
    · rw [if_pos rfl]
      refine handle?_hold.2 (.inl ?_)
      rw [handle?_set hn', if_neg (Nat.ne_of_gt hlt)]
      exact handle?_hold.2 (.inr ⟨rfl, rfl⟩)
    · rw [if_neg hne, if_neg (Nat.ne_of_lt (lt_length_of_handle? hm))]
      refine handle?_hold.2 (.inl ?_)
      rw [handle?_set hn', if_neg hne]
      exact handle?_hold.2 (.inl hm)
  · have hlength' : (s.visited number index c).handles.length = s.handles.length + 1 := by
      rw [Session.visited, hold, List.length_append, List.length_set]
      rfl
    have hk' := hlength' ▸ lt_length_of_handle? hk
    have hm' := hlength' ▸ lt_length_of_handle? hm
    grind

/-- What a request can do uses up no generation but the last one. -/
theorem Turn.fresh (h : s.Turn r s') (hs : s.Sound) (hi : s.Fresh n)
    (hle : s.tracker.arena.generationAt n ≤ s'.tracker.arena.generationAt n) : s'.Fresh n := by
  cases h with
  | edit ht => exact hi.edit ht
  | clear => exact hi.clear hle
  | register handle hplace st => exact hi.register hs.arena handle hplace st
  | copy key => exact hi.copy key
  | drop hm => exact hi.drop hm hle
  | visit hm ho index => exact hi.visited hs.arena hm index hle

/-- A request leaves the generation of a slot as it is, or takes it on by one. -/
theorem toNat_generationAt_ask
    (h : (s.tracker.arena.generationAt n).toNat + s.returned n r < 4294967296) :
    ((s.ask r).tracker.arena.generationAt n).toNat = (s.tracker.arena.generationAt n).toNat +
    s.returned n r := by
  rw [(s.returns_ask r).generationAt_eq, UInt32.toNat_add, UInt32.toNat_ofNat']
  omega

theorem generationAt_le_ask
    (h : (s.tracker.arena.generationAt n).toNat + s.returned n r < 4294967296) :
    s.tracker.arena.generationAt n ≤ (s.ask r).tracker.arena.generationAt n := by
  rw [UInt32.le_iff_toNat_le, toNat_generationAt_ask h]
  exact Nat.le_add_right _ _

/-- A slot stays fresh as long as it is not returned too often. -/
theorem Fresh.follow (hi : s.Fresh n) (hs : s.Sound) {requests : List (Request α)}
    (h : (s.tracker.arena.generationAt n).toNat + s.returns n requests < 4294967296) :
    (s.follow requests).Fresh n := by
  induction requests generalizing s with
  | nil => exact hi
  | cons r requests ih =>
    rw [returns, ← Nat.add_assoc] at h
    have hr := Nat.lt_of_le_of_lt (Nat.le_add_right _ _) h
    have hturn := s.turn_ask r
    exact ih (hturn.fresh hs hi (generationAt_le_ask hr)) (hturn.sound hs)
      (toNat_generationAt_ask hr ▸ h)

/-- In the course of a run from the start a slot is fresh, if the whole run does not return it too
    often. -/
theorem fresh_of_returns (id : Nat) (items : List α) (before requests : List (Request α))
    (h : (⟨{ id, items }, []⟩ : Session α).returns n (before ++ requests) < 4294967296) :
    let s := (⟨{ id, items }, []⟩ : Session α).follow before
    s.Fresh n ∧ (s.tracker.arena.generationAt n).toNat + s.returns n requests < 4294967296 := by
  intro s
  rw [returns_append] at h
  have hbefore := Nat.lt_of_le_of_lt (Nat.le_add_right _ _) h
  have hcount : (s.tracker.arena.generationAt n).toNat =
      (⟨{ id, items }, []⟩ : Session α).returns n before := by
    rw [(returns_follow _ before).generationAt_eq, UInt32.toNat_add, UInt32.toNat_ofNat']
    change (0 + _) % _ = _
    omega
  refine ⟨(fresh_of_isEmpty id items n).follow (sound_of_isEmpty id items) ?_, hcount ▸ h⟩
  change 0 + _ < _
  rwa [Nat.zero_add]

end Session

end Taskdown
