import Taskdown.Proofs.Tracker.Turns

/-!
# Slots are let again

A slot is let to one position after the other. The generation in a key tells them apart, but it is a
number of 32 bits and starts again when it is used up. Here the returns of a slot are counted
without a bound (`Session.returns`), along any run of calls and of clearings, during which
everything stays held that was held.

A handle that leads to a slot, and is then neither dropped nor stepped, leads to it later on exactly
if the slot is occupied and has been returned a multiple of 2 ^ 32 times since
(`Session.get?_follow`). So a handle that has lost its slot when the tracker was cleared

* stays lost, and is dropped without an effect, up to 2 ^ 32 returns of its slot;
* may then lead to the position of somebody else (`Session.lost_until_let_again`).
-/

namespace Taskdown

variable {α : Type}

/-! ## Generations -/

namespace Arena

variable {a : Arena} {key : SlotKey} {n : Nat}

/-- The generation under which a slot is let, or will be. -/
def generationAt (a : Arena) (n : Nat) : UInt32 := (a.slots[n]?.map Slot.generation).getD 0

/-- The state in a slot, if it is occupied. -/
def stateAt? (a : Arena) (n : Nat) : Option PositionState := a.slots[n]?.bind Slot.state

/-- How often a slot is returned when a key is given back: once, if the key leads to it. -/
def returned (a : Arena) (key : SlotKey) (n : Nat) : Nat :=
  if (a.get? key).isSome ∧ key.slot = n then 1 else 0

/-- How often a slot is returned when all are: once, if it is occupied. -/
def emptied (a : Arena) (n : Nat) : Nat := if (a.stateAt? n).isSome then 1 else 0

theorem get?_eq_stateAt? (a : Arena) (key : SlotKey) :
    a.get? key =
      if a.generationAt key.slot = key.generation then a.stateAt? key.slot else none := by
  rw [get?, generationAt, stateAt?]
  cases a.slots[key.slot]? with
  | none => exact (ite_self none).symm
  | some s => rfl

theorem generationAt_register (a : Arena) (st : PositionState) (n : Nat) :
    (a.register st).2.generationAt n = a.generationAt n := by
  rw [generationAt, generationAt, register]
  cases a.free with
  | nil =>
    dsimp only
    rw [List.getElem?_append]
    split
    · rfl
    · next hn =>
      rw [List.getElem?_eq_none (Nat.le_of_not_lt hn)]
      cases n - a.slots.length <;> rfl
  | cons slot free =>
    dsimp only
    rw [List.getElem?_modify]
    cases a.slots[n]? with
    | none => rfl
    | some s =>
      simp only [Option.map_eq_map, Option.map_some]
      split <;> rfl

/-- A registration leaves no slot free that was occupied. -/
theorem isSome_stateAt?_register (st : PositionState) (h : (a.stateAt? n).isSome) :
    ((a.register st).2.stateAt? n).isSome := by
  rw [stateAt?] at h ⊢
  cases hs : a.slots[n]? with
  | none =>
    rw [hs] at h
    cases h
  | some s =>
    rw [hs] at h
    rw [register]
    cases a.free with
    | nil =>
      dsimp only
      rw [List.getElem?_append_left (List.getElem?_eq_some_iff.1 hs).1, hs]
      exact h
    | cons slot free =>
      dsimp only
      rw [List.getElem?_modify, hs]
      simp only [Option.map_eq_map, Option.map_some]
      split
      · rfl
      · exact h

theorem stateAt?_mapStates (a : Arena) (f : PositionState → PositionState) (n : Nat) :
    (a.mapStates f).stateAt? n = (a.stateAt? n).map f := by
  rw [stateAt?, stateAt?, mapStates, List.getElem?_map]
  cases a.slots[n]? <;> rfl

theorem generationAt_mapStates (a : Arena) (f : PositionState → PositionState) (n : Nat) :
    (a.mapStates f).generationAt n = a.generationAt n := by
  rw [generationAt, generationAt, mapStates, List.getElem?_map, Option.map_map]
  rfl

/-- A generation counts the returns of its slot. -/
theorem generationAt_release (a : Arena) (key : SlotKey) (n : Nat) :
    (a.release key).generationAt n = a.generationAt n + UInt32.ofNat (a.returned key n) := by
  rw [generationAt, getElem?_release, returned]
  by_cases hn : (a.get? key).isSome ∧ key.slot = n
  · obtain ⟨st, hst⟩ := Option.isSome_iff_exists.1 hn.1
    rw [if_pos ⟨hn.2.symm, hn.1⟩, if_pos hn, generationAt, ← hn.2, get?_eq_some_iff.1 hst]
    rfl
  · rw [if_neg fun h => hn ⟨h.2, h.1.symm⟩, if_neg hn]
    exact (UInt32.add_zero _).symm

/-- The slots that are not returned are as before. -/
theorem stateAt?_release (h : a.returned key n = 0) :
    (a.release key).stateAt? n = a.stateAt? n := by
  have hn : ¬ ((a.get? key).isSome ∧ key.slot = n) := fun hn => by
    rw [returned, if_pos hn] at h
    cases h
  rw [stateAt?, getElem?_release, if_neg fun h => hn ⟨h.2, h.1.symm⟩, stateAt?]

theorem stateAt?_release_self {st : PositionState} (h : a.get? key = some st) :
    (a.release key).stateAt? key.slot = none := by
  rw [stateAt?, getElem?_release, if_pos ⟨rfl, by rw [h]; rfl⟩]
  rfl

theorem generationAt_detachAll (a : Arena) (n : Nat) :
    a.detachAll.generationAt n = a.generationAt n + UInt32.ofNat (a.emptied n) := by
  rw [generationAt, generationAt, emptied, stateAt?, detachAll]
  dsimp only
  rw [List.getElem?_map]
  cases a.slots[n]? with
  | none => exact (UInt32.add_zero _).symm
  | some s =>
    obtain ⟨generation, state⟩ := s
    cases state with
    | none => exact (UInt32.add_zero _).symm
    | some st => rfl

end Arena

/-! ## Trackers -/

namespace Tracker

variable {t t' : Tracker α} {p : Position}

theorem state_of_get?_eq_none (h : t.arena.get? p.key = none) : t.state p = .lost := by
  rw [state, h]
  exact ite_self _

theorem release_of_get?_eq_none (h : t.arena.get? p.key = none) : t.release p = t := by
  rw [release, Arena.release_of_get?_eq_none h]
  exact ite_self _

/-- How often a slot is returned when a position is given up. -/
def returned (t : Tracker α) (p : Position) (n : Nat) : Nat :=
  if t.owns p then t.arena.returned p.key n else 0

/-- One tracker has become the other, and no slot has been returned in between. -/
structure KeepsSlots (t t' : Tracker α) : Prop where
  id_eq : t'.id = t.id
  generationAt_eq : ∀ n, t'.arena.generationAt n = t.arena.generationAt n
  occupied : ∀ n, (t.arena.stateAt? n).isSome → (t'.arena.stateAt? n).isSome

theorem Edits.keepsSlots (h : t.Edits t') : t.KeepsSlots t' := by
  obtain ⟨hid, f, harena⟩ := h
  refine ⟨hid, fun n => ?_, fun n hn => ?_⟩
  · rw [harena, Arena.generationAt_mapStates]
  · rwa [harena, Arena.stateAt?_mapStates, Option.isSome_map]

theorem KeepsSlots.refl (t : Tracker α) : t.KeepsSlots t := (Edits.refl t).keepsSlots

theorem keepsSlots_registerState (t : Tracker α) (st : PositionState) :
    t.KeepsSlots (t.registerState st).2 :=
  ⟨rfl, Arena.generationAt_register t.arena st, fun _ => Arena.isSome_stateAt?_register st⟩

/-- One tracker has become the other, and each slot has been returned so many times in between. -/
structure Returns (t : Tracker α) (count : Nat → Nat) (t' : Tracker α) : Prop where
  id_eq : t'.id = t.id
  generationAt_eq : ∀ n, t'.arena.generationAt n = t.arena.generationAt n + UInt32.ofNat (count n)
  occupied : ∀ n, count n = 0 → (t.arena.stateAt? n).isSome → (t'.arena.stateAt? n).isSome

theorem KeepsSlots.returns (h : t.KeepsSlots t') : t.Returns (fun _ => 0) t' :=
  ⟨h.id_eq, fun n => (h.generationAt_eq n).trans (UInt32.add_zero _).symm, fun n _ => h.occupied n⟩

theorem Returns.trans {t'' : Tracker α} {count count' : Nat → Nat} (h : t.Returns count t')
    (h' : t'.Returns count' t'') : t.Returns (fun n => count n + count' n) t'' := by
  refine ⟨h'.id_eq.trans h.id_eq, fun n => ?_, fun n hn ho => ?_⟩
  · rw [h'.generationAt_eq, h.generationAt_eq, UInt32.add_assoc, UInt32.ofNat_add]
  · obtain ⟨hzero, hzero'⟩ := Nat.add_eq_zero_iff.1 hn
    exact h'.occupied n hzero' (h.occupied n hzero ho)

theorem returns_release (t : Tracker α) (p : Position) :
    t.Returns (t.returned p) (t.release p) := by
  have hcount : t.returned p = if t.owns p then t.arena.returned p.key else fun _ => 0 := by
    funext n
    rw [returned]
    split <;> rfl
  rw [release, hcount]
  split
  · exact ⟨rfl, Arena.generationAt_release _ _, fun n hn ho => Arena.stateAt?_release hn ▸ ho⟩
  · exact (KeepsSlots.refl t).returns

theorem returns_clear (t : Tracker α) : t.Returns t.arena.emptied t.clear := by
  refine ⟨rfl, Arena.generationAt_detachAll _, fun n hn ho => ?_⟩
  rw [Arena.emptied, if_pos ho] at hn
  cases hn

end Tracker

/-! ## Returns in a run -/

namespace Session

variable {s s' : Session α} {number : Nat} {handle : Handle}

/-- How often a slot is returned by a request. A cursor registers its next place before it returns
    the old one. -/
def returned (s : Session α) (n : Nat) : Request α → Nat
  | .call (.drop number) =>
    (s.handle? number).elim 0 fun handle => s.tracker.returned handle.place n
  | .call (.next number) => (s.cursor? number).elim 0 fun c =>
    if s.tracker.owns c.next ∧ (s.tracker.state c.next).index < s.tracker.length then
      (s.tracker.register ((s.tracker.state c.next).index + 1)).2.returned c.next n
    else 0
  | .call _ => 0
  | .clear => s.tracker.arena.emptied n

/-- How often a slot is returned by some requests. -/
def returns (s : Session α) (n : Nat) : List (Request α) → Nat
  | [] => 0
  | r :: requests => s.returned n r + (s.ask r).returns n requests

/-! ### Calls -/

/-- A call that neither drops anything nor takes a cursor on returns no slot. -/
theorem keepsSlots_of_outcome? {c : Call α} (hc : s.outcome? c = some s') (hdrop : ∀ n, c ≠ .drop n)
    (hnext : ∀ n, c ≠ .next n) : s.tracker.KeepsSlots s'.tracker := by
  cases turn_of_outcome? hc with
  | edit ht => exact ht.keepsSlots
  | register handle hplace st => exact s.tracker.keepsSlots_registerState st
  | copy key => exact .refl _
  | drop hn => exact absurd rfl (hdrop _)
  | visit hn ho index => exact absurd rfl (hnext _)

/-- Dropping a handle returns its slot. -/
theorem returns_ask_drop (s : Session α) (number : Nat) :
    s.tracker.Returns (fun n => s.returned n (.call (.drop number)))
    (s.ask (.call (.drop number))).tracker := by
  simp only [ask_call, outcome?, returned]
  split
  · next handle hn =>
    rw [hn]
    exact s.tracker.returns_release handle.place
  · next hn =>
    rw [hn]
    exact (Tracker.KeepsSlots.refl _).returns

/-- A cursor that goes on returns its slot. -/
theorem returns_ask_next (s : Session α) (number : Nat) :
    s.tracker.Returns (fun n => s.returned n (.call (.next number)))
    (s.ask (.call (.next number))).tracker := by
  simp only [ask_call, outcome?, returned]
  split
  · next c hc =>
    rw [hc, Tracker.advance_eq]
    by_cases ho : s.tracker.owns c.next
    · by_cases hle : s.tracker.length ≤ (s.tracker.state c.next).index
      · simp only [if_pos ho, if_pos hle, Option.elim_some,
          if_neg fun h => Nat.not_lt.2 hle (And.right h)]
        exact (Tracker.KeepsSlots.refl _).returns
      · -- Only the second of the three things that a step does returns a slot.
        simp only [if_pos ho, if_neg hle, Option.elim_some,
          if_pos (And.intro ho (Nat.lt_of_not_le hle))]
        have h :=
          ((s.tracker.keepsSlots_registerState ⟨(s.tracker.state c.next).index + 1,
            true⟩).returns.trans
          (Tracker.returns_release _ c.next)).trans
          (Tracker.keepsSlots_registerState _ ⟨(s.tracker.state c.next).index, true⟩).returns
        simp only [Nat.zero_add, Nat.add_zero] at h
        exact h
    · simp only [if_neg ho, Option.elim_some, if_neg fun h => ho (And.left h)]
      exact (Tracker.KeepsSlots.refl _).returns
  · next hc =>
    rw [hc]
    exact (Tracker.KeepsSlots.refl _).returns

theorem returns_ask (s : Session α) (r : Request α) :
    s.tracker.Returns (fun n => s.returned n r) (s.ask r).tracker := by
  cases r with
  | clear => exact s.tracker.returns_clear
  | call c =>
    have hkeep (hdrop : ∀ n, c ≠ .drop n) (hnext : ∀ n, c ≠ .next n) :
        s.tracker.Returns (fun _ => 0) (s.ask (.call c)).tracker := by
      rw [ask_call]
      cases hc : s.outcome? c with
      | none => exact (Tracker.KeepsSlots.refl _).returns
      | some s' => exact (keepsSlots_of_outcome? hc hdrop hnext).returns
    cases c with
    | drop number => exact s.returns_ask_drop number
    | next number => exact s.returns_ask_next number
    | _ => exact hkeep (fun _ h => by cases h) (fun _ h => by cases h)

theorem returns_follow (s : Session α) (requests : List (Request α)) :
    s.tracker.Returns (fun n => s.returns n requests) (s.follow requests).tracker := by
  induction requests generalizing s with
  | nil => exact (Tracker.KeepsSlots.refl _).returns
  | cons r requests ih => exact (s.returns_ask r).trans (ih (s.ask r))

theorem returns_append (s : Session α) (n : Nat) (requests more : List (Request α)) :
    s.returns n (requests ++ more) = s.returns n requests + (s.follow requests).returns n more := by
  induction requests generalizing s with
  | nil => exact (Nat.zero_add _).symm
  | cons r requests ih => rw [List.cons_append, returns, returns, ih, follow_cons, Nat.add_assoc]

/-! ### Keys -/

/-- A generation is the same again after a multiple of 2 ^ 32 returns. -/
theorem add_ofNat_eq_self_iff (g : UInt32) (k : Nat) : g + UInt32.ofNat k = g ↔ 4294967296 ∣ k := by
  have hg := g.toNat_lt
  rw [← UInt32.toNat_inj, UInt32.toNat_add, UInt32.toNat_ofNat']
  omega

/-- A key that leads to its slot leads there later on exactly if the slot is occupied and has been
    returned a multiple of 2 ^ 32 times. -/
theorem get?_follow {key : SlotKey} (hk : (s.tracker.arena.get? key).isSome)
    (requests : List (Request α)) :
    let a := (s.follow requests).tracker.arena
    a.get? key =
      if 4294967296 ∣ s.returns key.slot requests then a.stateAt? key.slot else none := by
  intro a
  obtain ⟨st, hst⟩ := Option.isSome_iff_exists.1 hk
  have hg : s.tracker.arena.generationAt key.slot = key.generation := by
    rw [Arena.generationAt, Arena.get?_eq_some_iff.1 hst]
    rfl
  rw [Arena.get?_eq_stateAt?, (s.returns_follow requests).generationAt_eq, hg]
  simp only [add_ofNat_eq_self_iff]

/-- A slot that is occupied is returned when the tracker is cleared, unless that happens before. -/
theorem returns_pos {n : Nat} {requests : List (Request α)}
    (ho : (s.tracker.arena.stateAt? n).isSome) (hclear : .clear ∈ requests) :
    0 < s.returns n requests := by
  induction requests generalizing s with
  | nil => cases hclear
  | cons r requests ih =>
    rw [returns]
    -- As long as the slot is not returned it stays occupied, and then clearing returns it.
    cases hr : s.returned n r with
    | succ k => omega
    | zero =>
      rcases List.mem_cons.1 hclear with rfl | hclear
      · rw [returned, Arena.emptied, if_pos ho] at hr
        cases hr
      · exact Nat.add_pos_right _ (ih ((s.returns_ask r).occupied n hr ho) hclear)

/-! ## Lost handles -/

/-- A handle is registered, and then the tracker is cleared at least once, among whatever else is
    asked of it, while the handle is neither dropped nor taken a step on. It is still held then, and
    its slot has been returned.
    * If the slot is let to somebody, and has been returned a multiple of 2 ^ 32 times, the handle
      says what is true of somebody else, and takes the slot away when it is dropped.
    * In all other cases, and in particular up to 2 ^ 32 returns, the handle is lost, and nothing
      changes when it is dropped. -/
theorem lost_until_let_again {st : PositionState} {requests : List (Request α)}
    (hn : s.handle? number = some handle) (hh : s.tracker.Holds handle.place st)
    (hr : ∀ r ∈ requests, ¬ r.Moves number) (hclear : .clear ∈ requests) :
    let slot := handle.place.key.slot
    let later := s.follow requests
    let t := later.tracker
    let letAgain := 4294967296 ∣ s.returns slot requests ∧ (t.arena.stateAt? slot).isSome
    later.handle? number = some handle ∧ 0 < s.returns slot requests ∧
    ∃ dropped, later.call? (.drop number) = some dropped ∧
    dropped.handles = later.handles.set number none ∧
      (letAgain → t.arena.stateAt? slot = some (t.state handle.place) ∧
        dropped.tracker.livePositions = t.livePositions - 1 ∧
        dropped.tracker.arena.stateAt? slot = none) ∧
      (¬ letAgain → t.state handle.place = .lost ∧ dropped.tracker = t) := by
  intro slot later t letAgain
  have hkept : later.handle? number = some handle := handle?_follow hn hr
  have hlive : (s.tracker.arena.get? handle.place.key).isSome := by
    rw [hh.2]
    rfl
  have hstate : s.tracker.arena.stateAt? slot = some st := by
    rw [Arena.stateAt?, Arena.get?_eq_some_iff.1 hh.2]
    rfl
  have howns : t.owns handle.place := by
    rw [Tracker.owns, (s.returns_follow requests).id_eq]
    exact hh.1
  have hget : t.arena.get? handle.place.key =
      if 4294967296 ∣ s.returns slot requests then t.arena.stateAt? slot else none :=
        get?_follow hlive requests
  have hdrop : later.call? (.drop number) = some ⟨t.release handle.place,
      later.handles.set number none⟩ := by
    rw [call?_eq, outcome?, hkept]
  refine ⟨hkept, returns_pos (hstate ▸ rfl) hclear, _, hdrop, rfl, fun hagain => ?_, fun hnot => ?_⟩
  · -- The key fits again.
    obtain ⟨now, hnow⟩ := Option.isSome_iff_exists.1 hagain.2
    rw [if_pos hagain.1, hnow] at hget
    have hholds : t.Holds handle.place now := ⟨howns, hget⟩
    refine ⟨hnow.trans (congrArg some hholds.state_eq.symm), ?_, ?_⟩
    · rw [Tracker.release, if_pos howns]
      exact Arena.live_release (hget ▸ rfl)
    · rw [Tracker.release, if_pos howns]
      exact Arena.stateAt?_release_self hget
  · have hnone : t.arena.get? handle.place.key = none := by
      rw [hget]
      split
      · next hdvd => exact Option.not_isSome_iff_eq_none.1 fun ho => hnot ⟨hdvd, ho⟩
      · rfl
    exact ⟨Tracker.state_of_get?_eq_none hnone, Tracker.release_of_get?_eq_none hnone⟩

/-- A position is held on `a`, the tracker is cleared, and its slot is let to a new position. The
    old one is lost. -/
theorem lost_until_let_again_of_two : ∃ handle dropped,
    let s := (⟨⟨0, ['a'], {}⟩, []⟩ : Session Char).ask (.call (.position 0))
    let later := s.follow [.call (.add 'b'), .clear, .call .first]
    later.handle? 0 = some handle ∧ later.tracker.livePositions = 1 ∧ handle.place.key.slot = 0 ∧
    later.tracker.arena.stateAt? 0 = some ⟨0, true⟩ ∧ later.tracker.state handle.place = .lost ∧
    later.call? (.drop 0) = some dropped ∧ dropped.tracker = later.tracker := by
  let s := (⟨⟨0, ['a'], {}⟩, []⟩ : Session Char).ask (.call (.position 0))
  have hn : s.handle? 0 = some (.position ⟨some 0, ⟨0, 0⟩⟩) := rfl
  have hh : s.tracker.Holds (Handle.position ⟨some 0, ⟨0, 0⟩⟩).place ⟨0, true⟩ := ⟨rfl, rfl⟩
  have hr : ∀ r ∈ [Request.call (.add 'b'), .clear, .call .first], ¬ r.Moves 0 := by
    simp [Request.Moves]
  obtain ⟨hkept, -, dropped, hdrop, -, -, hlost⟩ := lost_until_let_again hn hh hr (by simp)
  obtain ⟨hstate, hsame⟩ := hlost fun hagain => absurd hagain.1 (by decide)
  exact ⟨_, dropped, hkept, rfl, rfl, rfl, hstate, hdrop, hsame⟩

/-! ### A slot that is let again and again -/

/-- A position is made at the end, and dropped. -/
def round (number : Nat) : List (Request α) := [.call .atEnd, .call (.drop number)]

/-- An empty tracker with one slot, which has been returned once by the handle, and by so many
    positions after it. -/
def afterRounds (handle : Handle) (count : Nat) : Session α where
  tracker := { id := 0, items := [], arena := ⟨[⟨UInt32.ofNat (count + 1), none⟩], [0], 0⟩ }
  handles := some handle :: List.replicate count none

/-- The same tracker when its slot is let to the position that is held last. -/
def duringRound (handle : Handle) (count : Nat) (generation : UInt32) : Session α where
  tracker := { id := 0, items := [], arena := ⟨[⟨generation, some ⟨0, true⟩⟩], [], 1⟩ }
  handles :=
    some handle :: (List.replicate count none ++ [some (.position ⟨some 0, ⟨0, generation⟩⟩)])

theorem ask_atEnd_afterRounds (handle : Handle) (count : Nat) :
    (afterRounds handle count : Session α).ask (.call .atEnd) =
      duringRound handle count (UInt32.ofNat (count + 1)) := rfl

theorem handle?_duringRound (handle : Handle) (count : Nat) (generation : UInt32) :
    (duringRound handle count generation : Session α).handle? (count + 1) =
      some (.position ⟨some 0, ⟨0, generation⟩⟩) := by
  simp [handle?, duringRound]

theorem release_duringRound (handle : Handle) (count : Nat) (generation : UInt32) :
    (duringRound handle count generation : Session α).tracker.release ⟨some 0, ⟨0, generation⟩⟩ =
      ⟨0, [], ⟨[⟨generation + 1, none⟩], [0], 0⟩⟩ := by
  have hget : (⟨[⟨generation, some ⟨0, true⟩⟩], [], 1⟩ : Arena).get? ⟨0, generation⟩ =
    some ⟨0, true⟩ := if_pos rfl
  rw [Tracker.release, duringRound, Arena.release_of_get? hget]
  exact if_pos rfl

theorem follow_round (handle : Handle) (count : Nat) :
    (afterRounds handle count : Session α).follow (round (count + 1)) =
    afterRounds handle (count + 1) := by
  rw [round, follow_cons, ask_atEnd_afterRounds, follow_cons, follow_nil]
  simp only [ask_call, outcome?, handle?_duringRound, Option.getD_some, Handle.place,
    release_duringRound]
  simp [duringRound, afterRounds, UInt32.ofNat_add, List.replicate_succ']

theorem follow_rounds (handle : Handle) (count : Nat) :
    (afterRounds handle 0 : Session α).follow ((List.range count).flatMap fun i => round (i + 1)) =
      afterRounds handle count := by
  induction count with
  | zero => rfl
  | succ count ih =>
    rw [List.range_succ, List.flatMap_append, follow_append, ih, List.flatMap_singleton]
    exact follow_round handle count

/-- A position is held on `a`, and the tracker is cleared. After 2 ^ 32 - 1 rounds its slot has been
    returned 2 ^ 32 times. The next position gets the key of the old one, which is valid again, and
    takes its slot along when it is dropped. -/
theorem let_again_of_rounds : ∃ handle q,
    let s := (⟨⟨0, ['a'], {}⟩, []⟩ : Session Char).ask (.call (.position 0))
    let later := s.follow ([.clear] ++ (List.range 4294967295).flatMap (fun i => round (i + 1)) ++
      [.call .atEnd])
    s.handle? 0 = some handle ∧ later.handle? 0 = some handle ∧
    later.handle? 4294967296 = some (.position q) ∧ later.tracker.state handle.place = ⟨0, true⟩ ∧
    later.tracker.livePositions = 1 ∧ later.tracker.state q = ⟨0, true⟩ ∧
    ∃ dropped, later.call? (.drop 0) = some dropped ∧ dropped.tracker.livePositions = 0 ∧
      dropped.tracker.state q = .lost := by
  let lost : Handle := .position ⟨some 0, ⟨0, 0⟩⟩
  refine ⟨lost, ⟨some 0, ⟨0, 0⟩⟩, ?_⟩
  intro s later
  have hstart : s.follow [.clear] = afterRounds lost 0 := rfl
  have hgeneration : UInt32.ofNat (4294967295 + 1) = 0 := rfl
  have hlater : later = duringRound lost 4294967295 0 := by
    change s.follow _ = _
    rw [follow_append, follow_append, hstart, follow_rounds]
    rw [follow_cons, follow_nil, ask_atEnd_afterRounds, hgeneration]
  rw [hlater]
  exact ⟨rfl, rfl, handle?_duringRound lost 4294967295 0, rfl, rfl, rfl, _, rfl, rfl, rfl⟩

end Session

end Taskdown
