import Taskdown.Proofs.Tracker.Freshness
import Taskdown.Tracker.Registry

/-!
# Copies of positions

The copy of a position gets a slot of its own with the state that the original finds in its slot. A
request changes all occupied slots alike (`Session.Turn.exists_change`), and a slot that has been
taken away is not given back as long as it is fresh, so the two go on to say the same, until both
are lost (`Session.Keeps.get?_follow_eq`). A tracker cannot tell them apart then, as it looks at
nothing but the owner of a position and at what the position says
(`Tracker.interchangeable_of_owns`).

The copy of a position that has lost its slot says the same as the original, too: nothing. But it
belongs to no tracker, and so it is refused where the original is not
(`Session.copies_are_interchangeable`).
-/

namespace Taskdown

variable {α : Type}

namespace Session

variable {s s' : Session α} {r : Request α} {n : Nat}

/-! ## Two handles in step -/

/-- A request does the same to all handles that hold their slots, unless it moves them. -/
theorem Turn.exists_change (h : s.Turn r s') (hs : s.Sound) :
    ∃ f : PositionState → Option PositionState, ∀ m a st, s.handle? m = some a → ¬ r.Moves m →
    s.Fresh a.place.key.slot → s.tracker.Holds a.place st →
      s'.tracker.arena.get? a.place.key = f st := by
  -- A handle that is dropped has another key.
  have hne : ∀ {k m a b}, s.handle? m = some a → s.handle? k = some b → m ≠ k →
      s.Fresh a.place.key.slot → s.tracker.owns a.place → s.tracker.owns b.place →
      a.place.key ≠ b.place.key := by
    intro k m a b hm hk hmk hi ha hb hkey
    exact hmk (hi.apart m k a b hm hk ha hb rfl hkey)
  cases h with
  | edit ht =>
    obtain ⟨-, f, harena⟩ := ht
    refine ⟨fun st => some (f st), fun m a st hm hr hi hh => ?_⟩
    have hget : (s.tracker.arena.mapStates f).get? a.place.key = some (f st) := by
      rw [Arena.get?_mapStates, hh.2]
      rfl
    exact harena ▸ hget
  | clear => exact ⟨fun _ => none, fun m a st hm hr hi hh => Arena.get?_detachAll _ _⟩
  | register handle hplace new =>
    exact ⟨some, fun m a st hm hr hi hh => (hh.registerState hs.arena new).2⟩
  | copy key => exact ⟨some, fun m a st hm hr hi hh => hh.2⟩
  | @drop k b hk =>
    refine ⟨some, fun m a st hm hr hi hh => ?_⟩
    cases hb : s.tracker.owns b.place with
    | false =>
      rw [Tracker.release, hb]
      exact hh.2
    | true => exact (hh.release hb (hne hm hk (fun e => hr e.symm) hi hh.1 hb)).2
  | @visit k c hk ho index =>
    refine ⟨some, fun m a st hm hr hi hh => ?_⟩
    have hkey := hne hm (handle?_of_cursor? hk) (fun e => hr e.symm) hi hh.1 ho
    have hh' := (hh.registerState hs.arena ⟨index + 1, true⟩).release (q := c.next) ho hkey
    exact (hh'.registerState (Tracker.sound_release (hs.arena.register _) _) ⟨index, true⟩).2

/-- A handle that has lost its slot does not get it back. -/
theorem get?_eq_none_ask {key : SlotKey} (hgiven : s.tracker.arena.Given key)
    (hnone : s.tracker.arena.get? key = none)
    (h : (s.tracker.arena.generationAt key.slot).toNat + s.returned key.slot r < 4294967296) :
    (s.ask r).tracker.arena.get? key = none :=
  Arena.get?_eq_none_of_lt (UInt32.lt_of_lt_of_le (hgiven.lt_of_get?_eq_none hnone)
    (generationAt_le_ask h))

/-- The handle has been let a slot, which some requests do not return too often, and which they
    leave to it. -/
structure Keeps (s : Session α) (requests : List (Request α)) (number : Nat) (a : Handle) :
    Prop where
  held : s.handle? number = some a
  owns : s.tracker.owns a.place
  fresh : s.Fresh a.place.key.slot
  few : (s.tracker.arena.generationAt a.place.key.slot).toNat + s.returns a.place.key.slot
    requests < 4294967296
  stays : ∀ r ∈ requests, ¬ r.Moves number

/-- A handle that is held in the course of a run from the start, and that has been let a slot which
    the whole run does not return too often. -/
theorem keeps_of_returns {id : Nat} {items : List α} {before requests : List (Request α)}
    {m : Nat} {a : Handle} (hs : s = (⟨{ id, items }, []⟩ : Session α).follow before)
    (hm : s.handle? m = some a) (ho : s.tracker.owns a.place)
    (hfew : (⟨{ id, items }, []⟩ : Session α).returns a.place.key.slot (before ++ requests) <
      4294967296)
    (hr : ∀ r ∈ requests, ¬ r.Moves m) : s.Keeps requests m a := by
  obtain ⟨hfresh, hcount⟩ := fresh_of_returns id items before requests hfew
  rw [← hs] at hfresh hcount
  exact ⟨hm, ho, hfresh, hcount, hr⟩

theorem Keeps.few_head {requests : List (Request α)} {m : Nat} {a : Handle}
    (h : s.Keeps (r :: requests) m a) :
    (s.tracker.arena.generationAt a.place.key.slot).toNat + s.returned a.place.key.slot r <
    4294967296 := by
  have hfew := h.few
  rw [returns, ← Nat.add_assoc] at hfew
  exact Nat.lt_of_le_of_lt (Nat.le_add_right _ _) hfew

theorem Keeps.ask {requests : List (Request α)} {m : Nat} {a : Handle}
    (h : s.Keeps (r :: requests) m a) (hs : s.Sound) : (s.ask r).Keeps requests m a where
  held := handle?_ask h.held (h.stays r List.mem_cons_self)
  owns := by
    rw [Tracker.owns_congr (s.turn_ask r).id_eq]
    exact h.owns
  fresh := (s.turn_ask r).fresh hs h.fresh (generationAt_le_ask h.few_head)
  few := by
    have hfew := h.few
    rw [returns, ← Nat.add_assoc] at hfew
    exact toNat_generationAt_ask h.few_head ▸ hfew
  stays r' hr' := h.stays r' (List.mem_cons_of_mem r hr')

theorem Keeps.get?_ask_of_none {requests : List (Request α)} {m : Nat} {a : Handle}
    (h : s.Keeps (r :: requests) m a) (hnone : s.tracker.arena.get? a.place.key = none) :
    (s.ask r).tracker.arena.get? a.place.key = none :=
  get?_eq_none_ask (h.fresh.given m a h.held h.owns rfl) hnone h.few_head

theorem Keeps.get?_follow_of_none {requests : List (Request α)} {m : Nat} {a : Handle}
    (h : s.Keeps requests m a) (hs : s.Sound) (hnone : s.tracker.arena.get? a.place.key = none) :
    (s.follow requests).tracker.arena.get? a.place.key = none := by
  induction requests generalizing s with
  | nil => exact hnone
  | cons r requests ih => exact ih (h.ask hs) ((s.turn_ask r).sound hs) (h.get?_ask_of_none hnone)

/-- Two handles that find the same in their slots go on so: every request does the same to both, and
    when they are lost they stay lost. -/
theorem Keeps.get?_follow_eq {requests : List (Request α)} {k m : Nat} {a b : Handle}
    (ha : s.Keeps requests k a) (hb : s.Keeps requests m b) (hs : s.Sound)
    (heq : s.tracker.arena.get? a.place.key = s.tracker.arena.get? b.place.key) :
    (s.follow requests).tracker.arena.get? a.place.key =
    (s.follow requests).tracker.arena.get? b.place.key := by
  induction requests generalizing s with
  | nil => exact heq
  | cons r requests ih =>
    refine ih (ha.ask hs) (hb.ask hs) ((s.turn_ask r).sound hs) ?_
    cases hget : s.tracker.arena.get? a.place.key with
    | none => rw [ha.get?_ask_of_none hget, hb.get?_ask_of_none (heq ▸ hget)]
    | some st =>
      obtain ⟨f, hf⟩ := (s.turn_ask r).exists_change hs
      rw [hf k a st ha.held (ha.stays r List.mem_cons_self) ha.fresh ⟨ha.owns, hget⟩,
        hf m b st hb.held (hb.stays r List.mem_cons_self) hb.fresh ⟨hb.owns, heq ▸ hget⟩]

end Session

/-! ## Positions in place of each other -/

/-- Two positions say the same, and calls that are given one do what they do when they are given the
    other. -/
structure Tracker.Interchangeable (t : Tracker α) (p q : Position) : Prop where
  state : t.state p = t.state q
  element : t.element? p = t.element? q
  insertBefore : ∀ value, t.insertBefore p value = t.insertBefore q value
  removeAt : t.removeAt p = t.removeAt q

namespace Tracker

variable {t : Tracker α} {p q : Position}

theorem interchangeable_of_owns (howns : t.owns p = t.owns q) (hstate : t.state p = t.state q) :
    t.Interchangeable p q := by
  have hcheck : t.checkOwns p = t.checkOwns q := by rw [checkOwns, checkOwns, howns]
  have hindex : t.validIndex? p = t.validIndex? q := by rw [validIndex?, validIndex?, hstate]
  refine ⟨hstate, ?_, fun value => ?_, ?_⟩
  · rw [element?, element?, hcheck, hindex]
  · rw [insertBefore, insertBefore, hcheck, hstate]
  · rw [removeAt, removeAt, hcheck, hindex]

theorem state_of_not_owns (h : t.owns p = false) : t.state p = .lost := by
  rw [state, h]
  rfl

/-- Two positions with one owner that say the same in its tracker `t` say the same, and can be used
    in place of each other, in every other tracker too, in which they cannot be used. -/
theorem interchangeable_of_owner {u : Tracker α} (heq : q.owner = p.owner)
    (hp : p.owner = some t.id ∨ p.owner = none) (hstate : t.state p = t.state q)
    (hu : u = t ∨ u.id ≠ t.id) : u.Interchangeable p q := by
  have hsame : u.owns p = u.owns q := by rw [owns, owns, heq]
  refine interchangeable_of_owns hsame ?_
  rcases hu with rfl | hu
  · exact hstate
  · have hnot : u.owns p = false := by
      refine decide_eq_false fun ho => ?_
      rcases hp with hp | hp
      · exact hu (Option.some.inj (ho.symm.trans hp))
      · cases ho.symm.trans hp
    rw [state_of_not_owns hnot, state_of_not_owns (hsame ▸ hnot)]

theorem get?_eq_none_of_not_holds (h : ∀ st, ¬ t.Holds p st) (ho : t.owns p) :
    t.arena.get? p.key = none :=
  Option.eq_none_iff_forall_ne_some.2 fun st hst => h st ⟨ho, hst⟩

/-- Positions that belong to another tracker, or to none, cannot be used. -/
structure Refuses (t : Tracker α) (p : Position) : Prop where
  element : t.element? p = .error .foreignPosition
  insertBefore : ∀ value, t.insertBefore p value = .error .foreignPosition
  removeAt : t.removeAt p = .error .foreignPosition

theorem refuses_iff : t.Refuses p ↔ t.owns p = false := by
  constructor
  · intro h
    have helement := h.element
    rw [element?, checkOwns] at helement
    split at helement
    · cases helement
    · next ho => exact Bool.eq_false_iff.2 ho
  · intro h
    have hcheck : t.checkOwns p = .error .foreignPosition := by rw [checkOwns, h]; rfl
    refine ⟨?_, fun value => ?_, ?_⟩
    · rw [element?, hcheck]
      rfl
    · rw [insertBefore, hcheck]
      rfl
    · rw [removeAt, hcheck]
      rfl

theorem state_release (h : t.owns p → t.owns q → p.key ≠ q.key) :
    (t.release q).state p = t.state p := by
  cases hq : t.owns q with
  | false => rw [release, hq]; rfl
  | true =>
    rw [release_of_owns hq]
    change (if t.owns p then _ else _) = if t.owns p then _ else _
    cases hp : t.owns p with
    | false => rfl
    | true =>
      simp only [if_true]
      rw [Arena.get?_release, if_neg (h hp hq)]

end Tracker

/-- In a registry a position says what it says in its tracker, unless the tracker has been
    dropped. -/
theorem Registry.state_eq {registry : Registry α} {t : Tracker α} {p : Position}
    (hp : p.owner = some t.id ∨ p.owner = none)
    (ht : registry.get? t.id = some t ∨ registry.get? t.id = none) :
    registry.state p = if (registry.get? t.id).isSome then t.state p else .lost := by
  rcases hp with hp | hp
  · rcases ht with ht | ht
    · rw [state, owner?, hp, Option.bind_some, ht]
      rfl
    · rw [state, owner?, hp, Option.bind_some, ht]
      rfl
  · have hlost : t.state p = .lost := Tracker.state_of_not_owns (by rw [Tracker.owns, hp]; rfl)
    rw [state, owner?, hp, hlost, ite_self]
    rfl

namespace Session

variable {s : Session α} {number : Nat} {p q : Position}

/-- When the handle with one number is dropped, the position with another number is held as before,
    and says the same. -/
def DropSpares (s : Session α) (number other : Nat) : Prop :=
  ∃ dropped p, s.call? (.drop number) = some dropped ∧ s.position? other = some p ∧
    dropped.position? other = some p ∧ dropped.tracker.state p = s.tracker.state p ∧
    dropped.tracker.owns p = s.tracker.owns p

theorem dropSpares_of_key_ne {k m : Nat} (hp : s.position? k = some p) (hq : s.position? m = some q)
    (hmk : m ≠ k) (hkey : s.tracker.owns q → s.tracker.owns p → q.key ≠ p.key) :
    s.DropSpares k m := by
  have hk := handle?_of_position? hp
  have hdrop : s.call? (.drop k) = some ⟨s.tracker.release p, s.handles.set k none⟩ := by
    rw [call?_eq, outcome?, hk]
    rfl
  refine ⟨_, q, hdrop, hq, position?_of_handle? ?_, Tracker.state_release hkey,
    Tracker.owns_congr (s.tracker.id_release p) q⟩
  rw [handle?_set hk, if_neg hmk]
  exact handle?_of_position? hq

/-- What a copy `q` of a position has in common with it when it is made: the copy of a position that
    has its slot gets a slot of its own, in which it finds the same, and the copy of any other
    position belongs to no tracker. -/
inductive Copied (t t' : Tracker α) (p q : Position) : Prop
  | held (st : PositionState) (hh : t.Holds p st) (hp : t'.Holds p st) (hq : t'.Holds q st)
      (hne : p.key ≠ q.key)
  | lost (hnot : ∀ st, ¬ t.Holds p st) (ht : t' = t) (hq : q = ⟨none, p.key⟩)

theorem ask_copy (hs : s.Sound) (hp : s.position? number = some p) : ∃ q t,
    s.ask (.call (.copy number)) = s.hold (.position q) t ∧ t.id = s.tracker.id ∧
    Copied s.tracker t p q := by
  have hask : s.ask (.call (.copy number)) =
      s.hold (.position (s.tracker.copyPosition p).1) (s.tracker.copyPosition p).2 := by
    rw [ask_call, outcome?, hp]
    rfl
  rcases s.tracker.copyPosition_eq p with ⟨st, hh, hcopy⟩ | ⟨hnot, hcopy⟩
  · rw [hcopy] at hask
    exact ⟨_, _, hask, rfl,
      .held st hh (hh.registerState hs.arena st) (Tracker.holds_registerState hs.arena st)
        (hh.key_ne hs.arena st)⟩
  · rw [hcopy] at hask
    exact ⟨_, _, hask, rfl, .lost hnot rfl rfl⟩

/-- The copy has the owner of the original, unless the original has lost its slot. -/
theorem Copied.owner_eq_iff {t t' : Tracker α} (h : Copied t t' p q) (hid : t'.id = t.id)
    (howner : p.owner = some t.id ∨ p.owner = none) :
    q.owner = p.owner ↔ ¬ (t.owns p ∧ t.arena.get? p.key = none) := by
  cases h with
  | held st hh hp hq hne =>
    have howner' : q.owner = p.owner := by
      rw [of_decide_eq_true hh.1, of_decide_eq_true hq.1, hid]
    refine iff_of_true howner' fun hlost => ?_
    rw [hh.2] at hlost
    cases hlost.2
  | lost hnot ht hq =>
    rw [hq]
    rcases howner with howner | howner
    · have ho : t.owns p := decide_eq_true howner
      rw [howner]
      exact iff_of_false nofun fun h => h ⟨ho, Tracker.get?_eq_none_of_not_holds hnot ho⟩
    · have ho : ¬ t.owns p := by
        rw [Tracker.owns, howner]
        exact Bool.false_ne_true
      exact iff_of_true howner.symm fun h => ho h.1

/-- A position and its copy are told apart by the tracker. -/
theorem Copied.key_ne {t t' : Tracker α} (h : Copied t t' p q) (ho : t'.owns q) :
    p.key ≠ q.key := by
  cases h with
  | held st hh hp hq hne => exact hne
  | lost hnot ht hq =>
    rw [hq] at ho
    exact nomatch of_decide_eq_true ho

/-- As long as none of their slots is returned too often, a position and its copy say the same. -/
theorem Copied.state_follow_eq {t : Tracker α} {requests : List (Request α)} {m : Nat}
    (h : Copied t s.tracker p q) (hs : s.Sound)
    (hp : s.tracker.owns p → s.Keeps requests number (.position p))
    (hq : s.tracker.owns q → s.Keeps requests m (.position q)) :
    (s.follow requests).tracker.state p = (s.follow requests).tracker.state q := by
  have howns := Tracker.owns_congr (s.returns_follow requests).id_eq
  -- Either they find the same in slots of their own, or neither finds anything.
  cases h with
  | held st hh hhp hhq hne =>
    have hget := (hp hhp.1).get?_follow_eq (hq hhq.1) hs (hhp.2.trans hhq.2.symm)
    rw [Tracker.state, Tracker.state, howns, howns, hhp.1, hhq.1]
    exact congrArg (fun st => if true = true then Option.getD st .lost else .lost) hget
  | lost hnot ht hq =>
    have hq' : (s.follow requests).tracker.state q = .lost :=
      Tracker.state_of_not_owns (by rw [hq]; rfl)
    rw [hq']
    cases ho : s.tracker.owns p with
    | false => exact Tracker.state_of_not_owns ((howns p).trans ho)
    | true =>
      have hnone := Tracker.get?_eq_none_of_not_holds (ht ▸ hnot) ho
      exact Tracker.state_of_get?_eq_none ((hp ho).get?_follow_of_none hs hnone)

/-- A position that is held in whatever state a tracker can get into, by calls and by clearings, is
    copied, and neither the position nor the copy is dropped among whatever is asked of the tracker
    later on. Both are still held then, and dropping one of them leaves the other as it is. Up to 2
    ^ 32 returns of their slots
    * the two say the same, also when the tracker is gone;
    * if they have one owner, every call does the same with the copy that it does with the original,
      in this tracker and in all others.

    They have one owner unless the original had lost its slot when it was copied. In that case the
    tracker refuses the copy, but not the original. -/
theorem copies_are_interchangeable {id : Nat} {items : List α} {before requests : List (Request α)}
    (hs : s = (⟨{ id, items }, []⟩ : Session α).follow before) (hp : s.position? number = some p)
    (hr : ∀ r ∈ requests, ¬ r.Moves number ∧ ¬ r.Moves s.handles.length) :
    let start : Session α := ⟨{ id, items }, []⟩
    let run := before ++ .call (.copy number) :: requests
    let later := start.follow run
    ∃ q, later.position? number = some p ∧ later.position? s.handles.length = some q ∧
      later.DropSpares number s.handles.length ∧ later.DropSpares s.handles.length number ∧
      (start.returns p.key.slot run < 4294967296 → start.returns q.key.slot run < 4294967296 →
        later.tracker.state p = later.tracker.state q ∧
        (∀ registry : Registry α, registry.get? id = some later.tracker ∨ registry.get? id = none →
          registry.state p = registry.state q) ∧
        (q.owner = p.owner → ∀ t : Tracker α, t = later.tracker ∨ t.id ≠ id →
        t.Interchangeable p q)) ∧
      (q.owner = p.owner ↔ ¬ (s.tracker.owns p ∧ s.tracker.arena.get? p.key = none)) ∧
      (q.owner ≠ p.owner → later.tracker.Refuses q ∧ ¬ later.tracker.Refuses p) := by
  intro start run later
  have hstart : start.Sound := sound_of_isEmpty id items
  have hsound : s.Sound := hs ▸ hstart.follow before
  have hsid : s.tracker.id = id := hs ▸ (returns_follow start before).id_eq
  obtain ⟨q, t, hask, hid, hcopied⟩ := ask_copy hsound hp
  have hcopy : start.follow (before ++ [.call (.copy number)]) = s.hold (.position q) t := by
    rw [follow_append, ← hs]
    exact hask
  have hrun : run = before ++ [.call (.copy number)] ++ requests :=
    (List.append_assoc before [.call (.copy number)] requests).symm
  have hlater : later = (s.hold (.position q) t).follow requests := by
    rw [← hcopy, ← follow_append, ← hrun]
  have hsound' : (s.hold (.position q) t).Sound := hask ▸ (s.turn_ask _).sound hsound
  have hlid : later.tracker.id = id := (returns_follow start run).id_eq
  have howns : ∀ o, later.tracker.owns o = t.owns o :=
    Tracker.owns_congr (hlid.trans (hid.trans hsid).symm)
  -- Both are held, and go on to be.
  have hnumber := handle?_of_position? hp
  have hlength : number ≠ s.handles.length := Nat.ne_of_lt (lt_length_of_handle? hnumber)
  have hp' : (s.hold (.position q) t).handle? number = some (.position p) :=
    handle?_hold.2 (.inl hnumber)
  have hq' : (s.hold (.position q) t).handle? s.handles.length = some (.position q) :=
    handle?_hold.2 (.inr ⟨rfl, rfl⟩)
  have hlp : later.position? number = some p :=
    position?_of_handle? (hlater ▸ handle?_follow hp' fun r h => (hr r h).1)
  have hlq : later.position? s.handles.length = some q :=
    position?_of_handle? (hlater ▸ handle?_follow hq' fun r h => (hr r h).2)
  have howner : p.owner = some later.tracker.id ∨ p.owner = none :=
    hlid ▸ hsid ▸ hsound.owner _ _ hnumber
  have howner' : q.owner = some later.tracker.id ∨ q.owner = none :=
    hlid ▸ hsid ▸ hid ▸ hsound'.owner _ _ hq'
  have hstate : start.returns p.key.slot run < 4294967296 →
      start.returns q.key.slot run < 4294967296 →
      later.tracker.state p = later.tracker.state q := by
    intro hfewp hfewq
    rw [hrun] at hfewp hfewq
    rw [hlater]
    exact hcopied.state_follow_eq hsound'
      (fun ho => keeps_of_returns hcopy.symm hp' ho hfewp fun r h => (hr r h).1)
      (fun ho => keeps_of_returns hcopy.symm hq' ho hfewq fun r h => (hr r h).2)
  have howner_iff := hcopied.owner_eq_iff hid (hsid ▸ hlid ▸ howner)
  refine ⟨q, hlp, hlq, ?_, ?_, fun hfewp hfewq => ⟨hstate hfewp hfewq, fun registry hregistry => ?_,
    fun heq u hu => ?_⟩, howner_iff, fun hne => ?_⟩
  · exact dropSpares_of_key_ne hlp hlq hlength.symm fun ho _ =>
      (hcopied.key_ne ((howns q).symm.trans ho)).symm
  · exact dropSpares_of_key_ne hlq hlp hlength fun _ ho => hcopied.key_ne ((howns q).symm.trans ho)
  · rw [← hlid] at hregistry
    rw [Registry.state_eq howner hregistry, Registry.state_eq howner' hregistry, hstate hfewp hfewq]
  · exact Tracker.interchangeable_of_owner heq howner (hstate hfewp hfewq) (hlid.symm ▸ hu)
  · obtain ⟨ho, -⟩ := Decidable.not_not.1 (mt howner_iff.2 hne)
    have hq : q.owner = none := howner'.resolve_left fun h => by
      refine hne (h.trans ?_)
      rw [of_decide_eq_true ho, hsid, hlid]
    rw [Tracker.refuses_iff, Tracker.refuses_iff, howns, howns, Tracker.owns_congr hid p,
      ho, Tracker.owns, hq]
    exact ⟨rfl, Bool.false_ne_true.symm⟩

/-- A tracker is cleared, and a position is made again. Its copy and itself move on together when an
    element is inserted before them, and the element is found with both. -/
theorem copies_are_interchangeable_of_reused : ∃ p q,
    let start : Session Char := ⟨{ id := 0, items := ['a'] }, []⟩
    let before : List (Request Char) :=
      [.call (.position 0), .clear, .call (.add 'b'), .call (.position 0)]
    let later := start.follow (before ++ .call (.copy 1) :: [.call (.insert 0 'c')])
    (start.follow before).position? 1 = some p ∧ p.key = ⟨0, 1⟩ ∧
    later.position? 1 = some p ∧ later.position? 2 = some q ∧ later.DropSpares 1 2 ∧
    later.DropSpares 2 1 ∧ later.tracker.Interchangeable p q ∧ later.tracker.state q = ⟨1, true⟩ ∧
    later.tracker.element? q = .ok (some 'b') := by
  let before : List (Request Char) :=
    [.call (.position 0), .clear, .call (.add 'b'), .call (.position 0)]
  have hp : ((⟨{ id := 0, items := ['a'] }, []⟩ : Session Char).follow before).position? 1 =
      some ⟨some 0, ⟨0, 1⟩⟩ := rfl
  have hr : ∀ r ∈ [Request.call (.insert 0 'c')], ¬ r.Moves 1 ∧ ¬ r.Moves 2 := by
    simp [Request.Moves]
  obtain ⟨q, hlp, hlq, hspares, hspares', hsame, -⟩ := copies_are_interchangeable rfl hp hr
  obtain rfl : ⟨some 0, ⟨1, 0⟩⟩ = q := Option.some.inj hlq
  have hinterchangeable := (hsame (by decide) (by decide)).2.2 rfl _ (.inl rfl)
  exact ⟨_, _, hp, rfl, hlp, hlq, hspares, hspares', hinterchangeable, rfl, rfl⟩

/-- A position is held on `a`, and the tracker is cleared. A copy that is made now says what the
    position says, but it is refused where the position is not. -/
theorem copy_of_lost_is_refused : ∃ p q,
    let start : Session Char := ⟨{ id := 0, items := ['a'] }, []⟩
    let s := start.follow [.call (.position 0), .clear]
    let t := (s.ask (.call (.copy 0))).tracker
    s.position? 0 = some p ∧ (s.ask (.call (.copy 0))).position? 1 = some q ∧
    t.state p = t.state q ∧ t.element? p = .ok none ∧ t.element? q = .error .foreignPosition ∧
    t.removeAt p = .ok none ∧ t.removeAt q = .error .foreignPosition ∧
    t.insertBefore p 'b' = .ok (t.insert 0 'b') ∧ t.insertBefore q 'b' = .error .foreignPosition :=
  ⟨⟨some 0, ⟨0, 0⟩⟩, ⟨none, ⟨0, 0⟩⟩, rfl, rfl, rfl, rfl, rfl, rfl, rfl, rfl, rfl⟩

end Session

end Taskdown
