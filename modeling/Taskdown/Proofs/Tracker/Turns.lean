import Taskdown.Proofs.Tracker.Clearing

/-!
# What a request can do

Beside the calls of a session a tracker may be emptied. Clearing leaves everything held that was
held, so a session goes on with handles that have lost their slots, and with copies of them, which
belong to no tracker. Of such a session it is not true that every handle holds a slot, and so it has
no history with a ledger.

What a request can do to it is one of six things (`Session.Turn`, `Session.turn_ask`). Each of them
leaves all handles as they are but the one that it drops or takes a step on
(`Session.Turn.handle?_eq`), and keeps the arena sound and every handle with the tracker or with
none (`Session.Turn.sound`).
-/

namespace Taskdown

variable {α : Type}

/-! ## Edits -/

namespace Tracker

variable {t t' : Tracker α} {p : Position}

/-- One tracker has become the other by changing elements, so that the states of the positions have
    been renumbered. -/
def Edits (t t' : Tracker α) : Prop := t'.id = t.id ∧ ∃ f, t'.arena = t.arena.mapStates f

theorem edits_of_arena (hid : t'.id = t.id) (h : t'.arena = t.arena) : t.Edits t' :=
  ⟨hid, fun st => st, h.trans (Arena.mapStates_eq_self (fun _ => rfl) _).symm⟩

theorem Edits.refl (t : Tracker α) : t.Edits t := edits_of_arena rfl rfl

theorem edits_splice (t : Tracker α) (index : Nat) (values : List α) :
    t.Edits (t.splice index values) :=
  ⟨rfl, _, t.arena_splice index values⟩

theorem edits_cut (t : Tracker α) (start stop : Nat) : t.Edits (t.cut start stop).2 :=
  ⟨rfl, _, t.arena_cut start stop⟩

theorem edits_insertAll {index : Nat} {values : List α}
    (h : (t.insertAll index values).toOption = some t') : t.Edits t' := by
  rw [insertAll] at h
  split at h
  · cases h
  · cases h
    exact t.edits_splice index values

theorem edits_remove {index : Nat} {value : α} (h : (t.remove index).toOption = some (value, t')) :
    t.Edits t' := by
  rw [remove] at h
  split at h
  · cases h
    exact t.edits_cut index (index + 1)
  · cases h

theorem edits_removeRange {start stop : Nat} {values : List α}
    (h : (t.removeRange start stop).toOption = some (values, t')) : t.Edits t' := by
  rw [removeRange] at h
  split at h
  · cases h
  · cases h
    exact t.edits_cut start stop

theorem edits_exchange {index : Nat} {value old : α}
    (h : (t.exchange index value).toOption = some (old, t')) : t.Edits t' := by
  rw [exchange] at h
  split at h
  · cases h
    exact edits_of_arena rfl rfl
  · cases h

theorem edits_set {index : Nat} {value : α} {old : Option α}
    (h : (t.set index value).toOption = some (old, t')) : t.Edits t' := by
  rw [set] at h
  split at h
  · cases h
    exact edits_of_arena rfl rfl
  · split at h
    · cases h
      exact t.edits_splice _ _
    · cases h

theorem edits_insertBefore {value : α}
    (h : (t.insertBefore p value).toOption.bind Except.toOption = some t') : t.Edits t' := by
  rw [insertBefore, checkOwns] at h
  split at h
  · exact edits_insertAll h
  · cases h

theorem edits_removeAt {value : α} (h : (t.removeAt p).toOption = some (some (value, t'))) :
    t.Edits t' := by
  rw [removeAt, checkOwns] at h
  split at h
  · obtain ⟨index, -, hremove⟩ := Option.bind_eq_some_iff.1 (Option.some.inj h)
    exact edits_remove hremove
  · cases h

/-- A step of a cursor registers the next place, returns the old one, and registers the element that
    is visited. -/
theorem advance_eq (t : Tracker α) (c : Cursor) : t.advance c =
    if t.owns c.next then
      .ok (if t.length ≤ (t.state c.next).index then none
        else
          let next := t.register ((t.state c.next).index + 1)
          let here := (next.2.release c.next).register (t.state c.next).index
          some (here.1, ⟨next.1⟩, here.2))
    else .error .foreignPosition := by
  rw [advance, checkOwns]
  split
  · by_cases hle : t.length ≤ (t.state c.next).index
    · rw [if_pos hle, if_pos hle]
      rfl
    · rw [if_neg hle, if_neg hle]
      rfl
  · rfl

/-- The copy of a position that has its slot gets a slot with the same state; any other copy belongs
    to no tracker. -/
theorem copyPosition_eq (t : Tracker α) (p : Position) :
    (∃ st, t.Holds p st ∧ t.copyPosition p = t.registerState st) ∨
      (∀ st, ¬ t.Holds p st) ∧ t.copyPosition p = (⟨none, p.key⟩, t) := by
  rw [copyPosition]
  split
  · next st hst =>
    split at hst
    · next ho => exact .inl ⟨st, ⟨ho, hst⟩, rfl⟩
    · cases hst
  · next hnone =>
    refine .inr ⟨fun st hh => ?_, rfl⟩
    rw [if_pos hh.1, hh.2] at hnone
    cases hnone

end Tracker

/-! ## Requests -/

/-- What may be asked of a tracker, emptying it included. -/
inductive Request (α : Type) where
  | call (c : Call α)
  | clear
deriving Repr

/-- Does a request drop a handle, or take it a step on? -/
def Request.Moves (number : Nat) : Request α → Prop
  | .call (.drop n) => n = number
  | .call (.next n) => n = number
  | _ => False

namespace Session

variable {s s' : Session α} {r : Request α} {number : Nat} {handle : Handle}

/-- The session that a request leaves behind. Clearing leaves everything held. -/
def ask (s : Session α) : Request α → Session α
  | .call c => s.after c
  | .clear => s.keep s.tracker.clear

/-- A call that fails changes nothing. -/
theorem ask_call (s : Session α) (c : Call α) : s.ask (.call c) = (s.outcome? c).getD s :=
  s.after_eq c

/-- The session after some requests. -/
def follow (s : Session α) (requests : List (Request α)) : Session α := requests.foldl ask s

@[simp] theorem follow_nil (s : Session α) : s.follow [] = s := rfl

@[simp] theorem follow_cons (s : Session α) (r : Request α) (requests : List (Request α)) :
    s.follow (r :: requests) = (s.ask r).follow requests := rfl

theorem follow_append (s : Session α) (requests more : List (Request α)) :
    s.follow (requests ++ more) = (s.follow requests).follow more := List.foldl_append

/-! ## Turns -/

/-- The session after a step of the cursor with a number, which has visited the element at
    `index`. -/
def visited (s : Session α) (number index : Nat) (c : Cursor) : Session α :=
  let next := s.tracker.register (index + 1)
  let here := (next.2.release c.next).register index
  (⟨here.2, s.handles.set number (some (.cursor ⟨next.1⟩))⟩ : Session α).hold (.position here.1)
    here.2

/-- What a request can do to a session. -/
inductive Turn (s : Session α) : Request α → Session α → Prop
  | edit {r : Request α} {t : Tracker α} (ht : s.tracker.Edits t) : Turn s r (s.keep t)
  | clear : Turn s .clear (s.keep s.tracker.clear)
  | register {r : Request α} (handle : Position → Handle) (hplace : ∀ p, (handle p).place = p)
    (st : PositionState) :
    Turn s r (s.hold (handle (s.tracker.registerState st).1) (s.tracker.registerState st).2)
  | copy {r : Request α} (key : SlotKey) : Turn s r (s.hold (.position ⟨none, key⟩) s.tracker)
  | drop {number : Nat} {handle : Handle} (hn : s.handle? number = some handle) :
    Turn s (.call (.drop number)) ⟨s.tracker.release handle.place, s.handles.set number none⟩
  | visit {number : Nat} {c : Cursor} (hn : s.cursor? number = some c) (ho : s.tracker.owns c.next)
      (index : Nat) : Turn s (.call (.next number)) (s.visited number index c)

theorem Turn.stay (s : Session α) (r : Request α) : s.Turn r s := .edit (.refl s.tracker)

theorem turn_of_outcome? {c : Call α} (hc : s.outcome? c = some s') : s.Turn (.call c) s' := by
  have hregister (st : PositionState) :
      s.Turn (.call c) (s.hold (.position (s.tracker.registerState st).1)
        (s.tracker.registerState st).2) :=
    .register .position (fun _ => rfl) st
  cases c with
  | first | atEnd =>
    obtain rfl := Option.some.inj hc
    exact hregister _
  | cursor =>
    obtain rfl := Option.some.inj hc
    exact .register (fun p => .cursor ⟨p⟩) (fun _ => rfl) _
  | position index =>
    obtain ⟨⟨p, t⟩, ht, rfl⟩ := Option.map_eq_some_iff.1 hc
    rw [Tracker.position] at ht
    split at ht
    · cases ht
    · cases ht
      exact hregister _
  | last =>
    obtain ⟨⟨p, t⟩, ht, rfl⟩ := Option.map_eq_some_iff.1 hc
    rw [Tracker.last] at ht
    split at ht
    · cases ht
    · cases ht
      exact hregister _
  | copy n =>
    simp only [outcome?] at hc
    split at hc
    · next p _ =>
      obtain rfl := Option.some.inj hc
      rcases s.tracker.copyPosition_eq p with ⟨st, -, hcopy⟩ | ⟨-, hcopy⟩
      · rw [hcopy]
        exact hregister st
      · rw [hcopy]
        exact .copy p.key
    · obtain rfl := Option.some.inj hc
      exact .stay s _
  | drop n =>
    simp only [outcome?] at hc
    split at hc
    · next handle hn =>
      obtain rfl := Option.some.inj hc
      exact .drop hn
    · obtain rfl := Option.some.inj hc
      exact .stay s _
  | next n =>
    simp only [outcome?] at hc
    split at hc
    · next c hn =>
      rw [Tracker.advance_eq] at hc
      split at hc
      · next ho =>
        split at hc
        · obtain rfl := Option.some.inj hc
          exact .stay s _
        · obtain rfl := Option.some.inj hc
          exact .visit hn ho _
      · cases hc
    · obtain rfl := Option.some.inj hc
      exact .stay s _
  | add value | addAll values =>
    obtain rfl := Option.some.inj hc
    exact .edit (s.tracker.edits_splice _ _)
  | insert index value | insertAll index values =>
    obtain ⟨t, ht, rfl⟩ := Option.map_eq_some_iff.1 hc
    exact .edit (Tracker.edits_insertAll ht)
  | remove index =>
    obtain ⟨⟨value, t⟩, ht, rfl⟩ := Option.map_eq_some_iff.1 hc
    exact .edit (Tracker.edits_remove ht)
  | removeRange start stop =>
    obtain ⟨⟨values, t⟩, ht, rfl⟩ := Option.map_eq_some_iff.1 hc
    exact .edit (Tracker.edits_removeRange ht)
  | set index value =>
    obtain ⟨⟨old, t⟩, ht, rfl⟩ := Option.map_eq_some_iff.1 hc
    exact .edit (Tracker.edits_set ht)
  | exchange index value =>
    obtain ⟨⟨old, t⟩, ht, rfl⟩ := Option.map_eq_some_iff.1 hc
    exact .edit (Tracker.edits_exchange ht)
  | insertBefore argument value =>
    simp only [outcome?] at hc
    split at hc
    · obtain ⟨t, ht, rfl⟩ := Option.map_eq_some_iff.1 hc
      exact .edit (Tracker.edits_insertBefore ht)
    · obtain rfl := Option.some.inj hc
      exact .stay s _
  | removeAt argument =>
    simp only [outcome?] at hc
    split at hc
    · obtain ⟨removed, hremoved, rfl⟩ := Option.map_eq_some_iff.1 hc
      cases removed with
      | none => exact .stay s _
      | some removed => exact .edit (Tracker.edits_removeAt hremoved)
    · obtain rfl := Option.some.inj hc
      exact .stay s _

theorem turn_ask (s : Session α) (r : Request α) : s.Turn r (s.ask r) := by
  cases r with
  | clear => exact .clear
  | call c =>
    rw [ask_call]
    cases hc : s.outcome? c with
    | none => exact .stay s _
    | some s' => exact turn_of_outcome? hc

/-! ### Handles -/

theorem Turn.id_eq (h : s.Turn r s') : s'.tracker.id = s.tracker.id := by
  cases h with
  | edit ht => exact ht.1
  | clear | register | copy => rfl
  | drop hn => exact s.tracker.id_release _
  | visit hn ho index => exact Tracker.id_release ..

/-- A request leaves a handle as it is, unless it drops it or takes it a step on. -/
theorem Turn.handle?_eq (h : s.Turn r s') (hn : s.handle? number = some handle)
    (hr : ¬ r.Moves number) : s'.handle? number = some handle := by
  cases h with
  | edit | clear => exact hn
  | register | copy => exact handle?_hold.2 (.inl hn)
  | drop hm =>
    rw [handle?_set hm, if_neg fun e => hr e.symm]
    exact hn
  | visit hm ho index =>
    refine handle?_hold.2 (.inl ?_)
    rw [handle?_set (handle?_of_cursor? hm), if_neg fun e => hr e.symm]
    exact hn

theorem handle?_ask (hn : s.handle? number = some handle) (hr : ¬ r.Moves number) :
    (s.ask r).handle? number = some handle := (s.turn_ask r).handle?_eq hn hr

theorem handle?_follow {requests : List (Request α)} (hn : s.handle? number = some handle)
    (hr : ∀ r ∈ requests, ¬ r.Moves number) : (s.follow requests).handle? number = some handle := by
  induction requests generalizing s with
  | nil => exact hn
  | cons r requests ih =>
    exact ih (handle?_ask hn (hr r List.mem_cons_self)) fun r' hr' =>
      hr r' (List.mem_cons_of_mem _ hr')

/-! ### Soundness -/

/-- The arena is sound, and every handle belongs to the tracker or to none. -/
structure Sound (s : Session α) : Prop where
  arena : s.tracker.arena.Sound
  owner : ∀ n a, s.handle? n = some a → a.place.owner = some s.tracker.id ∨ a.place.owner = none

theorem sound_of_isEmpty (id : Nat) (items : List α) : Sound ⟨{ id, items }, []⟩ where
  arena := Arena.sound_empty
  owner n a hn := by simp [handle?] at hn

theorem Turn.sound (h : s.Turn r s') (hs : s.Sound) : s'.Sound := by
  have hid := h.id_eq
  cases h with
  | edit ht =>
    obtain ⟨-, f, harena⟩ := ht
    refine ⟨?_, fun n a hn => hid ▸ hs.owner n a hn⟩
    exact harena.symm ▸ hs.arena.mapStates f
  | clear => exact ⟨hs.arena.detachAll, hs.owner⟩
  | register handle hplace st =>
    refine ⟨hs.arena.register st, fun n a hn => ?_⟩
    rcases handle?_hold.1 hn with hn | ⟨-, rfl⟩
    · exact hs.owner n a hn
    · rw [hplace]
      exact .inl rfl
  | copy key =>
    refine ⟨hs.arena, fun n a hn => ?_⟩
    rcases handle?_hold.1 hn with hn | ⟨-, rfl⟩
    · exact hs.owner n a hn
    · exact .inr rfl
  | drop hm =>
    refine ⟨Tracker.sound_release hs.arena _, fun n a hn => ?_⟩
    rw [handle?_set hm] at hn
    split at hn
    · cases hn
    · exact hid ▸ hs.owner n a hn
  | visit hm ho index =>
    refine ⟨(Tracker.sound_release (hs.arena.register _) _).register _, fun n a hn => ?_⟩
    rcases handle?_set_hold (handle?_of_cursor? hm) hn with ⟨-, rfl⟩ | ⟨-, rfl⟩ | ⟨-, hn⟩
    · exact .inl rfl
    · exact .inl (congrArg some hid.symm)
    · exact hid ▸ hs.owner n a hn

theorem Sound.follow (hs : s.Sound) (requests : List (Request α)) : (s.follow requests).Sound := by
  induction requests generalizing s with
  | nil => exact hs
  | cons r requests ih => exact ih ((s.turn_ask r).sound hs)

end Session

end Taskdown
