import Taskdown.Proofs.Tracker.Renumbering

/-!
# What a call can do

The calls of a session are many, but what they do to a history is one of seven things (`Move`). The
invariant `Inv` says how tracker, handles and ledger agree:

* the elements of the list are those of the ledger;
* every handle holds a slot of its own, whose state tells of the site of the handle;
* the arena and the ledger are sound, and as many slots are occupied as handles are held.

Each of the moves keeps it (`Inv.move`).
-/

namespace Taskdown

/-! ## Numbers of handles -/

namespace Session

variable {α : Type} {s : Session α} {t : Tracker α} {m n : Nat} {a b : Handle}

theorem lt_length_of_handle? (h : s.handle? n = some a) : n < s.handles.length := by
  rw [handle?, Option.join_eq_some_iff] at h
  exact (List.getElem?_eq_some_iff.1 h).1

theorem handle?_of_position? {p : Position} (h : s.position? n = some p) :
    s.handle? n = some (.position p) := by
  unfold position? at h
  split at h
  · next hn => rw [hn, Option.some.inj h]
  · cases h

theorem position?_of_handle? {p : Position} (h : s.handle? n = some (.position p)) :
    s.position? n = some p := by
  rw [position?, h]

theorem handle?_of_cursor? {c : Cursor} (h : s.cursor? n = some c) :
    s.handle? n = some (.cursor c) := by
  unfold cursor? at h
  split at h
  · next hn => rw [hn, Option.some.inj h]
  · cases h

theorem handle?_hold :
    (s.hold a t).handle? n = some b ↔ s.handle? n = some b ∨ n = s.handles.length ∧ a = b := by
  simp only [handle?, hold, Option.join_eq_some_iff, List.getElem?_append]
  rcases Nat.lt_trichotomy n s.handles.length with hlt | rfl | hgt
  · simp [hlt, Nat.ne_of_lt hlt]
  · simp
  · obtain ⟨k, hk⟩ : ∃ k, n - s.handles.length = k + 1 := ⟨n - s.handles.length - 1, by omega⟩
    simp [Nat.not_lt_of_gt hgt, Nat.ne_of_gt hgt, hk]

theorem handle?_set (hm : s.handle? m = some a) (v : Option Handle) :
    (⟨t, s.handles.set m v⟩ : Session α).handle? n = if n = m then v else s.handle? n := by
  have hlt := lt_length_of_handle? hm
  by_cases h : n = m
  · subst h
    simp [handle?, hlt]
  · simp [handle?, List.getElem?_set_ne (Ne.symm h), h]

/-- When one handle has been exchanged and another is held, each is one of the two, or was held
    before. -/
theorem handle?_set_hold {c d : Handle} {t' : Tracker α} (hm : s.handle? m = some a)
    (hn : ((⟨t, s.handles.set m (some b)⟩ : Session α).hold c t').handle? n = some d) :
    n = s.handles.length ∧ d = c ∨ n = m ∧ d = b ∨ n ≠ m ∧ s.handle? n = some d := by
  rcases handle?_hold.1 hn with hn | ⟨rfl, rfl⟩
  · rw [handle?_set hm] at hn
    split at hn
    · next e => exact .inr (.inl ⟨e, (Option.some.inj hn).symm⟩)
    · next e => exact .inr (.inr ⟨e, hn⟩)
  · exact .inl ⟨List.length_set .., rfl⟩

/-- A handle that is dropped is one of those that are counted. -/
theorem countP_set_none (hm : s.handle? m = some a) :
    (s.handles.set m none).countP Option.isSome = s.handles.countP Option.isSome - 1 := by
  have hlt := lt_length_of_handle? hm
  rw [handle?, Option.join_eq_some_iff, List.getElem?_eq_some_iff] at hm
  obtain ⟨_, hm⟩ := hm
  simp [List.countP_set hlt, hm]

theorem countP_set_some (hm : s.handle? m = some a) (b : Handle) :
    (s.handles.set m (some b)).countP Option.isSome = s.handles.countP Option.isSome := by
  have hlt := lt_length_of_handle? hm
  rw [handle?, Option.join_eq_some_iff, List.getElem?_eq_some_iff] at hm
  obtain ⟨_, hm⟩ := hm
  have hpos : 0 < s.handles.countP Option.isSome :=
    List.countP_pos_iff.2 ⟨some a, hm ▸ List.getElem_mem hlt, rfl⟩
  simp only [List.countP_set hlt, hm, Option.isSome_some, if_true]
  omega

end Session

namespace History

variable {α : Type} {h h' : History α}

/-! ## The invariant -/

/-- Tracker, handles and ledger agree. -/
structure Inv (h : History α) : Prop where
  items : h.session.tracker.items = h.ledger.elements.map Prod.fst
  arena : h.session.tracker.arena.Sound
  ledger : h.ledger.Sound
  sites : h.ledger.sites.length = h.session.handles.length
  held : ∀ n a, h.session.handle? n = some a → ∃ st site,
    h.session.tracker.Holds a.place st ∧ h.ledger.sites[n]? = some site ∧ h.ledger.Tells st site
  /-- No two handles share a slot. -/
  apart : ∀ m n a b, h.session.handle? m = some a → h.session.handle? n = some b →
    a.place.key = b.place.key → m = n
  live : h.session.tracker.arena.live = h.session.handles.countP Option.isSome

theorem Inv.length_eq (hi : h.Inv) : h.session.tracker.length = h.ledger.elements.length := by
  rw [Tracker.length, hi.items, List.length_map]

theorem inv_start (id : Nat) (items : List α) : (start id items).Inv where
  items := (List.zipIdx_map_fst 0 items).symm
  arena := Arena.sound_empty
  ledger := {
    nodup := by simpa [start, Ledger.identities, List.zipIdx_map_snd] using List.nodup_range'
    lt_given := by simp [start, Ledger.identities, List.zipIdx_map_snd] }
  sites := rfl
  held n a hn := by simp [start, Session.handle?] at hn
  apart m n a b hm := by simp [start, Session.handle?] at hm
  live := rfl

/-! ## What a call can do -/

/-- The history after a step of the cursor with number `n`, which has visited the element at
    `index`: the cursor holds the position `next` now, `here` is held besides, and the tracker is
    `t`. -/
def visit (h : History α) (n index : Nat) (next here : Position) (t : Tracker α) : History α :=
  ⟨(⟨t, h.session.handles.set n (some (.cursor ⟨next⟩))⟩ : Session α).hold (.position here) t,
    { h.ledger with
      sites := h.ledger.sites.set n (h.ledger.siteAt (index + 1)) ++ [h.ledger.siteAt index] }⟩

/-- What one call can do to a history. -/
inductive Move (h : History α) : History α → Prop
  | stay : Move h h
  | splice {index : Nat} {values : List α} (hi : index ≤ h.session.tracker.length) :
    Move h ⟨h.session.keep (h.session.tracker.splice index values), h.ledger.splice index values⟩
  | cut {start stop : Nat} (hs : start ≤ stop) (hl : stop ≤ h.session.tracker.length) :
    Move h ⟨h.session.keep (h.session.tracker.cut start stop).2, h.ledger.cut start stop⟩
  | exchange {index : Nat} {value : α} :
    Move h ⟨h.session.keep
      { h.session.tracker with items := h.session.tracker.items.set index value },
      h.ledger.exchange index value⟩
  | register (handle : Position → Handle) {st : PositionState} {site : Site}
      (hplace : ∀ p, (handle p).place = p) (ht : h.ledger.Tells st site) :
    Move h ⟨h.session.hold (handle (h.session.tracker.registerState st).1)
      (h.session.tracker.registerState st).2, h.ledger.register site⟩
  | drop {n : Nat} {a : Handle} (hn : h.session.handle? n = some a) :
    Move h ⟨⟨h.session.tracker.release a.place, h.session.handles.set n none⟩, h.ledger⟩
  | visit {n index : Nat} {c : Cursor} (hc : h.session.cursor? n = some c)
      (hi : index < h.session.tracker.length) :
    Move h (h.visit n index (h.session.tracker.register (index + 1)).1
      (((h.session.tracker.register (index + 1)).2.release c.next).register index).1
      (((h.session.tracker.register (index + 1)).2.release c.next).register index).2)

/-- A position of the tracker stands within the list or at its end. -/
theorem Inv.index_le (hi : h.Inv) {n : Nat} {a : Handle} (hn : h.session.handle? n = some a) :
    (h.session.tracker.state a.place).index ≤ h.session.tracker.length := by
  obtain ⟨st, site, hh, -, ht⟩ := hi.held n a hn
  rw [hh.state_eq, hi.length_eq]
  exact ht.index_le

/-! ## Every move keeps the invariant -/

/-- Edits move the positions of all handles, and change no handle. -/
theorem Inv.edit (hi : h.Inv) {t : Tracker α} {l : Ledger α} {f : PositionState → PositionState}
    (hitems : t.items = l.elements.map Prod.fst)
    (harena : t.arena = h.session.tracker.arena.mapStates f) (hid : t.id = h.session.tracker.id)
    (hl : l.Sound) (hsites : l.sites = h.ledger.sites)
    (ht : ∀ st site, h.ledger.Tells st site → l.Tells (f st) site) : Inv ⟨h.session.keep t, l⟩ where
  items := hitems
  arena := by
    change t.arena.Sound
    rw [harena]
    exact hi.arena.mapStates f
  ledger := hl
  sites := hsites ▸ hi.sites
  held n a hn := by
    obtain ⟨st, site, hh, hs, htell⟩ := hi.held n a hn
    refine ⟨f st, site, ⟨?_, ?_⟩, hsites ▸ hs, ht st site htell⟩
    · change decide (a.place.owner = some t.id) = true
      rw [hid]
      exact hh.1
    · change t.arena.get? a.place.key = some (f st)
      rw [harena, Arena.get?_mapStates, hh.2]
      rfl
  apart := hi.apart
  live := by
    change t.arena.live = _
    rw [harena]
    exact hi.live

theorem Inv.splice (hi : h.Inv) {index : Nat} (hle : index ≤ h.session.tracker.length)
    (values : List α) :
    Inv ⟨h.session.keep (h.session.tracker.splice index values), h.ledger.splice index values⟩ := by
  have hle' : index ≤ h.ledger.elements.length := hi.length_eq ▸ hle
  refine hi.edit ?_ (Tracker.arena_splice ..) rfl (hi.ledger.splice index values) rfl
    fun _ _ ht => ht.splice hle' values
  simp [Tracker.splice, Ledger.splice, hi.items, List.zipIdx_map_fst]

theorem Inv.cut (hi : h.Inv) {start stop : Nat} (hs : start ≤ stop)
    (hl : stop ≤ h.session.tracker.length) :
    Inv ⟨h.session.keep (h.session.tracker.cut start stop).2, h.ledger.cut start stop⟩ := by
  have hl' : stop ≤ h.ledger.elements.length := hi.length_eq ▸ hl
  refine hi.edit ?_ (Tracker.arena_cut ..) rfl (hi.ledger.cut hs) rfl
    fun _ _ ht => ht.cut hi.ledger hs hl'
  simp [Tracker.cut, Ledger.cut, hi.items]

theorem Inv.exchange (hi : h.Inv) (index : Nat) (value : α) :
    Inv ⟨h.session.keep { h.session.tracker with items := h.session.tracker.items.set index value },
      h.ledger.exchange index value⟩ := by
  refine hi.edit ?_ (Arena.mapStates_eq_self (fun _ => rfl) _).symm rfl
    (hi.ledger.exchange index value) rfl (f := fun st => st) fun _ _ ht => ht.exchange index value
  refine List.ext_getElem? fun i => ?_
  simp only [Ledger.exchange, hi.items, List.getElem?_set, List.getElem?_map, List.getElem?_modify,
    List.length_map]
  by_cases hx : index = i
  · subst hx
    cases he : h.ledger.elements[index]? with
    | none => simp [List.getElem?_eq_none_iff.1 he]
    | some e => simp [(List.getElem?_eq_some_iff.1 he).1]
  · simp [hx]

theorem Inv.register (hi : h.Inv) (handle : Position → Handle) {st : PositionState} {site : Site}
    (hplace : ∀ p, (handle p).place = p) (ht : h.ledger.Tells st site) :
    Inv ⟨h.session.hold (handle (h.session.tracker.registerState st).1)
      (h.session.tracker.registerState st).2, h.ledger.register site⟩ where
  items := hi.items
  arena := hi.arena.register st
  ledger := ⟨hi.ledger.nodup, hi.ledger.lt_given⟩
  sites := by simp [Ledger.register, Session.hold, hi.sites]
  held n a hn := by
    rcases Session.handle?_hold.1 hn with hn | ⟨rfl, rfl⟩
    · obtain ⟨st', site', hh, hs, htell⟩ := hi.held n a hn
      refine ⟨st', site', hh.registerState hi.arena st, ?_, by cases site' <;> exact htell⟩
      exact (List.getElem?_append_left (hi.sites ▸ Session.lt_length_of_handle? hn)).trans hs
    · refine ⟨st, site, ?_, ?_, by cases site <;> exact ht⟩
      · rw [hplace]
        exact Tracker.holds_registerState hi.arena st
      · simp [Ledger.register, ← hi.sites]
  apart m n a b hm hn hkey := by
    -- The new handle has a key that no other handle has.
    have hnew : ∀ k c, h.session.handle? k = some c →
        c.place.key ≠ (handle (h.session.tracker.registerState st).1).place.key := fun k c hk => by
      obtain ⟨st', site', hh, -, -⟩ := hi.held k c hk
      rw [hplace]
      exact hh.key_ne hi.arena st
    rcases Session.handle?_hold.1 hm with hm | ⟨rfl, rfl⟩ <;>
      rcases Session.handle?_hold.1 hn with hn | ⟨rfl, rfl⟩
    · exact hi.apart m n a b hm hn hkey
    · exact absurd hkey (hnew m a hm)
    · exact absurd hkey.symm (hnew n b hn)
    · rfl
  live := by
    change (h.session.tracker.arena.register st).2.live = (h.session.handles ++ [_]).countP _
    rw [Arena.live_register, hi.live]
    simp

theorem Inv.drop (hi : h.Inv) {n : Nat} {a : Handle} (hn : h.session.handle? n = some a) :
    Inv ⟨⟨h.session.tracker.release a.place, h.session.handles.set n none⟩, h.ledger⟩ := by
  obtain ⟨st, site, hh, hs, ht⟩ := hi.held n a hn
  have hrel := Tracker.release_of_owns hh.1
  refine ⟨?_, ?_, hi.ledger, by simp [hi.sites], fun m b hm => ?_, fun k m b c hk hm hkey => ?_, ?_⟩
  · simp only [hrel]
    exact hi.items
  · simp only [hrel]
    exact hi.arena.release _
  · rw [Session.handle?_set hn] at hm
    split at hm
    · cases hm
    · next hne =>
      obtain ⟨st', site', hh', hs', ht'⟩ := hi.held m b hm
      exact ⟨st', site', hh'.release hh.1 fun e => hne (hi.apart m n b a hm hn e), hs', ht'⟩
  · rw [Session.handle?_set hn] at hk hm
    split at hk
    · cases hk
    · split at hm
      · cases hm
      · exact hi.apart k m b c hk hm hkey
  · simp only [hrel]
    rw [Session.countP_set_none hn, ← hi.live]
    exact Arena.live_release (by rw [hh.2]; rfl)

/-- A step of a cursor. The cursor keeps its number, under which it now holds the place behind the
    element. -/
theorem Inv.visit (hi : h.Inv) {n index : Nat} {c : Cursor} (hc : h.session.cursor? n = some c)
    (hlt : index < h.session.tracker.length) :
    let next := h.session.tracker.register (index + 1)
    let here := (next.2.release c.next).register index
    (h.visit n index next.1 here.1 here.2).Inv := by
  intro next here
  have hn := Session.handle?_of_cursor? hc
  have hnlen : n < h.ledger.sites.length := hi.sites ▸ Session.lt_length_of_handle? hn
  rw [hi.length_eq] at hlt
  obtain ⟨st, -, hh, -, -⟩ := hi.held n _ hn
  obtain ⟨hitems, hsound, hlive, hnext, hhere, hne, hothers⟩ :=
    hh.replace hi.arena (index + 1) index
  -- A handle is the new position, the cursor, or one that was held before and is not touched.
  have hcases : ∀ m a, (h.visit n index next.1 here.1 here.2).session.handle? m = some a →
      m = h.session.handles.length ∧ a = .position here.1 ∨ m = n ∧ a = .cursor ⟨next.1⟩ ∨
        m ≠ n ∧ h.session.handle? m = some a := fun m a => Session.handle?_set_hold hn
  have hold : ∀ m a, m ≠ n → h.session.handle? m = some a → a.place.key ≠ c.next.key :=
      fun m a hm ha e =>
    hm (hi.apart m n a _ ha hn e)
  have hsites : (h.visit n index next.1 here.1 here.2).ledger.sites =
      h.ledger.sites.set n (h.ledger.siteAt (index + 1)) ++ [h.ledger.siteAt index] := rfl
  refine ⟨hitems.trans hi.items, hsound, ⟨hi.ledger.nodup, hi.ledger.lt_given⟩,
    by simp [History.visit, Session.hold, hi.sites], fun m a hm => ?_, fun k m a b hk hm hkey => ?_,
    ?_⟩
  · rcases hcases m a hm with ⟨rfl, rfl⟩ | ⟨rfl, rfl⟩ | ⟨hmn, hm⟩
    · refine ⟨_, _, hhere, ?_, hi.ledger.tells_siteAt (Nat.le_of_lt hlt)⟩
      rw [hsites, List.getElem?_append_right (by simp [hi.sites])]
      simp [hi.sites]
    · refine ⟨_, _, hnext, ?_, hi.ledger.tells_siteAt (Nat.succ_le_of_lt hlt)⟩
      rw [hsites, List.getElem?_append_left (by simpa using hnlen), List.getElem?_set_self hnlen]
    · obtain ⟨st', site', hh', hs', ht'⟩ := hi.held m a hm
      refine ⟨st', site', (hothers _ _ hh' (hold m a hmn hm)).1, ?_, ht'⟩
      have hmlen := hi.sites ▸ Session.lt_length_of_handle? hm
      rw [hsites, List.getElem?_append_left (by simpa using hmlen),
        List.getElem?_set_ne (Ne.symm hmn)]
      exact hs'
  · have hnew : ∀ j d, j ≠ n → h.session.handle? j = some d →
        d.place.key ≠ next.1.key ∧ d.place.key ≠ here.1.key := fun j d hj hd => by
      obtain ⟨st', site', hh', -, -⟩ := hi.held j d hd
      exact (hothers _ _ hh' (hold j d hj hd)).2
    rcases hcases k a hk with ⟨hkn, rfl⟩ | ⟨hkn, rfl⟩ | ⟨hkn, hk'⟩ <;>
      rcases hcases m b hm with ⟨hmn, rfl⟩ | ⟨hmn, rfl⟩ | ⟨hmn, hm'⟩
    · exact hkn.trans hmn.symm
    · exact absurd hkey.symm hne
    · exact absurd hkey.symm (hnew m b hmn hm').2
    · exact absurd hkey hne
    · exact hkn.trans hmn.symm
    · exact absurd hkey.symm (hnew m b hmn hm').1
    · exact absurd hkey (hnew k a hkn hk').2
    · exact absurd hkey (hnew k a hkn hk').1
    · exact hi.apart k m a b hk' hm' hkey
  · change here.2.arena.live = (h.session.handles.set n (some (.cursor ⟨next.1⟩)) ++ [_]).countP _
    rw [List.countP_append, Session.countP_set_some hn, ← hi.live]
    exact hlive

theorem Inv.move (hi : h.Inv) (hm : Move h h') : h'.Inv := by
  cases hm with
  | stay => exact hi
  | splice hle => exact hi.splice hle _
  | cut hs hl => exact hi.cut hs hl
  | exchange => exact hi.exchange _ _
  | register handle hplace ht => exact hi.register handle hplace ht
  | drop hn => exact hi.drop hn
  | visit hc hlt => exact hi.visit hc hlt

end History

end Taskdown
