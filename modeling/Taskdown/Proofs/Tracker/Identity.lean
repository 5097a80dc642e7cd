import Taskdown.Proofs.Tracker.Moves

/-!
# Positions follow their elements

Whatever is asked of a tracker, in whatever order, every position says what the ledger says: on an
element it is valid until the element is removed, and its index is that of the element; at the end
it stays at the end (`History.positions_follow_elements`).

* Every call is one of the moves (`Inv.move_step`), so the invariant holds in every state that calls
  can reach (`Inv.run`).
* What cannot be seen from one state, that a position which has become invalid stays so, follows
  from `Later`: an identity that is gone is not given again, and a position under a number keeps its
  site.
-/

namespace Taskdown.History

variable {α : Type} {h h' : History α}

/-! ## Every call is a move -/

theorem Inv.move_register (hi : h.Inv) (handle : Position → Handle)
    (hplace : ∀ p, (handle p).place = p) {index : Nat} (hle : index ≤ h.session.tracker.length) :
    Move h ⟨h.session.hold (handle (h.session.tracker.register index).1)
      (h.session.tracker.register index).2, h.ledger.register (h.ledger.siteAt index)⟩ :=
  .register handle hplace (hi.ledger.tells_siteAt (hi.length_eq ▸ hle))

/-- Removing at an index behind the last element removes nothing. -/
theorem Inv.move_remove (hi : h.Inv) (index : Nat) :
    Move h ⟨match h.session.tracker.remove index with
        | .ok (_, t) => h.session.keep t
        | .error _ => h.session,
      h.ledger.cut index (index + 1)⟩ := by
  rw [Tracker.remove]
  cases hv : h.session.tracker.items[index]? with
  | some v => exact .cut (Nat.le_succ index) (List.getElem?_eq_some_iff.1 hv).1
  | none =>
    have hle := List.getElem?_eq_none_iff.1 hv
    rw [hi.items, List.length_map] at hle
    have hcut : h.ledger.cut index (index + 1) = h.ledger := by
      simp [Ledger.cut, List.take_of_length_le hle, List.drop_eq_nil_of_le (Nat.le_succ_of_le hle)]
    rw [hcut]
    exact .stay

/-- A copy has the site of its original. -/
theorem Inv.move_of_copy (hi : h.Inv) {number : Nat} {s : Session α}
    (hc : h.session.outcome? (.copy number) = some s) :
    Move h ⟨s, h.ledger.record h.session (.copy number)⟩ := by
  simp only [Session.outcome?] at hc
  split at hc
  · next p hp =>
    obtain rfl := Option.some.inj hc
    obtain ⟨st, site, hh, hs, ht⟩ := hi.held number _ (Session.handle?_of_position? hp)
    simp only [Ledger.record, hp, Option.isSome_some, if_true]
    rw [Tracker.Holds.copyPosition (p := p) hh, List.getD_eq_getElem?_getD, hs]
    exact .register .position (fun _ => rfl) ht
  · next hp =>
    obtain rfl := Option.some.inj hc
    simp only [Ledger.record, hp]
    exact .stay

/-- A cursor behind the last element stays there. -/
theorem Inv.move_of_next (hi : h.Inv) {number : Nat} {s : Session α}
    (hc : h.session.outcome? (.next number) = some s) :
    Move h ⟨s, h.ledger.record h.session (.next number)⟩ := by
  simp only [Session.outcome?] at hc
  split at hc
  · next c hn =>
    obtain ⟨st, site, hh, -, -⟩ := hi.held number _ (Session.handle?_of_cursor? hn)
    simp only [Tracker.advance, Tracker.Holds.checkOwns (p := c.next) hh, bind, Except.bind] at hc
    simp only [Ledger.record, hn]
    split at hc
    · next hle =>
      obtain rfl := Option.some.inj hc
      rw [if_neg (Nat.not_lt.2 hle)]
      exact .stay
    · next hlt =>
      obtain rfl := Option.some.inj hc
      rw [if_pos (Nat.lt_of_not_le hlt)]
      exact .visit hn (Nat.lt_of_not_le hlt)
  · next hn =>
    obtain rfl := Option.some.inj hc
    simp only [Ledger.record, hn]
    exact .stay

/-- Setting at the end of the list adds an element. -/
theorem move_of_set {index : Nat} {value : α} {s : Session α}
    (hc : h.session.outcome? (.set index value) = some s) :
    Move h ⟨s, h.ledger.record h.session (.set index value)⟩ := by
  simp only [Session.outcome?, Tracker.set] at hc
  split at hc
  · next old hold =>
    obtain rfl := Option.some.inj hc
    have hlt : index < h.session.tracker.length := (List.getElem?_eq_some_iff.1 hold).1
    simp only [Ledger.record, if_pos hlt]
    exact .exchange
  · split at hc
    · next heq =>
      obtain rfl := Option.some.inj hc
      simp only [Ledger.record, heq, Nat.lt_irrefl, if_false]
      exact .splice (Nat.le_refl _)
    · cases hc

theorem move_of_insertBefore {argument : Argument} {value : α} {s : Session α}
    (hc : h.session.outcome? (.insertBefore argument value) = some s) :
    Move h ⟨s, h.ledger.record h.session (.insertBefore argument value)⟩ := by
  simp only [Session.outcome?] at hc
  split at hc
  · next p hp =>
    simp only [Ledger.record, hp]
    simp only [Tracker.insertBefore, Tracker.insert, Tracker.insertAll, Tracker.checkOwns] at hc
    split at hc
    · split at hc
      · cases hc
      · obtain rfl := Option.some.inj hc
        exact .splice (by omega)
    · cases hc
  · next hp =>
    obtain rfl := Option.some.inj hc
    simp only [Ledger.record, hp]
    exact .stay

/-- Nothing is removed at a position that is not valid. -/
theorem Inv.move_of_removeAt (hi : h.Inv) {argument : Argument} {s : Session α}
    (hc : h.session.outcome? (.removeAt argument) = some s) :
    Move h ⟨s, h.ledger.record h.session (.removeAt argument)⟩ := by
  simp only [Session.outcome?] at hc
  split at hc
  · next p hp =>
    simp only [Ledger.record, hp, Option.bind_some]
    simp only [Tracker.removeAt, Tracker.checkOwns] at hc
    split at hc
    · cases hv : h.session.tracker.validIndex? p with
      | none =>
        rw [hv] at hc
        obtain rfl := Option.some.inj hc
        exact .stay
      | some index =>
        -- Whether there is an element at the index does not matter: without one nothing is removed.
        have hm := hi.move_remove index
        cases hr : h.session.tracker.remove index with
        | error e =>
          rw [hr] at hm
          simp only [hv, bind, Except.bind, Option.bind_some, hr, Except.toOption] at hc
          obtain rfl := Option.some.inj hc
          exact hm
        | ok r =>
          rw [hr] at hm
          simp only [hv, bind, Except.bind, Option.bind_some, hr, Except.toOption] at hc
          obtain rfl := Option.some.inj hc
          exact hm
    · cases hc
  · next hp =>
    obtain rfl := Option.some.inj hc
    simp only [Ledger.record, hp]
    exact .stay

theorem Inv.move_of_outcome? (hi : h.Inv) {c : Call α} {s : Session α}
    (hc : h.session.outcome? c = some s) : Move h ⟨s, h.ledger.record h.session c⟩ := by
  cases c with
  | position index =>
    simp only [Session.outcome?, Tracker.position] at hc
    split at hc
    · cases hc
    · obtain rfl := Option.some.inj hc
      exact hi.move_register .position (fun _ => rfl) (by omega)
  | first =>
    obtain rfl := Option.some.inj hc
    exact hi.move_register .position (fun _ => rfl) (Nat.zero_le _)
  | last =>
    simp only [Session.outcome?, Tracker.last] at hc
    split at hc
    · cases hc
    · obtain rfl := Option.some.inj hc
      exact hi.move_register .position (fun _ => rfl) (Nat.sub_le _ _)
  | atEnd =>
    obtain rfl := Option.some.inj hc
    exact hi.move_register .position (fun _ => rfl) (Nat.le_refl _)
  | cursor =>
    obtain rfl := Option.some.inj hc
    exact hi.move_register (fun p => .cursor ⟨p⟩) (fun _ => rfl) (Nat.zero_le _)
  | copy number => exact hi.move_of_copy hc
  | drop number =>
    simp only [Session.outcome?] at hc
    split at hc
    · next a hn =>
      obtain rfl := Option.some.inj hc
      exact .drop hn
    · obtain rfl := Option.some.inj hc
      exact .stay
  | next number => exact hi.move_of_next hc
  | add value =>
    obtain rfl := Option.some.inj hc
    exact .splice (Nat.le_refl _)
  | insert index value =>
    simp only [Session.outcome?, Tracker.insert, Tracker.insertAll] at hc
    split at hc
    · cases hc
    · obtain rfl := Option.some.inj hc
      exact .splice (by omega)
  | addAll values =>
    obtain rfl := Option.some.inj hc
    exact .splice (Nat.le_refl _)
  | insertAll index values =>
    simp only [Session.outcome?, Tracker.insertAll] at hc
    split at hc
    · cases hc
    · obtain rfl := Option.some.inj hc
      exact .splice (by omega)
  | remove index =>
    have hm := hi.move_remove index
    simp only [Session.outcome?] at hc
    cases hr : h.session.tracker.remove index with
    | error e =>
      rw [hr] at hc
      cases hc
    | ok r =>
      rw [hr] at hc hm
      obtain rfl := Option.some.inj hc
      exact hm
  | removeRange start stop =>
    simp only [Session.outcome?, Tracker.removeRange] at hc
    split at hc
    · cases hc
    · obtain rfl := Option.some.inj hc
      exact .cut (by omega) (by omega)
  | set index value => exact move_of_set hc
  | exchange index value =>
    simp only [Session.outcome?, Tracker.exchange] at hc
    split at hc
    · obtain rfl := Option.some.inj hc
      exact .exchange
    · cases hc
  | insertBefore argument value => exact move_of_insertBefore hc
  | removeAt argument => exact hi.move_of_removeAt hc

theorem Inv.move_step (hi : h.Inv) (c : Call α) : Move h (h.step c) := by
  rw [step_eq]
  split
  · next s hc => exact hi.move_of_outcome? hc
  · exact .stay

theorem Inv.step (hi : h.Inv) (c : Call α) : (h.step c).Inv := hi.move (hi.move_step c)

theorem Inv.run (hi : h.Inv) (calls : List (Call α)) : (h.run calls).Inv := by
  induction calls generalizing h with
  | nil => exact hi
  | cons c calls ih => exact ih (hi.step c)

/-! ## What cannot be undone -/

/-- What holds between a history and any later one. -/
structure Later (h h' : History α) : Prop where
  length_le : h.session.handles.length ≤ h'.session.handles.length
  given_le : h.ledger.given ≤ h'.ledger.given
  /-- An identity that is gone is not given again. -/
  gone : ∀ x < h.ledger.given, x ∈ h'.ledger.identities → x ∈ h.ledger.identities
  /-- Under the number of a position there is never another position, nor the same one with another
      site. -/
  site_eq : ∀ n < h.session.handles.length, ∀ p, h'.session.position? n = some p →
    h.session.position? n = some p ∧ h'.ledger.sites[n]? = h.ledger.sites[n]?

theorem Later.refl (h : History α) : Later h h :=
  ⟨Nat.le_refl _, Nat.le_refl _, fun _ _ hx => hx, fun _ _ _ hp => ⟨hp, rfl⟩⟩

theorem Later.trans {h₁ h₂ h₃ : History α} (h₁₂ : Later h₁ h₂) (h₂₃ : Later h₂ h₃) :
    Later h₁ h₃ where
  length_le := Nat.le_trans h₁₂.length_le h₂₃.length_le
  given_le := Nat.le_trans h₁₂.given_le h₂₃.given_le
  gone x hx hmem := h₁₂.gone x hx (h₂₃.gone x (Nat.lt_of_lt_of_le hx h₁₂.given_le) hmem)
  site_eq n hn p hp := by
    obtain ⟨hp₂, hs₂⟩ := h₂₃.site_eq n (Nat.lt_of_lt_of_le hn h₁₂.length_le) p hp
    obtain ⟨hp₁, hs₁⟩ := h₁₂.site_eq n hn p hp₂
    exact ⟨hp₁, hs₂.trans hs₁⟩

/-- A handle more, under a number of its own. -/
theorem later_hold (hs : h.ledger.sites.length = h.session.handles.length)
    (a : Handle) (t : Tracker α) (site : Site) :
    Later h ⟨h.session.hold a t, h.ledger.register site⟩ where
  length_le := by simp [Session.hold]
  given_le := Nat.le_refl _
  gone _ _ hx := hx
  site_eq n hn p hp := by
    rcases Session.handle?_hold.1 (Session.handle?_of_position? hp) with hp | ⟨rfl, -⟩
    · exact ⟨Session.position?_of_handle? hp, List.getElem?_append_left (hs ▸ hn)⟩
    · exact absurd hn (Nat.lt_irrefl _)

/-- Another handle, or none, under a number that keeps no position. -/
theorem later_set {n : Nat} {a : Handle} (hn : h.session.handle? n = some a) (t : Tracker α)
    (v : Option Handle) (hv : ∀ p, v ≠ some (.position p)) (sites : List Site)
    (hs : ∀ m, m ≠ n → sites[m]? = h.ledger.sites[m]?) :
    Later h ⟨⟨t, h.session.handles.set n v⟩, { h.ledger with sites }⟩ where
  length_le := by simp
  given_le := Nat.le_refl _
  gone _ _ hx := hx
  site_eq m hm p hp := by
    have hp := Session.handle?_of_position? hp
    rw [Session.handle?_set hn] at hp
    split at hp
    · exact absurd hp (hv p)
    · next hne => exact ⟨Session.position?_of_handle? hp, hs m hne⟩

theorem Inv.later (hi : h.Inv) (hm : Move h h') : Later h h' := by
  cases hm with
  | stay => exact .refl h
  | splice hle =>
    exact ⟨Nat.le_refl _, Nat.le_add_right _ _, fun x hx => (Ledger.mem_identities_splice hx).1,
      fun _ _ _ hp => ⟨hp, rfl⟩⟩
  | cut hs hl =>
    exact ⟨Nat.le_refl _, Nat.le_refl _, fun x _ => Ledger.mem_of_mem_identities_cut,
      fun _ _ _ hp => ⟨hp, rfl⟩⟩
  | @exchange index value =>
    exact ⟨Nat.le_refl _, Nat.le_refl _,
      fun x _ hx => Ledger.identities_exchange h.ledger index value ▸ hx, fun _ _ _ hp => ⟨hp, rfl⟩⟩
  | register handle hplace ht => exact later_hold hi.sites _ _ _
  | drop hn => exact later_set hn _ none (fun _ => nofun) h.ledger.sites fun _ _ => rfl
  | @visit n index c hc hlt =>
    -- The cursor is exchanged under its own number, then the position is held under a new one.
    have hset := later_set (Session.handle?_of_cursor? hc)
      (h.session.tracker.register (index + 1)).2
        (some (.cursor ⟨(h.session.tracker.register (index + 1)).1⟩)) (fun _ => nofun)
      (h.ledger.sites.set n (h.ledger.siteAt (index + 1))) fun m hm =>
      List.getElem?_set_ne (Ne.symm hm)
    refine hset.trans (later_hold ?_ _ _ _)
    simp [hi.sites]

theorem Inv.later_run (hi : h.Inv) (calls : List (Call α)) : Later h (h.run calls) := by
  induction calls generalizing h with
  | nil => exact .refl h
  | cons c calls ih => exact (hi.later (hi.move_step c)).trans (ih (hi.step c))

/-- A position that is not valid stays so, whatever is asked of the tracker. -/
theorem Inv.not_valid_run (hi : h.Inv) {n : Nat} {p q : Position}
    (hp : h.session.position? n = some p) (hv : (h.session.tracker.state p).valid = false)
    (calls : List (Call α)) (hq : (h.run calls).session.position? n = some q) :
    q = p ∧ ((h.run calls).session.tracker.state q).valid = false := by
  have hn := Session.handle?_of_position? hp
  obtain ⟨hq', hsite⟩ := (hi.later_run calls).site_eq n (Session.lt_length_of_handle? hn) q hq
  obtain rfl : q = p := Option.some.inj (hq'.symm.trans hp)
  obtain ⟨st, site, hh, hs, ht⟩ := hi.held n _ hn
  obtain ⟨st', site', hh', hs', ht'⟩ := (hi.run calls).held n _ (Session.handle?_of_position? hq)
  obtain rfl : site' = site := Option.some.inj ((hs'.symm.trans hsite).trans hs)
  rw [Tracker.Holds.state_eq (p := q) hh] at hv
  rw [Tracker.Holds.state_eq (p := q) hh']
  refine ⟨rfl, ?_⟩
  cases site' with
  | element x =>
    -- The position tells that its element is gone, so it is gone for good.
    have hgone : x ∉ h.ledger.identities := fun hx => by simp [ht.agrees.1.2 hx] at hv
    have hgone' := mt ((hi.later_run calls).gone x ht.1) hgone
    exact Bool.eq_false_iff.2 (mt ht'.agrees.1.1 hgone')
  | atEnd =>
    -- A position at the end is always valid.
    exact absurd ht.1 (by simp [hv])

/-! ## The contract of a tracker -/

/-- Positions follow their elements, for every list and every sequence of calls. In the state that
    is reached,
    * the elements of the list are those of the ledger, which have distinct identities;
    * every handle has a site, and what its position says agrees with the ledger;
    * every position stands within the list or at its end, so that inserting before it does not
      fail;
    * a position that is not valid stays so in all later states in which it is still held;
    * as many positions are live as handles are held;
    * a call that fails changes nothing. -/
theorem positions_follow_elements (id : Nat) (items : List α) (calls : List (Call α)) :
    let h := (start id items).run calls
    let t := h.session.tracker
    t.items = h.ledger.elements.map Prod.fst ∧ h.ledger.identities.Nodup ∧
      (∀ n a, h.session.handle? n = some a →
        ∃ site, h.ledger.sites[n]? = some site ∧ h.ledger.Agrees (t.state a.place) site) ∧
      (∀ n a, h.session.handle? n = some a → (t.state a.place).index ≤ t.length) ∧
      (∀ n p v, h.session.position? n = some p → ∃ t', t.insertBefore p v = .ok (.ok t')) ∧
      (∀ n p q more, h.session.position? n = some p → (t.state p).valid = false →
        (h.run more).session.position? n = some q →
        q = p ∧ ((h.run more).session.tracker.state q).valid = false) ∧
      t.livePositions = h.session.handles.countP Option.isSome ∧
      ∀ c, h.session.call? c = none → h.step c = h := by
  intro h t
  have hi : h.Inv := (inv_start id items).run calls
  refine ⟨hi.items, hi.ledger.nodup, fun n a hn => ?_, fun n a hn => hi.index_le hn,
    fun n p v hp => ?_, fun n p q more hp hv hq => hi.not_valid_run hp hv more hq,
    hi.live, fun c hc => ?_⟩
  · obtain ⟨st, site, hh, hs, ht⟩ := hi.held n a hn
    exact ⟨site, hs, hh.state_eq ▸ ht.agrees⟩
  · have hn := Session.handle?_of_position? hp
    obtain ⟨st, site, hh, -, -⟩ := hi.held n _ hn
    have hle : (t.state p).index ≤ t.length := hi.index_le hn
    refine ⟨t.splice (t.state p).index [v], ?_⟩
    rw [Tracker.insertBefore, Tracker.Holds.checkOwns (p := p) hh]
    exact congrArg Except.ok (if_neg (Nat.not_lt.2 hle))
  · rw [step_eq, ← Session.call?_eq, hc]

end Taskdown.History
