import Taskdown.Proofs.Tracker.Itinerary
import Taskdown.Proofs.Tracker.Turns

/-!
# Cursors follow their itineraries

A `Journey` is a history together with the itinerary of one of its cursors. The itinerary starts
with the whole list, and is then kept up to date without looking at the cursor (`Journey.step`). The
invariant is that the cursor stands right behind what is passed (`Journey.Fits`). It is kept by
everything that does not take the cursor itself on (`Journey.Fits.move`), and by the steps of the
cursor (`Journey.Fits.next`).

* `Session.handle?_of_outcome?`: no call touches a cursor, but its own step and its end;
* `Journey.Onward`: what holds between a journey and the same journey later on;
* `Journey.cursor_follows_itinerary`: whatever is asked of the tracker in between, a step of the
  cursor goes to the first element that is ahead, if there is one.
-/

namespace Taskdown

variable {α : Type}

/-- Is the call a step of the cursor with a number? -/
def Call.advances (number : Nat) : Call α → Bool
  | .next n => n = number
  | _ => false

/-! ## Cursors -/

namespace Session

variable {s s' : Session α} {n : Nat}

theorem handle?_hold_of_lt (hn : n < s.handles.length) (a : Handle) (t : Tracker α) :
    (s.hold a t).handle? n = s.handle? n := by
  rw [handle?, hold, List.getElem?_append_left hn]
  rfl

/-- No call touches a cursor, but its own step and its end. -/
theorem handle?_of_outcome? {c : Call α} (hn : n < s.handles.length) (hc : s.outcome? c = some s')
    (hkeep : c.advances n = false ∨ s.cursor? n = none) :
    s'.handle? n = s.handle? n ∨ c = .drop n ∧ s'.handle? n = none := by
  cases turn_of_outcome? hc with
  | edit => exact .inl rfl
  | register | copy => exact .inl (handle?_hold_of_lt hn _ _)
  | drop hm =>
    rw [handle?_set hm]
    split
    · next e => exact .inr ⟨congrArg Call.drop e.symm, rfl⟩
    · exact .inl rfl
  | @visit m c hm ho index =>
    -- It is another cursor that goes on.
    have hne : n ≠ m := by
      rintro rfl
      rcases hkeep with hkeep | hkeep
      · simp [Call.advances] at hkeep
      · rw [hm] at hkeep
        cases hkeep
    refine .inl ((handle?_hold_of_lt (by simpa using hn) _ _).trans ?_)
    rw [handle?_set (handle?_of_cursor? hm), if_neg hne]

end Session

namespace Tracker

variable {t : Tracker α} {c : Cursor} {st : PositionState}

theorem Holds.unique {p : Position} {st' : PositionState} (h : t.Holds p st) (h' : t.Holds p st') :
    st = st' :=
  Option.some.inj (h.2.symm.trans h'.2)

/-- A step of a cursor whose index is known. -/
theorem Holds.advance (h : t.Holds c.next st) : t.advance c =
    .ok (if t.length ≤ st.index then none else
      let next := t.register (st.index + 1)
      let here := (next.2.release c.next).register st.index
      some (here.1, ⟨next.1⟩, here.2)) := by
  rw [advance_eq, if_pos h.1, h.state_eq]

end Tracker

/-! ## Journeys -/

/-- A history with the itinerary of the cursor that is held under a number. -/
structure Journey (α : Type) where
  history : History α
  number : Nat
  itinerary : Itinerary
deriving DecidableEq, Repr

namespace Journey

/-- The journey of a new cursor, which has the whole list ahead. -/
def start (h : History α) : Journey α :=
  ⟨h.step .cursor, h.session.handles.length, ⟨[], h.ledger.identities⟩⟩

/-- Makes a call. When the cursor goes on the itinerary does, too; otherwise it is kept up to
    date. -/
def step (j : Journey α) (c : Call α) : Journey α where
  history := j.history.step c
  number := j.number
  itinerary :=
    if c.advances j.number ∧ (j.history.session.cursor? j.number).isSome then j.itinerary.next
    else j.itinerary.change j.history.ledger (j.history.step c).ledger

/-- Makes calls, one after the other. -/
def run (j : Journey α) (calls : List (Call α)) : Journey α := calls.foldl step j

@[simp] theorem run_nil (j : Journey α) : j.run [] = j := rfl

@[simp] theorem run_cons (j : Journey α) (c : Call α) (calls : List (Call α)) :
    j.run (c :: calls) = (j.step c).run calls := rfl

theorem history_run (j : Journey α) (calls : List (Call α)) :
    (j.run calls).history = j.history.run calls := by
  induction calls generalizing j with
  | nil => rfl
  | cons c calls ih => exact ih (j.step c)

/-- The itinerary is up to date, and the cursor, as long as it is held, stands behind what is
    passed. -/
structure Fits (j : Journey α) (passed : List Nat) : Prop where
  inv : j.history.Inv
  number_lt : j.number < j.history.session.handles.length
  itinerary : j.itinerary.Fits j.history.ledger passed
  index_eq : ∀ c st, j.history.session.cursor? j.number = some c →
    j.history.session.tracker.Holds c.next st → st.index = passed.length

variable {j j' : Journey α} {passed : List Nat} {h' : History α}

/-- A handle that is kept is there before and after. -/
theorem handle?_of_kept {n : Nat} {s s' : Session α} {c : Cursor}
    (hkept : s'.handle? n = s.handle? n ∨ s'.handle? n = none) (hc : s'.cursor? n = some c) :
    s.cursor? n = some c := by
  have hn := Session.handle?_of_cursor? hc
  rcases hkept with hkept | hkept
  · rw [Session.cursor?, ← hkept, hn]
  · rw [hkept] at hn
    cases hn

/-- What a call does, other than taking the cursor on, keeps the invariant. -/
theorem Fits.move (hf : j.Fits passed) (hm : History.Move j.history h')
    (hkept : h'.session.handle? j.number = j.history.session.handle? j.number ∨
      h'.session.handle? j.number = none) :
    ∃ passed', Fits ⟨h', j.number, j.itinerary.change j.history.ledger h'.ledger⟩ passed' := by
  have hi := hf.inv
  have hl := hi.ledger
  -- A cursor that is held afterwards was held before, on what is now the place behind what is
  -- passed.
  have hplace : ∀ c, h'.session.cursor? j.number = some c →
      ∃ st, j.history.session.tracker.Holds c.next st ∧ st.index = passed.length := fun c hc => by
    have hc' := handle?_of_kept hkept hc
    obtain ⟨st, -, hh, -, -⟩ := hi.held _ _ (Session.handle?_of_cursor? hc')
    exact ⟨st, hh, hf.index_eq c st hc' hh⟩
  have hnumber : j.number < h'.session.handles.length :=
    Nat.lt_of_lt_of_le hf.number_lt (hi.later hm).length_le
  have hi' := hi.move hm
  cases hm with
  | stay =>
    refine ⟨passed, hi', hnumber, hf.itinerary.change_of_identities_eq hl rfl rfl, hf.index_eq⟩
  | @splice index values hle =>
    obtain ⟨passed', hfits, hindex⟩ := hf.itinerary.splice hl (hi.length_eq ▸ hle) values
    refine ⟨passed', hi', hnumber, hfits, fun c st' hc hh' => ?_⟩
    obtain ⟨st, hh, hst⟩ := hplace c hc
    rw [← hindex st hst, hh'.unique (hh.splice index values)]
  | @cut start stop hs hle =>
    obtain ⟨passed', hfits, hindex⟩ := hf.itinerary.cut hl hs
    refine ⟨passed', hi', hnumber, hfits, fun c st' hc hh' => ?_⟩
    obtain ⟨st, hh, hst⟩ := hplace c hc
    rw [← hindex st hst, hh'.unique (hh.cut start stop)]
  | @exchange index value =>
    refine ⟨passed, hi', hnumber,
      hf.itinerary.change_of_identities_eq hl (Ledger.identities_exchange _ index value) rfl,
      fun c st' hc hh' => ?_⟩
    obtain ⟨st, hh, hst⟩ := hplace c hc
    rw [← hst, Tracker.Holds.unique hh' hh]
  | @register handle new site hplace' ht =>
    refine ⟨passed, hi', hnumber, hf.itinerary.change_of_identities_eq hl rfl rfl,
      fun c st' hc hh' => ?_⟩
    obtain ⟨st, hh, hst⟩ := hplace c hc
    rw [← hst, hh'.unique (hh.registerState hi.arena new)]
  | @drop n a hn =>
    refine ⟨passed, hi', hnumber, hf.itinerary.change_of_identities_eq hl rfl rfl,
      fun c st' hc hh' => ?_⟩
    obtain ⟨st, hh, hst⟩ := hplace c hc
    obtain ⟨stn, -, hhn, -, -⟩ := hi.held n a hn
    -- The cursor is still held, so another handle is dropped.
    have hne : j.number ≠ n := by
      intro e
      have hnone := Session.handle?_of_cursor? hc
      rw [e, Session.handle?_set hn, if_pos rfl] at hnone
      cases hnone
    have hkey : c.next.key ≠ a.place.key := fun e =>
      hne (hi.apart _ _ _ _ (Session.handle?_of_cursor? (handle?_of_kept hkept hc)) hn e)
    rw [← hst, hh'.unique (hh.release hhn.1 hkey)]
  | @visit n index c' hn hlt =>
    refine ⟨passed, hi', hnumber, hf.itinerary.change_of_identities_eq hl rfl rfl,
      fun c st' hc hh' => ?_⟩
    obtain ⟨st, hh, hst⟩ := hplace c hc
    have hn' := Session.handle?_of_cursor? hn
    have hc' := Session.handle?_of_cursor? (handle?_of_kept hkept hc)
    obtain ⟨stn, -, hhn, -, -⟩ := hi.held n _ hn'
    obtain ⟨-, -, -, -, -, -, hothers⟩ := hhn.replace hi.arena (index + 1) index
    -- The cursor has kept its slot, so another cursor goes on.
    have hne : j.number ≠ n := by
      intro e
      rcases Session.handle?_set_hold hn' (Session.handle?_of_cursor? hc) with ⟨e', -⟩
        | ⟨-, hnew⟩ | ⟨hne, -⟩
      · exact absurd hf.number_lt (e' ▸ Nat.lt_irrefl _)
      · have hkey := hh.key_ne hi.arena ⟨index + 1, true⟩
        rw [Handle.cursor.inj hnew] at hkey
        exact hkey rfl
      · exact hne e
    have hkey : c.next.key ≠ c'.next.key := fun e => hne (hi.apart _ _ _ _ hc' hn' e)
    rw [← hst, hh'.unique (hothers _ _ hh hkey).1]

/-! ### Steps of the cursor -/

/-- A cursor behind the last element stays there. -/
theorem step_next_of_le {h : History α} {n : Nat} {c : Cursor} {st : PositionState}
    (hc : h.session.cursor? n = some c) (hh : h.session.tracker.Holds c.next st)
    (hle : h.session.tracker.length ≤ st.index) : h.step (.next n) = h := by
  simp only [History.step_eq, Session.outcome?, hc, hh.advance, if_pos hle,
    Ledger.record, hh.state_eq, if_neg (Nat.not_lt.2 hle)]
  rfl

/-- A cursor on an element visits it. -/
theorem step_next_of_lt {h : History α} {n : Nat} {c : Cursor} {st : PositionState}
    (hc : h.session.cursor? n = some c) (hh : h.session.tracker.Holds c.next st)
    (hlt : st.index < h.session.tracker.length) :
    let next := h.session.tracker.register (st.index + 1)
    let here := (next.2.release c.next).register st.index
    h.step (.next n) = h.visit n st.index next.1 here.1 here.2 := by
  simp only [History.step_eq, Session.outcome?, hc, hh.advance, if_neg (Nat.not_le.2 hlt),
    Ledger.record, hh.state_eq, if_pos hlt]
  rfl

/-- A step of the cursor keeps the invariant. -/
theorem Fits.next (hf : j.Fits passed) {c : Cursor}
    (hc : j.history.session.cursor? j.number = some c) :
    ∃ passed', Fits ⟨j.history.step (.next j.number), j.number, j.itinerary.next⟩ passed' := by
  have hi := hf.inv
  have hn := Session.handle?_of_cursor? hc
  obtain ⟨st, -, hh, -, -⟩ := hi.held _ _ hn
  have hst := hf.index_eq c st hc hh
  have hlen := hf.itinerary.length_eq
  rw [← hi.length_eq] at hlen
  cases hahead : j.itinerary.ahead with
  | nil =>
    rw [hahead, List.length_nil] at hlen
    have hsame : j.itinerary.next = j.itinerary := by rw [Itinerary.next, hahead]
    rw [step_next_of_le hc hh (by omega), hsame]
    exact ⟨passed, hf⟩
  | cons x rest =>
    rw [hahead, List.length_cons] at hlen
    have hlt : st.index < j.history.session.tracker.length := by omega
    obtain ⟨hfits, -⟩ := hf.itinerary.next hi.ledger hahead
    obtain ⟨-, -, -, hnext, -⟩ :=
      Tracker.Holds.replace (q := c.next) hh hi.arena (st.index + 1) st.index
    rw [step_next_of_lt hc hh hlt]
    refine ⟨passed ++ [x], hi.visit hc hlt, ?_,
      ⟨hfits.identities_eq, hfits.visited_sublist, hfits.visited_nodup, hfits.visited_lt⟩,
      fun c' st' hc' hh' => ?_⟩
    · exact Nat.lt_of_lt_of_le hf.number_lt (by simp [History.visit, Session.hold])
    · rcases Session.handle?_set_hold hn (Session.handle?_of_cursor? hc')
        with ⟨e, -⟩ | ⟨-, hnew⟩ | ⟨hne, -⟩
      · exact absurd hf.number_lt (e ▸ Nat.lt_irrefl _)
      · rw [Handle.cursor.inj hnew] at hh'
        rw [← hnext.unique hh', List.length_append, ← hst]
        rfl
      · exact absurd rfl hne

/-! ### All calls -/

theorem Fits.step (hf : j.Fits passed) (c : Call α) : ∃ passed', (j.step c).Fits passed' := by
  rw [Journey.step]
  split
  · next hnext =>
    obtain ⟨cursor, hc⟩ := Option.isSome_iff_exists.1 hnext.2
    cases c with
    | next n =>
      obtain rfl : n = j.number := by simpa [Call.advances] using hnext.1
      exact hf.next hc
    | _ => exact absurd hnext.1 (by simp [Call.advances])
  · next hother =>
    refine hf.move (hf.inv.move_step c) ?_
    have hkeep : c.advances j.number = false ∨ j.history.session.cursor? j.number = none := by
      rcases Bool.eq_false_or_eq_true (c.advances j.number) with hc | hc
      · exact .inr (by simpa [hc] using hother)
      · exact .inl hc
    rw [History.step_eq]
    split
    · next s hs => exact (Session.handle?_of_outcome? hf.number_lt hs hkeep).imp_right And.right
    · exact .inl rfl

theorem Fits.run (hf : j.Fits passed) (calls : List (Call α)) :
    ∃ passed', (j.run calls).Fits passed' := by
  induction calls generalizing j passed with
  | nil => exact ⟨passed, hf⟩
  | cons c calls ih =>
    obtain ⟨passed', hf'⟩ := hf.step c
    exact ih hf'

/-- A new cursor has passed nothing. -/
theorem fits_start {h : History α} (hi : h.Inv) : (start h).Fits [] where
  inv := hi.step .cursor
  number_lt := by simp [start, History.step_eq, Session.outcome?, Session.hold]
  itinerary := ⟨rfl, List.Sublist.refl _, List.nodup_nil, nofun⟩
  index_eq c st hc hh := by
    have hnew := Tracker.holds_registerState hi.arena ⟨0, true⟩
    rcases Session.handle?_hold.1 (Session.handle?_of_cursor? hc) with hold | ⟨-, hcursor⟩
    · exact absurd (Session.lt_length_of_handle? hold) (Nat.lt_irrefl _)
    · obtain rfl := Handle.cursor.inj hcursor
      rw [← hnew.unique hh]
      rfl

/-! ### What cannot be undone -/

/-- What holds between a journey and the same journey later on. -/
structure Onward (j j' : Journey α) : Prop where
  /-- What has been visited has been visited for good, in this order. -/
  visited : j.itinerary.visited <+: j'.itinerary.visited
  /-- Nothing that was ahead is left out: it is still ahead, it has been visited, or it is gone. -/
  kept : ∀ x ∈ j.itinerary.ahead, x ∈ j'.history.ledger.identities →
    x ∈ j'.itinerary.ahead ∨ x ∈ j'.itinerary.visited
  /-- What was there and not ahead is not visited any more. -/
  passed : ∀ x < j.history.ledger.given, x ∉ j.itinerary.ahead →
    x ∉ j'.itinerary.ahead ∧ (x ∈ j'.itinerary.visited → x ∈ j.itinerary.visited)
  /-- A journey that has come to its end does not go on. -/
  finished : j.itinerary.ahead = [] → j'.itinerary.ahead = []

theorem Onward.refl (j : Journey α) : Onward j j :=
  ⟨List.prefix_rfl, fun _ hx _ => .inl hx, fun _ _ hx => ⟨hx, id⟩, id⟩

/-- A visit takes the element that is next from what is ahead. -/
theorem onward_next (history : History α) : Onward j ⟨history, j.number, j.itinerary.next⟩ := by
  cases hahead : j.itinerary.ahead with
  | nil =>
    have hsame : j.itinerary.next = j.itinerary := by rw [Itinerary.next, hahead]
    rw [hsame]
    exact ⟨List.prefix_rfl, fun _ hx _ => .inl hx, fun _ _ hx => ⟨hx, id⟩, id⟩
  | cons next rest =>
    have hnext : j.itinerary.next = ⟨j.itinerary.visited ++ [next], rest⟩ := by
      rw [Itinerary.next, hahead]
    rw [hnext]
    refine ⟨List.prefix_append _ _, fun x hx _ => ?_, fun x _ hx => ?_, fun hnil => ?_⟩
    · rw [hahead] at hx
      rcases List.mem_cons.1 hx with rfl | hx
      · exact .inr (List.mem_append_right _ List.mem_cons_self)
      · exact .inl hx
    · rw [hahead, List.mem_cons, not_or] at hx
      refine ⟨hx.2, fun hvisited => ?_⟩
      exact (List.mem_append.1 hvisited).resolve_right fun hmem => hx.1 (List.mem_singleton.1 hmem)
    · rw [hahead] at hnil
      cases hnil

/-- Notes that are kept up to date lose only what is gone, and gain only what is new. -/
theorem onward_change (history : History α) :
    Onward j ⟨history, j.number, j.itinerary.change j.history.ledger history.ledger⟩ where
  visited := List.prefix_rfl
  kept x hx hx' := .inl (Itinerary.mem_remaining_of_mem hx hx')
  passed x hlt hx := by
    refine ⟨fun hx' => ?_, id⟩
    exact (Itinerary.mem_remaining hx').elim hx (Nat.not_le.2 hlt)
  finished hnil := by
    change Itinerary.remaining _ _ j.itinerary.ahead = []
    rw [hnil]
    rfl

theorem onward_step (j : Journey α) (c : Call α) : Onward j (j.step c) := by
  rw [Journey.step]
  split
  · exact onward_next _
  · exact onward_change _

theorem Fits.onward_run (hf : j.Fits passed) (calls : List (Call α)) : Onward j (j.run calls) := by
  induction calls generalizing j passed with
  | nil => exact .refl j
  | cons c calls ih =>
    obtain ⟨passed', hf'⟩ := hf.step c
    have hfirst := onward_step j c
    have hrest := ih hf'
    have hgiven := (hf.inv.later (hf.inv.move_step c)).given_le
    have hlater := hf'.inv.later_run calls
    refine ⟨hfirst.visited.trans hrest.visited, fun x hx hx' => ?_, fun x hlt hx => ?_,
      fun hnil => ?_⟩
    · -- What is there in the end was there before.
      have hlt := hf.inv.ledger.lt_given x (hf.itinerary.mem_identities.2 (.inr hx))
      have hmem := hlater.gone x (Nat.lt_of_lt_of_le hlt hgiven) (history_run _ calls ▸ hx')
      rcases hfirst.kept x hx hmem with hahead | hvisited
      · exact hrest.kept x hahead hx'
      · exact .inr (hrest.visited.subset hvisited)
    · obtain ⟨hahead, hvisited⟩ := hfirst.passed x hlt hx
      obtain ⟨hahead', hvisited'⟩ := hrest.passed x (Nat.lt_of_lt_of_le hlt hgiven) hahead
      exact ⟨hahead', fun h => hvisited (hvisited' h)⟩
    · exact hrest.finished (hfirst.finished hnil)

/-! ## The contract of a cursor -/

/-- What a cursor does that stands behind what is passed: it visits the element that is next. -/
theorem Fits.advance (hf : j.Fits passed) {c : Cursor}
    (hc : j.history.session.cursor? j.number = some c) :
    (j.history.session.tracker.state c.next).index = passed.length ∧
    match j.itinerary.ahead with
    | [] => j.history.session.tracker.advance c = .ok none
    | x :: _ => ∃ p c' t', j.history.session.tracker.advance c = .ok (some (p, c', t')) ∧
      t'.items = j.history.session.tracker.items ∧ (t'.state p).valid = true ∧
      j.history.ledger.identities[(t'.state p).index]? = some x := by
  have hi := hf.inv
  obtain ⟨st, -, hh, -, -⟩ := hi.held _ _ (Session.handle?_of_cursor? hc)
  have hh : j.history.session.tracker.Holds c.next st := hh
  have hst := hf.index_eq c st hc hh
  have hlen := hf.itinerary.length_eq
  rw [← hi.length_eq] at hlen
  refine ⟨hh.state_eq ▸ hst, ?_⟩
  rw [hh.advance]
  split
  · next hahead =>
    rw [hahead, List.length_nil] at hlen
    rw [if_pos (by omega)]
  · next x rest hahead =>
    rw [hahead, List.length_cons] at hlen
    obtain ⟨hitems, -, -, -, hhere, -⟩ := hh.replace hi.arena (st.index + 1) st.index
    rw [if_neg (by omega)]
    refine ⟨_, _, _, rfl, hitems, ?_, ?_⟩
    · rw [hhere.state_eq]
    · rw [hhere.state_eq, hf.itinerary.identities_eq, hahead, hst,
        List.getElem?_append_right (Nat.le_refl _), Nat.sub_self]
      rfl

/-- A cursor follows its itinerary, for every list, every cursor and every sequence of calls. In the
    state that is reached, as long as the cursor is held,
    * it stands before what is ahead, and a step goes to the first element that is ahead, or nowhere
      if there is none;
    * what is inserted behind the element that is next is put down in its place, and other
      insertions are not;
    * what is removed is struck out, and nothing else;
    * what is ahead are the last elements of the list, and none of them has been visited;
    * what has been visited and is still in the list comes before them, in the order in which it was
      visited;
    * later on, everything that was ahead and is still there has been visited or is still ahead,
      nothing else that was there has been visited in between, and a cursor that has come to the end
      does not go on (`Onward`). -/
theorem cursor_follows_itinerary {h : History α} (hr : h.Reached) (calls more : List (Call α)) :
    let j := (start h).run calls
    let t := j.history.session.tracker
    let l := j.history.ledger
    let i := j.itinerary
    let next := t.length - i.ahead.length
    (∀ c, j.history.session.cursor? j.number = some c →
      (t.state c.next).index = next ∧
      match i.ahead with
      | [] => t.advance c = .ok none
      | x :: rest => (∃ p c' t', t.advance c = .ok (some (p, c', t')) ∧ t'.items = t.items ∧
          (t'.state p).valid = true ∧ l.identities[(t'.state p).index]? = some x) ∧
        (j.step (.next j.number)).itinerary = ⟨i.visited ++ [x], rest⟩) ∧
    (∀ index values, index ≤ t.length → (i.change l (l.splice index values)).ahead =
      if index ≤ next then i.ahead
      else i.ahead.take (index - next) ++ List.range' l.given values.length ++
        i.ahead.drop (index - next)) ∧
    (∀ start stop, start ≤ stop → (i.change l (l.cut start stop)).ahead =
      i.ahead.filter (· ∈ (l.cut start stop).identities)) ∧
    i.ahead = l.identities.drop next ∧ (i.visited ++ i.ahead).Nodup ∧
    (i.visited.filter (· ∈ l.identities) ++ i.ahead).Sublist l.identities ∧
    Onward j (j.run more) := by
  intro j t l i next
  obtain ⟨passed, hf⟩ := (fits_start hr.inv).run calls
  have hl : l.Sound := hf.inv.ledger
  have hfits : i.Fits l passed := hf.itinerary
  have hnext : next = passed.length := by
    have hlen : t.length = passed.length + i.ahead.length := hf.inv.length_eq.trans hfits.length_eq
    change t.length - i.ahead.length = passed.length
    rw [hlen, Nat.add_sub_cancel]
  rw [hnext]
  refine ⟨fun c hc => ?_, fun index values hle => ?_, fun start stop hs => ?_, ?_, hfits.nodup hl,
    ?_, hf.onward_run more⟩
  · obtain ⟨hindex, hadvance⟩ := hf.advance hc
    refine ⟨hindex, ?_⟩
    have hstep : (j.step (.next j.number)).itinerary = i.next :=
      if_pos ⟨decide_eq_true rfl, by rw [hc]; rfl⟩
    cases hahead : i.ahead with
    | nil =>
      rw [hahead] at hadvance
      exact hadvance
    | cons x rest =>
      rw [hahead] at hadvance
      exact ⟨hadvance, hstep.trans (hfits.next hl hahead).2⟩
  · exact hfits.remaining_splice hl (hf.inv.length_eq ▸ hle) values
  · exact hfits.remaining_cut_eq_filter hl hs
  · rw [hfits.identities_eq, List.drop_left]
  · rw [hfits.identities_eq]
    exact (hfits.identities_eq ▸ hfits.visited_sublist).append (List.Sublist.refl _)

/-- A list is cleared and filled with `b` and `c`, a cursor visits `b`, then `x` is inserted right
    behind `b`, `z` is added and `b` is removed: what is ahead are `c` and `z`, and the cursor goes
    to `c`. -/
theorem cursor_follows_itinerary_of_edits : ∃ h : History Char, h.Reached ∧
    let j := (start h).run [.next 1, .insert 1 'x', .add 'z', .remove 0]
    j.history.session.tracker.items = ['x', 'c', 'z'] ∧ j.itinerary = ⟨[1], [2, 4]⟩ ∧
    ∀ c, j.history.session.cursor? 1 = some c →
      ∃ p c' t', j.history.session.tracker.advance c = .ok (some (p, c', t')) ∧
        t'.items = ['x', 'c', 'z'] ∧ j.history.ledger.identities[(t'.state p).index]? = some 2 := by
  have hr : (((History.start 0 ['a']).step (.position 0)).clear.step
      (.addAll ['b', 'c'])).Reached :=
    .step (.clear (.step (.start 0 ['a']) (.position 0))) (.addAll ['b', 'c'])
  obtain ⟨hcursor, -⟩ :=
    cursor_follows_itinerary hr [.next 1, .insert 1 'x', .add 'z', .remove 0] []
  refine ⟨_, hr, by rfl, by rfl, fun c hc => ?_⟩
  obtain ⟨-, ⟨p, c', t', hadvance, hitems, -, hidentity⟩, -⟩ := hcursor c hc
  exact ⟨p, c', t', hadvance, hitems, hidentity⟩

end Journey

end Taskdown
