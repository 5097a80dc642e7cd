import Taskdown.Proofs.Tracker.Renumbering
import Taskdown.Tracker.Gather

/-!
# Gathering is a stable partition

While elements are gathered, the list has three stretches: those that have been gathered, those that
the cursor has passed over, and those that are still ahead (`Tracker.Gathering`). The boundary
stands between the first two, the cursor between the last two. Each step of the cursor takes the
first element that is ahead and puts it at the end of one of the other two stretches.

* `Tracker.gather_eq`: gathering succeeds, and puts the wanted elements in front of the others, both
  in their order.
-/

namespace Taskdown

namespace Tracker

variable {α : Type} {t : Tracker α} {c : Cursor} {p q boundary here : Position} {i j : Nat}
  {st : PositionState} {front passed ahead : List α} {a : α}

/-- The position has a slot, which says that it stands at an index, valid or not. -/
def StandsAt (t : Tracker α) (p : Position) (i : Nat) : Prop := ∃ valid, t.Holds p ⟨i, valid⟩

theorem StandsAt.index_eq (h : t.StandsAt p i) : (t.state p).index = i := by
  obtain ⟨valid, h⟩ := h
  rw [h.state_eq]

theorem StandsAt.checkOwns (h : t.StandsAt p i) : t.checkOwns p = .ok () := h.choose_spec.checkOwns

theorem StandsAt.release (h : t.StandsAt p i) (hq : t.owns q = true) (hne : p.key ≠ q.key) :
    (t.release q).StandsAt p i :=
  h.imp fun _ h => h.release hq hne

theorem items_release (t : Tracker α) (p : Position) : (t.release p).items = t.items := by
  rw [release]
  split <;> rfl

/-! ## The three stretches -/

/-- The elements are those that have been gathered, those that have been passed over, and those
    ahead, and the two positions stand where one stretch ends and another one starts. -/
structure Gathering (t : Tracker α) (c : Cursor) (boundary : Position)
    (front passed ahead : List α) : Prop where
  arena : t.arena.Sound
  items : t.items = front ++ (passed ++ ahead)
  boundary_at : t.StandsAt boundary front.length
  next_at : t.StandsAt c.next (front.length + passed.length)
  apart : boundary.key ≠ c.next.key

/-- The cursor has just visited an element, whose position is held. The element belongs to no
    stretch. -/
structure Visiting (t : Tracker α) (c : Cursor) (boundary here : Position) (front passed : List α)
    (a : α) (ahead : List α) : Prop where
  arena : t.arena.Sound
  items : t.items = front ++ (passed ++ a :: ahead)
  boundary_at : t.StandsAt boundary front.length
  here_at : t.Holds here ⟨front.length + passed.length, true⟩
  next_at : t.StandsAt c.next (front.length + passed.length + 1)
  boundary_ne : boundary.key ≠ c.next.key
  boundary_ne_here : boundary.key ≠ here.key
  next_ne_here : c.next.key ≠ here.key

/-- With nothing ahead the walk ends. -/
theorem Gathering.advance_nil (h : t.Gathering c boundary front passed []) :
    t.advance c = .ok none := by
  have hlen : t.length = front.length + passed.length := by
    rw [Tracker.length, h.items, List.length_append, List.append_nil]
  rw [advance, h.next_at.checkOwns, h.next_at.index_eq]
  exact if_pos (Nat.le_of_eq hlen)

/-- With an element ahead the cursor visits it. -/
theorem Gathering.advance_cons (h : t.Gathering c boundary front passed (a :: ahead)) :
    ∃ here c' t', t.advance c = .ok (some (here, c', t')) ∧
    t'.Visiting c' boundary here front passed a ahead := by
  obtain ⟨valid, hnext⟩ := h.next_at
  obtain ⟨valid', hboundary⟩ := h.boundary_at
  obtain ⟨hitems, harena, -, hnext', hhere, hne, hothers⟩ :=
    hnext.replace h.arena (front.length + passed.length + 1) (front.length + passed.length)
  obtain ⟨hboundary', hne', hne''⟩ := hothers boundary _ hboundary h.apart
  have hlen : ¬t.length ≤ front.length + passed.length := by
    rw [Tracker.length, h.items]
    simp only [List.length_append, List.length_cons]
    omega
  refine ⟨_, ⟨_⟩, _, ?_,
    ⟨harena, hitems.trans h.items, ⟨_, hboundary'⟩, hhere, ⟨_, hnext'⟩, hne', hne'', hne⟩⟩
  rw [advance, h.next_at.checkOwns, h.next_at.index_eq]
  exact if_neg hlen

/-- What is left of a visit when the position of the element is given up and the element has been
    dealt with. -/
theorem gathering_release {front' passed' : List α} (harena : t.arena.Sound)
    (hitems : t.items = front' ++ (passed' ++ ahead))
    (hboundary : t.StandsAt boundary front'.length)
    (hnext : t.StandsAt c.next (front'.length + passed'.length)) (hhere : t.owns here = true)
    (hne : boundary.key ≠ c.next.key) (hb : boundary.key ≠ here.key) (hn : c.next.key ≠ here.key) :
    (t.release here).Gathering c boundary front' passed' ahead :=
  ⟨sound_release harena here, (items_release t here).trans hitems, hboundary.release hhere hb,
    hnext.release hhere hn, hne⟩

/-! ## Dealing with an element -/

namespace Visiting

variable (h : t.Visiting c boundary here front passed a ahead)

include h

theorem element?_here : t.element? here = .ok (some a) := by
  rw [element?, h.here_at.checkOwns]
  change Except.ok _ = _
  rw [validIndex?, h.here_at.state_eq, h.items, ← List.append_assoc]
  simp

/-- An element that is not wanted is passed over. -/
theorem pass : (t.release here).Gathering c boundary front (passed ++ [a]) ahead := by
  refine gathering_release h.arena (by simp [h.items]) h.boundary_at ?_ h.here_at.1
    h.boundary_ne h.boundary_ne_here h.next_ne_here
  rw [List.length_append]
  exact h.next_at

/-- A wanted element at the boundary is gathered when the boundary moves behind it. -/
theorem step_over (hp : passed = []) : ∃ b t', t.position ((t.state here).index + 1) = .ok (b, t') ∧
    ((t'.release boundary).release here).Gathering c b (front ++ [a]) [] ahead := by
  subst hp
  have hindex : (t.state here).index = front.length := by
    rw [h.here_at.state_eq]
    rfl
  have hle : ¬t.length < front.length + 1 := by
    rw [Tracker.length, h.items]
    simp only [List.length_append, List.length_cons]
    omega
  refine ⟨(t.register (front.length + 1)).1, (t.register (front.length + 1)).2, ?_, ?_⟩
  · rw [position, hindex]
    exact if_neg hle
  · obtain ⟨valid, hb⟩ := h.boundary_at
    obtain ⟨valid', hn⟩ := h.next_at
    have hnew := holds_registerState h.arena (t := t) ⟨front.length + 1, true⟩
    have hnewb := hb.key_ne h.arena ⟨front.length + 1, true⟩
    have hnewn := hn.key_ne h.arena ⟨front.length + 1, true⟩
    have hnewh := h.here_at.key_ne h.arena ⟨front.length + 1, true⟩
    have howns := hb.registerState h.arena ⟨front.length + 1, true⟩
    have hhere := (h.here_at.registerState h.arena ⟨front.length + 1, true⟩).release howns.1
      h.boundary_ne_here.symm
    refine gathering_release (sound_release (h.arena.register _) boundary) ?_ ⟨true, ?_⟩ ⟨valid',
      ?_⟩ hhere.1 hnewn.symm hnewh.symm h.next_ne_here
    · rw [items_release, List.append_assoc]
      exact h.items
    · rw [List.length_append]
      exact hnew.release howns.1 hnewb.symm
    · rw [List.length_append]
      exact (hn.registerState h.arena _).release howns.1 h.boundary_ne.symm

/-- A wanted element behind the boundary is gathered when it is taken out and put back before the
    boundary. -/
theorem move (hp : passed ≠ []) : ∃ t₁ t₂, t.removeAt here = .ok (some (a, t₁)) ∧
    t₁.insertBefore boundary a = .ok (.ok t₂) ∧
    (t₂.release here).Gathering c boundary (front ++ [a]) passed ahead := by
  have hpos : 0 < passed.length := List.length_pos_iff.2 hp
  have hget : t.items[front.length + passed.length]? = some a := by
    rw [h.items, ← List.append_assoc]
    simp
  obtain ⟨valid, hb⟩ := h.boundary_at
  obtain ⟨valid', hn⟩ := h.next_at
  -- Taking the element out leaves the boundary alone and moves the cursor back.
  let t₁ := (t.cut (front.length + passed.length) (front.length + passed.length + 1)).2
  have hitems₁ : t₁.items = front ++ (passed ++ ahead) := by
    change t.items.take _ ++ t.items.drop _ = _
    rw [h.items, ← List.append_assoc, ← List.length_append, List.take_left,
      List.append_cons (front ++ passed) a ahead, ← List.length_singleton (a := a),
      ← List.length_append, List.drop_left, List.append_assoc]
  have hb₁ : t₁.Holds boundary ⟨front.length, valid⟩ := by
    have hcut := hb.cut (front.length + passed.length) (front.length + passed.length + 1)
    rwa [PositionState.removed, if_neg (by simp only; omega), if_neg (by simp only; omega)] at hcut
  have hn₁ : t₁.Holds c.next ⟨front.length + passed.length, valid'⟩ := by
    have hcut := hn.cut (front.length + passed.length) (front.length + passed.length + 1)
    rwa [PositionState.removed, if_pos (by simp only; omega), Nat.add_sub_cancel_left,
      Nat.add_sub_cancel] at hcut
  -- Putting it back before the boundary moves both forward.
  have hlen₁ : ¬t₁.length < front.length := by
    rw [Tracker.length, hitems₁, List.length_append]
    omega
  refine ⟨t₁, t₁.splice front.length [a], ?_, ?_, ?_⟩
  · rw [removeAt, h.here_at.checkOwns]
    change Except.ok _ = _
    rw [validIndex?, h.here_at.state_eq]
    change Except.ok ((t.remove _).toOption) = _
    rw [remove, hget]
    rfl
  · rw [insertBefore, hb₁.checkOwns, hb₁.state_eq]
    change Except.ok (insertAll _ _ _) = _
    rw [insertAll, if_neg hlen₁]
  · refine gathering_release ?_ ?_ ⟨valid, ?_⟩ ⟨valid', ?_⟩ h.here_at.1 h.boundary_ne
      h.boundary_ne_here h.next_ne_here
    · rw [arena_splice, show t₁.arena = _ from arena_cut ..]
      exact (h.arena.mapStates _).mapStates _
    · change t₁.items.take _ ++ [a] ++ t₁.items.drop _ = _
      rw [hitems₁, List.take_left, List.drop_left]
    · rw [List.length_append]
      have := hb₁.splice front.length [a]
      rwa [PositionState.inserted, if_pos (by simp only; omega)] at this
    · rw [List.length_append]
      have := hn₁.splice front.length [a]
      rw [PositionState.inserted, if_pos (by simp only; omega)] at this
      rwa [Nat.add_right_comm]

end Visiting

/-! ## The whole walk -/

/-- From any point of the walk on, the wanted elements ahead end up behind those that have been
    gathered, and the others behind those that have been passed over. -/
theorem Gathering.gatherFrom_eq (wanted : α → Bool) {fuel : Nat} (hfuel : ahead.length ≤ fuel)
    (h : t.Gathering c boundary front passed ahead) :
    ∃ b t', gatherFrom wanted fuel c boundary t = .ok (b, t') ∧
      t'.items = (front ++ ahead.filter wanted) ++ (passed ++ ahead.filter (!wanted ·)) ∧
      (t'.state b).index = (front ++ ahead.filter wanted).length := by
  induction ahead generalizing fuel t c boundary front passed with
  | nil =>
    refine ⟨boundary, t, ?_, by simpa using h.items, by simpa using h.boundary_at.index_eq⟩
    cases fuel with
    | zero => rfl
    | succ fuel => rw [gatherFrom, h.advance_nil, bind_lift_misuse]; rfl
  | cons a ahead ih =>
    obtain ⟨fuel, rfl⟩ :=
      Nat.exists_eq_succ_of_ne_zero (Nat.ne_of_gt (Nat.lt_of_lt_of_le (Nat.succ_pos _) hfuel))
    have hfuel' : ahead.length ≤ fuel := Nat.le_of_succ_le_succ hfuel
    obtain ⟨here, c', t', hadvance, hv⟩ := h.advance_cons
    rw [gatherFrom, hadvance, bind_lift_misuse]
    simp only [hv.element?_here, bind_lift_misuse]
    cases hw : wanted a with
    | false =>
      obtain ⟨b, t'', heq, hitems, hindex⟩ := ih hfuel' hv.pass
      refine ⟨b, t'', heq, ?_, ?_⟩
      · rw [hitems]
        simp [hw]
      · rw [hindex]
        simp [hw]
    | true =>
      simp only [Bool.not_true, Bool.false_eq_true, if_false]
      -- The element stands at the boundary if nothing has been passed over.
      have hindex : (t'.state here).index = (t'.state boundary).index ↔ passed = [] := by
        rw [hv.boundary_at.index_eq, hv.here_at.state_eq, ← List.length_eq_zero_iff]
        simp only
        omega
      by_cases hp : passed = []
      · obtain ⟨b, t₁, hpos, hg⟩ := hv.step_over hp
        rw [if_pos (hindex.2 hp), hpos, bind_lift_error]
        obtain ⟨b', t'', heq, hitems, hi⟩ := ih hfuel' hg
        refine ⟨b', t'', heq, ?_, ?_⟩
        · rw [hitems]
          simp [hw, hp]
        · rw [hi]
          simp [hw]
      · obtain ⟨t₁, t₂, hremove, hinsert, hg⟩ := hv.move hp
        rw [if_neg (mt hindex.1 hp), hremove, bind_lift_misuse]
        simp only [hinsert, bind_lift_misuse, bind_lift_error]
        obtain ⟨b', t'', heq, hitems, hi⟩ := ih hfuel' hg
        refine ⟨b', t'', heq, ?_, ?_⟩
        · rw [hitems]
          simp [hw]
        · rw [hi]
          simp [hw]

/-- Gathering succeeds. The wanted elements end up before the boundary and the others behind it,
    both in their order. -/
theorem gather_eq (wanted : α → Bool) (ha : t.arena.Sound) : ∃ b t', t.gather wanted = .ok (b, t') ∧
    t'.items = t.items.filter wanted ++ t.items.filter (!wanted ·) ∧
    (t'.state b).index = (t.items.filter wanted).length := by
  have hboundary := holds_registerState ha (t := t) ⟨0, true⟩
  have ha' : (t.registerState ⟨0, true⟩).2.arena.Sound := ha.register _
  have hstart : (t.first.2.cursor).2.Gathering t.first.2.cursor.1 t.first.1 [] [] t.items :=
    ⟨ha'.register _, rfl, ⟨_, hboundary.registerState ha' _⟩, ⟨_, holds_registerState ha' _⟩,
      hboundary.key_ne ha' _⟩
  exact hstart.gatherFrom_eq wanted (Nat.le_refl _)

end Tracker

end Taskdown
