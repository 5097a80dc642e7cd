import Taskdown.Proofs.Tracker.Clearing

/-!
# What a cursor visits

A cursor keeps one position, and the list is edited while it walks. Still it visits what anybody
would visit who has written down at the start what there is to visit, and has kept these notes up to
date: who strikes out what is removed, puts down what is inserted behind the element that is next,
and does not care about insertions elsewhere. Such notes are an `Itinerary`. They are kept without
looking at the cursor, its position or any index (`Itinerary.change`).

The list is what is passed, and then what is ahead (`Itinerary.Fits`). So the notes tell where a
cursor stands that follows them, and edits move it along with them.

* `Itinerary.Fits.remaining_splice`, `Itinerary.Fits.remaining_cut`: how notes are kept in terms of
  indices;
* `Itinerary.Fits.splice`, `Itinerary.Fits.cut`: a position behind what is passed is moved behind
  what is passed then;
* `Itinerary.Fits.next`: a step takes one element from what is ahead to what is passed.
-/

namespace Taskdown

variable {α : Type}

/-! ## Itineraries -/

/-- What has been visited and what is to be visited, by identity. -/
structure Itinerary where
  visited : List Nat
  ahead : List Nat
deriving DecidableEq, Repr

namespace Itinerary

/-- The next element is visited. -/
def next (i : Itinerary) : Itinerary :=
  match i.ahead with
  | [] => i
  | x :: rest => ⟨i.visited ++ [x], rest⟩

/-- What is ahead after a change of the list: what was ahead and is still there, and what is new and
    stands behind the element that is next, in the order of the list. -/
def remaining (l l' : Ledger α) : List Nat → List Nat
  | [] => []
  | next :: rest => l'.identities.filter fun x =>
    x ∈ next :: rest ∨ l.given ≤ x ∧ x ∈ l'.identities.dropWhile (· ≠ next)

/-- The itinerary after a change of the list. -/
def change (l l' : Ledger α) (i : Itinerary) : Itinerary :=
  { i with ahead := remaining l l' i.ahead }

/-- The itinerary is up to date: the list is what is passed, and then what is ahead. What has been
    visited and is still in the list is passed, in the order in which it was visited. -/
structure Fits (i : Itinerary) (l : Ledger α) (passed : List Nat) : Prop where
  identities_eq : l.identities = passed ++ i.ahead
  visited_sublist : (i.visited.filter (· ∈ l.identities)).Sublist passed
  visited_nodup : i.visited.Nodup
  visited_lt : ∀ x ∈ i.visited, x < l.given

variable {l l' : Ledger α} {i : Itinerary} {ahead passed passed' ahead' : List Nat}

theorem mem_remaining {x : Nat} (hx : x ∈ remaining l l' ahead) : x ∈ ahead ∨ l.given ≤ x := by
  cases ahead with
  | nil => cases hx
  | cons next rest => exact (of_decide_eq_true (List.mem_filter.1 hx).2).imp_right And.left

theorem mem_remaining_of_mem {x : Nat} (hx : x ∈ ahead) (hx' : x ∈ l'.identities) :
    x ∈ remaining l l' ahead := by
  cases ahead with
  | nil => cases hx
  | cons next rest => exact List.mem_filter.2 ⟨hx', decide_eq_true (.inl hx)⟩

/-- The list after a change consists of what is passed and what is ahead, if it starts with nothing
    that was ahead and ends with nothing else but what is new. -/
theorem remaining_eq (hids : l'.identities = passed' ++ ahead') (hnodup : l'.identities.Nodup)
    (hpassed : ∀ x ∈ passed', x ∉ ahead) (hahead : ∀ x ∈ ahead', x ∈ ahead ∨ l.given ≤ x)
    (hempty : ahead = [] → ahead' = [])
    (hnew : ∀ x ∈ l'.identities, l.given ≤ x → ahead'.head? = ahead.head?) :
    remaining l l' ahead = ahead' := by
  cases ahead with
  | nil => exact (hempty rfl).symm
  | cons next rest =>
    -- If there is anything new, what is ahead still starts with the element that was next.
    have hbehind : ∀ x ∈ l'.identities, l.given ≤ x →
        l'.identities.dropWhile (· ≠ next) = ahead' := by
      intro x hx hgiven
      obtain ⟨rest', rfl⟩ := List.head?_eq_some_iff.1 (hnew x hx hgiven)
      rw [hids, List.dropWhile_append_of_pos fun y hy => ?_, List.dropWhile_cons_of_neg (by simp)]
      rw [decide_eq_true_eq]
      rintro rfl
      exact hpassed y hy List.mem_cons_self
    have hdisjoint := (List.nodup_append.1 (hids ▸ hnodup)).2.2
    rw [remaining]
    refine (congrArg (List.filter _) hids).trans ?_
    rw [List.filter_append, List.filter_eq_nil_iff.2, List.filter_eq_self.2, List.nil_append]
    · intro x hx
      have hmem : x ∈ l'.identities := hids ▸ List.mem_append_right _ hx
      rw [decide_eq_true_eq]
      refine (hahead x hx).imp id fun hgiven => ⟨hgiven, ?_⟩
      rwa [hbehind x hmem hgiven]
    · intro x hx
      have hmem : x ∈ l'.identities := hids ▸ List.mem_append_left _ hx
      rw [decide_eq_true_eq]
      rintro (hx' | ⟨hgiven, hx'⟩)
      · exact hpassed x hx hx'
      · rw [hbehind x hmem hgiven] at hx'
        exact hdisjoint x hx x hx' rfl

/-! ### Keeping notes -/

/-- What a duplicate-free list has in common with a part of it is that part. -/
theorem filter_mem_eq {part whole : List Nat} (h : part.Sublist whole) (hnodup : whole.Nodup) :
    whole.filter (· ∈ part) = part := by
  have hsublist : part.Sublist (whole.filter (· ∈ part)) := by
    have hfilter := h.filter (· ∈ part)
    rwa [List.filter_eq_self.2 fun x hx => decide_eq_true hx] at hfilter
  have hperm : (whole.filter (· ∈ part)).Perm part := by
    refine (List.perm_ext_iff_of_nodup (hnodup.filter _) (hnodup.sublist h)).2 fun x => ?_
    rw [List.mem_filter, decide_eq_true_eq, and_iff_right_of_imp (h.subset ·)]
  exact (hsublist.eq_of_length hperm.length_eq.symm).symm

theorem Fits.mem_identities (h : i.Fits l passed) {x : Nat} :
    x ∈ l.identities ↔ x ∈ passed ∨ x ∈ i.ahead := by
  rw [h.identities_eq, List.mem_append]

theorem Fits.not_mem_ahead (h : i.Fits l passed) (hl : l.Sound) {x : Nat} (hx : x ∈ passed) :
    x ∉ i.ahead := by
  intro hx'
  exact (List.nodup_append.1 (h.identities_eq ▸ hl.nodup)).2.2 x hx x hx' rfl

theorem Fits.length_eq (h : i.Fits l passed) :
    l.elements.length = passed.length + i.ahead.length := by
  rw [← l.length_identities, h.identities_eq, List.length_append]

/-- What has been visited is not ahead. -/
theorem Fits.nodup (h : i.Fits l passed) (hl : l.Sound) : (i.visited ++ i.ahead).Nodup := by
  refine List.nodup_append.2 ⟨h.visited_nodup, ?_, ?_⟩
  · exact (List.nodup_append.1 (h.identities_eq ▸ hl.nodup)).2.1
  · rintro x hx _ hx' rfl
    have hmem : x ∈ l.identities := h.mem_identities.2 (.inr hx')
    exact h.not_mem_ahead hl
      (h.visited_sublist.subset (List.mem_filter.2 ⟨hx, decide_eq_true hmem⟩)) hx'

/-- A change that leaves all identities where they are changes no notes. -/
theorem Fits.change_eq_self (h : i.Fits l passed) (hl : l.Sound)
    (hids : l'.identities = l.identities) : i.change l l' = i := by
  have hremaining : remaining l l' i.ahead = i.ahead := by
    refine remaining_eq (hids.trans h.identities_eq) (hids ▸ hl.nodup) (fun x => h.not_mem_ahead hl)
      (fun x => .inl) id fun x _ _ => rfl
  rw [change, hremaining]

theorem Fits.change_of_identities_eq (h : i.Fits l passed) (hl : l.Sound)
    (hids : l'.identities = l.identities) (hgiven : l'.given = l.given) :
    (i.change l l').Fits l' passed := by
  rw [h.change_eq_self hl hids]
  refine ⟨hids.trans h.identities_eq, ?_, h.visited_nodup, hgiven ▸ h.visited_lt⟩
  rw [hids]
  exact h.visited_sublist

theorem Fits.identities_splice_of_le (h : i.Fits l passed) {index : Nat}
    (hle : index ≤ passed.length) (values : List α) : (l.splice index values).identities =
      passed.take index ++ List.range' l.given values.length ++ passed.drop index ++ i.ahead := by
  rw [Ledger.identities_splice, h.identities_eq, List.take_append_of_le_length hle,
    List.drop_append_of_le_length hle, ← List.append_assoc]

theorem Fits.identities_splice_of_lt (h : i.Fits l passed) {index : Nat}
    (hlt : passed.length < index) (values : List α) : (l.splice index values).identities =
      passed ++ (i.ahead.take (index - passed.length) ++ List.range' l.given values.length ++
        i.ahead.drop (index - passed.length)) := by
  rw [Ledger.identities_splice, h.identities_eq, List.take_append,
    List.take_of_length_le (Nat.le_of_lt hlt), List.drop_append,
    List.drop_eq_nil_of_le (Nat.le_of_lt hlt), List.nil_append]
  simp only [List.append_assoc]

/-- Insertions behind the element that is next are put down where they are made, and no others. -/
theorem Fits.remaining_splice (h : i.Fits l passed) (hl : l.Sound) {index : Nat}
    (hi : index ≤ l.elements.length) (values : List α) :
    remaining l (l.splice index values) i.ahead =
      if index ≤ passed.length then i.ahead
      else i.ahead.take (index - passed.length) ++ List.range' l.given values.length ++
        i.ahead.drop (index - passed.length) := by
  have hnodup := (hl.splice index values).nodup
  have hnew : ∀ x ∈ List.range' l.given values.length, l.given ≤ x :=
    fun x hx => (List.mem_range'_1.1 hx).1
  split
  · next hle =>
    refine remaining_eq (h.identities_splice_of_le hle values) hnodup
      (fun x hx => ?_) (fun x => .inl) id fun x _ _ => rfl
    rcases List.mem_append.1 hx with hx | hx
    · rcases List.mem_append.1 hx with hx | hx
      · exact h.not_mem_ahead hl (List.mem_of_mem_take hx)
      · -- A new identity was not there before.
        intro hahead
        have hlt := hl.lt_given x (h.mem_identities.2 (.inr hahead))
        exact Nat.not_lt.2 (hnew x hx) hlt
    · exact h.not_mem_ahead hl (List.mem_of_mem_drop hx)
  · next hlt =>
    have hlen := h.length_eq
    refine remaining_eq (h.identities_splice_of_lt (Nat.lt_of_not_le hlt) values) hnodup
      (fun x => h.not_mem_ahead hl) (fun x hx => ?_) (fun hempty => ?_) fun x _ _ => ?_
    · rcases List.mem_append.1 hx with hx | hx
      · exact (List.mem_append.1 hx).imp List.mem_of_mem_take (hnew x)
      · exact .inl (List.mem_of_mem_drop hx)
    · -- With nothing ahead there is no place behind what is next.
      rw [hempty, List.length_nil] at hlen
      omega
    · obtain ⟨k, hk⟩ : ∃ k, index - passed.length = k + 1 := ⟨index - passed.length - 1, by omega⟩
      cases hahead : i.ahead with
      | nil =>
        rw [hahead, List.length_nil] at hlen
        omega
      | cons next rest =>
        rw [hk]
        rfl

/-- Inserting keeps notes up to date, and a cursor that stands behind what is passed does so
    afterwards. -/
theorem Fits.splice (h : i.Fits l passed) (hl : l.Sound) {index : Nat}
    (hi : index ≤ l.elements.length) (values : List α) :
    ∃ passed', (i.change l (l.splice index values)).Fits (l.splice index values) passed' ∧
      ∀ st : PositionState, st.index = passed.length → (st.inserted index values.length).index =
        passed'.length := by
  have hremaining := h.remaining_splice hl hi values
  have hvisited : i.visited.filter (· ∈ (l.splice index values).identities) =
      i.visited.filter (· ∈ l.identities) := by
    refine List.filter_congr fun x hx => ?_
    rw [decide_eq_decide]
    exact Ledger.mem_identities_splice (h.visited_lt x hx)
  have hlt : ∀ x ∈ i.visited, x < (l.splice index values).given := fun x hx =>
    Nat.lt_add_right _ (h.visited_lt x hx)
  by_cases hle : index ≤ passed.length
  · rw [if_pos hle] at hremaining
    refine ⟨passed.take index ++ List.range' l.given values.length ++ passed.drop index,
      ⟨?_, ?_, h.visited_nodup, hlt⟩, fun st hst => ?_⟩
    · rw [change, hremaining]
      exact h.identities_splice_of_le hle values
    · change List.Sublist (i.visited.filter _) _
      rw [hvisited]
      refine h.visited_sublist.trans ?_
      conv => lhs; rw [← List.take_append_drop index passed]
      exact (List.sublist_append_left _ _).append (List.Sublist.refl _)
    · rw [PositionState.inserted, if_pos (hst ▸ hle)]
      simp only [List.length_append, List.length_take, List.length_drop, List.length_range', hst]
      omega
  · rw [if_neg hle] at hremaining
    refine ⟨passed, ⟨?_, ?_, h.visited_nodup, hlt⟩, fun st hst => ?_⟩
    · rw [change, hremaining]
      exact h.identities_splice_of_lt (Nat.lt_of_not_le hle) values
    · change List.Sublist (i.visited.filter _) _
      rw [hvisited]
      exact h.visited_sublist
    · rw [PositionState.inserted, if_neg (hst ▸ hle), hst]

theorem Fits.identities_cut (h : i.Fits l passed) (start stop : Nat) (hs : start ≤ stop) :
    (l.cut start stop).identities = (passed.take start ++ passed.drop stop) ++
      (i.ahead.take (start - passed.length) ++ i.ahead.drop (stop - passed.length)) := by
  rw [Ledger.identities_cut, h.identities_eq, List.take_append, List.drop_append]
  rcases Nat.le_total stop passed.length with hle | hle
  · rw [Nat.sub_eq_zero_of_le (Nat.le_trans hs hle), List.take_zero,
      List.append_nil, List.nil_append, List.append_assoc]
  · rw [List.drop_eq_nil_of_le hle, List.append_nil, List.nil_append, List.append_assoc]

/-- What is removed is struck out. -/
theorem Fits.remaining_cut (h : i.Fits l passed) (hl : l.Sound) {start stop : Nat}
    (hs : start ≤ stop) : remaining l (l.cut start stop) i.ahead =
      i.ahead.take (start - passed.length) ++ i.ahead.drop (stop - passed.length) := by
  refine remaining_eq (h.identities_cut start stop hs) (hl.cut hs).nodup (fun x hx => ?_)
    (fun x hx => .inl ?_) (fun hempty => ?_) fun x hx hgiven => ?_
  · rcases List.mem_append.1 hx with hx | hx
    · exact h.not_mem_ahead hl (List.mem_of_mem_take hx)
    · exact h.not_mem_ahead hl (List.mem_of_mem_drop hx)
  · exact (List.mem_append.1 hx).elim List.mem_of_mem_take List.mem_of_mem_drop
  · rw [hempty, List.take_nil, List.drop_nil, List.append_nil]
  · -- Nothing is new.
    exact absurd ((hl.cut hs).lt_given x hx) (Nat.not_lt.2 hgiven)

/-- What is still there after a removal is not struck out. -/
theorem Fits.remaining_cut_eq_filter (h : i.Fits l passed) (hl : l.Sound) {start stop : Nat}
    (hs : start ≤ stop) :
    remaining l (l.cut start stop) i.ahead =
    i.ahead.filter (· ∈ (l.cut start stop).identities) := by
  have hsublist : (i.ahead.take (start - passed.length) ++
      i.ahead.drop (stop - passed.length)).Sublist i.ahead := by
    conv => rhs; rw [← List.take_append_drop (start - passed.length) i.ahead]
    exact (List.Sublist.refl _).append (List.drop_sublist_drop_left _ (Nat.sub_le_sub_right hs _))
  have hnodup := (List.nodup_append.1 (h.identities_eq ▸ hl.nodup)).2.1
  rw [h.remaining_cut hl hs, ← filter_mem_eq hsublist hnodup]
  refine List.filter_congr fun x hx => ?_
  rw [decide_eq_decide, h.identities_cut start stop hs, List.mem_append (t := _ ++ i.ahead.drop _),
    or_iff_right]
  intro hpassed
  refine h.not_mem_ahead hl ?_ hx
  exact (List.mem_append.1 hpassed).elim List.mem_of_mem_take List.mem_of_mem_drop

/-- Removing keeps notes up to date, and a cursor that stands behind what is passed does so
    afterwards. -/
theorem Fits.cut (h : i.Fits l passed) (hl : l.Sound) {start stop : Nat} (hs : start ≤ stop) :
    ∃ passed', (i.change l (l.cut start stop)).Fits (l.cut start stop) passed' ∧
      ∀ st : PositionState, st.index = passed.length → (st.removed start (stop - start)).index =
        passed'.length := by
  have hids := h.identities_cut start stop hs
  have hsublist : (passed.take start ++ passed.drop stop).Sublist passed := by
    conv => rhs; rw [← List.take_append_drop start passed]
    exact (List.Sublist.refl _).append (List.drop_sublist_drop_left _ hs)
  refine ⟨passed.take start ++ passed.drop stop, ⟨?_, ?_, h.visited_nodup, h.visited_lt⟩,
    fun st hst => ?_⟩
  · rw [change, h.remaining_cut hl hs]
    exact hids
  · have hnodup := (List.nodup_append.1 (h.identities_eq ▸ hl.nodup)).1
    have hvisited := h.visited_sublist.filter (· ∈ passed.take start ++ passed.drop stop)
    rw [filter_mem_eq hsublist hnodup, List.filter_filter] at hvisited
    refine Eq.subst (motive := (List.Sublist · _)) (List.filter_congr fun x hx => ?_) hvisited
    rw [← Bool.decide_and, decide_eq_decide, hids, List.mem_append (t := _ ++ i.ahead.drop _)]
    constructor
    · exact fun hx' => .inl hx'.1
    · -- What has been visited and is still there was there before, so it is passed.
      intro hx'
      have hmem : x ∈ l.identities :=
        Ledger.mem_of_mem_identities_cut (hids ▸ List.mem_append.2 hx')
      have hpassed : x ∈ passed :=
        h.visited_sublist.subset (List.mem_filter.2 ⟨hx, decide_eq_true hmem⟩)
      refine ⟨hx'.resolve_right fun hahead => h.not_mem_ahead hl hpassed ?_, hmem⟩
      exact (List.mem_append.1 hahead).elim List.mem_of_mem_take List.mem_of_mem_drop
  · simp only [List.length_append, List.length_take, List.length_drop]
    rw [PositionState.removed, show start + (stop - start) = stop by omega]
    split
    · simp only
      omega
    · split
      · simp only
        omega
      · omega

/-! ### Going on -/

/-- The element that is next is visited, and passed. -/
theorem Fits.next (h : i.Fits l passed) (hl : l.Sound) {x : Nat} {rest : List Nat}
    (hahead : i.ahead = x :: rest) :
    i.next.Fits l (passed ++ [x]) ∧ i.next = ⟨i.visited ++ [x], rest⟩ := by
  have hnext : i.next = ⟨i.visited ++ [x], rest⟩ := by rw [Itinerary.next, hahead]
  have hx : x ∈ l.identities := h.mem_identities.2 (.inr (hahead ▸ List.mem_cons_self))
  refine ⟨?_, hnext⟩
  rw [hnext]
  refine ⟨?_, ?_, ?_, fun y hy => ?_⟩
  · rw [h.identities_eq, hahead, List.append_assoc]
    rfl
  · rw [List.filter_append, List.filter_cons_of_pos (by simpa using hx)]
    exact h.visited_sublist.append (List.Sublist.refl _)
  · have hnodup := h.nodup hl
    rw [hahead, List.append_cons] at hnodup
    exact (List.nodup_append.1 hnodup).1
  · rcases List.mem_append.1 hy with hy | hy
    · exact h.visited_lt y hy
    · obtain rfl := List.mem_singleton.1 hy
      exact hl.lt_given y hx

end Itinerary

end Taskdown
