import Taskdown.Proofs.Source.Covering
import Taskdown.Proofs.Source.Cutting

/-!
# What a view has in common with another one

Of a view another view of the same source leaves three parts: what is before it, what is in it too,
and what is behind it. Each part is found by a rule of its own, with its own comparisons, and each
may be empty. That the rules fit together is said in two ways: the parts are adjacent, from one end
of the view to the other, and each has the bytes that it should have (`Span.Has`). A span that is
not empty is known by its bytes (`Span.eq_of_has_iff`).

* `Span.has_before`, `Span.has_inter`, `Span.has_after`: the bytes of the parts;
* `Span.containsSome_iff`, `Span.containsAll_iff_inter_eq`: what two spans have in common tells how
  they lie;
* `View.Made.parts_fit_together`: so it is for any two views of a source.
-/

namespace Taskdown

namespace Span

variable {s t : Span} {n : Nat}

/-! ## The bytes of spans -/

/-- The byte at an offset is in the span. -/
def Has (s : Span) (n : Nat) : Prop := s.start ≤ n ∧ n < s.stop

theorem isEmpty_eq_false_iff (hs : s.start ≤ s.stop) : s.isEmpty = false ↔ ∃ n, s.Has n := by
  rw [isEmpty, decide_eq_false_iff_not]
  constructor
  · intro hne
    exact ⟨s.start, Nat.le_refl _, Nat.lt_of_le_of_ne hs hne⟩
  · rintro ⟨n, hstart, hstop⟩ heq
    exact Nat.lt_irrefl n (Nat.lt_of_lt_of_le hstop (heq ▸ hstart))

/-- A span that is not empty is known by its bytes. -/
theorem eq_of_has_iff (hs : ∃ n, s.Has n) (h : ∀ n, s.Has n ↔ t.Has n) : s = t := by
  obtain ⟨n, hstart, hstop⟩ := hs
  have hlt : s.start < s.stop := Nat.lt_of_le_of_lt hstart hstop
  -- The first byte of each span and the last one are in the other.
  have hfirst := (h s.start).1 ⟨Nat.le_refl _, hlt⟩
  have hlast := (h (s.stop - 1)).1 ⟨by omega, by omega⟩
  have hlt' : t.start < t.stop := Nat.lt_of_le_of_lt hfirst.1 hfirst.2
  have hfirst' := (h t.start).2 ⟨Nat.le_refl _, hlt'⟩
  have hlast' := (h (t.stop - 1)).2 ⟨by omega, by omega⟩
  obtain ⟨start, stop⟩ := s
  obtain ⟨start', stop'⟩ := t
  simp only [Has] at hfirst hlast hfirst' hlast' hlt hlt'
  rw [Span.mk.injEq]
  omega

theorem has_before : (s.before t).Has n ↔ s.Has n ∧ n < t.start := by
  rw [before]
  split <;> simp only [Has, atStart] <;> omega

theorem has_inter : (s.inter t).Has n ↔ s.Has n ∧ t.Has n := by
  rw [inter]
  split <;> simp only [Has] <;> omega

theorem has_after : (s.after t).Has n ↔ s.Has n ∧ t.stop ≤ n := by
  rw [after]
  split <;> simp only [Has, atStop] <;> omega

/-! ## How two spans lie -/

/-- From one end to the other, the three parts of a span are in order. -/
theorem parts_in_order (hs : s.start ≤ s.stop) (ht : t.start ≤ t.stop) :
    (s.before t).start = s.start ∧ (s.before t).start ≤ (s.before t).stop ∧
    (s.before t).stop = (s.inter t).start ∧ (s.inter t).start ≤ (s.inter t).stop ∧
    (s.inter t).stop = (s.after t).start ∧ (s.after t).start ≤ (s.after t).stop ∧
    (s.after t).stop = s.stop := by
  refine ⟨?_, ?_, before_stop_eq_inter_start hs, ?_, inter_stop_eq_after_start hs ht, ?_, ?_⟩
  · rw [before]
    split <;> rfl
  · rw [before]
    split <;> simp only [atStart] <;> omega
  · rw [inter]
    split <;> dsimp only <;> omega
  · rw [after]
    split <;> simp only [atStop] <;> omega
  · rw [after]
    split <;> rfl

theorem containsSome_iff : s.containsSome t ↔ ∃ n, s.Has n ∧ t.Has n := by
  rw [containsSome, decide_eq_true_iff]
  constructor
  · intro h
    exact ⟨max s.start t.start, ⟨by omega, by omega⟩, by omega, by omega⟩
  · rintro ⟨n, hs, ht⟩
    simp only [Has] at hs ht
    omega

theorem containsSome_eq (hs : s.start ≤ s.stop) (ht : t.start ≤ t.stop) :
    s.containsSome t = !(s.inter t).isEmpty := by
  have hinter := (parts_in_order hs ht).2.2.2.1
  rw [Bool.eq_iff_iff, Bool.not_eq_true', isEmpty_eq_false_iff hinter, containsSome_iff]
  simp only [has_inter]

/-- Two spans have in common what each has in common with the other. -/
theorem inter_comm_of_not_isEmpty (hs : s.start ≤ s.stop) (ht : t.start ≤ t.stop)
    (h : (s.inter t).isEmpty = false) : s.inter t = t.inter s := by
  have hinter := (parts_in_order hs ht).2.2.2.1
  refine eq_of_has_iff ((isEmpty_eq_false_iff hinter).1 h) fun n => ?_
  rw [has_inter, has_inter, and_comm]

/-- A span is within another one if it is what they have in common. This holds of empty spans too,
    which have no bytes but a place. -/
theorem containsAll_iff_inter_eq (hs : s.start ≤ s.stop) (ht : t.start ≤ t.stop) :
    s.containsAll t ↔ s.inter t = t := by
  rw [containsAll_iff]
  obtain ⟨start, stop⟩ := s
  obtain ⟨start', stop'⟩ := t
  rw [inter]
  split <;> simp only [Span.mk.injEq] at * <;> omega

end Span

namespace View

variable {v w : View}

/-! ## Views -/

theorem sameSource_comm : v.sameSource w = w.sameSource v := by
  rw [sameSource, sameSource, decide_eq_decide]
  exact eq_comm

theorem checkSources_of_sameSource (h : v.sameSource w) (op : PairOp) :
    checkSources op v w = .ok () := if_pos h

/-- A view of the same source is within another one if it lies between its ends. -/
theorem containsAll_eq_true_iff :
    v.containsAll w = .ok true ↔ v.source = w.source ∧ v.start ≤ w.start ∧ w.stop ≤ v.stop := by
  have hlies : v.span.containsAll w.span = true ↔ v.start ≤ w.start ∧ w.stop ≤ v.stop :=
    Span.containsAll_iff
  rw [containsAll, bind_eq_ok_iff, ← hlies]
  constructor
  · rintro ⟨_, hcheck, h⟩
    exact ⟨eq_of_checkSources hcheck, Except.ok.inj h⟩
  · rintro ⟨hsource, h⟩
    exact ⟨(), checkSources_of_sameSource (decide_eq_true hsource) .containsAll,
      congrArg Except.ok h⟩

/-- Of any two views of a source the second one parts the first one in three: what is before it,
    what is in both, and what is behind it. Each part is continued by the next one, and joined
    together in either order they are the view again, with its anchor. They are within the view, and
    their bytes are those of the view that they should be. The views have a byte in common if and
    only if the middle part is not empty, and then it does not matter which of the views is parted;
    the second one is within the first one if and only if it is the middle part. -/
theorem Made.parts_fit_together (hv : v.Made) (hw : w.Made) (hsame : v.sameSource w) :
    ∃ front common back common' : View,
      v.before w = .ok front ∧ v.inter w = .ok common ∧ v.after w = .ok back ∧
      w.inter v = .ok common' ∧ front.isContinuedBy common = .ok true ∧
      common.isContinuedBy back = .ok true ∧
      (∃ u, front.splice common = .ok u ∧ u.splice back = .ok v) ∧
      (∃ u, common.splice back = .ok u ∧ front.splice u = .ok v) ∧
      v.containsSome w = .ok (!common.isEmpty) ∧
      (common.isEmpty = false → common.span = common'.span) ∧
      v.containsAll w = .ok (decide (common.span = w.span)) ∧
      (∀ part ∈ [front, common, back], v.containsAll part = .ok true ∧ part.start ≤ part.stop) ∧
      ∀ n, (front.span.Has n ↔ v.span.Has n ∧ n < w.start) ∧
      (common.span.Has n ↔ v.span.Has n ∧ w.span.Has n) ∧
        (back.span.Has n ↔ v.span.Has n ∧ w.stop ≤ n) := by
  have hcheck := checkSources_of_sameSource hsame
  have hcheck' := checkSources_of_sameSource (sameSource_comm ▸ hsame)
  have hs : v.span.start ≤ v.span.stop := hv.wellFormed.sound.le
  have ht : w.span.start ≤ w.span.stop := hw.wellFormed.sound.le
  obtain ⟨hstart, hfront, hmeet, hcommon, hmeet', hback, hstop⟩ := Span.parts_in_order hs ht
  have hjoin : ∀ {a b c : Span}, a.stop = b.start → c = ⟨a.start, b.stop⟩ →
      (v.withSpan a).splice (v.withSpan b) = .ok (v.withSpan c) := by
    rintro ⟨start, mid⟩ ⟨_, stop⟩ c rfl rfl
    exact splice_withSpan v start mid stop
  have hcontinued : ∀ {a b : Span}, a.stop = b.start →
      (v.withSpan a).isContinuedBy (v.withSpan b) = .ok true := by
    rintro ⟨start, mid⟩ ⟨_, stop⟩ rfl
    exact isContinuedBy_withSpan v start mid stop
  refine ⟨_, _, _, _, bind_of_eq_ok (hcheck .before), bind_of_eq_ok (hcheck .inter),
    bind_of_eq_ok (hcheck .after), bind_of_eq_ok (hcheck' .inter), hcontinued hmeet,
    hcontinued hmeet', ?_, ?_, ?_, ?_, ?_, fun part hpart => ?_,
    fun n => ⟨Span.has_before, Span.has_inter, Span.has_after⟩⟩
  · refine ⟨_, hjoin hmeet rfl, hjoin hmeet' ?_⟩
    exact congrArg₂ Span.mk hstart.symm hstop.symm
  · refine ⟨_, hjoin hmeet' rfl, hjoin hmeet ?_⟩
    exact congrArg₂ Span.mk hstart.symm hstop.symm
  · exact (bind_of_eq_ok (hcheck .containsSome)).trans
      (congrArg Except.ok (Span.containsSome_eq hs ht))
  · exact Span.inter_comm_of_not_isEmpty hs ht
  · refine (bind_of_eq_ok (hcheck .containsAll)).trans (congrArg Except.ok ?_)
    rw [Bool.eq_iff_iff, decide_eq_true_iff]
    exact Span.containsAll_iff_inter_eq hs ht
  · -- Each part lies between the ends of the view because the parts are in order.
    simp only [List.mem_cons, List.not_mem_nil, or_false] at hpart
    rcases hpart with rfl | rfl | rfl
    all_goals
      refine ⟨?_, by assumption⟩
      refine containsAll_eq_true_iff.2 ⟨rfl, ?_⟩
      simp only [start, stop, withSpan]
      omega

/-- Of `éab` the last two characters are cut out, and the end is followed. A place between them
    parts the view, and is what they have in common. -/
theorem Made.parts_fit_together_of_place :
    ∃ v w front back : View, v.Made ∧ w.Made ∧ v.sameSource w ∧ v.anchor = some ⟨4, .left⟩ ∧
    w.span = ⟨3, 3⟩ ∧ v.before w = .ok front ∧ front.span = ⟨2, 3⟩ ∧ v.after w = .ok back ∧
    back.span = ⟨3, 4⟩ ∧ v.containsSome w = .ok false ∧ v.containsAll w = .ok true ∧
    ∃ common u, v.inter w = .ok common ∧ front.splice common = .ok u ∧ u.splice back = .ok v := by
  let source : Source := ⟨0, ['é', 'a', 'b']⟩
  have hcut : View.ofRange source 2 4 = .ok ⟨source, ⟨2, 4⟩, none⟩ := rfl
  have htrack : View.track ⟨source, ⟨2, 4⟩, none⟩ 2 .left = .ok ⟨source, ⟨2, 4⟩, some ⟨4, .left⟩⟩ :=
    rfl
  have hplace : View.ofRange source 3 3 = .ok ⟨source, ⟨3, 3⟩, none⟩ := rfl
  have hv := (Made.ofRange hcut).track .left htrack
  obtain ⟨front, common, back, -, hfront, hcommon, hback, -, -, -, ⟨u, hu, hjoined⟩, -⟩ :=
    Made.parts_fit_together hv (.ofRange hplace) (by decide)
  obtain rfl := Except.ok.inj hfront
  obtain rfl := Except.ok.inj hback
  exact ⟨_, _, _, _, hv, .ofRange hplace, by decide, rfl, rfl, hfront, by decide, hback, by decide,
    by decide, by decide, common, u, hcommon, hu, hjoined⟩

end View

end Taskdown
