import Taskdown.Proofs.Source.Tracing

/-!
# Where bytes come from

A provenance grows at its end, and may merge what it is told with the segment that it has last. None
of this shows in the places that it leads to: a byte keeps its place when more is recorded, a byte
that is copied leads to the byte that it is copied from, and a byte that is written leads to the
start of what it is written for.

* `Provenance.Sound.offsetOf_copy`, `Provenance.Sound.offsetOf_replace`: where the bytes lead when
  one more span is recorded;
* `Provenance.Sound.offsetOf_record`: every byte of every piece of a rewriting leads to its piece.
-/

namespace Taskdown

namespace Segment

variable {segments : List Segment} {default i : Nat}

/-- Every segment that is copied has the width of its span. -/
def AllExact (segments : List Segment) : Prop :=
  ∀ s ∈ segments, s.copied → s.origin.stop = s.origin.start + s.width

theorem totalWidth_append (as bs : List Segment) :
    totalWidth (as ++ bs) = totalWidth as + totalWidth bs := by
  induction as with
  | nil => exact (Nat.zero_add _).symm
  | cons s as ih => rw [List.cons_append, totalWidth, totalWidth, ih, Nat.add_assoc]

/-- Behind other segments, a segment has the places that they leave over. -/
theorem place_append_singleton (default : Nat) (segments : List Segment) (s : Segment) (i : Nat) :
    place default (segments ++ [s]) i =
      if i < totalWidth segments then place default segments i
      else place default [s] (i - totalWidth segments) := by
  induction segments generalizing default i with
  | nil => rfl
  | cons t rest ih =>
    rw [List.cons_append, place, place, totalWidth, ih]
    by_cases ht : i < t.width
    · rw [if_pos ht, if_pos (Nat.lt_of_lt_of_le ht (Nat.le_add_right _ _)), if_pos ht]
    · rw [if_neg ht, if_neg ht, Nat.sub_sub]
      refine if_congr ?_ rfl rfl
      omega

/-- A span that is copied has the places behind all segments, whether it is merged with the last one
    or not. -/
theorem place_appendCopy (h : AllExact segments) (span : Span) :
    place default (Provenance.appendCopy segments span) i =
      if i < totalWidth segments then place default segments i
      else place default [⟨span, span.length, true⟩] (i - totalWidth segments) := by
  fun_induction Provenance.appendCopy segments span generalizing default i with
  | case1 span => rfl
  | case2 last span hmerge =>
    -- The longer segment leads on where the last one has ended.
    have hlast := h last List.mem_cons_self hmerge.1
    have hplace (n : Nat) (hn : last.width ≤ n) :
      last.origin.start + n = span.start + (n - last.width) := by omega
    simp only [place, totalWidth, hmerge.1, if_true]
    by_cases hi : i < last.width
    · rw [if_pos (by omega), if_pos (by omega), if_pos hi]
    · rw [if_neg (by omega : ¬ i < last.width + 0)]
      by_cases hi' : i < last.width + span.length
      · rw [if_pos hi', if_pos (by omega), hplace i (Nat.not_lt.1 hi)]
        rfl
      · rw [if_neg hi', if_neg (by omega)]
  | case3 last span _ => exact place_append_singleton default [last] _ i
  | case4 first second rest span ih =>
    rw [place, place, totalWidth, ih fun s hs => h s (List.mem_cons_of_mem _ hs)]
    by_cases hi : i < first.width
    · rw [if_pos hi, if_pos (Nat.lt_of_lt_of_le hi (Nat.le_add_right _ _)), if_pos hi]
    · rw [if_neg hi, if_neg hi, Nat.sub_sub]
      refine if_congr ?_ rfl rfl
      omega

end Segment

namespace Provenance

variable {p : Provenance} {span : Span} {width i : Nat}

/-- The width of the provenance is that of its segments, and segments that are copied are as wide as
    their spans. -/
structure Sound (p : Provenance) : Prop where
  width_eq : p.width = Segment.totalWidth p.segments
  exact : Segment.AllExact p.segments

theorem sound_empty : Sound {} := ⟨rfl, fun _ h => nomatch h⟩

theorem totalWidth_appendCopy (segments : List Segment) (span : Span) :
    Segment.totalWidth (appendCopy segments span) = Segment.totalWidth segments + span.length := by
  fun_induction appendCopy segments span with
  | case1 span => exact Nat.add_comm _ _
  | case2 last span _ => simp only [Segment.totalWidth, Nat.add_zero]
  | case3 last span _ => simp only [Segment.totalWidth, Nat.add_zero]
  | case4 first second rest span ih =>
    exact (congrArg (first.width + ·) ih).trans (Nat.add_assoc _ _ _).symm

theorem allExact_appendCopy {segments : List Segment} (h : Segment.AllExact segments)
    (hle : span.start ≤ span.stop) : Segment.AllExact (appendCopy segments span) := by
  have hspan : span.stop = span.start + span.length := (Nat.add_sub_cancel' hle).symm
  fun_induction appendCopy segments span with
  | case1 span => exact List.forall_mem_singleton.2 fun _ => hspan
  | case2 last span hmerge =>
    have hlast := h last List.mem_cons_self hmerge.1
    refine List.forall_mem_singleton.2 fun _ => ?_
    change span.stop = last.origin.start + (last.width + span.length)
    omega
  | case3 last span _ =>
    exact List.forall_mem_cons.2 ⟨h last List.mem_cons_self,
      List.forall_mem_singleton.2 fun _ => hspan⟩
  | case4 first second rest span ih =>
    exact List.forall_mem_cons.2 ⟨h first List.mem_cons_self,
      ih (fun s hs => h s (List.mem_cons_of_mem _ hs)) hle hspan⟩

theorem Sound.copy (h : p.Sound) (hle : span.start ≤ span.stop) : (p.copy span).Sound := by
  rw [Provenance.copy]
  split
  · exact h
  · refine ⟨?_, allExact_appendCopy h.exact hle⟩
    rw [totalWidth_appendCopy, ← h.width_eq]

theorem Sound.replace (h : p.Sound) (span : Span) (width : Nat) : (p.replace span width).Sound := by
  rw [Provenance.replace]
  split
  · exact h
  · refine ⟨?_, List.forall_mem_append.2 ⟨h.exact, List.forall_mem_singleton.2 fun h =>
      absurd h Bool.false_ne_true⟩⟩
    rw [Segment.totalWidth_append, ← h.width_eq]
    rfl

theorem width_copy (p : Provenance) (span : Span) :
    (p.copy span).width = p.width + span.length := by
  rw [copy]
  split
  · next hempty =>
    have hlength : span.length = 0 := by
      rw [Span.isEmpty, decide_eq_true_iff] at hempty
      exact Nat.sub_eq_zero_of_le (Nat.le_of_eq hempty.symm)
    rw [hlength, Nat.add_zero]
  · rfl

theorem width_replace (p : Provenance) (span : Span) (width : Nat) :
    (p.replace span width).width = p.width + width := by
  rw [replace]
  split
  · next htrivial => rw [htrivial.2, Nat.add_zero]
  · rfl

/-- The bytes of a span that is copied lead to the span, one by one, and those before them lead
    where they have led. -/
theorem Sound.offsetOf_copy (h : p.Sound) (hlt : span.start < span.stop) (i : Nat) :
    (p.copy span).offsetOf i =
      if i < p.width then p.offsetOf i
      else if i < p.width + span.length then span.start + (i - p.width) else span.stop := by
  have hne : ¬ span.isEmpty := by
    rw [Span.isEmpty, decide_eq_true_iff]
    exact Nat.ne_of_lt hlt
  rw [offsetOf_eq_place, Provenance.copy, if_neg hne, offsetOf_eq_place,
    Segment.place_appendCopy h.exact, ← h.width_eq]
  refine if_congr Iff.rfl rfl ?_
  simp only [Segment.place, if_true]
  refine if_congr ?_ rfl rfl
  have hpos : 0 < span.length := Nat.sub_pos_of_lt hlt
  omega

/-- The bytes that are written in place of a span lead to its start, and those before them lead
    where they have led. -/
theorem Sound.offsetOf_replace (h : p.Sound) (hne : ¬ (span.isEmpty ∧ width = 0)) (i : Nat) :
    (p.replace span width).offsetOf i =
      if i < p.width then p.offsetOf i else if i < p.width + width then span.start
      else span.stop := by
  rw [offsetOf_eq_place, Provenance.replace, if_neg hne, offsetOf_eq_place,
    Segment.place_append_singleton, ← h.width_eq]
  by_cases hi : i < p.width
  · rw [if_pos hi, if_pos hi]
  · rw [if_neg hi, if_neg hi]
    refine if_congr ?_ rfl rfl
    change i - p.width < width ↔ _
    omega

/-! ## Rewritings -/

variable {r before behind : Rewriting} {offset k : Nat}

theorem record_append (offset : Nat) (a b : Rewriting) (p : Provenance) :
    Rewriting.record offset (a ++ b) p =
      Rewriting.record (offset + Text.width a.input) b (Rewriting.record offset a p) := by
  induction a generalizing offset p with
  | nil => rfl
  | cons piece a ih =>
    have hinput : Text.width (Rewriting.input (piece :: a)) = Text.width piece.input +
        Text.width (Rewriting.input a) :=
      Text.width_append _ _
    rw [hinput, ← Nat.add_assoc]
    cases piece with
    | keep c => exact ih _ _
    | change old new => exact ih _ _

/-- The rewritten text is as wide as what is recorded of it. -/
theorem width_record (offset : Nat) (r : Rewriting) (p : Provenance) :
    (Rewriting.record offset r p).width = p.width + Text.width r.output := by
  induction r generalizing offset p with
  | nil => rfl
  | cons piece r ih =>
    have houtput : Text.width (Rewriting.output (piece :: r)) = Text.width piece.output +
        Text.width (Rewriting.output r) :=
      Text.width_append _ _
    rw [houtput, ← Nat.add_assoc]
    cases piece with
    | keep c =>
      refine (ih _ _).trans (congrArg (· + _) ((width_copy p _).trans (congrArg (p.width + ·) ?_)))
      exact Nat.add_sub_cancel_left _ _
    | change old new => exact (ih _ _).trans (congrArg (· + _) (width_replace p _ _))

theorem Sound.record (h : p.Sound) (offset : Nat) (r : Rewriting) :
    (Rewriting.record offset r p).Sound := by
  induction r generalizing offset p with
  | nil => exact h
  | cons piece r ih =>
    cases piece with
    | keep c => exact ih (h.copy (Nat.le_add_right _ _)) _
    | change old new => exact ih (h.replace _ _) _

/-- The place of a byte does not change when more is recorded. -/
theorem Sound.offsetOf_record_of_lt (h : p.Sound) (hi : i < p.width) :
    (Rewriting.record offset r p).offsetOf i = p.offsetOf i := by
  induction r generalizing offset p with
  | nil => rfl
  | cons piece r ih =>
    cases piece with
    | keep c =>
      have hc := Char.utf8Size_pos c
      refine (ih (h.copy (Nat.le_add_right _ _)) (by rw [width_copy]; omega)).trans ?_
      rw [h.offsetOf_copy (Nat.lt_add_of_pos_right hc), if_pos hi]
    | change old new =>
      refine (ih (h.replace _ _) (by rw [width_replace]; omega)).trans ?_
      by_cases htrivial : Span.isEmpty ⟨offset, offset + Text.width old⟩ ∧ Text.width new = 0
      · rw [Provenance.replace, if_pos htrivial]
      · rw [h.offsetOf_replace htrivial, if_pos hi]

/-- A byte of a piece that stays leads to the byte that it was, a byte of any other piece to the
    start of the piece. -/
theorem Sound.offsetOf_record (h : p.Sound) (offset : Nat) (before behind : Rewriting)
    (piece : Piece) (hk : k < Text.width piece.output) :
    (Rewriting.record offset (before ++ piece :: behind) p).offsetOf
    (p.width + Text.width before.output + k) =
      offset + Text.width before.input + if piece.isKept then k else 0 := by
  let start := offset + Text.width before.input
  let earlier := Rewriting.record offset before p
  have hearlier : earlier.Sound := h.record offset before
  have hwidth : earlier.width = p.width + Text.width before.output := width_record offset before p
  rw [record_append, ← hwidth]
  cases piece with
  | keep c =>
    have hsound : (earlier.copy ⟨start, start + c.utf8Size⟩).Sound :=
      hearlier.copy (Nat.le_add_right _ _)
    have hlength : Span.length ⟨start, start + c.utf8Size⟩ = c.utf8Size :=
      Nat.add_sub_cancel_left _ _
    change k < c.utf8Size + 0 at hk
    refine (hsound.offsetOf_record_of_lt (by rw [width_copy, hlength]; omega)).trans ?_
    rw [hearlier.offsetOf_copy (Nat.lt_add_of_pos_right (by omega)), if_neg (by omega),
      hlength, if_pos (by omega), Nat.add_sub_cancel_left]
    rfl
  | change old new =>
    change k < Text.width new at hk
    have hsound : (earlier.replace ⟨start, start + Text.width old⟩ (Text.width new)).Sound :=
      hearlier.replace _ _
    refine (hsound.offsetOf_record_of_lt (by rw [width_replace]; omega)).trans ?_
    rw [hearlier.offsetOf_replace (by omega), if_neg (by omega), if_pos (by omega)]
    rfl

end Provenance

end Taskdown
