import Taskdown.Proofs.Source.Coordinates

/-!
# Views cut into parts

A view can be cut into consecutive parts, none of them empty (`View.Cut`); its lines are such parts.
Every part follows the anchor of the view, and whether it shows it depends on the ends of the part
alone (`Anchor.In`). One cut of a span decides the rest: the anchor is in the span if and only if it
is in one of the two sides, and it is in both just when it stands on the cut and is drawn to neither
side.

* `Anchor.in_iff_of_cut`, `Anchor.eq_of_in_both`, `Anchor.bias_of_in_both`: where the anchor is when
  a span is cut once;
* `View.Sound.cut_lines`: the lines of a view are a cut of it;
* `View.Made.anchor_stays_in_parts`: the parts of a view show its anchor once, or twice if it has no
  bias and stands between two parts, and joined together they are the view.
-/

namespace Taskdown

theorem Text.ne_nil_of_mem_lines {cs l : Text} (h : l ∈ lines cs) : l ≠ [] := by
  induction cs using byLines with
  | nil => cases h
  | line body terminator rest hfirst hlines ih =>
    rw [hlines] at h
    rcases List.mem_cons.1 h with rfl | h
    · exact hfirst.nonempty
    · exact ih h

/-! ## Anchors in spans -/

namespace Anchor

variable {a : Anchor} {start mid stop size : Nat} {span : Span}

/-- The anchor is in a span that is not empty, or on a border of the span and not drawn away from it
    to text that exists. -/
def In (a : Anchor) (span : Span) (size : Nat) : Prop :=
  span.start < span.stop ∧ span.start ≤ a.offset ∧ a.offset ≤ span.stop ∧
    ¬ (a.offset = span.start ∧ a.bias = .left ∧ 0 < span.start) ∧
    ¬ (a.offset = span.stop ∧ a.bias = .right ∧ span.stop < size)

theorem anchorIndex_of_in (h : a.In span size) :
    View.anchorIndex span size a = some (a.offset - span.start) := by
  obtain ⟨hlt, hstart, hstop, hleft, hright⟩ := h
  have hne : ¬ span.isEmpty := by
    rw [Span.isEmpty, decide_eq_true_iff]
    exact Nat.ne_of_lt hlt
  rw [View.anchorIndex, if_neg (by omega), if_neg hne, if_neg hleft, if_neg hright]

theorem anchorIndex_of_not_in (h : ¬ a.In span size) (hlt : span.start < span.stop) :
    View.anchorIndex span size a = none := by
  have hne : ¬ span.isEmpty := by
    rw [Span.isEmpty, decide_eq_true_iff]
    exact Nat.ne_of_lt hlt
  rw [View.anchorIndex, if_neg hne]
  split
  · rfl
  · next hrange =>
    split
    · rfl
    · next hleft =>
      split
      · rfl
      · next hright => exact absurd ⟨hlt, by omega, by omega, hleft, hright⟩ h

theorem anchorIndex_eq_some_iff (hlt : span.start < span.stop) {i : Nat} :
    View.anchorIndex span size a = some i ↔ a.In span size ∧ span.start + i = a.offset := by
  by_cases hin : a.In span size
  · have hstart : span.start ≤ a.offset := hin.2.1
    rw [anchorIndex_of_in hin, Option.some_inj, and_iff_right hin]
    omega
  · rw [anchorIndex_of_not_in hin hlt]
    exact iff_of_false (Option.some_ne_none i).symm fun h => hin h.1

/-- An anchor in a span is in one of the sides of a cut. -/
theorem in_iff_of_cut (hstart : start < mid) (hmid : mid ≤ stop) (hstop : stop ≤ size) :
    a.In ⟨start, stop⟩ size ↔ a.In ⟨start, mid⟩ size ∨ a.In ⟨mid, stop⟩ size := by
  obtain ⟨offset, bias⟩ := a
  cases bias <;> simp only [In, reduceCtorEq, true_and, false_and, and_false, not_false_eq_true,
    and_true] <;> omega

/-- Only an anchor on the cut can be in both sides. -/
theorem eq_of_in_both (hfirst : a.In ⟨start, mid⟩ size) (hrest : a.In ⟨mid, stop⟩ size) :
    a.offset = mid :=
  Nat.le_antisymm hfirst.2.2.1 hrest.2.1

/-- Only an anchor without bias can be in both sides. -/
theorem bias_of_in_both (hstart : start < mid) (hstop : stop ≤ size)
    (hfirst : a.In ⟨start, mid⟩ size) (hrest : a.In ⟨mid, stop⟩ size) : a.bias = .neutral := by
  have hoffset := eq_of_in_both hfirst hrest
  obtain ⟨-, -, -, -, hright⟩ := hfirst
  obtain ⟨hlt, -, -, hleft, -⟩ := hrest
  cases hb : a.bias with
  | neutral => rfl
  | left => exact absurd ⟨hoffset, hb, Nat.zero_lt_of_lt hstart⟩ hleft
  | right => exact absurd ⟨hoffset, hb, Nat.lt_of_lt_of_le hlt hstop⟩ hright

end Anchor

namespace View

variable {v w : View} {ws : List View} {a : Anchor} {i j : Nat}

/-! ## Cuts -/

/-- The views are the consecutive parts of a view from an index to its end, and none of them is
    empty. -/
inductive CutFrom (v : View) : Nat → List View → Prop
  | done : CutFrom v v.length []
  | part {i j : Nat} {w : View} {ws : List View} (hlt : i < j) (hw : v.sub i j = .ok w)
    (hws : CutFrom v j ws) : CutFrom v i (w :: ws)

/-- The views are the consecutive parts of a view, and none of them is empty. -/
def Cut (v : View) (ws : List View) : Prop := v.CutFrom 0 ws

theorem sub_eq_ok_iff :
    v.sub i j = .ok w ↔ i ≤ j ∧ j ≤ v.length ∧ Text.isBoundary v.source.text (v.start + i) ∧
    Text.isBoundary v.source.text (v.start + j) ∧ w = v.withSpan ⟨v.start + i, v.start + j⟩ := by
  rw [View.sub]
  constructor
  · intro h
    split at h
    · cases h
    · next hrange =>
      obtain ⟨_, hi, h⟩ := bind_eq_ok_iff.1 h
      obtain ⟨_, hj, h⟩ := bind_eq_ok_iff.1 h
      exact ⟨by omega, by omega, isBoundary_of_checkBoundary hi, isBoundary_of_checkBoundary hj,
        (Except.ok.inj h).symm⟩
  · rintro ⟨hij, hj, hi', hj', rfl⟩
    rw [if_neg (by omega), checkBoundary, if_pos hi', checkBoundary, if_pos hj']
    rfl

/-- As long as something is left, there is another part. -/
theorem CutFrom.exists_cons (h : v.CutFrom i ws) (hlt : i < v.length) : ∃ j rest,
    ws = v.withSpan ⟨v.start + i, v.start + j⟩ :: rest ∧ v.CutFrom j rest := by
  cases h with
  | done => exact absurd hlt (Nat.lt_irrefl _)
  | @part _ j w rest _ hw hrest =>
    obtain ⟨-, -, -, -, rfl⟩ := sub_eq_ok_iff.1 hw
    exact ⟨j, rest, rfl, hrest⟩

/-! ## Anchors in parts -/

/-- Those views in the middle show the anchor at its offset, and the others do not show it. -/
structure Marked (a : Anchor) (before shown behind : List View) : Prop where
  shown : ∀ w ∈ shown, ∃ i, w.trackedIndex = some i ∧ w.start + i = a.offset
  others : ∀ w ∈ before ++ behind, w.trackedIndex = none

theorem trackedIndex_withSpan (ha : v.anchor = some a) (span : Span) :
    (v.withSpan span).trackedIndex = anchorIndex span v.source.size a := by
  change v.anchor.bind _ = _
  rw [ha]
  rfl

/-- If the anchor is not in the rest of a view, none of the parts of the rest shows it. -/
theorem CutFrom.not_shown (h : v.CutFrom i ws) (ha : v.anchor = some a)
    (hsize : v.start + v.length ≤ v.source.size)
    (hnot : ¬ a.In ⟨v.start + i, v.start + v.length⟩ v.source.size) :
    ∀ w ∈ ws, w.trackedIndex = none := by
  induction h with
  | done => exact nofun
  | @part i j w ws hlt hw hws ih =>
    obtain ⟨-, hj, -, -, rfl⟩ := sub_eq_ok_iff.1 hw
    rw [Anchor.in_iff_of_cut (Nat.add_lt_add_left hlt _) (Nat.add_le_add_left hj _) hsize, not_or]
      at hnot
    refine List.forall_mem_cons.2 ⟨?_, ih hnot.2⟩
    rw [trackedIndex_withSpan ha, Anchor.anchorIndex_of_not_in hnot.1 (Nat.add_lt_add_left hlt _)]

/-- If the anchor is in the rest of a view, one of the parts of the rest shows it, or two that are
    adjacent if the anchor has no bias. At the start of the rest it is the first part. -/
theorem CutFrom.exists_marked (h : v.CutFrom i ws) (ha : v.anchor = some a)
    (hsize : v.start + v.length ≤ v.source.size)
    (hin : a.In ⟨v.start + i, v.start + v.length⟩ v.source.size) :
    ∃ before shown behind, ws = before ++ (shown ++ behind) ∧ Marked a before shown behind ∧
    (shown.length = 1 ∨ shown.length = 2 ∧ a.bias = .neutral) ∧
    (a.offset = v.start + i → before = [] ∧ shown.length = 1) := by
  induction h with
  | done => exact absurd hin.1 (Nat.lt_irrefl _)
  | @part i j w ws hlt hw hws ih =>
    obtain ⟨-, hj, -, -, rfl⟩ := sub_eq_ok_iff.1 hw
    have hcut : v.start + i < v.start + j := Nat.add_lt_add_left hlt _
    have hindex := trackedIndex_withSpan ha ⟨v.start + i, v.start + j⟩
    by_cases hfirst : a.In ⟨v.start + i, v.start + j⟩ v.source.size
    · rw [Anchor.anchorIndex_of_in hfirst] at hindex
      have hoffset : v.start + i + (a.offset - (v.start + i)) = a.offset :=
        Nat.add_sub_cancel' hfirst.2.1
      by_cases hrest : a.In ⟨v.start + j, v.start + v.length⟩ v.source.size
      · -- The anchor stands on the cut, so the rest shows it in its first part.
        have hplace := Anchor.eq_of_in_both hfirst hrest
        obtain ⟨before, shown, behind, rfl, hmarked, -, hstart⟩ := ih hrest
        obtain ⟨rfl, hone⟩ := hstart hplace
        refine ⟨[], _ :: shown, behind, rfl,
          ⟨List.forall_mem_cons.2 ⟨⟨_, hindex, hoffset⟩, hmarked.shown⟩, hmarked.others⟩,
          .inr ⟨by rw [List.length_cons, hone], Anchor.bias_of_in_both hcut hsize hfirst hrest⟩,
          fun h => by omega⟩
      · exact ⟨[], [_], ws, rfl, ⟨List.forall_mem_singleton.2 ⟨_, hindex, hoffset⟩,
          hws.not_shown ha hsize hrest⟩, .inl rfl, fun _ => ⟨rfl, rfl⟩⟩
    · rw [Anchor.anchorIndex_of_not_in hfirst hcut] at hindex
      have hrest :=
        ((Anchor.in_iff_of_cut hcut (Nat.add_le_add_left hj _) hsize).1 hin).resolve_left hfirst
      obtain ⟨before, shown, behind, rfl, hmarked, hlength, -⟩ := ih hrest
      refine ⟨_ :: before, shown, behind, rfl,
        ⟨hmarked.shown, List.forall_mem_cons.2 ⟨hindex, hmarked.others⟩⟩, hlength, fun h => ?_⟩
      have hbehind : v.start + j ≤ a.offset := hrest.2.1
      omega

/-! ## Joining parts -/

theorem isContinuedBy_withSpan (v : View) (start mid stop : Nat) :
    (v.withSpan ⟨start, mid⟩).isContinuedBy (v.withSpan ⟨mid, stop⟩) = .ok true := by
  have hsources : checkSources .continuedBy (v.withSpan ⟨start, mid⟩) (v.withSpan ⟨mid, stop⟩) =
      .ok () :=
    if_pos (decide_eq_true rfl)
  rw [isContinuedBy, bind_of_eq_ok hsources]
  exact congrArg Except.ok (decide_eq_true rfl)

theorem splice_withSpan (v : View) (start mid stop : Nat) :
    (v.withSpan ⟨start, mid⟩).splice (v.withSpan ⟨mid, stop⟩) = .ok (v.withSpan ⟨start, stop⟩) := by
  rw [splice, bind_of_eq_ok (isContinuedBy_withSpan v start mid stop), if_pos rfl, join]
  exact congrArg (fun anchor => Except.ok { v with span := ⟨start, stop⟩, anchor }) Option.or_self

theorem CutFrom.foldlM_splice (h : v.CutFrom i ws) :
    ws.foldlM splice (v.withSpan ⟨v.start, v.start + i⟩) =
    .ok (v.withSpan ⟨v.start, v.start + v.length⟩) := by
  induction h with
  | done => rfl
  | @part i j w ws hlt hw hws ih =>
    obtain ⟨-, -, -, -, rfl⟩ := sub_eq_ok_iff.1 hw
    rw [List.foldlM_cons, bind_of_eq_ok (splice_withSpan v _ _ _), ih]

theorem Sound.withSpan_length (h : v.Sound) : v.withSpan ⟨v.start, v.start + v.length⟩ = v := by
  have hstop : v.start + v.length = v.stop := Nat.add_sub_cancel' h.le
  rw [hstop]
  rfl

/-! ## Lines -/

theorem cutFrom_tile (before front behind : Text) {ls : List Text}
    (hs : v.source.text = before ++ (front ++ (ls.flatten ++ behind)))
    (hstart : v.start = Text.width before) (hlength : v.length = Text.width (front ++ ls.flatten))
    (hls : ∀ l ∈ ls, l ≠ []) :
    v.CutFrom (Text.width front) (v.tile (v.start + Text.width front) ls) := by
  induction ls generalizing front with
  | nil =>
    rw [List.flatten_nil, List.append_nil] at hlength
    rw [← hlength]
    exact .done
  | cons l ls ih =>
    obtain ⟨hl, hls⟩ := List.forall_mem_cons.1 hls
    rw [List.flatten_cons, List.append_assoc] at hs
    rw [List.flatten_cons, ← List.append_assoc] at hlength
    have hpos : 0 < Text.width l := Nat.pos_of_ne_zero (mt Text.width_eq_zero_iff.1 hl)
    have hrest := ih (front ++ l) (by rw [hs, List.append_assoc front]) hlength hls
    rw [Text.width_append, ← Nat.add_assoc] at hrest
    refine .part (Nat.lt_add_of_pos_right hpos)
      (sub_eq_ok_iff.2 ⟨Nat.le_add_right _ _, ?_, ?_, ?_, ?_⟩) hrest
    · rw [hlength, ← Text.width_append]
      exact Text.width_le_of_prefix (List.prefix_append _ _)
    · rw [hstart, hs, ← Text.width_append, ← List.append_assoc]
      exact Text.isBoundary_append_left _ _
    · rw [hstart, hs, ← Text.width_append, ← Text.width_append, ← List.append_assoc front,
        ← List.append_assoc before]
      exact Text.isBoundary_append_left _ _
    · rw [Nat.add_assoc]

theorem Sound.cut_lines (h : v.Sound) : v.Cut v.lines := by
  have hshows := h.shows
  have hlength : v.length = Text.width v.text := by
    change v.stop - v.start = _
    rw [hshows.start, hshows.stop, Text.width_append, Nat.add_sub_cancel_left]
  refine cutFrom_tile v.textBefore [] v.textAfter ?_ hshows.start ?_ ?_
  · rw [Text.flatten_lines]
    exact hshows.source
  · rw [Text.flatten_lines]
    exact hlength
  · exact fun l hl => Text.ne_nil_of_mem_lines hl

/-! ## Parts of views -/

/-- A view that is not empty and follows an anchor shows it if it is in the view, where it is. The
    view is cut into parts, for example into its lines. If the view shows the anchor, one part shows
    it, or two adjacent ones if the anchor has no bias, and they show it where it is; otherwise no
    part shows it. Joined in order, the parts are the view. -/
theorem Made.anchor_stays_in_parts (hv : v.Made) (hne : v.isEmpty = false)
    (ha : v.anchor = some a) :
    (∀ i, v.trackedIndex = some i ↔ a.In v.span v.source.size ∧ v.start + i = a.offset) ∧
    v.Cut v.lines ∧ ∀ ws, v.Cut ws →
      (∃ before shown behind, ws = before ++ (shown ++ behind) ∧ Marked a before shown behind ∧
        (v.trackedIndex = none → shown = []) ∧
        (v.trackedIndex ≠ none → shown.length = 1 ∨ shown.length = 2 ∧ a.bias = .neutral)) ∧
      ∃ first rest, ws = first :: rest ∧ rest.foldlM View.splice first = .ok v := by
  have hsound := hv.wellFormed.sound
  have hle := hsound.le
  have hlt : v.start < v.stop := by
    rw [isEmpty, Span.isEmpty, decide_eq_false_iff_not] at hne
    exact Nat.lt_of_le_of_ne hle hne
  have hstop : v.start + v.length = v.stop := Nat.add_sub_cancel' hle
  have hsize : v.start + v.length ≤ v.source.size := by
    rw [hstop]
    exact Text.le_width_of_isBoundary hsound.isBoundary_stop
  have hspan : (⟨v.start + 0, v.start + v.length⟩ : Span) = v.span :=
    congrArg (Span.mk v.start) hstop
  have hindex : v.trackedIndex = anchorIndex v.span v.source.size a :=
    trackedIndex_withSpan ha v.span
  refine ⟨fun i => hindex ▸ Anchor.anchorIndex_eq_some_iff hlt, hsound.cut_lines,
    fun ws hws => ⟨?_, ?_⟩⟩
  · by_cases hin : a.In ⟨v.start + 0, v.start + v.length⟩ v.source.size
    · obtain ⟨before, shown, behind, heq, hmarked, hlength, -⟩ := hws.exists_marked ha hsize hin
      refine ⟨before, shown, behind, heq, hmarked, fun hnone => ?_, fun _ => hlength⟩
      rw [hindex, Anchor.anchorIndex_of_in (hspan ▸ hin)] at hnone
      cases hnone
    · have hnone := hindex.trans (Anchor.anchorIndex_of_not_in (hspan ▸ hin) hlt)
      exact ⟨[], [], ws, rfl, ⟨nofun, hws.not_shown ha hsize hin⟩, fun _ => rfl,
        fun h => absurd hnone h⟩
  · obtain ⟨j, rest, rfl, hrest⟩ := hws.exists_cons (Nat.sub_pos_of_lt hlt)
    exact ⟨_, rest, rfl, hrest.foldlM_splice.trans (congrArg Except.ok hsound.withSpan_length)⟩

/-- Of `éa\nb\r\nc` two lines are cut out, and an anchor between them belongs to the second one. -/
theorem Made.anchor_stays_in_parts_of_lines :
    ∃ v : View, v.Made ∧ v.isEmpty = false ∧ v.anchor = some ⟨4, .right⟩ ∧
    v.lines.map trackedIndex = [none, some 0] ∧ ∃ first rest, v.lines = first :: rest ∧
    rest.foldlM View.splice first = .ok v := by
  let source : Source := ⟨0, ['é', 'a', '\n', 'b', '\r', '\n', 'c']⟩
  have hcut : View.ofRange source 2 7 = .ok ⟨source, ⟨2, 7⟩, none⟩ := rfl
  have htrack : View.track ⟨source, ⟨2, 7⟩, none⟩ 2 .right =
    .ok ⟨source, ⟨2, 7⟩, some ⟨4, .right⟩⟩ := rfl
  have hmade := (Made.ofRange hcut).track .right htrack
  obtain ⟨-, hlines, hparts⟩ := Made.anchor_stays_in_parts hmade (by decide) rfl
  exact ⟨_, hmade, by decide, rfl, by decide, (hparts _ hlines).2⟩

end View

end Taskdown
