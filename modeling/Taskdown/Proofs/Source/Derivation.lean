import Taskdown.Proofs.Source.Showing
import Taskdown.Source.Anchor

/-!
# What views can be made

A view is made of a source, or derived from views that have been made before (`View.Made`).
Derivations move the ends of a view in many ways, but every end they come to is one of a few places:
an end of a view, a place next to a character that has been looked at, or an offset that has been
checked. All of these are boundaries, and so are the anchors that views inherit (`View.WellFormed`).

* `Text.isBoundary_max`, `Text.isBoundary_min`: of two boundaries either is one;
* `View.Sound.withStop_of_prefix`, `View.Sound.withStart_of_suffix`: views grow by whole characters;
* `View.Made.cut_from_source`: every view that can be made is well-formed, what is before it, in it
  and behind it makes up the source, and cutting it out of the source again gives back the same
  view.
-/

namespace Taskdown

namespace Text

/-! ## Boundaries -/

variable {cs as bs : Text} {m n : Nat}

theorem isBoundary_max (hm : isBoundary cs m) (hn : isBoundary cs n) : isBoundary cs (max m n) := by
  rcases Nat.le_total m n with h | h
  · rwa [Nat.max_eq_right h]
  · rwa [Nat.max_eq_left h]

theorem isBoundary_min (hm : isBoundary cs m) (hn : isBoundary cs n) : isBoundary cs (min m n) := by
  rcases Nat.le_total m n with h | h
  · rwa [Nat.min_eq_left h]
  · rwa [Nat.min_eq_right h]

theorem isBoundary_zero (cs : Text) : isBoundary cs 0 := isBoundary_append_left [] cs

theorem isBoundary_width (cs : Text) : isBoundary cs (width cs) :=
  isBoundary_iff.2 ⟨cs, [], (List.append_nil cs).symm, rfl⟩

/-- There is no boundary behind the end of a text. -/
theorem le_width_of_isBoundary (h : isBoundary cs n) : n ≤ width cs := by
  obtain ⟨before, behind, rfl, rfl⟩ := isBoundary_iff.1 h
  exact width_le_of_prefix (List.prefix_append _ _)

theorem width_reverse (cs : Text) : width cs.reverse = width cs := by
  induction cs with
  | nil => rfl
  | cons c cs ih => simp [ih, Nat.add_comm]

theorem chomp_isPrefix (cs : Text) : chomp cs <+: cs := by
  fun_induction chomp cs with
  | case1 => exact List.prefix_rfl
  | case2 => exact List.nil_prefix
  | case3 c hc => exact List.nil_prefix
  | case4 c hc => exact List.prefix_rfl
  | case5 c cs _ _ ih => exact List.cons_prefix_cons.2 ⟨rfl, ih⟩

end Text

namespace View

/-! ## Making views -/

/-- The view can be made of some source by a number of derivations, all of which succeed. -/
inductive Made : View → Prop
  | of (source : Source) : Made (View.of source)
  | ofRange {source : Source} {i j : Nat} {v : View} (h : View.ofRange source i j = .ok v) : Made v
  | ofFrom {source : Source} {i : Nat} {v : View} (h : View.ofFrom source i = .ok v) : Made v
  | sub {v w : View} {i j : Nat} (hv : Made v) (h : v.sub i j = .ok w) : Made w
  | subFrom {v w : View} {i : Nat} (hv : Made v) (h : v.subFrom i = .ok w) : Made w
  | subSource {v w : View} {i j : Nat} (hv : Made v) (h : v.subSource i j = .ok w) : Made w
  | subSourceFrom {v w : View} {i : Nat} (hv : Made v) (h : v.subSourceFrom i = .ok w) : Made w
  | atStart {v : View} (hv : Made v) : Made v.atStart
  | atStop {v : View} (hv : Made v) : Made v.atStop
  | splice {u v w : View} (hv : Made v) (hw : Made w) (h : v.splice w = .ok u) : Made u
  | trySplice {u v w : View} (hv : Made v) (hw : Made w) (h : v.trySplice w = .ok u) : Made u
  | before {u v w : View} (hv : Made v) (hw : Made w) (h : v.before w = .ok u) : Made u
  | after {u v w : View} (hv : Made v) (hw : Made w) (h : v.after w = .ok u) : Made u
  | inter {u v w : View} (hv : Made v) (hw : Made w) (h : v.inter w = .ok u) : Made u
  | trimStart {v : View} (hv : Made v) : Made v.trimStart
  | trimEnd {v : View} (hv : Made v) : Made v.trimEnd
  | trim {v : View} (hv : Made v) : Made v.trim
  | chomp {v : View} (hv : Made v) : Made v.chomp
  | line {v w : View} (hv : Made v) (h : w ∈ v.lines) : Made w
  | extendOver {v : View} (hv : Made v) (set : Text) (limit : Option Nat) :
      Made (v.extendOver set limit)
  | extendOverOne {v : View} (hv : Made v) (set : Text) : Made (v.extendOverOne set)
  | extendTo {v : View} (hv : Made v) (set : Text) (limit : Option Nat) :
      Made (v.extendTo set limit)
  | extendToLineEnd {v : View} (hv : Made v) (inclusive : Bool) (terminators : Text) :
    Made (v.extendToLineEnd inclusive terminators)
  | extendToLineStart {v : View} (hv : Made v) (inclusive : Bool) (terminators : Text) :
    Made (v.extendToLineStart inclusive terminators)
  | withIndent {v : View} (hv : Made v) (limit : Option Nat) : Made (v.withIndent limit)
  | track {v w : View} {i : Nat} (hv : Made v) (bias : Bias) (h : v.track i bias = .ok w) : Made w
  | untrack {v : View} (hv : Made v) : Made v.untrack

variable {u v w : View} {i j : Nat}

/-! ## Well-formed views -/

/-- The view is a cut of its source at boundaries, and its anchor is a boundary. -/
structure WellFormed (v : View) : Prop where
  sound : v.Sound
  anchor : ∀ a ∈ v.anchor, Text.isBoundary v.source.text a.offset

/-- A span of the same source with the same anchor is as good as its ends. -/
theorem WellFormed.withSpan (h : v.WellFormed) {span : Span} (hs : (v.withSpan span).Sound) :
    (v.withSpan span).WellFormed :=
  ⟨hs, h.anchor⟩

theorem WellFormed.of_withSpan (h : v.WellFormed) (hw : ∃ span, w = v.withSpan span)
    (hs : w.Sound) : w.WellFormed := by
  obtain ⟨span, rfl⟩ := hw
  exact h.withSpan hs

/-- The same span with a good anchor, or none, is as good as before. -/
theorem WellFormed.withAnchor (h : v.WellFormed) {anchor : Option Anchor}
    (ha : ∀ a ∈ anchor, Text.isBoundary v.source.text a.offset) :
    ({ v with anchor } : View).WellFormed := by
  obtain ⟨before, cs, behind, hshows⟩ := h.sound
  exact ⟨⟨before, cs, behind, hshows.source, hshows.start, hshows.stop⟩, ha⟩

theorem sound_withSpan {span : Span} (hle : span.start ≤ span.stop)
    (hstart : Text.isBoundary v.source.text span.start)
    (hstop : Text.isBoundary v.source.text span.stop) : (v.withSpan span).Sound :=
  sound_iff.2 ⟨hle, hstart, hstop⟩

theorem Sound.le (h : v.Sound) : v.start ≤ v.stop := (sound_iff.1 h).1

theorem Sound.isBoundary_start (h : v.Sound) : Text.isBoundary v.source.text v.start :=
  (sound_iff.1 h).2.1

theorem Sound.isBoundary_stop (h : v.Sound) : Text.isBoundary v.source.text v.stop :=
  (sound_iff.1 h).2.2

/-- A sound view shows the text in view, between what is before it and what is behind it. -/
theorem Sound.shows (h : v.Sound) : v.Shows v.textBefore v.text v.textAfter := by
  obtain ⟨before, cs, behind, h⟩ := h
  have hafter : v.textAfter = behind := by
    rw [textAfter, h.source, h.stop, ← List.append_assoc, Text.dropBytes_width_append]
  rwa [h.textBefore_eq, h.text_eq, hafter]

/-! ## Checked cuts -/

theorem checkSpan_eq_ok_iff {cs : Text} {span : Span} : checkSpan cs span = .ok () ↔
    span.start ≤ span.stop ∧ Text.isBoundary cs span.start ∧ Text.isBoundary cs span.stop := by
  rw [checkSpan]
  constructor
  · intro h
    split at h
    · cases h
    · next hrange =>
      obtain ⟨_, hstart, hstop⟩ := bind_eq_ok_iff.1 h
      exact ⟨by omega, isBoundary_of_checkBoundary hstart, isBoundary_of_checkBoundary hstop⟩
  · rintro ⟨hle, hstart, hstop⟩
    have hwidth := Text.le_width_of_isBoundary hstop
    rw [if_neg (by omega), checkBoundary, if_pos hstart, checkBoundary, if_pos hstop]
    rfl

theorem WellFormed.ofRange {source : Source} (h : View.ofRange source i j = .ok v) :
    v.WellFormed := by
  obtain ⟨_, hcheck, h⟩ := bind_eq_ok_iff.1 h
  obtain rfl := Except.ok.inj h
  exact ⟨sound_iff.2 (checkSpan_eq_ok_iff.1 hcheck), nofun⟩

theorem WellFormed.subSource (hv : v.WellFormed) (h : v.subSource i j = .ok w) : w.WellFormed := by
  obtain ⟨_, hcheck, h⟩ := bind_eq_ok_iff.1 h
  obtain rfl := Except.ok.inj h
  obtain ⟨hle, hstart, hstop⟩ := checkSpan_eq_ok_iff.1 hcheck
  exact hv.withSpan (sound_withSpan hle hstart hstop)

theorem WellFormed.sub (hv : v.WellFormed) (h : v.sub i j = .ok w) : w.WellFormed := by
  have hsound := sound_of_sub h
  rw [View.sub] at h
  split at h
  · cases h
  · obtain ⟨_, -, h⟩ := bind_eq_ok_iff.1 h
    obtain ⟨_, -, h⟩ := bind_eq_ok_iff.1 h
    obtain rfl := Except.ok.inj h
    exact hv.withSpan hsound

theorem WellFormed.track (hv : v.WellFormed) {bias : Bias} (h : v.track i bias = .ok w) :
    w.WellFormed := by
  obtain ⟨offset, -, h⟩ := bind_eq_ok_iff.1 h
  obtain ⟨_, hcheck, h⟩ := bind_eq_ok_iff.1 h
  obtain rfl := Except.ok.inj h
  refine hv.withAnchor fun a ha => ?_
  obtain rfl := Option.some.inj ha
  exact isBoundary_of_checkBoundary hcheck

/-! ## Two views -/

theorem eq_of_checkSources {op : PairOp} {x : Unit} (h : checkSources op v w = .ok x) :
    v.source = w.source := by
  rw [checkSources] at h
  split at h
  · next hsame => exact of_decide_eq_true hsame
  · cases h

/-- Two adjacent views of one source are joined to a view of it. -/
theorem WellFormed.join (hv : v.WellFormed) (hw : w.WellFormed) (hsource : v.source = w.source)
    (hadjacent : w.start = v.stop) : (v.join w).WellFormed := by
  refine ⟨sound_iff.2 ⟨?_, hv.sound.isBoundary_start, ?_⟩, fun a ha => ?_⟩
  · exact Nat.le_trans hv.sound.le (hadjacent ▸ hw.sound.le)
  · change Text.isBoundary v.source.text w.stop
    rw [hsource]
    exact hw.sound.isBoundary_stop
  · change Text.isBoundary v.source.text a.offset
    rcases Option.or_eq_some_iff.1 ha with ha | ⟨-, ha⟩
    · exact hv.anchor a ha
    · rw [hsource]
      exact hw.anchor a ha

theorem WellFormed.splice (hv : v.WellFormed) (hw : w.WellFormed) (h : v.splice w = .ok u) :
    u.WellFormed := by
  obtain ⟨continued, hcontinued, h⟩ := bind_eq_ok_iff.1 h
  obtain ⟨_, hsources, hcontinued⟩ := bind_eq_ok_iff.1 hcontinued
  obtain rfl := Except.ok.inj hcontinued
  split at h
  · next hadjacent =>
    obtain rfl := Except.ok.inj h
    exact hv.join hw (eq_of_checkSources hsources) (of_decide_eq_true hadjacent)
  · cases h

theorem WellFormed.trySplice (hv : v.WellFormed) (hw : w.WellFormed) (h : v.trySplice w = .ok u) :
    u.WellFormed := by
  rw [View.trySplice] at h
  split at h
  · next hboth =>
    obtain rfl := Except.ok.inj h
    exact hv.join hw (of_decide_eq_true hboth.1) hboth.2
  · cases h

/-- The ends of a view are boundaries of any view of the same source. -/
theorem Sound.isBoundary_ends (hw : w.Sound) (hsource : v.source = w.source) :
    Text.isBoundary v.source.text w.start ∧ Text.isBoundary v.source.text w.stop := by
  rw [hsource]
  exact ⟨hw.isBoundary_start, hw.isBoundary_stop⟩

theorem WellFormed.before (hv : v.WellFormed) (hw : w.WellFormed) (h : v.before w = .ok u) :
    u.WellFormed := by
  obtain ⟨_, hsources, h⟩ := bind_eq_ok_iff.1 h
  obtain rfl := Except.ok.inj h
  have hstart := hv.sound.isBoundary_start
  have hstop := hv.sound.isBoundary_stop
  obtain ⟨hstart', -⟩ := hw.sound.isBoundary_ends (eq_of_checkSources hsources)
  rw [Span.before]
  split
  · exact hv.withSpan (sound_withSpan (Nat.le_refl _) hstart hstart)
  · next hlt =>
    have hle := Nat.le_min.2 ⟨hv.sound.le, Nat.le_of_lt (Nat.lt_of_not_le hlt)⟩
    exact hv.withSpan (sound_withSpan hle hstart (Text.isBoundary_min hstop hstart'))

theorem WellFormed.after (hv : v.WellFormed) (hw : w.WellFormed) (h : v.after w = .ok u) :
    u.WellFormed := by
  obtain ⟨_, hsources, h⟩ := bind_eq_ok_iff.1 h
  obtain rfl := Except.ok.inj h
  have hstart := hv.sound.isBoundary_start
  have hstop := hv.sound.isBoundary_stop
  obtain ⟨-, hstop'⟩ := hw.sound.isBoundary_ends (eq_of_checkSources hsources)
  rw [Span.after]
  split
  · exact hv.withSpan (sound_withSpan (Nat.le_refl _) hstop hstop)
  · next hlt =>
    have hle := Nat.max_le.2 ⟨hv.sound.le, Nat.le_of_lt (Nat.lt_of_not_le hlt)⟩
    exact hv.withSpan (sound_withSpan hle (Text.isBoundary_max hstart hstop') hstop)

theorem WellFormed.inter (hv : v.WellFormed) (hw : w.WellFormed) (h : v.inter w = .ok u) :
    u.WellFormed := by
  obtain ⟨_, hsources, h⟩ := bind_eq_ok_iff.1 h
  obtain rfl := Except.ok.inj h
  have hstart := hv.sound.isBoundary_start
  have hstop := hv.sound.isBoundary_stop
  obtain ⟨hstart', hstop'⟩ := hw.sound.isBoundary_ends (eq_of_checkSources hsources)
  have hfirst := Text.isBoundary_max hstart hstart'
  rw [Span.inter]
  dsimp only
  split
  · next hlt =>
      exact hv.withSpan (sound_withSpan (Nat.le_of_lt hlt) hfirst
        (Text.isBoundary_min hstop hstop'))
  · -- Disjoint views have a place in common that is one of their ends.
    have hplace := Text.isBoundary_max hstart (Text.isBoundary_min hfirst hstop)
    exact hv.withSpan (sound_withSpan (Nat.le_refl _) hplace hplace)

/-! ## Trimming -/

theorem Sound.chomp (h : v.Sound) : v.chomp.Sound := by
  obtain ⟨tail, htail⟩ := Text.chomp_isPrefix v.text
  have hshows := h.shows
  rw [← htail] at hshows
  exact (hshows.withStop rfl).sound

/-- The lines of a view are views of the same source, with the same anchor. -/
theorem exists_withSpan_of_mem_tile {ls : List Text} (h : w ∈ v.tile i ls) :
    ∃ span, w = v.withSpan span := by
  induction ls generalizing i with
  | nil => cases h
  | cons l ls ih =>
    rcases List.mem_cons.1 h with rfl | h
    · exact ⟨_, rfl⟩
    · exact ih h

theorem WellFormed.line (hv : v.WellFormed) (h : w ∈ v.lines) : w.WellFormed := by
  obtain ⟨_, _, _, hshows, -⟩ := hv.sound.exists_of_mem_lines h
  exact hv.of_withSpan (exists_withSpan_of_mem_tile h) hshows.sound

/-! ## Growing -/

/-- The end of a view moves over characters behind it. -/
theorem Sound.withStop_of_prefix (h : v.Sound) {taken : Text} (ht : taken <+: v.textAfter) :
    (v.withStop (v.stop + Text.width taken)).Sound := by
  obtain ⟨rest, hrest⟩ := ht
  have hshows := h.shows
  refine ⟨v.textBefore, v.text ++ taken, rest, ?_, hshows.start, ?_⟩
  · rw [List.append_assoc, hrest]
    exact hshows.source
  · change v.stop + _ = _
    rw [hshows.stop, ← List.append_assoc, Text.width_append (_ ++ _)]

/-- The start of a view moves back over characters before it. -/
theorem Sound.withStart_of_suffix (h : v.Sound) {taken : Text} (ht : taken <:+ v.textBefore) :
    (v.withStart (v.start - Text.width taken)).Sound := by
  obtain ⟨rest, hrest⟩ := ht
  have hshows := h.shows
  refine ⟨rest, taken ++ v.text, v.textAfter, ?_, ?_, ?_⟩
  · rw [List.append_assoc, ← List.append_assoc rest, hrest]
    exact hshows.source
  · change v.start - _ = _
    rw [hshows.start, ← hrest, Text.width_append, Nat.add_sub_cancel]
  · rw [← List.append_assoc, hrest]
    exact hshows.stop

/-- As `withStart_of_suffix`, for characters that have been gone over backwards. -/
theorem Sound.withStart_of_reverse (h : v.Sound) {taken : Text}
    (ht : taken <+: v.textBefore.reverse) : (v.withStart (v.start - Text.width taken)).Sound := by
  have hsound := h.withStart_of_suffix (List.reverse_prefix.1 (List.reverse_reverse taken ▸ ht))
  rwa [Text.width_reverse] at hsound

theorem firstChars_isPrefix (limit : Option Nat) (cs : Text) : firstChars limit cs <+: cs := by
  cases limit with
  | none => exact List.prefix_rfl
  | some n => exact List.take_prefix n cs

theorem Sound.extendOver (h : v.Sound) (set : Text) (limit : Option Nat) :
    (v.extendOver set limit).Sound :=
  h.withStop_of_prefix ((List.takeWhile_prefix _).trans (firstChars_isPrefix limit _))

theorem Sound.extendTo (h : v.Sound) (set : Text) (limit : Option Nat) :
    (v.extendTo set limit).Sound := by
  rw [View.extendTo]
  split
  · exact h
  · next c rest hdrop =>
    have hahead := List.takeWhile_append_dropWhile (p := (!set.contains ·))
      (l := firstChars limit v.textAfter)
    rw [hdrop, List.append_cons] at hahead
    have hsound :=
      h.withStop_of_prefix (List.IsPrefix.trans ⟨rest, hahead⟩ (firstChars_isPrefix limit _))
    rwa [Text.width_append, ← Nat.add_assoc] at hsound

theorem exists_withSpan_extendTo (v : View) (set : Text) (limit : Option Nat) :
    ∃ span, v.extendTo set limit = v.withSpan span := by
  rw [View.extendTo]
  split
  · exact ⟨v.span, rfl⟩
  · exact ⟨_, rfl⟩

theorem Sound.extendToLineEnd (h : v.Sound) (inclusive : Bool) (terminators : Text) :
    (v.extendToLineEnd inclusive terminators).Sound := by
  have hafter := List.takeWhile_append_dropWhile (p := (!terminators.contains ·)) (l := v.textAfter)
  have hline := h.withStop_of_prefix (List.takeWhile_prefix (!terminators.contains ·))
  rw [View.extendToLineEnd]
  dsimp only
  split
  · exact h
  · split
    · exact hline
    · next c rest hdrop =>
      rw [hdrop] at hafter
      split
      · exact hline
      · split
        · next hpair =>
          -- Two characters are taken, which are one byte wide each.
          obtain ⟨rfl, -, hnewline⟩ := hpair
          obtain ⟨rest, rfl⟩ := List.head?_eq_some_iff.1 hnewline
          rw [List.append_cons, List.append_cons] at hafter
          have hsound := h.withStop_of_prefix ⟨rest, hafter⟩
          rwa [Text.width_append, Text.width_append, Nat.add_assoc (Text.width _), ← Nat.add_assoc]
            at hsound
        · rw [List.append_cons] at hafter
          have hsound := h.withStop_of_prefix ⟨rest, hafter⟩
          rwa [Text.width_append, ← Nat.add_assoc] at hsound

theorem exists_withSpan_extendToLineEnd (v : View) (inclusive : Bool) (terminators : Text) :
    ∃ span, v.extendToLineEnd inclusive terminators = v.withSpan span := by
  rw [View.extendToLineEnd]
  dsimp only
  split
  · exact ⟨v.span, rfl⟩
  · split
    · exact ⟨_, rfl⟩
    · split
      · exact ⟨_, rfl⟩
      · split <;> exact ⟨_, rfl⟩

theorem Sound.extendToLineStart (h : v.Sound) (inclusive : Bool) (terminators : Text) :
    (v.extendToLineStart inclusive terminators).Sound := by
  have hbefore := List.takeWhile_append_dropWhile (p := (!terminators.contains ·))
    (l := v.textBefore.reverse)
  have hline := h.withStart_of_reverse (List.takeWhile_prefix (!terminators.contains ·))
  rw [View.extendToLineStart]
  dsimp only
  split
  · exact h
  · split
    · exact sound_withSpan (Nat.zero_le _) (Text.isBoundary_zero _) h.isBoundary_stop
    · next c rest hdrop =>
      rw [hdrop] at hbefore
      split
      · exact hline
      · split
        · next hpair =>
          obtain ⟨rfl, -, hreturn⟩ := hpair
          obtain ⟨rest, rfl⟩ := List.head?_eq_some_iff.1 hreturn
          rw [List.append_cons, List.append_cons] at hbefore
          have hsound := h.withStart_of_reverse ⟨rest, hbefore⟩
          rwa [Text.width_append, Text.width_append, Nat.add_assoc (Text.width _), ← Nat.sub_sub]
            at hsound
        · rw [List.append_cons] at hbefore
          have hsound := h.withStart_of_reverse ⟨rest, hbefore⟩
          rwa [Text.width_append, ← Nat.sub_sub] at hsound

theorem exists_withSpan_extendToLineStart (v : View) (inclusive : Bool) (terminators : Text) :
    ∃ span, v.extendToLineStart inclusive terminators = v.withSpan span := by
  rw [View.extendToLineStart]
  dsimp only
  split
  · exact ⟨v.span, rfl⟩
  · split
    · exact ⟨_, rfl⟩
    · split
      · exact ⟨_, rfl⟩
      · split <;> exact ⟨_, rfl⟩

/-! ## All views -/

/-- Every derivation keeps views well-formed. -/
theorem Made.wellFormed (h : Made v) : v.WellFormed := by
  induction h with
  | of source => exact ⟨sound_of source, nofun⟩
  | ofRange h | ofFrom h => exact .ofRange h
  | sub _ h hv | subFrom _ h hv => exact hv.sub h
  | subSource _ h hv | subSourceFrom _ h hv => exact hv.subSource h
  | atStart _ hv =>
    exact hv.withSpan (sound_withSpan (Nat.le_refl _) hv.sound.isBoundary_start
      hv.sound.isBoundary_start)
  | atStop _ hv =>
    exact hv.withSpan (sound_withSpan (Nat.le_refl _) hv.sound.isBoundary_stop
      hv.sound.isBoundary_stop)
  | splice _ _ h hv hw => exact hv.splice hw h
  | trySplice _ _ h hv hw => exact hv.trySplice hw h
  | before _ _ h hv hw => exact hv.before hw h
  | after _ _ h hv hw => exact hv.after hw h
  | inter _ _ h hv hw => exact hv.inter hw h
  | trimStart _ hv => exact hv.withSpan hv.sound.trimStart
  | trimEnd _ hv => exact hv.withSpan hv.sound.trimEnd
  | trim _ hv => exact hv.withSpan hv.sound.trim
  | chomp _ hv => exact hv.withSpan hv.sound.chomp
  | line _ h hv => exact hv.line h
  | extendOver _ set limit hv => exact hv.withSpan (hv.sound.extendOver set limit)
  | extendOverOne _ set hv => exact hv.withSpan (hv.sound.extendOver set (some 1))
  | extendTo _ set limit hv =>
    exact hv.of_withSpan (exists_withSpan_extendTo _ set limit) (hv.sound.extendTo set limit)
  | extendToLineEnd _ inclusive terminators hv =>
    exact hv.of_withSpan (exists_withSpan_extendToLineEnd _ inclusive terminators)
      (hv.sound.extendToLineEnd inclusive terminators)
  | extendToLineStart _ inclusive terminators hv =>
    exact hv.of_withSpan (exists_withSpan_extendToLineStart _ inclusive terminators)
      (hv.sound.extendToLineStart inclusive terminators)
  | withIndent _ limit hv => exact hv.withSpan (hv.sound.withIndent limit)
  | track _ bias h hv => exact hv.track h
  | untrack _ hv => exact hv.withAnchor nofun

/-- Every view that can be made is cut out of its source at boundaries. What is before it, in it and
    behind it can be cut out, and makes up the source; cutting out what is in it gives back the
    view. -/
theorem Made.cut_from_source (h : v.Made) :
    v.start ≤ v.stop ∧ v.stop ≤ v.source.size ∧
    Text.isBoundary v.source.text v.start ∧ Text.isBoundary v.source.text v.stop ∧
    (∀ a ∈ v.anchor, Text.isBoundary v.source.text a.offset ∧ a.offset ≤ v.source.size) ∧
    (∀ span ∈ [⟨0, v.start⟩, v.span, ⟨v.stop, v.source.size⟩],
      checkSpan v.source.text span = .ok ()) ∧
    v.textBefore ++ (v.text ++ v.textAfter) = v.source.text ∧
    v.subSource v.start v.stop = .ok v := by
  obtain ⟨hsound, hanchor⟩ := h.wellFormed
  have hstart := hsound.isBoundary_start
  have hstop := hsound.isBoundary_stop
  have hcheck : checkSpan v.source.text v.span = .ok () :=
    checkSpan_eq_ok_iff.2 ⟨hsound.le, hstart, hstop⟩
  refine ⟨hsound.le, Text.le_width_of_isBoundary hstop, hstart, hstop, fun a ha => ?_,
    fun span hspan => ?_, hsound.shows.source.symm, ?_⟩
  · exact ⟨hanchor a ha, Text.le_width_of_isBoundary (hanchor a ha)⟩
  · simp only [List.mem_cons, List.not_mem_nil, or_false] at hspan
    rcases hspan with rfl | rfl | rfl
    · exact checkSpan_eq_ok_iff.2 ⟨Nat.zero_le _, Text.isBoundary_zero _, hstart⟩
    · exact hcheck
    · exact checkSpan_eq_ok_iff.2 ⟨Text.le_width_of_isBoundary hstop, hstop,
        Text.isBoundary_width _⟩
  · change (checkSpan v.source.text v.span >>= fun _ => .ok (v.withSpan v.span)) = .ok v
    rw [hcheck]
    rfl

/-- Of `–é\r\nb` the second character is cut out, its end is followed, and it grows to the end of
    its line. -/
theorem Made.cut_from_source_of_line : ∃ v : View, v.Made ∧ v.start = 3 ∧ v.stop = 7 ∧
    v.anchor = some ⟨5, .right⟩ ∧ v.subSource 3 7 = .ok v := by
  let source : Source := ⟨0, ['–', 'é', '\r', '\n', 'b']⟩
  have hcut : View.ofRange source 3 5 = .ok ⟨source, ⟨3, 5⟩, none⟩ := rfl
  have htrack : View.track ⟨source, ⟨3, 5⟩, none⟩ 2 .right =
    .ok ⟨source, ⟨3, 5⟩, some ⟨5, .right⟩⟩ := rfl
  have hmade := ((Made.ofRange hcut).track .right htrack).extendToLineEnd true ['\r', '\n']
  obtain ⟨-, -, -, -, -, -, -, hsame⟩ := Made.cut_from_source hmade
  exact ⟨_, hmade, by decide, by decide, by decide, hsame⟩

end View

end Taskdown
