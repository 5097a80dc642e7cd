import Taskdown.Proofs.Source.Merging

/-!
# What a range of bytes comes from

Entries that are told in the order of the source give bytes with sources in that order: neither end
of a source goes back from one byte to the next (`Span.Leads`). So the span behind a range of bytes,
which starts with the source of the first byte and stops with that of the last one, covers the
sources of all bytes between them.

* `Provenance.Entry.InOrder.leads`: the sources of the bytes are in order;
* `Provenance.Sound.exists_spanOf_eq`: the span behind a range of bytes is found at its first byte
  and at its last one;
* `Provenance.spanOf_is_least`: it is the smallest span that covers the source of every byte.
-/

namespace Taskdown

namespace Span

variable {r s t : Span}

theorem containsAll_iff : s.containsAll t ↔ s.start ≤ t.start ∧ t.stop ≤ s.stop := by
  rw [containsAll, Bool.and_eq_true, decide_eq_true_iff, decide_eq_true_iff]

/-- Neither end of `s` is behind that of `t`. -/
def Leads (s t : Span) : Prop := s.start ≤ t.start ∧ s.stop ≤ t.stop

theorem Leads.refl (s : Span) : s.Leads s := ⟨Nat.le_refl _, Nat.le_refl _⟩

theorem leads_of_getElem? {spans : List Span} (h : spans.Pairwise Leads) {i j : Nat} (hij : i ≤ j)
    (hs : spans[i]? = some s) (ht : spans[j]? = some t) : s.Leads t := by
  obtain ⟨hi, rfl⟩ := List.getElem?_eq_some_iff.1 hs
  obtain ⟨hj, rfl⟩ := List.getElem?_eq_some_iff.1 ht
  rcases Nat.lt_or_eq_of_le hij with hlt | rfl
  · exact List.pairwise_iff_getElem.1 h i j hi hj hlt
  · exact Leads.refl _

end Span

namespace Provenance

/-! ## Entries in order -/

namespace Entry

variable {e : Entry} {es : List Entry} {offset : Nat} {source : Span}

/-- Every entry starts where the one before it ends, or behind that place, and the first one at an
    offset or behind it. -/
def InOrder : Nat → List Entry → Prop
  | _, [] => True
  | offset, e :: es =>
    offset ≤ e.segment.origin.start ∧ e.IsForward ∧ InOrder e.segment.origin.stop es

instance decidableInOrder : (offset : Nat) → (es : List Entry) → Decidable (InOrder offset es)
  | _, [] => inferInstanceAs (Decidable True)
  | _, e :: es =>
    have := decidableInOrder e.segment.origin.stop es
    inferInstanceAs (Decidable (_ ∧ _ ∧ _))

theorem InOrder.isForward (h : InOrder offset es) : ∀ e ∈ es, e.IsForward := by
  induction es generalizing offset with
  | nil => exact nofun
  | cons e es ih =>
    obtain ⟨-, he, hes⟩ := h
    exact List.forall_mem_cons.2 ⟨he, ih hes⟩

/-- The sources of the bytes of an entry are within its span. -/
theorem IsForward.within (h : e.IsForward) (hsource : source ∈ e.segment.bytes) :
    e.segment.origin.start ≤ source.start ∧ source.start ≤ source.stop ∧
    source.stop ≤ e.segment.origin.stop := by
  obtain ⟨k, hk, rfl⟩ := List.mem_map.1 hsource
  rw [List.mem_range] at hk
  cases e with
  | copy span =>
    change k < span.stop - span.start at hk
    change span.start ≤ span.start + k ∧ span.start + k ≤ span.start + k + 1 ∧
      span.start + k + 1 ≤ span.stop
    omega
  | replace span width => exact ⟨Nat.le_refl _, h, Nat.le_refl _⟩

theorem leads_bytes (e : Entry) : e.segment.bytes.Pairwise Span.Leads := by
  rw [Segment.bytes, List.pairwise_map]
  refine List.pairwise_lt_range.imp fun {j k} hjk => ?_
  cases e with
  | copy span =>
    change span.start + j ≤ span.start + k ∧ span.start + j + 1 ≤ span.start + k + 1
    omega
  | replace span width => exact Span.Leads.refl span

theorem InOrder.bounds (h : InOrder offset es)
    (hsource : source ∈ Segment.sources (es.map segment)) :
    offset ≤ source.start ∧ source.start ≤ source.stop := by
  induction es generalizing offset with
  | nil => cases hsource
  | cons e es ih =>
    obtain ⟨hoffset, he, hes⟩ := h
    rw [List.map_cons, Segment.sources_cons, List.mem_append] at hsource
    rcases hsource with hsource | hsource
    · obtain ⟨hstart, hle, -⟩ := he.within hsource
      exact ⟨Nat.le_trans hoffset hstart, hle⟩
    · obtain ⟨hstop, hle⟩ := ih hes hsource
      exact ⟨Nat.le_trans hoffset (Nat.le_trans he hstop), hle⟩

/-- The sources of the bytes are in order. -/
theorem InOrder.leads (h : InOrder offset es) :
    (Segment.sources (es.map segment)).Pairwise Span.Leads := by
  induction es generalizing offset with
  | nil => exact List.Pairwise.nil
  | cons e es ih =>
    obtain ⟨-, he, hes⟩ := h
    rw [List.map_cons, Segment.sources_cons]
    refine List.pairwise_append.2 ⟨leads_bytes e, ih hes, fun source hsource later hlater => ?_⟩
    obtain ⟨-, hle, hstop⟩ := he.within hsource
    obtain ⟨hstart, hle'⟩ := hes.bounds hlater
    exact ⟨by omega, by omega⟩

end Entry

/-! ## Spans of ranges -/

variable {p : Provenance} {a b : Nat}

/-- The span behind a range of bytes starts with the source of the first byte and stops with that of
    the last one. -/
theorem Sound.exists_spanOf_eq (h : p.Sound) (hab : a < b) (hb : b ≤ p.width) : ∃ first last,
    (Segment.sources p.segments)[a]? = some first ∧
    (Segment.sources p.segments)[b - 1]? = some last ∧ p.spanOf a b = ⟨first.start, last.stop⟩ := by
  have hlength : (Segment.sources p.segments).length = p.width :=
    (Segment.length_sources _).trans h.width_eq.symm
  have hfirst := List.getElem?_eq_getElem (l := Segment.sources p.segments) (i := a) (by omega)
  have hlast := List.getElem?_eq_getElem (l := Segment.sources p.segments) (i := b - 1) (by omega)
  refine ⟨_, _, hfirst, hlast, ?_⟩
  rw [Segment.getElem?_sources, Option.map_eq_some_iff] at hlast
  obtain ⟨⟨s, k⟩, hfind, hsource⟩ := hlast
  rw [← hsource, spanOf, if_neg (Nat.not_le.2 hab), hfind, offsetOf_of_getElem? hfirst,
    Segment.source_stop]

/-- What is told in the order of the source: the span behind a range of bytes is contained in just
    those spans that contain the source of every byte in the range. It starts where its first byte
    leads, it grows with the range, and a range that is cut in two goes from the start of the first
    part to the end of the second. -/
theorem spanOf_is_least {es : List Entry} (hes : Entry.InOrder 0 es) (hab : a < b)
    (hb : b ≤ (ofEntries es).width) :
    (Segment.sources (es.map Entry.segment)).length = (ofEntries es).width ∧
    (∀ t : Span, t.containsAll ((ofEntries es).spanOf a b) ↔
      ∀ i source, a ≤ i → i < b → (Segment.sources (es.map Entry.segment))[i]? = some source →
      t.containsAll source) ∧
    ((ofEntries es).spanOf a b).start ≤ ((ofEntries es).spanOf a b).stop ∧
    ((ofEntries es).spanOf a b).start = (ofEntries es).offsetOf a ∧
    (∀ a' b', a' ≤ a → b ≤ b' → b' ≤ (ofEntries es).width →
      ((ofEntries es).spanOf a' b').containsAll ((ofEntries es).spanOf a b)) ∧
    ∀ c, b < c → c ≤ (ofEntries es).width →
      (ofEntries es).spanOf a c =
        ⟨((ofEntries es).spanOf a b).start, ((ofEntries es).spanOf b c).stop⟩ := by
  have hsound : (ofEntries es).Sound := sound_ofEntries hes.isForward
  have hsources : Segment.sources (ofEntries es).segments =
      Segment.sources (es.map Entry.segment) :=
    sources_ofEntries hes.isForward
  have hleads := hes.leads
  have hspan {a b : Nat} (hab : a < b) (hb : b ≤ (ofEntries es).width) :=
    hsources ▸ hsound.exists_spanOf_eq hab hb
  obtain ⟨first, last, hfirst, hlast, heq⟩ := hspan hab hb
  have hle : first.start ≤ first.stop := (hes.bounds (List.mem_of_getElem? hfirst)).2
  have hends : first.Leads last :=
    Span.leads_of_getElem? hleads (Nat.le_sub_one_of_lt hab) hfirst hlast
  rw [heq]
  refine ⟨?_, fun t => ⟨fun ht i source hai hib hsource => ?_, fun ht => ?_⟩,
    Nat.le_trans hle hends.2, ?_, ?_, ?_⟩
  · rw [Segment.length_sources, width_ofEntries]
  · -- The source is between those of the first byte and the last one.
    obtain ⟨hstart, hstop⟩ := Span.containsAll_iff.1 ht
    have hfrom : first.Leads source := Span.leads_of_getElem? hleads hai hfirst hsource
    have hto : source.Leads last :=
      Span.leads_of_getElem? hleads (Nat.le_sub_one_of_lt hib) hsource hlast
    exact Span.containsAll_iff.2 ⟨Nat.le_trans hstart hfrom.1, Nat.le_trans hto.2 hstop⟩
  · obtain ⟨hstart, -⟩ := Span.containsAll_iff.1 (ht a first (Nat.le_refl a) hab hfirst)
    obtain ⟨-, hstop⟩ :=
      Span.containsAll_iff.1 (ht (b - 1) last (Nat.le_sub_one_of_lt hab) (by omega) hlast)
    exact Span.containsAll_iff.2 ⟨hstart, hstop⟩
  · have hbyte : (Segment.sources (ofEntries es).segments)[a]? = some first := hsources ▸ hfirst
    exact (offsetOf_of_getElem? hbyte).symm
  · intro a' b' ha hb hb'
    obtain ⟨first', last', hfirst', hlast', heq'⟩ := hspan (by omega : a' < b') hb'
    rw [heq']
    exact Span.containsAll_iff.2 ⟨(Span.leads_of_getElem? hleads ha hfirst' hfirst).1,
      (Span.leads_of_getElem? hleads (Nat.sub_le_sub_right hb 1) hlast hlast').2⟩
  · intro c hbc hc
    obtain ⟨first', last', hfirst', hlast', heq'⟩ := hspan hbc hc
    obtain ⟨first'', last'', hfirst'', hlast'', heq''⟩ := hspan (Nat.lt_trans hab hbc) hc
    obtain rfl := Option.some.inj (hfirst.symm.trans hfirst'')
    obtain rfl := Option.some.inj (hlast'.symm.trans hlast'')
    rw [heq', heq'']

/-- `a&amp;bc` is written as `a&bc` and the end is marked, after something is left out. -/
theorem spanOf_is_least_of_reference :
    let es : List Entry :=
      [.copy ⟨10, 11⟩, .replace ⟨11, 16⟩ 1, .copy ⟨16, 18⟩, .replace ⟨18, 20⟩ 0,
        .replace ⟨20, 20⟩ 1]
    Entry.InOrder 0 es ∧ (ofEntries es).width = 5 ∧
    (∀ t : Span, t.containsAll ((ofEntries es).spanOf 1 3) ↔
      ∀ i source, 1 ≤ i → i < 3 → (Segment.sources (es.map Entry.segment))[i]? = some source →
      t.containsAll source) ∧
    (ofEntries es).spanOf 1 3 = ⟨11, 17⟩ ∧ (ofEntries es).spanOf 1 5 = ⟨11, 20⟩ := by
  intro es
  have hes : Entry.InOrder 0 es := by decide
  obtain ⟨-, hleast, -⟩ := spanOf_is_least hes (a := 1) (b := 3) (by decide) (by decide)
  exact ⟨hes, by decide, hleast, by decide, by decide⟩

end Provenance

end Taskdown
