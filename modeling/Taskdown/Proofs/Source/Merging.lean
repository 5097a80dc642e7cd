import Taskdown.Proofs.Source.Origins

/-!
# Merged copies

A provenance is told what is copied and what is replaced, one *entry* after the other, and copies
that continue each other become one segment. None of what a provenance says depends on that. A
segment is as good as the list of the bytes that it writes, each with its source
(`Segment.sources`): merging changes the segments and leaves the list as it is, and places are
looked up in the list.

* `Segment.appendCopy_cases`, `Segment.sources_appendCopy`: a copy is merged or not, and merging
  changes no byte;
* `Provenance.offsetOf_eq`: a byte leads to the start of its source, and any place behind all bytes
  to the end of the last segment;
* `Provenance.Sound.sources_tellAll`: the bytes of a provenance are those of all its entries, in
  order;
* `Provenance.merging_is_invisible`: places are those of the unmerged entries, and of several texts
  that are recorded in a row each leads where it leads when it is recorded alone.
-/

namespace Taskdown

/-! ## Bytes and their sources -/

namespace Segment

/-- The source of a byte of a segment: the byte that it has been copied from, or the whole span that
    is replaced. -/
def source (s : Segment) (k : Nat) : Span :=
  if s.copied then ⟨s.origin.start + k, s.origin.start + k + 1⟩ else s.origin

/-- The sources of the bytes that a segment writes. -/
def bytes (s : Segment) : List Span := (List.range s.width).map s.source

/-- The sources of the bytes that segments write, in order. -/
def sources (segments : List Segment) : List Span := segments.flatMap bytes

theorem source_start (s : Segment) (k : Nat) :
    (s.source k).start = if s.copied then s.origin.start + k else s.origin.start := by
  rw [source]
  split <;> rfl

theorem source_stop (s : Segment) (k : Nat) :
    (s.source k).stop = if s.copied then s.origin.start + k + 1 else s.origin.stop := by
  rw [source]
  split <;> rfl

theorem length_bytes (s : Segment) : s.bytes.length = s.width := by
  rw [bytes, List.length_map, List.length_range]

theorem sources_cons (s : Segment) (rest : List Segment) :
    sources (s :: rest) = s.bytes ++ sources rest :=
  List.flatMap_cons

theorem sources_append (as bs : List Segment) : sources (as ++ bs) = sources as ++ sources bs :=
  List.flatMap_append

theorem sources_singleton (s : Segment) : sources [s] = s.bytes := List.flatMap_singleton bytes s

theorem length_sources (segments : List Segment) :
    (sources segments).length = totalWidth segments := by
  induction segments with
  | nil => rfl
  | cons s rest ih => rw [sources_cons, List.length_append, length_bytes, ih, totalWidth]

/-- A byte of a segment is behind the bytes of the segments before it. -/
theorem getElem?_sources_append (before behind : List Segment) (s : Segment) {k : Nat}
    (hk : k < s.width) :
    (sources (before ++ s :: behind))[totalWidth before + k]? = some (s.source k) := by
  rw [sources_append, sources_cons, ← length_sources,
    List.getElem?_append_right (Nat.le_add_right _ _), Nat.add_sub_cancel_left,
    List.getElem?_append_left (by rwa [length_bytes]), bytes, List.getElem?_map,
    List.getElem?_range hk, Option.map_some]

/-- The source of a byte is found where the byte is found. -/
theorem getElem?_sources (segments : List Segment) (i : Nat) :
    (sources segments)[i]? = (Provenance.find? segments i).map fun found =>
    found.1.source found.2 := by
  induction segments generalizing i with
  | nil => rfl
  | cons s rest ih =>
    rw [sources_cons, Provenance.find?]
    by_cases hi : i < s.width
    · rw [if_pos hi, List.getElem?_append_left (by rwa [length_bytes]), bytes, List.getElem?_map,
        List.getElem?_range hi, Option.map_some, Option.map_some]
    · rw [if_neg hi, List.getElem?_append_right (by rw [length_bytes]; exact Nat.not_lt.1 hi),
        length_bytes, ih]

/-- Two copies of which the second continues the first have the bytes of one copy. -/
theorem bytes_merge {s : Segment} {span : Span} (hcopied : s.copied)
    (hstop : s.origin.stop = s.origin.start + s.width) (hnext : s.origin.stop = span.start) :
    bytes ⟨⟨s.origin.start, span.stop⟩, s.width + span.length, true⟩ = s.bytes ++
    bytes ⟨span, span.length, true⟩ := by
  rw [bytes, List.range_add, List.map_append, List.map_map]
  congr 1
  · refine List.map_congr_left fun k _ => ?_
    rw [source, source, if_pos rfl, if_pos hcopied]
  · refine List.map_congr_left fun k _ => ?_
    rw [Function.comp_apply, source, source, if_pos rfl, if_pos rfl, ← Nat.add_assoc, ← hstop,
      hnext]

/-! ## Merging -/

/-- A copied span makes the last segment longer, if that is a copy that ends where the span starts;
    otherwise it is a segment of its own. -/
theorem appendCopy_cases (segments : List Segment) (span : Span) :
    (∃ before last, segments = before ++ [last] ∧ last.copied ∧ last.origin.stop = span.start ∧
      Provenance.appendCopy segments span =
        before ++ [⟨⟨last.origin.start, span.stop⟩, last.width + span.length, true⟩]) ∨
    (∀ last ∈ segments.getLast?, ¬ (last.copied ∧ last.origin.stop = span.start)) ∧
      Provenance.appendCopy segments span = segments ++ [⟨span, span.length, true⟩] := by
  induction segments with
  | nil => exact .inr ⟨nofun, rfl⟩
  | cons s rest ih =>
    cases rest with
    | nil =>
      rw [Provenance.appendCopy]
      split
      · next hmerge => exact .inl ⟨[], s, rfl, hmerge.1, hmerge.2, rfl⟩
      · next hmerge =>
        refine .inr ⟨fun last hlast => ?_, rfl⟩
        obtain rfl := Option.some.inj hlast
        exact hmerge
    | cons t rest =>
      rw [Provenance.appendCopy]
      rcases ih with ⟨before, last, heq, hcopied, hstop, hrest⟩ | ⟨hlast, hrest⟩
      · exact .inl ⟨s :: before, last, congrArg (s :: ·) heq, hcopied, hstop,
          congrArg (s :: ·) hrest⟩
      · exact .inr ⟨by rwa [List.getLast?_cons_cons], congrArg (s :: ·) hrest⟩

/-- Merging changes no byte. -/
theorem sources_appendCopy {segments : List Segment} (h : AllExact segments) (span : Span) :
    sources (Provenance.appendCopy segments span) = sources segments ++
    bytes ⟨span, span.length, true⟩ := by
  rcases appendCopy_cases segments span with ⟨before, last, rfl, hcopied, hstop, heq⟩ | ⟨-, heq⟩
  · have hexact : last.origin.stop = last.origin.start + last.width :=
      h last List.mem_concat_self hcopied
    rw [heq, sources_append, sources_append, sources_singleton, sources_singleton,
      bytes_merge hcopied hexact hstop, List.append_assoc]
  · rw [heq, sources_append, sources_singleton]

theorem stop_of_getLast?_appendCopy (segments : List Segment) (span : Span) :
    (Provenance.appendCopy segments span).getLast?.map (·.origin.stop) = some span.stop := by
  rcases appendCopy_cases segments span with ⟨_, _, -, -, -, heq⟩ | ⟨-, heq⟩
  all_goals
    rw [heq, List.getLast?_concat]
    rfl

/-- No copied segment starts where a copied segment right before it ends. -/
def Merged (segments : List Segment) : Prop :=
  segments.IsChain fun s t => ¬ (s.copied ∧ t.copied ∧ s.origin.stop = t.origin.start)

theorem Merged.append_singleton {segments : List Segment} (h : Merged segments) {s : Segment}
    (hs : ∀ last ∈ segments.getLast?,
      ¬ (last.copied ∧ s.copied ∧ last.origin.stop = s.origin.start)) :
    Merged (segments ++ [s]) := by
  refine List.isChain_append.2 ⟨h, List.isChain_singleton s, fun last hlast t ht => ?_⟩
  obtain rfl := Option.some.inj ht
  exact hs last hlast

theorem Merged.appendCopy {segments : List Segment} (h : Merged segments) (span : Span) :
    Merged (Provenance.appendCopy segments span) := by
  rcases appendCopy_cases segments span with ⟨before, last, rfl, hcopied, -, heq⟩ | ⟨hlast, heq⟩
  · -- The longer segment starts where the last one has started.
    obtain ⟨hbefore, -, hborder⟩ := List.isChain_append.1 h
    rw [heq]
    exact Merged.append_singleton hbefore fun s hs hboth => hborder s hs last rfl ⟨hboth.1, hcopied,
      hboth.2.2⟩
  · rw [heq]
    exact h.append_singleton fun s hs hboth => hlast s hs ⟨hboth.1, hboth.2.2⟩

end Segment

namespace Provenance

variable {p : Provenance}

/-- The end of the last segment. -/
def stop (p : Provenance) : Nat := (p.segments.getLast?.map (·.origin.stop)).getD 0

/-- A byte leads to the start of its source, and a place behind all bytes to the end of the last
    segment. -/
theorem offsetOf_eq (p : Provenance) (i : Nat) :
    p.offsetOf i = ((Segment.sources p.segments)[i]?.map Span.start).getD p.stop := by
  rw [Segment.getElem?_sources, offsetOf]
  cases find? p.segments i with
  | none => rfl
  | some found => exact (Segment.source_start found.1 found.2).symm

theorem offsetOf_of_getElem? {i : Nat} {source : Span}
    (h : (Segment.sources p.segments)[i]? = some source) : p.offsetOf i = source.start := by
  rw [offsetOf_eq, h]
  rfl

theorem Sound.offsetOf_of_le (h : p.Sound) {i : Nat} (hi : p.width ≤ i) :
    p.offsetOf i = p.stop := by
  rw [offsetOf_eq, List.getElem?_eq_none (by rwa [Segment.length_sources, ← h.width_eq])]
  rfl

/-! ## Entries -/

/-- What a provenance is told. -/
inductive Entry where
  /-- A span is copied. -/
  | copy (span : Span)
  /-- A number of bytes are written in place of a span. -/
  | replace (span : Span) (width : Nat)
deriving DecidableEq, Repr

/-- An entry as a segment of its own. -/
def Entry.segment : Entry → Segment
  | copy span => ⟨span, span.length, true⟩
  | replace span width => ⟨span, width, false⟩

/-- Does an entry have neither source nor text? -/
def Entry.isVoid (e : Entry) : Bool := e.segment.origin.isEmpty && e.segment.width = 0

/-- The span of an entry does not end before it starts. -/
def Entry.IsForward (e : Entry) : Prop := e.segment.origin.start ≤ e.segment.origin.stop

instance (e : Entry) : Decidable e.IsForward := inferInstanceAs (Decidable (_ ≤ _))

/-- Records an entry. -/
def tell (p : Provenance) : Entry → Provenance
  | .copy span => p.copy span
  | .replace span width => p.replace span width

/-- Records entries, one after the other. -/
def tellAll (p : Provenance) (es : List Entry) : Provenance := es.foldl tell p

/-- What is recorded of entries alone. -/
def ofEntries (es : List Entry) : Provenance := tellAll {} es

/-- All entries that are not void, each as a segment of its own. -/
def unmerged (es : List Entry) : Provenance :=
  ⟨(es.filter (!·.isVoid)).map Entry.segment, Segment.totalWidth (es.map Entry.segment)⟩

variable {e : Entry} {es : List Entry}

theorem Entry.isVoid_copy (span : Span) : (copy span).isVoid = span.isEmpty := by
  rw [isVoid, segment]
  cases h : span.isEmpty with
  | false => rfl
  | true =>
    rw [Span.isEmpty, decide_eq_true_iff] at h
    rw [Bool.true_and, decide_eq_true_iff]
    exact Nat.sub_eq_zero_of_le (Nat.le_of_eq h.symm)

theorem Entry.isVoid_replace (span : Span) (width : Nat) :
    (replace span width).isVoid ↔ span.isEmpty ∧ width = 0 :=
  Bool.and_eq_true_iff.trans (and_congr_right' decide_eq_true_iff)

theorem Entry.bytes_of_isVoid (h : e.isVoid) : e.segment.bytes = [] := by
  have hwidth : e.segment.width = 0 := of_decide_eq_true (Bool.and_eq_true_iff.1 h).2
  exact List.eq_nil_of_length_eq_zero ((Segment.length_bytes _).trans hwidth)

theorem tell_of_isVoid (h : e.isVoid) (p : Provenance) : p.tell e = p := by
  cases e with
  | copy span => rw [tell, copy, if_pos (Entry.isVoid_copy span ▸ h)]
  | replace span width => rw [tell, replace, if_pos ((Entry.isVoid_replace span width).1 h)]

theorem segments_tell_of_not_isVoid (h : ¬ e.isVoid) (p : Provenance) : (p.tell e).segments =
    if e.segment.copied then appendCopy p.segments e.segment.origin
    else p.segments ++ [e.segment] := by
  cases e with
  | copy span =>
    rw [tell, copy, if_neg (Entry.isVoid_copy span ▸ h)]
    rfl
  | replace span width =>
    rw [tell, replace, if_neg (mt (Entry.isVoid_replace span width).2 h)]
    rfl

theorem width_tell (p : Provenance) (e : Entry) : (p.tell e).width = p.width + e.segment.width := by
  cases e with
  | copy span => exact width_copy p span
  | replace span width => exact width_replace p span width

theorem Sound.tell (h : p.Sound) (he : e.IsForward) : (p.tell e).Sound := by
  cases e with
  | copy span => exact h.copy he
  | replace span width => exact h.replace span width

/-- An entry adds its bytes at the end. -/
theorem Sound.sources_tell (h : p.Sound) (e : Entry) :
    Segment.sources (p.tell e).segments = Segment.sources p.segments ++ e.segment.bytes := by
  by_cases hvoid : e.isVoid
  · rw [tell_of_isVoid hvoid, Entry.bytes_of_isVoid hvoid, List.append_nil]
  · rw [segments_tell_of_not_isVoid hvoid]
    cases e with
    | copy span => exact Segment.sources_appendCopy h.exact span
    | replace span width =>
      exact (Segment.sources_append _ _).trans (by rw [Segment.sources_singleton])

theorem stop_tell (p : Provenance) (e : Entry) :
    (p.tell e).stop = if e.isVoid then p.stop else e.segment.origin.stop := by
  split
  · next hvoid => rw [tell_of_isVoid hvoid]
  · next hvoid =>
    rw [stop, segments_tell_of_not_isVoid hvoid]
    cases e with
    | copy span => exact congrArg (·.getD 0) (Segment.stop_of_getLast?_appendCopy p.segments span)
    | replace span width => rw [if_neg (by exact Bool.false_ne_true), List.getLast?_concat]; rfl

theorem merged_tell (h : Segment.Merged p.segments) (e : Entry) :
    Segment.Merged (p.tell e).segments := by
  by_cases hvoid : e.isVoid
  · rwa [tell_of_isVoid hvoid]
  · rw [segments_tell_of_not_isVoid hvoid]
    cases e with
    | copy span => exact h.appendCopy span
    | replace span width => exact h.append_singleton fun _ _ hboth => Bool.false_ne_true hboth.2.1

/-! ## Runs of entries -/

theorem tellAll_cons (p : Provenance) (e : Entry) (es : List Entry) :
    p.tellAll (e :: es) = (p.tell e).tellAll es := rfl

theorem tellAll_append (p : Provenance) (as bs : List Entry) :
    p.tellAll (as ++ bs) = (p.tellAll as).tellAll bs :=
  List.foldl_append

theorem Sound.tellAll (h : p.Sound) (hes : ∀ e ∈ es, e.IsForward) : (p.tellAll es).Sound := by
  induction es generalizing p with
  | nil => exact h
  | cons e es ih =>
    obtain ⟨he, hes⟩ := List.forall_mem_cons.1 hes
    exact ih (h.tell he) hes

theorem width_tellAll (p : Provenance) (es : List Entry) :
    (p.tellAll es).width = p.width + Segment.totalWidth (es.map Entry.segment) := by
  induction es generalizing p with
  | nil => rfl
  | cons e es ih =>
    rw [tellAll_cons, ih, width_tell, List.map_cons, Segment.totalWidth, Nat.add_assoc]

/-- The bytes of a provenance are those of all its entries, in order. -/
theorem Sound.sources_tellAll (h : p.Sound) (hes : ∀ e ∈ es, e.IsForward) :
    Segment.sources (p.tellAll es).segments = Segment.sources p.segments ++
    Segment.sources (es.map Entry.segment) := by
  induction es generalizing p with
  | nil => exact (List.append_nil _).symm
  | cons e es ih =>
    obtain ⟨he, hes⟩ := List.forall_mem_cons.1 hes
    rw [tellAll_cons, ih (h.tell he) hes, h.sources_tell, List.map_cons, Segment.sources_cons,
      List.append_assoc]

theorem stop_tellAll (p : Provenance) (es : List Entry) : (p.tellAll es).stop =
    ((es.filter (!·.isVoid)).getLast?.map (·.segment.origin.stop)).getD p.stop := by
  induction es generalizing p with
  | nil => rfl
  | cons e es ih =>
    rw [tellAll_cons, ih, stop_tell]
    cases hvoid : e.isVoid with
    | true => rw [List.filter_cons_of_neg (by simp [hvoid]), if_pos rfl]
    | false =>
      rw [List.filter_cons_of_pos (by simp [hvoid]), if_neg Bool.false_ne_true, List.getLast?_cons]
      cases (es.filter (!·.isVoid)).getLast? <;> rfl

theorem merged_tellAll (h : Segment.Merged p.segments) (es : List Entry) :
    Segment.Merged (p.tellAll es).segments := by
  induction es generalizing p with
  | nil => exact h
  | cons e es ih => exact ih (merged_tell h e)

theorem sound_ofEntries (hes : ∀ e ∈ es, e.IsForward) : (ofEntries es).Sound :=
  sound_empty.tellAll hes

theorem width_ofEntries (es : List Entry) :
    (ofEntries es).width = Segment.totalWidth (es.map Entry.segment) :=
  (width_tellAll {} es).trans (Nat.zero_add _)

theorem sources_ofEntries (hes : ∀ e ∈ es, e.IsForward) :
    Segment.sources (ofEntries es).segments = Segment.sources (es.map Entry.segment) :=
  sound_empty.sources_tellAll hes

theorem stop_ofEntries (es : List Entry) :
    (ofEntries es).stop = ((es.filter (!·.isVoid)).getLast?.map (·.segment.origin.stop)).getD 0 :=
  stop_tellAll {} es

theorem merged_ofEntries (es : List Entry) : Segment.Merged (ofEntries es).segments :=
  merged_tellAll (p := {}) List.isChain_nil es

/-- Entries that are void have no bytes. -/
theorem sources_unmerged (es : List Entry) :
    Segment.sources (unmerged es).segments = Segment.sources (es.map Entry.segment) := by
  induction es with
  | nil => rfl
  | cons e es ih =>
    change Segment.sources ((es.filter (!·.isVoid)).map Entry.segment) = _ at ih
    rw [unmerged, List.map_cons, Segment.sources_cons, ← ih]
    cases hvoid : e.isVoid with
    | true =>
      rw [List.filter_cons_of_neg (by simp [hvoid]), Entry.bytes_of_isVoid hvoid, List.nil_append]
    | false => rw [List.filter_cons_of_pos (by simp [hvoid]), List.map_cons, Segment.sources_cons]

theorem stop_unmerged (es : List Entry) :
    (unmerged es).stop = ((es.filter (!·.isVoid)).getLast?.map (·.segment.origin.stop)).getD 0 := by
  rw [stop, unmerged, List.getLast?_map, Option.map_map]
  rfl

/-- The bytes of some of the entries lead where they lead without the other entries. -/
theorem Sound.offsetOf_tellAll (h : p.Sound) {call behind : List Entry}
    (hes : ∀ e ∈ call ++ behind, e.IsForward) {i : Nat}
    (hi : i < Segment.totalWidth (call.map Entry.segment)) :
    (p.tellAll (call ++ behind)).offsetOf (p.width + i) = (ofEntries call).offsetOf i := by
  have hcall : ∀ e ∈ call, e.IsForward := fun e he => hes e (List.mem_append_left _ he)
  rw [← Segment.length_sources] at hi
  rw [offsetOf_eq, offsetOf_eq, h.sources_tellAll hes, sources_ofEntries hcall, h.width_eq,
    ← Segment.length_sources, List.getElem?_append_right (Nat.le_add_right _ _),
    Nat.add_sub_cancel_left, List.map_append, Segment.sources_append, List.getElem?_append_left hi,
    List.getElem?_eq_getElem hi]
  rfl

end Provenance

/-! ## Texts recorded in a row -/

/-- What is told of a rewriting, if its text starts at an offset of its source. -/
def Rewriting.entries : Nat → Rewriting → List Provenance.Entry
  | _, [] => []
  | offset, .keep c :: r => .copy ⟨offset, offset + c.utf8Size⟩ :: entries (offset + c.utf8Size) r
  | offset, .change old new :: r =>
    .replace ⟨offset, offset + Text.width old⟩ (Text.width new) ::
      entries (offset + Text.width old) r

/-- Records rewritings of several views, of which the new texts are put one behind the other. -/
def View.recordAll (calls : List (View × Rewriting)) (p : Provenance) : Provenance :=
  calls.foldl (fun p call => call.1.record call.2 p) p

namespace Rewriting

theorem record_eq_tellAll (offset : Nat) (r : Rewriting) (p : Provenance) :
    r.record offset p = p.tellAll (r.entries offset) := by
  induction r generalizing offset p with
  | nil => rfl
  | cons piece r ih => cases piece <;> exact ih _ _

theorem isForward_entries (offset : Nat) (r : Rewriting) : ∀ e ∈ r.entries offset, e.IsForward := by
  induction r generalizing offset with
  | nil => exact nofun
  | cons piece r ih =>
    cases piece <;> exact List.forall_mem_cons.2 ⟨Nat.le_add_right _ _, ih _⟩

theorem totalWidth_entries (offset : Nat) (r : Rewriting) :
    Segment.totalWidth ((r.entries offset).map Provenance.Entry.segment) = Text.width r.output := by
  have hwidth := Provenance.width_record offset r {}
  rw [record_eq_tellAll, Provenance.width_tellAll] at hwidth
  exact Nat.add_left_cancel hwidth

end Rewriting

theorem View.recordAll_eq_tellAll (calls : List (View × Rewriting)) (p : Provenance) :
    recordAll calls p = p.tellAll (calls.flatMap fun call => call.2.entries call.1.start) := by
  induction calls generalizing p with
  | nil => rfl
  | cons call calls ih =>
    rw [List.flatMap_cons, Provenance.tellAll_append, ← Rewriting.record_eq_tellAll]
    exact ih _

theorem View.width_recordAll (calls : List (View × Rewriting)) (p : Provenance) :
    (recordAll calls p).width = p.width + Text.width (calls.flatMap (·.2.output)) := by
  induction calls generalizing p with
  | nil => rfl
  | cons call calls ih =>
    rw [List.flatMap_cons, Text.width_append, ← Nat.add_assoc,
      ← Provenance.width_record call.1.start]
    exact ih _

/-- Of several texts that are recorded in a row each leads where it leads when it is recorded
    alone. -/
theorem View.offsetOf_recordAll (before behind : List (View × Rewriting)) (v : View)
    (r : Rewriting) {i : Nat} (hi : i < Text.width r.output) :
    (recordAll (before ++ (v, r) :: behind) {}).offsetOf
    (Text.width (before.flatMap (·.2.output)) + i) =
      (v.record r {}).offsetOf i := by
  have hforward : ∀ calls : List (View × Rewriting), ∀ e ∈ calls.flatMap fun call =>
      call.2.entries call.1.start, e.IsForward := by
    intro calls e he
    obtain ⟨call, -, he⟩ := List.mem_flatMap.1 he
    exact Rewriting.isForward_entries _ _ e he
  have hwidth : (recordAll before {}).width = Text.width (before.flatMap (·.2.output)) :=
    (width_recordAll before {}).trans (Nat.zero_add _)
  have hsound : (recordAll before {}).Sound := by
    rw [recordAll_eq_tellAll]
    exact Provenance.sound_ofEntries (hforward before)
  rw [← hwidth, recordAll, List.foldl_append, ← recordAll, ← recordAll,
    recordAll_eq_tellAll ((v, r) :: behind), List.flatMap_cons, record, Rewriting.record_eq_tellAll]
  refine hsound.offsetOf_tellAll ?_ (by rwa [Rewriting.totalWidth_entries])
  exact hforward ((v, r) :: behind)

namespace Provenance

/-- Nothing shows that copies have been merged. The bytes of all entries are counted, and they lead
    where the unmerged entries lead: a byte that is copied to the byte that it has been copied from,
    any other byte to the start of what it is written for, and a place behind all bytes to the end
    of the last entry that is not void. Entries that are told in a row lead where they lead alone,
    and so do texts that are recorded in a row. Copies that continue each other are merged. -/
theorem merging_is_invisible {es : List Entry} (hes : ∀ e ∈ es, e.IsForward) :
    (ofEntries es).width = Segment.totalWidth (es.map Entry.segment) ∧
    (∀ i, (ofEntries es).offsetOf i = (unmerged es).offsetOf i) ∧
    (∀ before e behind k, es = before ++ e :: behind → k < e.segment.width →
      (ofEntries es).offsetOf (Segment.totalWidth (before.map Entry.segment) + k) =
        if e.segment.copied then e.segment.origin.start + k else e.segment.origin.start) ∧
    (∀ i, (ofEntries es).width ≤ i → (ofEntries es).offsetOf i =
      ((es.filter (!·.isVoid)).getLast?.map (·.segment.origin.stop)).getD 0) ∧
    (∀ before call behind i, es = before ++ (call ++ behind) →
      i < Segment.totalWidth (call.map Entry.segment) →
      (ofEntries es).offsetOf (Segment.totalWidth (before.map Entry.segment) + i) =
      (ofEntries call).offsetOf i) ∧
    (∀ before v r behind i, i < Text.width (Rewriting.output r) →
      (View.recordAll (before ++ (v, r) :: behind) {}).offsetOf
      (Text.width (before.flatMap (·.2.output)) + i) =
        (v.record r {}).offsetOf i) ∧
    Segment.Merged (ofEntries es).segments := by
  refine ⟨width_ofEntries es, fun i => ?_, ?_, fun i hi => ?_, ?_, ?_, merged_ofEntries es⟩
  · rw [offsetOf_eq, offsetOf_eq, sources_ofEntries hes, sources_unmerged,
      stop_ofEntries, stop_unmerged]
  · rintro before e behind k rfl hk
    have hbyte := Segment.getElem?_sources_append (before.map Entry.segment)
      (behind.map Entry.segment) e.segment hk
    rw [← List.map_cons, ← List.map_append, ← sources_ofEntries hes] at hbyte
    rw [offsetOf_of_getElem? hbyte, Segment.source_start]
  · rw [(sound_ofEntries hes).offsetOf_of_le hi, stop_ofEntries]
  · rintro before call behind i rfl hi
    obtain ⟨hbefore, hrest⟩ := List.forall_mem_append.1 hes
    rw [ofEntries, tellAll_append, ← width_ofEntries]
    exact (sound_ofEntries hbefore).offsetOf_tellAll hrest hi
  · exact fun before v r behind i hi => View.offsetOf_recordAll before behind v r hi

/-- Two copies are merged although an entry that is void is between them, and two others are not
    because of a deletion. -/
theorem merging_is_invisible_of_copies :
    let es : List Entry :=
      [.copy ⟨0, 3⟩, .replace ⟨3, 3⟩ 0, .copy ⟨3, 5⟩, .replace ⟨5, 9⟩ 0, .copy ⟨9, 10⟩,
        .replace ⟨10, 10⟩ 2]
    (∀ e ∈ es, e.IsForward) ∧
    (ofEntries es).segments =
      [⟨⟨0, 5⟩, 5, true⟩, ⟨⟨5, 9⟩, 0, false⟩, ⟨⟨9, 10⟩, 1, true⟩, ⟨⟨10, 10⟩, 2, false⟩] ∧
    (ofEntries es).offsetOf 4 = 4 ∧ (ofEntries es).offsetOf 5 = 9 ∧
    (ofEntries es).offsetOf 8 = 10 := by
  intro es
  have hes : ∀ e ∈ es, e.IsForward := by decide
  obtain ⟨-, -, hbyte, hbehind, -⟩ := merging_is_invisible hes
  refine ⟨hes, by decide, ?_, ?_, hbehind 8 (by decide)⟩
  · exact hbyte [.copy ⟨0, 3⟩, .replace ⟨3, 3⟩ 0] (.copy ⟨3, 5⟩) _ 1 rfl (by decide)
  · exact hbyte [.copy ⟨0, 3⟩, .replace ⟨3, 3⟩ 0, .copy ⟨3, 5⟩, .replace ⟨5, 9⟩ 0]
      (.copy ⟨9, 10⟩) _ 0 rfl (by decide)

end Provenance

end Taskdown
