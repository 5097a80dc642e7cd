import Mathlib.Data.List.Chain
import Taskdown.Proofs.Source.Derivation
import Taskdown.Source.LineEnding
import Taskdown.Source.Unescape

/-!
# What provenances say

A rewriting is recorded piece by piece. What is recorded are *passages*, which are longer than
pieces because characters that are copied one behind the other are recorded as one: a passage is a
text that is copied, or a text and what is written in its place. The passages of a rewriting and the
segments of its provenance correspond (`Passage.Records`), and one piece adds to both in the same
way (`Passage.Records.keep`, `Passage.Records.change`). So what a provenance says about a text is
read off the passages, by going through them from left to right.

* `Passage.Records.record`: the passages of a whole rewriting;
* `Passage.exists_place`: a place between two characters of what is written leads to a place between
  two characters of what was there;
* `View.Made.record_traces`: what is recorded when a view is unescaped, or its line terminators are
  made uniform.
-/

namespace Taskdown

/-! ## Runs of segments -/

namespace Segment

/-- The number of bytes that segments write. -/
def totalWidth : List Segment → Nat
  | [] => 0
  | s :: rest => s.width + totalWidth rest

/-- The spans of the segments lie one behind the other, from an offset to another, with nothing in
    between. -/
def Tiles : Nat → List Segment → Nat → Prop
  | start, [], stop => start = stop
  | start, s :: rest, stop =>
    s.origin.start = start ∧ start ≤ s.origin.stop ∧ Tiles s.origin.stop rest stop

/-- The place in the source behind an index of what segments write; `default` if there are none. -/
def place : Nat → List Segment → Nat → Nat
  | default, [], _ => default
  | _, s :: rest, i =>
    if i < s.width then if s.copied then s.origin.start + i else s.origin.start
    else place s.origin.stop rest (i - s.width)

end Segment

theorem Provenance.offsetOf_eq_place (p : Provenance) (i : Nat) :
    p.offsetOf i = Segment.place 0 p.segments i := by
  suffices h : ∀ (segments : List Segment) (default : Nat) (i : Nat),
      (find? segments i).elim ((segments.getLast?.map (·.origin.stop)).getD default)
        (fun found =>
          if found.1.copied then found.1.origin.start + found.2 else found.1.origin.start) =
        Segment.place default segments i by
    rw [← h, offsetOf]
    cases find? p.segments i <;> rfl
  intro segments
  induction segments with
  | nil => exact fun _ _ => rfl
  | cons s rest ih =>
    intro default i
    rw [find?, Segment.place]
    by_cases hi : i < s.width
    · rw [if_pos hi, if_pos hi, Option.elim_some]
    · rw [if_neg hi, if_neg hi, ← ih, List.getLast?_cons]
      cases rest.getLast? <;> rfl

/-! ## Passages -/

/-- What a segment stands for. -/
inductive Passage where
  /-- A text that is copied. -/
  | copied (cs : Text)
  /-- A text and what is written in its place. -/
  | replaced (old new : Text)

namespace Passage

variable {ps : List Passage} {start i j : Nat}

/-- The text that was there. -/
def old : Passage → Text
  | copied cs => cs
  | replaced old _ => old

/-- The text that is written. -/
def new : Passage → Text
  | copied cs => cs
  | replaced _ new => new

/-- Is the text copied? -/
def isCopied : Passage → Bool
  | copied _ => true
  | replaced _ _ => false

/-- The text that was there, in all passages. -/
def olds (ps : List Passage) : Text := ps.flatMap old

/-- The text that is written, in all passages. -/
def news (ps : List Passage) : Text := ps.flatMap new

/-- At most one of the two is copied. -/
def Apart (q q' : Passage) : Prop := ¬ (q.isCopied ∧ q'.isCopied)

/-- The segment of a passage at an offset of the source. -/
def segment (offset : Nat) (q : Passage) : Segment :=
  ⟨⟨offset, offset + Text.width q.old⟩, Text.width q.new, q.isCopied⟩

/-- The segments of consecutive passages, the first of which is at an offset of the source. -/
def segments : Nat → List Passage → List Segment
  | _, [] => []
  | offset, q :: ps => q.segment offset :: segments (offset + Text.width q.old) ps

theorem segment_stop (offset : Nat) (q : Passage) :
    (q.segment offset).origin.stop = offset + Text.width q.old := rfl

theorem segment_width (offset : Nat) (q : Passage) : (q.segment offset).width = Text.width q.new :=
  rfl

@[simp] theorem olds_nil : olds [] = [] := rfl

@[simp] theorem news_nil : news [] = [] := rfl

@[simp] theorem olds_cons (q : Passage) (ps : List Passage) : olds (q :: ps) = q.old ++ olds ps :=
  rfl

@[simp] theorem news_cons (q : Passage) (ps : List Passage) : news (q :: ps) = q.new ++ news ps :=
  rfl

/-! ### Reading segments -/

theorem tiles_segments (start : Nat) (ps : List Passage) :
    Segment.Tiles start (segments start ps) (start + Text.width (olds ps)) := by
  induction ps generalizing start with
  | nil => rfl
  | cons q ps ih =>
    refine ⟨rfl, Nat.le_add_right _ _, ?_⟩
    rw [olds_cons, Text.width_append, ← Nat.add_assoc]
    exact ih _

theorem totalWidth_segments (start : Nat) (ps : List Passage) :
    Segment.totalWidth (segments start ps) = Text.width (news ps) := by
  induction ps generalizing start with
  | nil => rfl
  | cons q ps ih =>
    rw [segments, Segment.totalWidth, ih, segment_width, news_cons, Text.width_append]

theorem map_copied_segments (start : Nat) (ps : List Passage) :
    (segments start ps).map (·.copied) = ps.map isCopied := by
  induction ps generalizing start with
  | nil => rfl
  | cons q ps ih => exact congrArg (q.isCopied :: ·) (ih _)

/-- Every segment is that of a passage, behind the passages of the segments before it. -/
theorem exists_of_segments_eq {before behind : List Segment} {s : Segment}
    (h : segments start ps = before ++ s :: behind) :
    ∃ as q bs, ps = as ++ q :: bs ∧ Segment.totalWidth before = Text.width (news as) ∧
      s = q.segment (start + Text.width (olds as)) := by
  induction before generalizing start ps with
  | nil =>
    cases ps with
    | nil => cases h
    | cons q ps => exact ⟨[], q, ps, rfl, rfl, (List.cons.inj h).1.symm⟩
  | cons t before ih =>
    cases ps with
    | nil => cases h
    | cons q ps =>
      obtain ⟨rfl, hrest⟩ := List.cons.inj h
      obtain ⟨as, q', bs, rfl, hwidth, rfl⟩ := ih hrest
      refine ⟨q :: as, q', bs, rfl, ?_, ?_⟩
      · rw [Segment.totalWidth, hwidth, segment_width, news_cons, Text.width_append]
      · rw [olds_cons, Text.width_append, Nat.add_assoc]

/-! ### Places -/

theorem start_le_place (start : Nat) (ps : List Passage) (i : Nat) :
    start ≤ Segment.place start (segments start ps) i := by
  induction ps generalizing start i with
  | nil => exact Nat.le_refl _
  | cons q ps ih =>
    rw [segments, Segment.place]
    split
    · split
      · exact Nat.le_add_right _ _
      · exact Nat.le_refl _
    · exact Nat.le_trans (Nat.le_add_right _ _) (ih _ _)

theorem place_le (start : Nat) (ps : List Passage) (i : Nat) :
    Segment.place start (segments start ps) i ≤ start + Text.width (olds ps) := by
  induction ps generalizing start i with
  | nil => exact Nat.le_refl _
  | cons q ps ih =>
    rw [segments, Segment.place, olds_cons, Text.width_append, ← Nat.add_assoc]
    split
    · next hlt =>
      cases q with
      | copied cs =>
        change i < Text.width cs at hlt
        change start + i ≤ start + Text.width cs + _
        omega
      | replaced old new => exact Nat.le_trans (Nat.le_add_right _ _) (Nat.le_add_right _ _)
    · exact ih _ _

/-- Going on in what is written never goes back in the source. -/
theorem place_mono (hij : i ≤ j) : Segment.place start (segments start ps) i ≤
    Segment.place start (segments start ps) j := by
  induction ps generalizing start i j with
  | nil => exact Nat.le_refl _
  | cons q ps ih =>
    rw [segments, Segment.place, Segment.place]
    by_cases hj : j < (q.segment start).width
    · rw [if_pos (Nat.lt_of_le_of_lt hij hj), if_pos hj]
      split
      · exact Nat.add_le_add_left hij _
      · exact Nat.le_refl _
    · rw [if_neg hj]
      split
      · next hi =>
        -- The passage ends before the place of `j`.
        refine Nat.le_trans ?_ (start_le_place _ ps _)
        cases q with
        | copied cs => exact Nat.add_le_add_left (Nat.le_of_lt hi) _
        | replaced old new => exact Nat.le_add_right _ _
      · exact ih (Nat.sub_le_sub_right hij _)

theorem place_width (start : Nat) (ps : List Passage) :
    Segment.place start (segments start ps) (Text.width (news ps)) =
    start + Text.width (olds ps) := by
  induction ps generalizing start with
  | nil => rfl
  | cons q ps ih =>
    rw [segments, Segment.place, segment_width, segment_stop, news_cons, Text.width_append,
      if_neg (Nat.not_lt.2 (Nat.le_add_right _ _)), Nat.add_sub_cancel_left, ih,
      olds_cons, Text.width_append, Nat.add_assoc]

/-- A place between two characters of what is written leads to a place between two characters of
    what was there. -/
theorem exists_place (start : Nat) (hi : Text.isBoundary (news ps) i) :
    ∃ before behind, olds ps = before ++ behind ∧ Segment.place start (segments start ps) i =
    start + Text.width before := by
  induction ps generalizing start i with
  | nil => exact ⟨[], [], rfl, rfl⟩
  | cons q ps ih =>
    obtain ⟨front, rest, hsplit, rfl⟩ := Text.isBoundary_iff.1 hi
    rw [segments, Segment.place, segment_width, segment_stop]
    split
    · next hlt =>
      cases q with
      | copied cs =>
        -- The place is within a text that is there as it is written.
        obtain ⟨tail, htail⟩ := Text.prefix_of_width_le hsplit.symm (Nat.le_of_lt hlt)
        exact ⟨front, tail ++ olds ps, by rw [← List.append_assoc, htail]; rfl, rfl⟩
      | replaced old new => exact ⟨[], _, rfl, rfl⟩
    · next hle =>
      obtain ⟨tail, rfl⟩ := Text.prefix_of_width_le hsplit (Nat.not_lt.1 hle)
      rw [news_cons, List.append_assoc, List.append_cancel_left_eq] at hsplit
      obtain ⟨before, behind, hbefore, hplace⟩ := ih (start + Text.width q.old)
        (Text.isBoundary_iff.2 ⟨tail, rest, hsplit, rfl⟩)
      refine ⟨q.old ++ before, behind, by rw [olds_cons, hbefore, List.append_assoc], ?_⟩
      rw [Text.width_append, Nat.add_sub_cancel_left, hplace, Text.width_append, Nat.add_assoc]

/-! ### Recording pieces -/

/-- The passages with one more character that is copied. -/
def addCopied : List Passage → Char → List Passage
  | [], c => [copied [c]]
  | [copied cs], c => [copied (cs ++ [c])]
  | [replaced old new], c => [replaced old new, copied [c]]
  | q :: q' :: ps, c => q :: addCopied (q' :: ps) c

theorem olds_addCopied (ps : List Passage) (c : Char) : olds (addCopied ps c) = olds ps ++ [c] := by
  fun_induction addCopied ps c with
  | case1 => rfl
  | case2 => simp [old]
  | case3 => simp [old]
  | case4 q q' ps c ih => rw [olds_cons, ih, olds_cons q, List.append_assoc]

theorem news_addCopied (ps : List Passage) (c : Char) : news (addCopied ps c) = news ps ++ [c] := by
  fun_induction addCopied ps c with
  | case1 => rfl
  | case2 => simp [new]
  | case3 => simp [new]
  | case4 q q' ps c ih => rw [news_cons, ih, news_cons q, List.append_assoc]

theorem all_isCopied_addCopied (ps : List Passage) (c : Char) :
    (addCopied ps c).all isCopied = ps.all isCopied := by
  fun_induction addCopied ps c with
  | case1 => rfl
  | case2 => rfl
  | case3 => rfl
  | case4 q q' ps c ih => rw [List.all_cons, ih, List.all_cons (a := q)]

/-- The first passage stays what it was, whether it grows or not. -/
theorem head_addCopied (q : Passage) (ps : List Passage) (c : Char) :
    (addCopied (q :: ps) c).head?.map isCopied = some q.isCopied := by
  cases ps with
  | nil => cases q <;> rfl
  | cons => rw [addCopied]; rfl

/-- A copied character never makes a copied passage next to another one. -/
theorem isChain_addCopied (h : ps.IsChain Apart) (c : Char) : (addCopied ps c).IsChain Apart := by
  fun_induction addCopied ps c with
  | case1 => exact List.isChain_singleton _
  | case2 => exact List.isChain_singleton _
  | case3 => exact List.isChain_cons_cons.2 ⟨by simp [Apart, isCopied], List.isChain_singleton _⟩
  | case4 q q' ps c ih =>
    obtain ⟨hq, hps⟩ := List.isChain_cons_cons.1 h
    refine List.isChain_cons.2 ⟨fun q'' hq'' => ?_, ih hps⟩
    have hhead := head_addCopied q' ps c
    rw [hq''] at hhead
    rwa [Apart, Option.some.inj hhead]

theorem segments_append (start : Nat) (ps qs : List Passage) :
    segments start (ps ++ qs) = segments start ps ++ segments (start + Text.width (olds ps))
    qs := by
  induction ps generalizing start with
  | nil => rfl
  | cons q ps ih =>
    rw [List.cons_append, segments, ih, segments, olds_cons, Text.width_append, Nat.add_assoc]; rfl

/-- Segments merge copied characters as passages do. -/
theorem appendCopy_segments (start : Nat) (ps : List Passage) (c : Char) :
    Provenance.appendCopy (segments start ps)
      ⟨start + Text.width (olds ps), start + Text.width (olds ps) + c.utf8Size⟩ =
        segments start (addCopied ps c) := by
  fun_induction addCopied ps c generalizing start with
  | case1 c => simp [segments, segment, Provenance.appendCopy, old, new, isCopied, Span.length]
  | case2 cs c =>
    have hlength (n : Nat) : start + (n + c.utf8Size) - (start + n) = c.utf8Size := by omega
    simp [segments, segment, Provenance.appendCopy, old, new, isCopied, Span.length,
      Nat.add_assoc, hlength]
  | case3 was new c =>
    simp [segments, segment, Provenance.appendCopy, old, Passage.new, isCopied, Span.length]
  | case4 q q' ps c ih =>
    rw [olds_cons, Text.width_append, ← Nat.add_assoc]
    exact congrArg (q.segment start :: ·) (ih _)

/-- The passages correspond to the segments of a provenance, and to the pieces of a text at an
    offset that it records. -/
structure Records (start : Nat) (ps : List Passage) (r : Rewriting) (p : Provenance) : Prop where
  segments_eq : p.segments = segments start ps
  width_eq : p.width = Text.width (news ps)
  olds_eq : olds ps = r.input
  news_eq : news ps = r.output
  apart : ps.IsChain Apart
  copied_eq : ps.all isCopied = r.isIdentity

variable {r r' : Rewriting} {p : Provenance}

/-- One character is copied. -/
theorem Records.keep (h : Records start ps r p) (c : Char) :
    Records start (addCopied ps c) (r ++ [.keep c])
    (p.copy ⟨start + Text.width r.input, start + Text.width r.input + c.utf8Size⟩) := by
  have hpos := Char.utf8Size_pos c
  rw [Provenance.copy, if_neg (by simp [Span.isEmpty]; omega)]
  constructor
  · rw [h.segments_eq, ← h.olds_eq]
    exact appendCopy_segments start ps c
  · rw [news_addCopied, Text.width_append, h.width_eq]
    simp [Span.length]
  · rw [olds_addCopied, h.olds_eq]
    simp [Rewriting.input, Piece.input]
  · rw [news_addCopied, h.news_eq]
    simp [Rewriting.output, Piece.output]
  · exact isChain_addCopied h.apart c
  · rw [all_isCopied_addCopied, h.copied_eq]
    simp [Rewriting.isIdentity, Piece.isKept]

/-- One text is replaced. -/
theorem Records.change (h : Records start ps r p) {old new : Text} (hne : old ≠ [] ∨ new ≠ []) :
    Records start (ps ++ [replaced old new]) (r ++ [.change old new])
      (p.replace ⟨start + Text.width r.input, start + Text.width r.input + Text.width old⟩
        (Text.width new)) := by
  have hrecorded : ¬ (Text.width old = 0 ∧ Text.width new = 0) := by
    rwa [Text.width_eq_zero_iff, Text.width_eq_zero_iff, not_and_or]
  rw [Provenance.replace, if_neg (by simpa [Span.isEmpty] using hrecorded)]
  constructor
  · rw [h.segments_eq, segments_append, h.olds_eq]
    rfl
  · rw [h.width_eq]
    simp [news, Passage.new]
  · rw [Rewriting.input, List.flatMap_append, ← Rewriting.input, ← h.olds_eq, olds,
      List.flatMap_append]
    rfl
  · rw [Rewriting.output, List.flatMap_append, ← Rewriting.output, ← h.news_eq, news,
      List.flatMap_append]
    rfl
  · refine List.isChain_append.2 ⟨h.apart, List.isChain_singleton _, fun q _ q' hq' => ?_⟩
    obtain rfl := Option.some.inj hq'
    simp [Apart, isCopied]
  · rw [List.all_append, h.copied_eq]
    simp [Rewriting.isIdentity, isCopied, Piece.isKept]

theorem Records.offsetOf_eq (h : Records start ps r p) (hne : ps ≠ []) (i : Nat) :
    p.offsetOf i = Segment.place start (segments start ps) i := by
  rw [Provenance.offsetOf_eq_place, h.segments_eq]
  cases ps with
  | nil => contradiction
  | cons => rfl

/-- The whole rewriting is recorded. -/
theorem Records.record (h : Records start ps r p)
    (hr' : ∀ old new, .change old new ∈ r' → old ≠ [] ∨ new ≠ []) :
    ∃ ps', Records start ps' (r ++ r') (r'.record (start + Text.width r.input) p) := by
  induction r' generalizing ps r p with
  | nil => exact ⟨ps, by rwa [List.append_nil]⟩
  | cons piece r' ih =>
    have hrest : ∀ old new, .change old new ∈ r' → old ≠ [] ∨ new ≠ [] := fun old new hmem =>
      hr' old new (List.mem_cons_of_mem _ hmem)
    rw [List.append_cons]
    cases piece with
    | keep c =>
      obtain ⟨ps', hps'⟩ := ih (h.keep c) hrest
      refine ⟨ps', ?_⟩
      simpa [Rewriting.input, Piece.input, Rewriting.record, Nat.add_assoc] using hps'
    | change old new =>
      obtain ⟨ps', hps'⟩ := ih (h.change (hr' old new List.mem_cons_self)) hrest
      refine ⟨ps', ?_⟩
      simpa [Rewriting.input, Piece.input, Rewriting.record, Nat.add_assoc] using hps'

end Passage

/-! ## Views -/

namespace Rewriting

/-- No piece of the rewriting replaces nothing by nothing. -/
def IsSubstantial (r : Rewriting) : Prop := ∀ old new, .change old new ∈ r → old ≠ [] ∨ new ≠ []

theorem isSubstantial_nil : IsSubstantial [] := nofun

theorem IsSubstantial.cons_keep {r : Rewriting} (h : r.IsSubstantial) (c : Char) :
    IsSubstantial (.keep c :: r) := by
  intro old new hmem
  exact h old new (by simpa using hmem)

theorem IsSubstantial.cons_change {r : Rewriting} (h : r.IsSubstantial) {old new : Text}
    (hne : old ≠ [] ∨ new ≠ []) : IsSubstantial (.change old new :: r) := by
  intro old' new' hmem
  rcases List.mem_cons.1 hmem with heq | hmem
  · cases heq
    exact hne
  · exact h old' new' hmem

theorem IsSubstantial.append {r r' : Rewriting} (h : r.IsSubstantial) (h' : r'.IsSubstantial) :
    (r ++ r').IsSubstantial := by
  intro old new hmem
  rcases List.mem_append.1 hmem with hmem | hmem
  · exact h old new hmem
  · exact h' old new hmem

end Rewriting

open Rewriting

theorem isSubstantial_unescape (decode : Text.Reference → Option Text) (cs : Text) :
    (unescape decode cs).IsSubstantial := by
  fun_induction unescape decode cs with
  | case1 => exact isSubstantial_nil
  | case2 c cs _ ih => exact ih.cons_change (.inl (List.cons_ne_nil _ _))
  | case3 c cs _ ih => exact ih.cons_keep _
  | case4 cs length new _ ih => exact ih.cons_change (.inl (List.cons_ne_nil _ _))
  | case5 cs _ ih => exact ih.cons_keep _
  | case6 c cs _ _ ih => exact ih.cons_keep _

theorem isSubstantial_normalizeLineEnds (cs : Text) : (normalizeLineEnds cs).IsSubstantial := by
  fun_induction normalizeLineEnds cs with
  | case1 => exact isSubstantial_nil
  | case2 cs ih => exact ih.cons_change (.inl (List.cons_ne_nil _ _))
  | case3 c cs _ ih =>
    split
    · exact ih.cons_change (.inl (List.cons_ne_nil _ _))
    · exact ih.cons_keep _

theorem isSubstantial_missingLineEnd (cs : Text) : (missingLineEnd cs).IsSubstantial := by
  rw [missingLineEnd]
  split
  · split
    · exact isSubstantial_nil
    · exact isSubstantial_nil.cons_change (.inr (List.cons_ne_nil _ _))
  · exact isSubstantial_nil

theorem input_missingLineEnd (cs : Text) : (missingLineEnd cs).input = [] := by
  rw [missingLineEnd]
  split
  · split <;> rfl
  · rfl

namespace View

variable {v : View} {r : Rewriting} {p : Provenance}

theorem input_terminatingLines (v : View) : v.terminatingLines.input = v.text := by
  rw [terminatingLines, Rewriting.input, List.flatMap_append, ← Rewriting.input, ← Rewriting.input,
    input_normalizeLineEnds, input_missingLineEnd, List.append_nil]

/-- The provenance tells where every part of the rewritten text of the view comes from. -/
structure Traces (v : View) (r : Rewriting) (p : Provenance) : Prop where
  /-- The segments lead through the view, from its start to its end. -/
  tiles : Segment.Tiles v.start p.segments v.stop
  /-- The width is that of the segments. -/
  width_eq : p.width = Segment.totalWidth p.segments
  /-- The width is that of the rewritten text. -/
  width_eq_output : p.width = Text.width r.output
  /-- Every segment can be cut out of the rewritten text, and its span out of the source. -/
  cut : ∀ before s behind, p.segments = before ++ s :: behind →
    checkSpan r.output ⟨Segment.totalWidth before, Segment.totalWidth before + s.width⟩ = .ok () ∧
    checkSpan v.source.text s.origin = .ok ()
  /-- A copied segment and its span are the same text. -/
  copied_eq : ∀ before s behind, p.segments = before ++ s :: behind → s.copied →
    Text.slice r.output (Segment.totalWidth before) (Segment.totalWidth before + s.width) =
      Text.slice v.source.text s.origin.start s.origin.stop
  /-- No copied segment is next to another one. -/
  apart : p.segments.IsChain fun s s' => ¬ (s.copied ∧ s'.copied)
  /-- Places in the rewritten text lead to the source in order. -/
  mono : ∀ i j, i ≤ j → p.offsetOf i ≤ p.offsetOf j
  /-- Boundaries of the rewritten text lead to boundaries within the view. -/
  boundary : ∀ i, Text.isBoundary r.output i →
    Text.isBoundary v.source.text (p.offsetOf i) ∧ v.start ≤ p.offsetOf i ∧ p.offsetOf i ≤ v.stop
  /-- The end of the rewritten text leads to the end of the view. -/
  stop : p.offsetOf (Text.width r.output) = v.stop
  /-- The text stays as it is just if everything is copied. -/
  unchanged_iff : r.result.unchanged ↔ ∀ s ∈ p.segments, s.copied

theorem checkSpan_append (as bs cs : Text) :
    checkSpan (as ++ (bs ++ cs)) ⟨Text.width as, Text.width as + Text.width bs⟩ = .ok () := by
  refine checkSpan_eq_ok_iff.2 ⟨Nat.le_add_right _ _, Text.isBoundary_append_left _ _, ?_⟩
  rw [← Text.width_append, ← List.append_assoc]
  exact Text.isBoundary_append_left _ _

/-- A segment of the view is between the segments before it and those behind it, and so is its span
    in the source. -/
theorem Sound.exists_of_segments_eq (hv : v.Sound) (hinput : r.input = v.text) {ps : List Passage}
    (h : Passage.Records v.start ps r p) {before behind : List Segment} {s : Segment}
    (hs : p.segments = before ++ s :: behind) :
    ∃ (q : Passage) (as bs as' bs' : Text), r.output = as ++ (q.new ++ bs) ∧
      Segment.totalWidth before = Text.width as ∧ v.source.text = as' ++ (q.old ++ bs') ∧
      s = q.segment (Text.width as') := by
  obtain ⟨as, q, bs, rfl, hbefore, rfl⟩ := Passage.exists_of_segments_eq (h.segments_eq ▸ hs)
  refine ⟨q, Passage.news as, Passage.news bs, v.textBefore ++ Passage.olds as,
    Passage.olds bs ++ v.textAfter, ?_, hbefore, ?_, ?_⟩
  · rw [← h.news_eq, Passage.news, List.flatMap_append]
    rfl
  · rw [hv.shows.source, ← hinput, ← h.olds_eq, Passage.olds, List.flatMap_append]
    simp [Passage.olds]
  · rw [Text.width_append, hv.shows.start]

/-- What is recorded of the whole text of a view tells where it comes from. -/
theorem Sound.traces_of_records (hv : v.Sound) (hne : v.text ≠ []) (hinput : r.input = v.text)
    {ps : List Passage} (h : Passage.Records v.start ps r p) : v.Traces r p := by
  have hps : ps ≠ [] := by
    rintro rfl
    exact hne (hinput ▸ h.olds_eq.symm)
  have hstop : v.start + Text.width (Passage.olds ps) = v.stop := by
    rw [h.olds_eq, hinput, hv.shows.start, hv.shows.stop, Text.width_append]
  have hcopied : p.segments.map (·.copied) = ps.map Passage.isCopied := by
    rw [h.segments_eq, Passage.map_copied_segments]
  constructor
  · rw [h.segments_eq, ← hstop]
    exact Passage.tiles_segments v.start ps
  · rw [h.width_eq, h.segments_eq, Passage.totalWidth_segments]
  · rw [h.width_eq, h.news_eq]
  · intro before s behind hs
    obtain ⟨q, as, bs, as', bs', houtput, hbefore, hsource, rfl⟩ :=
      hv.exists_of_segments_eq hinput h hs
    rw [houtput, hbefore, hsource]
    exact ⟨checkSpan_append as q.new bs, checkSpan_append as' q.old bs'⟩
  · intro before s behind hs hscopied
    obtain ⟨q, as, bs, as', bs', houtput, hbefore, hsource, rfl⟩ :=
      hv.exists_of_segments_eq hinput h hs
    rw [houtput, hbefore, hsource]
    cases q with
    | copied cs =>
      exact (Text.slice_append_append as cs bs).trans (Text.slice_append_append as' cs bs').symm
    | replaced old new => cases hscopied
  · have hchain : (ps.map Passage.isCopied).IsChain (fun b b' : Bool => ¬ (b ∧ b')) :=
      (List.isChain_map _).2 h.apart
    rw [← hcopied] at hchain
    exact (List.isChain_map _).1 hchain
  · intro i j hij
    rw [h.offsetOf_eq hps, h.offsetOf_eq hps]
    exact Passage.place_mono hij
  · intro i hi
    rw [← h.news_eq] at hi
    obtain ⟨before, behind, hsplit, hplace⟩ := Passage.exists_place v.start hi
    rw [h.offsetOf_eq hps]
    refine ⟨?_, Passage.start_le_place _ _ _, hstop ▸ Passage.place_le _ _ _⟩
    rw [hplace, hv.shows.start, ← Text.width_append, hv.shows.source, ← hinput, ← h.olds_eq,
      hsplit, List.append_assoc, ← List.append_assoc]
    exact Text.isBoundary_append_left _ _
  · rw [h.offsetOf_eq hps, ← h.news_eq, Passage.place_width, hstop]
  · have hall := congrArg (List.all · id) hcopied
    simp only [List.all_map, Function.id_comp] at hall
    change r.isIdentity ↔ _
    rw [← h.copied_eq, ← hall, List.all_eq_true]

/-- What is recorded when a view is unescaped, in whatever way its references are decoded, or when
    its line terminators are made uniform, tells where the whole new text comes from. -/
theorem Made.record_traces (hv : v.Made) (hne : v.isEmpty = false)
    (decode : Text.Reference → Option Text) :
    ∀ r ∈ [unescape decode v.text, v.normalizingLineEnds, v.terminatingLines],
    v.Traces r (v.record r {}) := by
  have hsound := hv.wellFormed.sound
  have htext : v.text ≠ [] := by
    intro hnil
    have hstop := hsound.shows.stop
    rw [hnil, List.append_nil, ← hsound.shows.start] at hstop
    rw [isEmpty, Span.isEmpty, decide_eq_false_iff_not] at hne
    exact hne hstop.symm
  intro r hr
  obtain ⟨hinput, hsubstantial⟩ : r.input = v.text ∧ r.IsSubstantial := by
    simp only [List.mem_cons, List.not_mem_nil, or_false] at hr
    rcases hr with rfl | rfl | rfl
    · exact ⟨input_unescape decode v.text, isSubstantial_unescape decode v.text⟩
    · exact ⟨input_normalizeLineEnds v.text, isSubstantial_normalizeLineEnds v.text⟩
    · exact ⟨input_terminatingLines v,
        (isSubstantial_normalizeLineEnds v.text).append (isSubstantial_missingLineEnd v.text)⟩
  have hstart : Passage.Records v.start [] [] {} := ⟨rfl, rfl, rfl, rfl, List.isChain_nil, rfl⟩
  obtain ⟨ps, hps⟩ := hstart.record hsubstantial
  exact hsound.traces_of_records htext hinput hps

/-- In `xé\r\nb` cut before `é`, the pair in the middle becomes one character, and one is put behind
    the text. -/
theorem Made.record_traces_of_lines : ∃ v : View, v.Made ∧ v.isEmpty = false ∧
    (v.record v.terminatingLines {}).segments =
      [⟨⟨1, 3⟩, 2, true⟩, ⟨⟨3, 5⟩, 1, false⟩, ⟨⟨5, 6⟩, 1, true⟩, ⟨⟨6, 6⟩, 1, false⟩] ∧
    ∀ r ∈ [v.unescaping, v.normalizingLineEnds, v.terminatingLines],
    v.Traces r (v.record r {}) := by
  let source : Source := ⟨0, ['x', 'é', '\r', '\n', 'b']⟩
  have hcut : View.ofFrom source 1 = .ok ⟨source, ⟨1, 6⟩, none⟩ := rfl
  have hne : (⟨source, ⟨1, 6⟩, none⟩ : View).isEmpty = false := by decide
  exact ⟨_, .ofFrom hcut, hne, by rfl, Made.record_traces (.ofFrom hcut) hne decodeReference⟩

end View

end Taskdown
