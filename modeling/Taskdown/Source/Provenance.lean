import Taskdown.Source.Span

/-!
# Where synthesized text comes from

Text that is made from a source consists of *segments*, each copied from a span of the source or
written in place of one. A *provenance* lists the segments in the order of the synthesized text, so
it leads from an index into that text back to the source. One provenance can follow several texts
whose outputs are put one behind the other.

A copied segment that continues the copied segment before it is merged with it, and a segment
without source and without text is left out.
-/

namespace Taskdown

/-- A stretch of synthesized text, and the span of the source behind it. -/
structure Segment where
  /-- The span of the source. -/
  origin : Span
  /-- The number of synthesized bytes. -/
  width : Nat
  /-- Was the span copied? Otherwise it was replaced. -/
  copied : Bool
deriving DecidableEq, Repr

/-- The segments of a synthesized text, in order. -/
structure Provenance where
  segments : List Segment := []
  /-- The number of synthesized bytes. -/
  width : Nat := 0
deriving DecidableEq, Repr, Inhabited

namespace Provenance

/-- Is nothing recorded? -/
def isEmpty (p : Provenance) : Bool := p.segments.isEmpty

/-- The segments with a copied span behind them, merged with the last one if that is a copy that
    ends where the span starts. -/
def appendCopy : List Segment → Span → List Segment
  | [], span => [⟨span, span.length, true⟩]
  | [last], span =>
    if last.copied ∧ last.origin.stop = span.start then
      [⟨⟨last.origin.start, span.stop⟩, last.width + span.length, true⟩]
    else [last, ⟨span, span.length, true⟩]
  | first :: second :: rest, span => first :: appendCopy (second :: rest) span

/-- Records a span that is copied. -/
def copy (p : Provenance) (span : Span) : Provenance :=
  if span.isEmpty then p else ⟨appendCopy p.segments span, p.width + span.length⟩

/-- Records a span in whose place `width` bytes are written. -/
def replace (p : Provenance) (span : Span) (width : Nat) : Provenance :=
  if span.isEmpty ∧ width = 0 then p else ⟨p.segments ++ [⟨span, width, false⟩], p.width + width⟩

/-- The segment that holds an index, and the index within it. -/
def find? : List Segment → Nat → Option (Segment × Nat)
  | [], _ => none
  | s :: rest, index => if index < s.width then some (s, index) else find? rest (index - s.width)

/-- The place in the source behind an index of the synthesized text. Replaced text stands for the
    start of what it replaces, and an index behind the text for the end of the last segment. -/
def offsetOf (p : Provenance) (index : Nat) : Nat :=
  match find? p.segments index with
  | some (s, i) => if s.copied then s.origin.start + i else s.origin.start
  | none => (p.segments.getLast?.map (·.origin.stop)).getD 0

/-- The span of the source behind the synthesized text from `start` to `stop`. -/
def spanOf (p : Provenance) (start stop : Nat) : Span :=
  let first := p.offsetOf start
  if stop ≤ start then ⟨first, first⟩
  else
    match find? p.segments (stop - 1) with
    | some (s, i) => ⟨first, if s.copied then s.origin.start + i + 1 else s.origin.stop⟩
    | none => ⟨first, p.offsetOf stop⟩

end Provenance

end Taskdown
