/-!
# Spans

A *span* is a half-open range of byte offsets. Two spans of one text compare by their end points
alone: what one leaves of the other before it, in common with it, and behind it are again spans, and
they lie one behind the other.

* `before_stop_eq_inter_start`, `inter_stop_eq_after_start`: the three parts are adjacent.
-/

namespace Taskdown

/-- A half-open range `[start, stop)` of byte offsets. -/
structure Span where
  /-- The first offset in the range. -/
  start : Nat
  /-- The first offset behind the range. -/
  stop : Nat
deriving DecidableEq, Repr, Inhabited

namespace Span

/-- A span as it is written in messages. -/
def display (s : Span) : String := s!"{s.start}..{s.stop}"

/-- The number of bytes in a span. -/
def length (s : Span) : Nat := s.stop - s.start

/-- Does a span hold no byte? -/
def isEmpty (s : Span) : Bool := s.start = s.stop

/-- The empty span at the start. -/
def atStart (s : Span) : Span := ⟨s.start, s.start⟩

/-- The empty span at the end. -/
def atStop (s : Span) : Span := ⟨s.stop, s.stop⟩

/-- Does `t` lie within `s`? -/
def containsAll (s t : Span) : Bool := s.start ≤ t.start && t.stop ≤ s.stop

/-- Do the two spans have a byte in common? -/
def containsSome (s t : Span) : Bool := max s.start t.start < min s.stop t.stop

/-- The part of `s` before `t` starts. -/
def before (s t : Span) : Span :=
  if t.start ≤ s.start then s.atStart else ⟨s.start, min s.stop t.start⟩

/-- The part of `s` after `t` ends. -/
def after (s t : Span) : Span :=
  if s.stop ≤ t.stop then s.atStop else ⟨max s.start t.stop, s.stop⟩

/-- The part of `s` that is also in `t`. Disjoint spans have an empty part in common, at the place
    of `s` that is nearest to `t`. -/
def inter (s t : Span) : Span :=
  let start := max s.start t.start
  let stop := min s.stop t.stop
  if start < stop then ⟨start, stop⟩
  else
    let place := max s.start (min start s.stop)
    ⟨place, place⟩

/-- The smallest span that holds both. -/
def hull (s t : Span) : Span := ⟨min s.start t.start, max s.stop t.stop⟩

theorem before_stop_eq_inter_start {s t : Span} (hs : s.start ≤ s.stop) :
    (s.before t).stop = (s.inter t).start := by
  simp only [before, inter, atStart]
  split <;> split <;> simp_all only <;> omega

theorem inter_stop_eq_after_start {s t : Span} (hs : s.start ≤ s.stop) (ht : t.start ≤ t.stop) :
    (s.inter t).stop = (s.after t).start := by
  simp only [after, inter, atStop]
  split <;> split <;> simp_all only <;> omega

end Span

end Taskdown
