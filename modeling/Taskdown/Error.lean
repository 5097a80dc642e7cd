import Taskdown.Source.Span

/-!
# What can go wrong

An *error* is an answer: a checked operation was asked for something that does not exist. A *misuse*
is a broken promise of the caller: two things were brought together that have nothing to do with
each other. Both are described by their cause; `message` puts a cause into words. A procedure that
may meet either stops with a *failure*.
-/

namespace Taskdown

/-- The causes for which a checked operation refuses. -/
inductive Error where
  /-- The range is not a range of a text or list of this length. -/
  | rangeOutOfBounds (start stop length : Nat)
  /-- There is no such index. -/
  | indexOutOfBounds (index length : Nat)
  /-- The offset lies inside a character. -/
  | insideChar (offset : Nat)
  /-- A line cannot hold its prefix and its text, or its sums leave the range of offsets. -/
  | invalidLine (prefixLength textLength length : Nat)
  /-- No part of a preformatted run is called this. -/
  | unknownRunPart (value : String)
  /-- The second view does not start where the first one ends. -/
  | notContinuation (stop start : Nat)
deriving DecidableEq, Repr

/-- An error in words. -/
def Error.message : Error → String
  | .rangeOutOfBounds start stop length =>
    s!"range [{start}, {stop}) out of bounds for length {length}"
  | .indexOutOfBounds index length => s!"index {index} out of bounds for length {length}"
  | .insideChar offset => s!"offset {offset} is not on a char boundary"
  | .invalidLine prefixLength textLength length =>
    s!"line length {length} shorter than prefix {prefixLength} plus text {textLength}"
  | .unknownRunPart value => s!"invalid preformatted state: {value}"
  | .notContinuation stop start =>
    s!"view starting at {start} does not continue a view ending at {stop}"

/-- The operations on two views that need them to be views of one text. -/
inductive PairOp where
  | continuedBy
  | containsAll
  | containsSome
  | before
  | after
  | inter
deriving DecidableEq, Repr

/-- The name by which messages call an operation. -/
def PairOp.name : PairOp → String
  | .continuedBy => "is_continued_by"
  | .containsAll => "contains_all_of"
  | .containsSome => "contains_some_of"
  | .before => "prefix_of"
  | .after => "suffix_of"
  | .inter => "intersect"

/-- The promises that a caller can break. -/
inductive Misuse where
  /-- The two views are views of different texts. -/
  | differentSources (op : PairOp) (first second : Span)
  /-- The view that should be appended does not continue the other one. -/
  | notAdjacent (next current : Span)
  /-- The position belongs to another collection, or to none. -/
  | foreignPosition
deriving DecidableEq, Repr

/-- A misuse in words. -/
def Misuse.message : Misuse → String
  | .differentSources op first second =>
    s!"{op.name}: views {first.display} and {second.display} reference different base buffers"
  | .notAdjacent next current =>
    s!"splice_at_end: view {next.display} does not continue {current.display}"
  | .foreignPosition => "position was registered with a different tracker"

/-- Why a procedure stops. -/
inductive Failure where
  | error (cause : Error)
  | misuse (cause : Misuse)
deriving DecidableEq, Repr

instance : MonadLift (Except Error) (Except Failure) := ⟨fun x => x.mapError .error⟩

instance : MonadLift (Except Misuse) (Except Failure) := ⟨fun x => x.mapError .misuse⟩

/-! ## Procedures that succeed -/

section

variable {ε α β : Type}

/-- A procedure succeeds if its first step does and the rest does with what the first step gave. -/
theorem bind_eq_ok_iff {x : Except ε α} {f : α → Except ε β} {b : β} :
    (x >>= f) = .ok b ↔ ∃ a, x = .ok a ∧ f a = .ok b := by
  cases x with
  | error e => exact iff_of_false nofun nofun
  | ok a =>
    constructor
    · exact fun h => ⟨a, rfl, h⟩
    · rintro ⟨a', ha, h⟩
      obtain rfl := Except.ok.inj ha
      exact h

/-- Behind a step that succeeds comes the rest. -/
theorem bind_of_eq_ok {x : Except ε α} {f : α → Except ε β} {a : α} (h : x = .ok a) :
    (x >>= f) = f a := by
  rw [h]
  rfl

theorem toOption_eq_some_iff {x : Except ε α} {a : α} : x.toOption = some a ↔ x = .ok a := by
  cases x with
  | error e => exact iff_of_false nofun nofun
  | ok a' => exact ⟨fun h => congrArg Except.ok (Option.some.inj h), fun h => h ▸ rfl⟩

theorem bind_lift_error (a : α) (f : α → Except Failure β) :
    (liftM (Except.ok a : Except Error α) : Except Failure α) >>= f = f a := rfl

theorem bind_lift_misuse (a : α) (f : α → Except Failure β) :
    (liftM (Except.ok a : Except Misuse α) : Except Failure α) >>= f = f a := rfl

end

end Taskdown
