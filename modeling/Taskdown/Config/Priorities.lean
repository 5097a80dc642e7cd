import Taskdown.Text.Order

/-!
# Priorities of markers

A configuration gives markers priorities. Markers are any texts, each has at most one priority, and
they are kept in order.
-/

namespace Taskdown

/-- Markers with priorities, in the order of the markers. -/
structure Priorities where
  entries : List (Text × Int32)
  sorted : entries.Pairwise fun a b => Text.isBefore a.1 b.1
deriving DecidableEq, Repr

namespace Priorities

instance : Inhabited Priorities := ⟨⟨[], .nil⟩⟩

theorem ext {p q : Priorities} (h : p.entries = q.entries) : p = q := by
  cases p; cases q; cases h; rfl

/-- Puts an entry in its place. It takes the place of one with the same marker. -/
def insertEntry (marker : Text) (priority : Int32) : List (Text × Int32) → List (Text × Int32)
  | [] => [(marker, priority)]
  | (m, p) :: entries =>
    if Text.isBefore marker m then (marker, priority) :: (m, p) :: entries
    else if marker = m then (marker, priority) :: entries
    else (m, p) :: insertEntry marker priority entries

theorem mem_insertEntry {marker : Text} {priority : Int32} {entries : List (Text × Int32)}
    {e : Text × Int32} (h : e ∈ insertEntry marker priority entries) :
    e = (marker, priority) ∨ e ∈ entries := by
  induction entries with
  | nil => simpa [insertEntry] using h
  | cons d entries ih =>
    simp only [insertEntry] at h
    split at h
    · simpa using h
    · split at h
      · rcases List.mem_cons.1 h with h | h
        · exact .inl h
        · exact .inr (List.mem_cons_of_mem _ h)
      · rcases List.mem_cons.1 h with h | h
        · exact .inr (h ▸ List.mem_cons_self)
        · exact (ih h).imp_right (List.mem_cons_of_mem _)

theorem pairwise_insertEntry (marker : Text) (priority : Int32) {entries : List (Text × Int32)}
    (h : entries.Pairwise fun a b => Text.isBefore a.1 b.1) :
    (insertEntry marker priority entries).Pairwise fun a b => Text.isBefore a.1 b.1 := by
  induction entries with
  | nil => simp [insertEntry]
  | cons d entries ih =>
    rw [List.pairwise_cons] at h
    simp only [insertEntry]
    split
    next hlt =>
      refine List.pairwise_cons.2 ⟨fun e he => ?_, List.pairwise_cons.2 h⟩
      rcases List.mem_cons.1 he with rfl | he
      · exact hlt
      · exact Text.isBefore_trans hlt (h.1 e he)
    next hlt =>
      split
      next heq => exact List.pairwise_cons.2 ⟨fun e he => heq ▸ h.1 e he, h.2⟩
      next hne =>
        refine List.pairwise_cons.2 ⟨fun e he => ?_, ih h.2⟩
        rcases mem_insertEntry he with rfl | he
        · exact (Text.isBefore_or_isBefore hne).resolve_left hlt
        · exact h.1 e he

/-- Gives a marker a priority. -/
def insert (p : Priorities) (marker : Text) (priority : Int32) : Priorities :=
  ⟨insertEntry marker priority p.entries, pairwise_insertEntry marker priority p.sorted⟩

/-- The priorities in a list. Of two for one marker the later one counts. -/
def ofList (entries : List (Text × Int32)) : Priorities :=
  entries.foldl (fun p (marker, priority) => p.insert marker priority) default

end Priorities

end Taskdown
