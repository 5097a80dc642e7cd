import Taskdown.Text.Bytes

/-!
# Blank characters

Three classes of blank character matter, each with its own use: spaces and tabs inside a line, the
four characters that a view trims, and the full Unicode class of white space that decides whether an
output line is blank.
-/

namespace Taskdown.Text

/-- A blank within a line: a space or a tab. -/
def isSpaceTab (c : Char) : Bool := c = ' ' || c = '\t'

/-- A line terminator character. -/
def isLineEnd (c : Char) : Bool := c = '\r' || c = '\n'

/-- What trimming a view removes: spaces, tabs and line terminators. -/
def isTrimmed (c : Char) : Bool := isSpaceTab c || isLineEnd c

/-- Unicode white space (the property `White_Space`). -/
def isWhiteSpace (c : Char) : Bool :=
  let n := c.toNat
  (9 ≤ n && n ≤ 13) || n = 0x20 || n = 0x85 || n = 0xA0 || n = 0x1680 ||
    (0x2000 ≤ n && n ≤ 0x200A) || n = 0x2028 || n = 0x2029 || n = 0x202F || n = 0x205F || n = 0x3000

/-- Is every character white space? The empty text is blank. -/
def isBlank (cs : Text) : Bool := cs.all isWhiteSpace

/-- A text without the characters of a class at its end. -/
def dropEndWhile (p : Char → Bool) : Text → Text
  | [] => []
  | c :: cs =>
    match dropEndWhile p cs with
    | [] => if p c then [] else [c]
    | d :: ds => c :: d :: ds

/-- A text without white space at its end. -/
def trimEnd (cs : Text) : Text := dropEndWhile isWhiteSpace cs

theorem isWhiteSpace_of_isTrimmed {c : Char} (h : isTrimmed c) : isWhiteSpace c := by
  simp only [isTrimmed, isSpaceTab, isLineEnd, Bool.or_eq_true, decide_eq_true_eq] at h
  rcases h with (rfl | rfl) | (rfl | rfl) <;> decide

/-- Dropping at the end removes a trailing part of the class and nothing else. -/
theorem exists_eq_dropEndWhile_append (p : Char → Bool) (cs : Text) :
    ∃ tail, cs = dropEndWhile p cs ++ tail ∧ tail.all p := by
  induction cs with
  | nil => exact ⟨[], rfl, rfl⟩
  | cons c cs ih =>
    obtain ⟨tail, h, hp⟩ := ih
    unfold dropEndWhile
    split
    next hd =>
      rw [hd, List.nil_append] at h
      by_cases hc : p c
      · exact ⟨c :: tail, by simp [hc, ← h], by simp [hc, hp]⟩
      · exact ⟨tail, by simp [hc, ← h], hp⟩
    next d ds hd => exact ⟨tail, by simpa [hd] using h, hp⟩

/-- Nothing is left if and only if all characters belong to the class. -/
theorem dropEndWhile_eq_nil_iff {p : Char → Bool} {cs : Text} :
    dropEndWhile p cs = [] ↔ cs.all p := by
  induction cs with
  | nil => exact iff_of_true rfl rfl
  | cons c cs ih =>
    rw [List.all_cons, Bool.and_eq_true, ← ih, dropEndWhile]
    split
    next hd => cases p c <;> simp [hd]
    next d ds hd => simp [hd]

theorem isBlank_append (as bs : Text) : isBlank (as ++ bs) = (isBlank as && isBlank bs) :=
  List.all_append

/-- Leaving white space out at the start does not make a text blank, nor does it at the end. -/
theorem isBlank_dropWhile {p : Char → Bool} (hp : ∀ c, p c → isWhiteSpace c) (cs : Text) :
    isBlank (cs.dropWhile p) = isBlank cs := by
  have hfront : isBlank (cs.takeWhile p) = true :=
    List.all_eq_true.2 fun c hc => hp c (List.all_eq_true.1 List.all_takeWhile c hc)
  conv => rhs; rw [← List.takeWhile_append_dropWhile (p := p) (l := cs)]
  rw [isBlank_append, hfront, Bool.true_and]

theorem isBlank_dropEndWhile {p : Char → Bool} (hp : ∀ c, p c → isWhiteSpace c) (cs : Text) :
    isBlank (dropEndWhile p cs) = isBlank cs := by
  obtain ⟨tail, htail, hall⟩ := exists_eq_dropEndWhile_append p cs
  have hblank : isBlank tail = true :=
    List.all_eq_true.2 fun c hc => hp c (List.all_eq_true.1 hall c hc)
  conv => rhs; rw [htail]
  rw [isBlank_append, hblank, Bool.and_true]

theorem isBlank_flatten {ls : List Text} : isBlank ls.flatten ↔ ∀ l ∈ ls, isBlank l := by
  rw [isBlank, List.all_flatten, List.all_eq_true]
  rfl

end Taskdown.Text
