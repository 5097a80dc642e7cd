/-!
# Text measured in bytes

Text is a list of characters. Offsets into it count the bytes of its UTF-8 form, so they are not
positions in the list: an offset is a *boundary* if the text splits there between two characters.
Cutting is total: a cut inside a character is moved to the end of that character.

* `takeBytes_append_dropBytes`: the two parts of a cut make up the text;
* `width_takeBytes`: a cut at a boundary has the width that was asked for.
-/

namespace Taskdown

/-- Text, as the characters it consists of. -/
abbrev Text := List Char

namespace Text

/-- The number of bytes of the UTF-8 form of a text. -/
def width : Text → Nat
  | [] => 0
  | c :: cs => c.utf8Size + width cs

/-- Does the text split between two characters at byte `n`? The two ends of the text count. -/
def isBoundary : Text → Nat → Bool
  | _, 0 => true
  | [], _ + 1 => false
  | c :: cs, n + 1 => decide (c.utf8Size ≤ n + 1) && isBoundary cs (n + 1 - c.utf8Size)

/-- The first `n` bytes of a text; a character that is cut is taken whole. -/
def takeBytes : Text → Nat → Text
  | _, 0 => []
  | [], _ + 1 => []
  | c :: cs, n + 1 => c :: takeBytes cs (n + 1 - c.utf8Size)

/-- What follows the first `n` bytes of a text; a character that is cut is left out. -/
def dropBytes : Text → Nat → Text
  | cs, 0 => cs
  | [], _ + 1 => []
  | c :: cs, n + 1 => dropBytes cs (n + 1 - c.utf8Size)

/-- The text from byte `start` to byte `stop`. -/
def slice (cs : Text) (start stop : Nat) : Text :=
  takeBytes (dropBytes cs start) (stop - start)

/-- The character that starts at byte `n`, if one does. -/
def charAt? (cs : Text) (n : Nat) : Option Char :=
  if isBoundary cs n then (dropBytes cs n).head? else none

/-- The greatest boundary at or before byte `n`. -/
def floorBoundary : Text → Nat → Nat
  | [], _ => 0
  | c :: cs, n => if c.utf8Size ≤ n then c.utf8Size + floorBoundary cs (n - c.utf8Size) else 0

@[simp] theorem width_nil : width [] = 0 := rfl

@[simp] theorem width_cons (c : Char) (cs : Text) : width (c :: cs) = c.utf8Size + width cs := rfl

@[simp] theorem width_append (as bs : Text) : width (as ++ bs) = width as + width bs := by
  induction as with
  | nil => simp
  | cons c as ih => simp [ih, Nat.add_assoc]

theorem takeBytes_append_dropBytes (cs : Text) (n : Nat) :
    takeBytes cs n ++ dropBytes cs n = cs := by
  induction cs generalizing n with
  | nil => cases n <;> rfl
  | cons c cs ih => cases n <;> simp [takeBytes, dropBytes, ih]

theorem width_takeBytes {cs : Text} {n : Nat} (h : isBoundary cs n) :
    width (takeBytes cs n) = n := by
  induction cs generalizing n with
  | nil => cases n <;> simp_all [isBoundary, takeBytes]
  | cons c cs ih =>
    cases n with
    | zero => rfl
    | succ n =>
      simp only [isBoundary, Bool.and_eq_true, decide_eq_true_eq] at h
      simp only [takeBytes, width_cons, ih h.2]
      omega

/-- The offset after a leading part is a boundary. -/
theorem isBoundary_append_left (as bs : Text) : isBoundary (as ++ bs) (width as) := by
  induction as with
  | nil => cases bs <;> rfl
  | cons c as ih =>
    have hc : 0 < c.utf8Size := Char.utf8Size_pos c
    obtain ⟨k, hk⟩ := Nat.exists_eq_add_of_lt hc
    simp only [Nat.zero_add] at hk
    have he : c.utf8Size + width as = (k + width as) + 1 := by omega
    simp only [List.cons_append, width_cons, he, isBoundary, Bool.and_eq_true, decide_eq_true_eq]
    refine ⟨by omega, ?_⟩
    have : k + width as + 1 - c.utf8Size = width as := by omega
    rw [this]
    exact ih

theorem takeBytes_width_append (as bs : Text) : takeBytes (as ++ bs) (width as) = as := by
  induction as with
  | nil => cases bs <;> rfl
  | cons c as ih =>
    have hc : 0 < c.utf8Size := Char.utf8Size_pos c
    obtain ⟨k, hk⟩ := Nat.exists_eq_add_of_lt hc
    simp only [Nat.zero_add] at hk
    have he : c.utf8Size + width as = (k + width as) + 1 := by omega
    have hs : k + width as + 1 - c.utf8Size = width as := by omega
    simp only [List.cons_append, width_cons, he, takeBytes, hs, ih]

theorem dropBytes_width_append (as bs : Text) : dropBytes (as ++ bs) (width as) = bs := by
  have h := takeBytes_append_dropBytes (as ++ bs) (width as)
  rw [takeBytes_width_append] at h
  exact List.append_cancel_left h

/-- The slice between the ends of two leading parts is what the second one adds to the first. -/
theorem slice_append_append (as bs cs : Text) :
    slice (as ++ (bs ++ cs)) (width as) (width as + width bs) = bs := by
  rw [slice, dropBytes_width_append, Nat.add_sub_cancel_left, takeBytes_width_append]

theorem width_eq_zero_iff {cs : Text} : width cs = 0 ↔ cs = [] := by
  cases cs with
  | nil => exact iff_of_true rfl rfl
  | cons c cs =>
    have := Char.utf8Size_pos c
    simp only [width_cons, reduceCtorEq, iff_false]
    omega

/-- A leading part of a text is not wider than the text. -/
theorem width_le_of_prefix {as bs : Text} (h : as <+: bs) : width as ≤ width bs := by
  obtain ⟨cs, rfl⟩ := h
  rw [width_append]
  exact Nat.le_add_right _ _

end Text

end Taskdown
