import Taskdown.Text.Bytes

/-!
# The order of texts

Texts are ordered like words in a dictionary: by their first difference, and a text goes behind its
leading parts. Characters are ordered by code point.

* `isBefore_irrefl`, `isBefore_trans`, `isBefore_or_isBefore`: this is a strict order, and a total
  one.
-/

namespace Taskdown.Text

/-- Does a text go before another one? -/
def isBefore : Text → Text → Bool
  | _, [] => false
  | [], _ :: _ => true
  | a :: as, b :: bs => decide (a.toNat < b.toNat) || (decide (a = b) && isBefore as bs)

theorem isBefore_irrefl (as : Text) : isBefore as as = false := by
  induction as with
  | nil => rfl
  | cons a as ih => simp [isBefore, ih]

theorem isBefore_trans {as bs cs : Text} (h : isBefore as bs) (h' : isBefore bs cs) :
    isBefore as cs := by
  fun_induction isBefore as bs generalizing cs with
  | case1 => cases h
  | case2 b bs =>
    cases cs with
    | nil => cases h'
    | cons c cs => rfl
  | case3 a as b bs ih =>
    cases cs with
    | nil => cases h'
    | cons c cs =>
      simp only [isBefore, Bool.or_eq_true, Bool.and_eq_true, decide_eq_true_eq] at h h' ⊢
      rcases h with h | ⟨rfl, h⟩
      · rcases h' with h' | ⟨rfl, h'⟩
        · exact .inl (by omega)
        · exact .inl h
      · rcases h' with h' | ⟨rfl, h'⟩
        · exact .inl h'
        · exact .inr ⟨rfl, ih h h'⟩

/-- Of two texts that differ, one goes before the other. -/
theorem isBefore_or_isBefore {as bs : Text} (h : as ≠ bs) : isBefore as bs ∨ isBefore bs as := by
  induction as generalizing bs with
  | nil =>
    cases bs with
    | nil => exact absurd rfl h
    | cons b bs => exact .inl rfl
  | cons a as ih =>
    cases bs with
    | nil => exact .inr rfl
    | cons b bs =>
      simp only [isBefore, Bool.or_eq_true, Bool.and_eq_true, decide_eq_true_eq]
      rcases Nat.lt_trichotomy a.toNat b.toNat with hlt | heq | hlt
      · exact .inl (.inl hlt)
      · have hab : a = b := Char.toNat_inj.1 heq
        subst hab
        rcases ih (fun he => h (he ▸ rfl)) with hb | hb
        · exact .inl (.inr ⟨rfl, hb⟩)
        · exact .inr (.inr ⟨rfl, hb⟩)
      · exact .inr (.inl hlt)

end Taskdown.Text
