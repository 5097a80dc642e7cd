import Taskdown.Proofs.Toml.Keys

/-!
# Numbers and truth values are read as they are written

* `wideInteger?_integerText`: every integer is read as it is written, if it is not too large
  (`integer?_integerText`);
* `Value.ReadsAs`: a text is read as a value where the line ends behind it;
* `readsAs_integer`, `readsAs_boolean`, `readsAs_string`: what the printer writes for a value is
  read as that value.
-/

namespace Taskdown.Toml

variable {n : Nat} {cs : Text}

/-! ## Digits -/

theorem isDigit_of_mem_toDigits {c : Char} (h : c ∈ Nat.toDigits 10 n) : Text.isDigit c := by
  have hdigit := Nat.isDigit_of_mem_toDigits (by decide) (by decide) h
  simp only [Char.isDigit, Bool.and_eq_true, decide_eq_true_eq] at hdigit
  simp only [Text.isDigit, Bool.and_eq_true, decide_eq_true_eq]
  exact hdigit

/-- Digits without underscores are read as they are. -/
theorem grouped?_of_all {isDigit : Char → Bool} (hne : cs ≠ []) (hall : ∀ c ∈ cs, isDigit c)
    (hunderscore : isDigit '_' = false) : grouped? isDigit cs = some cs := by
  induction cs with
  | nil => exact absurd rfl hne
  | cons c cs ih =>
    have hc := hall c List.mem_cons_self
    cases cs with
    | nil => simp [grouped?, hc]
    | cons d cs =>
      have hd : d ≠ '_' := fun he => by
        have := hall d (List.mem_cons_of_mem _ List.mem_cons_self)
        rw [he, hunderscore] at this
        cases this
      have hmore := ih (List.cons_ne_nil _ _) fun c hc => hall c (List.mem_cons_of_mem _ hc)
      simp [grouped?, hc, hd, hmore]

/-- A number that is not zero does not start with a zero. -/
theorem head?_toDigits (hn : n ≠ 0) : (Nat.toDigits 10 n).head? ≠ some '0' := by
  induction n using Nat.strongRecOn with
  | ind n ih =>
    rcases Nat.lt_or_ge n 10 with hlt | hge
    · rw [Nat.toDigits_of_lt_base hlt]
      have hall : ∀ m < 10, m ≠ 0 → [Nat.digitChar m].head? ≠ some '0' := by decide
      exact hall n hlt hn
    · have hfront := ih (n / 10) (Nat.div_lt_self (by omega) (by decide)) (by omega)
      rw [Nat.toDigits_of_base_le (by decide) hge]
      cases hdigits : Nat.toDigits 10 (n / 10) with
      | nil => exact absurd hdigits Nat.toDigits_ne_nil
      | cons d ds =>
        rw [hdigits] at hfront
        exact hfront

theorem decimal?_toDigits (n : Nat) : decimal? (Nat.toDigits 10 n) = some (Nat.toDigits 10 n) := by
  rw [decimal?, grouped?_of_all Nat.toDigits_ne_nil (fun _ => isDigit_of_mem_toDigits) rfl,
    Option.bind_some]
  rw [if_neg]
  by_cases hn : n = 0
  · subst hn
    decide
  · simp [head?_toDigits hn]

theorem ofDecimal_toDigits (n : Nat) : Text.ofDecimal (Nat.toDigits 10 n) = n :=
  Nat.ofDigitChars_ten_toDigits

/-! ## Integers -/

theorem integerText_ofNat (n : Nat) : integerText (.ofNat n) = Nat.toDigits 10 n := Nat.toList_repr

theorem integerText_negSucc (n : Nat) :
    integerText (.negSucc n) = '-' :: Nat.toDigits 10 (n + 1) := by
  have hrepr : integerText (.negSucc n) = ("-" ++ (n + 1).repr).toList := rfl
  rw [hrepr, String.toList_append, Nat.toList_repr]
  rfl

/-- Every integer is read as it is written. -/
theorem wideInteger?_integerText (z : Int) : wideInteger? (integerText z) = some z := by
  cases z with
  | ofNat n =>
    have hdigits : ∀ c ∈ Nat.toDigits 10 n, Text.isDigit c := fun _ => isDigit_of_mem_toDigits
    rw [integerText_ofNat, wideInteger?.eq_def]
    -- Signs and the marks of other bases are no digits.
    split
    · next he => exact absurd (hdigits 'x' (by rw [he]; simp)) (by decide)
    · next he => exact absurd (hdigits 'o' (by rw [he]; simp)) (by decide)
    · next he => exact absurd (hdigits 'b' (by rw [he]; simp)) (by decide)
    · next he => exact absurd (hdigits '+' (by rw [he]; simp)) (by decide)
    · next he => exact absurd (hdigits '-' (by rw [he]; simp)) (by decide)
    · rw [decimal?_toDigits, Option.map_some, ofDecimal_toDigits]
      rfl
  | negSucc n =>
    rw [integerText_negSucc, wideInteger?, decimal?_toDigits, Option.map_some, ofDecimal_toDigits]
    rfl

theorem integer?_integerText {z : Int} (hleast : leastInteger ≤ z)
    (hgreatest : z ≤ greatestInteger) : integer? (integerText z) = some z := by
  rw [integer?, wideInteger?_integerText, Option.bind_some, if_pos ⟨hleast, hgreatest⟩]

theorem mem_integerText {z : Int} {c : Char} (h : c ∈ integerText z) :
    Text.isDigit c ∨ c = '-' := by
  cases z with
  | ofNat n =>
    rw [integerText_ofNat] at h
    exact .inl (isDigit_of_mem_toDigits h)
  | negSucc n =>
    rw [integerText_negSucc, List.mem_cons] at h
    exact h.symm.imp_left isDigit_of_mem_toDigits

theorem integerText_ne_nil (z : Int) : integerText z ≠ [] := by
  cases z with
  | ofNat n =>
    rw [integerText_ofNat]
    exact Nat.toDigits_ne_nil
  | negSucc n =>
    rw [integerText_negSucc]
    exact List.cons_ne_nil _ _

/-! ## Values -/

/-- A text is read as a value if the line ends behind it. It starts without blanks. -/
structure Value.ReadsAs (v : Value) (cs : Text) : Prop where
  skipBlanks (rest : Text) : skipBlanks (cs ++ '\n' :: rest) = cs ++ '\n' :: rest
  value? (rest : Text) : value? maxDepth (cs ++ '\n' :: rest) = some (v, '\n' :: rest)

/-- What starts with a character of values without quotes is one. -/
theorem value?_of_isScalarChar {c : Char} (hc : isScalarChar c) (cs : Text) (depth : Nat) :
    value? depth (c :: cs) = scalar? (c :: cs) := by
  have hleaf : leaf? (c :: cs) = scalar? (c :: cs) := by
    rw [leaf?, List.head?_cons]
    split
    -- A text between quotes would start with one.
    · next he => exact absurd (Option.some.inj he ▸ hc) (by decide)
    · next he => exact absurd (Option.some.inj he ▸ hc) (by decide)
    · rfl
  cases depth with
  | zero => exact hleaf
  | succ depth =>
    rw [value?.eq_def]
    dsimp only
    -- A list or a table would start with a bracket.
    split
    · next he => exact absurd ((List.cons.inj he).1 ▸ hc) (by decide)
    · next he => exact absurd ((List.cons.inj he).1 ▸ hc) (by decide)
    · exact hleaf

/-- A run of characters of values without quotes that says a value is read as that value. -/
theorem readsAs_of_run {v : Value} (hne : cs ≠ []) (hall : cs.all isScalarChar)
    (hv : scalarOfRun? cs = some v) : v.ReadsAs cs := by
  have hrun : ∀ rest, scalarRun (cs ++ '\n' :: rest) = (cs, '\n' :: rest) := fun rest => by
    rw [scalarRun, span_append_of_all hall rfl]
    rfl
  obtain ⟨c, cs, rfl⟩ := List.exists_cons_of_ne_nil hne
  have hc : isScalarChar c := List.all_eq_true.1 hall c List.mem_cons_self
  refine ⟨fun rest => skipBlanks_cons (p := fun c => isScalarChar c) hc (by decide) (by decide) _,
    fun rest => ?_⟩
  have hscalar := hrun rest
  rw [List.cons_append] at hscalar ⊢
  rw [value?_of_isScalarChar hc, scalar?, hscalar]
  dsimp only
  rw [hv]
  rfl

/-- An integer is read as it is written. -/
theorem readsAs_integer {z : Int} (hleast : leastInteger ≤ z) (hgreatest : z ≤ greatestInteger) :
    (Value.integer z).ReadsAs (integerText z) := by
  have hchars : ∀ c ∈ integerText z, isScalarChar c := fun c hc => by
    rcases mem_integerText hc with hc | rfl
    · simp [isScalarChar, hc]
    · decide
  -- Digits and a sign do not make up `true` or `false`.
  have hword : ∀ word : Text, 'e' ∈ word → integerText z ≠ word := fun word hmem he => by
    rcases mem_integerText (he ▸ hmem) with h | h <;> exact absurd h (by decide)
  refine readsAs_of_run (integerText_ne_nil z) (List.all_eq_true.2 hchars) ?_
  rw [scalarOfRun?, if_neg (hword _ (by decide)), if_neg (hword _ (by decide)),
    integer?_integerText hleast hgreatest]

/-- A truth value is read as it is written. -/
theorem readsAs_boolean (b : Bool) : (Value.boolean b).ReadsAs (booleanText b) := by
  cases b with
  | true => exact readsAs_of_run (by decide) (by decide) rfl
  | false => exact readsAs_of_run (by decide) (by decide) rfl

/-- A text is read as it is written between double quotes. -/
theorem readsAs_string (cs : Text) : (Value.string cs).ReadsAs (basic cs) := by
  refine ⟨fun rest => ?_, fun rest => ?_⟩
  · rw [basic_append]
    rfl
  · have hquote : ('\n' :: rest).head? ≠ some '"' := by simp
    have hleaf : value? maxDepth (basic cs ++ '\n' :: rest) =
        (quoted? (basic cs ++ '\n' :: rest)).map fun q => (.string q.1, q.2) := by
      rw [basic_append]
      rfl
    rw [hleaf, quoted?_basic cs hquote]
    rfl

end Taskdown.Toml
