import Mathlib.Data.List.TakeDrop
import Taskdown.Toml.Printer

/-!
# Quoted texts and keys are read as they are written

Every text, whatever characters it has, can be written between double quotes, and so every text can
be a key.

* `readBasic?_flatMap_escaped`, `readLiteral?_append`: what stands between quotes is read up to the
  closing one;
* `quoted?_basic`: a text between double quotes is read as a value;
* `key?_pathText`: the parts of a key, each written as `keyText` writes it and with dots between
  them, are read.
-/

namespace Taskdown.Toml

variable {c : Char} {cs rest : Text}

/-! ## Between double quotes -/

/-- A character is written as a short escape, as a numbered one, or as it is. -/
theorem escaped_cases (c : Char) :
    (∃ mark, shortEscape? mark = some c ∧ escaped c = ['\\', mark]) ∨
      (c.toNat < 0x100 ∧
        escaped c = ['\\', 'u', '0', '0', upperHexDigit (c.toNat / 16),
        upperHexDigit (c.toNat % 16)]) ∨
      (c ≠ '"' ∧ c ≠ '\\' ∧ isForbidden c = false ∧ escaped c = [c]) := by
  by_cases hshort : c = '\x08' ∨ c = '\t' ∨ c = '\n' ∨ c = '\x0c' ∨ c = '\r' ∨ c = '"' ∨ c = '\\'
  · left
    rcases hshort with rfl | rfl | rfl | rfl | rfl | rfl | rfl
    exacts [⟨'b', rfl, rfl⟩, ⟨'t', rfl, rfl⟩, ⟨'n', rfl, rfl⟩, ⟨'f', rfl, rfl⟩,
      ⟨'r', rfl, rfl⟩, ⟨'"', rfl, rfl⟩, ⟨'\\', rfl, rfl⟩]
  · right
    simp only [not_or] at hshort
    obtain ⟨h₁, h₂, h₃, h₄, h₅, hquote, hslash⟩ := hshort
    simp only [escaped, h₁, h₂, h₃, h₄, h₅, hquote, hslash, if_false]
    cases h : isForbidden c with
    | false => exact .inr ⟨hquote, hslash, rfl, rfl⟩
    | true =>
      refine .inl ⟨?_, rfl⟩
      rw [isForbidden, Bool.or_eq_true, Bool.and_eq_true] at h
      rcases h with ⟨h, -⟩ | h
      · exact Nat.lt_trans (of_decide_eq_true h) (by decide)
      · rw [of_decide_eq_true h]
        decide

theorem hexDigit?_upperHexDigit {n : Nat} (h : n < 16) :
    Text.hexDigit? (upperHexDigit n) = some n := by
  have hall : ∀ m < 16, Text.hexDigit? (upperHexDigit m) = some m := by decide
  exact hall n h

/-- A character is read as it is written. -/
theorem readBasic?_escaped (c : Char) (rest : Text) :
    readBasic? false .plain (escaped c ++ rest) =
      (readBasic? false .plain rest).map fun (text, rest) => (c :: text, rest) := by
  rcases escaped_cases c with ⟨mark, hmark, he⟩ | ⟨hc, he⟩ | ⟨hquote, hslash, hplain, he⟩
  · rw [he]
    simp [readBasic?, hmark]
  · have hhigh := hexDigit?_upperHexDigit (n := c.toNat / 16) (by omega)
    have hlow := hexDigit?_upperHexDigit (n := c.toNat % 16) (by omega)
    have hzero : Text.hexDigit? '0' = some 0 := rfl
    have hvalue : 16 * (c.toNat / 16) + c.toNat % 16 = c.toNat := Nat.div_add_mod _ _
    have hvalid : c.toNat.isValidChar := c.valid
    -- Two zeros and two digits are read, which make up the number of the character again.
    rw [he]
    simp [readBasic?, shortEscape?, escapeLength?, hhigh, hlow, hzero, hvalue, hvalid]
  · rw [he, List.singleton_append, readBasic?.eq_def]
    simp only [reduceCtorEq, hslash, hplain, decide_false, Bool.false_and, Bool.false_eq_true,
      if_false]
    split
    · contradiction
    · contradiction
    · rfl

/-- A text between double quotes is read up to the closing one. -/
theorem readBasic?_flatMap_escaped (cs rest : Text) :
    readBasic? false .plain (cs.flatMap escaped ++ '"' :: rest) = some (cs, rest) := by
  induction cs with
  | nil => rfl
  | cons c cs ih =>
    rw [List.flatMap_cons, List.append_assoc, readBasic?_escaped, ih]
    rfl

theorem basic_append (cs rest : Text) :
    basic cs ++ rest = '"' :: (cs.flatMap escaped ++ '"' :: rest) := by
  simp [basic]

theorem exists_cons_of_escaped (c : Char) (rest : Text) :
    ∃ d, d ≠ '"' ∧ ∃ tail, escaped c ++ rest = d :: tail := by
  rcases escaped_cases c with ⟨mark, -, he⟩ | ⟨-, he⟩ | ⟨hquote, -, -, he⟩
  · exact ⟨'\\', by decide, _, by rw [he]; rfl⟩
  · exact ⟨'\\', by decide, _, by rw [he]; rfl⟩
  · exact ⟨c, hquote, _, by rw [he]; rfl⟩

/-- A text between double quotes is read as a value, unless a third quote follows two. -/
theorem quoted?_basic (cs : Text) (h : rest.head? ≠ some '"') :
    quoted? (basic cs ++ rest) = some (cs, rest) := by
  have hread := readBasic?_flatMap_escaped cs rest
  cases cs with
  | nil =>
    -- The two quotes of an empty text could be the first two of three.
    cases rest with
    | nil => rfl
    | cons d rest =>
      have hd : d ≠ '"' := fun he => h (congrArg some he)
      simp [basic, quoted?, hd, readBasic?]
  | cons c cs =>
    obtain ⟨d, hd, tail, htail⟩ := exists_cons_of_escaped c (cs.flatMap escaped ++ '"' :: rest)
    rw [List.flatMap_cons, List.append_assoc, htail] at hread
    rw [basic_append, List.flatMap_cons, List.append_assoc, htail, quoted?.eq_def]
    simp [hd, hread]

/-! ## Between single quotes -/

/-- A text between single quotes is read up to the closing one. -/
theorem readLiteral?_append (hquote : '\'' ∉ cs) (hplain : cs.any isForbidden = false)
    (rest : Text) : readLiteral? false (cs ++ '\'' :: rest) = some (cs, rest) := by
  induction cs with
  | nil => rfl
  | cons c cs ih =>
    rw [List.any_cons, Bool.or_eq_false_iff] at hplain
    rw [List.cons_append, readLiteral?.eq_def]
    simp only [ih (fun h => hquote (List.mem_cons_of_mem _ h)) hplain.2, hplain.1]
    split
    · exact absurd List.mem_cons_self hquote
    · contradiction
    · rfl

/-! ## Keys -/

/-- A run of a class of characters ends where another character, or none, follows. -/
theorem span_append_of_all {p : Char → Bool} (hall : cs.all p)
    (hrest : rest.head?.all fun c => !p c) : (cs ++ rest).span p = (cs, rest) := by
  have hall' : ∀ c ∈ cs, p c := List.all_eq_true.1 hall
  have hstop : rest.takeWhile p = [] ∧ rest.dropWhile p = rest := by
    cases rest with
    | nil => exact ⟨rfl, rfl⟩
    | cons c rest =>
      have hc : ¬ p c := by simpa using hrest
      exact ⟨List.takeWhile_cons_of_neg hc, List.dropWhile_cons_of_neg hc⟩
  rw [List.span_eq_takeWhile_dropWhile, List.takeWhile_append_of_pos hall',
    List.dropWhile_append_of_pos hall', hstop.1, hstop.2, List.append_nil]

/-- Nothing is skipped before a character of a class without blanks. -/
theorem skipBlanks_cons {p : Char → Prop} (hc : p c) (hspace : ¬ p ' ')
    (htab : ¬ p '\t') (cs : Text) : skipBlanks (c :: cs) = c :: cs := by
  refine List.dropWhile_cons_of_neg fun hblank => ?_
  rw [Text.isSpaceTab, Bool.or_eq_true] at hblank
  rcases hblank with he | he
  · exact hspace (of_decide_eq_true he ▸ hc)
  · exact htab (of_decide_eq_true he ▸ hc)

/-- Where a part of a key may end. -/
def EndsKey (rest : Text) : Prop := rest.head?.all fun c => !isBareKeyChar c

theorem endsKey_cons (h : isBareKeyChar c = false) (rest : Text) : EndsKey (c :: rest) := by
  rw [EndsKey, List.head?_cons, Option.all_some, h]
  rfl

theorem simpleKey?_basic (key rest : Text) : simpleKey? (basic key ++ rest) = some (key, rest) := by
  rw [basic_append]
  exact readBasic?_flatMap_escaped key rest

/-- A part of a key is written as it is, or between double quotes, or between single ones. -/
theorem keyText_cases (key : Text) :
    (key ≠ [] ∧ key.all isBareKeyChar ∧ keyText key = key) ∨ keyText key = basic key ∨
      ('\'' ∉ key ∧ key.any isForbidden = false ∧ keyText key = literal key) := by
  rw [keyText]
  split
  · next hbare =>
    rw [Bool.and_eq_true, Bool.not_eq_true'] at hbare
    exact .inl ⟨List.isEmpty_eq_false_iff.1 hbare.1, hbare.2, rfl⟩
  right
  split
  · exact .inl rfl
  next hplain =>
  split
  · exact .inl rfl
  split
  · next hsingle =>
    have hquote : '\'' ∉ key := fun hmem => by simpa using List.all_eq_true.1 hsingle _ hmem
    exact .inr ⟨hquote, Bool.not_eq_true _ ▸ hplain, rfl⟩
  · exact .inl rfl

/-- A part of a key is read as it is written, whichever way `keyText` chooses. -/
theorem simpleKey?_keyText (key : Text) (h : EndsKey rest) :
    simpleKey? (keyText key ++ rest) = some (key, rest) := by
  rcases keyText_cases key with ⟨hne, hbare, he⟩ | he | ⟨hquote, hplain, he⟩
  · rw [he]
    have hspan := span_append_of_all hbare h
    obtain ⟨c, key, rfl⟩ := List.exists_cons_of_ne_nil hne
    have hc : isBareKeyChar c := List.all_eq_true.1 hbare c List.mem_cons_self
    -- It is not taken for a quoted one, since quotes are no characters of keys.
    have hdouble : c ≠ '"' := fun he => absurd (he ▸ hc) (by decide)
    have hsingle : c ≠ '\'' := fun he => absurd (he ▸ hc) (by decide)
    rw [List.cons_append] at hspan ⊢
    rw [simpleKey?.eq_def]
    split
    · next he => exact absurd (List.cons.inj he).1 hdouble
    · next he => exact absurd (List.cons.inj he).1 hsingle
    · rw [hspan]
  · rw [he]
    exact simpleKey?_basic key rest
  · have happend : literal key ++ rest = '\'' :: (key ++ '\'' :: rest) := by simp [literal]
    rw [he, happend]
    exact readLiteral?_append hquote hplain rest

/-- A key starts with a character of keys or with a quote. -/
theorem exists_cons_of_keyText (key rest : Text) :
    ∃ d tail, (isBareKeyChar d ∨ d = '"' ∨ d = '\'') ∧ keyText key ++ rest = d :: tail := by
  rcases keyText_cases key with ⟨hne, hbare, he⟩ | he | ⟨-, -, he⟩
  · obtain ⟨c, key, rfl⟩ := List.exists_cons_of_ne_nil hne
    exact ⟨c, _, .inl (List.all_eq_true.1 hbare c List.mem_cons_self), by rw [he]; rfl⟩
  · exact ⟨'"', _, .inr (.inl rfl), by rw [he]; rfl⟩
  · exact ⟨'\'', _, .inr (.inr rfl), by rw [he]; rfl⟩

/-- A key as it is written: its parts with dots between them. -/
def pathText (path : List Text) : Text := ['.'].intercalate (path.map keyText)

theorem pathText_singleton (key : Text) : pathText [key] = keyText key := List.intercalate_singleton

theorem pathText_cons_append (part : Text) (path : List Text) (key : Text) :
    pathText (part :: (path ++ [key])) = keyText part ++ '.' :: pathText (path ++ [key]) := by
  rw [pathText, List.map_cons, List.intercalate_cons_of_ne_nil (by simp), List.append_assoc]
  rfl

theorem exists_cons_of_pathText (path : List Text) (key rest : Text) :
    ∃ d tail, (isBareKeyChar d ∨ d = '"' ∨ d = '\'') ∧
    pathText (path ++ [key]) ++ rest = d :: tail := by
  cases path with
  | nil =>
    rw [List.nil_append, pathText_singleton]
    exact exists_cons_of_keyText key rest
  | cons part path =>
    rw [List.cons_append, pathText_cons_append, List.append_assoc]
    exact exists_cons_of_keyText part _

theorem skipBlanks_pathText (path : List Text) (key rest : Text) :
    skipBlanks (pathText (path ++ [key]) ++ rest) = pathText (path ++ [key]) ++ rest := by
  obtain ⟨d, tail, hd, he⟩ := exists_cons_of_pathText path key rest
  rw [he]
  exact skipBlanks_cons (p := fun d => isBareKeyChar d ∨ d = '"' ∨ d = '\'') hd
    (by decide) (by decide) tail

theorem key?_of_dot {part tail : Text} {fuel : Nat} (h : simpleKey? cs = some (part, tail))
    (hdot : skipBlanks tail = '.' :: rest) :
    key? (fuel + 1) cs = (key? fuel (skipBlanks rest)).map fun k =>
    ((part :: k.1.1, k.1.2), k.2) := by
  simp only [key?, h, hdot, Option.bind_eq_bind, Option.bind_some]
  cases key? fuel (skipBlanks rest) <;> rfl

theorem key?_of_not_dot {part tail : Text} {fuel : Nat} (h : simpleKey? cs = some (part, tail))
    (hdot : (skipBlanks tail).head? ≠ some '.') :
    key? (fuel + 1) cs = some (([], part), skipBlanks tail) := by
  rw [key?, h, Option.bind_eq_bind, Option.bind_some]
  dsimp only
  split
  · next he => exact absurd (congrArg List.head? he) hdot
  · rfl

/-- A key ends where neither a dot nor another character of its last part follows. The blanks behind
    it are skipped. -/
theorem key?_pathText (path : List Text) (key : Text) {fuel : Nat} (hfuel : path.length < fuel)
    (h : EndsKey rest) (hdot : (skipBlanks rest).head? ≠ some '.') :
    key? fuel (pathText (path ++ [key]) ++ rest) = some ((path, key), skipBlanks rest) := by
  induction path generalizing fuel with
  | nil =>
    obtain ⟨fuel, rfl⟩ := Nat.exists_eq_add_of_lt hfuel
    rw [List.nil_append, pathText_singleton]
    exact key?_of_not_dot (simpleKey?_keyText key h) hdot
  | cons part path ih =>
    obtain ⟨fuel, rfl⟩ := Nat.exists_eq_add_of_lt (Nat.lt_of_le_of_lt (Nat.zero_le _) hfuel)
    rw [Nat.zero_add] at hfuel ⊢
    rw [List.cons_append, pathText_cons_append, List.append_assoc, List.cons_append]
    have hskip : ∀ tail, skipBlanks ('.' :: tail) = '.' :: tail := fun _ => rfl
    rw [key?_of_dot (simpleKey?_keyText part (endsKey_cons rfl _)) (hskip _), skipBlanks_pathText,
      ih (Nat.lt_of_succ_lt_succ hfuel)]
    rfl

end Taskdown.Toml
