import Taskdown.Output.LineBuffer

/-!
# Lines and offsets

The records of a line buffer are chained, so each of them knows the sum of all lengths up to its
line. Here this is said of all records at once (`LineBuffer.Summed`), and what follows for somebody
who looks for lines in the output:

* `Summed.append_eq`: a line is refused for two reasons only, although four sums are checked;
* `Summed.offsetOf_eq`: a line starts where those before it end;
* `Summed.lineAt?_of_lt`, `Summed.lineAt?_of_le`: halving finds the one line that holds an offset,
  also among lines without any length;
* `LineBuffer.offsets_follow_lengths`: all of this holds of every buffer that can be built.
-/

namespace Taskdown

/-- The sum of a length over some lines. -/
def LineRecord.total (measure : LineRecord → Nat) : List LineRecord → Nat
  | [] => 0
  | r :: records => measure r + total measure records

namespace LineRecord

variable {measure : LineRecord → Nat} {records : List LineRecord}

theorem total_append (as bs : List LineRecord) :
    total measure (as ++ bs) = total measure as + total measure bs := by
  induction as with
  | nil => exact (Nat.zero_add _).symm
  | cons r as ih => rw [List.cons_append, total, total, ih, Nat.add_assoc]

theorem total_take_succ {i : Nat} {r : LineRecord} (hr : records[i]? = some r) :
    total measure (records.take (i + 1)) = total measure (records.take i) + measure r := by
  rw [List.take_add_one, hr, total_append]
  rfl

/-- More lines have a greater sum, or the same. -/
theorem total_take_mono {i j : Nat} (h : i ≤ j) :
    total measure (records.take i) ≤ total measure (records.take j) := by
  have htake : (records.take j).take i = records.take i := by rw [List.take_take, Nat.min_eq_left h]
  rw [← List.take_append_drop i (records.take j), total_append, htake]
  exact Nat.le_add_right _ _

/-- If lead and text fit into every line, their sums fit into that of the lines. -/
theorem total_lead_add_total_text_le (h : ∀ r ∈ records, r.leadLength + r.textLength ≤ r.length) :
    total leadLength records + total textLength records ≤ total LineRecord.length records := by
  induction records with
  | nil => exact Nat.le_refl _
  | cons r records ih =>
    have hr := h r List.mem_cons_self
    have hrest := ih fun s hs => h s (List.mem_cons_of_mem _ hs)
    simp only [total]
    omega

end LineRecord

namespace LineBuffer

open LineRecord (total)

variable {b : LineBuffer} {shape : LineShape} {i : Nat} {r : LineRecord} {offset : Nat}

/-! ## Building -/

/-- The buffer after a line has been offered to it. A line that is refused changes nothing. -/
def offer (b : LineBuffer) (shape : LineShape) : LineBuffer :=
  match b.append shape with
  | .ok (_, grown) => grown
  | .error _ => b

/-- The buffer to which some lines have been offered, one after the other. -/
def ofOffers (shapes : List LineShape) : LineBuffer := shapes.foldl offer {}

/-- The record of a line behind all lines of a buffer. -/
def next (b : LineBuffer) (shape : LineShape) : LineRecord where
  index := b.length
  leadLength := shape.leadLength
  textLength := shape.textLength
  length := shape.length
  sumLead := total LineRecord.leadLength b.records + shape.leadLength
  sumText := total LineRecord.textLength b.records + shape.textLength
  sum := total LineRecord.length b.records + shape.length
  blankLead := shape.blankLead || shape.leadLength = 0
  blankText := shape.blankText || shape.textLength = 0
  part := shape.part

/-- A line does not fit behind those of a buffer: it is too short for its parts, or the output would
    be too long. -/
def Refuses (b : LineBuffer) (shape : LineShape) : Prop :=
  shape.length < shape.leadLength + shape.textLength ∨ maxLength < b.totalLength + shape.length

instance (b : LineBuffer) (shape : LineShape) : Decidable (b.Refuses shape) :=
  inferInstanceAs (Decidable (_ ∨ _))

/-- A record has the sums of the lengths of all lines up to its own. -/
structure SumsUpTo (b : LineBuffer) (i : Nat) (r : LineRecord) : Prop where
  index : r.index = i
  lead : r.sumLead = total LineRecord.leadLength (b.records.take (i + 1))
  text : r.sumText = total LineRecord.textLength (b.records.take (i + 1))
  line : r.sum = total LineRecord.length (b.records.take (i + 1))

/-- All records have the sums of the lengths, and lead and text fit into every line. -/
structure Summed (b : LineBuffer) : Prop where
  sums : ∀ i r, b.line? i = some r → b.SumsUpTo i r
  fits : ∀ r ∈ b.records, r.leadLength + r.textLength ≤ r.length

theorem summed_empty : Summed {} where
  sums i r hr := by cases hr
  fits r hr := by cases hr

theorem line?_of_last? (hr : b.last? = some r) :
    b.line? (b.length - 1) = some r ∧ b.length - 1 + 1 = b.length := by
  have hlast : b.records[b.records.length - 1]? = some r := List.getLast?_eq_getElem? ▸ hr
  have hlt := (List.getElem?_eq_some_iff.1 hlast).1
  exact ⟨hlast, Nat.sub_add_cancel (Nat.one_le_of_lt hlt)⟩

/-- A line of a buffer that has grown was there before, or is the new one. -/
theorem line?_concat {s : LineRecord} (hr : (⟨b.records ++ [s]⟩ : LineBuffer).line? i = some r) :
    b.line? i = some r ∧ i < b.length ∨ i = b.length ∧ s = r := by
  have hlt := (List.getElem?_eq_some_iff.1 hr).1
  rw [List.length_append, List.length_singleton] at hlt
  rcases Nat.lt_or_eq_of_le (Nat.le_of_lt_succ hlt) with hi | rfl
  · exact .inl ⟨(List.getElem?_append_left hi).symm.trans hr, hi⟩
  · exact .inr ⟨rfl, Option.some.inj (List.getElem?_concat_length.symm.trans hr)⟩

/-- What the records sum up is found in the last one. -/
theorem getD_map_last? {sum measure : LineRecord → Nat}
    (h : ∀ i r, b.line? i = some r → sum r = total measure (b.records.take (i + 1))) :
    (b.last?.map sum).getD 0 = total measure b.records := by
  cases hr : b.last? with
  | none =>
    rw [List.getLast?_eq_none_iff.1 hr]
    rfl
  | some r =>
    obtain ⟨hlast, hlength⟩ := line?_of_last? hr
    rw [Option.map_some, Option.getD_some, h _ r hlast, hlength, length, List.take_length]

theorem Summed.totalLength_eq (h : b.Summed) : b.totalLength = total LineRecord.length b.records :=
  getD_map_last? fun i r hr => (h.sums i r hr).line

theorem Summed.getD_index (h : b.Summed) : (b.last?.map (·.index + 1)).getD 0 = b.length := by
  cases hr : b.last? with
  | none =>
    rw [length, List.getLast?_eq_none_iff.1 hr]
    rfl
  | some r =>
    obtain ⟨hlast, hlength⟩ := line?_of_last? hr
    rw [Option.map_some, Option.getD_some, (h.sums _ r hlast).index, hlength]

/-- A line is added unless it does not fit. The sums of leads and of texts are checked too, but they
    are not greater than that of the lines. -/
theorem Summed.append_eq (h : b.Summed) (shape : LineShape) :
    b.append shape =
      if b.Refuses shape then .error (.invalidLine shape.leadLength shape.textLength shape.length)
      else .ok (b.next shape, ⟨b.records ++ [b.next shape]⟩) := by
  have hparts := LineRecord.total_lead_add_total_text_le h.fits
  have hlead := getD_map_last? (b := b) fun i r hr => (h.sums i r hr).lead
  have htext := getD_map_last? (b := b) fun i r hr => (h.sums i r hr).text
  have hline := getD_map_last? (b := b) fun i r hr => (h.sums i r hr).line
  have hrefuses : (shape.length < shape.leadLength + shape.textLength ∨
      maxLength < (b.last?.map LineRecord.sumLead).getD 0 + shape.leadLength ∨
      maxLength < (b.last?.map LineRecord.sumText).getD 0 + shape.textLength ∨
      maxLength < (b.last?.map LineRecord.sum).getD 0 + shape.length) ↔ b.Refuses shape := by
    rw [Refuses, h.totalLength_eq, hlead, htext, hline]
    omega
  rw [append, LineRecord.chain]
  simp only [hrefuses]
  split
  · rfl
  · rw [hlead, htext, hline, h.getD_index]
    rfl

theorem Summed.offer (h : b.Summed) (shape : LineShape) : (b.offer shape).Summed := by
  rw [LineBuffer.offer, h.append_eq]
  split
  · next hgrown =>
    split at hgrown
    · cases hgrown
    · next hfits =>
      obtain ⟨-, rfl⟩ := Prod.mk.inj (Except.ok.inj hgrown)
      refine ⟨fun i r hr => ?_, fun r hr => ?_⟩
      · have htake : ∀ measure, total measure ((b.records ++ [b.next shape]).take (b.length + 1)) =
            total measure b.records + measure (b.next shape) := fun measure => by
          rw [List.take_of_length_le (by simp [LineBuffer.length]), LineRecord.total_append]
          rfl
        rcases line?_concat hr with ⟨hold, hi⟩ | ⟨rfl, rfl⟩
        · -- A line that was there before has the same lines before it.
          have hsums := h.sums i r hold
          have hprefix : (b.records ++ [b.next shape]).take (i + 1) = b.records.take (i + 1) :=
            List.take_append_of_le_length hi
          exact ⟨hsums.index, hprefix ▸ hsums.lead, hprefix ▸ hsums.text, hprefix ▸ hsums.line⟩
        · exact ⟨rfl, (htake _).symm, (htake _).symm, (htake _).symm⟩
      · rcases List.mem_append.1 hr with hr | hr
        · exact h.fits r hr
        · obtain rfl := List.mem_singleton.1 hr
          exact Nat.le_of_not_lt fun hlt => hfits (.inl hlt)
  · exact h

theorem summed_ofOffers (shapes : List LineShape) : (ofOffers shapes).Summed := by
  suffices h : ∀ b : LineBuffer, b.Summed → (shapes.foldl LineBuffer.offer b).Summed from
    h _ summed_empty
  induction shapes with
  | nil => exact fun _ hb => hb
  | cons shape shapes ih => exact fun b hb => ih _ (hb.offer shape)

/-! ## Looking lines up -/

theorem Summed.start_eq (h : b.Summed) (hr : b.line? i = some r) :
    r.start = total LineRecord.length (b.records.take i) := by
  rw [LineRecord.start, (h.sums i r hr).line, LineRecord.total_take_succ hr, Nat.add_sub_cancel]

theorem Summed.stop_eq (h : b.Summed) (hr : b.line? i = some r) :
    r.stop = total LineRecord.length (b.records.take (i + 1)) := (h.sums i r hr).line

/-- A line starts where those before it end, and so would a line behind all others. -/
theorem Summed.offsetOf_eq (h : b.Summed) (i : Nat) :
    b.offsetOf i =
      if i ≤ b.length then some (total LineRecord.length (b.records.take i)) else none := by
  rw [offsetOf]
  split
  · next r hr =>
    have hlt : i < b.length := (List.getElem?_eq_some_iff.1 hr).1
    rw [if_pos (Nat.le_of_lt hlt), h.start_eq hr]
  · next hr =>
    have hle : b.length ≤ i := List.getElem?_eq_none_iff.1 hr
    by_cases hi : i = b.length
    · rw [if_pos hi, if_pos (Nat.le_of_eq hi), h.totalLength_eq, hi, length, List.take_length]
    · rw [if_neg hi, if_neg (by omega)]

/-- Halving finds the place where a condition changes. -/
theorem bisect_spec {holds : Nat → Bool} {low high : Nat} (hle : low ≤ high)
    (hmono : ∀ i j, i ≤ j → j < high → holds j = true → holds i = true) :
    let place := bisect holds low high
    low ≤ place ∧ place ≤ high ∧ (∀ i, low ≤ i → i < place → holds i = true) ∧
      ∀ i, place ≤ i → i < high → holds i = false := by
  fun_induction bisect holds low high with
  | case1 low high hlt middle hm ih =>
    -- Up to the middle the condition holds, as it holds there.
    have hmiddle : low ≤ middle ∧ middle < high := by omega
    obtain ⟨hlow, hhigh, hbefore, hbehind⟩ := ih hmiddle.2 hmono
    refine ⟨by omega, hhigh, fun i hi hip => ?_, hbehind⟩
    rcases Nat.lt_or_ge middle i with hmi | him
    · exact hbefore i hmi hip
    · exact hmono i middle him hmiddle.2 hm
  | case2 low high hlt middle hm ih =>
    have hmiddle : low ≤ middle ∧ middle < high := by omega
    obtain ⟨hlow, hhigh, hbefore, hbehind⟩ :=
      ih hmiddle.1 fun i j hij hj => hmono i j hij (by omega)
    refine ⟨hlow, by omega, hbefore, fun i hi hih => ?_⟩
    rcases Nat.lt_or_ge i middle with him | hmi
    · exact hbehind i hi him
    · exact Bool.eq_false_iff.2 (mt (hmono middle i hmi hih) hm)
  | case3 low high hlt =>
    exact ⟨Nat.le_refl _, hle, fun i h₁ h₂ => by omega, fun i h₁ h₂ => by omega⟩

/-- The lines that end at or before an offset are those in front of the place that halving finds. -/
theorem Summed.exists_place (h : b.Summed) (offset : Nat) :
    ∃ place ≤ b.length, b.lineAt? offset = b.line? place ∧
      total LineRecord.length (b.records.take place) ≤ offset ∧
      ∀ i r, b.line? i = some r → place ≤ i → offset < r.stop := by
  have hbehind : ∀ i r, b.line? i = some r →
      ((b.records[i]?).any (·.sum ≤ offset) = true ↔ r.stop ≤ offset) := fun i r hr => by
    rw [show b.records[i]? = some r from hr]
    exact decide_eq_true_iff
  have hline : ∀ i < b.length, ∃ r, b.line? i = some r :=
    fun i hi => ⟨_, List.getElem?_eq_getElem hi⟩
  have hmono : ∀ i j, i ≤ j → j < b.length → b.records[j]?.any (·.sum ≤ offset) = true →
      b.records[i]?.any (·.sum ≤ offset) = true := fun i j hij hj hholds => by
    obtain ⟨r, hr⟩ := hline i (Nat.lt_of_le_of_lt hij hj)
    obtain ⟨s, hs⟩ := hline j hj
    have hstop := (hbehind j s hs).1 hholds
    rw [h.stop_eq hs] at hstop
    rw [hbehind i r hr, h.stop_eq hr]
    exact Nat.le_trans (LineRecord.total_take_mono (Nat.succ_le_succ hij)) hstop
  obtain ⟨-, hle, hbefore, hafter⟩ := bisect_spec (Nat.zero_le b.length) hmono
  refine ⟨_, hle, rfl, ?_, fun i r hr hi => ?_⟩
  · generalize bisect _ 0 b.length = place at *
    cases place with
    | zero => exact Nat.zero_le _
    | succ i =>
      obtain ⟨r, hr⟩ := hline i hle
      rw [← h.stop_eq hr]
      exact (hbehind i r hr).1 (hbefore i (Nat.zero_le _) (Nat.lt_succ_self i))
  · have hlt : i < b.length := (List.getElem?_eq_some_iff.1 hr).1
    refine Nat.lt_of_not_le fun hstop => ?_
    have hholds := hafter i hi hlt
    rw [(hbehind i r hr).2 hstop] at hholds
    cases hholds

/-- An offset within the output is held by one line, which is found. -/
theorem Summed.lineAt?_of_lt (h : b.Summed) (hlt : offset < b.totalLength) :
    ∃ i r, b.lineAt? offset = some r ∧ b.line? i = some r ∧ r.start ≤ offset ∧ offset < r.stop ∧
      ∀ j s, b.line? j = some s → s.start ≤ offset → offset < s.stop → j = i := by
  obtain ⟨place, hle, hfound, hstart, hafter⟩ := h.exists_place offset
  have hplace : place < b.length := by
    refine Nat.lt_of_le_of_ne hle fun he => ?_
    rw [h.totalLength_eq] at hlt
    rw [he, length, List.take_length] at hstart
    exact Nat.not_lt_of_le hstart hlt
  obtain ⟨r, hr⟩ : ∃ r, b.line? place = some r := ⟨_, List.getElem?_eq_getElem hplace⟩
  refine ⟨place, r, hfound.trans hr, hr, (h.start_eq hr).symm ▸ hstart,
    hafter place r hr (Nat.le_refl _), fun j s hs hbegin hend => ?_⟩
  rw [h.start_eq hs] at hbegin
  rw [h.stop_eq hs] at hend
  have hend' := hafter place r hr (Nat.le_refl _)
  rw [h.stop_eq hr] at hend'
  rcases Nat.lt_trichotomy j place with hj | hj | hj
  · -- A line in front of the place ends at or before the offset.
    exact absurd hend (Nat.not_lt_of_le (Nat.le_trans (LineRecord.total_take_mono hj) hstart))
  · exact hj
  · -- A line behind it starts where it ends, or later.
    exact absurd hend' (Nat.not_lt_of_le (Nat.le_trans (LineRecord.total_take_mono hj) hbegin))

/-- No line holds an offset behind the output. -/
theorem Summed.lineAt?_of_le (h : b.Summed) (hle : b.totalLength ≤ offset) :
    b.lineAt? offset = none := by
  obtain ⟨place, -, hfound, -, hafter⟩ := h.exists_place offset
  rw [hfound]
  cases hr : b.line? place with
  | none => rfl
  | some r =>
    have hlt := hafter place r hr (Nat.le_refl _)
    have htotal : total LineRecord.length (b.records.take (place + 1)) ≤
        total LineRecord.length (b.records.take b.records.length) :=
      LineRecord.total_take_mono (Nat.succ_le_of_lt (List.getElem?_eq_some_iff.1 hr).1)
    rw [h.stop_eq hr] at hlt
    rw [h.totalLength_eq] at hle
    rw [List.take_length] at htotal
    omega

/-! ## The contract of a line buffer -/

/-- Offsets follow lengths, whatever lines have been offered to a buffer.
    * Every record has the sums of the lengths of all lines up to its own.
    * A line starts where the lines before it end, and so does the end of the output. There are no
      lines beyond.
    * An offset within the output is held by one line, which is found; any other offset is held by
      none.
    * A line is refused if it is too short for its parts or makes the output too long, and for no
      other reason. A line that is refused changes nothing, any other one is put behind those that
      are there. -/
theorem offsets_follow_lengths (shapes : List LineShape) :
    let b := ofOffers shapes
    (∀ i r, b.line? i = some r → b.SumsUpTo i r) ∧
      (∀ i, b.offsetOf i =
        if i ≤ b.length then some (total LineRecord.length (b.records.take i)) else none) ∧
      (∀ offset < b.totalLength, ∃ i r, b.lineAt? offset = some r ∧ b.line? i = some r ∧
        r.start ≤ offset ∧ offset < r.stop ∧
        ∀ j s, b.line? j = some s → s.start ≤ offset → offset < s.stop → j = i) ∧
      (∀ offset, b.totalLength ≤ offset → b.lineAt? offset = none) ∧
      ∀ shape,
        (b.Refuses shape → b.append shape =
          .error (.invalidLine shape.leadLength shape.textLength shape.length) ∧
          b.offer shape = b) ∧
        (¬ b.Refuses shape → b.append shape = .ok (b.next shape, b.offer shape) ∧
          (b.offer shape).records = b.records ++ [b.next shape]) := by
  intro b
  have h : b.Summed := summed_ofOffers shapes
  refine ⟨h.sums, h.offsetOf_eq, fun offset => h.lineAt?_of_lt, fun offset => h.lineAt?_of_le,
    fun shape => ⟨fun hr => ?_, fun hr => ?_⟩⟩
  · have happend := (h.append_eq shape).trans (if_pos hr)
    refine ⟨happend, ?_⟩
    rw [offer, happend]
  · have happend := (h.append_eq shape).trans (if_neg hr)
    rw [offer, happend]
    exact ⟨rfl, rfl⟩

/-- Between two lines stand two that have no length: the offset where they stand is held by the line
    behind them. -/
example : ((ofOffers [⟨2, 1, 4, false, false, .outside⟩, ⟨0, 0, 0, true, true, .outside⟩,
    ⟨0, 0, 0, true, true, .outside⟩, ⟨3, 3, 5, false, false, .outside⟩,
    ⟨0, 1, 2, true, false, .outside⟩]).lineAt? 4).map (·.index) = some 3 := by decide +kernel

end LineBuffer

end Taskdown
