import Taskdown.Output.LineBuffer
import Taskdown.Proofs.Output.Changes

/-!
# Records describe the text

The records of an output are chained: each adds the lengths of its line to the sums of the one
before it. Here they are given in closed form (`LineRecord.of`), in terms of the lines themselves.

* `LineBuffer.Records.chain`: the chain never breaks below the greatest length;
* `LineBuffer.Records.markLast`, `LineBuffer.Records.truncate`: marking the last line and dropping
  lines at the end leave records of the lines that are left;
* `LineBuffer.Records.describes`: every offset of a record is a place where the text splits;
* `Writer.Clean.exists_described`: so the lines of a writer have records that describe its text.
-/

namespace Taskdown

/-- The record of a line that stands behind other lines. -/
def LineRecord.of (before : List WrittenLine) (l : WrittenLine) : LineRecord where
  index := before.length
  leadLength := Text.width l.lead
  textLength := Text.width l.text
  length := Text.width l.chars
  sumLead := Text.width (before.flatMap WrittenLine.lead) + Text.width l.lead
  sumText := Text.width (before.flatMap WrittenLine.text) + Text.width l.text
  sum := Text.width (before.flatMap WrittenLine.chars) + Text.width l.chars
  blankLead := Text.isBlank l.lead
  blankText := Text.isBlank l.text
  part := l.part

theorem WrittenLine.width_chars (l : WrittenLine) :
    Text.width l.chars = Text.width l.lead + Text.width l.text + 1 := by
  simp only [WrittenLine.chars, Text.width_append]
  rfl

/-- Of the parts of a line none is wider than the line, so no sum is greater than that of the
    lines. -/
theorem WrittenLine.width_flatMap_lead_add_text_le (ls : List WrittenLine) :
    Text.width (ls.flatMap WrittenLine.lead) + Text.width (ls.flatMap WrittenLine.text) ≤
      Text.width (ls.flatMap WrittenLine.chars) := by
  induction ls with
  | nil => exact Nat.le_refl _
  | cons l ls ih =>
    simp only [List.flatMap_cons, Text.width_append, WrittenLine.width_chars]
    omega

/-! A part without bytes is blank anyhow, so a record is as blank as its line. -/

theorem Text.isBlank_or_width_eq_zero (cs : Text) :
    (Text.isBlank cs || decide (Text.width cs = 0)) = Text.isBlank cs := by
  by_cases h : Text.width cs = 0
  · rw [Text.width_eq_zero_iff.1 h]
    rfl
  · rw [decide_eq_false h, Bool.or_false]

theorem WrittenLine.blankLead_shape (l : WrittenLine) :
    (l.shape.blankLead || decide (l.shape.leadLength = 0)) = Text.isBlank l.lead :=
  Text.isBlank_or_width_eq_zero l.lead

theorem WrittenLine.blankText_shape (l : WrittenLine) :
    (l.shape.blankText || decide (l.shape.textLength = 0)) = Text.isBlank l.text :=
  Text.isBlank_or_width_eq_zero l.text

namespace LineBuffer

variable {b : LineBuffer} {lines ended : List WrittenLine} {l : WrittenLine}

/-! ## The chain in closed form -/

/-- The buffer holds the records of the lines. -/
structure Records (b : LineBuffer) (lines : List WrittenLine) : Prop where
  length_eq : b.length = lines.length
  record : ∀ i l, lines[i]? = some l → b.line? i = some (.of (lines.take i) l)

theorem Records.last?_eq (h : b.Records (ended.reverse ++ [l])) :
    b.last? = some (.of ended.reverse l) := by
  have hlen : b.records.length = ended.length + 1 := by simpa [LineBuffer.length] using h.length_eq
  have hline := h.record ended.length l (by simp)
  rw [List.take_append_of_le_length (by simp), List.take_of_length_le (by simp)] at hline
  rw [last?, List.getLast?_eq_getElem?, hlen]
  exact hline

/-- The record behind those of some lines is the record of the next line, unless the output grows
    too long. -/
theorem Records.chain (h : b.Records ended.reverse)
    (hl : Text.width ((ended.reverse ++ [l]).flatMap WrittenLine.chars) ≤ maxLength) :
    LineRecord.chain b.last? l.shape = .ok (.of ended.reverse l) := by
  -- No sum overflows, as none is greater than the width of the lines.
  have hsum := WrittenLine.width_flatMap_lead_add_text_le (ended.reverse ++ [l])
  cases ended with
  | nil =>
    have hb : b.last? = none := by
      have : b.records = [] := List.eq_nil_of_length_eq_zero h.length_eq
      rw [last?, this]
      rfl
    simp only [List.reverse_nil, List.nil_append, List.flatMap_cons,
      List.flatMap_nil, List.append_nil, WrittenLine.width_chars] at hl hsum
    rw [LineRecord.chain, hb,
      if_neg (by simp only [WrittenLine.shape, Option.map_none, Option.getD_none]; omega),
      l.blankLead_shape, l.blankText_shape]
    simp [LineRecord.of, WrittenLine.shape, WrittenLine.width_chars]
  | cons k ended =>
    rw [List.reverse_cons] at h hl hsum ⊢
    simp only [List.flatMap_append, List.flatMap_singleton, Text.width_append,
      WrittenLine.width_chars] at hl hsum
    rw [LineRecord.chain, h.last?_eq,
      if_neg (by
        simp only [WrittenLine.shape, LineRecord.of, Option.map_some, Option.getD_some,
          WrittenLine.width_chars]
        omega),
      l.blankLead_shape, l.blankText_shape]
    simp [LineRecord.of, WrittenLine.shape, WrittenLine.width_chars]

theorem ofShapes_append_singleton (shapes : List LineShape) (s : LineShape) :
    ofShapes (shapes ++ [s]) = (ofShapes shapes).bind fun b => (b.append s).map Prod.snd := by
  rw [ofShapes, List.foldlM_append]
  refine bind_congr fun b => ?_
  simp only [List.foldlM_cons, List.foldlM_nil, bind_pure]
  cases b.append s <;> rfl

/-- Every record has the part of its line. -/
theorem map_part_of_ofShapes {shapes : List LineShape} (h : ofShapes shapes = .ok b) :
    b.records.map LineRecord.part = shapes.map LineShape.part := by
  suffices hfold : ∀ before : LineBuffer, shapes.foldlM (fun b shape => return (← b.append shape).2)
      before = .ok b → b.records.map LineRecord.part = before.records.map LineRecord.part ++
        shapes.map LineShape.part from hfold {} h
  clear h
  intro before h
  induction shapes generalizing before with
  | nil =>
    obtain rfl := Except.ok.inj h
    exact (List.append_nil _).symm
  | cons s shapes ih =>
    rw [List.foldlM_cons] at h
    obtain ⟨_, happend, h⟩ := bind_eq_ok_iff.1 h
    rw [append, LineRecord.chain] at happend
    split at happend
    · cases happend
    · obtain rfl := Except.ok.inj happend
      rw [ih _ h, List.map_append, List.append_assoc]
      rfl

theorem Records.append (h : b.Records ended.reverse) :
    LineBuffer.Records ⟨b.records ++ [.of ended.reverse l]⟩ (ended.reverse ++ [l]) := by
  have hlen : b.records.length = ended.reverse.length := h.length_eq
  refine ⟨by simp [LineBuffer.length, hlen], fun i k hk => ?_⟩
  rw [line?]
  rcases Nat.lt_trichotomy i ended.reverse.length with hi | rfl | hi
  · rw [List.getElem?_append_left (hlen ▸ hi), List.take_append_of_le_length (Nat.le_of_lt hi)]
    rw [List.getElem?_append_left hi] at hk
    exact h.record i k hk
  · rw [List.getElem?_append_right (Nat.le_of_eq hlen), hlen, Nat.sub_self,
      List.take_append_of_le_length (Nat.le_refl _), List.take_length]
    rw [List.getElem?_append_right (Nat.le_refl _), Nat.sub_self] at hk
    obtain rfl : l = k := by simpa using hk
    rfl
  · rw [List.getElem?_eq_none (by rw [List.length_append, List.length_singleton]; omega)] at hk
    cases hk

/-- Lines have one buffer of records only. -/
theorem Records.unique {b' : LineBuffer} (h : b.Records lines) (h' : b'.Records lines) :
    b = b' := by
  have hlength : b.records.length = lines.length := h.length_eq
  have hlength' : b'.records.length = lines.length := h'.length_eq
  have hrecords : b.records = b'.records := List.ext_getElem? fun i => by
    cases hl : lines[i]? with
    | some l => exact (h.record i l hl).trans (h'.record i l hl).symm
    | none =>
      have hi := List.getElem?_eq_none_iff.1 hl
      rw [List.getElem?_eq_none (hlength ▸ hi), List.getElem?_eq_none (hlength' ▸ hi)]
  cases b
  cases b'
  exact congrArg LineBuffer.mk hrecords

/-- The first records are those of the first lines. -/
theorem Records.truncate (h : b.Records lines) (count : Nat) :
    (b.truncate count).Records (lines.take count) := by
  refine ⟨?_, fun i l hl => ?_⟩
  · change (b.records.take count).length = _
    rw [List.length_take, List.length_take]
    exact congrArg (min count) h.length_eq
  · rw [List.getElem?_take] at hl
    split at hl
    · next hi =>
      rw [List.take_take, Nat.min_eq_left (Nat.le_of_lt hi)]
      exact (List.getElem?_take_of_lt hi).trans (h.record i l hl)
    · cases hl

/-- Marking the last record goes with marking the last line. -/
theorem Records.markLast (h : b.Records (ended.reverse ++ [l])) :
    b.markLast.Records (ended.reverse ++ [{ l with part := .last }]) := by
  have hlength : b.records.length = ended.reverse.length + 1 :=
    h.length_eq.trans List.length_append
  have hbefore : LineBuffer.Records ⟨b.records.dropLast⟩ ended.reverse := by
    have htruncate := h.truncate ended.reverse.length
    rw [List.take_left] at htruncate
    rwa [List.dropLast_eq_take, hlength, Nat.add_sub_cancel]
  rw [LineBuffer.markLast, h.last?_eq]
  exact hbefore.append (l := { l with part := .last })

/-- The records sum up to the width of the lines. -/
theorem Records.totalLength_eq (h : b.Records lines) :
    b.totalLength = Text.width (lines.flatMap WrittenLine.chars) := by
  rw [LineBuffer.totalLength]
  rcases List.eq_nil_or_concat lines with rfl | ⟨before, l, rfl⟩
  · have hnone : b.records = [] := List.eq_nil_of_length_eq_zero h.length_eq
    rw [last?, hnone]
    rfl
  · rw [List.concat_eq_append, ← List.reverse_reverse before] at h ⊢
    rw [h.last?_eq, List.flatMap_append, Text.width_append, List.flatMap_singleton]
    rfl

/-- Lines have records, and the records of the lines are their chain, unless the output is too
    long. -/
theorem exists_records (h : Text.width (ended.reverse.flatMap WrittenLine.chars) ≤ maxLength) :
    ∃ b, ofShapes (ended.reverse.map WrittenLine.shape) = .ok b ∧ b.Records ended.reverse := by
  induction ended with
  | nil => exact ⟨{}, rfl, rfl, fun _ _ hl => nomatch hl⟩
  | cons l ended ih =>
    rw [List.reverse_cons] at h ⊢
    -- What is not too long at the end has not been too long before.
    have hshorter : Text.width (ended.reverse.flatMap WrittenLine.chars) ≤ maxLength := by
      rw [List.flatMap_append, Text.width_append] at h
      omega
    obtain ⟨b, hb, hr⟩ := ih hshorter
    refine ⟨⟨b.records ++ [.of ended.reverse l]⟩, ?_, hr.append⟩
    rw [List.map_append, List.map_singleton, ofShapes_append_singleton, hb]
    simp only [Except.bind, LineBuffer.append, hr.chain h]
    rfl

end LineBuffer

/-! ## Records and text -/

/-- A part of a text lies between two offsets, at which the text splits. -/
structure Text.Occupied (whole : Text) (i j : Nat) (part : Text) : Prop where
  start : Text.isBoundary whole i
  stop : Text.isBoundary whole j
  slice : Text.slice whole i j = part

/-- Where a text is made up of three parts, the middle one lies between the width of the first and
    that of the two. -/
theorem Text.occupied_of {whole as bs cs : Text} {i j : Nat} (h : whole = as ++ (bs ++ cs))
    (hi : i = Text.width as) (hj : j = Text.width (as ++ bs)) : Text.Occupied whole i j bs := by
  subst h hi hj
  refine ⟨Text.isBoundary_append_left as _, ?_, ?_⟩
  · rw [← List.append_assoc]
    exact Text.isBoundary_append_left _ cs
  · rw [Text.width_append]
    exact Text.slice_append_append as bs cs

/-- The record of a line fits a text: its offsets cut the line and the parts of the line out of the
    text. -/
structure LineRecord.Fits (r : LineRecord) (output : Text) (l : WrittenLine) : Prop where
  line : Text.Occupied output r.start r.stop l.chars
  lead : Text.Occupied output r.start r.outputSpan.start l.lead
  text : Text.Occupied output r.outputSpan.start r.outputSpan.stop l.text
  terminator : Text.Occupied output r.outputSpan.stop r.stop ['\n']
  blankLead : r.blankLead = Text.isBlank l.lead
  blankText : r.blankText = Text.isBlank l.text

section

variable (before behind : List WrittenLine) (l : WrittenLine)

theorem LineRecord.start_of :
    (LineRecord.of before l).start = Text.width (before.flatMap WrittenLine.chars) :=
  Nat.add_sub_cancel _ _

theorem LineRecord.outputSpan_start_of : (LineRecord.of before l).outputSpan.start =
    Text.width (before.flatMap WrittenLine.chars ++ l.lead) := by
  rw [Text.width_append, ← start_of before l]
  rfl

theorem LineRecord.outputSpan_stop_of : (LineRecord.of before l).outputSpan.stop =
    Text.width (before.flatMap WrittenLine.chars ++ l.lead ++ l.text) := by
  rw [Text.width_append, ← outputSpan_start_of]
  exact (Nat.add_assoc _ _ _).symm

theorem LineRecord.stop_of : (LineRecord.of before l).stop =
    Text.width (before.flatMap WrittenLine.chars ++ l.chars) :=
  (Text.width_append _ _).symm

/-- The record of a line fits the text of all lines. -/
theorem LineRecord.fits_of :
    (LineRecord.of before l).Fits ((before ++ l :: behind).flatMap WrittenLine.chars) l := by
  have hall : (before ++ l :: behind).flatMap WrittenLine.chars =
      before.flatMap WrittenLine.chars ++
        (l.lead ++ (l.text ++ (['\n'] ++ behind.flatMap WrittenLine.chars))) := by
    simp [WrittenLine.chars]
  have hchars : before.flatMap WrittenLine.chars ++ l.chars =
      before.flatMap WrittenLine.chars ++ l.lead ++ l.text ++ ['\n'] := by
    simp [WrittenLine.chars]
  have hstart := start_of before l
  have hlead := outputSpan_start_of before l
  have htext := outputSpan_stop_of before l
  have hstop := stop_of before l
  exact
    { line := Text.occupied_of (by rw [List.flatMap_append, List.flatMap_cons]) hstart hstop
      lead := Text.occupied_of hall hstart hlead
      text := Text.occupied_of (by rw [hall, List.append_assoc]) hlead htext
      terminator := Text.occupied_of (by rw [hall, List.append_assoc, List.append_assoc])
        htext (hchars ▸ hstop)
      blankLead := rfl
      blankText := rfl }

end

/-- The buffer describes the text of some lines: each line has a record, which starts where the
    lines before it end, and fits the text. -/
structure LineBuffer.Describes (b : LineBuffer) (output : Text) (lines : List WrittenLine) :
    Prop where
  length : b.length = lines.length
  totalLength : b.totalLength = Text.width output
  line : ∀ i l, lines[i]? = some l → '\n' ∉ l.text ∧ ∃ r, b.line? i = some r ∧
    r.start = Text.width ((lines.take i).flatMap WrittenLine.chars) ∧ r.Fits output l

theorem LineBuffer.Records.describes {b : LineBuffer} {lines : List WrittenLine}
    (h : b.Records lines) (hlines : ∀ l ∈ lines, '\n' ∉ l.text) :
    b.Describes (lines.flatMap WrittenLine.chars) lines := by
  refine ⟨h.length_eq, h.totalLength_eq, fun i l hl => ?_⟩
  refine ⟨hlines l (List.mem_of_getElem? hl), _, h.record i l hl, LineRecord.start_of _ l, ?_⟩
  obtain ⟨hi, rfl⟩ := List.getElem?_eq_some_iff.1 hl
  have hfits := LineRecord.fits_of (lines.take i) (lines.drop (i + 1)) lines[i]
  rwa [← List.drop_eq_getElem_cons hi, List.take_append_drop] at hfits

/-! ## What a writer records -/

namespace Writer

variable {w : Writer}

/-- The buffer holds the records of all lines, and they describe the text. -/
structure Described (w : Writer) (b : LineBuffer) : Prop
    extends b.Describes w.text w.ended.reverse where
  lines : w.lines = .ok b

theorem map_part_of_lines {b : LineBuffer} (h : w.lines = .ok b) :
    b.records.map LineRecord.part = w.ended.reverse.map WrittenLine.part := by
  rw [LineBuffer.map_part_of_ofShapes h, List.map_map]
  rfl

/-- The records of the lines describe their text, unless there is too much of it. -/
theorem Clean.described (hc : w.Clean) (hw : Text.width w.text ≤ maxLength) {b : LineBuffer}
    (hb : b.Records w.ended.reverse) : w.Described b := by
  obtain ⟨b', hlines, hb'⟩ := LineBuffer.exists_records hw
  obtain rfl := hb.unique hb'
  exact ⟨hb.describes fun l hl => hc.ended l (List.mem_reverse.1 hl), hlines⟩

theorem Clean.exists_described (hc : w.Clean) (hw : Text.width w.text ≤ maxLength) :
    ∃ b, w.Described b := by
  obtain ⟨b, -, hb⟩ := LineBuffer.exists_records hw
  exact ⟨b, hc.described hw hb⟩

/-- Each line has one newline, its terminator, if the leads have none. -/
theorem LeadsClean.count_newline (hl : w.LeadsClean) (hc : w.Clean) :
    w.text.count '\n' = w.ended.length := by
  have hlines : ∀ ls : List WrittenLine, (∀ l ∈ ls, '\n' ∉ l.lead ∧ '\n' ∉ l.text) →
      (ls.flatMap WrittenLine.chars).count '\n' = ls.length := by
    intro ls
    induction ls with
    | nil => exact fun _ => rfl
    | cons l ls ih =>
      intro h
      obtain ⟨hlead, htext⟩ := h l List.mem_cons_self
      rw [List.flatMap_cons, List.count_append, ih fun k hk => h k (List.mem_cons_of_mem _ hk),
        WrittenLine.chars, List.count_append, List.count_append, List.count_eq_zero.2 hlead,
        List.count_eq_zero.2 htext, List.length_cons, Nat.add_comm]
      rfl
  rw [text, hlines _ fun l h => ?_, List.length_reverse]
  exact ⟨hl.ended l (List.mem_reverse.1 h), hc.ended l (List.mem_reverse.1 h)⟩

theorem grows_line (w : Writer) :
    w.Grows w.line := Grows.chain (chain_line w : Chain (fun _ => True) w w.line)

/-- Finishing ends the pending line and drops lines at the end. -/
theorem text_finish_prefix (w : Writer) : w.finish.text <+: w.line.text := by
  refine ⟨(w.line.ended.take w.line.trailingBlanks).reverse.flatMap WrittenLine.chars, ?_⟩
  rw [text, ended_finish, ← List.flatMap_append, ← List.reverse_append, List.take_append_drop]
  rfl

theorem Clean.finish (hc : w.Clean) : w.finish.Clean :=
  have hline : w.line.Clean := hc.chain (chain_line w : Chain (fun _ => True) w w.line)
  ⟨hline.pending, fun l hl => hline.ended l (List.mem_of_mem_drop hl)⟩

theorem LeadsClean.finish (hl : w.LeadsClean) : w.finish.LeadsClean :=
  have hline : w.line.LeadsClean := hl.chain (chain_line w)
  ⟨hline.leads, fun l h => hline.ended l (List.mem_of_mem_drop h)⟩

theorem clean_new (maxBlankLines : Nat) : ({ maxBlankLines } : Writer).Clean :=
  ⟨List.not_mem_nil, fun _ h => absurd h List.not_mem_nil⟩

theorem leadsClean_new (maxBlankLines : Nat) : ({ maxBlankLines } : Writer).LeadsClean :=
  ⟨fun _ h => absurd h List.not_mem_nil, fun _ h => absurd h List.not_mem_nil⟩

end Writer

end Taskdown
