import Taskdown.Markup.Container
import Taskdown.Proofs.Markup.Spacing
import Taskdown.Proofs.Source.Coordinates

/-!
# Reading within a line

A cursor stands in a line of the text, behind some characters (`LineCursor.At`), and so its offset
is a boundary. In front of the marker of an item it is moved back by the columns that it has
skipped, and there are up to four columns to a tab. It comes to a boundary even so
(`SourceLine.In.exists_start`): a cursor in front of a marker stands behind as many bytes as it has
skipped columns, or is at the start of its line but for one byte (`LineCursor.Aligned`).

* `SourceLine.chain_ofText`: the lines of a text, one behind the other;
* `LineCursor.skips`: what is skipped of a line;
* `Markup.itemMark?_spec`, `Markup.quoteMark?_spec`, `Markup.taskMark?_spec`: marks are within the
  line;
* `Markup.matchAll_spec`: without a quote, a line needs nothing but indentation to belong to
  containers.
-/

namespace Taskdown

theorem Text.utf8Size_of_isSpaceTab {c : Char} (h : isSpaceTab c) : c.utf8Size = 1 := by
  simp only [isSpaceTab, Bool.or_eq_true, decide_eq_true_eq] at h
  rcases h with rfl | rfl <;> rfl

theorem Text.utf8Size_of_isLineEnd {c : Char} (h : isLineEnd c) : c.utf8Size = 1 := by
  simp only [isLineEnd, Bool.or_eq_true, decide_eq_true_eq] at h
  rcases h with rfl | rfl <;> rfl

/-! ## Lines -/

namespace SourceLine

/-- The line is a line of the text. Another one has ended where it starts, unless it is the first
    one. -/
structure In (cs : Text) (l : SourceLine) : Prop where
  exists_parts : ∃ before terminator behind, cs = before ++ (l.body ++ (terminator ++ behind)) ∧
    l.start = Text.width before ∧ l.stop = l.bodyStop + Text.width terminator ∧
    Text.FirstLine l.body terminator behind ∧ ∀ c ∈ before.getLast?, Text.isLineEnd c

/-- Lines that make up the rest of the text from an offset on. -/
inductive Chain (cs : Text) : Nat → List SourceLine → Prop
  | nil : Chain cs (Text.width cs) []
  | cons {l : SourceLine} {ls : List SourceLine} : l.In cs → Chain cs l.stop ls →
      Chain cs l.start (l :: ls)

theorem chain_listOf (cs rest before : Text) (hcs : cs = before ++ rest)
    (hbefore : rest ≠ [] → ∀ c ∈ before.getLast?, Text.isLineEnd c) :
    Chain cs (Text.width before) (listOf (Text.width before) (Text.lines rest)) := by
  induction rest using Text.byLines generalizing before with
  | nil =>
    rw [hcs, List.append_nil]
    exact .nil
  | line body terminator rest hfirst hlines ih =>
    have hne : body ++ terminator ++ rest ≠ [] :=
      fun h => hfirst.nonempty (List.append_eq_nil_iff.1 h).1
    have hbody : Text.chomp (body ++ terminator) = body :=
      Text.chomp_append hfirst.clean hfirst.ends
    have hstop : Text.width before + Text.width (body ++ terminator) =
        Text.width (before ++ (body ++ terminator)) :=
      (Text.width_append _ _).symm
    rw [hlines, listOf, hbody, hstop]
    refine .cons (l := ⟨Text.width before, body, Text.width (before ++ (body ++ terminator)), _⟩)
      ⟨before, terminator, rest, ?_, rfl, ?_, hfirst, hbefore hne⟩
      (ih (before ++ (body ++ terminator)) ?_ fun hrest c hc => ?_)
    · rw [hcs, List.append_assoc]
    · rw [← hstop, bodyStop, Text.width_append, Nat.add_assoc]
    · rw [hcs, List.append_assoc before]
    · -- Something follows, so the line has a terminator.
      have hends := hfirst.ends
      simp only [List.mem_cons, List.not_mem_nil, or_false] at hends
      rcases hends with rfl | rfl | rfl | rfl
      · exact absurd (hfirst.last rfl) hrest
      all_goals
        simp only [← List.append_assoc, List.getLast?_append, List.getLast?_cons_cons,
          List.getLast?_singleton, Option.some_or, Option.mem_some_iff] at hc
        rw [← hc]
        rfl

/-- The lines of a text make it up. -/
theorem chain_ofText (cs : Text) : Chain cs 0 (ofText cs) := chain_listOf cs cs [] rfl nofun

namespace In

variable {cs front middle rest : Text} {l : SourceLine}

/-- Within a line, there is a boundary between any two characters. -/
theorem isBoundary (h : l.In cs) (hbody : l.body = front ++ rest) :
    Text.isBoundary cs (l.start + Text.width front) := by
  obtain ⟨before, terminator, behind, rfl, hstart, -⟩ := h.exists_parts
  rw [hstart, hbody, ← Text.width_append, List.append_assoc, ← List.append_assoc before]
  exact Text.isBoundary_append_left _ _

theorem isBoundary_start (h : l.In cs) : Text.isBoundary cs l.start :=
  h.isBoundary (List.nil_append l.body).symm

theorem isBoundary_bodyStop (h : l.In cs) : Text.isBoundary cs l.bodyStop :=
  h.isBoundary (List.append_nil l.body).symm

theorem isBoundary_stop (h : l.In cs) : Text.isBoundary cs l.stop := by
  obtain ⟨before, terminator, behind, rfl, hstart, hstop, -⟩ := h.exists_parts
  rw [hstop, bodyStop, hstart, ← Text.width_append, ← Text.width_append, ← List.append_assoc l.body,
    ← List.append_assoc before, ← List.append_assoc before]
  exact Text.isBoundary_append_left _ _

theorem bodyStop_le (h : l.In cs) : l.bodyStop ≤ l.stop := by
  obtain ⟨before, terminator, behind, -, -, hstop, -⟩ := h.exists_parts
  rw [hstop]
  exact Nat.le_add_right _ _

theorem start_lt_stop (h : l.In cs) : l.start < l.stop := by
  obtain ⟨before, terminator, behind, -, -, hstop, hfirst, -⟩ := h.exists_parts
  have hpos : 0 < Text.width (l.body ++ terminator) :=
    Nat.pos_of_ne_zero fun hzero => hfirst.nonempty (Text.width_eq_zero_iff.1 hzero)
  rw [hstop, bodyStop, Nat.add_assoc, ← Text.width_append]
  exact Nat.lt_add_of_pos_right hpos

/-- What is cut out of a line is in its body. -/
theorem slice_eq (h : l.In cs) (hbody : l.body = front ++ (middle ++ rest)) :
    Text.slice cs (l.start + Text.width front) (l.start + Text.width (front ++ middle)) =
    middle := by
  obtain ⟨before, terminator, behind, rfl, hstart, -⟩ := h.exists_parts
  rw [hstart, hbody, Text.width_append front, ← Nat.add_assoc, ← Text.width_append before,
    List.append_assoc front, ← List.append_assoc before, List.append_assoc middle,
    Text.slice_append_append]

theorem newline_not_mem (h : l.In cs) : '\n' ∉ l.body := by
  obtain ⟨before, terminator, behind, -, -, -, hfirst, -⟩ := h.exists_parts
  exact fun hmem => absurd (hfirst.clean _ hmem) (by decide)

/-- Moving back over characters of one byte, by one byte more than the line has in front at most,
    comes to a boundary. On the way are characters of the line, and maybe the end of the line
    before. -/
theorem exists_start (h : l.In cs) (hbody : l.body = front ++ rest)
    (hnarrow : ∀ c ∈ front, c.utf8Size = 1) {n : Nat} (hn : n ≤ front.length + 1) :
    ∃ left right behind, cs = left ++ (right ++ (rest ++ behind)) ∧
      Text.width left = l.start + Text.width front - n ∧ l.start + Text.width front =
        Text.width left + Text.width right ∧
      ∀ c ∈ right, c ∈ front ∨ Text.isLineEnd c := by
  obtain ⟨before, terminator, behind, rfl, hstart, -, -, hlast⟩ := h.exists_parts
  have hwidth := Text.width_eq_length_of_forall hnarrow
  by_cases hle : n ≤ front.length
  · refine ⟨before ++ front.take (front.length - n), front.drop (front.length - n),
      terminator ++ behind, ?_, ?_, ?_, fun c hc => .inl (List.mem_of_mem_drop hc)⟩
    · rw [List.append_assoc before, ← List.append_assoc (front.take _), List.take_append_drop,
        hbody, List.append_assoc front]
    · rw [Text.width_append, hstart, hwidth,
        Text.width_eq_length_of_forall fun c hc => hnarrow c (List.mem_of_mem_take hc),
        List.length_take]
      omega
    · rw [Text.width_append, Nat.add_assoc, ← Text.width_append (front.take _),
        List.take_append_drop, hstart]
  · obtain rfl : n = front.length + 1 := by omega
    rcases List.eq_nil_or_concat before with rfl | ⟨lines, c, hconcat⟩
    · refine ⟨[], front, terminator ++ behind, ?_, ?_, ?_, fun c hc => .inl hc⟩
      · rw [hbody, List.append_assoc]
      · rw [hstart, hwidth, Text.width_nil]
        omega
      · rw [hstart]
    · obtain rfl : before = lines ++ [c] := hconcat.trans List.concat_eq_append
      have hc : Text.isLineEnd c := hlast c List.getLast?_concat
      have hcwidth := Text.utf8Size_of_isLineEnd hc
      rw [Text.width_append, Text.width_cons, Text.width_nil, hcwidth] at hstart
      refine ⟨lines, c :: front, terminator ++ behind, ?_, ?_, ?_, ?_⟩
      · rw [hbody, List.append_assoc lines, List.append_assoc front]
        rfl
      · omega
      · rw [Text.width_cons, hcwidth, hstart]
        omega
      · exact List.forall_mem_cons.2 ⟨.inr hc, fun d hd => .inl hd⟩

end In

end SourceLine

/-! ## Cursors -/

namespace LineCursor

/-- The cursor stands in the line behind `front`. -/
structure At (l : SourceLine) (front : Text) (c : LineCursor) : Prop where
  body : l.body = front ++ c.rest
  offset : c.offset = l.start + Text.width front

/-- The cursor stands behind characters of one byte, and has not used up some columns of the last
    one. Of a first character there are two columns left at most: no cursor stops behind the first
    column of a tab at the start of a line. -/
structure Aligned (front : Text) (c : LineCursor) : Prop where
  narrow : ∀ x ∈ front, x.utf8Size = 1
  spare_le : c.spare ≤ 3
  start : front = [] → c.spare = 0 ∧ c.column = 0
  first : front.length = 1 → c.spare ≤ 2

theorem at_atStart (l : SourceLine) : (atStart l).At l [] := ⟨rfl, rfl⟩

theorem aligned_atStart (l : SourceLine) : (atStart l).Aligned [] :=
  ⟨nofun, Nat.zero_le _, fun _ => ⟨rfl, rfl⟩, nofun⟩

/-- Some `n` columns of blanks are skipped, `limit` at most, and the blanks before the new cursor
    are `blanks`. -/
structure Skips (limit : Nat) (c : LineCursor) (n : Nat) (d : LineCursor) (blanks : Text) :
    Prop where
  rest : c.rest = blanks ++ d.rest
  blank : ∀ x ∈ blanks, Text.isSpaceTab x
  offset : d.offset = c.offset + blanks.length
  le : n ≤ limit
  spare_le : c.spare ≤ 3 → d.spare ≤ 3
  stays : blanks = [] → n + d.spare = c.spare ∧ d.column = c.column
  /-- A blank at the start of a line is a space or a whole tab. -/
  first : blanks.length = 1 → c.spare = 0 → c.column = 0 → n + d.spare = 1 ∨ n + d.spare = 4
  stops : n < limit → d.spare = 0 ∧ ∀ x ∈ d.rest.head?, Text.isSpaceTab x = false

theorem skips_skipText (cs : Text) (offset column limit : Nat) : ∃ blanks,
    Skips limit ⟨cs, offset, column, 0⟩ (skipText cs offset column limit).1
    (skipText cs offset column limit).2 blanks := by
  fun_induction skipText cs offset column limit with
  | case1 cs offset column limit n d h ih =>
    obtain ⟨blanks, ih⟩ := ih
    rw [h] at ih
    have hoffset := ih.offset
    have hle := ih.le
    refine ⟨' ' :: blanks, congrArg _ ih.rest, List.forall_mem_cons.2 ⟨rfl, ih.blank⟩, ?_, ?_,
      ih.spare_le, nofun, ?_, ?_⟩
    · dsimp only at hoffset ⊢
      rw [hoffset, List.length_cons]
      omega
    · dsimp only at hle ⊢
      omega
    · intro hlength _ _
      have hstays := (ih.stays (List.length_eq_zero_iff.1 (Nat.succ.inj hlength))).1
      dsimp only at hstays ⊢
      omega
    · exact fun hlt => ih.stops (Nat.succ_lt_succ_iff.1 hlt)
  | case2 cs offset column limit wide hwide n d h ih =>
    obtain ⟨blanks, ih⟩ := ih
    rw [h] at ih
    have hoffset := ih.offset
    have hle := ih.le
    refine ⟨'\t' :: blanks, congrArg _ ih.rest, List.forall_mem_cons.2 ⟨rfl, ih.blank⟩, ?_, ?_,
      ih.spare_le, nofun, ?_, ?_⟩
    · dsimp only at hoffset ⊢
      rw [hoffset, List.length_cons]
      omega
    · dsimp only at hle ⊢
      omega
    · intro hlength _ hcolumn
      have hstays := (ih.stays (List.length_eq_zero_iff.1 (Nat.succ.inj hlength))).1
      dsimp only at hstays hcolumn ⊢
      omega
    · intro hlt
      dsimp only at hlt
      exact ih.stops (by dsimp only; omega)
  | case3 cs offset column limit wide hwide =>
    refine ⟨['\t'], rfl, List.forall_mem_singleton.2 rfl, rfl, Nat.le_refl _, ?_, nofun, ?_,
      fun hlt => ?_⟩
    · dsimp only
      omega
    · intro _ _ hcolumn
      dsimp only at hcolumn ⊢
      omega
    · exact absurd hlt (Nat.lt_irrefl _)
  | case4 cs offset column limit hspace htab =>
    refine ⟨[], rfl, nofun, rfl, Nat.zero_le _, fun _ => Nat.zero_le _, fun _ => ⟨rfl, rfl⟩, nofun,
      fun hlt => ⟨rfl, ?_⟩⟩
    obtain ⟨limit, rfl⟩ := Nat.exists_eq_succ_of_ne_zero (Nat.ne_of_gt hlt)
    intro x hx
    obtain ⟨rest, rfl⟩ := List.head?_eq_some_iff.1 hx
    rw [Text.isSpaceTab, Bool.or_eq_false_iff, decide_eq_false_iff_not, decide_eq_false_iff_not]
    constructor
    · rintro rfl
      exact hspace rest limit rfl rfl
    · rintro rfl
      exact htab rest limit rfl rfl

theorem skips (c : LineCursor) (limit : Nat) :
    ∃ blanks, Skips limit c (c.skip limit).1 (c.skip limit).2 blanks := by
  rw [skip]
  split
  · next hle =>
    refine ⟨[], rfl, nofun, rfl, Nat.le_refl _, fun h => ?_, fun _ => ⟨?_, rfl⟩,
      nofun, fun hlt => ?_⟩
    · dsimp only
      omega
    · dsimp only
      omega
    · exact absurd hlt (Nat.lt_irrefl _)
  · next hle =>
    obtain ⟨blanks, h⟩ := skips_skipText c.rest c.offset c.column (limit - c.spare)
    have hbound := h.le
    refine ⟨blanks, h.rest, h.blank, h.offset, ?_, fun _ => h.spare_le (Nat.zero_le _),
      fun hnil => ?_, ?_, ?_⟩
    · dsimp only
      omega
    · have hstays := h.stays hnil
      dsimp only at hstays ⊢
      omega
    · intro hlength hspare hcolumn
      have hfirst := h.first hlength rfl hcolumn
      dsimp only at hfirst ⊢
      omega
    · intro hlt
      dsimp only at hlt
      exact h.stops (by omega)

section

variable {l : SourceLine} {front blanks : Text} {c d : LineCursor} {limit n : Nat}

theorem At.skip (h : c.At l front) (hs : Skips limit c n d blanks) : d.At l (front ++ blanks) := by
  have hwidth := Text.width_eq_length_of_forall fun x hx =>
    Text.utf8Size_of_isSpaceTab (hs.blank x hx)
  refine ⟨?_, ?_⟩
  · rw [h.body, hs.rest, List.append_assoc]
  · rw [hs.offset, h.offset, Text.width_append, hwidth, Nat.add_assoc]

/-- Skipping keeps the cursor aligned, unless a single column is skipped at the start of a line. -/
theorem Aligned.skip (h : c.Aligned front) (hs : Skips limit c n d blanks)
    (hlimit : front = [] → limit ≠ 1) : d.Aligned (front ++ blanks) := by
  have hspare := hs.spare_le h.spare_le
  refine ⟨fun x hx => ?_, hspare, fun hnil => ?_, fun hlength => ?_⟩
  · rcases List.mem_append.1 hx with hx | hx
    · exact h.narrow x hx
    · exact Text.utf8Size_of_isSpaceTab (hs.blank x hx)
  · obtain ⟨rfl, hblanks⟩ := List.append_eq_nil_iff.1 hnil
    have hstart := h.start rfl
    have hstays := hs.stays hblanks
    omega
  · rw [List.length_append] at hlength
    have hle := hs.le
    by_cases hfront : front.length = 1
    · have hfirst := h.first hfront
      have hstays := hs.stays (List.length_eq_zero_iff.1 (by omega))
      omega
    · have hnil : front = [] := List.length_eq_zero_iff.1 (by omega)
      have hstart := h.start hnil
      have hone := hs.first (by omega) hstart.1 hstart.2
      have hne := hlimit hnil
      by_cases hlt : n < limit
      · rw [(hs.stops hlt).1]
        exact Nat.zero_le _
      · omega

/-- A cursor in front of a marker stands behind as many bytes as it has skipped columns, but for
    one. -/
theorem Aligned.skipped_le (h : c.Aligned front) (hs : Skips 4 c n d blanks) (hn : n < 4) :
    n ≤ (front ++ blanks).length + 1 := by
  rw [List.length_append]
  have hspare := (hs.stops hn).1
  by_cases hblanks : blanks = []
  · have hstays := hs.stays hblanks
    by_cases hfront : front = []
    · have hstart := h.start hfront
      omega
    · have hpos := List.length_pos_iff.2 hfront
      by_cases hone : front.length = 1
      · have hfirst := h.first hone
        omega
      · omega
  · have hpos := List.length_pos_iff.2 hblanks
    by_cases hfront : front = []
    · have hstart := h.start hfront
      by_cases hone : blanks.length = 1
      · have hfirst := hs.first hone hstart.1 hstart.2
        omega
      · omega
    · have hpos' := List.length_pos_iff.2 hfront
      omega

/-- Nothing is skipped if there is nothing to skip. -/
theorem fst_skip_eq_zero (hspare : c.spare = 0)
    (hhead : ∀ x ∈ c.rest.head?, Text.isSpaceTab x = false) (limit : Nat) :
    (c.skip limit).1 = 0 := by
  obtain ⟨blanks, hs⟩ := c.skips limit
  have hnil : blanks = [] := by
    cases blanks with
    | nil => rfl
    | cons x blanks =>
      have hx := hhead x (by rw [hs.rest]; rfl)
      rw [hs.blank x List.mem_cons_self] at hx
      cases hx
  have hstays := hs.stays hnil
  omega

theorem At.forward (h : c.At l front) {middle rest : Text} (hrest : c.rest = middle ++ rest)
    (hnarrow : ∀ x ∈ middle, x.utf8Size = 1) :
    (c.forward middle.length).At l (front ++ middle) := by
  refine ⟨?_, ?_⟩
  · rw [LineCursor.forward, hrest, List.drop_left, h.body, hrest, List.append_assoc]
  · rw [Text.width_append, Text.width_eq_length_of_forall hnarrow, ← Nat.add_assoc, ← h.offset]
    rfl

theorem Aligned.forward (h : c.Aligned front) {middle : Text}
    (hnarrow : ∀ x ∈ middle, x.utf8Size = 1) (hne : middle ≠ []) :
    (c.forward middle.length).Aligned (front ++ middle) := by
  have hpos := List.length_pos_iff.2 hne
  refine ⟨fun x hx => ?_, h.spare_le, fun hnil => absurd (List.append_eq_nil_iff.1 hnil).2 hne,
    fun hlength => ?_⟩
  · exact (List.mem_append.1 hx).elim (h.narrow x) (hnarrow x)
  · rw [List.length_append] at hlength
    have hspare := (h.start (List.length_eq_zero_iff.1 (by omega))).1
    change c.spare ≤ 2
    omega

theorem At.exists_skipAll (h : c.At l front) : ∃ blanks, c.skipAll.At l (front ++ blanks) ∧
    c.rest = blanks ++ c.skipAll.rest ∧ ∀ x ∈ blanks, Text.isSpaceTab x := by
  have hrest := List.takeWhile_append_dropWhile (p := Text.isSpaceTab) (l := c.rest)
  have hblank : ∀ x ∈ c.rest.takeWhile Text.isSpaceTab, Text.isSpaceTab x :=
    fun x hx => List.mem_takeWhile_imp hx
  generalize hblanks : c.rest.takeWhile Text.isSpaceTab = blanks at hrest hblank
  generalize c.rest.dropWhile Text.isSpaceTab = rest at hrest
  have hskip : c.skipAll = ⟨rest, c.offset + blanks.length, c.column + blanks.length, 0⟩ := by
    rw [skipAll, hblanks, ← hrest, List.drop_left]
  rw [hskip]
  refine ⟨blanks, ⟨?_, ?_⟩, hrest.symm, hblank⟩
  · rw [h.body, ← hrest, List.append_assoc]
  · rw [Text.width_append, Text.width_eq_length_of_forall fun x hx =>
      Text.utf8Size_of_isSpaceTab (hblank x hx), ← Nat.add_assoc, ← h.offset]

end

section

variable {cs front : Text} {l : SourceLine} {c : LineCursor}

theorem At.isBoundary (h : c.At l front) (hl : l.In cs) : Text.isBoundary cs c.offset := by
  rw [h.offset]
  exact hl.isBoundary h.body

theorem At.le_offset (h : c.At l front) : l.start ≤ c.offset := by
  rw [h.offset]
  exact Nat.le_add_right _ _

theorem At.offset_le (h : c.At l front) : c.offset ≤ l.bodyStop := by
  rw [SourceLine.bodyStop, h.offset, h.body, Text.width_append, ← Nat.add_assoc]
  exact Nat.le_add_right _ _

end

end LineCursor

/-! ## Marks -/

namespace Markup

theorem utf8Size_of_isLineBlank {c : Char} (h : isLineBlank c) : c.utf8Size = 1 := by
  simp only [isLineBlank, Bool.or_eq_true, decide_eq_true_eq] at h
  rcases h with ((rfl | rfl) | rfl) | rfl <;> rfl

theorem mem_digits_of_isDigit {c : Char} (h : Text.isDigit c) : c ∈ "0123456789".toList := by
  have hall : (List.range' 48 10).all fun n => "0123456789".toList.contains (Char.ofNat n) := by
    decide
  have hbounds : '0' ≤ c ∧ c ≤ '9' :=
    (Bool.and_eq_true_iff.1 h).imp of_decide_eq_true of_decide_eq_true
  have hlow : 48 ≤ c.toNat := hbounds.1
  have hhigh : c.toNat ≤ 57 := hbounds.2
  have hc := List.all_eq_true.1 hall c.toNat (List.mem_range'_1.2 ⟨hlow, by omega⟩)
  rw [Char.ofNat_toNat] at hc
  exact List.contains_iff_mem.1 hc

/-- A number has no more digits than are written. -/
theorem ofDecimal_lt {digits : Text} (h : ∀ c ∈ digits, Text.isDigit c) :
    Text.ofDecimal digits < Nat.pow 10 digits.length := by
  suffices hfold : ∀ n, digits.foldl (fun n c => 10 * n + (c.toNat - '0'.toNat)) n + 1 ≤
      (n + 1) * Nat.pow 10 digits.length by
    have := hfold 0
    rw [Nat.zero_add, Nat.one_mul] at this
    exact this
  induction digits with
  | nil => exact fun n => Nat.le_of_eq (Nat.mul_one _).symm
  | cons c digits ih =>
    intro n
    obtain ⟨hc, hdigits⟩ := List.forall_mem_cons.1 h
    have hhigh : c.toNat ≤ 57 := (Bool.and_eq_true_iff.1 hc).2 |> of_decide_eq_true
    have hstep : 10 * n + (c.toNat - 48) + 1 ≤ (n + 1) * 10 := by omega
    have hpow : (n + 1) * 10 * Nat.pow 10 digits.length = (n + 1) *
        Nat.pow 10 (c :: digits).length := by
      rw [Nat.mul_assoc, Nat.mul_comm 10]
      rfl
    rw [List.foldl_cons, ← hpow]
    exact Nat.le_trans (ih hdigits _) (Nat.mul_le_mul_right _ hstep)

/-- The mark at the front of a text is the marker of an item. -/
theorem listMark?_spec {cs : Text} {m : ListMark} (h : listMark? cs = some m) :
    ∃ marker rest, cs = marker ++ rest ∧ Text.IsItemMarker marker ∧ m.width = marker.length ∧
    m.number ≤ 999999999 := by
  cases cs with
  | nil => cases h
  | cons c cs =>
    rw [listMark?] at h
    split at h
    · next hbullet =>
      obtain rfl := Option.some.inj h
      refine ⟨[c], cs, rfl, .bullet ?_, rfl, Nat.zero_le _⟩
      simp only [isBullet, Bool.or_eq_true, decide_eq_true_eq] at hbullet
      rcases hbullet with (rfl | rfl) | rfl <;> decide
    · obtain ⟨behind, hbehind⟩ := List.takeWhile_prefix Text.isDigit (l := c :: cs)
      have hdigits : ∀ x ∈ (c :: cs).takeWhile Text.isDigit, Text.isDigit x :=
        fun x => List.mem_takeWhile_imp
      generalize (c :: cs).takeWhile Text.isDigit = digits at h hbehind hdigits
      rw [← hbehind] at h ⊢
      dsimp only at h
      rw [List.drop_left] at h
      cases behind with
      | nil => cases h
      | cons d rest =>
        dsimp only at h
        split at h
        · next hform =>
          obtain rfl := Option.some.inj h
          obtain ⟨hpos, hlength, hd⟩ := hform
          refine ⟨digits ++ [d], rest, List.append_cons ..,
            .number (List.length_pos_iff.1 hpos) hlength
              (fun x hx => mem_digits_of_isDigit (hdigits x hx)) (by simpa using hd), ?_, ?_⟩
          · rw [List.length_append, List.length_singleton]
          · have hlt := Nat.lt_of_lt_of_le (ofDecimal_lt hdigits)
              (Nat.pow_le_pow_right (by decide) hlength)
            exact Nat.le_of_lt_succ hlt
        · cases h

section

variable {l : SourceLine} {front : Text} {c d e : LineCursor}

/-- The mark of a quote is in the line. -/
theorem quoteMark?_spec (h : quoteMark? c = some e) (hat : c.At l front)
    (haligned : c.Aligned front) :
    c.offset < e.offset ∧ ∃ front', e.At l front' ∧ e.Aligned front' := by
  rw [quoteMark?] at h
  split at h
  · next hhead =>
    obtain ⟨rest, hrest⟩ := List.head?_eq_some_iff.1 hhead
    obtain rfl := Option.some.inj h
    have hmark : ∀ x ∈ ['>'], x.utf8Size = 1 := List.forall_mem_singleton.2 rfl
    have hrest : c.rest = ['>'] ++ rest := hrest
    have hat' := hat.forward hrest hmark
    have haligned' := haligned.forward hmark (List.cons_ne_nil _ _)
    obtain ⟨blanks, hs⟩ := (c.forward 1).skips 1
    refine ⟨?_, _, hat'.skip hs, haligned'.skip hs fun hnil => ?_⟩
    · rw [hs.offset]
      change c.offset < c.offset + 1 + _
      omega
    · exact absurd (List.append_eq_nil_iff.1 hnil).2 (List.cons_ne_nil _ _)
  · cases h

/-- The mark of an item is a marker, and is in the line. Behind it, the next mark stands at once, if
    there is one. -/
theorem itemMark?_spec {indent content : Nat} {m : ListMark}
    (h : itemMark? c indent = some (m, e, content)) (hat : c.At l front)
    (haligned : c.Aligned front) :
    ∃ marker rest front', c.rest = marker ++ rest ∧ Text.IsItemMarker marker ∧
    m.number ≤ 999999999 ∧ content ≠ 1 ∧
      e.At l front' ∧ e.Aligned front' ∧ c.offset + Text.width marker ≤ e.offset ∧
      (isBlankLine e.rest ∨ (e.skip 4).1 = 4 ∨ (e.skip 4).1 = 0) := by
  rw [itemMark?] at h
  obtain ⟨m', hmark, h⟩ := Option.bind_eq_some_iff.1 h
  obtain ⟨marker, rest, hrest, hmarker, hwidth, hnumber⟩ := listMark?_spec hmark
  have hne : marker ≠ [] :=
    fun hnil => absurd hmarker.width_pos (by rw [hnil]; exact Nat.lt_irrefl _)
  have hat' := hat.forward hrest hmarker.utf8Size_eq
  have haligned' := haligned.forward hmarker.utf8Size_eq hne
  have hoffset : (c.forward marker.length).offset = c.offset + Text.width marker := by
    rw [hmarker.width_eq_length]
    rfl
  have hpos := List.length_pos_iff.2 hne
  rw [hwidth] at h
  generalize c.forward marker.length = b at h hat' haligned' hoffset
  obtain ⟨blanks, hs⟩ := b.skips 1
  have hnil : front ++ marker ≠ [] := fun hnil => hne (List.append_eq_nil_iff.1 hnil).2
  have hat'' := hat'.skip hs
  have haligned'' := haligned'.skip hs fun h => absurd h hnil
  have hle := hs.offset
  generalize b.skip 1 = p at h hs hat'' haligned'' hle
  obtain ⟨n, d⟩ := p
  dsimp only at h hs hat'' haligned'' hle
  split at h
  · cases h
  · split at h
    · cases h
    · split at h
      · next hblank =>
        obtain ⟨rfl, rfl, rfl⟩ := Prod.mk.inj (Option.some.inj h) |>.imp id Prod.mk.inj
        exact ⟨marker, rest, _, hrest, hmarker, hnumber, by omega, hat'', haligned'',
          by omega, .inl hblank⟩
      · obtain ⟨blanks', hs'⟩ := d.skips 4
        split at h
        · next hgap =>
          obtain ⟨rfl, rfl, rfl⟩ := Prod.mk.inj (Option.some.inj h) |>.imp id Prod.mk.inj
          refine ⟨marker, rest, _, hrest, hmarker, hnumber, by omega, hat'', haligned'',
            by omega, .inr (.inl ?_)⟩
          rw [hgap]
        · next gap f hgap hskip =>
          obtain ⟨rfl, rfl, rfl⟩ := Prod.mk.inj (Option.some.inj h) |>.imp id Prod.mk.inj
          rw [hskip] at hs'
          dsimp only at hs'
          have hlt : gap < 4 := by
            have := hs'.le
            have : gap ≠ 4 := hgap
            omega
          have hoffset' := hs'.offset
          refine ⟨marker, rest, _, hrest, hmarker, hnumber, by omega, hat''.skip hs',
            haligned''.skip hs' fun _ => by decide, by omega, .inr (.inr ?_)⟩
          exact LineCursor.fst_skip_eq_zero (hs'.stops hlt).1 (hs'.stops hlt).2 4

/-- The marker of a task is in the line. -/
theorem taskMark?_spec {done : Bool} (h : taskMark? c = some (done, e)) (hat : c.At l front) :
    ∃ middle, c.rest = middle ++ e.rest ∧ e.At l (front ++ middle) := by
  rw [taskMark?] at h
  obtain ⟨blanks, hs⟩ := c.skips 3
  have hat' := hat.skip hs
  generalize (c.skip 3).2 = d at h hs hat'
  split at h
  · next x cs hrest =>
    split at h
    · next hform =>
      obtain ⟨-, rfl⟩ := Prod.mk.inj (Option.some.inj h)
      have hx : x.utf8Size = 1 := by
        rcases hform.1 with hx | rfl | rfl
        · exact utf8Size_of_isLineBlank hx
        · rfl
        · rfl
      have hnarrow : ∀ y ∈ ['[', x, ']'], y.utf8Size = 1 :=
        List.forall_mem_cons.2 ⟨rfl, List.forall_mem_cons.2 ⟨hx, List.forall_mem_singleton.2 rfl⟩⟩
      have hrest : d.rest = ['[', x, ']'] ++ cs := hrest
      have hat'' := hat'.forward hrest hnarrow
      refine ⟨blanks ++ ['[', x, ']'], ?_, by rw [← List.append_assoc]; exact hat''⟩
      rw [hs.rest, hrest, LineCursor.forward, hrest, List.append_assoc]
      rfl
    · cases h
  · cases h

/-- To belong to a container, a line needs its marks; for an item these are blanks. -/
theorem matches?_spec {k : Container} (h : k.matches? c = some d) (hat : c.At l front)
    (haligned : c.Aligned front) (hk : k ≠ .item 1) : ∃ front', d.At l front' ∧ d.Aligned front' ∧
      (k ≠ .quote → (∀ x ∈ front, Text.isSpaceTab x) → ∀ x ∈ front', Text.isSpaceTab x) := by
  cases k with
  | quote =>
    obtain ⟨blanks, hs⟩ := c.skips 3
    obtain ⟨-, front', hat', haligned'⟩ :=
      quoteMark?_spec h (hat.skip hs) (haligned.skip hs fun _ => by decide)
    exact ⟨front', hat', haligned', fun hne => absurd rfl hne⟩
  | list mark number tight =>
    obtain rfl := Option.some.inj h
    exact ⟨front, hat, haligned, fun _ => id⟩
  | item indent =>
    obtain ⟨blanks, hs⟩ := c.skips indent
    rw [Container.matches?] at h
    generalize c.skip indent = p at h hs
    obtain ⟨n, e⟩ := p
    dsimp only at h hs
    split at h
    · obtain rfl := Option.some.inj h
      refine ⟨front ++ blanks, hat.skip hs, haligned.skip hs fun _ hone => hk (congrArg _ hone),
        fun _ hfront => ?_⟩
      exact List.forall_mem_append.2 ⟨hfront, hs.blank⟩
    · cases h

/-- Without a quote around it, a line needs nothing but blanks to belong to containers. -/
theorem matchAll_spec {ks : List Container} (hat : c.At l front) (haligned : c.Aligned front)
    (hks : ∀ k ∈ ks, k ≠ .item 1) : (matchAll c ks).1 ≤ ks.length ∧
      ∃ front', (matchAll c ks).2.At l front' ∧ (matchAll c ks).2.Aligned front' ∧
        ((∀ k ∈ ks.take (matchAll c ks).1, k ≠ .quote) → (∀ x ∈ front, Text.isSpaceTab x) →
          ∀ x ∈ front', Text.isSpaceTab x) := by
  induction ks generalizing c front with
  | nil => exact ⟨Nat.le_refl _, front, hat, haligned, fun _ => id⟩
  | cons k ks ih =>
    obtain ⟨hk, hks⟩ := List.forall_mem_cons.1 hks
    rw [matchAll]
    cases hmatches : k.matches? c with
    | none => exact ⟨Nat.zero_le _, front, hat, haligned, fun _ => id⟩
    | some d =>
      obtain ⟨front', hat', haligned', hblank⟩ := matches?_spec hmatches hat haligned hk
      obtain ⟨hle, front'', hat'', haligned'', hblank'⟩ := ih hat' haligned' hks
      refine ⟨Nat.succ_le_succ hle, front'', hat'', haligned'', fun hquote hfront => ?_⟩
      obtain ⟨hne, hquote⟩ := List.forall_mem_cons.1 hquote
      exact hblank' hquote (hblank hne hfront)

end

end Markup

end Taskdown
