import Mathlib.Data.List.TakeWhile
import Taskdown.Proofs.Source.Derivation
import Taskdown.Source.Coordinates

/-!
# Coordinates and lines

The lines of a text and the coordinates of its offsets are found in different ways: the lines by
cutting the text, the coordinates by counting the places behind terminators and by looking for the
next terminator. They agree. The cut behind the first line (`Text.FirstLine`) is what both have in
common, and a text is gone over line by line from it (`Text.byLines`).

* `Source.lineStarts_eq`: the places behind terminators are the starts of the lines, and the end of
  the text unless its last line goes on;
* `Source.lineStartsTo_eq_take`: before an offset are the starts of its line and of all lines before
  that one;
* `Source.nextWhere_of_line`: the next terminator is that of the line, or the second half of it;
* `Source.lineColumn_precedes`: coordinates grow with the offset.
-/

namespace Taskdown

namespace Text

variable {cs : Text} {n : Nat}

/-! ## The boundary before an offset -/

theorem isBoundary_cons_add (c : Char) :
    isBoundary (c :: cs) (c.utf8Size + n) ↔ isBoundary cs n := by
  rw [isBoundary_iff, isBoundary_iff]
  constructor
  · rintro ⟨before, behind, heq, hwidth⟩
    have hc := Char.utf8Size_pos c
    cases before with
    | nil => rw [width_nil] at hwidth; omega
    | cons d before =>
      obtain ⟨rfl, hcs⟩ := List.cons.inj heq
      rw [width_cons] at hwidth
      exact ⟨before, behind, hcs, by omega⟩
  · rintro ⟨before, behind, rfl, rfl⟩
    exact ⟨c :: before, behind, rfl, rfl⟩

theorem isBoundary_floorBoundary (cs : Text) (n : Nat) : isBoundary cs (floorBoundary cs n) := by
  induction cs generalizing n with
  | nil => rfl
  | cons c cs ih =>
    rw [floorBoundary]
    split
    · exact (isBoundary_cons_add c).2 (ih _)
    · rfl

theorem floorBoundary_le (cs : Text) (n : Nat) : floorBoundary cs n ≤ n := by
  induction cs generalizing n with
  | nil => exact Nat.zero_le n
  | cons c cs ih =>
    rw [floorBoundary]
    split
    · have := ih (n - c.utf8Size)
      omega
    · exact Nat.zero_le n

/-- No other boundary lies between. -/
theorem le_floorBoundary {m : Nat} (hm : isBoundary cs m) (hle : m ≤ n) :
    m ≤ floorBoundary cs n := by
  obtain ⟨before, behind, rfl, rfl⟩ := isBoundary_iff.1 hm
  clear hm
  induction before generalizing n with
  | nil => exact Nat.zero_le _
  | cons c before ih =>
    rw [width_cons] at hle
    rw [List.cons_append, floorBoundary, if_pos (by omega), width_cons]
    have := @ih (n - c.utf8Size) (by omega)
    omega

theorem floorBoundary_of_isBoundary (h : isBoundary cs n) : floorBoundary cs n = n :=
  Nat.le_antisymm (floorBoundary_le cs n) (le_floorBoundary h (Nat.le_refl n))

/-! ## Line by line -/

/-- Does the last line of a text have no terminator? The empty text has no last line. -/
def isOpen (cs : Text) : Bool := cs.getLast?.any (!isLineEnd ·)

/-- The cut of a text behind its first line: the line has a terminator unless nothing follows, and a
    pair of `\r` and `\n` is not cut. -/
structure FirstLine (body terminator rest : Text) : Prop where
  nonempty : body ++ terminator ≠ []
  clean : ∀ c ∈ body, isLineEnd c = false
  ends : terminator ∈ ([[], ['\r'], ['\n'], ['\r', '\n']] : List Text)
  last : terminator = [] → rest = []
  lone : terminator = ['\r'] → rest.head? ≠ some '\n'

variable {body terminator rest : Text}

theorem exists_firstLine (h : cs ≠ []) : ∃ body terminator rest, FirstLine body terminator rest ∧
    cs = body ++ terminator ++ rest ∧ lines cs = (body ++ terminator) :: lines rest := by
  fun_induction lines cs with
  | case1 => exact absurd rfl h
  | case2 cs ih =>
    exact ⟨[], ['\r', '\n'], cs, ⟨by simp, by simp, by simp, by simp, by simp⟩, rfl, rfl⟩
  | case3 c cs hpair hc ih =>
    refine ⟨[], [c], cs, ⟨by simp, by simp, ?_, by simp, ?_⟩, rfl, rfl⟩
    · simp only [isLineEnd, Bool.or_eq_true, decide_eq_true_eq] at hc
      rcases hc with rfl | rfl <;> simp
    · intro hreturn hnewline
      obtain ⟨rest, rfl⟩ := List.head?_eq_some_iff.1 hnewline
      exact hpair rest (List.cons.inj hreturn).1 rfl
  | case4 c cs _ hc hl ih =>
    have hcs : cs = [] := by
      rw [← flatten_lines cs, hl]
      rfl
    subst hcs
    exact ⟨[c], [], [], ⟨by simp, by simpa using hc, by simp, fun _ => rfl, by simp⟩, rfl, rfl⟩
  | case5 c cs _ hc l ls hl ih =>
    have hcs : cs ≠ [] := by
      rintro rfl
      cases hl
    obtain ⟨body, terminator, rest, hfirst, heq, hlines⟩ := ih hcs
    rw [hl] at hlines
    obtain ⟨rfl, rfl⟩ := List.cons.inj hlines
    refine ⟨c :: body, terminator, rest, ⟨by simp, ?_, hfirst.ends, hfirst.last, hfirst.lone⟩, ?_,
      rfl⟩
    · exact List.forall_mem_cons.2 ⟨by simpa using hc, hfirst.clean⟩
    · rw [heq]
      rfl

/-- A terminator is cut in two between `\r` and `\n` only. -/
theorem eq_nil_or_pair_of_append {left right : Text}
    (h : left ++ right ∈ ([[], ['\r'], ['\n'], ['\r', '\n']] : List Text))
    (hright : right ≠ []) : left = [] ∨ left = ['\r'] ∧ right = ['\n'] := by
  rcases left with _ | ⟨c, _ | ⟨d, left⟩⟩
  · exact .inl rfl
  · simp_all
  · simp_all

/-- A property of all texts is shown line by line. -/
@[elab_as_elim]
theorem byLines {motive : Text → Prop} (nil : motive [])
    (line : ∀ body terminator rest, FirstLine body terminator rest →
      lines (body ++ terminator ++ rest) = (body ++ terminator) :: lines rest → motive rest →
      motive (body ++ terminator ++ rest)) (cs : Text) : motive cs := by
  by_cases h : cs = []
  · exact h ▸ nil
  · obtain ⟨body, terminator, rest, hfirst, heq, hlines⟩ := exists_firstLine h
    have hlength : rest.length < cs.length := by
      have := List.length_pos_iff.2 hfirst.nonempty
      rw [heq, List.length_append]
      omega
    rw [heq] at hlines ⊢
    exact line body terminator rest hfirst hlines (byLines nil line rest)
termination_by cs.length

/-- What the last line of a text is does not depend on the lines before it. -/
theorem FirstLine.isOpen_append (h : FirstLine body terminator rest) :
    isOpen (body ++ terminator ++ rest) = if terminator = [] then true else isOpen rest := by
  obtain ⟨hnonempty, hbody, hterminator, hlast, -⟩ := h
  split
  · next hnil =>
    rw [hlast hnil, hnil, List.append_nil, List.append_nil, isOpen]
    rw [hnil, List.append_nil] at hnonempty
    rw [List.getLast?_eq_some_getLast hnonempty, Option.any_some,
      hbody _ (List.getLast_mem hnonempty)]
    rfl
  · next hnil =>
    rw [isOpen, isOpen, List.getLast?_append]
    cases hrest : rest.getLast? with
    | some c => rfl
    | none =>
      rw [Option.none_or]
      simp only [List.mem_cons, List.not_mem_nil, or_false] at hterminator
      rcases hterminator with rfl | rfl | rfl | rfl
      · exact absurd rfl hnil
      all_goals simp [isLineEnd]

/-- Behind the body of the first line comes a terminator, or nothing. -/
theorem FirstLine.isLineEnd_head (h : FirstLine body terminator rest) :
    ∀ c ∈ (terminator ++ rest).head?, isLineEnd c = true := by
  intro c hc
  have hends := h.ends
  simp only [List.mem_cons, List.not_mem_nil, or_false] at hends
  rcases hends with rfl | rfl | rfl | rfl
  · rw [h.last rfl] at hc
    cases hc
  all_goals
    obtain rfl := Option.some.inj hc
    rfl

/-- If a line follows, the first line ends with a terminator. -/
theorem FirstLine.isLineEnd_getLast (h : FirstLine body terminator rest) (hrest : rest ≠ [])
    (before : Text) : ∀ c ∈ (before ++ (body ++ terminator)).getLast?, isLineEnd c = true := by
  intro c hc
  have hends := h.ends
  simp only [List.mem_cons, List.not_mem_nil, or_false] at hends
  rw [← List.append_assoc, List.getLast?_append] at hc
  rcases hends with rfl | rfl | rfl | rfl
  · exact absurd (h.last rfl) hrest
  all_goals
    obtain rfl := Option.some.inj hc
    rfl

end Text

/-! ## Where lines start -/

section

variable {body terminator rest : Text} {offset : Nat}

/-- No line starts behind a text without terminators. -/
theorem Source.lineStartsFrom_append_of_clean {cs : Text}
    (h : ∀ c ∈ body, Text.isLineEnd c = false) :
    Source.lineStartsFrom offset (body ++ cs) = Source.lineStartsFrom (offset + Text.width body)
    cs := by
  induction body generalizing offset with
  | nil => rfl
  | cons c body ih =>
    obtain ⟨hc, hbody⟩ := List.forall_mem_cons.1 h
    have hend : Text.endsLine c (body ++ cs) = false := by
      rw [Text.isLineEnd, Bool.or_eq_false_iff] at hc
      rw [Text.endsLine, hc.1, hc.2, Bool.false_and, Bool.or_false]
    rw [List.cons_append, Source.lineStartsFrom, hend, if_neg Bool.false_ne_true,
      ih hbody, Text.width_cons, Nat.add_assoc]

/-- Behind the first line the next one starts, if the first one has a terminator. -/
theorem Text.FirstLine.lineStartsFrom_eq (h : FirstLine body terminator rest) :
    Source.lineStartsFrom offset (body ++ terminator ++ rest) =
      if terminator = [] then []
      else (offset + width (body ++ terminator)) ::
        Source.lineStartsFrom (offset + width (body ++ terminator)) rest := by
  rw [List.append_assoc, Source.lineStartsFrom_append_of_clean h.clean,
    width_append, ← Nat.add_assoc]
  have hlone := h.lone
  have hends := h.ends
  simp only [List.mem_cons, List.not_mem_nil, or_false] at hends
  rcases hends with rfl | rfl | rfl | rfl
  · rw [h.last rfl]
    rfl
  · have hend : endsLine '\r' rest = true := by
      rw [endsLine, decide_eq_true (hlone rfl)]
      rfl
    rw [List.singleton_append, Source.lineStartsFrom, hend]
    rfl
  · rfl
  · rfl

/-- The places behind terminators are the starts of the lines, and the end of the text unless its
    last line goes on. -/
theorem Source.lineStarts_eq (v : View) (cs : Text) (offset : Nat) :
    offset :: Source.lineStartsFrom offset cs =
      (v.tile offset (Text.lines cs)).map View.start ++
        if Text.isOpen cs then [] else [offset + Text.width cs] := by
  induction cs using Text.byLines generalizing offset with
  | nil => rfl
  | line body terminator rest hfirst hlines ih =>
    rw [hlines, View.tile, List.map_cons, hfirst.lineStartsFrom_eq, hfirst.isOpen_append,
      List.cons_append]
    split
    · next hnil =>
      rw [hfirst.last hnil]
      rfl
    · rw [ih, Text.width_append (body ++ terminator), ← Nat.add_assoc]
      rfl

end

/-! ## The line of an offset -/

section

variable {v w : View} {ls : List Text} {start i k : Nat}

theorem View.bounds_of_mem_tile (h : w ∈ v.tile start ls) :
    start ≤ w.start ∧ w.start ≤ start + Text.width ls.flatten := by
  induction ls generalizing start with
  | nil => cases h
  | cons l ls ih =>
    rw [List.flatten_cons, Text.width_append]
    rcases List.mem_cons.1 h with rfl | h
    · exact ⟨Nat.le_refl _, Nat.le_add_right _ _⟩
    · obtain ⟨hle, hle'⟩ := ih h
      omega

/-- Every offset of the texts is in one of their views. -/
theorem View.exists_of_lt_tile (hstart : start ≤ i) (hi : i < start + Text.width ls.flatten) :
    ∃ (k : Nat) (w : View), (v.tile start ls)[k]? = some w ∧ w.start ≤ i ∧ i < w.stop := by
  induction ls generalizing start with
  | nil =>
    simp only [List.flatten_nil, Text.width_nil] at hi
    omega
  | cons l ls ih =>
    rw [List.flatten_cons, Text.width_append] at hi
    rcases Nat.lt_or_ge i (start + Text.width l) with hlt | hge
    · exact ⟨0, _, rfl, hstart, hlt⟩
    · obtain ⟨k, w, hw, hle, hlt⟩ := ih hge (by omega)
      exact ⟨k + 1, w, hw, hle, hlt⟩

/-- At or before an offset are the starts of the view that it is in and of all views before that
    one. -/
theorem View.takeWhile_starts_tile {more : List Nat} (hw : (v.tile start ls)[k]? = some w)
    (hle : w.start ≤ i) (hlt : i < w.stop) (hmore : ∀ n ∈ more, start + Text.width ls.flatten ≤ n) :
    ((v.tile start ls).map View.start ++ more).takeWhile (· ≤ i) =
    ((v.tile start ls).map View.start).take (k + 1) := by
  induction ls generalizing start k with
  | nil => cases hw
  | cons l ls ih =>
    have hmore' : ∀ n ∈ more, start + Text.width l + Text.width ls.flatten ≤ n := by
      rw [List.flatten_cons, Text.width_append, ← Nat.add_assoc] at hmore
      exact hmore
    rw [tile, List.map_cons, List.cons_append, List.take_succ_cons]
    cases k with
    | zero =>
      -- All views behind the first start behind the offset.
      obtain rfl := Option.some.inj hw
      rw [List.takeWhile_cons, if_pos (decide_eq_true hle), List.take_zero]
      refine congrArg _ (List.takeWhile_eq_nil_iff.2 fun hpos => ?_)
      rw [decide_eq_true_eq, Nat.not_le]
      refine Nat.lt_of_lt_of_le hlt ?_
      rcases List.mem_append.1 (List.getElem_mem hpos) with hmem | hmem
      · obtain ⟨u, hu, heq⟩ := List.mem_map.1 hmem
        exact Nat.le_trans (bounds_of_mem_tile hu).1 (Nat.le_of_eq heq)
      · exact Nat.le_trans (Nat.le_add_right _ _) (hmore' _ hmem)
    | succ k =>
      have hw' : (v.tile (start + Text.width l) ls)[k]? = some w := hw
      have hfirst : start ≤ i :=
        Nat.le_trans (Nat.le_trans (Nat.le_add_right _ _)
          (bounds_of_mem_tile (List.mem_of_getElem? hw')).1) hle
      change (start :: _).takeWhile _ = start :: _
      rw [List.takeWhile_cons, if_pos (decide_eq_true hfirst), ih hw' hmore']

end

theorem View.lines_of (s : Source) :
    (View.of s).lines = (View.of s).tile 0 (Text.lines s.text) := by
  have hshows : (View.of s).Shows [] s.text [] :=
    ⟨by rw [List.append_nil, List.nil_append]; rfl, rfl, rfl⟩
  rw [lines, hshows.text_eq]
  rfl

namespace Source

variable {s : Source} {i j k : Nat} {line : View}

/-- Every offset before the end is in a line. -/
theorem exists_line (h : i < s.size) :
    ∃ (k : Nat) (line : View), (View.of s).lines[k]? = some line ∧
    line.start ≤ i ∧ i < line.stop := by
  rw [View.lines_of]
  refine View.exists_of_lt_tile (Nat.zero_le i) ?_
  rw [Text.flatten_lines, Nat.zero_add]
  exact h

/-- The places at or before an offset where a line starts, that of the first line included. -/
theorem lineStartsTo_cons_eq (s : Source) (i : Nat) :
    0 :: s.lineStartsTo i = ((View.of s).lines.map View.start ++
      if Text.isOpen s.text then [] else [s.size]).takeWhile (· ≤ i) := by
  have hstarts := lineStarts_eq (View.of s) s.text 0
  rw [Nat.zero_add] at hstarts
  rw [View.lines_of, size, ← hstarts, List.takeWhile_cons, if_pos (decide_eq_true (Nat.zero_le i))]
  rfl

/-- Before an offset are the starts of its line and of all lines before that one. -/
theorem lineStartsTo_eq_take (hline : (View.of s).lines[k]? = some line) (hle : line.start ≤ i)
    (hlt : i < line.stop) :
    0 :: s.lineStartsTo i = ((View.of s).lines.map View.start).take (k + 1) := by
  rw [lineStartsTo_cons_eq]
  rw [View.lines_of] at hline ⊢
  refine View.takeWhile_starts_tile hline hle hlt fun n hn => ?_
  rw [Text.flatten_lines, Nat.zero_add]
  split at hn
  · cases hn
  · exact Nat.le_of_eq (List.mem_singleton.1 hn).symm

/-- Number and start of a line are the length and the end of the list of starts. -/
theorem lineColumn_of_starts {starts : List Nat} {start : Nat} (hi : Text.isBoundary s.text i)
    (hstarts : 0 :: s.lineStartsTo i = starts) (hlast : starts.getLast? = some start) :
    s.lineStart i = start ∧
      s.lineColumn i = ⟨starts.length, 1 + (Text.slice s.text start i).length⟩ := by
  have hfloor := Text.floorBoundary_of_isBoundary hi
  have hstart : s.lineStart i = start := by
    rw [← hstarts, List.getLast?_cons] at hlast
    rw [lineStart, hfloor]
    exact Option.some.inj hlast
  refine ⟨hstart, ?_⟩
  rw [lineColumn, column, hfloor, hstart, ← hstarts, List.length_cons, Nat.add_comm 1]

theorem lineColumn_of_line (hline : (View.of s).lines[k]? = some line)
    (hi : Text.isBoundary s.text i) (hle : line.start ≤ i) (hlt : i < line.stop) :
    s.lineStart i = line.start ∧
      s.lineColumn i = ⟨k + 1, 1 + (Text.slice s.text line.start i).length⟩ := by
  have hstarts := lineStartsTo_eq_take hline hle hlt
  obtain ⟨hk, -⟩ := List.getElem?_eq_some_iff.1 hline
  have hlength : (((View.of s).lines.map View.start).take (k + 1)).length = k + 1 := by
    rw [List.length_take, List.length_map]
    omega
  have hlast : (((View.of s).lines.map View.start).take (k + 1)).getLast? = some line.start := by
    rw [List.getLast?_eq_getElem?, hlength, Nat.add_sub_cancel,
      List.getElem?_take_of_lt (Nat.lt_succ_self k), List.getElem?_map, hline]
    rfl
  have h := lineColumn_of_starts hi hstarts hlast
  rwa [hlength] at h

/-- Before the end of the text are all starts. -/
theorem lineStartsTo_size (s : Source) : 0 :: s.lineStartsTo s.size =
    (View.of s).lines.map View.start ++ if Text.isOpen s.text then [] else [s.size] := by
  rw [lineStartsTo_cons_eq]
  refine List.takeWhile_eq_self_iff.2 fun n hn => decide_eq_true ?_
  rcases List.mem_append.1 hn with hn | hn
  · rw [View.lines_of] at hn
    obtain ⟨line, hline, rfl⟩ := List.mem_map.1 hn
    have hle := (View.bounds_of_mem_tile hline).2
    rwa [Text.flatten_lines, Nat.zero_add] at hle
  · split at hn
    · cases hn
    · exact Nat.le_of_eq (List.mem_singleton.1 hn)

theorem lineColumn_size_of_open (hopen : Text.isOpen s.text = true) : ∃ line,
    (View.of s).lines.getLast? = some line ∧ s.lineStart s.size = line.start ∧
      s.lineColumn s.size =
        ⟨(View.of s).lines.length, 1 + (Text.slice s.text line.start s.size).length⟩ := by
  have hstarts := lineStartsTo_size s
  rw [hopen, if_pos rfl, List.append_nil] at hstarts
  cases hlast : (View.of s).lines.getLast? with
  | none =>
    rw [List.getLast?_eq_none_iff.1 hlast] at hstarts
    cases hstarts
  | some line =>
    have hlast' : ((View.of s).lines.map View.start).getLast? = some line.start := by
      rw [List.getLast?_map, hlast]
      rfl
    have h := lineColumn_of_starts (Text.isBoundary_width s.text) hstarts hlast'
    rw [List.length_map] at h
    exact ⟨line, rfl, h⟩

theorem lineColumn_size_of_closed (hopen : Text.isOpen s.text = false) :
    s.lineStart s.size = s.size ∧ s.lineColumn s.size = ⟨(View.of s).lines.length + 1, 1⟩ := by
  have hstarts := lineStartsTo_size s
  rw [hopen, if_neg Bool.false_ne_true] at hstarts
  have hsize : Text.isBoundary s.text s.size := Text.isBoundary_width s.text
  have h := lineColumn_of_starts hsize hstarts List.getLast?_concat
  rw [Text.slice, Nat.sub_self, Text.takeBytes, List.length_append, List.length_map] at h
  exact h

end Source

/-! ## The span of a line -/

theorem Text.charAt?_append (front back : Text) (c : Char) :
    charAt? (front ++ c :: back) (width front) = some c := by
  rw [charAt?, if_pos (isBoundary_append_left front _), dropBytes_width_append]
  rfl

/-- The character that ends at the end of a leading part is the last one of that part. -/
theorem Text.getLast?_of_charAt? {front back : Text} {c : Char} (hc : c.utf8Size = 1)
    (h : charAt? (front ++ back) (width front - 1) = some c) (hfront : front ≠ []) :
    front.getLast? = some c := by
  rw [charAt?] at h
  split at h
  · next hboundary =>
    obtain ⟨before, behind, heq, hwidth⟩ := isBoundary_iff.1 hboundary
    rw [heq, ← hwidth, dropBytes_width_append] at h
    obtain ⟨behind, rfl⟩ := List.head?_eq_some_iff.1 h
    have hpos : 0 < width front :=
      Nat.pos_of_ne_zero fun hzero => hfront (width_eq_zero_iff.1 hzero)
    have hwidth' : width (before ++ [c]) = width front := by
      rw [width_append, width_cons, hc, width_nil]
      omega
    rw [List.append_cons] at heq
    obtain ⟨more, hmore⟩ := prefix_of_width_le heq (Nat.le_of_eq hwidth'.symm)
    have hnil : more = [] := by
      rw [← hmore, width_append] at hwidth'
      exact width_eq_zero_iff.1 (by omega)
    rw [hnil, List.append_nil] at hmore
    rw [hmore, List.getLast?_concat]
  · cases h

/-- A line of a text shows a body and its terminator; without a terminator nothing is behind it.
    Before it is the terminator of another line, or nothing, and behind the last line only is
    nothing. -/
theorem View.exists_firstLine_of_mem_lines {s : Source} {line : View}
    (h : line ∈ (View.of s).lines) :
    ∃ before body terminator rest, line.Shows before (body ++ terminator) rest ∧
      Text.FirstLine body terminator rest ∧ (∀ c ∈ before.getLast?, Text.isLineEnd c = true) ∧
      (rest = [] → (View.of s).lines.getLast? = some line) := by
  rw [View.lines_of] at h ⊢
  suffices hall : ∀ (cs before : Text), s.text = before ++ cs →
      (∀ c ∈ before.getLast?, Text.isLineEnd c = true) →
      line ∈ (View.of s).tile (Text.width before) (Text.lines cs) → ∃ before' body terminator rest,
      line.Shows before' (body ++ terminator) rest ∧
        Text.FirstLine body terminator rest ∧ (∀ c ∈ before'.getLast?, Text.isLineEnd c = true) ∧
        (rest = [] → ((View.of s).tile (Text.width before) (Text.lines cs)).getLast? = some line)
          from
    hall s.text [] rfl nofun h
  intro cs
  induction cs using Text.byLines with
  | nil => exact fun _ _ _ h => absurd h List.not_mem_nil
  | line body terminator rest hfirst hlines ih =>
    intro before hs hbefore h
    rw [hlines] at h ⊢
    rcases List.mem_cons.1 h with rfl | h
    · refine ⟨before, body, terminator, rest, ⟨hs, rfl, (Text.width_append _ _).symm⟩,
        hfirst, hbefore, ?_⟩
      rintro rfl
      rfl
    · rw [← Text.width_append] at h
      have hrest : rest ≠ [] := by
        rintro rfl
        cases h
      obtain ⟨before', body', terminator', rest', hshows, hfirst', hbefore', hlast⟩ :=
        ih (before ++ (body ++ terminator)) (by rw [hs, List.append_assoc before])
          (hfirst.isLineEnd_getLast hrest before) h
      refine ⟨before', body', terminator', rest', hshows, hfirst', hbefore', fun hnil => ?_⟩
      rw [tile, ← Text.width_append, List.getLast?_cons, hlast hnil]
      rfl

/-- The last line of a text, if it goes on. -/
theorem View.exists_of_getLast?_lines {s : Source} {line : View} (hopen : Text.isOpen s.text = true)
    (h : (View.of s).lines.getLast? = some line) :
    ∃ before body, line.Shows before body [] ∧ ∀ c ∈ body, Text.isLineEnd c = false := by
  rw [View.lines_of] at h
  suffices hall : ∀ (cs before : Text), Text.isOpen cs = true → s.text = before ++ cs →
      ((View.of s).tile (Text.width before) (Text.lines cs)).getLast? = some line →
      ∃ before body, line.Shows before body [] ∧ ∀ c ∈ body, Text.isLineEnd c = false from
    hall s.text [] hopen rfl h
  intro cs
  induction cs using Text.byLines with
  | nil => exact fun _ h => absurd h Bool.false_ne_true
  | line body terminator rest hfirst hlines ih =>
    intro before hopen hs h
    rw [hfirst.isOpen_append] at hopen
    rw [hlines, tile] at h
    split at hopen
    · next hnil =>
      -- It is the first line, as nothing follows it.
      obtain rfl := hfirst.last hnil
      subst hnil
      simp only [List.append_nil] at hs h
      rw [Text.lines, tile, List.getLast?_singleton] at h
      obtain rfl := Option.some.inj h
      exact ⟨before, body, ⟨by rw [List.append_nil]; exact hs, rfl, (Text.width_append _ _).symm⟩,
        hfirst.clean⟩
    · rw [← Text.width_append] at h
      refine ih (before ++ (body ++ terminator)) hopen (by rw [hs, List.append_assoc before]) ?_
      rw [List.getLast?_cons] at h
      cases hlast : ((View.of s).tile (Text.width (before ++ (body ++ terminator)))
        (Text.lines rest)).getLast? with
      | some last =>
        rw [hlast] at h
        exact h
      | none =>
        have hrest : rest = [] := by
          have hstarts :=
            Source.lineStarts_eq (View.of s) rest (Text.width (before ++ (body ++ terminator)))
          rw [hopen, List.getLast?_eq_none_iff.1 hlast] at hstarts
          cases hstarts
        rw [hrest] at hopen
        cases hopen

namespace Source

variable {s : Source} {i : Nat} {line : View}

/-- The next character of a class stands behind characters that are not in it. -/
theorem nextWhere_eq {p : Char → Bool} {front middle back : Text}
    (hs : s.text = front ++ (middle ++ back)) (hmiddle : ∀ c ∈ middle, p c = false)
    (hback : ∀ c ∈ back.head?, p c = true) :
    s.nextWhere p (Text.width front) = Text.width front + Text.width middle := by
  have hfloor : Text.floorBoundary s.text (Text.width front) = Text.width front :=
    Text.floorBoundary_of_isBoundary (hs ▸ Text.isBoundary_append_left front _)
  have hmiddle' : ∀ c ∈ middle, (!p c) = true := fun c hc => by rw [hmiddle c hc]; rfl
  have hback' : back.takeWhile (!p ·) = [] := by
    refine List.takeWhile_eq_nil_iff.2 fun hpos => ?_
    rw [hback _ (by rw [List.head?_eq_getElem?]; exact List.getElem?_eq_getElem hpos)]
    exact Bool.false_ne_true
  rw [nextWhere, hfloor, hs, Text.dropBytes_width_append, List.takeWhile_append_of_pos hmiddle',
    hback', List.append_nil]

/-- From an offset before its terminator a line reaches to the terminator. -/
theorem lineSpan_of_body {before left right behind : Text}
    (hs : s.text = before ++ (left ++ right) ++ behind)
    (hclean : ∀ c ∈ left ++ right, Text.isLineEnd c = false)
    (hbehind : ∀ c ∈ behind.head?, Text.isLineEnd c = true)
    (hstart : s.lineStart (Text.width (before ++ left)) = Text.width before) :
    s.lineSpan (Text.width (before ++ left)) =
      ⟨Text.width before, Text.width before + Text.width (left ++ right)⟩ := by
  have hstop : s.lineEnd (Text.width (before ++ left)) =
      Text.width (before ++ (left ++ right)) := by
    have hs' : s.text = before ++ left ++ (right ++ behind) := by simp only [hs, List.append_assoc]
    have hright : ∀ c ∈ right, Text.isLineEnd c = false :=
      fun c hc => hclean c (List.mem_append_right _ hc)
    rw [lineEnd, nextWhere_eq hs' hright hbehind, ← Text.width_append, List.append_assoc]
  rw [lineSpan, hstart, hstop, ← Text.width_append, if_neg]
  rintro ⟨hlt, hreturn⟩
  -- A `\r` before the terminator would be in the line.
  have hne : before ++ (left ++ right) ≠ [] := by
    intro hnil
    rw [hnil, Text.width_nil] at hlt
    exact Nat.not_lt_zero _ hlt
  rw [hs] at hreturn
  have hlast := Text.getLast?_of_charAt? rfl hreturn hne
  rw [List.getLast?_append] at hlast
  cases hline : (left ++ right).getLast? with
  | none =>
    rw [List.getLast?_eq_none_iff.1 hline, List.append_nil] at hlt
    exact Nat.lt_irrefl _ hlt
  | some c =>
    rw [hline] at hlast
    have hc := hclean c (List.mem_of_getLast? hline)
    rw [Option.some.inj hlast] at hc
    cases hc

/-- Between `\r` and `\n` it reaches back to the terminator. -/
theorem lineSpan_of_pair {before body behind : Text}
    (hs : s.text = before ++ body ++ ['\r'] ++ '\n' :: behind)
    (hstart : s.lineStart (Text.width (before ++ body ++ ['\r'])) = Text.width before) :
    s.lineSpan (Text.width (before ++ body ++ ['\r'])) =
      ⟨Text.width before, Text.width before + Text.width body⟩ := by
  have hstop : s.lineEnd (Text.width (before ++ body ++ ['\r'])) = Text.width (before ++ body) +
      1 := by
    have hnext : s.nextWhere Text.isLineEnd (Text.width (before ++ body ++ ['\r'])) =
        _ + Text.width [] :=
      nextWhere_eq hs (fun c hc => absurd hc List.not_mem_nil)
        (fun c hc => by obtain rfl := Option.some.inj hc; rfl)
    rw [lineEnd, hnext, Text.width_append (before ++ body)]
    rfl
  have hreturn : Text.charAt? s.text (Text.width (before ++ body)) = some '\r' := by
    rw [hs, List.append_assoc (before ++ body)]
    exact Text.charAt?_append _ _ _
  have hlt : Text.width before < Text.width (before ++ body) + 1 := by
    rw [Text.width_append]
    omega
  rw [lineSpan, hstart, hstop, Nat.add_sub_cancel, if_pos ⟨hlt, hreturn⟩, Text.width_append before]

/-- The next terminator is that of the line, or the second half of it. -/
theorem lineSpan_of_line (hline : line ∈ (View.of s).lines) (hi : Text.isBoundary s.text i)
    (hle : line.start ≤ i) (hlt : i < line.stop) (hstart : s.lineStart i = line.start) :
    s.lineSpan i = line.chomp.span := by
  obtain ⟨before, body, terminator, rest, hshows, hfirst, -⟩ :=
    View.exists_firstLine_of_mem_lines hline
  have hs : s.text = before ++ (body ++ terminator ++ rest) := by
    obtain ⟨span, rfl⟩ := View.exists_withSpan_of_mem_tile hline
    exact hshows.source
  have hchomp : line.chomp.span = ⟨Text.width before, Text.width before + Text.width body⟩ := by
    rw [View.chomp, hshows.text_eq, Text.chomp_append hfirst.clean hfirst.ends, hshows.start]
    rfl
  -- The offset cuts the line in two.
  obtain ⟨front, back, hcut, rfl⟩ := Text.isBoundary_iff.1 hi
  rw [hshows.start] at hle hstart
  rw [hshows.stop] at hlt
  obtain ⟨left, rfl⟩ := Text.prefix_of_width_le (hs.symm.trans hcut) hle
  rw [hs, ← List.append_assoc before] at hcut
  obtain ⟨right, hright⟩ := Text.prefix_of_width_le hcut.symm (Nat.le_of_lt hlt)
  rw [List.append_assoc before, List.append_cancel_left_eq] at hright
  rw [← hright] at hs hlt
  rw [hchomp]
  have hbehind : ∀ c ∈ (terminator ++ rest).head?, Text.isLineEnd c = true := hfirst.isLineEnd_head
  rcases List.append_eq_append_iff.1 hright with ⟨middle, rfl, rfl⟩ | ⟨middle, rfl, hterminator⟩
  · refine lineSpan_of_body ?_ hfirst.clean hbehind hstart
    rw [hs]
    simp only [List.append_assoc]
  · -- The offset stands before the terminator, or between its two halves.
    have hne : right ≠ [] := by
      rintro rfl
      rw [List.append_nil] at hlt
      exact Nat.lt_irrefl _ hlt
    have hmiddle := hfirst.ends
    rw [hterminator] at hmiddle
    rcases Text.eq_nil_or_pair_of_append hmiddle hne with rfl | ⟨rfl, rfl⟩
    · rw [List.append_nil] at hstart ⊢
      have hbody := @lineSpan_of_body s _ _ [] (terminator ++ rest) ?_ ?_ hbehind hstart
      · rwa [List.append_nil] at hbody
      · rw [hs, hterminator]
        simp only [List.append_nil, List.nil_append, List.append_assoc]
      · rw [List.append_nil]
        exact hfirst.clean
    · rw [← List.append_assoc] at hstart ⊢
      refine @lineSpan_of_pair s _ _ rest ?_ hstart
      rw [hs]
      simp only [List.append_assoc, List.cons_append, List.nil_append]

theorem lineSpan_size_of_open (hopen : Text.isOpen s.text = true)
    (hline : (View.of s).lines.getLast? = some line) (hstart : s.lineStart s.size = line.start) :
    s.lineSpan s.size = line.chomp.span := by
  obtain ⟨before, body, hshows, hclean⟩ := View.exists_of_getLast?_lines hopen hline
  have hs : s.text = before ++ (body ++ []) ++ [] := by
    obtain ⟨span, rfl⟩ := View.exists_withSpan_of_mem_tile (List.mem_of_getLast? hline)
    rw [List.append_nil (_ ++ _)]
    exact hshows.source
  have hchomp : line.chomp.span =
      ⟨Text.width before, Text.width before + Text.width (body ++ [])⟩ := by
    have hbody := @Text.chomp_append body [] hclean List.mem_cons_self
    rw [List.append_nil] at hbody ⊢
    rw [View.chomp, hshows.text_eq, hbody, hshows.start]
    rfl
  have hsize : s.size = Text.width (before ++ body) := by
    rw [size, hs, List.append_nil, List.append_nil]
  rw [hshows.start, hsize] at hstart
  rw [hchomp, hsize]
  refine lineSpan_of_body hs ?_ (fun c hc => nomatch hc) hstart
  rw [List.append_nil]
  exact hclean

theorem lineSpan_size_of_closed (hstart : s.lineStart s.size = s.size) :
    s.lineSpan s.size = ⟨s.size, s.size⟩ := by
  have hs : s.text = s.text ++ ([] ++ []) := by rw [List.append_nil, List.append_nil]
  have hstop : s.lineEnd s.size = s.size :=
    nextWhere_eq hs (fun c hc => absurd hc List.not_mem_nil) (fun c hc => nomatch hc)
  rw [lineSpan, hstart, hstop, if_neg fun h => Nat.lt_irrefl _ h.1]

/-! ## The order of coordinates -/

end Source

/-- Does a place come before another one in reading order? -/
def LineColumn.Precedes (p q : LineColumn) : Prop :=
  p.line < q.line ∨ p.line = q.line ∧ p.column < q.column

namespace Source

variable {s : Source} {i j : Nat}

theorem exists_cut_of_mem_lineStartsFrom {cs : Text} {offset n : Nat}
    (h : n ∈ lineStartsFrom offset cs) :
    ∃ front back, cs = front ++ back ∧ n = offset + Text.width front := by
  induction cs generalizing offset with
  | nil => cases h
  | cons c cs ih =>
    rw [lineStartsFrom] at h
    -- The line starts behind the first character, or later.
    have hlater : n ∈ lineStartsFrom (offset + c.utf8Size) cs →
        ∃ front back, c :: cs = front ++ back ∧ n = offset + Text.width front := by
      intro h
      obtain ⟨front, back, rfl, rfl⟩ := ih h
      exact ⟨c :: front, back, rfl, by rw [Text.width_cons, Nat.add_assoc]⟩
    split at h
    · rcases List.mem_cons.1 h with rfl | h
      · exact ⟨[c], cs, rfl, rfl⟩
      · exact hlater h
    · exact hlater h

/-- The line of an offset starts at a boundary at or before it. -/
theorem lineStart_le (hi : Text.isBoundary s.text i) :
    Text.isBoundary s.text (s.lineStart i) ∧ s.lineStart i ≤ i := by
  rw [lineStart, Text.floorBoundary_of_isBoundary hi, lineStartsTo]
  cases hlast : ((lineStartsFrom 0 s.text).takeWhile (· ≤ i)).getLast? with
  | none => exact ⟨Text.isBoundary_zero _, Nat.zero_le i⟩
  | some start =>
    have hmem := List.mem_of_getLast? hlast
    obtain ⟨front, back, hs, rfl⟩ := exists_cut_of_mem_lineStartsFrom (List.takeWhile_subset _ hmem)
    refine ⟨Text.isBoundary_iff.2 ⟨front, back, hs, (Nat.zero_add _).symm⟩, ?_⟩
    have hle := List.mem_takeWhile_imp hmem
    exact of_decide_eq_true hle

/-- The lines that start before an offset start before every later one. -/
theorem lineStartsTo_isPrefix (h : i ≤ j) : s.lineStartsTo i <+: s.lineStartsTo j := by
  have htwice : s.lineStartsTo i = (s.lineStartsTo j).takeWhile (· ≤ i) := by
    rw [lineStartsTo, lineStartsTo, List.takeWhile_takeWhile]
    congr 1
    funext n
    simp only [decide_eq_true_eq, decide_eq_decide]
    omega
  exact htwice ▸ List.takeWhile_prefix _

/-- Coordinates grow with the offset. -/
theorem lineColumn_precedes (hi : Text.isBoundary s.text i) (hj : Text.isBoundary s.text j)
    (h : i < j) : (s.lineColumn i).Precedes (s.lineColumn j) := by
  have hprefix := lineStartsTo_isPrefix (s := s) (Nat.le_of_lt h)
  rw [lineColumn, lineColumn, Text.floorBoundary_of_isBoundary hi,
    Text.floorBoundary_of_isBoundary hj]
  rcases Nat.lt_or_eq_of_le hprefix.length_le with hlt | heq
  · exact .inl (Nat.succ_lt_succ hlt)
  · -- In one line there are more characters before the later offset.
    refine .inr ⟨congrArg (· + 1) heq, Nat.succ_lt_succ ?_⟩
    have hsame : s.lineStart j = s.lineStart i := by
      rw [lineStart, lineStart, Text.floorBoundary_of_isBoundary hi,
        Text.floorBoundary_of_isBoundary hj, hprefix.eq_of_length heq]
    obtain ⟨hstart, hle⟩ := lineStart_le hi
    rw [Text.floorBoundary_of_isBoundary hi, Text.floorBoundary_of_isBoundary hj, hsame]
    obtain ⟨front, rest, hfront, hwidth⟩ := Text.isBoundary_iff.1 hstart
    obtain ⟨upto, more, hupto, rfl⟩ := Text.isBoundary_iff.1 hi
    obtain ⟨later, last, hlater, rfl⟩ := Text.isBoundary_iff.1 hj
    obtain ⟨middle, rfl⟩ := Text.prefix_of_width_le (hfront.symm.trans hupto) (hwidth ▸ hle)
    obtain ⟨between, rfl⟩ := Text.prefix_of_width_le (hupto.symm.trans hlater) (Nat.le_of_lt h)
    have hmiddle : Text.slice s.text (s.lineStart (Text.width (front ++ middle)))
        (Text.width (front ++ middle)) =
        middle := by
      rw [← hwidth, hupto, List.append_assoc, Text.width_append, Text.slice_append_append]
    have hlonger : Text.slice s.text (s.lineStart (Text.width (front ++ middle)))
        (Text.width (front ++ middle ++ between)) = middle ++ between := by
      rw [← hwidth, hlater, List.append_assoc front, List.append_assoc, Text.width_append front,
        Text.slice_append_append]
    have hbetween : between ≠ [] := by
      rintro rfl
      rw [List.append_nil] at h
      exact Nat.lt_irrefl _ h
    rw [hmiddle, hlonger, List.length_append]
    have := List.length_pos_iff.2 hbetween
    omega

/-! ## Lines and coordinates agree -/

/-- The lines of a text and the coordinates of its offsets agree. Every offset before the end is in
    one line, and there the coordinates are the number of the line, the count of characters from its
    start on, its start, and its span without the terminator. The end continues a last line that has
    no terminator, and is a line of its own otherwise. Coordinates grow with the offset, and an
    offset within a character, or behind the end, counts as the nearest boundary before it. -/
theorem coordinates_follow_lines (s : Source) :
    (∀ i, i < s.size → ∃ (k : Nat) (line : View),
      (View.of s).lines[k]? = some line ∧ line.start ≤ i ∧ i < line.stop) ∧
    (∀ (i k : Nat) (line : View), (View.of s).lines[k]? = some line → Text.isBoundary s.text i →
      line.start ≤ i → i < line.stop →
      s.lineColumn i = ⟨k + 1, 1 + (Text.slice s.text line.start i).length⟩ ∧
      s.lineStart i = line.start ∧
        s.lineSpan i = line.chomp.span) ∧
    (Text.isOpen s.text = true → ∃ line, (View.of s).lines.getLast? = some line ∧
      s.lineColumn s.size =
      ⟨(View.of s).lines.length, 1 + (Text.slice s.text line.start s.size).length⟩ ∧
      s.lineStart s.size = line.start ∧ s.lineSpan s.size = line.chomp.span) ∧
    (Text.isOpen s.text = false →
      s.lineColumn s.size = ⟨(View.of s).lines.length + 1, 1⟩ ∧ s.lineStart s.size = s.size ∧
        s.lineSpan s.size = ⟨s.size, s.size⟩) ∧
    (∀ i j, Text.isBoundary s.text i → Text.isBoundary s.text j → i < j →
      (s.lineColumn i).Precedes (s.lineColumn j)) ∧
    ∀ i, ∃ b, Text.isBoundary s.text b ∧ b ≤ i ∧ (∀ m, Text.isBoundary s.text m → m ≤ i → m ≤ b) ∧
      s.lineColumn i = s.lineColumn b ∧ s.lineStart i = s.lineStart b ∧
      s.lineSpan i = s.lineSpan b := by
  refine ⟨fun i hi => exists_line hi, fun i k line hline hi hle hlt => ?_,
    fun hopen => ?_, fun hclosed => ?_, fun i j hi hj h => lineColumn_precedes hi hj h, fun i => ?_⟩
  · obtain ⟨hstart, hcolumn⟩ := lineColumn_of_line hline hi hle hlt
    exact ⟨hcolumn, hstart, lineSpan_of_line (List.mem_of_getElem? hline) hi hle hlt hstart⟩
  · obtain ⟨line, hlast, hstart, hcolumn⟩ := lineColumn_size_of_open hopen
    exact ⟨line, hlast, hcolumn, hstart, lineSpan_size_of_open hopen hlast hstart⟩
  · obtain ⟨hstart, hcolumn⟩ := lineColumn_size_of_closed hclosed
    exact ⟨hcolumn, hstart, lineSpan_size_of_closed hstart⟩
  · have hb := Text.isBoundary_floorBoundary s.text i
    refine ⟨_, hb, Text.floorBoundary_le _ _, fun m hm hle => Text.le_floorBoundary hm hle, ?_⟩
    have hfloor := Text.floorBoundary_of_isBoundary hb
    have hstart : s.lineStart i = s.lineStart (Text.floorBoundary s.text i) := by
      rw [lineStart, lineStart, hfloor]
    have hcolumn : s.column i = s.column (Text.floorBoundary s.text i) := by
      rw [column, column, hfloor]
    refine ⟨by rw [lineColumn, lineColumn, hfloor, hcolumn], hstart, ?_⟩
    rw [lineSpan, lineSpan, ← hstart, lineEnd, lineEnd, nextWhere, nextWhere, hfloor]

end Source

end Taskdown
