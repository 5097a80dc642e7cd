import Mathlib.Data.List.Basic
import Mathlib.Data.List.Induction
import Taskdown.Source.Extend

/-!
# What a view shows

A view is two offsets of a source. It *shows* a text when that text stands between the two offsets,
and it is *sound* when it shows any text at all: then its source consists of what is before the
view, what is in view, and what is behind it, and the offsets are the widths of the first part and
of the first two (`View.Shows`). What a derivation makes of a sound view is said in terms of these
three parts, so that no offset has to be looked at.

* `View.sound_iff`: a view is sound if and only if its ends are boundaries in order;
* `View.sound_of_sub`, `View.Sound.trimStart`, …: what is cut out is sound;
* `View.Shows.exists_of_mem_lines`: the lines of a view show the lines of its text.

A line has its terminator at its end and nowhere else (`Text.IsLine`), and so has every part behind
some place of it (`Text.IsLine.of_suffix`): without its terminator it has no newline
(`Text.IsLine.newline_not_mem_chomp`).

The columns of a line are counted from its start on, but a view grows back over blanks from the end:
what a tab is worth depends on everything before it in the line. Of all blanks before it that are
worth no more than the limit (`Text.Indents`) a view takes the most (`View.Shows.exists_indents`),
and so no column has to be looked at again.
-/

namespace Taskdown

namespace Text

/-! ## Boundaries -/

/-- A text splits at a boundary. -/
theorem isBoundary_iff {cs : Text} {n : Nat} :
    isBoundary cs n ↔ ∃ before behind, cs = before ++ behind ∧ width before = n := by
  constructor
  · intro h
    exact ⟨takeBytes cs n, dropBytes cs n, (takeBytes_append_dropBytes cs n).symm,
      width_takeBytes h⟩
  · rintro ⟨before, behind, rfl, rfl⟩
    exact isBoundary_append_left before behind

/-- Of two leading parts of a text the one that is not wider is a leading part of the other. -/
theorem prefix_of_width_le {as bs as' bs' : Text} (h : as ++ bs = as' ++ bs')
    (hw : width as ≤ width as') : as <+: as' := by
  rcases List.append_eq_append_iff.1 h with ⟨ms, rfl, -⟩ | ⟨ms, rfl, -⟩
  · exact List.prefix_append _ _
  · rw [width_append] at hw
    obtain rfl : ms = [] := width_eq_zero_iff.1 (by omega)
    exact ⟨[], by rw [List.append_nil, List.append_nil]⟩

/-! ## Lines -/

/-- The text has no terminator, but for one at its end. -/
def IsLine (l : Text) : Prop := ∃ body terminator, l = body ++ terminator ∧
  (∀ c ∈ body, isLineEnd c = false) ∧ terminator ∈ ([[], ['\r'], ['\n'], ['\r', '\n']] : List Text)

theorem isLine_of_mem_lines {cs l : Text} (h : l ∈ lines cs) : IsLine l := by
  fun_induction lines cs generalizing l with
  | case1 => cases h
  | case2 cs ih =>
    rcases List.mem_cons.1 h with rfl | h
    · exact ⟨[], ['\r', '\n'], rfl, by simp, by simp⟩
    · exact ih h
  | case3 c cs _ hc ih =>
    rcases List.mem_cons.1 h with rfl | h
    · refine ⟨[], [c], rfl, by simp, ?_⟩
      simp only [isLineEnd, Bool.or_eq_true, decide_eq_true_eq] at hc
      rcases hc with rfl | rfl <;> simp
    · exact ih h
  | case4 c cs _ hc hl ih =>
    obtain rfl := List.mem_singleton.1 h
    exact ⟨[c], [], rfl, by simpa using hc, by simp⟩
  | case5 c cs _ hc l' ls hl ih =>
    rcases List.mem_cons.1 h with rfl | h
    · obtain ⟨body, terminator, rfl, hbody, ht⟩ := ih (hl ▸ List.mem_cons_self)
      refine ⟨c :: body, terminator, rfl, fun d hd => ?_, ht⟩
      rcases List.mem_cons.1 hd with rfl | hd
      · simpa using hc
      · exact hbody d hd
    · exact ih (hl ▸ List.mem_cons_of_mem _ h)

/-- What follows some place of a line is a line. -/
theorem IsLine.of_suffix {l s : Text} (h : IsLine l) (hs : s <:+ l) : IsLine s := by
  obtain ⟨body, terminator, rfl, hbody, ht⟩ := h
  obtain ⟨front, hfront⟩ := hs
  rcases List.append_eq_append_iff.1 hfront with ⟨ms, rfl, rfl⟩ | ⟨ms, rfl, hms⟩
  · exact ⟨ms, terminator, rfl, fun c hc => hbody c (List.mem_append_right _ hc), ht⟩
  · -- The place is within the terminator, which has two characters at most.
    refine ⟨[], s, rfl, by simp, ?_⟩
    simp only [List.mem_cons, List.not_mem_nil, or_false] at ht ⊢
    rcases ms with _ | ⟨a, _ | ⟨b, ms⟩⟩
    · rwa [hms] at ht
    · rw [hms] at ht
      rcases ht with ht | ht | ht | ht <;> simp_all
    · rw [hms] at ht
      rcases ht with ht | ht | ht | ht <;> simp_all

/-- Chomping a line takes its terminator away. -/
theorem chomp_append {body terminator : Text} (hbody : ∀ c ∈ body, isLineEnd c = false)
    (ht : terminator ∈ ([[], ['\r'], ['\n'], ['\r', '\n']] : List Text)) :
    chomp (body ++ terminator) = body := by
  induction body with
  | nil =>
    simp only [List.mem_cons, List.not_mem_nil, or_false] at ht
    rcases ht with rfl | rfl | rfl | rfl <;> rfl
  | cons c body ih =>
    have hc := hbody c List.mem_cons_self
    rw [List.cons_append]
    cases hrest : body ++ terminator with
    | nil =>
      rw [chomp, hc, (List.append_eq_nil_iff.1 hrest).1]
      rfl
    | cons d ds =>
      rw [chomp, ← hrest, ih fun d hd => hbody d (List.mem_cons_of_mem _ hd)]
      · rintro rfl -
        cases hc
      · exact List.cons_ne_nil _ _

theorem IsLine.newline_not_mem_chomp {l : Text} (h : IsLine l) : '\n' ∉ chomp l := by
  obtain ⟨body, terminator, rfl, hbody, ht⟩ := h
  rw [chomp_append hbody ht]
  intro hmem
  cases hbody _ hmem

/-- What is behind the last terminator of a text. -/
def lastLine (cs : Text) : Text := (cs.reverse.takeWhile (!isLineEnd ·)).reverse

theorem isLineEnd_of_mem_lastLine {cs : Text} {c : Char} (h : c ∈ lastLine cs) :
    isLineEnd c = false := by
  have hc := List.all_eq_true.1 List.all_takeWhile c (List.mem_reverse.1 h)
  simpa using hc

theorem exists_append_lastLine (cs : Text) :
    ∃ front, cs = front ++ lastLine cs ∧ ∀ c ∈ front.getLast?, isLineEnd c = true := by
  refine ⟨(cs.reverse.dropWhile (!isLineEnd ·)).reverse, ?_, fun c hc => ?_⟩
  · rw [lastLine, ← List.reverse_append, List.takeWhile_append_dropWhile, List.reverse_reverse]
  · have hhead := List.head?_dropWhile_not (!isLineEnd ·) cs.reverse
    rw [List.getLast?_reverse] at hc
    rw [hc] at hhead
    simpa using hhead

theorem lastLine_append {as bs : Text} (h : ∀ c ∈ bs, isLineEnd c = false) :
    lastLine (as ++ bs) = lastLine as ++ bs := by
  have hbs : ∀ c ∈ bs.reverse, (!isLineEnd c) = true := by
    intro c hc
    rw [h c (List.mem_reverse.1 hc), Bool.not_false]
  rw [lastLine, List.reverse_append, List.takeWhile_append_of_pos hbs, List.reverse_append,
    List.reverse_reverse]
  rfl

theorem isLineEnd_of_isSpaceTab {c : Char} (h : isSpaceTab c) : isLineEnd c = false := by
  simp only [isSpaceTab, Bool.or_eq_true, decide_eq_true_eq] at h
  rcases h with rfl | rfl <;> rfl

end Text

namespace View

variable {v w : View} {before cs behind : Text}

/-! ## What is shown -/

/-- The view shows `cs`: in the source it stands between `before` and `behind`. -/
structure Shows (v : View) (before cs behind : Text) : Prop where
  source : v.source.text = before ++ (cs ++ behind)
  start : v.start = Text.width before
  stop : v.stop = Text.width (before ++ cs)

/-- The view shows some text. -/
def Sound (v : View) : Prop := ∃ before cs behind, v.Shows before cs behind

theorem Shows.sound (h : v.Shows before cs behind) : v.Sound := ⟨before, cs, behind, h⟩

theorem Shows.text_eq (h : v.Shows before cs behind) : v.text = cs := by
  rw [text, h.source, h.start, h.stop, Text.width_append, Text.slice_append_append]

theorem Shows.textBefore_eq (h : v.Shows before cs behind) : v.textBefore = before := by
  rw [textBefore, h.source, h.start, Text.takeBytes_width_append]

/-- A view is empty if and only if it shows no text. -/
theorem Shows.isEmpty_eq (h : v.Shows before cs behind) :
    v.isEmpty = cs.isEmpty := by
  have hle : v.start = v.stop ↔ cs = [] := by
    rw [h.start, h.stop, Text.width_append, ← Text.width_eq_zero_iff]
    omega
  rw [Bool.eq_iff_iff, List.isEmpty_iff, ← hle]
  exact decide_eq_true_iff

/-- A view is sound if and only if its ends are boundaries of its source, in order. -/
theorem sound_iff : v.Sound ↔
    v.start ≤ v.stop ∧ Text.isBoundary v.source.text v.start ∧
    Text.isBoundary v.source.text v.stop := by
  constructor
  · rintro ⟨before, cs, behind, h⟩
    rw [h.start, h.stop, h.source]
    refine ⟨by rw [Text.width_append]; omega, Text.isBoundary_append_left _ _, ?_⟩
    rw [← List.append_assoc]
    exact Text.isBoundary_append_left _ _
  · rintro ⟨hle, hstart, hstop⟩
    obtain ⟨before, rest, hs, hws⟩ := Text.isBoundary_iff.1 hstart
    obtain ⟨front, behind, he, hwe⟩ := Text.isBoundary_iff.1 hstop
    obtain ⟨cs, rfl⟩ := Text.prefix_of_width_le (hs.symm.trans he) (by omega)
    exact ⟨before, cs, behind, by rw [he, List.append_assoc], hws.symm, hwe.symm⟩

theorem sound_of (source : Source) : (View.of source).Sound :=
  ⟨[], source.text, [], by simp [View.of], rfl, rfl⟩

/-! ## Derivations -/

theorem isBoundary_of_checkBoundary {cs : Text} {n : Nat} {u : Unit}
    (h : checkBoundary cs n = .ok u) : Text.isBoundary cs n := by
  rw [checkBoundary] at h
  split at h
  · assumption
  · cases h

/-- A part of a view is sound whatever the view is: its ends have been checked. -/
theorem sound_of_sub {i j : Nat} (hw : v.sub i j = .ok w) : w.Sound := by
  rw [View.sub] at hw
  split at hw
  · cases hw
  · next hrange =>
    obtain ⟨_, hi, hw⟩ := bind_eq_ok_iff.1 hw
    obtain ⟨_, hj, hw⟩ := bind_eq_ok_iff.1 hw
    obtain rfl := Except.ok.inj hw
    refine sound_iff.2 ⟨?_, isBoundary_of_checkBoundary hi, isBoundary_of_checkBoundary hj⟩
    change v.start + i ≤ v.start + j
    omega

theorem Shows.trimStart (h : v.Shows before cs behind) :
    v.trimStart.Shows (before ++ cs.takeWhile Text.isTrimmed)
    (cs.dropWhile Text.isTrimmed) behind where
  source := by
    rw [List.append_assoc, ← List.append_assoc (List.takeWhile _ _),
      List.takeWhile_append_dropWhile]
    exact h.source
  start := by
    rw [Text.width_append, ← h.start, ← h.text_eq]
    rfl
  stop := by
    rw [List.append_assoc, List.takeWhile_append_dropWhile]
    exact h.stop

/-- Cutting something off at the end. -/
theorem Shows.withStop {tail : Text} (h : v.Shows before (cs ++ tail) behind) {stop : Nat}
    (hstop : stop = v.start + Text.width cs) :
    (v.withStop stop).Shows before cs (tail ++ behind) where
  source := by
    rw [← List.append_assoc cs]
    exact h.source
  start := h.start
  stop := by
    rw [Text.width_append, ← h.start]
    exact hstop

theorem Shows.trimEnd (h : v.Shows before cs behind) :
    ∃ behind', v.trimEnd.Shows before (Text.dropEndWhile Text.isTrimmed cs) behind' := by
  obtain ⟨tail, htail, -⟩ := Text.exists_eq_dropEndWhile_append Text.isTrimmed cs
  exact ⟨_, (htail ▸ h).withStop (by rw [h.text_eq])⟩

theorem Shows.chomp (h : v.Shows before cs behind) (hcs : Text.IsLine cs) :
    ∃ behind', v.chomp.Shows before (Text.chomp cs) behind' := by
  have htext := h.text_eq
  obtain ⟨body, terminator, rfl, hbody, ht⟩ := hcs
  rw [Text.chomp_append hbody ht]
  exact ⟨_, h.withStop (by rw [htext, Text.chomp_append hbody ht])⟩

theorem Sound.trim (h : v.Sound) : v.trim.Sound := by
  obtain ⟨before, cs, behind, h⟩ := h
  obtain ⟨behind', h'⟩ := h.trimStart.trimEnd
  exact h'.sound

theorem Sound.trimStart (h : v.Sound) : v.trimStart.Sound := by
  obtain ⟨before, cs, behind, h⟩ := h
  exact h.trimStart.sound

theorem Sound.trimEnd (h : v.Sound) : v.trimEnd.Sound := by
  obtain ⟨before, cs, behind, h⟩ := h
  obtain ⟨behind', h'⟩ := h.trimEnd
  exact h'.sound

/-- Views of texts that follow each other in the source show these texts. -/
theorem exists_of_mem_tile {ls : List Text} (hs : v.source.text = before ++ (ls.flatten ++ behind))
    (hw : w ∈ v.tile (Text.width before) ls) :
    ∃ l ∈ ls, ∃ before' behind', w.Shows before' l behind' := by
  induction ls generalizing before with
  | nil => cases hw
  | cons l ls ih =>
    rw [List.flatten_cons, List.append_assoc] at hs
    rcases List.mem_cons.1 hw with rfl | hw
    · exact ⟨l, List.mem_cons_self, before, ls.flatten ++ behind, hs, rfl,
        (Text.width_append _ _).symm⟩
    · rw [← Text.width_append] at hw
      obtain ⟨l', hl', h⟩ := ih (by rw [hs, List.append_assoc]) hw
      exact ⟨l', List.mem_cons_of_mem _ hl', h⟩

/-- The views of texts that follow each other have these texts. -/
theorem map_text_tile {ls : List Text} (hs : v.source.text = before ++ (ls.flatten ++ behind)) :
    (v.tile (Text.width before) ls).map text = ls := by
  induction ls generalizing before with
  | nil => rfl
  | cons l ls ih =>
    rw [List.flatten_cons, List.append_assoc] at hs
    have hl : (v.withSpan ⟨Text.width before, Text.width before + Text.width l⟩).Shows before l
        (ls.flatten ++ behind) :=
      ⟨hs, rfl, (Text.width_append _ _).symm⟩
    rw [tile, List.map_cons, hl.text_eq, ← Text.width_append, ih (by rw [hs, List.append_assoc])]

/-- The lines of a view have the lines of its text. -/
theorem Sound.map_text_lines (h : v.Sound) : v.lines.map text = Text.lines v.text := by
  obtain ⟨before, cs, behind, h⟩ := h
  rw [lines, h.text_eq, h.start]
  exact map_text_tile (by rw [Text.flatten_lines]; exact h.source)

/-- A line of a sound view shows a line of a text. -/
theorem Sound.exists_of_mem_lines (h : v.Sound) (hw : w ∈ v.lines) :
    ∃ before l behind, w.Shows before l behind ∧ Text.IsLine l := by
  obtain ⟨before, cs, behind, h⟩ := h
  rw [lines, h.text_eq, h.start] at hw
  obtain ⟨l, hl, before', behind', hw⟩ :=
    exists_of_mem_tile (by rw [Text.flatten_lines]; exact h.source) hw
  exact ⟨before', l, behind', hw, Text.isLine_of_mem_lines hl⟩

/-- A line of a view shows its text without the terminator when it has been chomped. -/
theorem Sound.text_chomp_of_mem_lines (h : v.Sound) (hw : w ∈ v.lines) :
    w.chomp.text = Text.chomp w.text := by
  obtain ⟨before, cs, behind, hshows, hcs⟩ := h.exists_of_mem_lines hw
  obtain ⟨behind', hchomp⟩ := hshows.chomp hcs
  rw [hchomp.text_eq, hshows.text_eq]

/-- The lines of a sound view, without their terminators, are the lines of its text without
    theirs. -/
theorem Sound.map_text_chomp_lines (h : v.Sound) :
    v.lines.map (fun line => line.chomp.text) = (Text.lines v.text).map Text.chomp := by
  rw [← h.map_text_lines, List.map_map]
  exact List.map_congr_left fun line hline => h.text_chomp_of_mem_lines hline

/-! ## Columns -/

/-- Every character takes one to four columns. -/
theorem columnAfter_bounds (column : Nat) (cs : Text) :
    column ≤ columnAfter column cs ∧ columnAfter column cs ≤ column + 4 * cs.length := by
  induction cs generalizing column with
  | nil => exact ⟨Nat.le_refl _, Nat.le_refl _⟩
  | cons c cs ih =>
    obtain ⟨hle, hle'⟩ := ih (nextColumn column c)
    have hnext : column ≤ nextColumn column c ∧ nextColumn column c ≤ column + 4 := by
      rw [nextColumn]
      split <;> omega
    change column ≤ columnAfter (nextColumn column c) cs ∧ columnAfter (nextColumn column c) cs ≤ _
    rw [List.length_cons]
    omega

theorem columnAfter_append (column : Nat) (as bs : Text) :
    columnAfter column (as ++ bs) = columnAfter (columnAfter column as) bs := List.foldl_append

theorem columns_append (column : Nat) (as bs : Text) :
    columns column (as ++ bs) = columns column as ++ columns (columnAfter column as) bs := by
  induction as generalizing column with
  | nil => rfl
  | cons c as ih => exact congrArg ((c, column) :: ·) (ih (nextColumn column c))

theorem map_fst_columns (column : Nat) (cs : Text) : (columns column cs).map Prod.fst = cs := by
  induction cs generalizing column with
  | nil => rfl
  | cons c cs ih => rw [columns, List.map_cons, ih]

/-- The characters at the end of a text that pass a test of the character and its column. The one
    before them fails. -/
theorem exists_takeWhile_columns (p : Char × Nat → Bool) (line : Text) : ∃ first taken,
    line = first ++ taken ∧ taken.length = ((columns 0 line).reverse.takeWhile p).length ∧
      (∀ q ∈ columns (columnAfter 0 first) taken, p q = true) ∧
      ∀ first' c, first = first' ++ [c] → p (c, columnAfter 0 first') = false := by
  induction line using List.reverseRecOn with
  | nil => exact ⟨[], [], rfl, rfl, nofun, fun first' c h => absurd h.symm (by simp)⟩
  | append_singleton line c ih =>
    have hcolumns : (columns 0 (line ++ [c])).reverse = (c, columnAfter 0 line) ::
        (columns 0 line).reverse := by
      rw [columns_append, List.reverse_append]
      rfl
    rw [hcolumns, List.takeWhile_cons]
    cases hp : p (c, columnAfter 0 line) with
    | false =>
      refine ⟨line ++ [c], [], (List.append_nil _).symm, rfl, nofun, fun first' d h => ?_⟩
      obtain ⟨rfl, hd⟩ := List.append_inj' h rfl
      rwa [List.singleton_inj.1 hd] at hp
    | true =>
      obtain ⟨first, taken, rfl, hlength, htaken, hfirst⟩ := ih
      refine ⟨first, taken ++ [c], List.append_assoc .., ?_, fun q hq => ?_, hfirst⟩
      · rw [List.length_append, if_pos rfl, List.length_cons, hlength]
        rfl
      · rw [columns_append, List.mem_append, ← columnAfter_append] at hq
        rcases hq with hq | hq
        · exact htaken q hq
        · rwa [List.mem_singleton.1 hq]

end View

/-! ## Indentation -/

/-- Behind a text stand blanks, and they are worth at most some columns of its last line. -/
structure Text.Indents (limit : Option Nat) (rest taken : Text) : Prop where
  blank : ∀ c ∈ taken, isSpaceTab c
  within : ∀ max ∈ limit, View.columnAfter 0 (lastLine (rest ++ taken)) ≤
    View.columnAfter 0 (lastLine rest) + max

namespace Text

variable {limit : Option Nat} {rest taken taken' before : Text} {a b : Nat} {c : Char}

theorem Indents.clean (h : Indents limit rest taken) : ∀ c ∈ taken, isLineEnd c = false :=
  fun c hc => isLineEnd_of_isSpaceTab (h.blank c hc)

/-- What is taken in two steps could be taken in one. -/
theorem Indents.append (h : Indents (some a) (rest ++ taken') taken)
    (h' : Indents (some b) rest taken') : Indents (some (a + b)) rest (taken' ++ taken) := by
  refine ⟨fun c hc => (List.mem_append.1 hc).elim (h'.blank c) (h.blank c), fun max hmax => ?_⟩
  obtain rfl := Option.some.inj hmax
  have hlast := h.within a rfl
  have hfirst := h'.within b rfl
  rw [← List.append_assoc]
  omega

/-- A character may be taken if it is a blank, and if no more columns than the limit are between the
    one at which it stands and the one at which the text ends. -/
def mayTake (limit : Option Nat) (before : Text) (q : Char × Nat) : Bool :=
  isSpaceTab q.1 && limit.all (View.columnAfter 0 (lastLine before) - q.2 ≤ ·)

/-- Every character of an indentation may be taken. -/
theorem Indents.mayTake {more : Text} (h : Indents limit rest (more ++ [c] ++ taken)) :
    mayTake limit (rest ++ (more ++ [c] ++ taken)) (c, View.columnAfter 0 (lastLine rest ++ more)) =
    true := by
  refine Bool.and_eq_true_iff.2 ⟨h.blank c (by simp), ?_⟩
  cases hlimit : limit with
  | none => rfl
  | some max =>
    have hmax := h.within max hlimit
    have hle := (View.columnAfter_bounds (View.columnAfter 0 (lastLine rest)) more).1
    rw [← View.columnAfter_append] at hle
    exact decide_eq_true (by omega)

/-- The characters at the end of a text that may be taken are the longest indentation. -/
theorem exists_indents (limit : Option Nat) (before : Text) : ∃ rest taken,
    before = rest ++ taken ∧ Indents limit rest taken ∧
      taken.length = ((View.columns 0 (lastLine before)).reverse.takeWhile
        (mayTake limit before)).length ∧
      ∀ rest' taken', before = rest' ++ taken' → Indents limit rest' taken' → taken' <:+ taken := by
  obtain ⟨front, hfront, -⟩ := exists_append_lastLine before
  obtain ⟨first, taken, hline, hlength, htaken, hfirst⟩ :=
    View.exists_takeWhile_columns (mayTake limit before) (lastLine before)
  have hbefore : before = front ++ first ++ taken := by
    rw [List.append_assoc, ← hline]
    exact hfront
  have hblank : ∀ c ∈ taken, isSpaceTab c := by
    intro c hc
    rw [← View.map_fst_columns (View.columnAfter 0 first) taken] at hc
    obtain ⟨q, hq, rfl⟩ := List.mem_map.1 hc
    exact (Bool.and_eq_true_iff.1 (htaken q hq)).1
  have hlast : lastLine (front ++ first) = first := by
    have happend : lastLine (front ++ first ++ taken) = lastLine (front ++ first) ++ taken :=
      lastLine_append fun c hc => isLineEnd_of_isSpaceTab (hblank c hc)
    rw [← hbefore, hline] at happend
    exact (List.append_cancel_right happend).symm
  refine ⟨front ++ first, taken, hbefore, ⟨hblank, fun max hmax => ?_⟩, hlength,
    fun rest' taken' hbefore' h => ?_⟩
  · rw [hlast, ← hbefore]
    cases taken with
    | nil =>
      rw [hline, List.append_nil]
      exact Nat.le_add_right _ max
    | cons c taken =>
      have hc := (Bool.and_eq_true_iff.1 (htaken _ List.mem_cons_self)).2
      rw [Option.mem_def.1 hmax] at hc
      have hle := of_decide_eq_true hc
      omega
  · rcases List.append_eq_append_iff.1 (hbefore'.symm.trans hbefore) with ⟨more, hrest,
      rfl⟩ | ⟨more, -, htaken'⟩
    · -- If more could be taken, so could the character before what is taken.
      rcases more.eq_nil_or_concat' with rfl | ⟨more, c, rfl⟩
      · exact List.suffix_rfl
      · exfalso
        have hmore : first = lastLine rest' ++ more ++ [c] := by
          rw [← hlast, hrest, lastLine_append fun d hd => h.clean d (List.mem_append_left _ hd),
            List.append_assoc]
        have hfail := hfirst _ c hmore
        rw [hbefore', h.mayTake] at hfail
        cases hfail
    · exact ⟨more, htaken'.symm⟩

end Text

namespace View

variable {v : View} {before cs behind : Text}

/-- Spaces and tabs have one byte each. -/
theorem width_eq_length {cs : Text} (h : ∀ c ∈ cs, Text.isSpaceTab c) :
    Text.width cs = cs.length := by
  induction cs with
  | nil => rfl
  | cons c cs ih =>
    have hc : c.utf8Size = 1 := by
      have := h c List.mem_cons_self
      simp only [Text.isSpaceTab, Bool.or_eq_true, decide_eq_true_eq] at this
      rcases this with rfl | rfl <;> rfl
    rw [Text.width_cons, hc, ih fun d hd => h d (List.mem_cons_of_mem _ hd),
      List.length_cons, Nat.add_comm]

/-- A view that grows back over blanks shows these too. -/
theorem Shows.withStart_blank {rest taken : Text} (h : v.Shows (rest ++ taken) cs behind)
    (hblank : ∀ c ∈ taken, Text.isSpaceTab c) :
    (v.withStart (v.start - taken.length)).Shows rest (taken ++ cs) behind where
  source := by
    rw [List.append_assoc, ← List.append_assoc rest]
    exact h.source
  start := by
    change v.start - taken.length = _
    rw [h.start, Text.width_append, width_eq_length hblank, Nat.add_sub_cancel]
  stop := by
    rw [← List.append_assoc]
    exact h.stop

/-- Of the blanks before it a view takes as many as the limit allows. -/
theorem Shows.exists_indents (h : v.Shows before cs behind) (limit : Option Nat) :
    ∃ rest taken : Text, before = rest ++ taken ∧ Text.Indents limit rest taken ∧
    (v.withIndent limit).Shows rest (taken ++ cs) behind ∧
      ∀ rest' taken', before = rest' ++ taken' → Text.Indents limit rest' taken' →
      taken' <:+ taken := by
  obtain ⟨rest, taken, hbefore, hindents, hlength, hmost⟩ := Text.exists_indents limit before
  have hindent : v.withIndent limit = v.withStart (v.start - taken.length) := by
    rw [View.withIndent, h.textBefore_eq, hlength]
    rfl
  refine ⟨rest, taken, hbefore, hindents, ?_, hmost⟩
  rw [hindent]
  exact (hbefore ▸ h).withStart_blank hindents.blank

/-- With its indentation a view shows some spaces and tabs more. -/
theorem Shows.withIndent (h : v.Shows before cs behind) (limit : Option Nat) : ∃ rest taken : Text,
    (∀ c ∈ taken, Text.isSpaceTab c) ∧ (v.withIndent limit).Shows rest (taken ++ cs) behind := by
  obtain ⟨rest, taken, -, hindents, hgrown, -⟩ := h.exists_indents limit
  exact ⟨rest, taken, hindents.blank, hgrown⟩

theorem Sound.withIndent (h : v.Sound) (limit : Option Nat) : (v.withIndent limit).Sound := by
  obtain ⟨before, cs, behind, h⟩ := h
  obtain ⟨rest, taken, -, h'⟩ := h.withIndent limit
  exact h'.sound

end View

end Taskdown
