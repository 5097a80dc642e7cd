import Mathlib.Order.Bounds.Basic
import Taskdown.Proofs.Source.Coordinates
import Taskdown.Proofs.Source.Derivation

/-!
# Views that take their indentation

A view grows back over the blanks before it, and a limit says how many columns it may take. It takes
the most that the limit allows (`View.Shows.exists_indents`). In terms of offsets: of those from
which on only blanks stand before the view in its line, and of which the column is no farther away
than the limit, it is the least. A limit that is raised, or a second step with a limit of its own,
is compared by what may be taken (`Text.Indents`).

* `Source.lineStart_of_clean`: a line starts behind the terminator before it;
* `View.Shows.indentsTo_iff`: the offsets that a view may grow back to are the places before what it
  may take;
* `View.Made.indents_to_least`: it grows back to the least of them.
-/

namespace Taskdown

/-! ## The start of a line -/

namespace Source

variable {s : Source} {front line back : Text} {offset n : Nat}

/-- What is behind a place starts lines of its own, unless the place is within a pair. -/
theorem lineStartsFrom_append (h : back.head? ≠ some '\n') :
    lineStartsFrom offset (front ++ back) =
      lineStartsFrom offset front ++ lineStartsFrom (offset + Text.width front) back := by
  induction front generalizing offset with
  | nil => rfl
  | cons c front ih =>
    have hends : Text.endsLine c (front ++ back) = Text.endsLine c front := by
      cases front with
      | nil =>
        rw [List.nil_append, Text.endsLine, Text.endsLine, decide_eq_true h]
        rfl
      | cons d front => rfl
    rw [List.cons_append, lineStartsFrom, lineStartsFrom, hends, Text.width_cons, ← Nat.add_assoc]
    split
    · rw [ih, List.cons_append]
    · exact ih

theorem bounds_of_mem_lineStartsFrom {cs : Text} (h : n ∈ lineStartsFrom offset cs) :
    offset < n ∧ n ≤ offset + Text.width cs := by
  induction cs generalizing offset with
  | nil => cases h
  | cons c cs ih =>
    have hc : 0 < c.utf8Size := c.utf8Size_pos
    have hlater : n ∈ lineStartsFrom (offset + c.utf8Size) cs → offset < n ∧
        n ≤ offset + (c.utf8Size + Text.width cs) := by
      intro h
      have := ih h
      omega
    rw [lineStartsFrom] at h
    rw [Text.width_cons]
    split at h
    · rcases List.mem_cons.1 h with rfl | h
      · omega
      · exact hlater h
    · exact hlater h

/-- Behind a text that ends with a terminator a line starts. -/
theorem getLast?_lineStartsFrom (hne : front ≠ [])
    (h : ∀ c ∈ front.getLast?, Text.isLineEnd c = true) :
    (lineStartsFrom offset front).getLast? = some (offset + Text.width front) := by
  induction front generalizing offset with
  | nil => exact absurd rfl hne
  | cons c front ih =>
    rw [Text.width_cons, ← Nat.add_assoc, lineStartsFrom]
    cases front with
    | nil =>
      have hc : Text.endsLine c [] = true := by
        have hend := h c rfl
        simp only [Text.isLineEnd, Bool.or_eq_true, decide_eq_true_eq] at hend
        rcases hend with rfl | rfl <;> rfl
      rw [if_pos hc]
      rfl
    | cons d front =>
      have hlast : (lineStartsFrom (offset + c.utf8Size) (d :: front)).getLast? =
          some (offset + c.utf8Size + Text.width (d :: front)) :=
            ih (List.cons_ne_nil d front) fun e he => h e he
      split
      · rw [List.getLast?_cons, hlast]
        rfl
      · exact hlast

/-- A line starts behind the terminator before it. -/
theorem lineStart_of_clean (hs : s.text = front ++ (line ++ back))
    (hfront : ∀ c ∈ front.getLast?, Text.isLineEnd c = true)
    (hclean : ∀ c ∈ line, Text.isLineEnd c = false) (hne : line ≠ []) :
    s.lineStart (Text.width (front ++ line)) = Text.width front := by
  have hfloor : Text.floorBoundary s.text (Text.width (front ++ line)) =
      Text.width (front ++ line) := by
    refine Text.floorBoundary_of_isBoundary ?_
    rw [hs, ← List.append_assoc]
    exact Text.isBoundary_append_left _ _
  have hhead : (line ++ back).head? ≠ some '\n' := by
    cases line with
    | nil => exact absurd rfl hne
    | cons c line =>
      intro hc
      have hend := hclean c List.mem_cons_self
      rw [Option.some.inj hc] at hend
      cases hend
  -- The lines behind the terminator start behind the place.
  have hstarts : s.lineStartsTo (Text.width (front ++ line)) = lineStartsFrom 0 front := by
    rw [lineStartsTo, hs, lineStartsFrom_append hhead, lineStartsFrom_append_of_clean hclean,
      Nat.zero_add, ← Text.width_append, List.takeWhile_append_of_pos]
    · rw [List.takeWhile_eq_nil_iff.2, List.append_nil]
      intro hpos hle
      have hbounds := bounds_of_mem_lineStartsFrom (List.getElem_mem hpos)
      exact absurd (of_decide_eq_true hle) (Nat.not_le_of_lt hbounds.1)
    · intro n hn
      have hbounds := bounds_of_mem_lineStartsFrom hn
      rw [Nat.zero_add] at hbounds
      rw [Text.width_append]
      exact decide_eq_true (by omega)
  rw [lineStart, hfloor, hstarts]
  rcases eq_or_ne front [] with rfl | hfront'
  · rfl
  · rw [getLast?_lineStartsFrom hfront' hfront, Nat.zero_add]
    rfl

end Source

/-! ## Growing back to an offset -/

namespace View

variable {v : View} {before cs behind : Text} {limit : Option Nat} {n : Nat}

/-- A view may grow back to an offset of its line: only blanks stand between the two, and between
    the columns of the two is no more than the limit. -/
structure IndentsTo (v : View) (limit : Option Nat) (n : Nat) : Prop where
  le : n ≤ v.start
  boundary : Text.isBoundary v.source.text n
  line : v.source.lineStart v.start ≤ n
  blank : ∀ c ∈ Text.slice v.source.text n v.start, Text.isSpaceTab c
  within : ∀ max ∈ limit,
    columnAfter 0 (Text.slice v.source.text (v.source.lineStart v.start) v.start) ≤
      columnAfter 0 (Text.slice v.source.text (v.source.lineStart v.start) n) + max

theorem IndentsTo.mono {a b : Nat} (h : v.IndentsTo (some a) n) (hle : a ≤ b) :
    v.IndentsTo (some b) n := by
  refine ⟨h.le, h.boundary, h.line, h.blank, fun max hmax => ?_⟩
  obtain rfl := Option.some.inj hmax
  exact Nat.le_trans (h.within a rfl) (Nat.add_le_add_left hle _)

/-- A limit that the line of the view does not reach is none. -/
theorem indentsTo_some_iff {max : Nat}
    (h : columnAfter 0 (Text.slice v.source.text (v.source.lineStart v.start) v.start) ≤ max) :
    v.IndentsTo (some max) n ↔ v.IndentsTo none n := by
  constructor
  · intro hn
    exact ⟨hn.le, hn.boundary, hn.line, hn.blank, nofun⟩
  · intro hn
    refine ⟨hn.le, hn.boundary, hn.line, hn.blank, fun max' hmax => ?_⟩
    obtain rfl := Option.some.inj hmax
    exact Nat.le_trans h (Nat.le_add_left max _)

/-- The line of a view with blanks before it starts where the line of the text before these
    starts. -/
theorem Shows.lineStart_eq {rest taken : Text} (h : v.Shows (rest ++ taken) cs behind)
    (hclean : ∀ c ∈ taken, Text.isLineEnd c = false) (hne : taken ≠ []) :
    v.source.lineStart v.start ≤ Text.width rest ∧
      Text.slice v.source.text (v.source.lineStart v.start) v.start =
        Text.lastLine (rest ++ taken) ∧
      Text.slice v.source.text (v.source.lineStart v.start) (Text.width rest) =
        Text.lastLine rest := by
  obtain ⟨front, hfront, hend⟩ := Text.exists_append_lastLine rest
  have hlast : Text.lastLine (rest ++ taken) = Text.lastLine rest ++ taken :=
    Text.lastLine_append hclean
  have hbefore : rest ++ taken = front ++ Text.lastLine (rest ++ taken) := by
    rw [hlast, ← List.append_assoc, ← hfront]
  have hs : v.source.text = front ++ (Text.lastLine (rest ++ taken) ++ (cs ++ behind)) := by
    rw [← List.append_assoc, ← hbefore]
    exact h.source
  have hstart : v.source.lineStart v.start = Text.width front := by
    rw [h.start, hbefore]
    refine Source.lineStart_of_clean hs hend (fun c hc => Text.isLineEnd_of_mem_lastLine hc) ?_
    rw [hlast]
    exact List.append_ne_nil_of_right_ne_nil _ hne
  have hrest : Text.width rest = Text.width front + Text.width (Text.lastLine rest) := by
    rw [← Text.width_append, ← hfront]
  rw [hstart, hrest]
  refine ⟨Nat.le_add_right _ _, ?_, ?_⟩
  · rw [h.start, hbefore, hs, Text.width_append, ← hbefore, Text.slice_append_append]
  · rw [hs, hlast, List.append_assoc, Text.slice_append_append]

/-- The offsets that a view may grow back to are the places before the blanks that it may take. -/
theorem Shows.indentsTo_iff (h : v.Shows before cs behind) : v.IndentsTo limit n ↔
    ∃ rest taken, before = rest ++ taken ∧ n = Text.width rest ∧ Text.Indents limit rest taken := by
  constructor
  · intro hn
    obtain ⟨rest, more, hmore, rfl⟩ := Text.isBoundary_iff.1 hn.boundary
    have hle := hn.le
    rw [h.start] at hle
    obtain ⟨taken, rfl⟩ := Text.prefix_of_width_le (hmore.symm.trans h.source) hle
    have hslice : Text.slice v.source.text (Text.width rest) v.start = taken := by
      rw [h.source, h.start, List.append_assoc, Text.width_append, Text.slice_append_append]
    have hblank := hn.blank
    rw [hslice] at hblank
    refine ⟨rest, taken, rfl, rfl, hblank, fun max hmax => ?_⟩
    rcases eq_or_ne taken [] with rfl | hne
    · rw [List.append_nil]
      exact Nat.le_add_right _ max
    · obtain ⟨-, hall, hrest⟩ :=
        h.lineStart_eq (fun c hc => Text.isLineEnd_of_isSpaceTab (hblank c hc)) hne
      rw [← hall, ← hrest]
      exact hn.within max hmax
  · rintro ⟨rest, taken, rfl, rfl, hindents⟩
    have hboundary : Text.isBoundary v.source.text (Text.width rest) := by
      rw [h.source, List.append_assoc]
      exact Text.isBoundary_append_left _ _
    have hle : Text.width rest ≤ v.start := by
      rw [h.start, Text.width_append]
      exact Nat.le_add_right _ _
    have hslice : Text.slice v.source.text (Text.width rest) v.start = taken := by
      rw [h.source, h.start, List.append_assoc, Text.width_append, Text.slice_append_append]
    rcases eq_or_ne taken [] with rfl | hne
    · -- The offset is the start of the view.
      rw [List.append_nil] at h
      rw [← h.start] at hboundary hle hslice ⊢
      exact ⟨hle, hboundary, (Source.lineStart_le hboundary).2, hslice ▸ hindents.blank,
        fun max _ => Nat.le_add_right _ max⟩
    · obtain ⟨hline, hall, hrest⟩ := h.lineStart_eq hindents.clean hne
      exact ⟨hle, hboundary, hline, hslice ▸ hindents.blank,
        fun max hmax => by rw [hall, hrest]; exact hindents.within max hmax⟩

/-- A view grows back to the least of these offsets. -/
theorem Sound.isLeast_indentsTo (h : v.Sound) (limit : Option Nat) :
    IsLeast {n | v.IndentsTo limit n} (v.withIndent limit).start := by
  obtain ⟨before, cs, behind, h⟩ := h
  obtain ⟨rest, taken, rfl, hindents, hgrown, hmost⟩ := h.exists_indents limit
  rw [hgrown.start]
  refine ⟨h.indentsTo_iff.2 ⟨rest, taken, rfl, rfl, hindents⟩, fun n hn => ?_⟩
  obtain ⟨rest', taken', hbefore, rfl, hindents'⟩ := h.indentsTo_iff.1 hn
  obtain ⟨more, rfl⟩ := hmost rest' taken' hbefore hindents'
  rw [← List.append_assoc] at hbefore
  rw [← List.append_cancel_right hbefore, Text.width_append]
  exact Nat.le_add_right _ _

/-- Without a limit a view takes all the blanks before it. -/
theorem Shows.not_isSpaceTab_of_withIndent (h : v.Shows before cs behind) :
    ∀ c ∈ v.withIndent.textBefore.getLast?, Text.isSpaceTab c = false := by
  intro c hc
  obtain ⟨rest, taken, rfl, hindents, hgrown, hmost⟩ := h.exists_indents none
  rw [hgrown.textBefore_eq] at hc
  obtain ⟨rest, rfl⟩ := List.getLast?_eq_some_iff.1 hc
  by_contra hblank
  -- Otherwise one more could be taken.
  have hindents' : Text.Indents none rest (c :: taken) :=
    ⟨List.forall_mem_cons.2 ⟨eq_true_of_ne_false hblank, hindents.blank⟩, nofun⟩
  have hle := (hmost rest (c :: taken) (List.append_assoc ..) hindents').length_le
  exact absurd hle (Nat.not_succ_le_self _)

/-- Of the offsets of its line from which on only blanks stand before it, and of which the column is
    within the limit, a view grows back to the least, and nothing else about it changes. So it takes
    no less with a higher limit, and with the sum of two limits no less than with one after the
    other. Without a limit, or with one that the line does not reach, it takes all the blanks before
    it, and nothing is left for a second time. -/
theorem Made.indents_to_least (hv : v.Made) :
    (∀ limit, v.withIndent limit = v.withStart (v.withIndent limit).start ∧
      IsLeast {n | v.IndentsTo limit n} (v.withIndent limit).start) ∧
    Antitone (fun max => (v.withIndent (some max)).start) ∧
    (∀ a b, (v.withIndent (some (a + b))).start ≤
      ((v.withIndent (some a)).withIndent (some b)).start) ∧
    (∀ max, columnAfter 0 (Text.slice v.source.text (v.source.lineStart v.start) v.start) ≤ max →
      v.withIndent (some max) = v.withIndent) ∧
    (∀ c ∈ v.withIndent.textBefore.getLast?, Text.isSpaceTab c = false) ∧
    v.withIndent.withIndent = v.withIndent := by
  have hleast := hv.wellFormed.sound.isLeast_indentsTo
  obtain ⟨before, cs, behind, h⟩ := hv.wellFormed.sound
  have hlast : ∀ c ∈ v.withIndent.textBefore.getLast?, Text.isSpaceTab c = false :=
    h.not_isSpaceTab_of_withIndent
  refine ⟨fun limit => ⟨rfl, hleast limit⟩, fun max max' hle => ?_, fun a b => ?_,
    fun max hmax => ?_, hlast, ?_⟩
  · exact (hleast (some max')).2 ((hleast (some max)).1.mono hle)
  · obtain ⟨rest, taken, rfl, hindents, hgrown, -⟩ := h.exists_indents (some a)
    obtain ⟨rest, taken', rfl, hindents', hgrown', -⟩ := hgrown.exists_indents (some b)
    rw [hgrown'.start]
    exact (hleast (some (a + b))).2 (h.indentsTo_iff.2 ⟨rest, taken' ++ taken, List.append_assoc ..,
      rfl, hindents.append hindents'⟩)
  · have hsame : {n | v.IndentsTo (some max) n} = {n | v.IndentsTo none n} := by
      ext n
      exact indentsTo_some_iff hmax
    have hstart := (hleast (some max)).unique (hsame ▸ hleast none)
    exact congrArg v.withStart hstart
  · -- The second time no blank stands before the view.
    obtain ⟨rest, taken, -, -, hgrown, -⟩ := h.exists_indents none
    obtain ⟨rest', taken', rfl, hindents, hgrown', -⟩ := hgrown.exists_indents none
    have hnil : taken' = [] := by
      rcases taken'.eq_nil_or_concat' with hnil | ⟨more, c, rfl⟩
      · exact hnil
      · have hc :=
          hlast c (by rw [hgrown.textBefore_eq, ← List.append_assoc]; exact List.getLast?_concat)
        rw [hindents.blank c (List.mem_append_right _ List.mem_cons_self)] at hc
        cases hc
    have hstart : v.withIndent.withIndent.start = v.withIndent.start := by
      rw [hgrown'.start, hgrown.start, hnil, List.append_nil]
    exact congrArg v.withIndent.withStart hstart

/-- Of `é\r\nb \t \tx` the view of `x` takes a tab and a space of two and one columns, but no second
    space; a tab of two columns is taken with a limit of two behind a limit of one, which takes
    nothing. -/
theorem Made.indents_to_least_of_tabs : ∃ v : View, v.Made ∧ v.start = 10 ∧
    IsLeast {n | v.IndentsTo (some 3) n} 8 ∧ ¬ v.IndentsTo (some 3) 7 ∧
    (v.withIndent (some (1 + 2))).start ≤ ((v.withIndent (some 1)).withIndent (some 2)).start ∧
    ((v.withIndent (some 1)).withIndent (some 2)).start = 9 ∧
    v.withIndent (some 8) = v.withIndent ∧ v.withIndent.start = 5 ∧
    v.withIndent.withIndent = v.withIndent := by
  let source : Source := ⟨0, ['é', '\r', '\n', 'b', ' ', '\t', ' ', ' ', '\t', 'x']⟩
  have hcut : View.ofRange source 10 11 = .ok ⟨source, ⟨10, 11⟩, none⟩ := rfl
  obtain ⟨hleast, -, htwice, hwhole, -, hagain⟩ := Made.indents_to_least (.ofRange hcut)
  have height := (hleast (some 3)).2
  refine ⟨_, .ofRange hcut, rfl, height, fun h => ?_, htwice 1 2, by decide, hwhole 8 (by decide),
    by decide, hagain⟩
  exact absurd (height.2 h) (by decide)

end View

end Taskdown
