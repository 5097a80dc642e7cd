import Taskdown.Proofs.Source.LineEnds
import Taskdown.Proofs.Source.Overlapping

/-!
# Views that grow to lines

A view grows over what is behind it up to a terminator, and back over what is before it. Both ways
the same text is taken, read forwards or backwards (`Text.reach`): what is before the first
terminator, and then the terminator if it is wanted. Only the order of the two halves of a pair
depends on the direction. What is taken ends with a terminator, or nothing more can be taken
(`Text.exists_reach`), and so a view that has grown does not grow again.

Within a line of the source a view grows to that line. The lines are cut from the front, so it is
the cut before a line that tells what stands before it (`View.exists_firstLine_of_mem_lines`).

* `View.Shows.extendToLineEnd`, `View.Shows.extendToLineStart`: what a view shows when it has grown;
* `View.Sound.grows_once_to_line_end`, `View.Sound.grows_once_to_line_start`: it has grown for good;
* `View.Made.grows_to_lines`: in a line of the source it grows to that line.
-/

namespace Taskdown

namespace Text

variable {first second : Char} {inclusive : Bool} {terminators ahead rest : Text} {c : Char}

/-! ## What is taken -/

/-- The terminator of which a text starts with the first character: a pair, or that character
    alone. -/
def leadingTerminator (first second : Char) (terminators : Text) : Text → Text
  | [] => []
  | c :: cs =>
    if c = first ∧ second ∈ terminators ∧ cs.head? = some second then [first, second] else [c]

/-- What is taken from a text: what is before the first terminator, and the terminator too if it is
    wanted. -/
def reach (first second : Char) (inclusive : Bool) (terminators ahead : Text) : Text :=
  ahead.takeWhile (!terminators.contains ·) ++
    if inclusive then leadingTerminator first second terminators
      (ahead.dropWhile (!terminators.contains ·)) else []

theorem leadingTerminator_prefix (first second : Char) (terminators cs : Text) :
    leadingTerminator first second terminators cs <+: cs := by
  cases cs with
  | nil => exact List.prefix_rfl
  | cons c cs =>
    rw [leadingTerminator]
    split
    · next hpair =>
      obtain ⟨rfl, -, hsecond⟩ := hpair
      obtain ⟨rest, rfl⟩ := List.head?_eq_some_iff.1 hsecond
      exact List.prefix_append [c, second] rest
    · exact List.prefix_append [c] cs

theorem reach_false (first second : Char) (terminators ahead : Text) :
    reach first second false terminators ahead = ahead.takeWhile (!terminators.contains ·) := by
      simp [reach]

/-- What is left starts with a terminator. -/
theorem contains_of_dropWhile_eq_cons {cs : Text}
    (h : ahead.dropWhile (!terminators.contains ·) = c :: cs) : terminators.contains c = true := by
  have hhead := List.head?_dropWhile_not (!terminators.contains ·) ahead
  rw [h] at hhead
  simpa using hhead

/-- With the terminator more is taken. -/
theorem reach_false_prefix_reach_true (first second : Char) (terminators ahead : Text) :
    reach first second false terminators ahead <+: reach first second true terminators ahead := by
  rw [reach_false]
  exact List.prefix_append _ _

/-- What is taken is taken from the front of the text. It ends with a terminator, or nothing can be
    taken from the rest. -/
theorem exists_reach (first second : Char) (inclusive : Bool) (terminators ahead : Text) :
    ∃ rest, ahead = reach first second inclusive terminators ahead ++ rest ∧
      ((reach first second inclusive terminators ahead).getLast?.any terminators.contains = true ∨
        reach first second inclusive terminators rest = []) := by
  have hahead := List.takeWhile_append_dropWhile (p := (!terminators.contains ·)) (l := ahead)
  cases inclusive with
  | false =>
    refine ⟨ahead.dropWhile (!terminators.contains ·), ?_, .inr ?_⟩
    · rw [reach_false, hahead]
    · rw [reach_false]
      cases hdrop : ahead.dropWhile (!terminators.contains ·) with
      | nil => rfl
      | cons c cs =>
        simp only [List.takeWhile_cons, contains_of_dropWhile_eq_cons hdrop, Bool.not_true, if_neg,
          Bool.false_eq_true, not_false_eq_true]
  | true =>
    obtain ⟨rest, hrest⟩ := leadingTerminator_prefix first second terminators
      (ahead.dropWhile (!terminators.contains ·))
    refine ⟨rest, ?_, ?_⟩
    · rw [reach, if_pos rfl, List.append_assoc, hrest, hahead]
    · cases hdrop : ahead.dropWhile (!terminators.contains ·) with
      | nil =>
        -- There is no terminator, so everything is taken.
        rw [hdrop] at hrest
        obtain rfl : rest = [] := (List.append_eq_nil_iff.1 hrest).2
        exact .inr rfl
      | cons c cs =>
        have hc := contains_of_dropWhile_eq_cons hdrop
        rw [reach, if_pos rfl, hdrop, leadingTerminator]
        split
        · next hpair =>
          refine .inl ?_
          rw [List.getLast?_append]
          simpa using hpair.2.1
        · refine .inl ?_
          rw [List.getLast?_append]
          simpa using hc

theorem contains_lineEnds (c : Char) : (['\r', '\n'] : Text).contains c = isLineEnd c := by
  simp [isLineEnd]

/-- From the middle of a line the rest of the line is taken. -/
theorem FirstLine.reach_eq {body terminator : Text} (h : FirstLine (body ++ ahead) terminator rest)
    (inclusive : Bool) : reach '\r' '\n' inclusive ['\r', '\n'] (ahead ++ (terminator ++ rest)) =
      ahead ++ if inclusive then terminator else [] := by
  have hclean : ∀ c ∈ ahead, (!(['\r', '\n'] : Text).contains c) = true := by
    intro c hc
    rw [contains_lineEnds, h.clean c (List.mem_append_right _ hc), Bool.not_false]
  rw [reach, List.takeWhile_append_of_pos hclean, List.dropWhile_append_of_pos hclean,
    List.append_assoc, List.append_cancel_left_eq]
  have hends := h.ends
  simp only [List.mem_cons, List.not_mem_nil, or_false] at hends
  rcases hends with rfl | rfl | rfl | rfl
  · rw [h.last rfl]
    cases inclusive <;> rfl
  · -- A lone `\r` is not the first half of a pair.
    have hlone : ¬ ('\r' = '\r' ∧ '\n' ∈ (['\r', '\n'] : Text) ∧ rest.head? = some '\n') :=
        fun hpair =>
      h.lone rfl hpair.2.2
    have hleading : leadingTerminator '\r' '\n' ['\r', '\n'] ('\r' :: rest) = ['\r'] := if_neg hlone
    cases inclusive with
    | false => rfl
    | true => exact hleading
  · cases inclusive <;> rfl
  · cases inclusive <;> rfl

/-- Backwards from there the first part of the line is taken. -/
theorem reach_reverse_eq {before left : Text} (hbefore : ∀ c ∈ before.getLast?, isLineEnd c = true)
    (hleft : ∀ c ∈ left, isLineEnd c = false) :
    reach '\n' '\r' false ['\r', '\n'] (before ++ left).reverse = left.reverse := by
  have hclean : ∀ c ∈ left.reverse, (!(['\r', '\n'] : Text).contains c) = true := by
    intro c hc
    rw [contains_lineEnds, hleft c (List.mem_reverse.1 hc), Bool.not_false]
  rw [reach_false, List.reverse_append, List.takeWhile_append_of_pos hclean]
  cases hback : before.reverse with
  | nil => rw [List.takeWhile_nil, List.append_nil]
  | cons c back =>
    have hc : isLineEnd c = true := hbefore c (by rw [← List.head?_reverse, hback]; rfl)
    rw [List.takeWhile_cons, contains_lineEnds, hc, Bool.not_true, if_neg Bool.false_ne_true,
      List.append_nil]

theorem any_contains_lineEnds {o : Option Char} (h : ∀ c ∈ o, isLineEnd c = false) :
    o.any (['\r', '\n'] : Text).contains = false := by
  cases o with
  | none => rfl
  | some c => exact (contains_lineEnds c).trans (h c rfl)

end Text

namespace View

variable {u v w : View} {before cs behind rest : Text} {inclusive : Bool} {terminators : Text}

/-! ## Growing -/

theorem extendToLineEnd_eq (v : View) (inclusive : Bool) (terminators : Text) :
    v.extendToLineEnd inclusive terminators =
      if v.text.getLast?.any terminators.contains then v
      else v.withStop (v.stop +
        Text.width (Text.reach '\r' '\n' inclusive terminators v.textAfter)) := by
  rw [extendToLineEnd, Text.reach, Text.width_append, ← Nat.add_assoc]
  refine if_congr Iff.rfl rfl ?_
  dsimp only
  cases v.textAfter.dropWhile (!terminators.contains ·) with
  | nil => cases inclusive <;> rfl
  | cons c rest =>
    cases inclusive with
    | false => rfl
    | true =>
      simp only [Bool.not_true, Bool.false_eq_true, if_false, if_true, Text.leadingTerminator]
      split <;> rfl

/-- Backwards the same is taken from what is before the view. -/
theorem Sound.extendToLineStart_eq (h : v.Sound) (inclusive : Bool) (terminators : Text) :
    v.extendToLineStart inclusive terminators =
      if v.text.head?.any terminators.contains then v
      else v.withStart (v.start - Text.width
        (Text.reach '\n' '\r' inclusive terminators v.textBefore.reverse)) := by
  have hbefore := List.takeWhile_append_dropWhile (p := (!terminators.contains ·))
    (l := v.textBefore.reverse)
  rw [View.extendToLineStart, Text.reach, Text.width_append, ← Nat.sub_sub]
  refine if_congr Iff.rfl rfl ?_
  dsimp only
  cases hdrop : v.textBefore.reverse.dropWhile (!terminators.contains ·) with
  | nil =>
    -- Everything before the view is taken.
    rw [hdrop, List.append_nil] at hbefore
    have hzero : v.start - Text.width (v.textBefore.reverse.takeWhile (!terminators.contains ·)) =
        0 := by
      rw [hbefore, Text.width_reverse, h.shows.start, Nat.sub_self]
    rw [hzero]
    cases inclusive <;> rfl
  | cons c rest =>
    cases inclusive with
    | false => rfl
    | true =>
      simp only [Bool.not_true, Bool.false_eq_true, if_false, if_true, Text.leadingTerminator]
      split <;> rfl

theorem Shows.textAfter_eq (h : v.Shows before cs behind) : v.textAfter = behind := by
  rw [textAfter, h.source, h.stop, ← List.append_assoc, Text.dropBytes_width_append]

/-- A view that does not end with a terminator takes what it can reach. -/
theorem Shows.extendToLineEnd (h : v.Shows before cs behind)
    (hend : cs.getLast?.any terminators.contains = false)
    (hrest : behind = Text.reach '\r' '\n' inclusive terminators behind ++ rest) :
    (v.extendToLineEnd inclusive terminators).Shows before
      (cs ++ Text.reach '\r' '\n' inclusive terminators behind) rest := by
  rw [extendToLineEnd_eq, h.text_eq, h.textAfter_eq, hend, if_neg Bool.false_ne_true]
  refine ⟨?_, h.start, ?_⟩
  · rw [List.append_assoc, ← hrest]
    exact h.source
  · change v.stop + _ = _
    rw [h.stop, ← List.append_assoc, Text.width_append (before ++ cs)]

theorem Shows.extendToLineStart (h : v.Shows before cs behind)
    (hstart : cs.head?.any terminators.contains = false)
    (hrest : before.reverse = Text.reach '\n' '\r' inclusive terminators before.reverse ++ rest) :
    (v.extendToLineStart inclusive terminators).Shows rest.reverse
      ((Text.reach '\n' '\r' inclusive terminators before.reverse).reverse ++ cs) behind := by
  have hbefore := congrArg List.reverse hrest
  rw [List.reverse_reverse, List.reverse_append] at hbefore
  rw [h.sound.extendToLineStart_eq, h.text_eq, h.textBefore_eq, hstart, if_neg Bool.false_ne_true]
  refine ⟨?_, ?_, ?_⟩
  · rw [List.append_assoc, ← List.append_assoc rest.reverse, ← hbefore]
    exact h.source
  · change v.start - _ = _
    have hwidth := congrArg Text.width hbefore
    rw [Text.width_append, Text.width_reverse (Text.reach ..)] at hwidth
    rw [h.start]
    omega
  · rw [← List.append_assoc, ← hbefore]
    exact h.stop

/-- A view that has grown to the end of a line does not grow again. -/
theorem Sound.grows_once_to_line_end (h : v.Sound) (inclusive : Bool) (terminators : Text) :
    (v.extendToLineEnd inclusive terminators).extendToLineEnd inclusive terminators =
      v.extendToLineEnd inclusive terminators := by
  cases hend : v.text.getLast?.any terminators.contains with
  | true =>
    have hsame : v.extendToLineEnd inclusive terminators = v := by
      rw [extendToLineEnd_eq, if_pos hend]
    rw [hsame, hsame]
  | false =>
    obtain ⟨rest, hrest, hlast⟩ := Text.exists_reach '\r' '\n' inclusive terminators v.textAfter
    have hgrown := h.shows.extendToLineEnd hend hrest
    rw [extendToLineEnd_eq (v.extendToLineEnd inclusive terminators), hgrown.text_eq,
      hgrown.textAfter_eq]
    -- It ends with a terminator now, or nothing is left to take.
    rcases hlast with hlast | hnil
    · rw [List.getLast?_append, if_pos]
      revert hlast
      cases (Text.reach '\r' '\n' inclusive terminators v.textAfter).getLast? <;> simp
    · rw [hnil]
      exact ite_self _

theorem Sound.grows_once_to_line_start (h : v.Sound) (inclusive : Bool) (terminators : Text) :
    (v.extendToLineStart inclusive terminators).extendToLineStart inclusive terminators =
      v.extendToLineStart inclusive terminators := by
  cases hstart : v.text.head?.any terminators.contains with
  | true =>
    have hsame : v.extendToLineStart inclusive terminators = v := by
      rw [h.extendToLineStart_eq, if_pos hstart]
    rw [hsame, hsame]
  | false =>
    obtain ⟨rest, hrest, hlast⟩ :=
      Text.exists_reach '\n' '\r' inclusive terminators v.textBefore.reverse
    have hgrown := h.shows.extendToLineStart hstart hrest
    rw [hgrown.sound.extendToLineStart_eq, hgrown.text_eq, hgrown.textBefore_eq,
      List.reverse_reverse]
    rcases hlast with hlast | hnil
    · rw [List.head?_append, List.head?_reverse, if_pos]
      revert hlast
      cases (Text.reach '\n' '\r' inclusive terminators v.textBefore.reverse).getLast? <;> simp
    · rw [hnil]
      exact ite_self _

/-! ## Growing in a line -/

/-- A view within another one shows a part of what that one shows. -/
theorem Shows.exists_within (hu : u.Shows before cs behind) (hv : v.Sound)
    (hwithin : u.containsAll v = .ok true) :
    ∃ left middle right, cs = left ++ (middle ++ right) ∧
    v.Shows (before ++ left) middle (right ++ behind) := by
  obtain ⟨hsource, hstart, hstop⟩ := containsAll_eq_true_iff.1 hwithin
  obtain ⟨before', middle, behind', h⟩ := hv
  have hs := hu.source
  rw [hsource, h.source] at hs
  rw [hu.start, h.start] at hstart
  rw [hu.stop, h.stop] at hstop
  obtain ⟨left, rfl⟩ := Text.prefix_of_width_le hs.symm hstart
  rw [← List.append_assoc (before ++ left), ← List.append_assoc before cs] at hs
  obtain ⟨right, hright⟩ := Text.prefix_of_width_le hs hstop
  rw [← hright, List.append_assoc (_ ++ middle), List.append_cancel_left_eq] at hs
  rw [List.append_assoc before, List.append_assoc before, List.append_cancel_left_eq,
    List.append_assoc] at hright
  exact ⟨left, middle, right, hright.symm, hs ▸ h⟩

theorem Shows.span_eq (h : v.Shows before cs behind) :
    v.span = ⟨Text.width before, Text.width (before ++ cs)⟩ :=
  congrArg₂ Span.mk h.start h.stop

/-- Without its terminator a line shows its body. -/
theorem Shows.chomp_of_firstLine {body terminator : Text}
    (h : v.Shows before (body ++ terminator) rest) (hfirst : Text.FirstLine body terminator rest) :
    v.chomp.Shows before body (terminator ++ rest) :=
  h.withStop (by rw [h.text_eq, hfirst.chomp_eq])

/-- From every place in a line, and from its end if it has no terminator, the line is found
    again. -/
theorem lineSpan_of_le_chomp {s : Source} {line : View} {i : Nat} (hline : line ∈ (View.of s).lines)
    (hi : Text.isBoundary s.text i) (hle : line.start ≤ i) (hle' : i ≤ line.chomp.stop) :
    s.lineSpan i = line.chomp.span := by
  obtain ⟨k, hk⟩ := List.getElem?_of_mem hline
  rcases Nat.lt_or_ge i line.stop with hlt | hge
  · exact Source.lineSpan_of_line hline hi hle hlt (Source.lineColumn_of_line hk hi hle hlt).1
  · -- The place is the end of the text, and the line is the last one.
    obtain ⟨before, body, terminator, rest, hshows, hfirst, -, hlast⟩ :=
      exists_firstLine_of_mem_lines hline
    have hs : s.text = before ++ (body ++ terminator ++ rest) := by
      obtain ⟨span, rfl⟩ := exists_withSpan_of_mem_tile hline
      exact hshows.source
    have hchomp := (hshows.chomp_of_firstLine hfirst).stop
    have hstop := hshows.stop
    rw [← List.append_assoc, Text.width_append _ terminator] at hstop
    obtain rfl : terminator = [] := Text.width_eq_zero_iff.1 (by omega)
    obtain rfl := hfirst.last rfl
    have hbody : body ≠ [] := List.append_nil body ▸ hfirst.nonempty
    have hopen : Text.isOpen s.text = true := by
      rw [Text.isOpen, hs, List.append_nil, List.append_nil, List.getLast?_append_of_ne_nil _ hbody,
        List.getLast?_eq_some_getLast hbody, Option.any_some,
        hfirst.clean _ (List.getLast_mem hbody)]
      rfl
    have hsize : i = s.size := by
      rw [Source.size, hs, List.append_nil, List.append_nil]
      rw [Text.width_nil, Nat.add_zero] at hstop
      omega
    obtain ⟨line', hline', hstart, -⟩ := Source.lineColumn_size_of_open hopen
    obtain rfl := Option.some.inj ((hlast rfl).symm.trans hline')
    rw [hsize]
    exact Source.lineSpan_size_of_open hopen hline' hstart

/-- In a line of its source a view grows back to the start of the line, and then to its end. -/
theorem grows_to_line {line : View} (hv : v.Sound) (hline : line ∈ (View.of v.source).lines)
    (hwithin : line.chomp.containsAll v = .ok true) :
    ((v.extendToLineStart false).extendToLineEnd true).span = line.span ∧
      ((v.extendToLineStart false).extendToLineEnd false).span = line.chomp.span := by
  obtain ⟨before, body, terminator, rest, hshows, hfirst, hbefore, -⟩ :=
    exists_firstLine_of_mem_lines hline
  have hchomp := hshows.chomp_of_firstLine hfirst
  obtain ⟨left, middle, right, rfl, hv⟩ := hchomp.exists_within hv hwithin
  -- Backwards the view grows to the terminator before the line, or to the start of the source.
  have hclean := hfirst.clean
  have hhead : middle.head?.any (['\r', '\n'] : Text).contains = false :=
    Text.any_contains_lineEnds fun c hc => hclean c (by simp [List.mem_of_head? hc])
  have hreach := Text.reach_reverse_eq hbefore fun c hc => hclean c (List.mem_append_left _ hc)
  have hrest : (before ++ left).reverse =
      Text.reach '\n' '\r' false ['\r', '\n'] (before ++ left).reverse ++ before.reverse := by
    rw [hreach, List.reverse_append]
  have hstart := hv.extendToLineStart hhead hrest
  rw [hreach, List.reverse_reverse, List.reverse_reverse] at hstart
  -- Then it grows over the rest of the line.
  have hlast : (left ++ middle).getLast?.any (['\r', '\n'] : Text).contains = false :=
    Text.any_contains_lineEnds fun c hc => hclean c (by
      rw [← List.append_assoc]
      exact List.mem_append_left _ (List.mem_of_getLast? hc))
  rw [← List.append_assoc left] at hfirst
  have hreachEnd := fun inclusive => hfirst.reach_eq inclusive
  constructor
  · have hrest : right ++ (terminator ++ rest) =
        Text.reach '\r' '\n' true ['\r', '\n'] (right ++ (terminator ++ rest)) ++ rest := by
      rw [hreachEnd, if_pos rfl, List.append_assoc]
    rw [(hstart.extendToLineEnd hlast hrest).span_eq, hshows.span_eq, hreachEnd, if_pos rfl]
    simp only [List.append_assoc]
  · have hrest : right ++ (terminator ++ rest) =
        Text.reach '\r' '\n' false ['\r', '\n'] (right ++ (terminator ++ rest)) ++
          (terminator ++ rest) := by
      rw [hreachEnd, if_neg Bool.false_ne_true, List.append_nil]
    rw [(hstart.extendToLineEnd hlast hrest).span_eq, hchomp.span_eq, hreachEnd,
      if_neg Bool.false_ne_true]
    simp only [List.append_assoc, List.append_nil]

/-! ## Growing over more or less -/

theorem withStop_containsAll {i j : Nat} (h : i ≤ j) :
    (v.withStop j).containsAll (v.withStop i) = .ok true :=
  containsAll_eq_true_iff.2 ⟨rfl, Nat.le_refl _, h⟩

theorem withStart_containsAll {i j : Nat} (h : i ≤ j) :
    (v.withStart i).containsAll (v.withStart j) = .ok true :=
  containsAll_eq_true_iff.2 ⟨rfl, h, Nat.le_refl _⟩

theorem containsAll_self (v : View) : v.containsAll v = .ok true :=
  containsAll_eq_true_iff.2 ⟨rfl, Nat.le_refl _, Nat.le_refl _⟩

/-- A view that grows to the end of a line holds what it was, and with the terminator it holds what
    it is without. -/
theorem extendToLineEnd_containsAll (v : View) (terminators : Text) :
    (∀ inclusive, (v.extendToLineEnd inclusive terminators).containsAll v = .ok true) ∧
      (v.extendToLineEnd true terminators).containsAll (v.extendToLineEnd false terminators) =
        .ok true := by
  simp only [extendToLineEnd_eq]
  split
  · exact ⟨fun _ => containsAll_self v, containsAll_self v⟩
  · refine ⟨fun inclusive => withStop_containsAll (Nat.le_add_right v.stop _),
      withStop_containsAll ?_⟩
    exact Nat.add_le_add_left (Text.width_le_of_prefix (Text.reach_false_prefix_reach_true ..)) _

theorem Sound.extendToLineStart_containsAll (h : v.Sound) (terminators : Text) :
    (∀ inclusive, (v.extendToLineStart inclusive terminators).containsAll v = .ok true) ∧
      (v.extendToLineStart true terminators).containsAll (v.extendToLineStart false terminators) =
        .ok true := by
  simp only [h.extendToLineStart_eq]
  split
  · exact ⟨fun _ => containsAll_self v, containsAll_self v⟩
  · refine ⟨fun inclusive => withStart_containsAll (Nat.sub_le v.start _), withStart_containsAll ?_⟩
    exact Nat.sub_le_sub_left (Text.width_le_of_prefix (Text.reach_false_prefix_reach_true ..)) _

/-- In a line of its source, without the terminator, a view grows to that line: with the terminator
    to all of it, and without to the line that its start is found in. Whatever ends a line, every
    view holds what it was before it has grown, does not grow again, and holds more with the
    terminator than without. -/
theorem Made.grows_to_lines (hv : v.Made) :
    (∀ line ∈ (View.of v.source).lines, line.chomp.containsAll v = .ok true →
      ((v.extendToLineStart false).extendToLineEnd true).span = line.span ∧
      ((v.extendToLineStart false).extendToLineEnd false).span = v.source.lineSpan v.start) ∧
    ∀ terminators : Text, ∀ extend ∈ [@View.extendToLineEnd, @View.extendToLineStart],
      (∀ inclusive, (extend v inclusive terminators).containsAll v = .ok true ∧
        extend (extend v inclusive terminators) inclusive terminators =
        extend v inclusive terminators) ∧
      (extend v true terminators).containsAll (extend v false terminators) = .ok true := by
  have hsound := hv.wellFormed.sound
  refine ⟨fun line hline hwithin => ?_, fun terminators extend hextend => ?_⟩
  · obtain ⟨-, hstart, hstop⟩ := containsAll_eq_true_iff.1 hwithin
    rw [lineSpan_of_le_chomp hline hsound.isBoundary_start hstart (Nat.le_trans hsound.le hstop)]
    exact grows_to_line hsound hline hwithin
  · simp only [List.mem_cons, List.not_mem_nil, or_false] at hextend
    rcases hextend with rfl | rfl
    · obtain ⟨hholds, hmore⟩ := extendToLineEnd_containsAll v terminators
      exact ⟨fun inclusive =>
        ⟨hholds inclusive, hsound.grows_once_to_line_end inclusive terminators⟩, hmore⟩
    · obtain ⟨hholds, hmore⟩ := hsound.extendToLineStart_containsAll terminators
      exact ⟨fun inclusive =>
        ⟨hholds inclusive, hsound.grows_once_to_line_start inclusive terminators⟩, hmore⟩

/-- Of `é\r\nab\rc` a place in the second line grows to that line, and no farther. -/
theorem Made.grows_to_lines_of_place :
    ∃ v line : View, v.Made ∧ v.isEmpty = true ∧ line ∈ (View.of v.source).lines ∧
    line.chomp.containsAll v = .ok true ∧ line.span = ⟨4, 7⟩ ∧
    ((v.extendToLineStart false).extendToLineEnd true).span = line.span ∧
    v.source.lineSpan v.start = ⟨4, 6⟩ ∧ ((v.extendToLineStart false).extendToLineEnd false).span =
    v.source.lineSpan v.start ∧ (v.extendToLineStart true).extendToLineStart true =
    v.extendToLineStart true ∧ (v.extendToLineStart true).span = ⟨2, 5⟩ := by
  let source : Source := ⟨0, ['é', '\r', '\n', 'a', 'b', '\r', 'c']⟩
  have hcut : View.ofRange source 5 5 = .ok ⟨source, ⟨5, 5⟩, none⟩ := rfl
  obtain ⟨hlines, hall⟩ := Made.grows_to_lines (.ofRange hcut)
  have hline : (⟨source, ⟨4, 7⟩, none⟩ : View) ∈ (View.of source).lines := by decide
  have hwithin : (⟨source, ⟨4, 7⟩, none⟩ : View).chomp.containsAll ⟨source, ⟨5, 5⟩, none⟩ =
    .ok true := by decide
  obtain ⟨hwhole, hbody⟩ := hlines _ hline hwithin
  have hagain := (hall ['\r', '\n'] @View.extendToLineStart (by simp)).1 true
  exact ⟨_, _, .ofRange hcut, by decide, hline, hwithin, rfl, hwhole, by decide, hbody,
    hagain.2, by decide⟩

end View

end Taskdown
