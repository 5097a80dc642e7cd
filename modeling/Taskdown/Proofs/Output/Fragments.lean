import Taskdown.Proofs.Output.Contents

/-!
# Fragments of a text

A text may be appended whole, or in fragments. A writer keeps the text of the line that has not
ended, so that it should not matter where a text is cut. It does matter at one place: the `\r` of a
line end `\r\n` is dropped when both come in one fragment. If the cut parts the two
(`Text.PartsReturn`), the `\r` has become text of the line, and stays there unless the line is blank
and loses its text.

* `Writer.append_line`: a text is appended line by line;
* `Writer.KeepsReturn`: what comes of the other cuts, a line that has a `\r` too many, and nothing
  else;
* `Writer.append_append_iff`: these are the only cuts that matter.
-/

namespace Taskdown

/-- The cut between two fragments parts a `\r` from the `\n` behind it. -/
def Text.PartsReturn (a b : Text) : Prop := a.getLast? = some '\r' ∧ b.head? = some '\n'

instance (a b : Text) : Decidable (Text.PartsReturn a b) := inferInstanceAs (Decidable (_ ∧ _))

namespace Writer

variable {w w' : Writer} {a b l m : Text}

/-! ## Line by line -/

theorem pieces_line (h : '\n' ∉ l) (cs : Text) :
    pieces (l ++ '\n' :: cs) = (l, true) :: pieces cs := by
  induction l with
  | nil => exact if_pos rfl
  | cons c l ih =>
    have hc : c ≠ '\n' := fun e => h (e ▸ List.mem_cons_self)
    rw [List.cons_append, pieces, if_neg hc, ih fun hmem => h (List.mem_cons_of_mem _ hmem)]

/-- A line is appended with its terminator, and what follows it afterwards. -/
theorem append_line (h : '\n' ∉ l) (w : Writer) (cs : Text) :
    w.append (l ++ '\n' :: cs) = { w with pending := w.pending ++ dropReturn l }.endLine.append
    cs := by
  rw [append, pieces_line h]
  rfl

/-- Only the line that has not ended matters for what follows a text. -/
theorem exists_lastLine (w : Writer) (a : Text) : ∃ (w' : Writer) (l : Text), '\n' ∉ l ∧
    (a.getLast? = some '\r' ↔ l.getLast? = some '\r') ∧
    ∀ b, w.append (a ++ b) = w'.append (l ++ b) := by
  by_cases h : '\n' ∈ a
  · obtain ⟨l, rest, rfl, hl⟩ := List.eq_append_cons_of_mem h
    obtain ⟨w', l', hl', hlast, happend⟩ :=
      exists_lastLine { w with pending := w.pending ++ dropReturn l }.endLine rest
    refine ⟨w', l', hl', ?_, fun b => ?_⟩
    · rw [← hlast, List.getLast?_append, List.getLast?_cons]
      cases rest.getLast? <;> simp
    · rw [List.append_assoc, List.cons_append, append_line hl, happend]
  · exact ⟨w, a, h, Iff.rfl, fun _ => rfl⟩
termination_by a.length
decreasing_by
  subst_vars
  simp only [List.length_append, List.length_cons]
  omega

/-! ## A `\r` at the end of a line -/

/-- The `\r` at the end of a piece is dropped whatever stands before the piece. -/
theorem dropReturn_append (hm : m ≠ []) : dropReturn (l ++ m) = l ++ dropReturn m := by
  obtain ⟨front, c, rfl⟩ := (List.eq_nil_or_concat m).resolve_left hm
  rw [List.concat_eq_append, dropReturn, dropReturn, ← List.append_assoc, List.getLast?_concat,
    List.getLast?_concat, List.dropLast_concat, List.dropLast_concat]
  split
  · rfl
  · rw [List.append_assoc]

theorem dropReturn_of_ne (h : l.getLast? ≠ some '\r') : dropReturn l = l := if_neg h

theorem dropReturn_concat (l : Text) : dropReturn (l ++ ['\r']) = l := by
  rw [dropReturn, if_pos List.getLast?_concat, List.dropLast_concat]

/-- A `\r` makes no difference to whether a line has content. -/
theorem hasContent_return (w : Writer) :
    { w with pending := w.pending ++ ['\r'] }.hasContent = w.hasContent := by
  have hblank : Text.isBlank (w.pending ++ ['\r']) = Text.isBlank w.pending := by
    rw [Text.isBlank_append, show Text.isBlank ['\r'] = true by decide, Bool.and_true]
  change (!(Text.isBlank (w.pending ++ ['\r']) && _)) = _
  rw [hblank]
  rfl

/-- The first writer is the second one with a `\r` at the end of the text of one line. -/
def KeepsReturn (w w' : Writer) : Prop := ∃ newer l l' older, w.ended = newer ++ l :: older ∧
  w' = { w with ended := newer ++ l' :: older } ∧ l.text = l'.text ++ ['\r'] ∧ l.part = l'.part

theorem KeepsReturn.ne (h : w.KeepsReturn w') : w ≠ w' := by
  obtain ⟨newer, l, l', older, hended, hw', htext, -⟩ := h
  intro heq
  have hsame := congrArg ended (heq.trans hw')
  rw [hended] at hsame
  have hl := (List.cons.inj (List.append_cancel_left hsame)).1
  rw [hl] at htext
  exact List.cons_ne_nil _ _ (List.self_eq_append_right.1 htext)

/-- What ending a line does, by what becomes of the line. -/
theorem endLine_eq (w : Writer) : w.endLine = { w with
    ended := w.nextLine :: w.ended
    leads := w.leads.map (Lead.used w.hasContent)
    pending := []
    runLines := if w.runDepth = 0 then w.runLines else w.runLines + 1
    trailingBlanks := if w.hasContent then 0 else w.trailingBlanks + 1 } := by
  rw [← ended_endLine]
  rfl

/-- A blank line that loses its text loses the `\r` too. -/
theorem endLine_return_of_not (h : w.hasContent = false) :
    { w with pending := w.pending ++ ['\r'] }.endLine = w.endLine := by
  have hcontent := w.hasContent_return.trans h
  have hline : { w with pending := w.pending ++ ['\r'] }.nextLine = w.nextLine := by
    rw [nextLine, nextLine, hcontent, h]
    rfl
  rw [endLine_eq, endLine_eq, hline, hcontent, h]

/-- Any other line keeps it. -/
theorem endLine_return (h : w.hasContent) :
    KeepsReturn { w with pending := w.pending ++ ['\r'] }.endLine w.endLine := by
  have hcontent := w.hasContent_return.trans h
  refine ⟨[], _, w.nextLine, w.ended, ended_endLine _, ?_, ?_, rfl⟩
  · rw [endLine_eq, endLine_eq, hcontent, h]
    rfl
  · change (if _ then _ else _) = (if _ then _ else _) ++ _
    rw [if_pos hcontent, if_pos h]

/-! ## What follows -/

/-- What is appended does not depend on the lines that have ended. -/
theorem exists_newer (w : Writer) (cs : Text) : ∃ newer, ∀ ended : List WrittenLine,
    { w with ended }.append cs = { w.append cs with ended := newer ++ ended } := by
  suffices h : ∀ (ps : List (Text × Bool)) (w : Writer), ∃ newer, ∀ ended : List WrittenLine,
      ps.foldl appendPiece { w with ended } =
        { ps.foldl appendPiece w with ended := newer ++ ended } from h _ w
  intro ps
  induction ps with
  | nil => exact fun w => ⟨[], fun _ => rfl⟩
  | cons p ps ih =>
    intro w
    obtain ⟨newer, hnewer⟩ := ih (w.appendPiece p)
    obtain ⟨piece, isEnded⟩ := p
    cases isEnded with
    | false => exact ⟨newer, hnewer⟩
    | true =>
      let line := { w with pending := w.pending ++ dropReturn piece }.nextLine
      refine ⟨newer ++ [line], fun ended => ?_⟩
      have hline : { w with ended }.appendPiece (piece, true) =
          { w.appendPiece (piece, true) with ended := line :: ended } := by
        rw [appendPiece, appendPiece, endLine_eq, endLine_eq]
        rfl
      rw [List.foldl_cons, hline, hnewer, List.append_assoc]
      rfl

theorem KeepsReturn.append (h : w.KeepsReturn w') (cs : Text) :
    (w.append cs).KeepsReturn (w'.append cs) := by
  obtain ⟨front, l, l', older, hended, rfl, htext, hpart⟩ := h
  obtain ⟨newer, hnewer⟩ := w.exists_newer cs
  have hw : w.append cs = { w.append cs with ended := newer ++ w.ended } := hnewer w.ended
  refine ⟨newer ++ front, l, l', older, ?_, ?_, htext, hpart⟩
  · rw [hw, hended, List.append_assoc]
  · rw [hnewer, List.append_assoc]

/-! ## Cuts -/

section

variable (hl : '\n' ∉ l)

include hl

/-- A cut that parts a line end, seen from where its `\r` stands. -/
theorem append_parted (w : Writer) (rest : Text) :
    (w.append (l ++ ['\r'])).append ('\n' :: rest) =
        { w.append l with pending := (w.append l).pending ++ ['\r'] }.endLine.append rest ∧
      w.append ((l ++ ['\r']) ++ '\n' :: rest) = (w.append l).endLine.append rest ∧
      (w.append (l ++ ['\r'])).hasContent = (w.append l).hasContent := by
  have hlr : '\n' ∉ l ++ ['\r'] := fun h => (List.mem_append.1 h).elim hl (by decide)
  have hsplit : w.append (l ++ ['\r']) =
      { w.append l with pending := (w.append l).pending ++ ['\r'] } := by
    rw [append_of_not_mem hlr, append_of_not_mem hl, List.append_assoc]
  refine ⟨?_, ?_, ?_⟩
  · rw [hsplit]
    refine (append_line List.not_mem_nil _ rest).trans ?_
    rw [show dropReturn [] = [] from rfl, List.append_nil]
  · rw [append_line hlr, dropReturn_concat, append_of_not_mem hl]
  · rw [hsplit, hasContent_return]

/-- A cut within a line, or right before its end, does not matter if it parts no line end. -/
theorem append_append_of_not (h : ¬ (Text.PartsReturn l b ∧ (w.append l).hasContent)) :
    (w.append l).append b = w.append (l ++ b) := by
  by_cases hb : '\n' ∈ b
  · obtain ⟨m, rest, rfl, hm⟩ := List.eq_append_cons_of_mem hb
    have hlm : '\n' ∉ l ++ m := fun hmem => (List.mem_append.1 hmem).elim hl hm
    by_cases hparts : Text.PartsReturn l (m ++ '\n' :: rest)
    · -- The `\r` goes with the text of a blank line.
      obtain ⟨front, rfl⟩ := List.getLast?_eq_some_iff.1 hparts.1
      have hfront : '\n' ∉ front := fun hmem => hl (List.mem_append_left _ hmem)
      obtain rfl : m = [] := by
        cases m with
        | nil => rfl
        | cons c m =>
          obtain rfl := Option.some.inj hparts.2
          exact absurd List.mem_cons_self hm
      obtain ⟨hcut, hwhole, hcontent⟩ := append_parted hfront w rest
      have hblank : (w.append front).hasContent = false := by
        rw [← hcontent]
        exact Bool.not_eq_true _ ▸ fun hc => h ⟨hparts, hc⟩
      refine hcut.trans (Eq.trans ?_ hwhole.symm)
      rw [endLine_return_of_not hblank]
    · rw [append_of_not_mem hl, append_line hm, ← List.append_assoc, append_line hlm]
      refine congrArg (fun cs => ({ w with pending := cs } : Writer).endLine.append rest) ?_
      by_cases hne : m = []
      · subst hne
        have hlast : l.getLast? ≠ some '\r' := fun hlast => hparts ⟨hlast, rfl⟩
        rw [List.append_nil, dropReturn_of_ne hlast]
        exact List.append_nil _
      · rw [dropReturn_append hne, List.append_assoc]
  · have hlb : '\n' ∉ l ++ b := fun hmem => (List.mem_append.1 hmem).elim hl hb
    rw [append_of_not_mem hl, append_of_not_mem hb, append_of_not_mem hlb, List.append_assoc]

/-- A cut that parts the end of a line with content leaves a `\r` in the line. -/
theorem keepsReturn_append (hparts : Text.PartsReturn l b) (hcontent : (w.append l).hasContent) :
    KeepsReturn ((w.append l).append b) (w.append (l ++ b)) := by
  obtain ⟨front, rfl⟩ := List.getLast?_eq_some_iff.1 hparts.1
  obtain ⟨rest, rfl⟩ := List.head?_eq_some_iff.1 hparts.2
  have hfront : '\n' ∉ front := fun hmem => hl (List.mem_append_left _ hmem)
  obtain ⟨hcut, hwhole, hsame⟩ := append_parted hfront w rest
  rw [hcut, hwhole]
  exact (endLine_return (hsame ▸ hcontent)).append rest

end

/-- A text may be appended in two fragments as well as whole, exactly if the cut does not part the
    `\r\n` of a line with content. If it does, that line has a `\r` at its end, and all else is the
    same. -/
theorem append_append_iff (w : Writer) (a b : Text) :
    ((w.append a).append b = w.append (a ++ b) ↔
      ¬ (Text.PartsReturn a b ∧ (w.append a).hasContent)) ∧
    (Text.PartsReturn a b ∧ (w.append a).hasContent →
      KeepsReturn ((w.append a).append b) (w.append (a ++ b))) := by
  obtain ⟨w', l, hl, hlast, happend⟩ := w.exists_lastLine a
  have hw : w.append a = w'.append l := by simpa only [List.append_nil] using happend []
  have hparts : Text.PartsReturn a b ↔ Text.PartsReturn l b := and_congr_left fun _ => hlast
  rw [hparts, hw, happend]
  have hkeeps : Text.PartsReturn l b ∧ (w'.append l).hasContent →
      KeepsReturn ((w'.append l).append b) (w'.append (l ++ b)) :=
        fun h => keepsReturn_append hl h.1 h.2
  exact ⟨⟨fun heq h => (hkeeps h).ne heq, append_append_of_not hl⟩, hkeeps⟩

/-- The `\r` stays if the `\n` comes later, and goes if both come at once. -/
theorem append_append_of_parted_return :
    (({} : Writer).append ['a', '\r']).append ['\n'] ≠
    ({} : Writer).append (['a', '\r'] ++ ['\n']) ∧
    ((({} : Writer).append ['a', '\r']).append ['\n']).text = ['a', '\r', '\n'] ∧
    (({} : Writer).append (['a', '\r'] ++ ['\n'])).text = ['a', '\n'] := by
  decide

end Writer

end Taskdown
