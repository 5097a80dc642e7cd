import Taskdown.Output.Recorder
import Taskdown.Proofs.Output.Records

/-!
# Two outputs that agree

A recorder keeps a text and a line buffer, and changes each of them by itself. That they agree is
shown with a writer that follows the same script: the recorder's text is that of the lines which the
writer has ended, and its line buffer holds the records of these lines (`Recorder.Follows`).

* `Recorder.Follows.endLine`: a line that ends goes to both outputs;
* `Recorder.Follows.step`, `Recorder.Follows.run`: so does whatever a script writes, and no line is
  refused below the greatest length;
* `Recorder.Follows.finish`: the blank lines at the end are there, and the text splits where they
  start, so that they are taken from both;
* `Recorder.records_describe_text`: at every point of a script and after finishing, the records
  describe the text.
-/

namespace Taskdown

namespace Recorder

variable {r : Recorder} {w w' : Writer}

/-- The recorder stands where the writer does, and its outputs are the text and the records of the
    writer's lines. -/
structure Follows (r : Recorder) (w : Writer) : Prop where
  text : r.text = w.text
  lines : r.lines.Records w.ended.reverse
  leads : r.leads = w.leads
  pending : r.pending = w.pending
  maxBlankLines : r.maxBlankLines = w.maxBlankLines
  runDepth : r.runDepth = w.runDepth
  runLines : r.runLines = w.runLines
  trailingBlanks : r.trailingBlanks = w.trailingBlanks

/-- The recorder gets to where the writer is. -/
def Reaches (x : Except Error Recorder) (w : Writer) : Prop := ∃ r, x = .ok r ∧ r.Follows w

theorem follows_new (maxBlankLines : Nat) :
    ({ maxBlankLines } : Recorder).Follows { maxBlankLines } :=
  ⟨rfl, ⟨rfl, fun _ _ hl => nomatch hl⟩, rfl, rfl, rfl, rfl, rfl, rfl⟩

theorem Follows.reaches (h : r.Follows w) : Reaches (.ok r) w := ⟨r, rfl, h⟩

/-- What comes next starts where the recorder has got to. -/
theorem Reaches.bind {x : Except Error Recorder} {f : Recorder → Except Error Recorder}
    (h : Reaches x w) (hf : ∀ r, r.Follows w → Reaches (f r) w') : Reaches (x >>= f) w' := by
  obtain ⟨r, rfl, h⟩ := h
  exact hf r h

/-! ## Ending lines -/

theorem Follows.nextPart_eq (h : r.Follows w) : r.nextPart = w.nextPart := by
  rw [nextPart, Writer.nextPart, h.runDepth, h.runLines]

theorem Follows.hasContent_eq (h : r.Follows w) : r.hasContent = w.hasContent := by
  rw [hasContent, Writer.hasContent, h.pending, h.nextPart_eq]

theorem Follows.nextText_eq (h : r.Follows w) : r.nextText = w.nextLine.text := by
  rw [nextText, h.hasContent_eq, h.pending]
  rfl

theorem Follows.nextLead_eq (h : r.Follows w) : r.nextLead = w.nextLine.lead := by
  rw [nextLead, h.hasContent_eq, h.nextText_eq, h.leads, Writer.nextLine]
  cases w.hasContent <;> cases w.pending <;> rfl

/-- A line that loses its text has been blank before. -/
theorem isBlank_text_nextLine (w : Writer) :
    Text.isBlank w.nextLine.text = Text.isBlank w.pending := by
  change Text.isBlank (if w.hasContent then w.pending else []) = _
  split
  · rfl
  · next hcontent =>
    rw [Writer.hasContent, Bool.not_eq_true', Bool.not_eq_false, Bool.and_eq_true] at hcontent
    exact hcontent.1.symm

/-- The shape of the line that the writer ends goes to the line buffer. -/
theorem Follows.nextShape_eq (h : r.Follows w) : r.nextShape = w.nextLine.shape := by
  rw [nextShape, WrittenLine.shape, h.nextLead_eq, h.nextText_eq, h.nextPart_eq, h.pending,
    isBlank_text_nextLine]
  rfl

/-- A line that ends goes to both outputs, as long as they do not grow too long. -/
theorem Follows.endLine (h : r.Follows w) (hw : Text.width w.endLine.text ≤ maxLength) :
    Reaches r.endLine w.endLine := by
  have hlines : w.ended.reverse ++ [w.nextLine] = w.endLine.ended.reverse := by
    rw [Writer.ended_endLine, List.reverse_cons]
  have happend : r.lines.append r.nextShape =
      .ok (.of w.ended.reverse w.nextLine,
        ⟨r.lines.records ++ [.of w.ended.reverse w.nextLine]⟩) := by
    rw [h.nextShape_eq, LineBuffer.append, h.lines.chain (hlines ▸ hw)]
    rfl
  rw [Recorder.endLine, happend]
  refine ⟨_, rfl, ?_⟩
  exact
    { text := by
        dsimp only
        rw [h.text, h.nextLead_eq, h.nextText_eq, Writer.text_endLine, WrittenLine.chars]
        simp only [List.append_assoc]
      lines := hlines ▸ h.lines.append
      leads := by
        dsimp only
        rw [h.leads, h.hasContent_eq]
        rfl
      pending := rfl
      maxBlankLines := h.maxBlankLines
      runDepth := h.runDepth
      runLines := by
        dsimp only
        rw [h.runDepth, h.runLines]
        rfl
      trailingBlanks := by
        dsimp only
        rw [h.hasContent_eq, h.trailingBlanks]
        rfl }

/-- What a writer has written at some time is not longer than what it has written later. -/
theorem width_le_of_chain (h : Writer.Chain (fun _ => True) w w')
    (hw : Text.width w'.text ≤ maxLength) : Text.width w.text ≤ maxLength :=
  Nat.le_trans (Text.width_le_of_prefix (Writer.Grows.chain h)) hw

theorem Follows.line (h : r.Follows w) (hw : Text.width w.line.text ≤ maxLength) :
    Reaches r.line w.line := by
  rw [Writer.line] at hw
  rw [Recorder.line, Writer.line, h.pending]
  split
  · exact h.reaches
  · next hpending =>
    rw [if_neg hpending] at hw
    exact h.endLine hw

theorem Follows.isEmpty_eq (h : r.Follows w) : r.lines.isEmpty = w.ended.isEmpty := by
  have hlength : r.lines.records.length = w.ended.length :=
    h.lines.length_eq.trans List.length_reverse
  rw [Bool.eq_iff_iff, LineBuffer.isEmpty, List.isEmpty_iff_length_eq_zero,
    List.isEmpty_iff_length_eq_zero, hlength]

theorem Follows.blankLine (h : r.Follows w) (hw : Text.width w.blankLine.text ≤ maxLength) :
    Reaches r.blankLine w.blankLine := by
  have hline : Text.width w.line.text ≤ maxLength := by
    rw [Writer.blankLine] at hw
    split at hw
    · exact hw
    · exact width_le_of_chain (.single (.endLine w.line)) hw
  refine (h.line hline).bind fun r h => ?_
  rw [Writer.blankLine] at hw ⊢
  rw [h.runDepth, h.isEmpty_eq, h.maxBlankLines, h.trailingBlanks]
  split
  · exact h.reaches
  · next hblank =>
    rw [if_neg hblank] at hw
    exact h.endLine hw

/-! ## Text -/

theorem Follows.write (h : r.Follows w) (cs : Text) :
    Follows { r with pending := r.pending ++ cs } { w with pending := w.pending ++ cs } :=
  { h with pending := congrArg (· ++ cs) h.pending }

theorem Follows.appendPiece (h : r.Follows w) (piece : Text × Bool)
    (hw : Text.width (w.appendPiece piece).text ≤ maxLength) :
    Reaches (r.appendPiece piece) (w.appendPiece piece) := by
  obtain ⟨piece, ended⟩ := piece
  cases ended with
  | true => exact (h.write _).endLine hw
  | false => exact (h.write piece).reaches

theorem Follows.append (h : r.Follows w) (cs : Text)
    (hw : Text.width (w.append cs).text ≤ maxLength) : Reaches (r.append cs) (w.append cs) := by
  have hclean : ∀ p ∈ Writer.pieces cs, '\n' ∉ p.1 := fun _ => Writer.newline_not_mem_pieces
  rw [Recorder.append]
  rw [Writer.append] at hw ⊢
  generalize Writer.pieces cs = pieces at hclean hw
  induction pieces generalizing r w with
  | nil => exact h.reaches
  | cons p pieces ih =>
    obtain ⟨hp, hpieces⟩ := List.forall_mem_cons.1 hclean
    have hlater : Writer.Chain (fun _ => True) (w.appendPiece p)
        (pieces.foldl Writer.appendPiece (w.appendPiece p)) :=
      Writer.chain_of_growth (Writer.growth_pieces _ hpieces)
    rw [List.foldlM_cons]
    exact (h.appendPiece p (width_le_of_chain hlater hw)).bind fun r h => ih h hpieces hw

/-! ## Runs -/

theorem Follows.openRun (h : r.Follows w) (hw : Text.width w.openRun.text ≤ maxLength) :
    Reaches r.openRun w.openRun := by
  refine (h.line hw).bind fun r h => ⟨_, rfl, ?_⟩
  exact
    { h with
      runDepth := congrArg (· + 1) h.runDepth
      runLines := by
        dsimp only
        rw [h.runDepth, h.runLines]
        rfl }

/-- The last record is marked when the last line is. -/
theorem Follows.markLast (h : r.Follows w) :
    Follows { r with lines := r.lines.markLast } w.markLast := by
  obtain ⟨ended, leads, pending, maxBlankLines, runDepth, runLines, trailingBlanks⟩ := w
  cases ended with
  | nil =>
    have hrecords : r.lines.records = [] := List.eq_nil_of_length_eq_zero h.lines.length_eq
    have hsame : r.lines.markLast = r.lines := by
      rw [LineBuffer.markLast, LineBuffer.last?, hrecords]
      rfl
    exact hsame.symm ▸ h
  | cons l ended =>
    have hlines : r.lines.Records (ended.reverse ++ [l]) := List.reverse_cons ▸ h.lines
    exact
      { h with
        text := h.text.trans (Writer.text_markLast _).symm
        lines := List.reverse_cons ▸ hlines.markLast }

theorem Follows.closeRun (h : r.Follows w) (hw : Text.width w.closeRun.text ≤ maxLength) :
    Reaches r.closeRun w.closeRun := by
  have htext : w.closeRun.text = w.line.text := by
    rw [Writer.closeRun]
    split
    · exact Writer.text_markLast _
    · rfl
  refine (h.line (htext ▸ hw)).bind fun r h => ?_
  have hdepth : Follows { r with runDepth := r.runDepth - 1 }
      { w.line with runDepth := w.line.runDepth - 1 } :=
    { h with runDepth := congrArg (· - 1) h.runDepth }
  have hlast : (r.runDepth - 1 = 0 ∧ 1 < r.runLines) ↔
      (w.line.runDepth - 1 = 0 ∧ 1 < w.line.runLines) := by rw [h.runDepth, h.runLines]
  rw [Writer.closeRun]
  dsimp only
  by_cases hclosed : w.line.runDepth - 1 = 0 ∧ 1 < w.line.runLines
  · rw [if_pos hclosed, if_pos (hlast.2 hclosed)]
    exact hdepth.markLast.reaches
  · rw [if_neg hclosed, if_neg (mt hlast.1 hclosed)]
    exact hdepth.reaches

/-! ## Scripts -/

/-- Whatever a script asks for is done to both outputs. -/
theorem Follows.step (h : r.Follows w) (s : Writer.Step)
    (hw : Text.width (w.step s).text ≤ maxLength) : Reaches (r.step s) (w.step s) := by
  cases s with
  | append text => exact h.append text hw
  | line => exact h.line hw
  | blankLine => exact h.blankLine hw
  | openRun => exact h.openRun hw
  | closeRun => exact h.closeRun hw
  | pushLead lead => exact ⟨_, rfl, { h with leads := congrArg (· ++ [⟨none, lead⟩]) h.leads }⟩
  | pushLeadFirst first rest =>
    exact ⟨_, rfl, { h with leads := congrArg (· ++ [⟨some first, rest⟩]) h.leads }⟩
  | popLead => exact ⟨_, rfl, { h with leads := congrArg List.dropLast h.leads }⟩

theorem Follows.run (h : r.Follows w) (script : Script)
    (hw : Text.width (w.run script).text ≤ maxLength) : Reaches (r.run script) (w.run script) := by
  induction script generalizing r w with
  | nil => exact h.reaches
  | cons s script ih =>
    rw [Recorder.run, List.foldlM_cons]
    have hlater := width_le_of_chain (Writer.chain_run_true (w.step s) script) hw
    exact (h.step s hlater).bind fun r h => ih h hw

/-! ## Finishing -/

/-- The blank lines at the end are taken from both outputs: there are so many records, and the text
    splits in front of the first of these lines. -/
theorem Follows.finish (h : r.Follows w) (hw : Text.width w.line.text ≤ maxLength)
    (hblanks : w.line.trailingBlanks ≤ w.line.ended.length) :
    ∃ b, r.finish = .ok (w.finish.text, b) ∧ b.Records w.finish.ended.reverse := by
  obtain ⟨r, hr, h⟩ := h.line hw
  have hlength : r.lines.length = w.line.ended.length :=
    h.lines.length_eq.trans List.length_reverse
  have htext : w.finish.text = (w.line.ended.drop w.line.trailingBlanks).reverse.flatMap
      WrittenLine.chars := rfl
  rw [Recorder.finish, hr, Writer.ended_finish, htext, bind_of_eq_ok rfl, h.trailingBlanks, hlength]
  split
  · next hnone =>
    rw [hnone, List.drop_zero]
    exact ⟨_, congrArg _ (Prod.ext h.text rfl), h.lines⟩
  · rw [if_neg (Nat.not_lt.2 hblanks)]
    have hlines := h.lines.truncate (w.line.ended.length - w.line.trailingBlanks)
    rw [List.take_reverse, Nat.sub_sub_self hblanks] at hlines
    refine ⟨_, ?_, hlines⟩
    -- What is left of the text is what the lines that are left take up.
    have hsplit : r.text = (w.line.ended.drop w.line.trailingBlanks).reverse.flatMap
        WrittenLine.chars ++ (w.line.ended.take w.line.trailingBlanks).reverse.flatMap
          WrittenLine.chars := by
      rw [← List.flatMap_append, ← List.reverse_append, List.take_append_drop]
      exact h.text
    dsimp only
    rw [hlines.totalLength_eq, hsplit, Text.truncate_append]
    rfl

/-! ## Records and text -/

theorem Follows.describes (h : r.Follows w) (hc : w.Clean) :
    r.lines.Describes r.text w.ended.reverse :=
  h.text ▸ h.lines.describes fun l hl => hc.ended l (List.mem_reverse.1 hl)

/-- A new recorder can follow a script and finish, as long as the lines that end are not too long
    altogether. What it gives back is the text of the writer and its records. -/
theorem exists_finish {maxBlankLines : Nat} {script : Script}
    (h : Text.width (({ maxBlankLines } : Writer).run script).line.text ≤ maxLength) :
    ∃ r b, ({ maxBlankLines } : Recorder).run script = .ok r ∧
      r.finish = .ok ((({ maxBlankLines } : Writer).run script).finish.text, b) ∧
      (({ maxBlankLines } : Writer).run script).finish.Described b := by
  have hnew := follows_new maxBlankLines
  have hclean := Writer.clean_new maxBlankLines
  have hblanks : ({ maxBlankLines } : Writer).trailingBlanks ≤
      ({ maxBlankLines } : Writer).ended.length := Nat.le_refl _
  generalize ({ maxBlankLines } : Writer) = new at h hnew hclean hblanks ⊢
  have hchain : Writer.Chain (fun _ => True) new (new.run script).line :=
    (Writer.chain_run_true new script).trans (Writer.chain_line _)
  obtain ⟨r, hr, hfollows⟩ := hnew.run script (width_le_of_chain (Writer.chain_line _) h)
  obtain ⟨b, hfinish, hb⟩ := hfollows.finish h (hchain.trailingBlanks_le hblanks)
  have hwidth := Nat.le_trans (Text.width_le_of_prefix (Writer.text_finish_prefix _)) h
  exact ⟨r, b, hr, hfinish,
    (hclean.chain (Writer.chain_run_true new script)).finish.described hwidth hb⟩

/-- Whatever script a new recorder follows, as long as the lines that end are not too long
    altogether, no step fails, and neither does finishing. After every step and after finishing, the
    records describe the text: there is one for every line, which cuts the line and its parts out of
    the text and says which of them are blank. If no lead that is pushed has a newline, there are as
    many records as there are newlines in the text. -/
theorem records_describe_text (maxBlankLines : Nat) (script : Script)
    (h : Text.width (({ maxBlankLines } : Writer).run script).line.text ≤ maxLength) :
    (∀ steps, steps <+: script → ∃ r, ({ maxBlankLines } : Recorder).run steps = .ok r ∧
      r.lines.Describes r.text (({ maxBlankLines } : Writer).run steps).ended.reverse ∧
      ((∀ s ∈ script, ∀ l ∈ s.pushed, Writer.LeadClean l) →
        r.lines.length = r.text.count '\n')) ∧
    ∃ r text b, ({ maxBlankLines } : Recorder).run script = .ok r ∧ r.finish = .ok (text, b) ∧
      b.Describes text (({ maxBlankLines } : Writer).run script).finish.ended.reverse ∧
      ((∀ s ∈ script, ∀ l ∈ s.pushed, Writer.LeadClean l) → b.length = text.count '\n') := by
  refine ⟨fun steps hsteps => ?_, ?_⟩
  · have hclean := (Writer.clean_new maxBlankLines).chain (Writer.chain_run_true _ steps)
    obtain ⟨rest, rfl⟩ := hsteps
    -- What is written first is not taken back.
    have hlater := (Writer.chain_run_true (({ maxBlankLines } : Writer).run steps) rest).trans
      (Writer.chain_line _)
    rw [← Writer.run_append] at hlater
    obtain ⟨r, hr, hfollows⟩ := (follows_new maxBlankLines).run steps (width_le_of_chain hlater h)
    refine ⟨r, hr, hfollows.describes hclean, fun hs => ?_⟩
    have hleads := (Writer.leadsClean_new maxBlankLines).chain
      (Writer.chain_run _ fun s hmem => hs s (List.mem_append_left rest hmem))
    rw [hfollows.text, hleads.count_newline hclean, ← List.length_reverse]
    exact hfollows.lines.length_eq
  · obtain ⟨r, b, hr, hfinish, hb⟩ := exists_finish h
    have hclean := (Writer.clean_new maxBlankLines).chain (Writer.chain_run_true _ script)
    refine ⟨r, _, b, hr, hfinish, hb.toDescribes, fun hs => ?_⟩
    have hleads := (Writer.leadsClean_new maxBlankLines).chain (Writer.chain_run _ hs)
    rw [hleads.finish.count_newline hclean.finish, ← List.length_reverse]
    exact hb.length

/-- A run within a list, and blank lines behind it that are taken away in the end. -/
theorem records_describe_text_run :
    let script : Script := [.pushLeadFirst "- ".toList "  ".toList, .openRun,
      .append "a\n\nb".toList, .closeRun, .blankLine]
    Text.width (({} : Writer).run script).line.text ≤ maxLength ∧
      ∃ r text b, ({} : Recorder).run script = .ok r ∧ r.finish = .ok (text, b) ∧
        r.text = "- a\n\n  b\n\n".toList ∧ text = "- a\n\n  b\n".toList ∧
        b.Describes text (({} : Writer).run script).finish.ended.reverse := by
  intro script
  have hwidth : Text.width (({} : Writer).run script).line.text ≤ maxLength := by decide
  obtain ⟨-, r, text, b, hr, hfinish, hb, -⟩ := records_describe_text 1 script hwidth
  have hrun : (({} : Recorder).run script).map Recorder.text = .ok "- a\n\n  b\n\n".toList := rfl
  have hboth : (({} : Recorder).run script >>= finish).map Prod.fst =
      .ok "- a\n\n  b\n".toList := rfl
  rw [hr] at hrun hboth
  rw [bind_of_eq_ok rfl, hfinish] at hboth
  exact ⟨hwidth, r, text, b, hr, hfinish, Except.ok.inj hrun, Except.ok.inj hboth, hb⟩

end Recorder

end Taskdown
