import Taskdown.Proofs.Output.Diary

/-!
# Blank lines

A writer adds no blank line of its own where there are enough already or nothing stands before. If
nothing else ends a blank line outside of runs (`Diary.Filled`), the lines without content are
*spaced* by the others: no stretch of them is longer than the limit, and the first line is none of
them (`Writer.blank_lines_are_few`).

A writer does not look at its lines for this. It counts the lines without content at the end, and
the number is right after every script (`Diary.Describes.trailingBlanks`). So finishing drops these
lines and no others, whatever has been done before.
-/

namespace Taskdown

/-- No stretch of lines without content is longer than the limit, and none is at the start. -/
structure LineNote.Spaced (limit : Nat) (notes : List LineNote) : Prop where
  stretch : ∀ stretch, stretch <:+: notes → (∀ n ∈ stretch, n.hasContent = false) →
    stretch.length ≤ limit
  head : ∀ n ∈ notes.head?, n.hasContent

namespace LineNote.Spaced

variable {limit : Nat} {notes : List LineNote}

theorem nil (limit : Nat) : Spaced limit [] where
  stretch stretch h _ := by
    rw [List.infix_nil.1 h]
    exact Nat.zero_le _
  head _ h := nomatch h

/-- The lines at the start are spaced if all are. -/
theorem of_front {front : List LineNote} (h : Spaced limit notes) (hfront : front <+: notes) :
    Spaced limit front where
  stretch stretch hs hblank := h.stretch stretch (hs.trans hfront.isInfix) hblank
  head n hn := by
    obtain ⟨rest, rfl⟩ := hfront
    cases front with
    | nil => cases hn
    | cons first front => exact h.head n hn

/-- Lines without content at the end are part of those that are counted there. -/
theorem length_le_blanks {stretch : List LineNote} (h : stretch <:+ notes)
    (hblank : ∀ n ∈ stretch, n.hasContent = false) :
    stretch.length ≤ (notes.rtakeWhile (!·.hasContent)).length := by
  obtain ⟨front, rfl⟩ := h
  have htake : (stretch.reverse ++ front.reverse).takeWhile (!·.hasContent) =
      stretch.reverse ++ front.reverse.takeWhile (!·.hasContent) :=
    List.takeWhile_append_of_pos fun n hn => by rw [hblank n (List.mem_reverse.1 hn)]; rfl
  rw [List.rtakeWhile, List.reverse_append, htake, List.length_reverse, List.length_append,
    List.length_reverse]
  exact Nat.le_add_right _ _

theorem head_concat (h : Spaced limit notes) {n : LineNote} (hn : notes ≠ [] ∨ n.hasContent) :
    ∀ m ∈ (notes ++ [n]).head?, m.hasContent := by
  intro m hm
  cases notes with
  | nil =>
    obtain rfl := Option.some.inj hm
    exact hn.resolve_left fun hne => hne rfl
  | cons first rest => exact h.head m hm

/-- A line with content comes behind. -/
theorem concat_of_content (h : Spaced limit notes) {n : LineNote} (hn : n.hasContent) :
    Spaced limit (notes ++ [n]) where
  stretch stretch hs hblank := by
    rcases List.infix_concat_iff.1 hs with hs | hs
    · rcases List.suffix_concat_iff.1 hs with rfl | ⟨front, rfl, -⟩
      · exact Nat.zero_le _
      · have := hblank n (List.mem_append_right _ List.mem_cons_self)
        rw [hn] at this
        cases this
    · exact h.stretch stretch hs hblank
  head := h.head_concat (.inr hn)

/-- Another line comes behind, where there are not enough without content. -/
theorem concat_of_lt (h : Spaced limit notes) (n : LineNote) (hne : notes ≠ [])
    (hlt : (notes.rtakeWhile (!·.hasContent)).length < limit) : Spaced limit (notes ++ [n]) where
  stretch stretch hs hblank := by
    rcases List.infix_concat_iff.1 hs with hs | hs
    · rcases List.suffix_concat_iff.1 hs with rfl | ⟨front, rfl, hfront⟩
      · exact Nat.zero_le _
      · have hle := length_le_blanks hfront fun m hm => hblank m (List.mem_append_left _ hm)
        rw [List.length_append]
        exact Nat.succ_le_of_lt (hle.trans_lt hlt)
    · exact h.stretch stretch hs hblank
  head := h.head_concat (.inl hne)

end LineNote.Spaced

/-- The step without the blank line that it may add. -/
def Writer.Step.withoutBlank : Writer.Step → Writer.Step
  | .blankLine => .line
  | s => s

namespace Diary

open Writer

variable {d : Diary} {w : Writer} {limit : Nat}

/-- All lines that end outside of runs have text that is not blank, except for the lines that
    `blankLine` adds. -/
def Filled (d : Diary) (w : Writer) : Script → Prop
  | [] => True
  | s :: script =>
    (d.openRuns = 0 → ∀ text ∈ w.newTexts (w.step s.withoutBlank), Text.isBlank text = false) ∧
      (d.after w s).Filled (w.step s) script

instance decidableFilled (d : Diary) (w : Writer) :
    (script : Script) → Decidable (d.Filled w script)
  | [] => isTrue trivial
  | s :: script =>
    have := decidableFilled (d.after w s) (w.step s) script
    inferInstanceAs (Decidable (_ ∧ _))

/-- The lines without those at the end that have no content. -/
def kept (d : Diary) : List LineNote := d.notes.rdropWhile (!·.hasContent)

theorem notes_note (d : Diary) (s : Step) : (d.note s).notes = d.notes := by
  cases s <;> rfl

/-- Lines with text that is not blank, or in a run, have content. -/
theorem spaced_lines {texts : List Text} (h : LineNote.Spaced limit d.notes)
    (hfilled : d.openRuns = 0 → ∀ text ∈ texts, Text.isBlank text = false) :
    LineNote.Spaced limit (d.lines texts).notes := by
  induction texts generalizing d with
  | nil => rwa [lines_nil]
  | cons text texts ih =>
    rw [← List.singleton_append, lines_append]
    refine ih (h.concat_of_content ?_) fun hd t ht => hfilled hd t (List.mem_cons_of_mem _ ht)
    change (!Text.isBlank text || d.openRuns != 0) = true
    by_cases hd : d.openRuns = 0
    · rw [hfilled hd text List.mem_cons_self]
      rfl
    · rw [bne_iff_ne.2 hd, Bool.or_true]

/-- The line that `blankLine` adds comes behind a line, and where there are not enough without
    content. -/
theorem Describes.spaced_blankLine (hd : d.Describes w)
    (h : LineNote.Spaced w.maxBlankLines d.notes)
    (hroom : ¬ (w.runDepth = 0 ∧ (w.ended.isEmpty ∨ w.maxBlankLines ≤ w.trailingBlanks))) :
    LineNote.Spaced w.maxBlankLines (d.lines [w.nextLine.text]).notes := by
  cases hcontent : (d.nextNote w).hasContent with
  | true => exact h.concat_of_content hcontent
  | false =>
    have hout : d.openRuns = 0 := by
      rw [nextNote, LineNote.hasContent, Bool.or_eq_false_iff] at hcontent
      exact bne_eq_false_iff_eq.1 hcontent.2
    obtain ⟨hempty, hlt⟩ := not_or.1 fun hfull => hroom ⟨hd.runDepth.trans hout, hfull⟩
    rw [Nat.not_le, hd.trailingBlanks] at hlt
    refine h.concat_of_lt _ (fun hnil => hempty ?_) hlt
    have htexts := hd.texts
    rw [hnil, List.map_nil, List.map_eq_nil_iff, List.reverse_eq_nil_iff] at htexts
    rw [htexts]
    rfl

/-- A limit is kept to by every step that ends no blank line of its own. -/
theorem Describes.spaced_step (hd : d.Describes w) (h : LineNote.Spaced w.maxBlankLines d.notes)
    {s : Step} (hfilled : d.openRuns = 0 → ∀ text ∈ w.newTexts (w.step s.withoutBlank),
      Text.isBlank text = false) :
    LineNote.Spaced w.maxBlankLines (d.after w s).notes := by
  rw [after, notes_note]
  by_cases hs : s = .blankLine
  · subst hs
    have hline := hd.growth (growth_line w)
    have hspaced : LineNote.Spaced w.line.maxBlankLines (d.lines (w.newTexts w.line)).notes :=
      maxBlankLines_line w ▸ spaced_lines h hfilled
    change LineNote.Spaced w.maxBlankLines (d.lines (w.newTexts w.blankLine)).notes
    rw [← maxBlankLines_line w, blankLine]
    split
    · exact hspaced
    · next hroom =>
      have hadded := hline.spaced_blankLine hspaced hroom
      rw [← lines_append] at hadded
      rwa [hd.newTexts_eq (by rw [lines_append]; exact hline.endLine)]
  · have hsame : s.withoutBlank = s := by
      cases s with
      | blankLine => exact absurd rfl hs
      | _ => rfl
    rw [hsame] at hfilled
    exact spaced_lines h hfilled

theorem Describes.spaced_run (hd : d.Describes w) (h : LineNote.Spaced w.maxBlankLines d.notes)
    {script : Script} (hfilled : d.Filled w script) :
    LineNote.Spaced w.maxBlankLines (d.along w script).notes := by
  induction script generalizing d w with
  | nil => exact h
  | cons s script ih =>
    have hmax := maxBlankLines_step w s
    rw [← hmax]
    exact ih (hd.step s) (hmax.symm ▸ hd.spaced_step h hfilled.1) hfilled.2

/-- The lines that are left when the writer finishes are the kept ones. -/
theorem Describes.reverse_ended_finish (hd : d.Describes w) :
    w.finish.ended.reverse =
    w.line.ended.reverse.take (d.lines (w.newTexts w.line)).kept.length := by
  have hline := hd.growth (growth_line w)
  have hlength : w.line.ended.length = (d.lines (w.newTexts w.line)).notes.length := by
    rw [← List.length_map (f := LineNote.text), ← hline.texts, List.length_map, List.length_reverse]
  have hsplit := congrArg List.length
    (List.rdropWhile_append_rtakeWhile (p := fun n : LineNote => !n.hasContent)
      (l := (d.lines (w.newTexts w.line)).notes))
  rw [List.length_append, ← kept, ← blanks, ← hline.trailingBlanks, ← hlength] at hsplit
  rw [w.ended_finish, List.reverse_drop, ← hsplit, Nat.add_sub_cancel]

theorem hasContent_of_getLast?_kept {n : LineNote} (h : n ∈ d.kept.getLast?) : n.hasContent := by
  obtain ⟨hne, rfl⟩ := List.mem_getLast?_eq_getLast h
  simpa [kept] using List.rdropWhile_last_not _ _ hne

/-- The pending line does not count if it is blank, as it is not kept then. -/
theorem Describes.spaced_kept (hd : d.Describes w) (h : LineNote.Spaced limit d.notes) :
    LineNote.Spaced limit (d.lines (w.newTexts w.line)).kept := by
  rw [line]
  split
  · have hnone : w.newTexts w = [] := hd.newTexts_eq (by rwa [lines_nil])
    rw [hnone, lines_nil]
    exact h.of_front (List.rdropWhile_prefix _ _)
  · rw [hd.newTexts_eq hd.endLine, kept]
    cases hcontent : (d.nextNote w).hasContent with
    | true => exact (h.concat_of_content hcontent).of_front (List.rdropWhile_prefix _ _)
    | false =>
      have hkept : (d.lines [w.nextLine.text]).notes.rdropWhile (!·.hasContent) =
          d.notes.rdropWhile (!·.hasContent) :=
        List.rdropWhile_concat_pos _ _ (d.nextNote w) (by rw [hcontent]; rfl)
      rw [hkept]
      exact h.of_front (List.rdropWhile_prefix _ _)

end Diary

namespace Writer

/-- If every line outside of runs has text that is not blank, but for the lines that `blankLine`
    adds, no stretch of blank lines outside of runs is longer than the limit, and the first line is
    none of them, neither before nor after the writer finishes. In any case, finishing drops the
    lines behind the last one that is not blank or belongs to a run, and no others. -/
theorem blank_lines_are_few (maxBlankLines : Nat) (script : Script) :
    let new : Writer := { maxBlankLines }
    let d := Diary.ofScript maxBlankLines script
    let ending := Diary.ofScript maxBlankLines (script ++ [.line])
    (({} : Diary).Filled new script →
      LineNote.Spaced maxBlankLines d.notes ∧ LineNote.Spaced maxBlankLines ending.kept) ∧
    (new.run script).ended.reverse.map WrittenLine.text = d.notes.map LineNote.text ∧
    (new.run (script ++ [.line])).ended.reverse.map WrittenLine.text =
    ending.notes.map LineNote.text ∧ (new.run script).finish.ended.reverse =
    (new.run (script ++ [.line])).ended.reverse.take ending.kept.length ∧
    (∀ n ∈ ending.kept.getLast?, n.hasContent) ∧ ending.notes = ending.kept ++ ending.blanks ∧
    ∀ n ∈ ending.blanks, n.hasContent = false := by
  intro new d ending
  have hd : d.Describes (new.run script) := (Diary.Describes.new maxBlankLines).run script
  have hd' : ending.Describes (new.run (script ++ [.line])) :=
    (Diary.Describes.new maxBlankLines).run _
  have hending : ending = d.lines ((new.run script).newTexts (new.run script).line) :=
    Diary.along_append {} new script [.line]
  have hfinish := hd.reverse_ended_finish
  rw [← hending] at hfinish
  refine ⟨fun hfilled => ?_, hd.texts, hd'.texts, ?_, fun n => Diary.hasContent_of_getLast?_kept,
    List.rdropWhile_append_rtakeWhile.symm, fun n hn => ?_⟩
  · have hspaced : LineNote.Spaced maxBlankLines d.notes :=
      (Diary.Describes.new maxBlankLines).spaced_run (LineNote.Spaced.nil _) hfilled
    exact ⟨hspaced, hending ▸ hd.spaced_kept hspaced⟩
  · rw [hfinish, run_append]
    rfl
  · simpa using List.mem_rtakeWhile_imp hn

/-- Two paragraphs in a list item, with one of the two blank lines that are asked for. -/
theorem blank_lines_are_few_of_two :
    ({} : Diary).Filled { maxBlankLines := 1 }
      [.pushLeadFirst "- ".toList "  ".toList, .append "a\n".toList, .blankLine, .blankLine,
        .append "b".toList] ∧
    LineNote.Spaced 1 (Diary.ofScript 1 [.pushLeadFirst "- ".toList "  ".toList,
      .append "a\n".toList, .blankLine, .blankLine, .append "b".toList]).notes :=
  have hfilled : ({} : Diary).Filled { maxBlankLines := 1 }
      [.pushLeadFirst "- ".toList "  ".toList, .append "a\n".toList, .blankLine, .blankLine,
        .append "b".toList] := by
    decide
  ⟨hfilled, ((blank_lines_are_few 1 _).1 hfilled).1⟩

end Writer

end Taskdown
