import Mathlib.Data.List.DropRight
import Mathlib.Data.Set.Subsingleton
import Taskdown.Proofs.Output.Changes

/-!
# Which leads stand in front of a line

A script pushes and pops leads, opens and closes runs, and ends lines, in any order. Its *diary*
notes of every line that has ended its text, whether a run was open, and the leads in force. The
leads in a diary stay as they were pushed: whether a first form is still there is found by looking
at the lines that have ended since (`PushedLead.waits`). The diary looks at the steps of the script
and at the texts of the lines that each of them ends. It knows nothing of the leads that a writer
keeps and changes.

* `LineNote.lead`: what stands in front of a line, by what has been noted of it and of the lines
  before;
* `Diary.Describes`: a writer agrees with a diary, and every step keeps it so
  (`Diary.Describes.step`);
* `Writer.leads_follow_diary`: the leads in front of the lines are those that the diary has for
  them.
-/

namespace Taskdown

/-! ## Leads that change -/

/-- The form of a lead that has been used for a line. -/
theorem Lead.form_used (a b : Bool) (l : Lead) : (l.used a).form b = l.form (b && !a) := by
  cases a <;> cases b <;> rfl

theorem Lead.used_used (a b : Bool) (l : Lead) : (l.used a).used b = l.used (a || b) := by
  cases a <;> cases b <;> rfl

/-- A lead as it was pushed, and the number of lines that had ended by then. -/
structure PushedLead where
  lead : Lead
  since : Nat
deriving DecidableEq, Repr

/-- What is noted of a line when it ends. -/
structure LineNote where
  text : Text
  /-- Was a run open? -/
  inside : Bool
  /-- The leads in force, the outermost first. -/
  leads : List PushedLead
deriving DecidableEq, Repr

/-- Does the line have text that is not blank, or belong to a run? -/
def LineNote.hasContent (n : LineNote) : Bool := !Text.isBlank n.text || n.inside

namespace PushedLead

/-- Is the first form still there when these lines have ended? None with content may have ended
    since. -/
def waits (p : PushedLead) (notes : List LineNote) : Bool :=
  (notes.drop p.since).all (!·.hasContent)

/-- The lead when these lines have ended. -/
def now (p : PushedLead) (notes : List LineNote) : Lead := p.lead.used (!p.waits notes)

theorem waits_concat {p : PushedLead} {notes : List LineNote} (h : p.since ≤ notes.length)
    (n : LineNote) : p.waits (notes ++ [n]) = (p.waits notes && !n.hasContent) := by
  rw [waits, waits, List.drop_append_of_le_length h, List.all_append, List.all_cons,
    List.all_nil, Bool.and_true]

theorem now_concat {p : PushedLead} {notes : List LineNote} (h : p.since ≤ notes.length)
    (n : LineNote) : p.now (notes ++ [n]) = (p.now notes).used n.hasContent := by
  rw [now, now, waits_concat h, Lead.used_used, Bool.not_and, Bool.not_not]

end PushedLead

namespace LineNote

/-- Does the line get the first form of the lead, when these lines have ended before? -/
def usesFirst (n : LineNote) (p : PushedLead) (before : List LineNote) : Bool :=
  n.hasContent && p.waits before

/-- What stands in front of the line. A line without text has no white space at the end. -/
def lead (n : LineNote) (before : List LineNote) : Text :=
  let lead := n.leads.flatMap fun p => p.lead.form (n.usesFirst p before)
  if n.text.isEmpty then Text.trimEnd lead else lead

end LineNote

/-! ## Diaries -/

/-- What a script has done up to some point. -/
structure Diary where
  /-- The lines that have ended. -/
  notes : List LineNote := []
  /-- The leads in force, the outermost first. -/
  leads : List PushedLead := []
  /-- The number of runs that have been opened and not closed. -/
  openRuns : Nat := 0
deriving DecidableEq, Repr

/-- The texts of the lines that the second writer has ended and the first has not. -/
def Writer.newTexts (w w' : Writer) : List Text :=
  (w'.ended.reverse.map WrittenLine.text).drop w.ended.length

namespace Diary

variable {d : Diary}

/-- Lines with these texts end. -/
def lines (d : Diary) (texts : List Text) : Diary :=
  { d with notes := d.notes ++ texts.map fun text => ⟨text, d.openRuns != 0, d.leads⟩ }

/-- A run is opened or closed, a lead is pushed or popped. Closing a run that is not open does
    nothing, nor does popping where no lead is in force. -/
def note (d : Diary) : Writer.Step → Diary
  | .openRun => { d with openRuns := d.openRuns + 1 }
  | .closeRun => { d with openRuns := d.openRuns - 1 }
  | .pushLead lead => { d with leads := d.leads ++ [⟨⟨none, lead⟩, d.notes.length⟩] }
  | .pushLeadFirst first rest =>
    { d with leads := d.leads ++ [⟨⟨some first, rest⟩, d.notes.length⟩] }
  | .popLead => { d with leads := d.leads.dropLast }
  | _ => d

/-- A writer does something. The lines that this ends end before runs and leads change. -/
def after (d : Diary) (w : Writer) (s : Writer.Step) : Diary :=
  (d.lines (w.newTexts (w.step s))).note s

/-- The diary goes on while a writer follows a script. -/
def along (d : Diary) (w : Writer) : Script → Diary
  | [] => d
  | s :: script => (d.after w s).along (w.step s) script

/-- The diary of a script that a new writer follows. -/
def ofScript (maxBlankLines : Nat) (script : Script) : Diary :=
  ({} : Diary).along { maxBlankLines } script

/-- What stands in front of the lines. -/
def fronts (d : Diary) : List Text := d.notes.mapIdx fun i n => n.lead (d.notes.take i)

/-- The line with this index gets the first form of the lead. -/
def UsesFirst (d : Diary) (i : Nat) (p : PushedLead) : Prop :=
  ∃ n, d.notes[i]? = some n ∧ p ∈ n.leads ∧ n.usesFirst p (d.notes.take i)

/-- The lines without content at the end. -/
def blanks (d : Diary) : List LineNote := d.notes.rtakeWhile (!·.hasContent)

/-- The note that is taken of the pending line when it ends. -/
def nextNote (d : Diary) (w : Writer) : LineNote := ⟨w.nextLine.text, d.openRuns != 0, d.leads⟩

theorem lines_nil (d : Diary) : d.lines [] = d := by
  rw [lines, List.map_nil, List.append_nil]

theorem lines_append (d : Diary) (as bs : List Text) :
    d.lines (as ++ bs) = (d.lines as).lines bs := by
  rw [lines, lines, lines, List.map_append, List.append_assoc]

theorem notes_lines_singleton (d : Diary) (text : Text) :
    (d.lines [text]).notes = d.notes ++ [⟨text, d.openRuns != 0, d.leads⟩] := rfl

theorem along_append (d : Diary) (w : Writer) (a b : Script) :
    d.along w (a ++ b) = (d.along w a).along (w.run a) b := by
  induction a generalizing d w with
  | nil => rfl
  | cons s a ih => exact ih _ _

/-- What stands in front of a line does not depend on the lines behind it. -/
theorem fronts_lines_singleton (d : Diary) (text : Text) :
    (d.lines [text]).fronts = d.fronts ++
    [(⟨text, d.openRuns != 0, d.leads⟩ : LineNote).lead d.notes] := by
  rw [fronts, notes_lines_singleton, List.mapIdx_concat, List.take_left, fronts]
  refine congrArg (· ++ _) (List.mapIdx_eq_mapIdx_iff.2 fun i hi => ?_)
  rw [List.take_append_of_le_length hi.le]

/-! ## Agreement -/

/-- The leads of a writer, and those in front of its lines, are what a diary says of them. -/
structure Describes (d : Diary) (w : Writer) : Prop where
  texts : w.ended.reverse.map WrittenLine.text = d.notes.map LineNote.text
  fronts : w.ended.reverse.map WrittenLine.lead = d.fronts
  leads : w.leads = d.leads.map (·.now d.notes)
  runDepth : w.runDepth = d.openRuns
  trailingBlanks : w.trailingBlanks = d.blanks.length
  /-- Leads in force have been pushed by now. -/
  pushed : ∀ p ∈ d.leads, p.since ≤ d.notes.length
  /-- Leads in front of a line have been pushed before it ended. -/
  noted : ∀ (i : Nat) (n : LineNote), d.notes[i]? = some n → ∀ p ∈ n.leads, p.since ≤ i

namespace Describes

open Writer

variable {w w' : Writer}

theorem new (maxBlankLines : Nat) : ({} : Diary).Describes { maxBlankLines } where
  texts := rfl
  fronts := rfl
  leads := rfl
  runDepth := rfl
  trailingBlanks := rfl
  pushed _ h := nomatch h
  noted _ _ h := nomatch h

/-- A line loses its text only if it is blank and no run is open. -/
theorem hasContent_nextNote (h : d.Describes w) : (d.nextNote w).hasContent = w.hasContent := by
  have hpart : decide (w.nextPart = .outside) = !(d.openRuns != 0) := by
    rw [Writer.nextPart, h.runDepth]
    by_cases hd : d.openRuns = 0
    · rw [if_pos hd, hd]
      rfl
    · rw [if_neg hd, bne_iff_ne.2 hd]
      split <;> rfl
  have hcontent : w.hasContent = (!Text.isBlank w.pending || d.openRuns != 0) := by
    rw [Writer.hasContent, hpart, Bool.not_and, Bool.not_not]
  change (!Text.isBlank (if w.hasContent then w.pending else []) || d.openRuns != 0) = w.hasContent
  cases hw : w.hasContent with
  | true => exact hcontent.symm.trans hw
  | false =>
    rw [hw, eq_comm, Bool.or_eq_false_iff] at hcontent
    exact hcontent.2

theorem lead_nextNote (h : d.Describes w) : (d.nextNote w).lead d.notes = w.nextLine.lead := by
  have hforms : (d.leads.flatMap fun p => p.lead.form ((d.nextNote w).usesFirst p d.notes)) =
      w.leads.flatMap (Lead.form w.hasContent) := by
    rw [h.leads, List.flatMap_map]
    refine congrArg (List.flatMap · d.leads) (funext fun p => ?_)
    rw [PushedLead.now, Lead.form_used, Bool.not_not, LineNote.usesFirst, h.hasContent_nextNote]
  have hempty : w.nextLine.text.isEmpty = !(w.hasContent && !w.pending.isEmpty) := by
    change (if w.hasContent then w.pending else []).isEmpty = _
    cases w.hasContent with
    | true => exact (Bool.not_not _).symm
    | false => rfl
  change (if w.nextLine.text.isEmpty then
    Text.trimEnd (d.leads.flatMap fun p => p.lead.form ((d.nextNote w).usesFirst p d.notes))
      else _) = _
  rw [hempty, hforms, Writer.nextLine]
  cases w.hasContent && !w.pending.isEmpty
  · rfl
  · exact hforms

/-- The line that ends gets its leads, and takes first forms if it has content. -/
theorem endLine (h : d.Describes w) : (d.lines [w.nextLine.text]).Describes w.endLine where
  texts := by
    rw [ended_endLine, List.reverse_cons, List.map_append, h.texts, notes_lines_singleton,
      List.map_append]
    rfl
  fronts := by
    rw [ended_endLine, List.reverse_cons, List.map_append, h.fronts, fronts_lines_singleton]
    exact congrArg (fun lead => d.fronts ++ [lead]) h.lead_nextNote.symm
  leads := by
    change w.leads.map (Lead.used w.hasContent) = d.leads.map (·.now (d.notes ++ [d.nextNote w]))
    rw [h.leads, List.map_map]
    refine List.map_congr_left fun p hp => ?_
    rw [PushedLead.now_concat (h.pushed p hp), h.hasContent_nextNote]
    rfl
  runDepth := h.runDepth
  trailingBlanks := by
    change (if w.hasContent then 0 else w.trailingBlanks + 1) =
      ((d.notes ++ [d.nextNote w]).rtakeWhile (!·.hasContent)).length
    rw [← h.hasContent_nextNote, h.trailingBlanks]
    cases hcontent : (d.nextNote w).hasContent with
    | true =>
      rw [List.rtakeWhile_concat_neg _ _ _ (by rw [hcontent]; exact Bool.false_ne_true)]
      rfl
    | false =>
      rw [List.rtakeWhile_concat_pos _ _ _ (by rw [hcontent]; rfl), List.length_append]
      rfl
  pushed p hp := by
    rw [notes_lines_singleton, List.length_append]
    exact Nat.le_add_right_of_le (h.pushed p hp)
  noted i n hn p hp := by
    rw [notes_lines_singleton] at hn
    rcases Nat.lt_or_ge i d.notes.length with hi | hi
    · rw [List.getElem?_append_left hi] at hn
      exact h.noted i n hn p hp
    · -- The new line has the leads that are in force.
      rw [List.getElem?_append_right hi] at hn
      obtain rfl := List.mem_singleton.1 (List.mem_of_getElem? hn)
      exact (h.pushed p hp).trans hi

/-- Nothing else in a writer matters. -/
theorem of_eq (h : d.Describes w) {openRuns : Nat}
    (htexts : w'.ended.map WrittenLine.text = w.ended.map WrittenLine.text)
    (hfronts : w'.ended.map WrittenLine.lead = w.ended.map WrittenLine.lead)
    (hleads : w'.leads = w.leads) (hdepth : w'.runDepth = openRuns)
    (hblanks : w'.trailingBlanks = w.trailingBlanks) : { d with openRuns }.Describes w' where
  texts := by rw [List.map_reverse, htexts, ← List.map_reverse, h.texts]
  fronts := by
    rw [List.map_reverse, hfronts, ← List.map_reverse, h.fronts]
    rfl
  leads := hleads.trans h.leads
  runDepth := hdepth
  trailingBlanks := hblanks.trans h.trailingBlanks
  pushed := h.pushed
  noted := h.noted

/-- The new texts are told by the diary, too. -/
theorem newTexts_eq (h : d.Describes w) {texts : List Text} (h' : (d.lines texts).Describes w') :
    w.newTexts w' = texts := by
  have hlength : w.ended.length = (d.notes.map LineNote.text).length := by
    rw [← h.texts, List.length_map, List.length_reverse]
  rw [Writer.newTexts, h'.texts, lines, List.map_append, hlength, List.drop_left, List.map_map]
  exact List.map_id _

theorem growth (h : d.Describes w) (hg : Relation.ReflTransGen Writer.Growth w w') :
    (d.lines (w.newTexts w')).Describes w' := by
  suffices hlines : ∃ texts, (d.lines texts).Describes w' by
    obtain ⟨texts, htexts⟩ := hlines
    rwa [h.newTexts_eq htexts]
  induction hg with
  | refl => exact ⟨[], by rwa [lines_nil]⟩
  | @tail v _ _ hg ih =>
    obtain ⟨texts, htexts⟩ := ih
    cases hg with
    | endLine => exact ⟨texts ++ [v.nextLine.text], by rw [lines_append]; exact htexts.endLine⟩
    | write => exact ⟨texts, htexts.of_eq rfl rfl rfl htexts.runDepth rfl⟩

/-! ## Steps -/

/-- Only the texts of a writer say which of them are new. -/
theorem newTexts_congr {w'' : Writer}
    (h : w''.ended.map WrittenLine.text = w'.ended.map WrittenLine.text) :
    w.newTexts w'' = w.newTexts w' := by
  rw [Writer.newTexts, Writer.newTexts, List.map_reverse, List.map_reverse, h]

/-- A lead is pushed. No line has ended since. -/
theorem push (h : d.Describes w) (lead : Lead) :
    ({ d with leads := d.leads ++ [⟨lead, d.notes.length⟩] } : Diary).Describes
      { w with leads := w.leads ++ [lead] } where
  texts := h.texts
  fronts := h.fronts
  leads := by
    have hwaits : (⟨lead, d.notes.length⟩ : PushedLead).waits d.notes = true := by
      rw [PushedLead.waits, List.drop_length]
      rfl
    have hnow : (⟨lead, d.notes.length⟩ : PushedLead).now d.notes = lead := by
      rw [PushedLead.now, hwaits]
      rfl
    rw [List.map_append, List.map_singleton, hnow, h.leads]
  runDepth := h.runDepth
  trailingBlanks := h.trailingBlanks
  pushed := List.forall_mem_append.2 ⟨h.pushed, List.forall_mem_singleton.2 (Nat.le_refl _)⟩
  noted := h.noted

theorem pop (h : d.Describes w) : { d with leads := d.leads.dropLast }.Describes w.popLead where
  texts := h.texts
  fronts := h.fronts
  leads := by rw [Writer.popLead, h.leads, List.map_dropLast]
  runDepth := h.runDepth
  trailingBlanks := h.trailingBlanks
  pushed p hp := h.pushed p ((List.dropLast_sublist _).mem hp)
  noted := h.noted

theorem markLast (h : d.Describes w) : d.Describes w.markLast :=
  h.of_eq (map_ended_markLast (fun _ _ => rfl) w) (map_ended_markLast (fun _ _ => rfl) w)
    (leads_markLast w) ((runDepth_markLast w).trans h.runDepth) (trailingBlanks_markLast w)

/-- What the diary notes of a step describes what the step does. -/
theorem step (h : d.Describes w) (s : Writer.Step) : (d.after w s).Describes (w.step s) := by
  have hline := h.growth (growth_line w)
  cases s with
  | append text => exact h.growth (growth_append w text)
  | line => exact hline
  | blankLine => exact h.growth (growth_blankLine w)
  | openRun => exact hline.of_eq rfl rfl rfl (congrArg (· + 1) hline.runDepth) rfl
  | closeRun =>
    have hclosed : ((d.lines (w.newTexts w.line)).note .closeRun).Describes
        { w.line with runDepth := w.line.runDepth - 1 } :=
      hline.of_eq rfl rfl rfl (congrArg (· - 1) hline.runDepth) rfl
    have htexts : w.closeRun.ended.map WrittenLine.text = w.line.ended.map WrittenLine.text := by
      rw [closeRun]
      split
      · exact map_ended_markLast (fun _ _ => rfl) _
      · rfl
    change ((d.lines (w.newTexts w.closeRun)).note .closeRun).Describes w.closeRun
    rw [newTexts_congr htexts, closeRun]
    split
    · exact hclosed.markLast
    · exact hclosed
  | pushLead lead => exact (h.growth .refl).push ⟨none, lead⟩
  | pushLeadFirst first rest => exact (h.growth .refl).push ⟨some first, rest⟩
  | popLead => exact (h.growth .refl).pop

theorem run (h : d.Describes w) (script : Script) :
    (d.along w script).Describes (w.run script) := by
  induction script generalizing d w with
  | nil => exact h
  | cons s script ih => exact ih (h.step s)

end Describes

/-- A line with content that stands behind the lead takes its first form away. -/
theorem Describes.usesFirst_subsingleton {w : Writer} (h : d.Describes w) (p : PushedLead) :
    {i | d.UsesFirst i p}.Subsingleton := by
  have hlt : ∀ {i j}, d.UsesFirst i p → d.UsesFirst j p → ¬ i < j := by
    rintro i j ⟨n, hn, hp, hfirst⟩ ⟨m, hm, -, hfirst'⟩ hij
    rw [LineNote.usesFirst, Bool.and_eq_true_iff] at hfirst hfirst'
    have hwaits := List.all_eq_true.1 hfirst'.2 n ?_
    · rw [hfirst.1] at hwaits
      exact Bool.false_ne_true hwaits
    · -- The first line has ended since the lead was pushed, and before the second one.
      refine List.mem_of_getElem? (i := i - p.since) ?_
      rw [List.getElem?_drop, Nat.add_sub_cancel' (h.noted i n hn p hp),
        List.getElem?_take_of_lt hij, hn]
  intro i hi j hj
  exact Nat.le_antisymm (Nat.not_lt.1 (hlt hj hi)) (Nat.not_lt.1 (hlt hi hj))

end Diary

namespace Writer

/-- The leads in front of the lines are those that the diary has for them, and the leads in force
    are as pushed but for the first forms that a line with content has taken. A first form goes to
    one line at most. The lines that are left when the writer finishes are among those that have
    ended when the pending line has. -/
theorem leads_follow_diary (maxBlankLines : Nat) (script : Script) :
    let d := Diary.ofScript maxBlankLines script
    let w := ({ maxBlankLines } : Writer).run script
    w.ended.reverse.map WrittenLine.text = d.notes.map LineNote.text ∧
    w.ended.reverse.map WrittenLine.lead = d.fronts ∧
    w.leads = d.leads.map (·.now d.notes) ∧
    (∀ p, {i | d.UsesFirst i p}.Subsingleton) ∧
    w.finish.ended.reverse <+:
    (({ maxBlankLines } : Writer).run (script ++ [.line])).ended.reverse := by
  intro d w
  have hdescribes : d.Describes w := (Diary.Describes.new maxBlankLines).run script
  refine ⟨hdescribes.texts, hdescribes.fronts, hdescribes.leads, hdescribes.usesFirst_subsingleton,
    ?_⟩
  rw [ended_finish, run_append, List.reverse_drop]
  exact List.take_prefix _ _

/-- A marker stands in front of the first line with content, and the lines before it leave it
    alone. -/
example :
    (Diary.ofScript 1 [.pushLeadFirst "- ".toList "  ".toList, .append "\n".toList,
      .append "a\nb\n".toList]).fronts =
      ["".toList, "- ".toList, "  ".toList] := by
  decide

end Writer

end Taskdown
