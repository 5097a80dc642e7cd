import Taskdown.Proofs.Output.Changes

/-!
# Runs of preformatted lines

A script opens and closes runs, in any order. Its *chronicle* puts the lines that it has ended into
*groups*: a line that was ended while no run was open is a group of its own, and the lines that were
ended while an outermost run was open are one group. The chronicle looks at the steps of the script
and at the number of lines that each of them ends. It knows nothing of the accounts that a writer
keeps of its runs.

What a writer says of its lines should be what the chronicle says of them: a line outside of runs is
no part of one, and the lines of a run that has been closed are a first one, some in its body, and a
last one.

* `Writer.Agrees`: the accounts of a writer agree with a chronicle;
* `Agrees.step`: every step keeps them so, except for one kind. When a run of several lines has been
  closed and a line has ended behind it, closing another run, although none is open, makes that line
  the last one of the run (`Chronicle.IsLate`);
* `Writer.parts_follow_chronicle`: without such steps the parts of the lines are those of the
  chronicle, and with one they are not.
-/

namespace Taskdown

/-! ## The parts of a run -/

/-- The parts of the lines of an outermost run that is open. -/
def RunPart.ofOpen : Nat → List RunPart
  | 0 => []
  | count + 1 => .first :: List.replicate count .body

/-- The parts of the lines of an outermost run that has been closed. -/
def RunPart.ofClosed : Nat → List RunPart
  | count + 2 => .first :: List.replicate count .body ++ [.last]
  | count => ofOpen count

theorem RunPart.ofOpen_succ (count : Nat) :
    ofOpen (count + 1) = ofOpen count ++ [if count = 0 then .first else .body] := by
  cases count with
  | zero => rfl
  | succ count =>
    rw [ofOpen, List.replicate_succ', ← List.cons_append]
    rfl

theorem RunPart.ofClosed_of_le {count : Nat} (h : count ≤ 1) : ofClosed count = ofOpen count := by
  cases count with
  | zero => rfl
  | succ count =>
    obtain rfl : count = 0 := by omega
    rfl

/-! ## Chronicles -/

/-- Lines that belong together. -/
inductive LineGroup where
  /-- A line outside of all runs. -/
  | line
  /-- The lines of an outermost run that has been closed. -/
  | run (count : Nat)
deriving DecidableEq, Repr

/-- The parts of the lines of a group. -/
def LineGroup.parts : LineGroup → List RunPart
  | .line => [.outside]
  | .run count => RunPart.ofClosed count

/-- The number of lines in a run, or the given number. -/
def LineGroup.runOr (other : Nat) : LineGroup → Nat
  | .line => other
  | .run count => count

/-- What a script has done up to some point. -/
structure Chronicle where
  /-- The lines that belong to no open run. -/
  groups : List LineGroup := []
  /-- The number of runs that have been opened and not closed. -/
  openRuns : Nat := 0
  /-- The number of lines in the outermost open run. -/
  runLines : Nat := 0
deriving DecidableEq, Repr

namespace Chronicle

variable {c : Chronicle}

/-- The parts of all lines. -/
def parts (c : Chronicle) : List RunPart :=
  c.groups.flatMap LineGroup.parts ++ RunPart.ofOpen c.runLines

/-- Lines end. -/
def lines (c : Chronicle) (count : Nat) : Chronicle :=
  if c.openRuns = 0 then { c with groups := c.groups ++ List.replicate count .line }
  else { c with runLines := c.runLines + count }

/-- A run is opened or closed. Closing one that is not open does nothing. -/
def note (c : Chronicle) : Writer.Step → Chronicle
  | .openRun => { c with openRuns := c.openRuns + 1 }
  | .closeRun =>
    if c.openRuns = 1 then ⟨c.groups ++ [.run c.runLines], 0, 0⟩
    else { c with openRuns := c.openRuns - 1 }
  | _ => c

/-- A writer does something. The lines that this ends end before a run is opened or closed. -/
def after (c : Chronicle) (w : Writer) (s : Writer.Step) : Chronicle :=
  (c.lines ((w.step s).ended.length - w.ended.length)).note s

/-- The chronicle goes on while a writer follows a script. -/
def along (c : Chronicle) (w : Writer) : Script → Chronicle
  | [] => c
  | s :: script => (c.after w s).along (w.step s) script

/-- The chronicle of a script that a new writer follows. -/
def ofScript (maxBlankLines : Nat) (script : Script) : Chronicle :=
  ({} : Chronicle).along { maxBlankLines } script

/-- The number of lines in the outermost run that was closed last. -/
def lastRun (c : Chronicle) : Nat := c.groups.foldl LineGroup.runOr 0

/-- No run is open, the one that was closed last has several lines, and another line has ended
    since. -/
def IsLate (c : Chronicle) : Prop := c.openRuns = 0 ∧ 1 < c.lastRun ∧ c.groups.getLast? = some .line

instance (c : Chronicle) : Decidable c.IsLate := inferInstanceAs (Decidable (_ ∧ _ ∧ _))

/-- Somewhere in a script a run is closed late. The pending line ends before. -/
def HasLateClose (c : Chronicle) (w : Writer) : Script → Prop
  | [] => False
  | s :: script =>
    (s = .closeRun ∧ (c.after w .line).IsLate) ∨ (c.after w s).HasLateClose (w.step s) script

theorem lines_zero (c : Chronicle) : c.lines 0 = c := by
  rw [lines]
  split
  · rw [List.replicate_zero, List.append_nil]
  · rfl

theorem lines_of_outside (h : c.openRuns = 0) (n : Nat) :
    c.lines n = { c with groups := c.groups ++ List.replicate n .line } := if_pos h

theorem lines_of_inside (h : c.openRuns ≠ 0) (n : Nat) :
    c.lines n = { c with runLines := c.runLines + n } := if_neg h

theorem openRuns_lines (c : Chronicle) (n : Nat) : (c.lines n).openRuns = c.openRuns := by
  rw [lines]
  split <;> rfl

theorem lines_add (c : Chronicle) (m n : Nat) : (c.lines m).lines n = c.lines (m + n) := by
  by_cases h : c.openRuns = 0
  · rw [lines_of_outside ((openRuns_lines c m).trans h), lines_of_outside h, lines_of_outside h,
      List.append_assoc, List.replicate_append_replicate]
  · rw [lines_of_inside (mt (openRuns_lines c m).symm.trans h), lines_of_inside h,
      lines_of_inside h, Nat.add_assoc]

theorem along_append (c : Chronicle) (w : Writer) (a b : Script) :
    c.along w (a ++ b) = (c.along w a).along (w.run a) b := by
  induction a generalizing c w with
  | nil => rfl
  | cons s a ih => exact ih _ _

/-- Groups stay what they are. -/
theorem groups_after (c : Chronicle) (w : Writer) (s : Writer.Step) :
    c.groups <+: (c.after w s).groups := by
  have hlines : ∀ n, c.groups <+: (c.lines n).groups := fun n => by
    rw [lines]
    split
    · exact List.prefix_append _ _
    · exact List.prefix_rfl
  have hnote : ∀ d : Chronicle, d.groups <+: (d.note s).groups := fun d => by
    cases s with
    | closeRun =>
      rw [note]
      split
      · exact List.prefix_append _ _
      · exact List.prefix_rfl
    | _ => exact List.prefix_rfl
  exact (hlines _).trans (hnote _)

theorem groups_along (c : Chronicle) (w : Writer) (script : Script) :
    c.groups <+: (c.along w script).groups := by
  induction script generalizing c w with
  | nil => exact List.prefix_rfl
  | cons s script ih => exact (groups_after c w s).trans (ih _ _)

theorem lastRun_lines (c : Chronicle) (n : Nat) : (c.lines n).lastRun = c.lastRun := by
  rw [lines]
  split
  · rw [lastRun, lastRun, List.foldl_append]
    generalize c.groups.foldl _ 0 = last
    induction n with
    | zero => rfl
    | succ n ih => exact ih
  · rfl

/-- Either there are only lines outside of runs, or such lines stand behind the run that was closed
    last. -/
theorem foldl_runOr (groups : List LineGroup) (last : Nat) :
    (∃ lines, groups = List.replicate lines .line ∧ groups.foldl LineGroup.runOr last = last) ∨
      ∃ before lines, groups = before ++ .run (groups.foldl LineGroup.runOr last) ::
        List.replicate lines .line := by
  induction groups generalizing last with
  | nil => exact .inl ⟨0, rfl, rfl⟩
  | cons s groups ih =>
    rw [List.foldl_cons]
    rcases ih (s.runOr last) with ⟨lines, hlines, hlast⟩ | ⟨before, lines, hlines⟩
    · cases s with
      | line => exact .inl ⟨lines + 1, by rw [List.replicate_succ, ← hlines], hlast⟩
      | run count => exact .inr ⟨[], lines, by rw [hlast, ← hlines]; rfl⟩
    · exact .inr ⟨s :: before, lines, congrArg (s :: ·) hlines⟩

theorem exists_eq_of_lastRun_pos (h : 0 < c.lastRun) :
    ∃ before lines, c.groups = before ++ .run c.lastRun :: List.replicate lines .line :=
  (foldl_runOr c.groups 0).resolve_left fun ⟨_, _, hlast⟩ =>
    absurd h (by rw [lastRun, hlast]; exact Nat.lt_irrefl 0)

end Chronicle

namespace Writer

open Relation

variable {w w' w'' : Writer} {c : Chronicle}

/-! ## Parts of lines -/

/-- The parts of the lines that have ended. -/
def parts (w : Writer) : List RunPart := w.ended.reverse.map WrittenLine.part

theorem length_parts (w : Writer) : w.parts.length = w.ended.length := by
  rw [parts, List.length_map, List.length_reverse]

theorem parts_endLine (w : Writer) : w.endLine.parts = w.parts ++ [w.nextPart] := by
  rw [parts, ended_endLine, List.reverse_cons, List.map_append]
  rfl

theorem parts_markLast {front : List RunPart} {part : RunPart} (h : w.parts = front ++ [part]) :
    w.markLast.parts = front ++ [.last] := by
  cases he : w.ended with
  | nil =>
    rw [parts, he] at h
    exact absurd h (by simp)
  | cons l ended =>
    rw [parts, he, List.reverse_cons, List.map_append] at h
    have hmarked : w.markLast.ended = { l with part := .last } :: ended := by rw [markLast, he]
    rw [parts, hmarked, List.reverse_cons, List.map_append, (List.append_inj' h rfl).1]
    rfl

/-- What has been marked stays so. -/
theorem parts_change {ok : Lead → Prop} (h : Change ok w w') {i : Nat}
    (hi : w.parts[i]? = some .last) : w'.parts[i]? = some .last := by
  have hlt := (List.getElem?_eq_some_iff.1 hi).1
  cases h with
  | endLine => rw [parts_endLine, List.getElem?_append_left hlt, hi]
  | write | leads | runs => exact hi
  | markLast =>
    rcases List.eq_nil_or_concat w.parts with hnil | ⟨front, part, hfront⟩
    · rw [hnil] at hi
      cases hi
    · rw [List.concat_eq_append] at hfront
      rw [parts_markLast hfront]
      rw [hfront] at hi hlt
      rcases Nat.lt_or_ge i front.length with hif | hif
      · rw [List.getElem?_append_left hif] at hi ⊢
        exact hi
      · obtain rfl : i = front.length := by
          rw [List.length_append, List.length_singleton] at hlt
          exact Nat.le_antisymm (Nat.le_of_lt_succ hlt) hif
        simp

theorem parts_chain {ok : Lead → Prop} (h : Chain ok w w') {i : Nat}
    (hi : w.parts[i]? = some .last) : w'.parts[i]? = some .last := by
  induction h with
  | refl => exact hi
  | tail _ h ih => exact parts_change h ih

/-! ## Agreement -/

/-- The accounts of a writer agree with a chronicle. -/
structure Agrees (w : Writer) (c : Chronicle) : Prop where
  parts : w.parts = c.parts
  runDepth : w.runDepth = c.openRuns
  /-- Within a run its lines are counted. -/
  inside : c.openRuns ≠ 0 → w.runLines = c.runLines
  /-- Outside of runs there is still the number of lines of the last one. -/
  outside : c.openRuns = 0 → c.runLines = 0 ∧ w.runLines = c.lastRun
  /-- The blank lines that are counted at the end are outside of runs. -/
  blanks : ∃ front, c.parts = front ++ List.replicate w.trailingBlanks .outside

theorem agrees_new (maxBlankLines : Nat) : ({ maxBlankLines } : Writer).Agrees {} where
  parts := rfl
  runDepth := rfl
  inside h := absurd rfl h
  outside _ := ⟨rfl, rfl⟩
  blanks := ⟨[], rfl⟩

/-- What does not end lines, nor open or close runs, changes no account. -/
theorem Agrees.of_eq (h : w.Agrees c) (hended : w'.ended = w.ended)
    (hdepth : w'.runDepth = w.runDepth) (hlines : w'.runLines = w.runLines)
    (hblanks : w'.trailingBlanks = w.trailingBlanks) : w'.Agrees c where
  parts := by rw [Writer.parts, hended, ← Writer.parts, h.parts]
  runDepth := hdepth.trans h.runDepth
  inside hc := hlines.trans (h.inside hc)
  outside hc := ⟨(h.outside hc).1, hlines.trans (h.outside hc).2⟩
  blanks := by
    rw [hblanks]
    exact h.blanks

/-- The part of the next line is the one that the chronicle has for it. -/
theorem Agrees.parts_lines (h : w.Agrees c) : (c.lines 1).parts = c.parts ++ [w.nextPart] := by
  rw [Chronicle.parts, Chronicle.parts, nextPart, h.runDepth]
  by_cases hc : c.openRuns = 0
  · rw [Chronicle.lines_of_outside hc, if_pos hc, (h.outside hc).1, List.flatMap_append,
      RunPart.ofOpen, List.append_nil, List.append_nil]
    rfl
  · rw [Chronicle.lines_of_inside hc, if_neg hc, h.inside hc, RunPart.ofOpen_succ,
      List.append_assoc]

theorem Agrees.endLine (h : w.Agrees c) : w.endLine.Agrees (c.lines 1) where
  parts := by rw [parts_endLine, h.parts, h.parts_lines]
  runDepth := h.runDepth.trans (Chronicle.openRuns_lines c 1).symm
  inside hc := by
    rw [Chronicle.openRuns_lines] at hc
    have hlines : w.endLine.runLines = if w.runDepth = 0 then w.runLines else w.runLines + 1 := rfl
    rw [hlines, h.runDepth, if_neg hc, h.inside hc, Chronicle.lines_of_inside hc]
  outside hc := by
    rw [Chronicle.openRuns_lines] at hc
    have hlines : w.endLine.runLines = if w.runDepth = 0 then w.runLines else w.runLines + 1 := rfl
    rw [hlines, h.runDepth, if_pos hc, Chronicle.lastRun_lines, Chronicle.lines_of_outside hc]
    exact h.outside hc
  blanks := by
    have hblanks : w.endLine.trailingBlanks = if w.hasContent then 0 else w.trailingBlanks + 1 :=
      rfl
    rw [h.parts_lines, hblanks]
    split
    · exact ⟨_, (List.append_nil _).symm⟩
    · next hcontent =>
      -- A line without content is outside of all runs.
      obtain ⟨front, hfront⟩ := h.blanks
      have hpart : w.nextPart = .outside := by
        rw [hasContent, Bool.not_eq_true, Bool.not_eq_false', Bool.and_eq_true_iff,
          decide_eq_true_iff] at hcontent
        exact hcontent.2
      exact ⟨front, by rw [hfront, hpart, List.append_assoc, ← List.replicate_succ']⟩

/-- The second writer has ended some lines more than the first, and nothing else that matters for
    runs. -/
def Passes (w w' : Writer) : Prop :=
  ∃ n, w'.ended.length = w.ended.length + n ∧ ∀ c, w.Agrees c → w'.Agrees (c.lines n)

theorem Passes.refl (w : Writer) : w.Passes w := ⟨0, rfl, fun c h => c.lines_zero.symm ▸ h⟩

theorem Passes.trans (h : w.Passes w') (h' : w'.Passes w'') : w.Passes w'' := by
  obtain ⟨m, hm, ha⟩ := h
  obtain ⟨n, hn, hb⟩ := h'
  exact ⟨m + n, by rw [hn, hm, Nat.add_assoc],
    fun c hc => Chronicle.lines_add c m n ▸ hb _ (ha c hc)⟩

theorem passes_of_eq (hended : w'.ended = w.ended) (hdepth : w'.runDepth = w.runDepth)
    (hlines : w'.runLines = w.runLines) (hblanks : w'.trailingBlanks = w.trailingBlanks) :
    w.Passes w' :=
  ⟨0, congrArg List.length hended,
    fun c h => c.lines_zero.symm ▸ h.of_eq hended hdepth hlines hblanks⟩

theorem passes_endLine (w : Writer) : w.Passes w.endLine :=
  ⟨1, by rw [ended_endLine, List.length_cons], fun _ h => h.endLine⟩

theorem passes_of_growth (h : ReflTransGen Growth w w') : w.Passes w' := by
  induction h with
  | refl => exact .refl w
  | tail _ h ih =>
    cases h with
    | endLine => exact ih.trans (passes_endLine _)
    | write => exact ih.trans (passes_of_eq rfl rfl rfl rfl)

/-- Runs apart, every step ends some lines and no more. -/
theorem passes_step (w : Writer) {s : Step} (hopen : s ≠ .openRun) (hclose : s ≠ .closeRun) :
    w.Passes (w.step s) := by
  cases s with
  | append text => exact passes_of_growth (growth_append w text)
  | line => exact passes_of_growth (growth_line w)
  | blankLine => exact passes_of_growth (growth_blankLine w)
  | openRun => exact absurd rfl hopen
  | closeRun => exact absurd rfl hclose
  | pushLead | pushLeadFirst | popLead => exact passes_of_eq rfl rfl rfl rfl

theorem Passes.agrees (h : w.Passes w') (hc : w.Agrees c) :
    w'.Agrees (c.lines (w'.ended.length - w.ended.length)) := by
  obtain ⟨n, hn, hagrees⟩ := h
  rw [hn, Nat.add_sub_cancel_left]
  exact hagrees c hc

/-! ## Opening and closing -/

theorem Agrees.openRun (h : w.Agrees c) : { w with
    runLines := if w.runDepth = 0 then 0 else w.runLines, runDepth := w.runDepth + 1 }.Agrees
    (c.note .openRun) where
  parts := h.parts
  runDepth := congrArg (· + 1) h.runDepth
  inside _ := by
    change (if w.runDepth = 0 then 0 else w.runLines) = c.runLines
    rw [h.runDepth]
    split
    · next hc => exact (h.outside hc).1.symm
    · next hc => exact h.inside hc
  outside hc := absurd hc (Nat.succ_ne_zero _)
  blanks := h.blanks

/-- What closing a run does when the pending line has ended. -/
def leaveRun (w : Writer) : Writer :=
  if w.runDepth - 1 = 0 ∧ 1 < w.runLines then { w with runDepth := w.runDepth - 1 }.markLast
  else { w with runDepth := w.runDepth - 1 }

theorem step_closeRun (w : Writer) : w.step .closeRun = w.line.leaveRun := rfl

/-- Whether the last line is marked or not, only its part is affected. -/
theorem leaveRun_spec (w : Writer) :
    w.leaveRun.runDepth = w.runDepth - 1 ∧ w.leaveRun.runLines = w.runLines ∧
    w.leaveRun.trailingBlanks = w.trailingBlanks ∧ w.leaveRun.ended.length = w.ended.length := by
  rw [leaveRun]
  split
  · rcases markLast_eq_or { w with runDepth := w.runDepth - 1 } with h | ⟨l, ended, he, h⟩
    · rw [h]
      exact ⟨rfl, rfl, rfl, rfl⟩
    · rw [h]
      exact ⟨rfl, rfl, rfl, (congrArg List.length he).symm⟩
  · exact ⟨rfl, rfl, rfl, rfl⟩

theorem parts_leaveRun {front : List RunPart} {part : RunPart} (h : w.parts = front ++ [part])
    (hmarks : w.runDepth - 1 = 0 ∧ 1 < w.runLines) : w.leaveRun.parts = front ++ [.last] := by
  rw [leaveRun, if_pos hmarks]
  exact parts_markLast h

theorem parts_leaveRun_of_not (hmarks : ¬ (w.runDepth - 1 = 0 ∧ 1 < w.runLines)) :
    w.leaveRun.parts = w.parts := by
  rw [leaveRun, if_neg hmarks]
  rfl

/-- Closing affects no run that stays open, and no part if there is no open run. -/
theorem Agrees.leaveRun_of_ne (h : w.Agrees c) (hne : c.openRuns ≠ 1)
    (hparts : w.leaveRun.parts = w.parts) : w.leaveRun.Agrees (c.note .closeRun) := by
  obtain ⟨hdepth, hlines, hblanks, -⟩ := leaveRun_spec w
  have hopen : c.openRuns - 1 = 0 ↔ c.openRuns = 0 := by omega
  rw [Chronicle.note, if_neg hne]
  refine ⟨hparts.trans h.parts, by rw [hdepth, h.runDepth], fun hc => ?_, fun hc => ?_, ?_⟩
  · exact hlines.trans (h.inside (mt hopen.2 hc))
  · exact ⟨(h.outside (hopen.1 hc)).1, hlines.trans (h.outside (hopen.1 hc)).2⟩
  · rw [hblanks]
    exact h.blanks

/-- Closing the outermost run marks its last line, if it has at least two. -/
theorem Agrees.leaveRun_of_eq (h : w.Agrees c) (hc : c.openRuns = 1) :
    w.leaveRun.Agrees (c.note .closeRun) := by
  obtain ⟨hdepth, hlines, hblanks, -⟩ := leaveRun_spec w
  have hcount : w.runLines = c.runLines := h.inside (by omega)
  have hparts := h.parts
  have hfront := h.blanks
  rw [Chronicle.parts] at hparts hfront
  have hclosed : (⟨c.groups ++ [.run c.runLines], 0, 0⟩ : Chronicle).parts =
      c.groups.flatMap LineGroup.parts ++ RunPart.ofClosed c.runLines := by
    rw [Chronicle.parts, List.flatMap_append, List.flatMap_singleton]
    exact List.append_nil _
  have hrest : w.leaveRun.parts = c.groups.flatMap LineGroup.parts ++ RunPart.ofClosed c.runLines ∧
      ∃ front, c.groups.flatMap LineGroup.parts ++ RunPart.ofClosed c.runLines =
        front ++ List.replicate w.trailingBlanks .outside := by
    rcases Nat.lt_or_ge 1 c.runLines with hlt | hle
    · obtain ⟨count, hlen⟩ : ∃ count, c.runLines = count + 2 := ⟨c.runLines - 2, by omega⟩
      rw [hlen, RunPart.ofOpen_succ, if_neg (Nat.succ_ne_zero count), ← List.append_assoc]
        at hparts hfront
      have hmarked := parts_leaveRun hparts ⟨by rw [h.runDepth, hc], by rw [hcount]; exact hlt⟩
      -- The last line of the run is not blank.
      have hnone : w.trailingBlanks = 0 := by
        obtain ⟨front, hfront⟩ := hfront
        cases hb : w.trailingBlanks with
        | zero => rfl
        | succ n =>
          rw [hb, List.replicate_succ', ← List.append_assoc] at hfront
          cases List.singleton_inj.1 (List.append_inj' hfront rfl).2
      rw [hmarked, hnone, hlen]
      refine ⟨?_, _, (List.append_nil _).symm⟩
      rw [List.append_assoc]
      rfl
    · rw [RunPart.ofClosed_of_le hle]
      exact ⟨(parts_leaveRun_of_not fun hm => by omega).trans hparts, hfront⟩
  rw [Chronicle.note, if_pos hc]
  refine ⟨hrest.1.trans hclosed.symm, by rw [hdepth, h.runDepth, hc], fun h0 => absurd rfl h0,
    fun _ => ⟨rfl, ?_⟩, ?_⟩
  · rw [hlines, hcount, Chronicle.lastRun, List.foldl_append]
    rfl
  · rw [hclosed, hblanks]
    exact hrest.2

/-- A line outside of runs is called the last one of a run. -/
def Spoiled (w : Writer) (c : Chronicle) : Prop :=
  ∃ i : Nat, w.parts[i]? = some RunPart.last ∧ (c.groups.flatMap LineGroup.parts)[i]? =
    some RunPart.outside

theorem Spoiled.parts_ne (h : w.Spoiled c) : w.parts ≠ c.parts := by
  obtain ⟨i, hlast, houtside⟩ := h
  intro he
  rw [he, Chronicle.parts, List.getElem?_append_left (List.getElem?_eq_some_iff.1 houtside).1,
    houtside] at hlast
  cases hlast

/-- Without an open run, closing one marks the last line of the run that was closed last, unless
    another line has ended since, which is marked then. -/
theorem Agrees.leaveRun_of_zero (h : w.Agrees c) (hc : c.openRuns = 0) :
    (¬ c.IsLate → w.leaveRun.Agrees (c.note .closeRun)) ∧
    (c.IsLate → w.leaveRun.Spoiled (c.note .closeRun)) := by
  have hparts : w.parts = c.groups.flatMap LineGroup.parts := by
    rw [h.parts, Chronicle.parts, (h.outside hc).1]
    exact List.append_nil _
  have hdepth : w.runDepth - 1 = 0 := by rw [h.runDepth, hc]
  have hlast := (h.outside hc).2
  constructor
  · intro hlate
    refine h.leaveRun_of_ne (by omega) ?_
    rcases Nat.lt_or_ge 1 w.runLines with hlt | hle
    · obtain ⟨before, lines, he⟩ := c.exists_eq_of_lastRun_pos (by omega)
      obtain ⟨count, hcount⟩ : ∃ count, c.lastRun = count + 2 := ⟨c.lastRun - 2, by omega⟩
      rw [hcount] at he
      cases lines with
      | zero =>
        -- The last line is that of the run, and has been marked when the run was closed.
        have hrun : w.parts =
            (before.flatMap LineGroup.parts ++ .first :: List.replicate count .body) ++
              [.last] := by
          rw [hparts, he, List.flatMap_append, List.replicate_zero, List.flatMap_singleton,
            List.append_assoc]
          rfl
        rw [parts_leaveRun hrun ⟨hdepth, hlt⟩, hrun]
      | succ lines =>
        refine absurd ⟨hc, hlast ▸ hlt, ?_⟩ hlate
        rw [he, List.replicate_succ', ← List.cons_append, ← List.append_assoc, List.getLast?_concat]
    · exact parts_leaveRun_of_not fun hm => by omega
  · rintro ⟨-, hlt, hend⟩
    obtain ⟨front, hfront⟩ := List.getLast?_eq_some_iff.1 hend
    have hnote : (c.note .closeRun).groups = c.groups := by rw [Chronicle.note, if_neg (by omega)]
    have hflat : c.groups.flatMap LineGroup.parts = front.flatMap LineGroup.parts ++
        [.outside] := by
      rw [hfront, List.flatMap_append, List.flatMap_singleton]
      rfl
    refine ⟨(front.flatMap LineGroup.parts).length, ?_, ?_⟩
    · rw [parts_leaveRun (hparts.trans hflat) ⟨hdepth, hlast ▸ hlt⟩, List.getElem?_concat_length]
    · rw [hnote, hflat, List.getElem?_concat_length]

/-! ## Steps -/

theorem Agrees.line (h : w.Agrees c) : w.line.Agrees (c.after w .line) :=
  (passes_of_growth (growth_line w)).agrees h

theorem after_closeRun (c : Chronicle) (w : Writer) :
    c.after w .closeRun = (c.after w .line).note .closeRun := by
  obtain ⟨-, -, -, hlength⟩ := leaveRun_spec w.line
  rw [Chronicle.after, step_closeRun, hlength]
  rfl

/-- A step that closes no run late keeps the accounts. -/
theorem Agrees.step (h : w.Agrees c) {s : Step}
    (hs : ¬ (s = .closeRun ∧ (c.after w .line).IsLate)) : (w.step s).Agrees (c.after w s) := by
  by_cases hopen : s = .openRun
  · subst hopen
    exact h.line.openRun
  by_cases hclose : s = .closeRun
  · -- The pending line ends first. What closing does then depends on how many runs are open.
    subst hclose
    rw [step_closeRun, after_closeRun]
    by_cases h0 : (c.after w .line).openRuns = 0
    · exact (h.line.leaveRun_of_zero h0).1 fun hlate => hs ⟨rfl, hlate⟩
    by_cases h1 : (c.after w .line).openRuns = 1
    · exact h.line.leaveRun_of_eq h1
    · refine h.line.leaveRun_of_ne h1 (parts_leaveRun_of_not ?_)
      rw [h.line.runDepth]
      omega
  have hnote : ∀ d : Chronicle, d.note s = d := fun d => by
    cases s with
    | openRun => exact absurd rfl hopen
    | closeRun => exact absurd rfl hclose
    | _ => rfl
  rw [Chronicle.after, hnote]
  exact (passes_step w hopen hclose).agrees h

/-- Closing a run late spoils the parts. -/
theorem Agrees.spoiled (h : w.Agrees c) (hlate : (c.after w .line).IsLate) :
    (w.step .closeRun).Spoiled (c.after w .closeRun) := by
  rw [step_closeRun, after_closeRun]
  exact (h.line.leaveRun_of_zero hlate.1).2 hlate

/-- Parts that are spoiled stay so: no part is taken back. -/
theorem Spoiled.step (h : w.Spoiled c) (s : Step) : (w.step s).Spoiled (c.after w s) := by
  obtain ⟨i, hlast, houtside⟩ := h
  refine ⟨i, ?_, ?_⟩
  · have hchain : Chain (fun _ => True) w (w.step s) := chain_step w fun _ _ => trivial
    exact parts_chain hchain hlast
  · obtain ⟨more, hmore⟩ := c.groups_after w s
    rw [← hmore, List.flatMap_append,
      List.getElem?_append_left (List.getElem?_eq_some_iff.1 houtside).1, houtside]

/-! ## Scripts -/

theorem Spoiled.run (h : w.Spoiled c) (script : Script) :
    (w.run script).Spoiled (c.along w script) := by
  induction script generalizing w c with
  | nil => exact h
  | cons s script ih => exact ih (h.step s)

/-- The accounts agree at the end if no run is closed late, and the parts are spoiled if one is. -/
theorem Agrees.run (h : w.Agrees c) (script : Script) :
    (¬ c.HasLateClose w script → (w.run script).Agrees (c.along w script)) ∧
      (c.HasLateClose w script → (w.run script).Spoiled (c.along w script)) := by
  induction script generalizing w c with
  | nil => exact ⟨fun _ => h, False.elim⟩
  | cons s script ih =>
    by_cases hs : s = .closeRun ∧ (c.after w .line).IsLate
    · -- From the first late close on, the parts are spoiled for good.
      refine ⟨fun hno => absurd (.inl hs) hno, fun _ => ?_⟩
      obtain ⟨rfl, hlate⟩ := hs
      exact (h.spoiled hlate).run script
    · obtain ⟨hagrees, hspoiled⟩ := ih (h.step hs)
      exact ⟨fun hno => hagrees fun hlate => hno (.inr hlate),
        fun hlate => hspoiled (hlate.resolve_left hs)⟩

/-- Finishing drops lines that are outside of runs. -/
theorem Agrees.finish (h : w.Agrees c) :
    (c.after w .line).parts = w.finish.parts ++ List.replicate w.line.trailingBlanks .outside := by
  obtain ⟨front, hfront⟩ := h.line.blanks
  have hparts : w.finish.parts =
      w.line.parts.take (w.line.parts.length - w.line.trailingBlanks) := by
    rw [Writer.parts, ended_finish, List.reverse_drop, List.map_take, ← Writer.parts,
      ← Writer.length_parts]
  rw [hparts, h.line.parts, hfront, List.length_append, List.length_replicate, Nat.add_sub_cancel,
    List.take_left]

/-- What a writer says of its lines is what the chronicle says, exactly if no run is closed late.
    The blank lines that finishing drops are outside of runs then. The chronicle never changes what
    it says of a line outside of runs, or of a run that has been closed. -/
theorem parts_follow_chronicle (maxBlankLines : Nat) (script : Script) :
    ((({ maxBlankLines } : Writer).run script).parts =
      (Chronicle.ofScript maxBlankLines script).parts ↔
      ¬ ({} : Chronicle).HasLateClose { maxBlankLines } script) ∧
    (¬ ({} : Chronicle).HasLateClose { maxBlankLines } script →
      ∃ dropped, (Chronicle.ofScript maxBlankLines (script ++ [.line])).parts =
        (({ maxBlankLines } : Writer).run script).finish.parts ++ List.replicate dropped .outside) ∧
    ∀ more, (Chronicle.ofScript maxBlankLines script).groups <+:
      (Chronicle.ofScript maxBlankLines (script ++ more)).groups := by
  obtain ⟨hagrees, hspoiled⟩ := (agrees_new maxBlankLines).run script
  refine ⟨⟨fun he hlate => (hspoiled hlate).parts_ne he, fun hno => (hagrees hno).parts⟩,
    fun hno => ?_, fun more => ?_⟩
  · refine ⟨_, Eq.trans ?_ (hagrees hno).finish⟩
    rw [Chronicle.ofScript, Chronicle.along_append]
    rfl
  · rw [Chronicle.ofScript, Chronicle.ofScript, Chronicle.along_append]
    exact Chronicle.groups_along _ _ _

/-- A line behind a run becomes its last one. -/
theorem parts_of_late_close :
    (({ } : Writer).run
      [.openRun, .append "a\nb\n".toList, .closeRun, .append "c\n".toList, .closeRun]).parts =
        [.first, .last, .last] ∧
    (Chronicle.ofScript 1
      [.openRun, .append "a\nb\n".toList, .closeRun, .append "c\n".toList, .closeRun]).groups =
        [.run 2, .line] := by
  decide

end Writer

end Taskdown
