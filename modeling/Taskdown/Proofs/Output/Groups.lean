import Taskdown.Proofs.Output.Fragments
import Taskdown.Proofs.Output.Layout
import Taskdown.Proofs.Output.Runs

/-!
# Runs among other lines

What a document puts out is a sequence of *groups*: single lines of text, and runs of lines that
stay together. The groups *stand* in the lines of a writer if these are the lines of the groups, one
group behind the other, and lines without text between them (`TextGroup.StandIn`). The lines of a
run stand next to each other, the first, the last and those between them are what they should be,
and all other lines are outside of runs.

What a script *brings* (`Script.Brings`) stands in the lines that end while it is followed, wherever
the writer is between two lines:

* `Script.brings_run`: opening a run, writing lines and closing it brings a run of these lines,
  blank ones included;
* `Script.brings_append_line`: text that is appended and ended brings its lines, whatever it is;
* `TextGroup.StandIn.of_append`: lines without content at the end may be dropped.
-/

namespace Taskdown

/-! ## Groups -/

theorem RunPart.outside_not_mem_ofClosed (count : Nat) : RunPart.outside ∉ ofClosed count := by
  match count with
  | 0 | 1 => decide
  | count + 2 => simp [ofClosed]

/-- Text that belongs together in the output. -/
inductive TextGroup where
  /-- A line outside of runs. -/
  | line (text : Text)
  /-- The lines of a run. -/
  | run (texts : List Text)
deriving DecidableEq, Repr

namespace TextGroup

/-- The lines of a group that are inside of runs, with their parts. -/
def inside : TextGroup → List (Text × RunPart)
  | .line _ => []
  | .run texts => texts.zip (RunPart.ofClosed texts.length)

/-- The texts of a run. -/
def run? : TextGroup → Option (List Text)
  | .line _ => none
  | .run texts => some texts

/-- The lines are those of the groups, and lines without text between them. -/
inductive StandIn : List TextGroup → List WrittenLine → Prop
  | nil : StandIn [] []
  | gap {groups : List TextGroup} {lines : List WrittenLine} {l : WrittenLine} (ht : l.text = [])
      (hp : l.part = .outside) (h : StandIn groups lines) : StandIn groups (l :: lines)
  | line {groups : List TextGroup} {lines : List WrittenLine} {l : WrittenLine}
      (ht : Text.isBlank l.text = false) (hp : l.part = .outside) (h : StandIn groups lines) :
      StandIn (.line l.text :: groups) (l :: lines)
  | run {groups : List TextGroup} {lines : List WrittenLine} (run : List WrittenLine)
      (hp : run.map WrittenLine.part = RunPart.ofClosed run.length) (h : StandIn groups lines) :
      StandIn (.run (run.map WrittenLine.text) :: groups) (run ++ lines)

namespace StandIn

variable {as bs groups : List TextGroup} {ls ms lines : List WrittenLine}

theorem append (ha : StandIn as ls) (hb : StandIn bs ms) : StandIn (as ++ bs) (ls ++ ms) := by
  induction ha with
  | nil => exact hb
  | gap ht hp _ ih => exact .gap ht hp ih
  | line ht hp _ ih => exact .line ht hp ih
  | run run hp _ ih =>
    rw [List.append_assoc]
    exact .run run hp ih

/-- Every line of a run has content. -/
theorem hasContent_of_mem_run {run : List WrittenLine}
    (hp : run.map WrittenLine.part = RunPart.ofClosed run.length) {l : WrittenLine} (hl : l ∈ run) :
    l.hasContent := by
  have hin : l.part ≠ .outside := fun hout =>
    RunPart.outside_not_mem_ofClosed run.length (hp ▸ hout ▸ List.mem_map_of_mem hl)
  rw [WrittenLine.hasContent, decide_eq_false hin, Bool.and_false]
  rfl

/-- Lines without content at the end may be dropped: they are part of no group. -/
theorem of_append (h : StandIn groups (ls ++ ms)) (hms : ∀ l ∈ ms, l.hasContent = false) :
    StandIn groups ls := by
  generalize hlines : ls ++ ms = lines at h
  induction h generalizing ls ms with
  | nil =>
    obtain ⟨rfl, -⟩ := List.append_eq_nil_iff.1 hlines
    exact .nil
  | gap ht hp _ ih =>
    cases ls with
    | nil =>
      obtain rfl := hlines
      exact ih (fun l hl => hms l (List.mem_cons_of_mem _ hl)) rfl
    | cons l ls =>
      obtain ⟨rfl, hrest⟩ := List.cons.inj hlines
      exact .gap ht hp (ih hms hrest)
  | @line _ _ l ht hp _ ih =>
    cases ls with
    | nil =>
      -- A line with text is not dropped.
      obtain rfl := hlines
      have hcontent := hms l List.mem_cons_self
      rw [WrittenLine.hasContent, ht] at hcontent
      cases hcontent
    | cons l ls =>
      obtain ⟨rfl, hrest⟩ := List.cons.inj hlines
      exact .line ht hp (ih hms hrest)
  | @run _ rest run hp _ ih =>
    rcases List.append_eq_append_iff.1 hlines with ⟨cs, rfl, rfl⟩ | ⟨cs, rfl, rfl⟩
    · -- Nor is a line of a run.
      obtain rfl : cs = [] := List.eq_nil_iff_forall_not_mem.2 fun l hl => by
        have hcontent := hasContent_of_mem_run hp (List.mem_append_right _ hl)
        rw [hms l (List.mem_append_left _ hl)] at hcontent
        cases hcontent
      rw [List.append_nil] at hp ⊢
      have hnone : StandIn _ [] := ih hms rfl
      have hrun := StandIn.run ls hp hnone
      rwa [List.append_nil] at hrun
    · exact .run run hp (ih hms rfl)

/-- The lines inside of runs are those of the groups. -/
theorem inside_eq (h : StandIn groups lines) :
    (lines.filter (·.part ≠ .outside)).map (fun l => (l.text, l.part)) = groups.flatMap inside := by
  induction h with
  | nil => rfl
  | gap _ hp _ ih => rw [List.filter_cons_of_neg (by simpa using hp), ih]
  | line _ hp _ ih =>
    rw [List.filter_cons_of_neg (by simpa using hp), ih]
    rfl
  | run run hp _ ih =>
    have hinside : ∀ l ∈ run, decide (l.part ≠ .outside) = true :=
        fun l hl => decide_eq_true fun hout =>
      RunPart.outside_not_mem_ofClosed run.length (hp ▸ hout ▸ List.mem_map_of_mem hl)
    rw [List.filter_append, List.filter_eq_self.2 hinside, List.map_append, ih, List.flatMap_cons,
      inside, List.length_map, ← hp, List.zip_map']

end StandIn

end TextGroup

namespace Writer

variable {w w' w'' : Writer} {as bs : List TextGroup}

/-- The second writer has these groups more than the first. -/
def Brings (w : Writer) (groups : List TextGroup) (w' : Writer) : Prop :=
  ∃ lines : List WrittenLine, w'.ended = lines.reverse ++ w.ended ∧ TextGroup.StandIn groups lines

theorem brings_nil (h : w'.ended = w.ended) : w.Brings [] w' := ⟨[], h, .nil⟩

theorem Brings.trans (ha : w.Brings as w') (hb : w'.Brings bs w'') : w.Brings (as ++ bs) w'' := by
  obtain ⟨ls, hls, ha⟩ := ha
  obtain ⟨ms, hms, hb⟩ := hb
  exact ⟨ls ++ ms, by rw [hms, hls, List.reverse_append, List.append_assoc], ha.append hb⟩

/-! ## Lines outside of runs -/

/-- A line outside of runs is a group unless it is blank. -/
theorem Settled.brings_endLine (hs : w.Settled) (cs : Text) :
    w.Brings ((Text.nonblank [cs]).map .line) { w with pending := cs }.endLine := by
  let w' : Writer := { w with pending := cs }
  have hpart : w'.nextLine.part = .outside := if_pos hs.runDepth
  have htext : w'.nextLine.text = if Text.isBlank cs then [] else cs := by
    have hcontent : w'.hasContent = !Text.isBlank cs := by
      rw [hasContent, show w'.nextPart = .outside from hpart, decide_eq_true rfl, Bool.and_true]
    change (if w'.hasContent then cs else []) = _
    rw [hcontent]
    cases Text.isBlank cs <;> rfl
  refine ⟨[w'.nextLine], ended_endLine w', ?_⟩
  rw [Text.nonblank_singleton]
  cases hblank : Text.isBlank cs with
  | true => exact .gap (by rw [htext, hblank]; rfl) hpart .nil
  | false =>
    have hcs : w'.nextLine.text = cs := by
      rw [htext, hblank]
      rfl
    have hline := TextGroup.StandIn.line (l := w'.nextLine) (by rw [hcs]; exact hblank) hpart .nil
    rwa [hcs] at hline

/-- The texts of the lines of a text that is appended and ended. -/
def textsOf (cs : Text) : List Text :=
  (pieces cs).map fun piece => if piece.2 then dropReturn piece.1 else piece.1

theorem nonblank_textsOf {cs : Text} (h : '\n' ∉ cs) :
    Text.nonblank (textsOf cs) = Text.nonblank [cs] := by
  rw [textsOf]
  cases cs with
  | nil => rfl
  | cons c cs =>
    rw [pieces_of_not_mem h (List.cons_ne_nil _ _)]
    rfl

/-! ## Runs -/

/-- The next line of a run has the pending text, and is the first one of the run if there is none
    before it. -/
theorem Running.nextLine_eq (hr : w.Running) (cs : Text) :
    { w with pending := cs }.nextLine.text = cs ∧
      { w with pending := cs }.nextLine.part = if w.runLines = 0 then .first else .body := by
  let w' : Writer := { w with pending := cs }
  have hpart : w'.nextPart = if w.runLines = 0 then .first else .body := by
    rw [nextPart, if_neg (by rw [show w'.runDepth = 1 from hr.runDepth]; exact Nat.one_ne_zero)]
  refine ⟨?_, hpart⟩
  have hcontent : w'.hasContent = true := by
    rw [hasContent, hpart]
    split <;> exact congrArg not (Bool.and_false _)
  change (if w'.hasContent then cs else []) = cs
  rw [hcontent]
  rfl

/-- Closing a run completes the parts of its lines. -/
theorem Running.brings_closeRun (hr : w.Running) {run : List WrittenLine} {older : List WrittenLine}
    (hended : w.ended = run.reverse ++ older) (hlines : w.runLines = run.length)
    (hparts : run.map WrittenLine.part = RunPart.ofOpen run.length) :
    ∃ closed : List WrittenLine, w.closeRun.ended = closed.reverse ++ older ∧
      closed.map WrittenLine.text = run.map WrittenLine.text ∧
      closed.map WrittenLine.part = RunPart.ofClosed closed.length := by
  rw [Writer.closeRun, line_of_pending hr.pending]
  let w' : Writer := { w with runDepth := w.runDepth - 1 }
  have hdepth : w'.runDepth = 0 := congrArg (· - 1) hr.runDepth
  change ∃ closed : List WrittenLine,
    (if w'.runDepth = 0 ∧ 1 < w'.runLines then w'.markLast else w').ended = _ ∧ _
  rcases Nat.lt_or_ge 1 run.length with hlt | hle
  · rw [if_pos ⟨hdepth, hlines ▸ hlt⟩]
    obtain ⟨front, last, rfl⟩ : ∃ front last, run = front ++ [last] := by
      rcases List.eq_nil_or_concat run with rfl | ⟨front, last, rfl⟩
      · exact absurd hlt (by decide)
      · exact ⟨front, last, List.concat_eq_append⟩
    obtain ⟨count, hcount⟩ : ∃ count, front.length = count + 1 := by
      rw [List.length_append, List.length_singleton] at hlt
      exact ⟨front.length - 1, by omega⟩
    have he : w'.ended = last :: (front.reverse ++ older) := by
      rw [List.reverse_append] at hended
      exact hended
    -- All lines but the last one keep their parts.
    have hfront : front.map WrittenLine.part = RunPart.ofOpen (count + 1) := by
      rw [List.length_append, List.length_singleton, hcount, RunPart.ofOpen_succ, List.map_append]
        at hparts
      exact (List.append_inj' hparts rfl).1
    refine ⟨front ++ [{ last with part := .last }], ?_, ?_, ?_⟩
    · rw [markLast, he, List.reverse_append]
      rfl
    · rw [List.map_append, List.map_append]
      rfl
    · rw [List.map_append, hfront, List.length_append, List.length_singleton, hcount]
      rfl
  · rw [if_neg fun hmarks => absurd (hlines ▸ hmarks.2) (Nat.not_lt.2 hle)]
    exact ⟨run, hended, rfl, by rw [hparts, RunPart.ofClosed_of_le hle]⟩

end Writer

/-! ## Scripts -/

namespace Script

open Writer

variable {a b : Script} {as bs : List TextGroup}

/-- The script brings these groups, wherever the writer is between two lines. -/
def Brings (script : Script) (groups : List TextGroup) : Prop :=
  ∀ w : Writer, w.Settled → (w.run script).Settled ∧ w.Brings groups (w.run script)

theorem Brings.nil : Brings [] [] := fun _ hs => ⟨hs, brings_nil rfl⟩

theorem Brings.append (ha : Brings a as) (hb : Brings b bs) : Brings (a ++ b) (as ++ bs) := by
  intro w hs
  obtain ⟨hs', hbrings⟩ := ha w hs
  obtain ⟨hs'', hbrings'⟩ := hb _ hs'
  rw [run_append]
  exact ⟨hs'', hbrings.trans hbrings'⟩

theorem brings_blankLine : Brings [.blankLine] [] := by
  intro w hs
  refine ⟨(lays_blankLine w hs).1, ?_⟩
  change w.Brings [] w.blankLine
  rw [blankLine, line_of_pending hs.pending]
  split
  · exact brings_nil rfl
  · have hw : { w with pending := [] } = w := by rw [← hs.pending]
    have hend := hs.brings_endLine []
    rwa [hw] at hend

/-! ### Text -/

/-- Text that is appended and ended brings its lines. -/
theorem brings_append_line (cs : Text) :
    Brings [.append cs, .line] ((Text.nonblank (textsOf cs)).map .line) := by
  intro w hs
  change (w.append cs).line.Settled ∧ w.Brings _ (w.append cs).line
  by_cases h : '\n' ∈ cs
  · -- The first line ends, and the others are those of the rest of the text.
    obtain ⟨l, rest, rfl, hl⟩ := List.eq_append_cons_of_mem h
    have hfirst := hs.brings_endLine (dropReturn l)
    obtain ⟨hs', hrest⟩ := brings_append_line rest _ (settled_endLine hs (dropReturn l)).1
    have htexts : textsOf (l ++ '\n' :: rest) = [dropReturn l] ++ textsOf rest := by
      rw [textsOf, pieces_line hl]
      rfl
    rw [append_line hl, hs.pending, htexts, Text.nonblank_append, List.map_append]
    exact ⟨hs', hfirst.trans hrest⟩
  · rw [nonblank_textsOf h, append_of_not_mem h, hs.pending, line]
    split
    · next hempty =>
      obtain rfl : cs = [] := List.isEmpty_iff.1 hempty
      exact ⟨⟨⟨hs.rests, hs.bare, hs.trailing⟩, rfl, hs.runDepth⟩, brings_nil rfl⟩
    · exact ⟨(settled_endLine hs cs).1, hs.brings_endLine cs⟩
termination_by cs.length
decreasing_by
  subst_vars
  simp only [List.length_append, List.length_cons]
  omega

theorem brings_append_newline {cs : Text} (hcs : '\n' ∉ cs) :
    Brings [.append cs, .append ['\n']] ((Text.nonblank [cs]).map .line) := by
  intro w hs
  change ((w.append cs).append ['\n']).Settled ∧ w.Brings _ ((w.append cs).append ['\n'])
  rw [append_newline hcs hs.pending]
  exact ⟨(settled_endLine hs cs).1, hs.brings_endLine cs⟩

theorem brings_ofTextLines {lines : List Text} (h : ∀ l ∈ lines, '\n' ∉ l) :
    Brings (ofTextLines lines) ((Text.nonblank lines).map .line) := by
  induction lines with
  | nil => exact .nil
  | cons l lines ih =>
    have hline := brings_append_line l
    rw [nonblank_textsOf (h l List.mem_cons_self)] at hline
    rw [← List.singleton_append, Text.nonblank_append, List.map_append]
    exact hline.append (ih fun k hk => h k (List.mem_cons_of_mem _ hk))

theorem brings_ofKeptLines {lines : List Text} (h : ∀ l ∈ lines, '\n' ∉ l) :
    Brings (ofKeptLines lines) ((Text.nonblank lines).map .line) := by
  induction lines with
  | nil => exact .nil
  | cons l lines ih =>
    rw [← List.singleton_append, Text.nonblank_append, List.map_append]
    exact (brings_append_newline (h l List.mem_cons_self)).append
      (ih fun k hk => h k (List.mem_cons_of_mem _ hk))

/-! ### Runs -/

/-- The lines of a run that is still open. -/
theorem exists_run_of_running {lines : List Text} (h : ∀ l ∈ lines, '\n' ∉ l)
    {w : Writer} (hr : w.Running) :
    ∃ run : List WrittenLine, (w.run (ofKeptLines lines)).ended = run.reverse ++ w.ended ∧
      run.map WrittenLine.text = lines ∧ (w.run (ofKeptLines lines)).runLines =
        w.runLines + lines.length ∧
      RunPart.ofOpen w.runLines ++ run.map WrittenLine.part =
        RunPart.ofOpen (w.runLines + lines.length) := by
  induction lines generalizing w with
  | nil => exact ⟨[], rfl, rfl, rfl, List.append_nil _⟩
  | cons l lines ih =>
    let w' : Writer := { w with pending := l }
    have hr' : w'.endLine.Running := (hr.endLine l).1
    obtain ⟨htext, hpart⟩ := hr.nextLine_eq l
    have hcount : w'.endLine.runLines = w.runLines + 1 :=
      if_neg (by rw [show w'.runDepth = 1 from hr.runDepth]; exact Nat.one_ne_zero)
    obtain ⟨run, hended, htexts, hlines, hparts⟩ :=
      ih (fun k hk => h k (List.mem_cons_of_mem _ hk)) hr'
    have hsum : w.runLines + 1 + lines.length = w.runLines + (l :: lines).length := by
      rw [List.length_cons, Nat.add_assoc, Nat.add_comm 1]
    rw [hcount, hsum] at hlines hparts
    refine ⟨w'.nextLine :: run, ?_, ?_, ?_, ?_⟩
    · change (((w.append l).append ['\n']).run (ofKeptLines lines)).ended = _
      rw [append_newline (h l List.mem_cons_self) hr.pending, hended,
        ended_endLine, List.reverse_cons, List.append_assoc]
      rfl
    · rw [List.map_cons, htext, htexts]
    · change (((w.append l).append ['\n']).run (ofKeptLines lines)).runLines = _
      rw [append_newline (h l List.mem_cons_self) hr.pending, hlines]
    · rw [← hparts, RunPart.ofOpen_succ, List.map_cons, hpart, List.append_assoc]
      rfl

theorem brings_run {lines : List Text} (h : ∀ l ∈ lines, '\n' ∉ l) :
    Brings ([.openRun] ++ ofKeptLines lines ++ [.closeRun]) [.run lines] := by
  intro w hs
  refine ⟨(lays_run h w hs).1, ?_⟩
  have hopen := hs.openRun.1
  have hlines := (running_ofKeptLines h hopen).1
  have hended : w.openRun.ended = w.ended := by rw [openRun, line_of_pending hs.pending]
  have hcount : w.openRun.runLines = 0 := by
    rw [openRun, line_of_pending hs.pending]
    exact if_pos hs.runDepth
  obtain ⟨run, hrun, htexts, hlength, hparts⟩ := exists_run_of_running h hopen
  rw [hcount, Nat.zero_add] at hlength hparts
  rw [hended] at hrun
  have hlen : run.length = lines.length := by rw [← htexts, List.length_map]
  obtain ⟨closed, hclosed, hclosedTexts, hclosedParts⟩ :=
    hlines.brings_closeRun hrun (hlength.trans hlen.symm) (hlen ▸ hparts)
  refine ⟨closed, ?_, ?_⟩
  · rw [run_append, run_append]
    exact hclosed
  · have hstand := TextGroup.StandIn.run closed hclosedParts .nil
    rwa [hclosedTexts, htexts, List.append_nil] at hstand

/-! ### Leads -/

/-- Leads do not matter. -/
theorem brings_indented {body : Script} {groups : List TextGroup} {first rest : Text}
    (hbody : Brings body groups) (hrest : Text.isBlank rest) :
    Brings ([.pushLeadFirst first rest] ++ body ++ [.line, .popLead]) groups := by
  intro w hs
  have hpushed : (w.pushLeadFirst first rest).Settled :=
    { hs with rests := List.forall_mem_append.2 ⟨hs.rests, List.forall_mem_singleton.2 hrest⟩ }
  obtain ⟨hs', hbrings⟩ := hbody _ hpushed
  rw [run_append, run_append]
  change (((w.pushLeadFirst first rest).run body).line.popLead).Settled ∧
    w.Brings _ (((w.pushLeadFirst first rest).run body).line.popLead)
  rw [line_of_pending hs'.pending]
  exact ⟨{ hs' with rests := fun l hl => hs'.rests l ((List.dropLast_sublist _).mem hl) }, hbrings⟩

end Script

/-! ## The end -/

/-- Finishing takes no line of a group away. -/
theorem Writer.Settled.standIn_finish {w : Writer} (hs : w.Settled) {groups : List TextGroup}
    (h : TextGroup.StandIn groups w.ended.reverse) :
    TextGroup.StandIn groups w.finish.ended.reverse := by
  rw [← List.take_append_drop w.trailingBlanks w.ended, List.reverse_append] at h
  rw [hs.ended_finish]
  exact h.of_append fun l hl => hs.trailing l (List.mem_reverse.1 hl)

end Taskdown
