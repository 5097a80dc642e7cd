import Taskdown.Proofs.Output.Contents

/-!
# Where first forms go

A line has *content* if it has text that is not blank or belongs to a run. Lines with content are
*laid*: each stands behind the leads in force, and of these the first line that comes takes all the
first forms that have not been used yet, however many of them there are (`LaidLine.allUnder`). Lines
without content have nothing in front of them, and take no first form away.

What a script lays (`Script.Lays`) depends on no state of the writer but the leads, if only no line
is pending and no run is open when it starts:

* `Writer.gains_endLine`: what a line takes when it ends;
* `Script.Lays.append`: scripts that follow each other lay their lines one after the other;
* `Script.lays_indented`: a lead with a first form goes to the first of the lines that are laid
  behind it, and is lost if there is none;
* `Writer.Settled.laid_finish`: finishing takes no line with content away.
-/

namespace Taskdown

/-- A line with content: what stands in front of it, and its text. -/
structure LaidLine where
  lead : Text
  text : Text
deriving DecidableEq, Repr, Inhabited

namespace LaidLine

/-- The line of a text. -/
def ofText (text : Text) : LaidLine := ⟨[], text⟩

/-- The line behind what stands further out. A line without text loses the white space in front of
    it. -/
def under (outer : Text) (l : LaidLine) : LaidLine :=
  ⟨if l.text.isEmpty then Text.trimEnd (outer ++ l.lead) else outer ++ l.lead, l.text⟩

/-- The lines behind leads. The first of them takes the first forms. -/
def allUnder (leads : List Lead) : List LaidLine → List LaidLine
  | [] => []
  | l :: ls => l.under (leads.flatMap (Lead.form true)) :: ls.map (under (leads.flatMap Lead.rest))

/-- The lines behind one lead, which is part of them. -/
def indented (first rest : Text) : List LaidLine → List LaidLine
  | [] => []
  | l :: ls =>
    { l with lead := first ++ l.lead } :: ls.map fun l => { l with lead := rest ++ l.lead }

theorem under_under (outer inner : Text) (l : LaidLine) :
    under outer { l with lead := inner ++ l.lead } = l.under (outer ++ inner) := by
  rw [under, under, List.append_assoc]

/-- Once the first forms have been used, all lines are alike. -/
theorem allUnder_used (leads : List Lead) (lines : List LaidLine) :
    allUnder (leads.map (Lead.used true)) lines = lines.map (under (leads.flatMap Lead.rest)) := by
  cases lines with
  | nil => rfl
  | cons l ls =>
    rw [allUnder, List.flatMap_map, List.flatMap_map, List.map_cons]
    rfl

/-- The innermost lead may be counted among the leads or with the lines. -/
theorem allUnder_append_singleton (leads : List Lead) (first rest : Text) (lines : List LaidLine) :
    allUnder (leads ++ [⟨some first, rest⟩]) lines =
    allUnder leads (indented first rest lines) := by
  cases lines with
  | nil => rfl
  | cons l ls =>
    simp only [allUnder, indented, List.flatMap_append, List.flatMap_singleton,
      List.map_map, Function.comp_def, under_under]
    rfl

theorem isEmpty_indented (first rest : Text) (lines : List LaidLine) :
    (indented first rest lines).isEmpty = lines.isEmpty := by
  cases lines <;> rfl

end LaidLine

/-- Does the line have text that is not blank, or belong to a run? -/
def WrittenLine.hasContent (l : WrittenLine) : Bool := !(Text.isBlank l.text && l.part = .outside)

/-- A written line without its part. -/
def WrittenLine.laid (l : WrittenLine) : LaidLine := ⟨l.lead, l.text⟩

theorem WrittenLine.hasContent_last (l : WrittenLine) :
    { l with part := .last }.hasContent = true :=
  congrArg not (Bool.and_false _)

namespace Writer

variable {w w' w'' : Writer} {as bs : List LaidLine}

/-- The lines with content. -/
def laid (w : Writer) : List LaidLine :=
  (w.ended.reverse.filter WrittenLine.hasContent).map WrittenLine.laid

theorem laid_of_ended {l : WrittenLine} (h : w'.ended = l :: w.ended) :
    w'.laid = w.laid ++ if l.hasContent then [l.laid] else [] := by
  rw [laid, laid, h, List.reverse_cons, List.filter_append, List.map_append, List.filter_cons]
  cases l.hasContent <;> rfl

/-! ## Gaining lines -/

/-- The second writer has these lines more than the first, under the leads of the first. The first
    forms have been used if there are any lines. -/
structure Gains (w : Writer) (lines : List LaidLine) (w' : Writer) : Prop where
  laid : w'.laid = w.laid ++ LaidLine.allUnder w.leads lines
  leads : w'.leads = if lines.isEmpty then w.leads else w.leads.map (Lead.used true)

theorem gains_nil (hlaid : w'.laid = w.laid) (hleads : w'.leads = w.leads) : w.Gains [] w' :=
  ⟨hlaid.trans (List.append_nil _).symm, hleads⟩

theorem Gains.trans (ha : w.Gains as w') (hb : w'.Gains bs w'') : w.Gains (as ++ bs) w'' := by
  cases as with
  | nil =>
    have hlaid : w'.laid = w.laid := ha.laid.trans (List.append_nil _)
    have hleads : w'.leads = w.leads := ha.leads
    exact ⟨by rw [hb.laid, hlaid, hleads]; rfl, by rw [hb.leads, hleads]; rfl⟩
  | cons a as =>
    -- The first of all lines has used the first forms, so that the lines that follow do not find
    -- them.
    have hleads : w'.leads = w.leads.map (Lead.used true) := ha.leads
    constructor
    · rw [hb.laid, ha.laid, hleads, LaidLine.allUnder_used, List.append_assoc,
        List.cons_append, LaidLine.allUnder, LaidLine.allUnder, List.map_append, List.cons_append]
    · rw [hb.leads, hleads, List.map_map]
      exact ite_self _

theorem hasContent_nextLine (w : Writer) : w.nextLine.hasContent = w.hasContent := by
  have htext : w.nextLine.text = if w.hasContent then w.pending else [] := rfl
  cases hcontent : w.hasContent with
  | true =>
    rw [hcontent, if_pos rfl] at htext
    rw [WrittenLine.hasContent, htext]
    exact hcontent
  | false =>
    -- A line without content is outside of all runs, and its text is dropped.
    rw [hcontent, if_neg Bool.false_ne_true] at htext
    rw [hasContent, Bool.not_eq_false', Bool.and_eq_true_iff] at hcontent
    rw [WrittenLine.hasContent, htext]
    exact congrArg not hcontent.2

/-- A line with content is laid when it ends, and takes the first forms. -/
theorem gains_endLine (w : Writer) :
    w.Gains (if w.hasContent then [.ofText w.pending] else []) w.endLine := by
  have hlaid := laid_of_ended (ended_endLine w)
  have hleads : w.endLine.leads = w.leads.map (Lead.used w.hasContent) := rfl
  rw [hasContent_nextLine] at hlaid
  cases hcontent : w.hasContent with
  | false =>
    rw [hcontent] at hlaid hleads
    exact gains_nil (hlaid.trans (List.append_nil _)) (hleads.trans (List.map_id _))
  | true =>
    rw [hcontent] at hlaid hleads
    refine ⟨hlaid.trans (congrArg (fun l => w.laid ++ [l]) ?_), hleads⟩
    simp only [WrittenLine.laid, nextLine, hcontent, LaidLine.ofText,
      LaidLine.under, List.append_nil]
    cases w.pending <;> rfl

/-! ## Tidy writers -/

/-- The leads have nothing but white space for lines that are not the first, lines without content
    have nothing on them, and the lines that are counted as blank at the end are such lines. -/
structure Tidy (w : Writer) : Prop where
  rests : ∀ l ∈ w.leads, Text.isBlank l.rest
  bare : ∀ l ∈ w.ended, l.hasContent = false → l.lead = [] ∧ l.text = []
  trailing : ∀ l ∈ w.ended.take w.trailingBlanks, l.hasContent = false

/-- Without content nothing is left of a line, as the other forms of the leads are blank. -/
theorem Tidy.bare_nextLine (ht : w.Tidy) (h : w.hasContent = false) :
    w.nextLine.lead = [] ∧ w.nextLine.text = [] := by
  rw [nextLine, h]
  refine ⟨Text.dropEndWhile_eq_nil_iff.2 ?_, rfl⟩
  refine List.all_eq_true.2 fun c hc => ?_
  obtain ⟨l, hl, hc⟩ := List.mem_flatMap.1 hc
  exact List.all_eq_true.1 (ht.rests l hl) c hc

theorem Tidy.endLine (ht : w.Tidy) : w.endLine.Tidy where
  rests l hl := by
    obtain ⟨k, hk, rfl⟩ := List.mem_map.1 hl
    have hrest : ∀ content, (k.used content).rest = k.rest := by
      intro content
      cases content <;> rfl
    rw [hrest]
    exact ht.rests k hk
  bare l hl := by
    rw [ended_endLine] at hl
    rcases List.mem_cons.1 hl with rfl | hl
    · intro h
      rw [hasContent_nextLine] at h
      exact ht.bare_nextLine h
    · exact ht.bare l hl
  trailing l hl := by
    have htrailing : w.endLine.trailingBlanks = if w.hasContent then 0 else w.trailingBlanks + 1 :=
      rfl
    rw [ended_endLine, htrailing] at hl
    cases hcontent : w.hasContent with
    | true =>
      rw [hcontent] at hl
      cases hl
    | false =>
      rw [hcontent] at hl
      rcases List.mem_cons.1 hl with rfl | hl
      · exact (hasContent_nextLine w).trans hcontent
      · exact ht.trailing l hl

/-- A tidy writer with no line pending and no run open. -/
structure Settled (w : Writer) : Prop extends Tidy w where
  pending : w.pending = []
  runDepth : w.runDepth = 0

theorem settled_new (maxBlankLines : Nat) : ({ maxBlankLines } : Writer).Settled where
  rests _ h := nomatch h
  bare _ h := nomatch h
  trailing _ h := nomatch h
  pending := rfl
  runDepth := rfl

theorem Settled.ended_finish (hs : w.Settled) : w.finish.ended = w.ended.drop w.trailingBlanks := by
  rw [finish, line_of_pending hs.pending]

/-- Finishing drops lines without content only. -/
theorem Settled.laid_finish (hs : w.Settled) : w.finish.laid = w.laid := by
  have hdropped : ((w.ended.take w.trailingBlanks).reverse.filter WrittenLine.hasContent) = [] := by
    refine List.filter_eq_nil_iff.2 fun l hl => ?_
    rw [hs.trailing l (List.mem_reverse.1 hl)]
    exact Bool.false_ne_true
  rw [laid, laid, hs.ended_finish]
  conv => rhs; rw [← List.take_append_drop w.trailingBlanks w.ended]
  rw [List.reverse_append, List.filter_append, hdropped, List.append_nil]

theorem Settled.bare_finish (hs : w.Settled) {l : WrittenLine} (hl : l ∈ w.finish.ended) :
    l.hasContent ∨ l.lead = [] ∧ l.text = [] := by
  rw [hs.ended_finish] at hl
  cases hcontent : l.hasContent with
  | true => exact .inl rfl
  | false => exact .inr (hs.bare l (List.mem_of_mem_drop hl) hcontent)

/-! ## Runs -/

/-- A tidy writer with a run open. The last line of the run, if it has any, has content. -/
structure Running (w : Writer) : Prop extends Tidy w where
  pending : w.pending = []
  runDepth : w.runDepth = 1
  last : 0 < w.runLines → w.trailingBlanks = 0 ∧ ∀ l ∈ w.ended.head?, l.hasContent

theorem Settled.openRun (hs : w.Settled) : w.openRun.Running ∧ w.Gains [] w.openRun := by
  rw [Writer.openRun, line_of_pending hs.pending]
  refine ⟨⟨⟨hs.rests, hs.bare, hs.trailing⟩, hs.pending, ?_, fun h => ?_⟩, gains_nil rfl rfl⟩
  · change w.runDepth + 1 = 1
    rw [hs.runDepth]
  · -- The run has no lines yet.
    change 0 < (if w.runDepth = 0 then 0 else w.runLines) at h
    rw [if_pos hs.runDepth] at h
    exact absurd h (Nat.lt_irrefl 0)

/-- Within a run every line has content. -/
theorem Running.endLine (hr : w.Running) (cs : Text) :
    { w with pending := cs }.endLine.Running ∧ w.Gains [.ofText cs]
    { w with pending := cs }.endLine := by
  let w' : Writer := { w with pending := cs }
  have hpart : w'.nextPart ≠ .outside := by
    change (if w.runDepth = 0 then RunPart.outside else if w.runLines = 0 then .first else .body) ≠
      _
    rw [hr.runDepth, if_neg Nat.one_ne_zero]
    split <;> decide
  have hcontent : w'.hasContent = true := by
    rw [hasContent, decide_eq_false hpart, Bool.and_false]
    rfl
  have htidy : w'.Tidy := ⟨hr.rests, hr.bare, hr.trailing⟩
  have hgains := gains_endLine w'
  rw [hcontent, if_pos rfl] at hgains
  refine ⟨⟨htidy.endLine, rfl, hr.runDepth, fun _ => ⟨?_, fun l hl => ?_⟩⟩,
    ⟨hgains.laid, hgains.leads⟩⟩
  · change (if w'.hasContent then 0 else w.trailingBlanks + 1) = 0
    rw [hcontent, if_pos rfl]
  · change l ∈ w'.endLine.ended.head? at hl
    rw [ended_endLine] at hl
    obtain rfl := Option.some.inj hl
    exact (hasContent_nextLine w').trans hcontent

/-- Marking a line with content changes nothing that is laid. -/
theorem laid_markLast (h : ∀ l ∈ w.ended.head?, l.hasContent) : w.markLast.laid = w.laid := by
  rcases markLast_eq_or w with heq | ⟨l, ended, he, heq⟩
  · rw [heq]
  · let before : Writer := { w with ended := ended }
    have hl : l.hasContent = true := h l (he ▸ rfl)
    have hmarked : w.markLast.ended = { l with part := .last } :: before.ended := by rw [heq]
    rw [laid_of_ended hmarked, laid_of_ended (w := before) he, l.hasContent_last, hl]
    rfl

theorem Tidy.markLast (ht : w.Tidy) (h : w.trailingBlanks = 0) : w.markLast.Tidy := by
  have htrailing := trailingBlanks_markLast w
  refine ⟨(leads_markLast w).symm ▸ ht.rests, ?_,
    by rw [htrailing, h]; exact fun _ hl => nomatch hl⟩
  rcases markLast_eq_or w with heq | ⟨l, ended, he, heq⟩
  · rw [heq]
    exact ht.bare
  · rw [heq]
    intro k hk hcontent
    rcases List.mem_cons.1 hk with rfl | hk
    · exact absurd l.hasContent_last (hcontent ▸ Bool.false_ne_true)
    · exact ht.bare k (he ▸ List.mem_cons_of_mem _ hk) hcontent

theorem Running.closeRun (hr : w.Running) : w.closeRun.Settled ∧ w.Gains [] w.closeRun := by
  rw [Writer.closeRun, line_of_pending hr.pending]
  let w' : Writer := { w with runDepth := w.runDepth - 1 }
  have hdepth : w'.runDepth = 0 := by
    change w.runDepth - 1 = 0
    rw [hr.runDepth]
  have htidy : w'.Tidy := ⟨hr.rests, hr.bare, hr.trailing⟩
  change (if w'.runDepth = 0 ∧ 1 < w'.runLines then w'.markLast else w').Settled ∧
    w.Gains [] (if w'.runDepth = 0 ∧ 1 < w'.runLines then w'.markLast else w')
  split
  · next hlines =>
    obtain ⟨htrailing, hlast⟩ := hr.last (Nat.lt_trans Nat.zero_lt_one hlines.2)
    exact ⟨⟨htidy.markLast htrailing, (pending_markLast w').trans hr.pending,
      (runDepth_markLast w').trans hdepth⟩, gains_nil (laid_markLast hlast) (leads_markLast w')⟩
  · exact ⟨⟨htidy, hr.pending, hdepth⟩, gains_nil rfl rfl⟩

end Writer

/-! ## Scripts -/

namespace Script

open Writer

variable {a b : Script} {as bs : List LaidLine}

/-- The script lays these lines, wherever the writer is between two lines. -/
def Lays (script : Script) (lines : List LaidLine) : Prop :=
  ∀ w : Writer, w.Settled → (w.run script).Settled ∧ w.Gains lines (w.run script)

theorem Lays.nil : Lays [] [] := fun _ hs => ⟨hs, gains_nil rfl rfl⟩

theorem Lays.append (ha : Lays a as) (hb : Lays b bs) : Lays (a ++ b) (as ++ bs) := by
  intro w hs
  obtain ⟨hs', hgains⟩ := ha w hs
  obtain ⟨hs'', hgains'⟩ := hb _ hs'
  rw [run_append]
  exact ⟨hs'', hgains.trans hgains'⟩

/-- A line outside of runs is laid unless it is blank. -/
theorem settled_endLine {w : Writer} (hs : w.Settled) (cs : Text) :
    { w with pending := cs }.endLine.Settled ∧
      w.Gains ((Text.nonblank [cs]).map .ofText) { w with pending := cs }.endLine := by
  let w' : Writer := { w with pending := cs }
  have htidy : w'.Tidy := ⟨hs.rests, hs.bare, hs.trailing⟩
  have hcontent : w'.hasContent = !Text.isBlank cs := by
    have hpart : w'.nextPart = .outside := if_pos hs.runDepth
    rw [hasContent, hpart, decide_eq_true rfl, Bool.and_true]
  have hgains := gains_endLine w'
  have hlines : (if w'.hasContent then [LaidLine.ofText w'.pending] else []) =
      (Text.nonblank [cs]).map .ofText := by
    rw [hcontent, Text.nonblank_singleton]
    cases Text.isBlank cs <;> rfl
  rw [hlines] at hgains
  exact ⟨⟨htidy.endLine, rfl, hs.runDepth⟩, ⟨hgains.laid, hgains.leads⟩⟩

theorem lays_blankLine : Lays [.blankLine] [] := by
  intro w hs
  change w.blankLine.Settled ∧ w.Gains [] w.blankLine
  rw [blankLine, line_of_pending hs.pending]
  split
  · exact ⟨hs, gains_nil rfl rfl⟩
  · have hw : { w with pending := [] } = w := by rw [← hs.pending]
    have hend := settled_endLine hs []
    rwa [hw] at hend

theorem lays_append_line {cs : Text} (hcs : '\n' ∉ cs) :
    Lays [.append cs, .line] ((Text.nonblank [cs]).map .ofText) := by
  intro w hs
  change (w.append cs).line.Settled ∧ w.Gains _ (w.append cs).line
  rw [append_of_not_mem hcs, hs.pending, line]
  split
  · next h =>
    obtain rfl : cs = [] := List.isEmpty_iff.1 h
    exact ⟨⟨⟨hs.rests, hs.bare, hs.trailing⟩, rfl, hs.runDepth⟩, gains_nil rfl rfl⟩
  · exact settled_endLine hs cs

theorem lays_append_newline {cs : Text} (hcs : '\n' ∉ cs) :
    Lays [.append cs, .append ['\n']] ((Text.nonblank [cs]).map .ofText) := by
  intro w hs
  change ((w.append cs).append ['\n']).Settled ∧ w.Gains _ ((w.append cs).append ['\n'])
  rw [append_newline hcs hs.pending]
  exact settled_endLine hs cs

theorem lays_ofTextLines {lines : List Text} (h : ∀ l ∈ lines, '\n' ∉ l) :
    Lays (ofTextLines lines) ((Text.nonblank lines).map .ofText) := by
  induction lines with
  | nil => exact .nil
  | cons l lines ih =>
    rw [← List.singleton_append, Text.nonblank_append, List.map_append]
    exact (lays_append_line (h l List.mem_cons_self)).append
      (ih fun k hk => h k (List.mem_cons_of_mem _ hk))

theorem lays_ofKeptLines {lines : List Text} (h : ∀ l ∈ lines, '\n' ∉ l) :
    Lays (ofKeptLines lines) ((Text.nonblank lines).map .ofText) := by
  induction lines with
  | nil => exact .nil
  | cons l lines ih =>
    rw [← List.singleton_append, Text.nonblank_append, List.map_append]
    exact (lays_append_newline (h l List.mem_cons_self)).append
      (ih fun k hk => h k (List.mem_cons_of_mem _ hk))

/-- The lines of a run are laid whether they are blank or not. -/
theorem running_ofKeptLines {lines : List Text} (h : ∀ l ∈ lines, '\n' ∉ l)
    {w : Writer} (hr : w.Running) :
    (w.run (ofKeptLines lines)).Running ∧ w.Gains (lines.map .ofText)
    (w.run (ofKeptLines lines)) := by
  induction lines generalizing w with
  | nil => exact ⟨hr, gains_nil rfl rfl⟩
  | cons l lines ih =>
    obtain ⟨hr', hgains⟩ := hr.endLine l
    obtain ⟨hr'', hgains'⟩ := ih (fun k hk => h k (List.mem_cons_of_mem _ hk)) hr'
    change (((w.append l).append ['\n']).run (ofKeptLines lines)).Running ∧
      w.Gains _ (((w.append l).append ['\n']).run (ofKeptLines lines))
    rw [append_newline (h l List.mem_cons_self) hr.pending]
    exact ⟨hr'', hgains.trans hgains'⟩

theorem lays_run {lines : List Text} (h : ∀ l ∈ lines, '\n' ∉ l) :
    Lays ([.openRun] ++ ofKeptLines lines ++ [.closeRun]) (lines.map .ofText) := by
  intro w hs
  obtain ⟨hr, hopen⟩ := hs.openRun
  obtain ⟨hr', hlines⟩ := running_ofKeptLines h hr
  obtain ⟨hs', hclose⟩ := hr'.closeRun
  rw [run_append, run_append]
  have hall := (hopen.trans hlines).trans hclose
  rw [List.append_nil] at hall
  exact ⟨hs', hall⟩

/-- What is written behind a lead is laid with this lead. -/
theorem lays_indented {body : Script} {lines : List LaidLine} {first rest : Text}
    (hbody : Lays body lines) (hrest : Text.isBlank rest) :
    Lays ([.pushLeadFirst first rest] ++ body ++ [.line, .popLead])
    (LaidLine.indented first rest lines) := by
  intro w hs
  let lead : Lead := ⟨some first, rest⟩
  let pushed := w.pushLeadFirst first rest
  have hpushed : pushed.Settled :=
    { hs with rests := List.forall_mem_append.2 ⟨hs.rests, List.forall_mem_singleton.2 hrest⟩ }
  obtain ⟨hs', hgains⟩ := hbody pushed hpushed
  rw [run_append, run_append]
  change ((pushed.run body).line.popLead).Settled ∧ w.Gains _ ((pushed.run body).line.popLead)
  rw [line_of_pending hs'.pending]
  refine ⟨{ hs' with rests := fun l hl => hs'.rests l ((List.dropLast_sublist _).mem hl) }, ?_, ?_⟩
  · rw [← LaidLine.allUnder_append_singleton]
    exact hgains.laid
  · change (pushed.run body).leads.dropLast = _
    rw [hgains.leads, LaidLine.isEmpty_indented]
    change (if lines.isEmpty then w.leads ++ [lead]
      else (w.leads ++ [lead]).map (Lead.used true)).dropLast = _
    split
    · exact List.dropLast_concat
    · rw [List.map_append]
      exact List.dropLast_concat

end Script

end Taskdown
