import Mathlib.Logic.Relation
import Taskdown.Output.Script

/-!
# What a writer's steps are made of

Every step of a writer is a chain of a few elementary changes (`Writer.Change`): a line ends, text
without a newline is written behind the pending line, the leads are changed, the accounts of runs
are changed, the last line is marked. Leads may be restricted to those that satisfy a condition,
which the leads that a script pushes then have to satisfy.

Whatever the elementary changes keep is kept by every script (`Writer.chain_run`):

* `Writer.Clean`: neither the pending line nor the text of a line that has ended has a newline;
* `Writer.LeadsClean`: nor has a lead, if none is pushed that has one;
* `Writer.Grows`: text that has been written is not taken back.
-/

namespace Taskdown

/-- The leads that a step pushes. -/
def Writer.Step.pushed : Writer.Step → List Lead
  | .pushLead lead => [⟨none, lead⟩]
  | .pushLeadFirst first rest => [⟨some first, rest⟩]
  | _ => []

namespace Writer

open Relation

variable {w w' : Writer} {ok : Lead → Prop}

/-- An elementary change. New leads have to be `ok`. -/
inductive Change (ok : Lead → Prop) : Writer → Writer → Prop
  | endLine (w : Writer) : Change ok w w.endLine
  | write (w : Writer) {cs : Text} (h : '\n' ∉ cs) :
      Change ok w { w with pending := w.pending ++ cs }
  | leads (w : Writer) {leads : List Lead} (h : ∀ l ∈ leads, l ∈ w.leads ∨ ok l) :
      Change ok w { w with leads }
  | runs (w : Writer) (runDepth runLines : Nat) : Change ok w { w with runDepth, runLines }
  | markLast (w : Writer) : Change ok w w.markLast

/-- A number of elementary changes, one after the other. -/
abbrev Chain (ok : Lead → Prop) : Writer → Writer → Prop := ReflTransGen (Change ok)

/-- Lines end and text without a newline is written, which is all that most steps do. -/
inductive Growth : Writer → Writer → Prop
  | endLine (w : Writer) : Growth w w.endLine
  | write (w : Writer) {cs : Text} (h : '\n' ∉ cs) : Growth w { w with pending := w.pending ++ cs }

theorem Growth.change (h : Growth w w') : Change ok w w' := by
  cases h with
  | endLine => exact .endLine w
  | write hcs => exact .write w hcs

/-! ## Steps are chains -/

/-- The pieces of a text have no newline: each of them ends a piece. -/
theorem newline_not_mem_pieces {cs : Text} {piece : Text × Bool} (h : piece ∈ pieces cs) :
    '\n' ∉ piece.1 := by
  induction cs generalizing piece with
  | nil => cases h
  | cons c cs ih =>
    rw [pieces] at h
    split at h
    · rcases List.mem_cons.1 h with rfl | h
      · exact List.not_mem_nil
      · exact ih h
    · next hc =>
      split at h
      · obtain rfl := List.mem_singleton.1 h
        simpa using Ne.symm hc
      · next cs' ended rest hp =>
        rcases List.mem_cons.1 h with rfl | h
        · have := ih (hp ▸ List.mem_cons_self)
          simpa [Ne.symm hc] using this
        · exact ih (hp ▸ List.mem_cons_of_mem _ h)

theorem dropReturn_sublist (piece : Text) : (dropReturn piece).Sublist piece := by
  rw [dropReturn]
  split
  · exact List.dropLast_sublist _
  · exact .refl _

theorem growth_line (w : Writer) : ReflTransGen Growth w w.line := by
  rw [line]
  split
  · exact .refl
  · exact .single (.endLine w)

theorem growth_blankLine (w : Writer) : ReflTransGen Growth w w.blankLine := by
  rw [blankLine]
  split
  · exact growth_line w
  · exact (growth_line w).tail (.endLine _)

theorem growth_appendPiece (w : Writer) {piece : Text × Bool} (h : '\n' ∉ piece.1) :
    ReflTransGen Growth w (w.appendPiece piece) := by
  obtain ⟨piece, ended⟩ := piece
  cases ended with
  | false => exact .single (.write w h)
  | true =>
    exact (ReflTransGen.single (.write w (mt (dropReturn_sublist piece).mem h))).tail (.endLine _)

theorem growth_pieces (w : Writer) {ps : List (Text × Bool)} (h : ∀ p ∈ ps, '\n' ∉ p.1) :
    ReflTransGen Growth w (ps.foldl appendPiece w) := by
  induction ps generalizing w with
  | nil => exact .refl
  | cons p ps ih =>
    exact (growth_appendPiece w (h p List.mem_cons_self)).trans
      (ih _ fun q hq => h q (List.mem_cons_of_mem _ hq))

theorem growth_append (w : Writer) (cs : Text) : ReflTransGen Growth w (w.append cs) :=
  growth_pieces w fun _ => newline_not_mem_pieces

theorem chain_of_growth (h : ReflTransGen Growth w w') : Chain ok w w' :=
  ReflTransGen.mono (fun _ _ h => h.change) _ _ h

theorem chain_line (w : Writer) : Chain ok w w.line := chain_of_growth (growth_line w)

theorem chain_openRun (w : Writer) : Chain ok w w.openRun := (chain_line w).tail (.runs _ _ _)

theorem chain_closeRun (w : Writer) : Chain ok w w.closeRun := by
  have hclosed : Chain ok w { w.line with runDepth := w.line.runDepth - 1 } :=
    (chain_line w).tail (.runs _ _ w.line.runLines)
  rw [closeRun]
  split
  · exact hclosed.tail (.markLast _)
  · exact hclosed

theorem chain_step (w : Writer) {s : Step} (hs : ∀ l ∈ s.pushed, ok l) : Chain ok w (w.step s) := by
  cases s with
  | append text => exact chain_of_growth (growth_append w text)
  | line => exact chain_line w
  | blankLine => exact chain_of_growth (growth_blankLine w)
  | openRun => exact chain_openRun w
  | closeRun => exact chain_closeRun w
  | pushLead lead =>
    exact .single (.leads w fun l hl => (List.mem_append.1 hl).imp id (hs l))
  | pushLeadFirst first rest =>
    exact .single (.leads w fun l hl => (List.mem_append.1 hl).imp id (hs l))
  | popLead => exact .single (.leads w fun l hl => .inl ((List.dropLast_sublist _).mem hl))

theorem chain_run (w : Writer) {script : Script} (hs : ∀ s ∈ script, ∀ l ∈ s.pushed, ok l) :
    Chain ok w (w.run script) := by
  induction script generalizing w with
  | nil => exact .refl
  | cons s script ih =>
    exact (chain_step w (hs s List.mem_cons_self)).trans
      (ih _ fun r hr => hs r (List.mem_cons_of_mem _ hr))

/-- Without a restriction every script is a chain. -/
theorem chain_run_true (w : Writer) (script : Script) : Chain (fun _ => True) w (w.run script) :=
  chain_run w fun _ _ _ _ => trivial

/-! ## Ending a line -/

/-- Does the pending line have content, so that it is kept as it is? Within a run every line has. -/
def hasContent (w : Writer) : Bool := !(Text.isBlank w.pending && w.nextPart = .outside)

/-- The line that the pending line becomes when it ends. -/
def nextLine (w : Writer) : WrittenLine where
  text := if w.hasContent then w.pending else []
  lead :=
    let lead := w.leads.flatMap (Lead.form w.hasContent)
    if w.hasContent && !w.pending.isEmpty then lead else Text.trimEnd lead
  part := w.nextPart

theorem ended_endLine (w : Writer) : w.endLine.ended = w.nextLine :: w.ended := by
  change _ :: _ = _ :: _
  rw [nextLine, ← hasContent]
  cases w.hasContent <;> cases w.pending <;> rfl

/-- Finishing drops lines at the end. -/
theorem ended_finish (w : Writer) : w.finish.ended = w.line.ended.drop w.line.trailingBlanks := rfl

/-- A line has the pending text, unless it is blank and has none. -/
theorem text_nextLine_sublist (w : Writer) : w.nextLine.text.Sublist w.pending := by
  change (if w.hasContent then w.pending else []).Sublist _
  split
  · exact .refl _
  · exact List.nil_sublist _

/-- Marking changes the part of a line and nothing else. -/
theorem markLast_eq_or (w : Writer) : w.markLast = w ∨
    ∃ l ended, w.ended = l :: ended ∧
    w.markLast = { w with ended := { l with part := .last } :: ended } := by
  rw [markLast]
  split
  · next l ended he => exact .inr ⟨l, ended, he, rfl⟩
  · exact .inl rfl

/-- What does not depend on the parts of the lines is not affected by marking. -/
theorem map_ended_markLast {β : Type} {f : WrittenLine → β} (hf : ∀ l part, f { l with part } = f l)
    (w : Writer) : w.markLast.ended.map f = w.ended.map f := by
  rcases markLast_eq_or w with h | ⟨l, ended, he, h⟩
  · rw [h]
  · rw [h, he, List.map_cons, List.map_cons, hf]

theorem pending_markLast (w : Writer) : w.markLast.pending = w.pending := by
  rcases markLast_eq_or w with h | ⟨l, ended, -, h⟩ <;> rw [h]

theorem leads_markLast (w : Writer) : w.markLast.leads = w.leads := by
  rcases markLast_eq_or w with h | ⟨l, ended, -, h⟩ <;> rw [h]

theorem runDepth_markLast (w : Writer) : w.markLast.runDepth = w.runDepth := by
  rcases markLast_eq_or w with h | ⟨l, ended, -, h⟩ <;> rw [h]

theorem trailingBlanks_markLast (w : Writer) : w.markLast.trailingBlanks = w.trailingBlanks := by
  rcases markLast_eq_or w with h | ⟨l, ended, -, h⟩ <;> rw [h]

/-! ## The limit -/

theorem maxBlankLines_chain (h : Chain ok w w') : w'.maxBlankLines = w.maxBlankLines := by
  induction h with
  | refl => rfl
  | @tail v _ _ h ih =>
    refine Eq.trans ?_ ih
    cases h with
    | markLast => rcases markLast_eq_or v with h | ⟨l, ended, -, h⟩ <;> rw [h]
    | _ => rfl

theorem maxBlankLines_line (w : Writer) : w.line.maxBlankLines = w.maxBlankLines :=
  maxBlankLines_chain (chain_line w : Chain (fun _ => True) w w.line)

/-- The limit stays what it is. -/
theorem maxBlankLines_step (w : Writer) (s : Step) : (w.step s).maxBlankLines = w.maxBlankLines :=
  maxBlankLines_chain (chain_step w fun _ _ => trivial : Chain (fun _ => True) w (w.step s))

/-! ## Blank lines at the end -/

/-- The blank lines that are counted at the end are lines that have ended. -/
theorem Change.trailingBlanks_le (h : Change ok w w') (hw : w.trailingBlanks ≤ w.ended.length) :
    w'.trailingBlanks ≤ w'.ended.length := by
  cases h with
  | endLine =>
    change (if w.hasContent then 0 else w.trailingBlanks + 1) ≤ _
    rw [ended_endLine, List.length_cons]
    split
    · exact Nat.zero_le _
    · exact Nat.succ_le_succ hw
  | write | leads | runs => exact hw
  | markLast =>
    have hlength :=
      congrArg List.length (map_ended_markLast (w := w) (f := WrittenLine.text) fun _ _ => rfl)
    rw [List.length_map, List.length_map] at hlength
    rwa [trailingBlanks_markLast, hlength]

theorem Chain.trailingBlanks_le (h : Chain ok w w') (hw : w.trailingBlanks ≤ w.ended.length) :
    w'.trailingBlanks ≤ w'.ended.length := by
  induction h with
  | refl => exact hw
  | tail _ h ih => exact h.trailingBlanks_le ih

/-! ## No newlines -/

/-- Neither the pending text nor the text of a line has a newline. -/
structure Clean (w : Writer) : Prop where
  pending : '\n' ∉ w.pending
  ended : ∀ l ∈ w.ended, '\n' ∉ l.text

theorem Clean.change (hc : w.Clean) (h : Change ok w w') : w'.Clean := by
  cases h with
  | endLine =>
    refine ⟨List.not_mem_nil, fun l hl => ?_⟩
    rw [ended_endLine] at hl
    rcases List.mem_cons.1 hl with rfl | hl
    · exact mt (text_nextLine_sublist w).mem hc.pending
    · exact hc.ended l hl
  | write hcs => exact ⟨fun h => (List.mem_append.1 h).elim hc.pending hcs, hc.ended⟩
  | leads | runs => exact ⟨hc.pending, hc.ended⟩
  | markLast =>
    have htexts : ∀ cs ∈ w.ended.map WrittenLine.text, '\n' ∉ cs := List.forall_mem_map.2 hc.ended
    rw [← map_ended_markLast fun _ _ => rfl] at htexts
    exact ⟨(pending_markLast w).symm ▸ hc.pending,
      (List.forall_mem_map (f := WrittenLine.text)).1 htexts⟩

theorem Clean.chain (hc : w.Clean) (h : Chain ok w w') : w'.Clean := by
  induction h with
  | refl => exact hc
  | tail _ h ih => exact ih.change h

/-- A lead has no newline in either form. -/
def LeadClean (l : Lead) : Prop := '\n' ∉ l.rest ∧ ∀ first ∈ l.first, '\n' ∉ first

/-- No lead has a newline, neither one in force nor one in front of a line. -/
structure LeadsClean (w : Writer) : Prop where
  leads : ∀ l ∈ w.leads, LeadClean l
  ended : ∀ l ∈ w.ended, '\n' ∉ l.lead

theorem LeadClean.form {l : Lead} (h : LeadClean l) (content : Bool) : '\n' ∉ l.form content := by
  obtain ⟨first, rest⟩ := l
  cases content with
  | false => exact h.1
  | true =>
    cases first with
    | none => exact h.1
    | some first => exact h.2 first rfl

theorem LeadClean.used {l : Lead} (h : LeadClean l) (content : Bool) :
    LeadClean (l.used content) := by
  cases content with
  | false => exact h
  | true => exact ⟨h.1, fun _ hf => nomatch hf⟩

theorem LeadsClean.lead_nextLine (hc : w.LeadsClean) : '\n' ∉ w.nextLine.lead := by
  have hlead : '\n' ∉ w.leads.flatMap (Lead.form w.hasContent) := by
    rw [List.mem_flatMap]
    rintro ⟨l, hl, hmem⟩
    exact (hc.leads l hl).form _ hmem
  change '\n' ∉ if w.hasContent && !w.pending.isEmpty then _ else Text.trimEnd _
  split
  · exact hlead
  · -- Trimming takes something away from the end, and adds nothing.
    obtain ⟨tail, htail, -⟩ := Text.exists_eq_dropEndWhile_append Text.isWhiteSpace
      (w.leads.flatMap (Lead.form w.hasContent))
    intro hmem
    rw [htail] at hlead
    exact hlead (List.mem_append_left _ hmem)

theorem LeadsClean.change (hc : w.LeadsClean) (h : Change LeadClean w w') : w'.LeadsClean := by
  cases h with
  | endLine =>
    refine ⟨fun l hl => ?_, fun l hl => ?_⟩
    · obtain ⟨k, hk, rfl⟩ := List.mem_map.1 hl
      exact (hc.leads k hk).used _
    · rw [ended_endLine] at hl
      rcases List.mem_cons.1 hl with rfl | hl
      · exact hc.lead_nextLine
      · exact hc.ended l hl
  | leads h => exact ⟨fun l hl => (h l hl).elim (hc.leads l) id, hc.ended⟩
  | write | runs => exact ⟨hc.leads, hc.ended⟩
  | markLast =>
    have hleads : ∀ cs ∈ w.ended.map WrittenLine.lead, '\n' ∉ cs := List.forall_mem_map.2 hc.ended
    rw [← map_ended_markLast fun _ _ => rfl] at hleads
    exact ⟨(leads_markLast w).symm ▸ hc.leads,
      (List.forall_mem_map (f := WrittenLine.lead)).1 hleads⟩

theorem LeadsClean.chain (hc : w.LeadsClean) (h : Chain LeadClean w w') : w'.LeadsClean := by
  induction h with
  | refl => exact hc
  | tail _ h ih => exact ih.change h

/-! ## Growing -/

/-- The text of the first writer is the start of that of the second. -/
def Grows (w w' : Writer) : Prop := w.text <+: w'.text

theorem text_endLine (w : Writer) : w.endLine.text = w.text ++ w.nextLine.chars := by
  rw [text, ended_endLine, List.reverse_cons, List.flatMap_append, List.flatMap_singleton]
  rfl

theorem text_markLast (w : Writer) : w.markLast.text = w.text := by
  rw [text, text, List.flatMap_def, List.flatMap_def, List.map_reverse, List.map_reverse,
    map_ended_markLast fun _ _ => rfl]

theorem Grows.change (h : Change ok w w') : w.Grows w' := by
  cases h with
  | endLine => exact ⟨_, (text_endLine w).symm⟩
  | write | leads | runs => exact List.prefix_rfl
  | markLast => exact ⟨[], by rw [List.append_nil, text_markLast]⟩

theorem Grows.chain (h : Chain ok w w') : w.Grows w' := by
  induction h with
  | refl => exact List.prefix_rfl
  | tail _ h ih => exact ih.trans (Grows.change h)

end Writer

end Taskdown
