import Taskdown.Document.Render
import Taskdown.Proofs.Output.Changes

/-!
# What a script writes

The *contents* of a writer are the texts of its lines that are not blank. Blank lines come and go:
their text may be dropped, they are limited in number, and at the end they are taken away. The
contents are what all this leaves alone:

* `Writer.contents_endLine`: ending a line adds its text, unless it is blank;
* `Writer.EndsBlank.contents_finish`: finishing adds the pending line and takes nothing away.

So what a script *writes* (`Script.Writes`) depends neither on the leads in force, nor on runs, nor
on limits, if only no line is pending when it starts, and then none is pending when it ends. Scripts
that follow each other write one text after the other (`Script.Writes.append`).
-/

namespace Taskdown

/-- The texts that are not blank. -/
def Text.nonblank (texts : List Text) : List Text := texts.filter (!Text.isBlank ·)

@[simp] theorem Text.nonblank_nil : Text.nonblank [] = [] := rfl

@[simp] theorem Text.nonblank_append (as bs : List Text) :
    Text.nonblank (as ++ bs) = Text.nonblank as ++ Text.nonblank bs :=
  List.filter_append ..

theorem Text.nonblank_singleton (cs : Text) :
    Text.nonblank [cs] = if Text.isBlank cs then [] else [cs] := by
  cases h : Text.isBlank cs <;> simp [Text.nonblank, h]

namespace Writer

open Relation

variable {w w' : Writer} {ok : Lead → Prop}

/-- The texts of the lines that are not blank. -/
def contents (w : Writer) : List Text := Text.nonblank (w.ended.reverse.map WrittenLine.text)

/-! ## Contents -/

theorem contents_endLine (w : Writer) :
    w.endLine.contents = w.contents ++ Text.nonblank [w.pending] := by
  rw [contents, ended_endLine, List.reverse_cons, List.map_append, Text.nonblank_append]
  refine congrArg (w.contents ++ ·) ?_
  change Text.nonblank [if w.hasContent then w.pending else []] = _
  split
  · rfl
  · next hcontent =>
    -- A line without content is blank.
    rw [hasContent, Bool.not_eq_true, Bool.not_eq_false', Bool.and_eq_true_iff] at hcontent
    rw [Text.nonblank_singleton w.pending, if_pos hcontent.1]
    rfl

theorem contents_line (w : Writer) : w.line.contents = w.contents ++ Text.nonblank [w.pending] := by
  rw [line]
  split
  · next h =>
    rw [List.isEmpty_iff.1 h]
    exact (List.append_nil _).symm
  · exact contents_endLine w

theorem pending_line (w : Writer) : w.line.pending = [] := by
  rw [line]
  split
  · next h => exact List.isEmpty_iff.1 h
  · rfl

theorem contents_markLast (w : Writer) : w.markLast.contents = w.contents := by
  rw [contents, contents, List.map_reverse, List.map_reverse, map_ended_markLast fun _ _ => rfl]

/-- With no line pending there is no line to end. -/
theorem line_of_pending (h : w.pending = []) : w.line = w := by
  rw [line, h]
  rfl

/-! ## Text without a newline -/

/-- Text without a newline is one piece, if it is anything. -/
theorem pieces_of_not_mem {cs : Text} (h : '\n' ∉ cs) (hne : cs ≠ []) :
    pieces cs = [(cs, false)] := by
  induction cs with
  | nil => exact absurd rfl hne
  | cons c cs ih =>
    have hc : c ≠ '\n' := fun e => h (e ▸ List.mem_cons_self)
    rw [pieces, if_neg hc]
    cases cs with
    | nil => rfl
    | cons d ds => rw [ih (fun hmem => h (List.mem_cons_of_mem _ hmem)) (List.cons_ne_nil _ _)]

theorem append_of_not_mem {cs : Text} (h : '\n' ∉ cs) (w : Writer) :
    w.append cs = { w with pending := w.pending ++ cs } := by
  cases cs with
  | nil =>
    rw [List.append_nil]
    rfl
  | cons c cs =>
    rw [append, pieces_of_not_mem h (List.cons_ne_nil _ _)]
    rfl

/-- A text is appended with its terminator. -/
theorem append_newline {cs : Text} (hcs : '\n' ∉ cs) (h : w.pending = []) :
    (w.append cs).append ['\n'] = { w with pending := cs }.endLine := by
  rw [append_of_not_mem hcs, h]
  change Writer.endLine { w with pending := [] ++ cs ++ [] } = _
  rw [List.append_nil, List.nil_append]

/-! ## The end -/

/-- The lines that are counted as blank at the end have no text. -/
def EndsBlank (w : Writer) : Prop := ∀ l ∈ w.ended.take w.trailingBlanks, l.text = []

theorem endsBlank_new (maxBlankLines : Nat) : ({ maxBlankLines } : Writer).EndsBlank :=
  fun _ h => nomatch h

theorem EndsBlank.change (hb : w.EndsBlank) (h : Change ok w w') : w'.EndsBlank := by
  cases h with
  | endLine =>
    intro l hl
    rw [ended_endLine] at hl
    have htrailing : w.endLine.trailingBlanks = if w.hasContent then 0 else w.trailingBlanks + 1 :=
      rfl
    cases hcontent : w.hasContent with
    | true =>
      -- A line with content is not counted, and none before it is any longer.
      rw [htrailing, hcontent] at hl
      cases hl
    | false =>
      rw [htrailing, hcontent] at hl
      rcases List.mem_cons.1 hl with rfl | hl
      · change (if w.hasContent then w.pending else []) = []
        rw [hcontent]
        rfl
      · exact hb l hl
  | write | leads | runs => exact hb
  | markLast =>
    have htexts : ∀ cs ∈ (w.ended.take w.trailingBlanks).map WrittenLine.text, cs = [] :=
      List.forall_mem_map.2 hb
    rw [List.map_take, ← map_ended_markLast fun _ _ => rfl, ← List.map_take,
      ← trailingBlanks_markLast] at htexts
    exact (List.forall_mem_map (f := WrittenLine.text)).1 htexts

theorem EndsBlank.chain (hb : w.EndsBlank) (h : Chain ok w w') : w'.EndsBlank := by
  induction h with
  | refl => exact hb
  | tail _ h ih => exact ih.change h

/-- Finishing takes no contents away. -/
theorem EndsBlank.contents_finish (hb : w.EndsBlank) :
    w.finish.contents = w.contents ++ Text.nonblank [w.pending] := by
  have hline : w.line.EndsBlank := hb.chain (chain_line w : Chain (fun _ => True) w w.line)
  rw [← contents_line, contents, contents]
  conv => rhs; rw [← List.take_append_drop w.line.trailingBlanks w.line.ended]
  rw [List.reverse_append, List.map_append, Text.nonblank_append]
  have hdropped : Text.nonblank ((w.line.ended.take w.line.trailingBlanks).reverse.map
      WrittenLine.text) = [] := by
    refine List.filter_eq_nil_iff.2 fun cs hcs => ?_
    obtain ⟨l, hl, rfl⟩ := List.mem_map.1 hcs
    rw [hline l (List.mem_reverse.1 hl)]
    exact Bool.false_ne_true
  rw [hdropped, List.append_nil]
  rfl

end Writer

/-! ## Scripts -/

namespace Script

open Writer

variable {a b : Script} {as bs : List Text}

/-- The script writes lines with these texts, but for blank ones. -/
def Writes (script : Script) (texts : List Text) : Prop := ∀ w : Writer, w.pending = [] →
  (w.run script).pending = [] ∧ (w.run script).contents = w.contents ++ Text.nonblank texts

theorem Writes.nil : Writes [] [] := fun _ h => ⟨h, (List.append_nil _).symm⟩

theorem Writes.append (ha : Writes a as) (hb : Writes b bs) : Writes (a ++ b) (as ++ bs) := by
  intro w h
  obtain ⟨hpending, hcontents⟩ := ha w h
  obtain ⟨hpending', hcontents'⟩ := hb _ hpending
  rw [run_append]
  exact ⟨hpending', by rw [hcontents', hcontents, Text.nonblank_append, List.append_assoc]⟩

/-- Steps that end blank lines at most, and change leads and runs. -/
theorem writes_nil_of_step {s : Step} (h : ∀ w : Writer, w.pending = [] → (w.step s).pending = [] ∧
    (w.step s).contents = w.contents) : Writes [s] [] := fun w hw => by
  obtain ⟨hpending, hcontents⟩ := h w hw
  exact ⟨hpending, hcontents.trans (List.append_nil _).symm⟩

theorem writes_line : Writes [.line] [] := writes_nil_of_step fun w h => by
  change w.line.pending = [] ∧ w.line.contents = w.contents
  rw [line_of_pending h]
  exact ⟨h, rfl⟩

theorem writes_blankLine : Writes [.blankLine] [] := writes_nil_of_step fun w h => by
  change w.blankLine.pending = [] ∧ w.blankLine.contents = w.contents
  rw [blankLine, line_of_pending h]
  split
  · exact ⟨h, rfl⟩
  · refine ⟨rfl, ?_⟩
    rw [contents_endLine, h]
    exact List.append_nil _

theorem writes_openRun : Writes [.openRun] [] := writes_nil_of_step fun w h => by
  change w.openRun.pending = [] ∧ w.openRun.contents = w.contents
  rw [openRun, line_of_pending h]
  exact ⟨h, rfl⟩

theorem writes_closeRun : Writes [.closeRun] [] := writes_nil_of_step fun w h => by
  change w.closeRun.pending = [] ∧ w.closeRun.contents = w.contents
  rw [closeRun, line_of_pending h]
  split
  · exact ⟨(pending_markLast _).trans h, contents_markLast _⟩
  · exact ⟨h, rfl⟩

theorem writes_pushLeadFirst (first rest : Text) : Writes [.pushLeadFirst first rest] [] :=
  writes_nil_of_step fun _ h => ⟨h, rfl⟩

theorem writes_popLead : Writes [.popLead] [] := writes_nil_of_step fun _ h => ⟨h, rfl⟩

/-- A line that is appended and ended. -/
theorem writes_append_line {l : Text} (hl : '\n' ∉ l) : Writes [.append l, .line] [l] :=
  fun w h => by
  change (w.append l).line.pending = [] ∧ (w.append l).line.contents = _
  rw [append_of_not_mem hl, h]
  exact ⟨pending_line _, contents_line _⟩

/-- A line that is appended with its terminator. -/
theorem writes_append_newline {l : Text} (hl : '\n' ∉ l) : Writes [.append l, .append ['\n']] [l] :=
  fun w h => by
  change ((w.append l).append ['\n']).pending = [] ∧ ((w.append l).append ['\n']).contents = _
  rw [append_newline hl h]
  exact ⟨rfl, contents_endLine _⟩

theorem writes_ofTextLines {lines : List Text} (h : ∀ l ∈ lines, '\n' ∉ l) :
    Writes (ofTextLines lines) lines := by
  induction lines with
  | nil => exact .nil
  | cons l lines ih =>
    exact (writes_append_line (h l List.mem_cons_self)).append
      (ih fun k hk => h k (List.mem_cons_of_mem _ hk))

theorem writes_ofKeptLines {lines : List Text} (h : ∀ l ∈ lines, '\n' ∉ l) :
    Writes (ofKeptLines lines) lines := by
  induction lines with
  | nil => exact .nil
  | cons l lines ih =>
    exact (writes_append_newline (h l List.mem_cons_self)).append
      (ih fun k hk => h k (List.mem_cons_of_mem _ hk))

end Script

end Taskdown
