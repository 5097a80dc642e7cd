import Mathlib.Data.List.Flatten
import Taskdown.Proofs.Output.Contents
import Taskdown.Proofs.Output.Records

/-!
# How much a script writes

A line takes the forms of all leads with it, so what a script writes is more than the texts that it
appends. A first form is used once, and may be paid for when it is pushed; what a line may still
cost then is the other forms of the leads. The *size* of a writer counts what has been written, what
is pending, and the first forms that wait to be used (`Writer.size`). Then ending a line adds no
more than the other forms of the leads and a terminator (`Writer.size_endLine`), and what a script
adds follows from its steps:

* `Script.Takes`: the script leaves the leads as they are and adds no more than some text and some
  lines, if only the leads in force are short enough;
* `Script.Takes.append`, `Script.Takes.indented`: scripts one after the other, and behind a lead;
* `Script.Takes.width_text_le`: what a new writer has written at most.
-/

namespace Taskdown

/-! ## Sizes -/

theorem Text.width_le_of_sublist {as bs : Text} (h : as.Sublist bs) :
    Text.width as ≤ Text.width bs := by
  induction h with
  | slnil => exact Nat.le_refl _
  | cons c _ ih =>
    rw [Text.width_cons]
    omega
  | cons_cons c _ ih =>
    rw [Text.width_cons, Text.width_cons]
    omega

theorem Text.width_trimEnd_le (cs : Text) : Text.width (Text.trimEnd cs) ≤ Text.width cs := by
  obtain ⟨tail, htail, -⟩ := Text.exists_eq_dropEndWhile_append Text.isWhiteSpace cs
  exact Text.width_le_of_prefix ⟨tail, htail.symm⟩

/-- The first forms that wait to be used. -/
def Lead.firsts (leads : List Lead) : Text := leads.flatMap fun l => l.first.getD []

/-- The other forms of the leads. -/
def Lead.rests (leads : List Lead) : Text := leads.flatMap Lead.rest

/-- A line takes the first forms, or the other ones. -/
theorem Lead.width_form_add_firsts_le (content : Bool) (leads : List Lead) :
    Text.width (leads.flatMap (Lead.form content)) +
    Text.width (Lead.firsts (leads.map (Lead.used content))) ≤
      Text.width (Lead.rests leads) + Text.width (Lead.firsts leads) := by
  induction leads with
  | nil => exact Nat.le_refl _
  | cons l leads ih =>
    rw [Lead.firsts, Lead.rests, Lead.firsts] at ih ⊢
    simp only [List.map_cons, List.flatMap_cons, Text.width_append]
    have hl : Text.width (l.form content) + Text.width ((l.used content).first.getD []) ≤
        Text.width l.rest + Text.width (l.first.getD []) := by
      obtain ⟨first, rest⟩ := l
      cases content with
      | false => exact Nat.le_refl _
      | true =>
        cases first with
        | none => exact Nat.le_refl _
        | some first => exact Nat.le_add_left _ _
    omega

theorem Lead.rests_map_used (content : Bool) (leads : List Lead) :
    (leads.map (Lead.used content)).map Lead.rest = leads.map Lead.rest := by
  rw [List.map_map]
  refine List.map_congr_left fun l _ => ?_
  cases content <;> rfl

namespace Writer

/-- The number of bytes that have been written, are pending, or wait in first forms. -/
def size (w : Writer) : Nat :=
  Text.width w.text + Text.width w.pending + Text.width (Lead.firsts w.leads)

/-- The number of bytes in the other forms of the leads. -/
def indent (w : Writer) : Nat := Text.width (Lead.rests w.leads)

theorem indent_of_rests {w w' : Writer} (h : w'.leads.map Lead.rest = w.leads.map Lead.rest) :
    w'.indent = w.indent := by
  rw [indent, indent, Lead.rests, Lead.rests, List.flatMap_def, List.flatMap_def, h]

theorem size_endLine (w : Writer) : w.endLine.size ≤ w.size + (w.indent + 1) := by
  have hform := Lead.width_form_add_firsts_le w.hasContent w.leads
  have hlead : Text.width w.nextLine.lead ≤
      Text.width (w.leads.flatMap (Lead.form w.hasContent)) := by
    rw [nextLine]
    dsimp only
    split
    · exact Nat.le_refl _
    · exact Text.width_trimEnd_le _
  have htext := Text.width_le_of_sublist (text_nextLine_sublist w)
  have hleads : w.endLine.leads = w.leads.map (Lead.used w.hasContent) := rfl
  have hchars := WrittenLine.width_chars w.nextLine
  have hpending : w.endLine.pending = [] := rfl
  rw [size, size, indent, hleads, hpending, text_endLine, Text.width_append, hchars, Text.width_nil]
  omega

theorem rests_endLine (w : Writer) : w.endLine.leads.map Lead.rest = w.leads.map Lead.rest :=
  Lead.rests_map_used w.hasContent w.leads

theorem size_line (w : Writer) : w.line.size ≤ w.size + (w.indent + 1) := by
  rw [line]
  split
  · exact Nat.le_add_right _ _
  · exact size_endLine w

theorem rests_line (w : Writer) : w.line.leads.map Lead.rest = w.leads.map Lead.rest := by
  rw [line]
  split
  · rfl
  · exact rests_endLine w

end Writer

/-! ## What scripts take -/

namespace Script

open Writer

variable {a b body : Script} {reach text text' lines lines' : Nat}

/-- What a script adds to a writer: bytes of text, and lines with their leads. The leads reach over
    some bytes more than before while the script is followed. -/
def Takes (script : Script) (reach text lines : Nat) : Prop :=
  ∀ (w : Writer) (limit : Nat), w.indent + reach ≤ limit →
    (w.run script).leads.map Lead.rest = w.leads.map Lead.rest ∧
      (w.run script).size ≤ w.size + text + lines * (limit + 1)

theorem takes_nil : Takes [] 0 0 0 := fun w limit _ => ⟨rfl, by rw [run_nil]; omega⟩

theorem Takes.mono {reach' : Nat} (h : Takes a reach text lines) (hr : reach ≤ reach')
    (ht : text ≤ text') (hl : lines ≤ lines') : Takes a reach' text' lines' := by
  intro w limit hlimit
  obtain ⟨hrests, hsize⟩ := h w limit (by omega)
  have := Nat.mul_le_mul_right (limit + 1) hl
  exact ⟨hrests, by omega⟩

theorem Takes.append (ha : Takes a reach text lines) (hb : Takes b reach text' lines') :
    Takes (a ++ b) reach (text + text') (lines + lines') := by
  intro w limit hlimit
  obtain ⟨hrests, hsize⟩ := ha w limit hlimit
  obtain ⟨hrests', hsize'⟩ := hb (w.run a) limit (by rw [indent_of_rests hrests]; exact hlimit)
  rw [run_append]
  refine ⟨hrests'.trans hrests, ?_⟩
  rw [Nat.add_mul]
  omega

/-- A step that ends one line at most. -/
theorem takes_of_line {s : Step}
    (h : ∀ w : Writer, (w.step s).leads.map Lead.rest = w.leads.map Lead.rest ∧
      (w.step s).size ≤ w.size + (w.indent + 1)) : Takes [s] 0 0 1 := by
  intro w limit hlimit
  obtain ⟨hrests, hsize⟩ := h w
  exact ⟨hrests, by rw [run_cons, run_nil]; omega⟩

theorem takes_line : Takes [.line] 0 0 1 := takes_of_line fun w => ⟨rests_line w, size_line w⟩

theorem takes_openRun : Takes [.openRun] 0 0 1 := takes_of_line fun w => ⟨rests_line w, size_line w⟩

theorem takes_closeRun : Takes [.closeRun] 0 0 1 := takes_of_line fun w => by
  change w.closeRun.leads.map Lead.rest = w.leads.map Lead.rest ∧
    w.closeRun.size ≤ w.size + (w.indent + 1)
  rw [closeRun]
  split
  · rw [size, text_markLast, pending_markLast, leads_markLast]
    exact ⟨rests_line w, size_line w⟩
  · exact ⟨rests_line w, size_line w⟩

theorem takes_blankLine : Takes [.blankLine] 0 0 2 := by
  intro w limit hlimit
  have hline := size_line w
  have hrests := rests_line w
  change w.blankLine.leads.map Lead.rest = w.leads.map Lead.rest ∧ w.blankLine.size ≤ _
  rw [blankLine]
  split
  · exact ⟨hrests, by omega⟩
  · have hend := size_endLine w.line
    rw [indent_of_rests hrests] at hend
    exact ⟨(rests_endLine _).trans hrests, by omega⟩

theorem takes_append {cs : Text} (hcs : '\n' ∉ cs) : Takes [.append cs] 0 (Text.width cs) 0 := by
  intro w limit _
  change (w.append cs).leads.map Lead.rest = _ ∧ (w.append cs).size ≤ _
  rw [append_of_not_mem hcs]
  refine ⟨rfl, ?_⟩
  change Text.width w.text + Text.width (w.pending ++ cs) + Text.width (Lead.firsts w.leads) ≤ _
  rw [size, Text.width_append]
  omega

theorem takes_newline : Takes [.append ['\n']] 0 0 1 := takes_of_line fun w => by
  have happend : w.append ['\n'] = w.endLine := by
    change { w with pending := w.pending ++ [] }.endLine = w.endLine
    rw [List.append_nil]
  change (w.append ['\n']).leads.map Lead.rest = _ ∧ (w.append ['\n']).size ≤ _
  rw [happend]
  exact ⟨rests_endLine w, size_endLine w⟩

/-- Each line takes its text, and is one line. -/
theorem takes_ofTextLines {texts : List Text} (h : ∀ cs ∈ texts, '\n' ∉ cs) :
    Takes (ofTextLines texts) 0 (Text.width texts.flatten) texts.length := by
  induction texts with
  | nil => exact takes_nil
  | cons cs texts ih =>
    have hline := (takes_append (h cs List.mem_cons_self)).append takes_line
    have hall := hline.append (ih fun cs hcs => h cs (List.mem_cons_of_mem _ hcs))
    refine hall.mono (Nat.le_refl _) ?_ ?_
    · rw [List.flatten_cons, Text.width_append]
      omega
    · rw [List.length_cons]
      omega

theorem takes_ofKeptLines {texts : List Text} (h : ∀ cs ∈ texts, '\n' ∉ cs) :
    Takes (ofKeptLines texts) 0 (Text.width texts.flatten) texts.length := by
  induction texts with
  | nil => exact takes_nil
  | cons cs texts ih =>
    have hline := (takes_append (h cs List.mem_cons_self)).append takes_newline
    have hall := hline.append (ih fun cs hcs => h cs (List.mem_cons_of_mem _ hcs))
    refine hall.mono (Nat.le_refl _) ?_ ?_
    · rw [List.flatten_cons, Text.width_append]
      omega
    · rw [List.length_cons]
      omega

/-- A first form is paid for when it is pushed. What is written behind a lead reaches over the other
    form too. -/
theorem Takes.indented {first rest : Text} (h : Takes body reach text lines) :
    Takes ([.pushLeadFirst first rest] ++ body ++ [.line, .popLead]) (Text.width rest + reach)
      (Text.width first + text) (lines + 1) := by
  intro w limit hlimit
  let pushed := w.pushLeadFirst first rest
  have hindent : pushed.indent = w.indent + Text.width rest := by
    change Text.width (Lead.rests (w.leads ++ [⟨some first, rest⟩])) = _
    rw [Lead.rests, List.flatMap_append, Text.width_append, List.flatMap_singleton]
    rfl
  have hpushed : pushed.size = w.size + Text.width first := by
    change Text.width w.text + Text.width w.pending +
      Text.width (Lead.firsts (w.leads ++ [⟨some first, rest⟩])) = _
    rw [Lead.firsts, List.flatMap_append, Text.width_append, List.flatMap_singleton,
      ← Nat.add_assoc]
    rfl
  obtain ⟨hrests, hsize⟩ := h pushed limit (by omega)
  have hline := size_line (pushed.run body)
  have hrestsLine := (rests_line (pushed.run body)).trans hrests
  rw [indent_of_rests hrests, hindent] at hline
  rw [run_append, run_append]
  change (pushed.run body).line.popLead.leads.map Lead.rest = _ ∧
    (pushed.run body).line.popLead.size ≤ _
  refine ⟨?_, ?_⟩
  · change (pushed.run body).line.leads.dropLast.map Lead.rest = _
    rw [List.map_dropLast, hrestsLine]
    change ((w.leads ++ [Lead.mk (some first) rest]).map Lead.rest).dropLast = _
    rw [List.map_append, List.map_singleton, List.dropLast_concat]
  · have hpop : (pushed.run body).line.popLead.size ≤ (pushed.run body).line.size := by
      have hfirsts := (List.dropLast_sublist (pushed.run body).line.leads).flatMap fun l =>
        l.first.getD []
      exact Nat.add_le_add_left (Text.width_le_of_sublist hfirsts) _
    rw [Nat.add_mul]
    omega

/-- What a new writer has written when it has followed a script, and has ended its last line. -/
theorem Takes.width_text_le (h : Takes body reach text lines) (maxBlankLines : Nat) :
    Text.width (({ maxBlankLines } : Writer).run body).line.text ≤
    text + (lines + 1) * (reach + 1) := by
  generalize hnew : ({ maxBlankLines } : Writer) = new
  have hempty : new.size = 0 ∧ new.indent = 0 := hnew ▸ ⟨rfl, rfl⟩
  obtain ⟨hrests, hsize⟩ := h new reach (by omega)
  have hline := size_line (new.run body)
  rw [indent_of_rests hrests] at hline
  have htext : Text.width (new.run body).line.text ≤ (new.run body).line.size := by
    rw [size, Nat.add_assoc]
    exact Nat.le_add_right _ _
  rw [Nat.add_mul]
  omega

end Script

end Taskdown
