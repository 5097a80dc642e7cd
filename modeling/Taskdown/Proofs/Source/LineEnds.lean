import Mathlib.Data.List.Basic
import Taskdown.Proofs.Source.Cutting
import Taskdown.Source.LineEnding

/-!
# Uniform line terminators, line by line

Three readings of a text know what ends a line: the cut into lines, the cut of a line before its
terminator, and the rewriting that makes terminators uniform. They agree: a text with uniform
terminators is made of its lines, each without its terminator and with a `\n` instead.

* `Text.exists_firstLine_of_lines_eq`: every line is the first line of what is left when the lines
  before it are gone;
* `output_normalizeLineEnds`, `output_terminated`: what a text becomes, line by line;
* `normalizeLineEnds_of_not_mem`: a text without `\r` stays as it is;
* `View.Made.line_ends_follow_lines`: so it is for every view.
-/

namespace Taskdown

variable {cs body terminator rest : Text}

/-! ## Lines -/

namespace Text

/-- Every line is the first line of what is left when the lines before it are gone. -/
theorem exists_firstLine_of_lines_eq {before behind : List Text} {l : Text}
    (h : lines cs = before ++ l :: behind) :
    ∃ body terminator, l = body ++ terminator ∧ FirstLine body terminator behind.flatten := by
  induction cs using byLines generalizing before with
  | nil => cases before <;> cases h
  | line body terminator rest hfirst hlines ih =>
    rw [hlines] at h
    cases before with
    | nil =>
      obtain ⟨rfl, rfl⟩ := List.cons.inj h
      refine ⟨body, terminator, rfl, ?_⟩
      rwa [flatten_lines]
    | cons _ before => exact ih (List.cons.inj h).2

theorem FirstLine.chomp_eq (h : FirstLine body terminator rest) :
    chomp (body ++ terminator) = body :=
  chomp_append h.clean h.ends

/-- A line is open if and only if it has no terminator. -/
theorem FirstLine.isOpen_iff (h : FirstLine body terminator rest) :
    isOpen (body ++ terminator) ↔ terminator = [] := by
  have halone : FirstLine body terminator [] := ⟨h.nonempty, h.clean, h.ends, fun _ => rfl, nofun⟩
  rw [← List.append_nil (body ++ terminator), halone.isOpen_append]
  split
  · next hnil => exact iff_of_true rfl hnil
  · next hne => exact iff_of_false Bool.false_ne_true hne

end Text

/-! ## Uniform terminators -/

/-- Text without `\r` stays as it is. -/
theorem normalizeLineEnds_append (h : '\r' ∉ body) (cs : Text) :
    normalizeLineEnds (body ++ cs) = body.map .keep ++ normalizeLineEnds cs := by
  induction body with
  | nil => rfl
  | cons c body ih =>
    obtain ⟨hc, hbody⟩ := List.ne_and_not_mem_of_not_mem_cons h
    rw [List.cons_append, normalizeLineEnds, if_neg hc.symm, ih hbody]
    · rfl
    · exact fun _ hreturn => absurd hreturn.symm hc

theorem normalizeLineEnds_of_not_mem (h : '\r' ∉ cs) : normalizeLineEnds cs = cs.map .keep := by
  have hnil := normalizeLineEnds_append h []
  rwa [List.append_nil, normalizeLineEnds, List.append_nil] at hnil

namespace Rewriting

theorem output_append (r r' : Rewriting) : output (r ++ r') = r.output ++ r'.output :=
  List.flatMap_append

theorem output_map_keep (cs : Text) : output (cs.map .keep) = cs := by
  rw [output, List.flatMap_map]
  exact List.flatMap_singleton' cs

theorem isIdentity_map_keep (cs : Text) : isIdentity (cs.map .keep) := by
  rw [isIdentity, List.all_map]
  exact List.all_eq_true.2 fun _ _ => rfl

end Rewriting

/-- The first line loses its terminator and gets a `\n` for it. -/
theorem Text.FirstLine.output_normalizeLineEnds (h : FirstLine body terminator rest) :
    (normalizeLineEnds (body ++ terminator ++ rest)).output =
      (body ++ if terminator = [] then [] else ['\n']) ++ (normalizeLineEnds rest).output := by
  have hbody : '\r' ∉ body := fun hmem => by cases h.clean _ hmem
  rw [List.append_assoc, normalizeLineEnds_append hbody, Rewriting.output_append,
    Rewriting.output_map_keep, List.append_assoc, List.append_cancel_left_eq]
  have hends := h.ends
  simp only [List.mem_cons, List.not_mem_nil, or_false] at hends
  rcases hends with rfl | rfl | rfl | rfl
  · rfl
  · rw [List.singleton_append, normalizeLineEnds, if_pos rfl]
    · rfl
    · rintro cs - rfl
      exact h.lone rfl rfl
  · rfl
  · rfl

/-- A text with uniform terminators is made of its lines, each with a `\n` for its terminator. -/
theorem output_normalizeLineEnds (cs : Text) : (normalizeLineEnds cs).output =
    (Text.lines cs).flatMap fun l => Text.chomp l ++ if Text.isOpen l then [] else ['\n'] := by
  induction cs using Text.byLines with
  | nil => rfl
  | line body terminator rest hfirst hlines ih =>
    rw [hlines, List.flatMap_cons, hfirst.output_normalizeLineEnds, ih, hfirst.chomp_eq]
    exact congrArg (body ++ · ++ _) (if_congr hfirst.isOpen_iff.symm rfl rfl)

theorem missingLineEnd_eq (cs : Text) :
    missingLineEnd cs = if Text.isOpen cs then [.change [] ['\n']] else [] := by
  rw [missingLineEnd, Text.isOpen]
  cases cs.getLast? with
  | none => rfl
  | some c => cases hc : Text.isLineEnd c <;> simp [hc]

/-- If its last line is terminated too, a text is made of its lines with a `\n` behind each. -/
theorem output_terminated (cs : Text) : (normalizeLineEnds cs ++ missingLineEnd cs).output =
    (Text.lines cs).flatMap fun l => Text.chomp l ++ ['\n'] := by
  rw [Rewriting.output_append]
  induction cs using Text.byLines with
  | nil => rfl
  | line body terminator rest hfirst hlines ih =>
    rw [hlines, List.flatMap_cons, ← ih, hfirst.output_normalizeLineEnds,
      hfirst.chomp_eq, missingLineEnd_eq, missingLineEnd_eq, hfirst.isOpen_append]
    split
    · next hnil =>
      -- Nothing follows an open line.
      simp [hfirst.last hnil, normalizeLineEnds, Rewriting.output, Piece.output, Text.isOpen]
    · rw [List.append_assoc]

theorem getLast?_output_terminated (cs : Text) :
    (normalizeLineEnds cs ++ missingLineEnd cs).output.getLast? =
      if cs = [] then none else some '\n' := by
  split
  · next hnil =>
    rw [hnil]
    rfl
  · next hne =>
    rw [output_terminated]
    rcases List.eq_nil_or_concat' (Text.lines cs) with hnil | ⟨ls, l, hls⟩
    · exact absurd (by rw [← Text.flatten_lines cs, hnil, List.flatten_nil]) hne
    · rw [hls, List.flatMap_append, List.flatMap_singleton, ← List.append_assoc,
        List.getLast?_concat]

theorem Text.return_not_mem_chomp {l : Text} (h : l ∈ lines cs) : '\r' ∉ chomp l := by
  obtain ⟨body, terminator, rfl, hbody, ht⟩ := isLine_of_mem_lines h
  rw [chomp_append hbody ht]
  intro hmem
  cases hbody _ hmem

theorem return_not_mem_output_normalizeLineEnds (cs : Text) :
    '\r' ∉ (normalizeLineEnds cs).output := by
  rw [output_normalizeLineEnds]
  intro hmem
  obtain ⟨l, hl, hmem⟩ := List.mem_flatMap.1 hmem
  rcases List.mem_append.1 hmem with hmem | hmem
  · exact Text.return_not_mem_chomp hl hmem
  · split at hmem <;> simp at hmem

theorem return_not_mem_output_terminated (cs : Text) :
    '\r' ∉ (normalizeLineEnds cs ++ missingLineEnd cs).output := by
  rw [Rewriting.output_append, List.mem_append, not_or, missingLineEnd_eq]
  refine ⟨return_not_mem_output_normalizeLineEnds cs, ?_⟩
  split <;> simp [Rewriting.output, Piece.output]

theorem result_map_keep (cs : Text) : Rewriting.result (cs.map .keep) = ⟨cs, true⟩ := by
  rw [Rewriting.result, Rewriting.output_map_keep, Rewriting.isIdentity_map_keep]

namespace View

variable {v : View}

/-! ## Views -/

/-- What lines give without their terminators is what the lines of the text give. -/
theorem Sound.flatMap_lines (h : v.Sound) (f : Text → Text → Text) :
    (v.lines.flatMap fun l => f l.chomp.text l.text) = (Text.lines v.text).flatMap fun l =>
    f (Text.chomp l) l := by
  rw [← h.map_text_lines, List.flatMap_map]
  exact List.flatMap_congr fun l hl => congrArg (f · l.text) (h.text_chomp_of_mem_lines hl)

/-- Every line of a view has its terminator at its end, and only the last line may lack one. A lone
    `\r` is no part of a pair. -/
theorem Sound.exists_terminator (h : v.Sound) {before behind : List View} {l : View}
    (hl : v.lines = before ++ l :: behind) :
    ∃ terminator ∈ ([[], ['\r'], ['\n'], ['\r', '\n']] : List Text),
    l.text = l.chomp.text ++ terminator ∧
      (∀ c ∈ l.chomp.text, Text.isLineEnd c = false) ∧ (terminator = [] → behind = []) ∧
      (terminator = ['\r'] → ∀ next ∈ behind.head?, next.text.head? ≠ some '\n') := by
  have hmem : l ∈ v.lines := hl ▸ List.mem_append_right _ List.mem_cons_self
  have hlines : Text.lines v.text = before.map text ++ l.text :: behind.map text := by
    rw [← h.map_text_lines, hl, List.map_append, List.map_cons]
  obtain ⟨body, terminator, htext, hfirst⟩ := Text.exists_firstLine_of_lines_eq hlines
  have hbody : l.chomp.text = body := by rw [h.text_chomp_of_mem_lines hmem, htext, hfirst.chomp_eq]
  refine ⟨terminator, hfirst.ends, by rw [hbody, htext], hbody ▸ hfirst.clean, ?_⟩
  cases behind with
  | nil => exact ⟨fun _ => rfl, fun _ => nofun⟩
  | cons next behind =>
    have hmemText : next.text ∈ Text.lines v.text := by
      rw [hlines]
      exact List.mem_append_right _ (List.mem_cons_of_mem _ List.mem_cons_self)
    have hnext : next.text ≠ [] := Text.ne_nil_of_mem_lines hmemText
    rw [List.map_cons, List.flatten_cons] at hfirst
    refine ⟨fun hnil => absurd (List.append_eq_nil_iff.1 (hfirst.last hnil)).1 hnext,
      fun hreturn next' hnext' => ?_⟩
    obtain rfl := Option.some.inj hnext'
    rw [← List.head?_append_of_ne_nil _ hnext]
    exact hfirst.lone hreturn

/-- The lines of a view are its consecutive parts, none of them empty, and each has one terminator
    at most, at its end. Text with uniform terminators is made of them: each line without its
    terminator, and a `\n` if it has one, or in any case if the last line is terminated too. So no
    `\r` is left, what is uniform stays as it is, and a text that is terminated ends with a `\n`
    unless nothing is in view. -/
theorem Made.line_ends_follow_lines (hv : v.Made) :
    v.Cut v.lines ∧
    (∀ before l behind, v.lines = before ++ l :: behind →
      ∃ terminator ∈ ([[], ['\r'], ['\n'], ['\r', '\n']] : List Text),
      l.text = l.chomp.text ++ terminator ∧
        (∀ c ∈ l.chomp.text, Text.isLineEnd c = false) ∧ (terminator = [] → behind = []) ∧
        (terminator = ['\r'] → ∀ next ∈ behind.head?, next.text.head? ≠ some '\n')) ∧
    v.normalizingLineEnds.output = (v.lines.flatMap fun l =>
      l.chomp.text ++ if Text.isOpen l.text then [] else ['\n']) ∧
    v.terminatingLines.output = (v.lines.flatMap fun l => l.chomp.text ++ ['\n']) ∧
    (∀ r ∈ [v.normalizingLineEnds, v.terminatingLines], '\r' ∉ r.output) ∧
    (∀ w : View, w.text = v.normalizingLineEnds.output →
      w.normalizingLineEnds.result = ⟨w.text, true⟩) ∧
    (∀ w : View, w.text = v.terminatingLines.output → w.terminatingLines.result = ⟨w.text, true⟩) ∧
    (v.terminatingLines.output.getLast? = some '\n' ↔ v.isEmpty = false) := by
  have hsound := hv.wellFormed.sound
  refine ⟨hsound.cut_lines, fun before l behind hl => hsound.exists_terminator hl, ?_, ?_,
    fun r hr => ?_, fun w hw => ?_, fun w hw => ?_, ?_⟩
  · rw [normalizingLineEnds, output_normalizeLineEnds]
    exact (hsound.flatMap_lines fun body l => body ++ if Text.isOpen l then [] else ['\n']).symm
  · rw [terminatingLines, output_terminated]
    exact (hsound.flatMap_lines fun body _ => body ++ ['\n']).symm
  · simp only [List.mem_cons, List.not_mem_nil, or_false] at hr
    rcases hr with rfl | rfl
    · exact return_not_mem_output_normalizeLineEnds v.text
    · exact return_not_mem_output_terminated v.text
  · have hreturn : '\r' ∉ w.text := hw ▸ return_not_mem_output_normalizeLineEnds v.text
    rw [normalizingLineEnds, normalizeLineEnds_of_not_mem hreturn, result_map_keep]
  · have hreturn : '\r' ∉ w.text := hw ▸ return_not_mem_output_terminated v.text
    have hclosed : Text.isOpen w.text = false := by
      rw [Text.isOpen, hw, terminatingLines, getLast?_output_terminated]
      split <;> rfl
    rw [terminatingLines, normalizeLineEnds_of_not_mem hreturn, missingLineEnd_eq, hclosed,
      if_neg Bool.false_ne_true, List.append_nil, result_map_keep]
  · rw [terminatingLines, getLast?_output_terminated, hsound.shows.isEmpty_eq,
      List.isEmpty_eq_false_iff]
    split
    · next hnil => exact iff_of_false (Option.some_ne_none _).symm (not_not_intro hnil)
    · next hne => exact iff_of_true rfl hne

/-- Of `é\r\r\nb\r\n` all is cut out but the first character and the last `\n`, so that a `\r` is
    left at the end. -/
theorem Made.line_ends_follow_lines_of_returns : ∃ v : View, v.Made ∧
    v.lines.map text = [['\r'], ['\r', '\n'], ['b', '\r']] ∧ v.normalizingLineEnds.output =
    ['\n', '\n', 'b', '\n'] ∧ ∀ w : View, w.text = v.normalizingLineEnds.output →
    w.normalizingLineEnds.result = ⟨w.text, true⟩ := by
  let source : Source := ⟨0, ['é', '\r', '\r', '\n', 'b', '\r', '\n']⟩
  have hcut : View.ofRange source 2 7 = .ok ⟨source, ⟨2, 7⟩, none⟩ := rfl
  obtain ⟨-, -, houtput, -, -, hagain, -⟩ := Made.line_ends_follow_lines (.ofRange hcut)
  exact ⟨_, .ofRange hcut, by decide, houtput.trans (by decide), hagain⟩

end View

end Taskdown
