import Taskdown.Proofs.Document.Fitting
import Taskdown.Proofs.Document.Markers
import Taskdown.Proofs.Output.Extent
import Taskdown.Proofs.Source.Derivation

/-!
# How much a document writes

What a document writes is bounded by its weight and by the length of its source. A leaf block has no
more text than the source, and no more lines than its view has bytes, and one. An item has a marker
of eleven bytes at most, by which the leads of its lines grow, so the leads reach no farther than
six bytes for each unit of weight.

* `Block.exists_takes`: a block that fits has a script, which takes no more than what the weight of
  the block allows;
* `Block.exists_takes_document`: the script of a document that fits a source of less than 2²⁸ bytes
  writes less than 2⁶⁴ bytes.
-/

namespace Taskdown

/-! ## Leaf blocks -/

/-- Each line but the last one has a terminator. -/
theorem Text.length_lines_le (cs : Text) :
    (Text.lines cs).length ≤ cs.countP Text.isLineEnd + 1 := by
  fun_induction Text.lines cs with
  | case1 => exact Nat.zero_le _
  | case2 cs ih =>
    rw [List.length_cons, List.countP_cons_of_pos rfl, List.countP_cons_of_pos rfl]
    omega
  | case3 c cs _ hc ih =>
    rw [List.length_cons, List.countP_cons_of_pos hc]
    omega
  | case4 => exact Nat.le_add_left _ _
  | case5 c cs _ hc l ls hls ih =>
    rw [List.countP_cons_of_neg hc]
    rwa [hls] at ih

theorem Text.dropEndWhile_prefix (p : Char → Bool) (cs : Text) : Text.dropEndWhile p cs <+: cs := by
  obtain ⟨tail, htail, -⟩ := Text.exists_eq_dropEndWhile_append p cs
  exact ⟨tail, htail.symm⟩

theorem Text.length_le_width (cs : Text) : cs.length ≤ Text.width cs := by
  induction cs with
  | nil => exact Nat.le_refl _
  | cons c cs ih =>
    have hc := Char.utf8Size_pos c
    rw [List.length_cons, Text.width_cons]
    omega

namespace View

variable {v : View} {before cs behind : Text}

theorem Shows.width_eq_length (h : v.Shows before cs behind) : Text.width cs = v.length := by
  change _ = v.stop - v.start
  rw [h.start, h.stop, Text.width_append, Nat.add_sub_cancel_left]

theorem Sound.width_text_le (h : v.Sound) : Text.width v.text ≤ v.source.size := by
  obtain ⟨before, cs, behind, h⟩ := h
  rw [h.text_eq, Source.size, h.source, Text.width_append, Text.width_append]
  omega

/-- Lines that are made by leaving something out of each line of a view. -/
theorem Sound.extent_map_lines (h : v.Sound) {f : View → Text}
    (hf : ∀ line ∈ v.lines, (f line).Sublist line.text) :
    Text.width (v.lines.map f).flatten ≤ v.source.size ∧
      (v.lines.map f).length ≤ v.text.countP Text.isLineEnd + 1 := by
  have hsublist : ∀ {lines : List View}, (∀ line ∈ lines, (f line).Sublist line.text) →
      (lines.map f).flatten.Sublist (lines.map text).flatten := by
    intro lines hlines
    induction lines with
    | nil => exact .slnil
    | cons line lines ih =>
      exact (hlines line List.mem_cons_self).append
        (ih fun l hl => hlines l (List.mem_cons_of_mem _ hl))
  have htext : (v.lines.map text).flatten = v.text := by rw [h.map_text_lines, Text.flatten_lines]
  refine ⟨Nat.le_trans (Text.width_le_of_sublist (htext ▸ hsublist hf)) h.width_text_le, ?_⟩
  rw [List.length_map, ← List.length_map (f := text), h.map_text_lines]
  exact Text.length_lines_le v.text

theorem Sound.chomp_sublist (h : v.Sound) (hline : Text.IsLine v.text) :
    v.chomp.text.Sublist v.text := by
  obtain ⟨before, cs, behind, h⟩ := h
  rw [h.text_eq] at hline ⊢
  obtain ⟨behind', h'⟩ := h.chomp hline
  rw [h'.text_eq]
  exact (Text.chomp_isPrefix cs).sublist

/-- A paragraph has no more text than its source. -/
theorem Sound.extent_textLines (h : v.Sound) :
    Text.width v.textLines.flatten ≤ v.source.size ∧ v.textLines.length ≤ v.length + 1 := by
  have htrim : v.trim.text.Sublist v.text := by
    rw [h.text_trim]
    exact (Text.dropEndWhile_prefix _ _).sublist.trans (List.dropWhile_sublist _)
  obtain ⟨hwidth, hlength⟩ :=
      h.trim.extent_map_lines (f := fun line => line.trimStart.chomp.text) fun line hline => by
    obtain ⟨before, cs, behind, hshows, hcs⟩ := h.trim.exists_of_mem_lines hline
    have hrest := hshows.trimStart
    have hsublist :=
      hrest.sound.chomp_sublist (hrest.text_eq ▸ hcs.of_suffix (List.dropWhile_suffix _))
    rw [hrest.text_eq] at hsublist
    rw [hshows.text_eq]
    exact hsublist.trans (List.dropWhile_sublist _)
  refine ⟨hwidth, Nat.le_trans hlength (Nat.succ_le_succ ?_)⟩
  obtain ⟨before, cs, behind, hshows⟩ := h
  rw [hshows.text_eq] at htrim
  exact Nat.le_trans htrim.countP_le (Nat.le_trans List.countP_le_length
    (hshows.width_eq_length ▸ Text.length_le_width cs))

/-- A block that is kept as it is has no more text than its source, and its indentation adds no
    line. -/
theorem Sound.extent_keptLines (h : v.Sound) (indent : Nat) :
    Text.width (v.keptLines indent).flatten ≤ v.source.size ∧
    (v.keptLines indent).length ≤ v.length + 1 := by
  have hsound : v.withIndent.trimEnd.Sound := (h.withIndent none).trimEnd
  obtain ⟨hwidth, hlength⟩ :=
    hsound.extent_map_lines (f := fun line => dropIndent indent 0 line.chomp.text) fun line hline =>
      by
      obtain ⟨before, cs, behind, hshows, hcs⟩ := hsound.exists_of_mem_lines hline
      exact (dropIndent_suffix _ _ _).sublist.trans
        (hshows.sound.chomp_sublist (hshows.text_eq ▸ hcs))
  refine ⟨hwidth, Nat.le_trans hlength (Nat.succ_le_succ ?_)⟩
  obtain ⟨before, cs, behind, hshows⟩ := h
  obtain ⟨rest, taken, htaken, hindent⟩ := hshows.withIndent none
  obtain ⟨behind', htrim⟩ := hindent.trimEnd
  -- The indentation consists of spaces and tabs.
  have hclean : taken.countP Text.isLineEnd = 0 := List.countP_eq_zero.2 fun c hc => by
    have hblank := htaken c hc
    simp only [Text.isSpaceTab, Bool.or_eq_true, decide_eq_true_eq] at hblank
    rcases hblank with rfl | rfl <;> decide
  have hle := (Text.dropEndWhile_prefix Text.isTrimmed (taken ++ cs)).sublist.countP_le
    (p := Text.isLineEnd)
  rw [List.countP_append, hclean] at hle
  rw [htrim.text_eq]
  have hcs : cs.countP Text.isLineEnd ≤ v.length :=
    Nat.le_trans List.countP_le_length (hshows.width_eq_length ▸ Text.length_le_width cs)
  omega

end View

/-! ## Markers -/

theorem Text.utf8Size_of_lt {c : Char} (h : c.toNat < 128) : c.utf8Size = 1 :=
  Char.utf8Size_eq_one_iff.2 (UInt32.le_iff_toNat_le.2 (Nat.le_of_lt_succ h))

/-- A letter that has another case is an ASCII letter, and so is the one in the other case. -/
theorem Text.toNat_toLower_lt {c : Char} (h : c.toLower ≠ c) :
    c.toNat < 128 ∧ c.toLower.toNat < 128 := by
  unfold Char.toLower at h ⊢
  split at h
  · next hc =>
    have hA : 65 ≤ c.toNat := UInt32.le_iff_toNat_le.1 hc.1
    have hZ : c.toNat ≤ 90 := UInt32.le_iff_toNat_le.1 hc.2
    rw [dif_pos hc]
    refine ⟨by omega, ?_⟩
    change (c.val + 32).toNat < 128
    rw [UInt32.toNat_add]
    change (c.toNat + 32) % 4294967296 < 128
    omega
  · exact absurd rfl h

theorem Text.toNat_toUpper_lt {c : Char} (h : c.toUpper ≠ c) :
    c.toNat < 128 ∧ c.toUpper.toNat < 128 := by
  unfold Char.toUpper at h ⊢
  split at h
  · next hc =>
    have ha : 97 ≤ c.toNat := UInt32.le_iff_toNat_le.1 hc.1
    have hz : c.toNat ≤ 122 := UInt32.le_iff_toNat_le.1 hc.2
    rw [dif_pos hc]
    refine ⟨by omega, ?_⟩
    change (c.val + ('A'.val - 'a'.val)).toNat < 128
    rw [UInt32.toNat_add, UInt32.toNat_sub]
    change (c.toNat + (4294967296 - 97 + 65) % 4294967296) % 4294967296 < 128
    omega
  · exact absurd rfl h

/-- A marker has as many bytes in another case. -/
theorem TaskCase.width_apply (cs : Text) (case : TaskCase) :
    Text.width (case.apply cs) = Text.width cs := by
  have hmap : ∀ f : Char → Char, (∀ c, f c ≠ c → c.toNat < 128 ∧ (f c).toNat < 128) →
      Text.width (cs.map f) = Text.width cs := by
    intro f hf
    have hsize : ∀ c, (f c).utf8Size = c.utf8Size := fun c => by
      by_cases hc : f c = c
      · rw [hc]
      · rw [Text.utf8Size_of_lt (hf c hc).1, Text.utf8Size_of_lt (hf c hc).2]
    induction cs with
    | nil => rfl
    | cons c cs ih => rw [List.map_cons, Text.width_cons, Text.width_cons, hsize, ih]
  cases case with
  | asIs => rfl
  | lowercase => exact hmap _ fun _ => Text.toNat_toLower_lt
  | uppercase => exact hmap _ fun _ => Text.toNat_toUpper_lt

namespace Item.HasMarkers

variable {source : Source} {item : Item}

theorem markersClean (h : item.HasMarkers source) : item.MarkersClean where
  marker hmem := absurd (h.isMarker.mem_of_mem hmem) (by decide)
  task task htask := (h.task task htask).2

/-- A number of ten digits at most, and a delimiter of one byte. -/
theorem width_newMarker_le (h : item.HasMarkers source) {start : Option Nat} {ordinal : Nat}
    (hnumber : ∀ n ∈ start, n + ordinal < 10000000000) :
    Text.width (item.newMarker start ordinal) ≤ 11 := by
  cases start with
  | none => exact Nat.le_trans h.isMarker.width_le (by decide)
  | some n =>
    have hdigits : (Nat.toDigits 10 (n + ordinal)).length ≤ 10 := by
      rw [Nat.length_toDigits_le_iff (by decide) (by decide)]
      have := hnumber n rfl
      omega
    have hnarrow : ∀ c ∈ Nat.toDigits 10 (n + ordinal), c.utf8Size = 1 := fun c hc => by
      have hdigit := Nat.isDigit_of_mem_toDigits (by decide) (by decide) hc
      simp only [Char.isDigit, Bool.and_eq_true, decide_eq_true_eq] at hdigit
      have hnine : c.toNat ≤ 57 := UInt32.le_iff_toNat_le.1 hdigit.2
      exact Text.utf8Size_of_lt (by omega)
    have hdelimiter : (item.marker.text.getLast?.getD '.').utf8Size = 1 := by
      cases hlast : item.marker.text.getLast? with
      | none => rfl
      | some c => exact h.isMarker.utf8Size_eq c (List.mem_of_getLast? hlast)
    change Text.width ((toString (n + ordinal)).toList ++ [item.marker.text.getLast?.getD '.']) ≤ 11
    rw [Nat.toString_eq_repr, Nat.toList_repr, Text.width_append,
      Text.width_eq_length_of_forall hnarrow, Text.width_cons, hdelimiter, Text.width_nil]
    omega

theorem width_restLead_le (h : item.HasMarkers source) {start : Option Nat} {ordinal : Nat}
    (hnumber : ∀ n ∈ start, n + ordinal < 10000000000) :
    Text.width (item.restLead start ordinal) ≤ 12 := by
  have hmarker := h.width_newMarker_le hnumber
  rw [Item.restLead, Text.width_eq_length_of_forall fun c hc =>
    by rw [List.eq_of_mem_replicate hc]; rfl, List.length_replicate]
  omega

/-- The marker of a task is no wider than the source. -/
theorem width_firstLead_le (h : item.HasMarkers source) {o : FormatOptions} {start : Option Nat}
    {ordinal : Nat} (hnumber : ∀ n ∈ start, n + ordinal < 10000000000) :
    Text.width (item.firstLead o start ordinal) ≤ source.size + 13 := by
  have hmarker := h.width_newMarker_le hnumber
  have htask : ∀ task ∈ o.taskMarker item, Text.width task ≤ source.size := by
    intro task ht
    rw [FormatOptions.taskMarker] at ht
    split at ht
    · cases ht
    · next task' htask' =>
      split at ht
      · cases ht
      · obtain rfl := Option.some.inj ht
        have hwithin := (h.task task' htask').1
        rw [TaskCase.width_apply, ← hwithin.source]
        exact hwithin.sound.width_text_le
  have hspace : Text.width [' '] = 1 := rfl
  rw [Item.firstLead, Text.width_append, Text.width_append, hspace]
  split
  · next task ht =>
    have := htask task ht
    rw [Text.width_append, hspace]
    omega
  · rw [Text.width_nil]
    omega

end Item.HasMarkers

/-! ## What blocks take -/

open Script

section

variable {o : FormatOptions} {source : Source} {start : Option Nat} {item : Item} {body : Script}

/-- What a script may take on behalf of a weight: it has two lines left for a blank line before
    it. -/
def Script.Fits (source : Source) (script : Script) (weight : Nat) : Prop :=
  ∃ lines, script.Takes (6 * weight) ((source.size + 13) * weight) lines ∧ lines + 2 ≤ 5 * weight

/-- The same for scripts one after the other, which may be none. -/
def Script.AllFit (source : Source) (script : Script) (weight : Nat) : Prop :=
  ∃ lines, script.Takes (6 * weight) ((source.size + 13) * weight) lines ∧ lines ≤ 5 * weight

theorem Script.allFit_nil (source : Source) : Script.AllFit source [] 0 :=
  ⟨0, takes_nil, Nat.le_refl _⟩

/-- A blank line may go before a script that fits. -/
theorem Script.Fits.gap {script rest : Script} {weight weight' : Nat}
    (h : script.Fits source weight) (h' : rest.AllFit source weight') (blank : Bool) :
    Script.AllFit source ((if blank then [.blankLine] else []) ++ script ++ rest)
    (weight + weight') := by
  obtain ⟨lines, htakes, hlines⟩ := h
  obtain ⟨lines', htakes', hlines'⟩ := h'
  have hgap : Takes (if blank then [.blankLine] else []) 0 0 2 := by
    cases blank with
    | false => exact takes_nil.mono (Nat.le_refl _) (Nat.le_refl _) (Nat.zero_le _)
    | true => exact takes_blankLine
  have hall :=
    ((hgap.mono (Nat.zero_le (6 * (weight + weight'))) (Nat.le_refl _) (Nat.le_refl _)).append
      (htakes.mono (by omega) (Nat.le_refl _) (Nat.le_refl _))).append
    (htakes'.mono (by omega) (Nat.le_refl _) (Nat.le_refl _))
  refine ⟨_, hall.mono (Nat.le_refl _) ?_ (Nat.le_refl _), by omega⟩
  rw [Nat.zero_add, Nat.mul_add]

/-- The lines of a leaf block fit. -/
theorem Script.Takes.fits {script : Script} {view : View} {text lines : Nat}
    (h : script.Takes 0 text lines) (htext : text ≤ source.size)
    (hlines : lines ≤ view.length + 3) : script.Fits source (view.length + 1) := by
  refine ⟨lines, h.mono (Nat.zero_le _) ?_ (Nat.le_refl _), by omega⟩
  have : source.size + 13 ≤ (source.size + 13) * (view.length + 1) :=
    Nat.le_mul_of_pos_right _ (Nat.succ_pos _)
  omega

theorem View.Within.fits_textLines {view : View} (h : view.Within source) :
    (ofTextLines view.textLines).Fits source (view.length + 1) := by
  obtain ⟨hwidth, hlength⟩ := h.sound.extent_textLines
  exact (takes_ofTextLines h.sound.newline_not_mem_textLines).fits (h.source ▸ hwidth) (by omega)

theorem View.Within.takes_keptLines {view : View} (h : view.Within source) (indent : Nat) :
    ∃ text lines, (ofKeptLines (view.keptLines indent)).Takes 0 text lines ∧ text ≤ source.size ∧
      lines ≤ view.length + 1 := by
  obtain ⟨hwidth, hlength⟩ := h.sound.extent_keptLines indent
  exact ⟨_, _, takes_ofKeptLines (h.sound.newline_not_mem_keptLines indent), h.source ▸ hwidth,
    hlength⟩

/-- The markers of an item take two units of weight. -/
theorem Item.HasMarkers.fits_script (hm : item.HasMarkers source) {ordinal weight : Nat}
    (hnumber : ∀ n ∈ start, n + ordinal < 10000000000) (hbody : body.AllFit source weight) :
    ∃ lines, (item.script o start ordinal body).Takes (6 * (2 + weight))
    ((source.size + 13) * (2 + weight)) lines ∧
      lines + 4 ≤ 5 * (2 + weight) := by
  obtain ⟨lines, htakes, hlines⟩ := hbody
  have hfirst := hm.width_firstLead_le (o := o) hnumber
  have hrest := hm.width_restLead_le hnumber
  have hmarkers : (source.size + 13) * (2 + weight) = (source.size + 13) + (source.size + 13) +
      (source.size + 13) * weight := by
    rw [Nat.mul_add, Nat.mul_two]
  rw [Item.script]
  split
  · have hempty : Text.width (item.emptyText o start ordinal) ≤ source.size + 13 :=
      Nat.le_trans (Text.width_trimEnd_le _) hfirst
    have hline := (takes_append (hm.markersClean.newline_not_mem_emptyText o start ordinal)).append
      takes_line
    exact ⟨1, hline.mono (Nat.zero_le _) (by omega) (Nat.le_refl _), by omega⟩
  · have hindented := @Takes.indented body _ _ lines (item.firstLead o start ordinal)
      (item.restLead start ordinal) htakes
    exact ⟨lines + 1, hindented.mono (by omega) (by omega) (Nat.le_refl _), by omega⟩

/-- Items that have bodies which fit. -/
inductive Item.BodiesFit (source : Source) : List (Item × Script) → Nat → Prop
  | nil : Item.BodiesFit source [] 0
  | cons {item : Item} {body : Script} {bodies : List (Item × Script)} {weight weight' : Nat} :
      item.HasMarkers source → body.AllFit source weight → Item.BodiesFit source bodies weight' →
      Item.BodiesFit source ((item, body) :: bodies) (2 + weight + weight')

/-- The order of the items does not matter. -/
theorem Item.BodiesFit.perm {bodies bodies' : List (Item × Script)} (h : bodies.Perm bodies')
    {weight : Nat} (hfit : Item.BodiesFit source bodies weight) :
    Item.BodiesFit source bodies' weight := by
  induction h generalizing weight with
  | nil => exact hfit
  | cons _ _ ih =>
    cases hfit with
    | cons hm hbody hrest => exact .cons hm hbody (ih hrest)
  | swap =>
    cases hfit with
    | cons hm hbody hrest =>
      cases hrest with
      | cons hm' hbody' hrest =>
        rw [Nat.add_left_comm]
        exact .cons hm' hbody' (.cons hm hbody hrest)
  | trans _ _ ih ih' => exact ih' (ih hfit)

theorem Item.BodiesFit.length_le {bodies : List (Item × Script)} {weight : Nat}
    (h : Item.BodiesFit source bodies weight) : 2 * bodies.length ≤ weight := by
  induction h with
  | nil => exact Nat.le_refl _
  | cons _ _ _ ih =>
    rw [List.length_cons]
    omega

/-- The items of a list are written one after the other, and each of them may have a blank line
    before it. -/
theorem Item.BodiesFit.takes_scriptOfList {bodies : List (Item × Script)} {weight : Nat}
    (h : Item.BodiesFit source bodies weight) (loose : Bool) {ordinal : Nat}
    (hnumber : ∀ n ∈ start, n + (ordinal + bodies.length) ≤ 10000000000) :
    ∃ lines, (Item.scriptOfList o start loose ordinal bodies).Takes (6 * weight)
    ((source.size + 13) * weight) lines ∧
      lines + 2 * bodies.length ≤ 5 * weight := by
  induction h generalizing ordinal with
  | nil => exact ⟨0, takes_nil, Nat.le_refl _⟩
  | @cons item body bodies weight weight' hm hbody _ ih =>
    rw [List.length_cons] at hnumber
    have hfirst : ∀ n ∈ start, n + ordinal < 10000000000 := fun n hn => by
      have := hnumber n hn
      omega
    have hothers : ∀ n ∈ start, n + ((ordinal + 1) + bodies.length) ≤ 10000000000 := fun n hn => by
      have := hnumber n hn
      omega
    obtain ⟨lines, htakes, hlines⟩ := hm.fits_script (o := o) hfirst hbody
    obtain ⟨lines', htakes', hlines'⟩ := ih hothers
    have hgap : Takes (if 0 < ordinal && loose then [.blankLine] else []) 0 0 2 := by
      split
      · exact takes_blankLine
      · exact takes_nil.mono (Nat.le_refl _) (Nat.le_refl _) (Nat.zero_le _)
    have hall :=
      ((hgap.mono (Nat.zero_le (6 * (2 + weight + weight'))) (Nat.le_refl _) (Nat.le_refl _)).append
        (htakes.mono (by omega) (Nat.le_refl _) (Nat.le_refl _))).append
      (htakes'.mono (by omega) (Nat.le_refl _) (Nat.le_refl _))
    refine ⟨_, hall.mono (Nat.le_refl _) ?_ (Nat.le_refl _), ?_⟩
    · rw [Nat.zero_add, Nat.mul_add (source.size + 13) (2 + weight)]
    · rw [List.length_cons]
      omega

end

mutual

/-- A block that fits the source is written, wherever it stands, and what is written fits too. -/
theorem Block.exists_takes (o : FormatOptions) {source : Source} (hsize : source.size < 268435456) :
    ∀ (block : Block) (indent : Nat), block.Fits source → block.weight ≤ 2 * source.size →
    ∃ script, block.script o indent = .ok script ∧ script.Fits source block.weight
  | .paragraph view, indent, .paragraph h, _ => ⟨_, rfl, h.fits_textLines⟩
  | .heading view, indent, .heading h, _ => ⟨_, rfl, h.fits_textLines⟩
  | .code view, indent, .code h, _ => by
    obtain ⟨text, lines, htakes, htext, hlines⟩ := h.takes_keptLines indent
    have hall := (takes_openRun.append htakes).append takes_closeRun
    exact ⟨_, rfl, hall.fits (by omega) (by omega)⟩
  | .other view, indent, .other h, _ => by
    obtain ⟨text, lines, htakes, htext, hlines⟩ := h.takes_keptLines indent
    exact ⟨_, rfl, htakes.fits htext (by omega)⟩
  | .list view start loose items, indent, .list hstart hne h, hweight => by
    rw [Block.weight] at hweight ⊢
    obtain ⟨bodies, hbodies, hlength, hfit⟩ := Item.exists_bodiesFit o hsize loose items h hweight
    have hcount := hfit.length_le
    have harranged := hfit.perm (o.arranged_perm Prod.fst bodies).symm
    have hlengthArranged := (o.arranged_perm Prod.fst bodies).length_eq
    have hnumber : ∀ n ∈ start, n + (0 + (o.arranged Prod.fst bodies).length) ≤ 10000000000 :=
        fun n hn => by
      have := hstart n hn
      omega
    obtain ⟨lines, htakes, hlines⟩ := harranged.takes_scriptOfList (o := o) loose hnumber
    refine ⟨_, ?_, lines, htakes, ?_⟩
    · rw [Block.script, hbodies]
      change (o.arrangeBy Prod.fst bodies >>= _) = _
      rw [o.arrangeBy_eq]
      rfl
    · have hpos := List.length_pos_iff.2 hne
      omega

/-- The items of a list have bodies that fit. -/
theorem Item.exists_bodiesFit (o : FormatOptions) {source : Source}
    (hsize : source.size < 268435456) (loose : Bool) :
    ∀ items : List Item, Item.AllFit source items → Item.weightOf items ≤ 2 * source.size →
    ∃ bodies, Item.withBodies o loose items = .ok bodies ∧ bodies.length = items.length ∧
      Item.BodiesFit source bodies (Item.weightOf items)
  | [], _, _ => ⟨[], rfl, rfl, .nil⟩
  | ⟨view, marker, task, column, children⟩ :: items, .cons hm hchildren hitems, hweight => by
    rw [Item.weightOf] at hweight
    obtain ⟨script, hscript, hfits⟩ :=
      Block.exists_takes_of_blocks o hsize loose children column false hchildren (by omega)
    obtain ⟨bodies, hbodies, hlength, hrest⟩ :=
      Item.exists_bodiesFit o hsize loose items hitems (by omega)
    refine ⟨(⟨view, marker, task, column, children⟩, script) :: bodies, ?_,
      by rw [List.length_cons, hlength, List.length_cons], .cons hm hfits hrest⟩
    rw [Item.withBodies, hscript, hbodies]
    rfl

/-- Blocks that fit are written one after the other. -/
theorem Block.exists_takes_of_blocks (o : FormatOptions) {source : Source}
    (hsize : source.size < 268435456) (separated : Bool) :
    ∀ (blocks : List Block) (indent : Nat) (behind : Bool), Block.AllFit source blocks →
    Block.weightOf blocks ≤ 2 * source.size →
    ∃ script, Block.scriptOfBlocks o indent separated behind blocks = .ok script ∧
      script.AllFit source (Block.weightOf blocks)
  | [], indent, behind, _, _ => ⟨[], rfl, Script.allFit_nil source⟩
  | block :: blocks, indent, behind, .cons hblock hblocks, hweight => by
    rw [Block.weightOf] at hweight
    obtain ⟨script, hscript, hfits⟩ := Block.exists_takes o hsize block indent hblock (by omega)
    obtain ⟨rest, hrest, hrestFits⟩ :=
      Block.exists_takes_of_blocks o hsize separated blocks indent true hblocks (by omega)
    refine ⟨_, ?_, hfits.gap hrestFits (behind && separated)⟩
    rw [Block.scriptOfBlocks, hscript, hrest]
    rfl

end

/-! ## Documents -/

/-- A document that fits a source of less than 2²⁸ bytes is written, and the lines of its output
    have less than 2⁶⁴ bytes. -/
theorem Block.exists_takes_document (o : FormatOptions) {source : Source}
    (hsize : source.size < 268435456) {blocks : List Block} (hfits : Block.AllFit source blocks)
    (hweight : Block.weightOf blocks ≤ 2 * source.size) :
    ∃ script, Block.scriptOfBlocks o 0 true false blocks = .ok script ∧
      Text.width (({ maxBlankLines := o.maxBlankLines } : Writer).run script).line.text ≤
        maxLength := by
  obtain ⟨script, hscript, lines, htakes, hlines⟩ :=
    Block.exists_takes_of_blocks o hsize true blocks 0 false hfits hweight
  refine ⟨script, hscript, Nat.le_trans (htakes.width_text_le _) ?_⟩
  have htext := Nat.mul_le_mul (show source.size + 13 ≤ 268435468 by omega)
    (show Block.weightOf blocks ≤ 536870910 by omega)
  have hleads := Nat.mul_le_mul (show lines + 1 ≤ 2684354551 by omega)
    (show 6 * Block.weightOf blocks + 1 ≤ 3221225461 by omega)
  refine Nat.le_trans (Nat.add_le_add htext hleads) ?_
  decide

end Taskdown
