import Taskdown.Document.Render
import Taskdown.Proofs.Document.Building
import Taskdown.Proofs.Output.Contents

/-!
# What is seen of a document

Two notions of blank meet when a document is written. A view is trimmed of spaces, tabs and line
terminators, and a block is empty if nothing is left of it. A line of the output is blank if it has
nothing but white space, which is a larger class: a paragraph that consists of a no-break space is
not empty, but is not seen either.

A block is *seen* (`Block.isSeen`) if lines with content are written of it, and an item is seen
(`Item.isSeen`) if one of its blocks is, or if it has no content, and so has a line for its marker
alone. What this means for the views of leaf blocks can be told from their texts:

* `View.Sound.nonblank_textLines_eq_nil_iff`, `View.Sound.nonblank_keptLines_eq_nil_iff`: all lines
  that are written of a block are blank if and only if its text is;
* `View.Sound.keptLines_eq_nil_iff`: a block that is kept as it is has no lines at all if and only
  if nothing is left when it is trimmed.
-/

namespace Taskdown

mutual

/-- Are lines with content written of the block? In a block of code blank lines count, but none of
    them is left if there are no others. -/
def Block.isSeen : Block → Bool
  | .paragraph view => !Text.isBlank view.text
  | .heading view => !Text.isBlank view.text
  | .code view => !view.text.all Text.isTrimmed
  | .other view => !Text.isBlank view.text
  | .list _ _ _ items => Item.anySeen items

/-- Is one of the items of a list seen? -/
def Item.anySeen : List Item → Bool
  | [] => false
  | ⟨_, _, _, _, children⟩ :: items =>
    children.all Block.isEmpty || Block.anySeen children || Item.anySeen items

/-- Is one of the blocks seen? -/
def Block.anySeen : List Block → Bool
  | [] => false
  | block :: blocks => block.isSeen || Block.anySeen blocks

end

/-- Are lines with content written of the item? -/
def Item.isSeen (item : Item) : Bool :=
  item.children.all Block.isEmpty || Block.anySeen item.children

/-! ## Blank lines of leaf blocks -/

theorem Text.IsLine.isBlank_chomp {l : Text} (h : Text.IsLine l) :
    Text.isBlank (Text.chomp l) = Text.isBlank l := by
  obtain ⟨body, terminator, rfl, hbody, ht⟩ := h
  have hblank : Text.isBlank terminator = true := by
    simp only [List.mem_cons, List.not_mem_nil, or_false] at ht
    rcases ht with rfl | rfl | rfl | rfl <;> rfl
  rw [Text.chomp_append hbody ht, Text.isBlank_append, hblank, Bool.and_true]

theorem View.isBlank_dropIndent (limit column : Nat) (cs : Text) :
    Text.isBlank (View.dropIndent limit column cs) = Text.isBlank cs := by
  induction cs generalizing column with
  | nil => rfl
  | cons c cs ih =>
    rw [View.dropIndent]
    split
    · next h =>
      -- What is left out is a space or a tab.
      have hc : Text.isTrimmed c = true := by
        rw [Text.isTrimmed, (Bool.and_eq_true_iff.1 h).2]
        rfl
      rw [ih, Text.isBlank, Text.isBlank, List.all_cons, Text.isWhiteSpace_of_isTrimmed hc,
        Bool.true_and]
    · rfl

namespace View

variable {v : View}

theorem Sound.text_trim (h : v.Sound) :
    v.trim.text = Text.dropEndWhile Text.isTrimmed (v.text.dropWhile Text.isTrimmed) := by
  obtain ⟨before, cs, behind, h⟩ := h
  obtain ⟨behind', h'⟩ := h.trimStart.trimEnd
  rw [View.trim, h'.text_eq, h.text_eq]

/-- The text of a view with its indentation has some spaces and tabs more at its start. -/
theorem Sound.text_withIndent_trimEnd (h : v.Sound) : ∃ taken : Text, taken.all Text.isTrimmed ∧
    v.withIndent.trimEnd.text = Text.dropEndWhile Text.isTrimmed (taken ++ v.text) := by
  obtain ⟨before, cs, behind, h⟩ := h
  obtain ⟨rest, taken, hblank, h'⟩ := h.withIndent none
  obtain ⟨behind', h''⟩ := h'.trimEnd
  refine ⟨taken, List.all_eq_true.2 fun c hc => ?_, by rw [h''.text_eq, h.text_eq]⟩
  rw [Text.isTrimmed, hblank c hc]
  rfl

/-- Lines that are made of the lines of a view, blank ones of blank ones and no others, are all
    blank if and only if the text of the view is. -/
theorem Sound.nonblank_map_lines (h : v.Sound) {f : View → Text}
    (hf : ∀ line ∈ v.lines, Text.isBlank (f line) = Text.isBlank line.text) :
    Text.nonblank (v.lines.map f) = [] ↔ Text.isBlank v.text := by
  rw [← Text.flatten_lines v.text, Text.isBlank_flatten, ← h.map_text_lines, List.forall_mem_map,
    Text.nonblank, List.filter_eq_nil_iff, List.forall_mem_map]
  refine forall₂_congr fun line hline => ?_
  rw [hf line hline, Bool.not_eq_true', Bool.not_eq_false]

/-- The lines of a paragraph are blank if and only if its text is. -/
theorem Sound.nonblank_textLines_eq_nil_iff (h : v.Sound) :
    Text.nonblank v.textLines = [] ↔ Text.isBlank v.text := by
  have htrim : Text.isBlank v.trim.text = Text.isBlank v.text := by
    rw [h.text_trim, Text.isBlank_dropEndWhile fun _ => Text.isWhiteSpace_of_isTrimmed,
      Text.isBlank_dropWhile fun _ => Text.isWhiteSpace_of_isTrimmed]
  rw [← htrim]
  refine h.trim.nonblank_map_lines fun line hline => ?_
  obtain ⟨before, cs, behind, hshows, hcs⟩ := h.trim.exists_of_mem_lines hline
  have htrimmed : Text.IsLine (cs.dropWhile Text.isTrimmed) :=
    hcs.of_suffix (List.dropWhile_suffix _)
  obtain ⟨behind', hchomped⟩ := hshows.trimStart.chomp htrimmed
  rw [hchomped.text_eq, htrimmed.isBlank_chomp, Text.isBlank_dropWhile fun _ =>
    Text.isWhiteSpace_of_isTrimmed, hshows.text_eq]

/-- The lines of a block that is kept as it is are blank if and only if its text is. -/
theorem Sound.nonblank_keptLines_eq_nil_iff (h : v.Sound) (indent : Nat) :
    Text.nonblank (v.keptLines indent) = [] ↔ Text.isBlank v.text := by
  have htext : Text.isBlank v.withIndent.trimEnd.text = Text.isBlank v.text := by
    obtain ⟨taken, htaken, htext⟩ := h.text_withIndent_trimEnd
    have hblank : Text.isBlank taken = true :=
      List.all_eq_true.2 fun c hc => Text.isWhiteSpace_of_isTrimmed (List.all_eq_true.1 htaken c hc)
    rw [htext, Text.isBlank_dropEndWhile fun _ => Text.isWhiteSpace_of_isTrimmed,
      Text.isBlank_append, hblank, Bool.true_and]
  rw [← htext]
  have hsound : v.withIndent.trimEnd.Sound := (h.withIndent none).trimEnd
  refine hsound.nonblank_map_lines fun line hline => ?_
  obtain ⟨before, cs, behind, hshows, hcs⟩ := hsound.exists_of_mem_lines hline
  obtain ⟨behind', hchomped⟩ := hshows.chomp hcs
  rw [isBlank_dropIndent, hchomped.text_eq, hcs.isBlank_chomp, hshows.text_eq]

/-- A block that is kept as it is has lines unless all of it is trimmed away. -/
theorem Sound.keptLines_eq_nil_iff (h : v.Sound) (indent : Nat) :
    v.keptLines indent = [] ↔ v.text.all Text.isTrimmed := by
  obtain ⟨taken, htaken, htext⟩ := h.text_withIndent_trimEnd
  have hlines : v.withIndent.trimEnd.lines = [] ↔ v.withIndent.trimEnd.text = [] := by
    rw [← List.map_eq_nil_iff (f := text), ((h.withIndent none).trimEnd).map_text_lines]
    constructor
    · intro hnil
      rw [← Text.flatten_lines v.withIndent.trimEnd.text, hnil]
      rfl
    · intro hnil
      rw [hnil]
      rfl
  rw [keptLines, List.map_eq_nil_iff, hlines, htext, Text.dropEndWhile_eq_nil_iff,
    List.all_append, htaken, Bool.true_and]

end View

end Taskdown
