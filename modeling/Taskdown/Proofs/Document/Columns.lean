import Taskdown.Proofs.Document.Markers
import Taskdown.Proofs.Document.Range

/-!
# The columns of blocks that are kept

A block that is kept as it is, code for instance, loses the blanks at the start of its lines that
stand before the column at which the content of its item starts. All other blanks are kept, so that
the block is indented against the content of its item as before. The columns should be those of the
lines of the source (`View.alignedLines`).

They are for all lines but the first. Where a block starts in the line of a marker, the columns of
its first line are counted from the blanks behind the marker (`View.unalignedLines`). Only in
sources without tabs is the width of a blank the same wherever it stands, so only those are
considered here.

* `View.Sound.keptLines_eq`: what is written of a block that is kept;
* `View.Sound.nonblank_unalignedLines_eq_iff`: it is aligned, unless the block starts behind a
  marker and has blanks in its first line that should be kept (`View.StartsDeep`);
* `Walk.keptLines_infix`: where the lines of a block that is kept are written;
* `FormatOptions.kept_blocks_keep_columns`: so it is for every such block of every document.
-/

namespace Taskdown

/-! ## Blanks at the start of a line -/

/-- A line without the blanks at its start that stand before column `limit`, if the line starts at a
    given column and each blank takes one column. -/
def Text.cutBlanks (limit column : Nat) (line : Text) : Text :=
  line.drop (min (line.takeWhile isSpaceTab).length (limit - column))

/-- Without tabs each blank takes one column. -/
theorem View.dropIndent_eq_cutBlanks {line : Text} (h : '\t' ∉ line) (limit column : Nat) :
    View.dropIndent limit column line = Text.cutBlanks limit column line := by
  induction line generalizing column with
  | nil => rw [View.dropIndent, Text.cutBlanks, List.drop_nil]
  | cons c line ih =>
    have hc : c ≠ '\t' := fun e => h (e ▸ List.mem_cons_self)
    rw [View.dropIndent, Text.cutBlanks, List.takeWhile_cons, View.nextColumn, if_neg hc]
    cases hblank : Text.isSpaceTab c with
    | false => simp
    | true =>
      rw [Bool.and_true, if_pos rfl, List.length_cons]
      by_cases hlt : column < limit
      · have hcut : min ((line.takeWhile Text.isSpaceTab).length + 1) (limit - column) =
            min (line.takeWhile Text.isSpaceTab).length (limit - (column + 1)) + 1 := by omega
        rw [if_pos (decide_eq_true hlt), hcut, List.drop_succ_cons]
        exact ih (fun hmem => h (List.mem_cons_of_mem _ hmem)) (column + 1)
      · have hcut : limit - column = 0 := by omega
        rw [if_neg (by simpa using hlt), hcut, Nat.min_zero, List.drop_zero]

theorem Text.isBlank_cutBlanks {line : Text} (h : '\t' ∉ line) (limit column : Nat) :
    Text.isBlank (Text.cutBlanks limit column line) = Text.isBlank line := by
  rw [← View.dropIndent_eq_cutBlanks h, View.isBlank_dropIndent]

/-- It does not matter at which column a line starts if all of its blanks are cut off anyway. -/
theorem Text.cutBlanks_zero_eq_iff {limit column : Nat} {line : Text} :
    Text.cutBlanks limit 0 line = Text.cutBlanks limit column line ↔
      ¬ (0 < column ∧ 0 < limit ∧ 0 < (line.takeWhile isSpaceTab).length ∧
        limit < column + (line.takeWhile isSpaceTab).length) := by
  have hle : (line.takeWhile isSpaceTab).length ≤ line.length := (List.takeWhile_prefix _).length_le
  rw [cutBlanks, cutBlanks, List.drop_eq_drop_iff]
  omega

/-! ## The lines of a block in its source -/

namespace View

/-- What stands before a view in the line in which the view starts. -/
def lineBefore (v : View) : Text := (v.textBefore.reverse.takeWhile (!Text.isLineEnd ·)).reverse

/-- The blanks right before a view. -/
def blanksBefore (v : View) : Text := (v.lineBefore.reverse.takeWhile Text.isSpaceTab).reverse

/-- The column at which these blanks start. -/
def startColumn (v : View) : Nat := v.lineBefore.length - v.blanksBefore.length

/-- The lines of a block as they stand in the source. The blanks right before the block belong to
    its first line. What can be trimmed at the end of the block is left out. -/
def sourceLines (v : View) : List Text :=
  (Text.lines (Text.dropEndWhile Text.isTrimmed (v.blanksBefore ++ v.text))).map Text.chomp

/-- The lines of a block without the blanks that stand before column `limit` of the source. -/
def alignedLines (v : View) (limit : Nat) : List Text :=
  match v.sourceLines with
  | [] => []
  | first :: rest => Text.cutBlanks limit v.startColumn first :: rest.map (Text.cutBlanks limit 0)

/-- The lines of a block without as many blanks as if they all started at the margin. -/
def unalignedLines (v : View) (limit : Nat) : List Text :=
  v.sourceLines.map (Text.cutBlanks limit 0)

/-- The block starts behind something else in its line, and a blank of its first line stands at
    column `limit` or beyond. The line is not blank. -/
def StartsDeep (v : View) (limit : Nat) : Prop :=
  ∃ line ∈ v.sourceLines.head?, Text.isBlank line = false ∧ 0 < v.startColumn ∧ 0 < limit ∧
    0 < (line.takeWhile Text.isSpaceTab).length ∧
    limit < v.startColumn + (line.takeWhile Text.isSpaceTab).length

instance (v : View) (limit : Nat) : Decidable (v.StartsDeep limit) :=
  inferInstanceAs (Decidable (∃ _ ∈ _, _))

variable {v : View} {before cs behind : Text}

/-- With its indentation a view shows the blanks before it too. -/
theorem Shows.withIndent_blanksBefore (h : v.Shows before cs behind) :
    ∃ rest, v.withIndent.Shows rest (v.blanksBefore ++ cs) behind := by
  have hindent : v.withIndent = v.withStart (v.start - v.blanksBefore.length) := by
    rw [View.withIndent, blanksBefore, List.length_reverse]
    refine congrArg (fun n => v.withStart (v.start - n)) ?_
    change List.length ((columns 0 v.lineBefore).reverse.takeWhile _) = _
    have hmap : ((columns 0 v.lineBefore).reverse).map Prod.fst = v.lineBefore.reverse := by
      rw [List.map_reverse, map_fst_columns]
    rw [← hmap, List.takeWhile_map, List.length_map]
    simp only [Option.all_none, Bool.and_true]
    rfl
  -- The blanks are the end of the line before the view, which is the end of the text before the
  -- view.
  have hsuffix : v.blanksBefore <:+ before := by
    have hline : v.lineBefore <:+ before := by
      rw [← h.textBefore_eq, ← List.reverse_prefix, lineBefore, List.reverse_reverse]
      exact List.takeWhile_prefix _
    refine List.IsSuffix.trans ?_ hline
    rw [← List.reverse_prefix, blanksBefore, List.reverse_reverse]
    exact List.takeWhile_prefix _
  have hblank : ∀ c ∈ v.blanksBefore, Text.isSpaceTab c := fun c hc =>
    List.all_eq_true.1 List.all_takeWhile c (List.mem_reverse.1 hc)
  obtain ⟨rest, hrest⟩ := hsuffix
  rw [hindent]
  exact ⟨rest, (hrest ▸ h).withStart_blank hblank⟩

/-- What is left of a block in the output are the blanks before it and its text, up to what can be
    trimmed at the end. -/
theorem Sound.text_withIndent (h : v.Sound) :
    v.withIndent.trimEnd.text = Text.dropEndWhile Text.isTrimmed (v.blanksBefore ++ v.text) ∧
      v.blanksBefore ++ v.text <:+: v.source.text := by
  obtain ⟨before, cs, behind, h⟩ := h
  obtain ⟨rest, hgrown⟩ := h.withIndent_blanksBefore
  obtain ⟨behind', htrimmed⟩ := hgrown.trimEnd
  rw [h.text_eq]
  exact ⟨htrimmed.text_eq, rest, behind, by rw [List.append_assoc]; exact hgrown.source.symm⟩

/-- The lines of a block stand in the source. -/
theorem Sound.tab_not_mem_of_mem_sourceLines (h : v.Sound) (htab : '\t' ∉ v.source.text)
    {line : Text} (hline : line ∈ v.sourceLines) : '\t' ∉ line := by
  obtain ⟨whole, hwhole, rfl⟩ := List.mem_map.1 hline
  intro hmem
  have hlines := List.mem_flatten.2 ⟨whole, hwhole, (Text.chomp_isPrefix whole).mem hmem⟩
  rw [Text.flatten_lines] at hlines
  obtain ⟨tail, htail, -⟩ :=
    Text.exists_eq_dropEndWhile_append Text.isTrimmed (v.blanksBefore ++ v.text)
  refine htab (h.text_withIndent.2.mem ?_)
  rw [htail]
  exact List.mem_append_left _ hlines

/-- What is written of a block that is kept are the lines of its source, as if they all started at
    the margin. -/
theorem Sound.keptLines_eq (h : v.Sound) (htab : '\t' ∉ v.source.text) (limit : Nat) :
    v.keptLines limit = v.unalignedLines limit := by
  have hkept : v.keptLines limit = v.sourceLines.map (dropIndent limit 0) := by
    rw [sourceLines, ← h.text_withIndent.1, ← (h.withIndent none).trimEnd.map_text_chomp_lines,
      List.map_map]
    rfl
  rw [hkept]
  refine List.map_congr_left fun line hline => ?_
  exact dropIndent_eq_cutBlanks (h.tab_not_mem_of_mem_sourceLines htab hline) limit 0

/-- The lines that are written are those that should be, unless the first line starts deep. -/
theorem Sound.nonblank_unalignedLines_eq_iff (h : v.Sound) (htab : '\t' ∉ v.source.text)
    (limit : Nat) : Text.nonblank (v.unalignedLines limit) = Text.nonblank (v.alignedLines limit) ↔
    ¬ v.StartsDeep limit := by
  rw [unalignedLines, alignedLines, StartsDeep]
  have hnotab := fun line (hline : line ∈ v.sourceLines) =>
    h.tab_not_mem_of_mem_sourceLines htab hline
  generalize v.sourceLines = lines at hnotab
  cases lines with
  | nil => simp
  | cons first rest =>
    have hfirst : '\t' ∉ first := hnotab first List.mem_cons_self
    -- Whichever blanks are cut off, the first line is blank or not.
    have hcut := Text.isBlank_cutBlanks hfirst limit
    change Text.nonblank (_ :: _) = Text.nonblank (_ :: _) ↔ ¬∃ line ∈ some first, _
    rw [Text.nonblank, Text.nonblank, List.filter_cons, List.filter_cons, hcut, hcut]
    cases hblank : Text.isBlank first with
    | true => simp [hblank]
    | false =>
      rw [Bool.not_false, if_pos rfl, if_pos rfl, List.cons.injEq, and_iff_left rfl,
        Text.cutBlanks_zero_eq_iff]
      simp [hblank]

end View

/-! ## Blocks that are kept -/

/-- The view of a block that is kept as it is. -/
def Block.keptView? : Block → Option View
  | .code view => some view
  | .other view => some view
  | _ => none

/-- The views of those blocks that are kept as they are. -/
def Block.keptViews (blocks : List Block) : List View := blocks.filterMap Block.keptView?

/-- Among the blocks, or among those of the items below them, is one that is kept as it is, and the
    content of its item starts at `column`. The content of the item of the blocks themselves starts
    at `indent`. -/
def Block.KeptAt (indent : Nat) (blocks : List Block) (column : Nat) (view : View) : Prop :=
  column = indent ∧ view ∈ Block.keptViews blocks ∨
    ∃ item ∈ Block.items blocks, column = item.contentColumn ∧ view ∈ Block.keptViews item.children

instance (indent : Nat) (blocks : List Block) (column : Nat) (view : View) :
    Decidable (Block.KeptAt indent blocks column view) :=
  inferInstanceAs (Decidable (_ ∨ _))

/-- In a stretch of a walk such a block comes by. -/
def Stretch.KeptAt (column : Nat) (view : View) : Stretch → Prop
  | .blocks indent children => Block.KeptAt indent children column view
  | .items _ _ siblings =>
    ∃ item ∈ siblings, Block.KeptAt item.contentColumn item.children column view

theorem Item.exists_mem_flatten_iff {p : Item → Prop} {items : List Item} :
    (∃ item ∈ Item.flatten items, p item) ↔ ∃ item ∈ items, p item ∨
    ∃ below ∈ Block.items item.children, p below := by
  induction items with
  | nil => simp [Item.flatten]
  | cons item items ih =>
    simp only [Item.flatten_cons, List.mem_cons, List.mem_append, or_and_right, exists_or,
      exists_eq_left, ih, or_assoc]

section

variable {indent column : Nat} {view : View} {blocks : List Block}

/-- A block that is no list is kept itself, or is not. -/
theorem Block.keptAt_leaf {block : Block} (h : Block.items [block] = []) :
    Block.KeptAt indent (block :: blocks) column view ↔
      column = indent ∧ block.keptView? = some view ∨ Block.KeptAt indent blocks column view := by
  rw [KeptAt, KeptAt, Block.items_cons, h, List.nil_append, ← or_assoc, ← and_or_left]
  simp only [keptViews, List.mem_filterMap, List.exists_mem_cons_iff]

theorem Block.keptAt_list {listView : View} {start : Option Nat} {loose : Bool}
    {items : List Item} :
    Block.KeptAt indent (.list listView start loose items :: blocks) column view ↔
      (∃ item ∈ items, Block.KeptAt item.contentColumn item.children column view) ∨
        Block.KeptAt indent blocks column view := by
  have hviews : Block.keptViews (.list listView start loose items :: blocks) =
    Block.keptViews blocks := rfl
  unfold KeptAt
  rw [← Item.exists_mem_flatten_iff, Block.items, hviews]
  simp only [List.mem_append, or_and_right, exists_or]
  exact or_left_comm

/-- An item without content has no block that is kept. -/
theorem Block.not_keptAt_of_all_isEmpty (h : blocks.all Block.isEmpty) :
    ¬ Block.KeptAt indent blocks column view := by
  rw [KeptAt, Block.items_of_all_isEmpty h]
  rintro (⟨-, hview⟩ | ⟨item, hitem, -⟩)
  · obtain ⟨block, hblock, hkept⟩ := List.mem_filterMap.1 hview
    have hempty := List.all_eq_true.1 h block hblock
    cases block with
    | paragraph => cases hkept
    | heading | code | list | other => cases hempty
  · cases hitem

end

/-- The lines of a block that is kept stand together where the walk comes by. -/
theorem Walk.keptLines_infix {o : FormatOptions} {s : Stretch} {texts : List Text}
    (h : Walk o s texts) {column : Nat} {view : View} (hkept : s.KeptAt column view) :
    view.keptLines column <:+: texts := by
  induction h with
  | noBlocks => exact absurd hkept (Block.not_keptAt_of_all_isEmpty rfl)
  | noItems =>
    obtain ⟨item, hitem, -⟩ := hkept
    cases hitem
  | paragraph _ ih | heading _ ih =>
    rcases (Block.keptAt_leaf (by simp only [Block.items])).1 hkept with ⟨-, hview⟩ | hkept
    · cases hview
    · exact (ih hkept).trans (List.suffix_append _ _).isInfix
  | code _ ih | other _ ih =>
    rcases (Block.keptAt_leaf (by simp only [Block.items])).1 hkept with ⟨rfl, hview⟩ | hkept
    · obtain rfl := Option.some.inj hview
      exact (List.prefix_append _ _).isInfix
    · exact (ih hkept).trans (List.suffix_append _ _).isInfix
  | list ha _ _ ihi ih =>
    rcases Block.keptAt_list.1 hkept with ⟨item, hitem, hkept⟩ | hkept
    · -- The items are those that are gone over, in another order.
      obtain rfl := Except.ok.inj ((o.arrangeBy_eq id _).symm.trans ha)
      exact (ihi ⟨item, (o.arranged_perm id _).mem_iff.2 hitem, hkept⟩).trans
        (List.prefix_append _ _).isInfix
    · exact (ih hkept).trans (List.suffix_append _ _).isInfix
  | emptyItem he _ ih =>
    obtain ⟨item, hitem, hkept⟩ := hkept
    rcases List.mem_cons.1 hitem with rfl | hitem
    · exact absurd hkept (Block.not_keptAt_of_all_isEmpty he)
    · exact (ih ⟨item, hitem, hkept⟩).trans (List.suffix_cons _ _).isInfix
  | item _ _ _ ihi ih =>
    obtain ⟨item, hitem, hkept⟩ := hkept
    rcases List.mem_cons.1 hitem with rfl | hitem
    · exact (ihi hkept).trans (List.prefix_append _ _).isInfix
    · exact (ih ⟨item, hitem, hkept⟩).trans (List.suffix_append _ _).isInfix

/-! ## Documents -/

section

variable {source : Source}

theorem Block.AllFit.within_of_mem_keptViews {blocks : List Block} {view : View}
    (h : Block.AllFit source blocks) (hview : view ∈ Block.keptViews blocks) :
    view.Within source := by
  obtain ⟨block, hblock, hkept⟩ := List.mem_filterMap.1 hview
  cases h.fits_of_mem block hblock with
  | paragraph | heading | list => cases hkept
  | code h | other h => exact Option.some.inj hkept ▸ h

theorem Block.AllFit.within_of_keptAt {blocks : List Block} {indent column : Nat} {view : View}
    (h : Block.AllFit source blocks) (hkept : Block.KeptAt indent blocks column view) :
    view.Within source := by
  rcases hkept with ⟨-, hview⟩ | ⟨item, hitem, -, hview⟩
  · exact h.within_of_mem_keptViews hview
  · exact (h.of_mem_items item hitem).2.within_of_mem_keptViews hview

end

/-- The document of every text without tabs is written. The lines of each block that is kept stand
    together where the walk comes by, as if they all started at the margin. They are aligned with
    the source, blank lines apart, unless the first of them starts deep. -/
theorem FormatOptions.kept_blocks_keep_columns (o : FormatOptions) {text : Text}
    (htab : '\t' ∉ text) : ∃ blocks w texts, Block.listOfView (View.of ⟨0, text⟩) = .ok blocks ∧
    o.write blocks = .ok w ∧
      Walk o (.blocks 0 blocks) texts ∧ w.contents = Text.nonblank texts ∧
      ∀ column view, Block.KeptAt 0 blocks column view →
        view.keptLines column = view.unalignedLines column ∧ view.keptLines column <:+: texts ∧
        (Text.nonblank (view.unalignedLines column) = Text.nonblank (view.alignedLines column) ↔
          ¬ view.StartsDeep column) := by
  have hregular := Markup.structureOf_regular ⟨0, text⟩
  obtain ⟨blocks, hbuilt⟩ :=
    @Block.exists_listOfNodes (.of ⟨0, text⟩) _ none hregular.admitted nofun
  obtain ⟨hfits, -⟩ := Block.fits_of_regular hregular hbuilt
  have hdocument : Block.listOfView (View.of ⟨0, text⟩) = .ok blocks :=
    (Block.listOfView_of text).trans hbuilt
  have hsound : ∀ v ∈ Block.leafViewsOf blocks, v.Sound :=
    fun v hv => (Block.within_of_listOfNodes hbuilt v hv).sound
  obtain ⟨script, texts, hwrite, hwalk, hcontents⟩ :=
      o.exists_walk_of_write hsound fun item hitem =>
    (hfits.of_mem_items item hitem).1.markersClean
  refine ⟨blocks, _, texts, hdocument, hwrite, hwalk, hcontents, fun column view hkept => ?_⟩
  obtain ⟨hsource, hview⟩ := hfits.within_of_keptAt hkept
  have hviewTab : '\t' ∉ view.source.text := by rwa [hsource]
  exact ⟨hview.keptLines_eq hviewTab column, hwalk.keptLines_infix hkept,
    hview.nonblank_unalignedLines_eq_iff hviewTab column⟩

/-- Code in the line below a marker keeps its four columns. -/
theorem FormatOptions.kept_blocks_keep_columns_below :
    ∃ blocks w texts view,
      Block.listOfView (View.of ⟨0, ['-', '\n', ' ', ' ', ' ', ' ', ' ', ' ', 'b']⟩) = .ok blocks ∧
      ({} : FormatOptions).write blocks = .ok w ∧ w.contents = Text.nonblank texts ∧
      Block.KeptAt 0 blocks 2 view ∧ view.keptLines 2 <:+: texts ∧
      Text.nonblank (view.keptLines 2) = Text.nonblank (view.alignedLines 2) ∧
      view.alignedLines 2 = [[' ', ' ', ' ', ' ', 'b']] := by
  let source : Source := ⟨0, ['-', '\n', ' ', ' ', ' ', ' ', ' ', ' ', 'b']⟩
  let forest : List Node :=
    [.block (.list none) ⟨0, 9⟩ [.block .item ⟨0, 9⟩ [.block .code ⟨8, 9⟩ []]]]
  let view : View := ⟨source, ⟨8, 9⟩, none⟩
  have hstructure : Markup.structureOf source.text = forest := by rfl
  obtain ⟨built, hbuilt⟩ : ∃ built, Block.listOfNodes (.of source) none forest = .ok built :=
    ⟨_, rfl⟩
  obtain ⟨blocks, w, texts, hdocument, hwrite, -, hcontents, hall⟩ :=
    FormatOptions.kept_blocks_keep_columns {} (show '\t' ∉ source.text by decide)
  have hblocks : built = blocks := by
    rw [Block.listOfView_of, hstructure] at hdocument
    exact Except.ok.inj (hbuilt.symm.trans hdocument)
  have hkept : Block.KeptAt 0 built 2 view := by
    obtain rfl := Except.ok.inj hbuilt
    decide +kernel
  have hdeep : ¬ view.StartsDeep 2 := by decide +kernel
  obtain ⟨hlines, hinfix, haligned⟩ := hall 2 view (hblocks ▸ hkept)
  exact ⟨blocks, w, texts, view, hdocument, hwrite, hcontents, hblocks ▸ hkept, hinfix,
    hlines ▸ haligned.2 hdeep, by decide +kernel⟩

/-- Code in the line of a marker does not. Five blanks stand behind the marker, four of them from
    the column on at which the content starts. Three are left. -/
theorem FormatOptions.write_of_deep_code :
    ∃ blocks w view, Block.listOfView (View.of ⟨0, ['-', ' ', ' ', ' ', ' ', ' ', 'a']⟩) =
    .ok blocks ∧
      ({} : FormatOptions).write blocks = .ok w ∧ Block.KeptAt 0 blocks 2 view ∧
      Text.nonblank (view.alignedLines 2) = [[' ', ' ', ' ', ' ', 'a']] ∧
      w.contents = [[' ', ' ', ' ', 'a']] ∧
      ¬ Text.nonblank (view.alignedLines 2) <:+: w.contents := by
  let source : Source := ⟨0, ['-', ' ', ' ', ' ', ' ', ' ', 'a']⟩
  let forest : List Node :=
    [.block (.list none) ⟨0, 7⟩ [.block .item ⟨0, 7⟩ [.block .code ⟨6, 7⟩ []]]]
  let view : View := ⟨source, ⟨6, 7⟩, none⟩
  have hstructure : Markup.structureOf source.text = forest := by rfl
  obtain ⟨blocks, hbuilt⟩ : ∃ blocks, Block.listOfNodes (.of source) none forest = .ok blocks :=
    ⟨_, rfl⟩
  have hdocument : Block.listOfView (.of source) = .ok blocks := by
    rw [Block.listOfView_of, hstructure]
    exact hbuilt
  obtain ⟨w, hw⟩ : ∃ w, ({} : FormatOptions).write blocks = .ok w := by
    obtain rfl := Except.ok.inj hbuilt
    exact ⟨_, rfl⟩
  have hkept : Block.KeptAt 0 blocks 2 view := by
    obtain rfl := Except.ok.inj hbuilt
    decide +kernel
  have haligned : Text.nonblank (view.alignedLines 2) = [[' ', ' ', ' ', ' ', 'a']] := by
    decide +kernel
  have hcontents : w.contents = [[' ', ' ', ' ', 'a']] := by
    obtain rfl := Except.ok.inj hbuilt
    obtain rfl := Except.ok.inj hw
    decide +kernel
  refine ⟨blocks, w, view, hdocument, hw, hkept, haligned, hcontents, ?_⟩
  rw [haligned, hcontents]
  decide

end Taskdown
