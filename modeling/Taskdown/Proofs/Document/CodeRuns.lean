import Taskdown.Proofs.Document.Collection
import Taskdown.Proofs.Document.Markers
import Taskdown.Proofs.Output.Groups

/-!
# Code in the output

A block of code is put out as a run of preformatted lines, wherever it stands in a document. The
lines of a document are collected along it in groups (`TextGroup.collection`): a run for each block
of code, and single lines for all other text and for the markers of items that have no content.

* `TextGroup.told`: the writer puts out the groups, and nothing else but lines without text;
* `Block.perm_codeLines`: the runs are those of the blocks of code at any depth, each of them once;
* `FormatOptions.code_stands_in_runs`: this is so in the output of every document. The lines that
  are in a run at all are those of the blocks of code, with nothing between two lines of one block,
  and every block starts a run of its own.
-/

namespace Taskdown

/-! ## Groups along a document -/

/-- The groups of a block that is no list. Blank lines of text are not put out, or not as lines with
    text. -/
def Block.leafGroups (indent : Nat) : Block → List TextGroup
  | .paragraph view => (Text.nonblank view.textLines).map .line
  | .heading view => (Text.nonblank view.textLines).map .line
  | .code view => [.run (view.keptLines indent)]
  | .other view => (Text.nonblank (view.keptLines indent)).map .line
  | .list .. => []

/-- The groups of an item: those of its blocks, or a line for its markers if it has no content. -/
def Item.groups (o : FormatOptions) (start : Option Nat) (ordinal : Nat) (item : Item)
    (inner : List TextGroup) : List TextGroup :=
  if item.children.all Block.isEmpty then
    (Text.nonblank (Writer.textsOf (item.emptyText o start ordinal))).map .line
  else inner

namespace TextGroup

/-- The groups of a document. -/
def collection (o : FormatOptions) : Collection TextGroup where
  leaf := Block.leafGroups
  item := Item.groups o

theorem leaf_collection (o : FormatOptions) : (collection o).leaf = Block.leafGroups := rfl

theorem item_collection (o : FormatOptions) : (collection o).item = Item.groups o := rfl

/-- The writer puts out the groups of a document, whatever the markers of its items are. -/
theorem told (o : FormatOptions) :
    (collection o).Told o View.Sound (fun _ => True) Script.Brings where
  nil := .nil
  append := .append
  blankLine := Script.brings_blankLine
  paragraph indent view hv := by
    rw [leaf_collection, Block.leafGroups]
    exact Script.brings_ofTextLines hv.newline_not_mem_textLines
  heading indent view hv := by
    rw [leaf_collection, Block.leafGroups]
    exact Script.brings_ofTextLines hv.newline_not_mem_textLines
  code indent view hv := by
    rw [leaf_collection, Block.leafGroups]
    exact Script.brings_run (hv.newline_not_mem_keptLines indent)
  other indent view hv := by
    rw [leaf_collection, Block.leafGroups]
    exact Script.brings_ofKeptLines (hv.newline_not_mem_keptLines indent)
  item start ordinal item body inner _ hbody := by
    rw [item_collection, Item.script, Item.groups]
    split
    · exact Script.brings_append_line _
    · exact Script.brings_indented hbody (item.isBlank_restLead start ordinal)

/-! ## Runs -/

/-- The runs among groups. -/
def runs (groups : List TextGroup) : List (List Text) := groups.filterMap run?

theorem runs_append (as bs : List TextGroup) : runs (as ++ bs) = runs as ++ runs bs :=
  List.filterMap_append

theorem runs_map_line (texts : List Text) : runs (texts.map .line) = [] := by
  rw [runs, List.filterMap_map]
  exact List.filterMap_eq_nil_iff.2 fun _ _ => rfl

end TextGroup

mutual

/-- The lines of the blocks of code at or below a block, which stands in an item whose content
    starts at a column. -/
def Block.codeLines (indent : Nat) : Block → List (List Text)
  | .code view => [view.keptLines indent]
  | .list _ _ _ items => Item.codeLines items
  | .paragraph _ => []
  | .heading _ => []
  | .other _ => []

/-- The lines of the blocks of code below items. -/
def Item.codeLines : List Item → List (List Text)
  | [] => []
  | ⟨_, _, _, column, children⟩ :: items =>
    Block.codeLinesOf column children ++ Item.codeLines items

/-- The lines of the blocks of code at or below blocks. -/
def Block.codeLinesOf (indent : Nat) : List Block → List (List Text)
  | [] => []
  | block :: blocks => block.codeLines indent ++ Block.codeLinesOf indent blocks

end

section

variable (o : FormatOptions)

open TextGroup

/-- An item without content has no code. -/
theorem Block.runs_of_all_isEmpty {blocks : List Block} (h : blocks.all Block.isEmpty)
    (indent : Nat) : runs ((collection o).ofBlocks o indent blocks) = [] := by
  induction blocks with
  | nil => rw [Collection.ofBlocks]; rfl
  | cons block blocks ih =>
    rw [List.all_cons, Bool.and_eq_true] at h
    rw [Collection.ofBlocks, runs_append, ih h.2, List.append_nil]
    cases block with
    | paragraph view => rw [Collection.ofBlock, leaf_collection, Block.leafGroups, runs_map_line]
    | heading | code | list | other => exact absurd h.1 Bool.false_ne_true

theorem Item.runs_inners : ∀ items : List Item, ∀ p ∈ (collection o).inners o items,
    p.1.children.all Block.isEmpty → runs p.2 = []
  | [], p, hp, _ => by
    rw [Collection.inners] at hp
    cases hp
  | ⟨view, marker, task, column, children⟩ :: items, p, hp, hempty => by
    rw [Collection.inners, List.mem_cons] at hp
    rcases hp with rfl | hp
    · exact Block.runs_of_all_isEmpty o hempty column
    · exact Item.runs_inners items p hp hempty

/-- The runs of a list are those of its items. -/
theorem Item.runs_ofList (start : Option Nat) (ordinal : Nat)
    (bodies : List (Item × List TextGroup))
    (h : ∀ p ∈ bodies, p.1.children.all Block.isEmpty → runs p.2 = []) :
    runs ((collection o).ofList start ordinal bodies) = bodies.flatMap fun p => runs p.2 := by
  induction bodies generalizing ordinal with
  | nil => rfl
  | cons p bodies ih =>
    obtain ⟨item, inner⟩ := p
    have hitem : runs (item.groups o start ordinal inner) = runs inner := by
      rw [Item.groups]
      split
      · next hempty => rw [runs_map_line, h (item, inner) List.mem_cons_self hempty]
      · rfl
    rw [Collection.ofList, runs_append, ih _ fun q hq => h q (List.mem_cons_of_mem _ hq),
      List.flatMap_cons, item_collection, hitem]

mutual

theorem Block.perm_codeLines : ∀ (block : Block) (indent : Nat),
    (runs ((collection o).ofBlock o indent block)).Perm (block.codeLines indent)
  | .paragraph view, indent | .heading view, indent | .other view, indent => by
    rw [Collection.ofBlock, leaf_collection, Block.leafGroups, Block.codeLines, runs_map_line]
  | .code view, indent => by
    rw [Collection.ofBlock, leaf_collection, Block.leafGroups, Block.codeLines]
    exact .refl _
  | .list view start loose items, indent => by
    have hperm := o.arranged_perm Prod.fst ((collection o).inners o items)
    rw [Collection.ofBlock, Block.codeLines, Item.runs_ofList o start 0 _ fun p hp =>
      Item.runs_inners o items p (hperm.mem_iff.1 hp)]
    exact (hperm.flatMap_right _).trans (Item.perm_codeLines items)

theorem Item.perm_codeLines : ∀ items : List Item,
    (((collection o).inners o items).flatMap fun p => runs p.2).Perm (Item.codeLines items)
  | [] => by
    rw [Collection.inners, Item.codeLines]
    exact .refl _
  | ⟨view, marker, task, column, children⟩ :: items => by
    rw [Collection.inners, Item.codeLines, List.flatMap_cons]
    exact (Block.perm_codeLinesOf children column).append (Item.perm_codeLines items)

theorem Block.perm_codeLinesOf : ∀ (blocks : List Block) (indent : Nat),
    (runs ((collection o).ofBlocks o indent blocks)).Perm (Block.codeLinesOf indent blocks)
  | [], indent => by
    rw [Collection.ofBlocks, Block.codeLinesOf]
    exact .refl _
  | block :: blocks, indent => by
    rw [Collection.ofBlocks, Block.codeLinesOf, runs_append]
    exact (Block.perm_codeLines block indent).append (Block.perm_codeLinesOf blocks indent)

end

end

/-! ## Documents -/

/-- Every document is written, and its groups stand in the output: lines of text that are outside of
    all runs, and for each block of code, at any depth, a run of all its lines, blank ones included.
    Lines without text stand between groups only. The records of the lines say the same. -/
theorem FormatOptions.code_stands_in_runs (o : FormatOptions) {source : View} {forest : List Node}
    {blocks : List Block} (hbuilt : Block.listOfNodes source none forest = .ok blocks) :
    ∃ w groups, o.write blocks = .ok w ∧ groups = (TextGroup.collection o).ofBlocks o 0 blocks ∧
      TextGroup.StandIn groups w.ended.reverse ∧
      (TextGroup.runs groups).Perm (Block.codeLinesOf 0 blocks) ∧
      ((w.ended.reverse.filter (·.part ≠ .outside)).map fun l => (l.text, l.part)) =
        groups.flatMap TextGroup.inside ∧
      ∀ b, w.lines = .ok b →
      b.records.map LineRecord.part = w.ended.reverse.map WrittenLine.part := by
  -- The views come from checked spans of the source, and the writer is new, so that no line is
  -- pending.
  have hsound : ∀ v ∈ Block.leafViewsOf blocks, v.Sound :=
    fun v hv => (Block.within_of_listOfNodes hbuilt v hv).sound
  obtain ⟨script, hscript, hbrings⟩ :=
    (TextGroup.told o).exists_scriptOfBlocks true blocks 0 false hsound fun _ _ => trivial
  obtain ⟨hsettled, lines, hended, hstand⟩ := hbrings _ (Writer.settled_new o.maxBlankLines)
  rw [List.append_nil, ← List.reverse_eq_iff] at hended
  have hfinish := hsettled.standIn_finish (hended ▸ hstand)
  refine ⟨_, _, ?_, rfl, hfinish, Block.perm_codeLinesOf o blocks 0, hfinish.inside_eq, fun b hb =>
    Writer.map_part_of_lines hb⟩
  rw [FormatOptions.write, hscript]
  rfl

/-- Two blocks of code in an item, the second one behind a blank line. -/
theorem FormatOptions.code_stands_in_runs_of_adjacent :
    ∃ blocks w groups,
      Block.listOfNodes (View.of ⟨0, "- ~~~\n  a\n\n  ~~~\n  ```".toList⟩) none
        [.block (.list none) ⟨0, 22⟩
          [.block .item ⟨0, 22⟩ [.block .code ⟨2, 16⟩ [], .block .code ⟨19, 22⟩ []]]] = .ok blocks ∧
      ({} : FormatOptions).write blocks = .ok w ∧
      groups = (TextGroup.collection {}).ofBlocks {} 0 blocks ∧
      TextGroup.StandIn groups w.ended.reverse ∧ w.parts = [.first, .body, .body, .last, .first] ∧
      TextGroup.runs groups = [["~~~".toList, "a".toList, [], "~~~".toList], ["```".toList]] := by
  obtain ⟨blocks, hbuilt⟩ :
      ∃ blocks, Block.listOfNodes (View.of ⟨0, "- ~~~\n  a\n\n  ~~~\n  ```".toList⟩) none
        [.block (.list none) ⟨0, 22⟩ [.block .item ⟨0, 22⟩ [.block .code ⟨2, 16⟩ [],
          .block .code ⟨19, 22⟩ []]]] =
        .ok blocks := ⟨_, rfl⟩
  obtain ⟨w, groups, hw, hgroups, hstand, -, -, -⟩ := code_stands_in_runs {} hbuilt
  refine ⟨blocks, w, groups, hbuilt, hw, hgroups, hstand, ?_, ?_⟩
  · obtain rfl := Except.ok.inj hbuilt
    obtain rfl := Except.ok.inj hw
    decide +kernel
  · obtain rfl := Except.ok.inj hbuilt
    rw [hgroups]
    decide +kernel

end Taskdown
