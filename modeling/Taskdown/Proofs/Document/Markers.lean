import Taskdown.Proofs.Document.Collection
import Taskdown.Proofs.Document.Seen
import Taskdown.Proofs.Document.Walk
import Taskdown.Proofs.Output.Layout

/-!
# Markers in the output

What stands in the output on behalf of which item is said by laying the document out in *marked
lines*, which are made of parts: the markers of an item, or anything else (`Block.marked`). An item
without content has a line of its own for its markers; any other item has them in front of the first
line of its content, wherever this line comes from, and so they stand nowhere if its content has no
lines.

* `Block.exists_lays_of_blocks`: the writer puts out the marked lines, and no other lines with
  content;
* `Block.marked_eq_nil_iff`: a block has marked lines if and only if it is seen;
* `Block.perm_items_marked`: the items whose markers stand in the marked lines are those that are
  seen, each of them once;
* `FormatOptions.seen_items_are_marked_once`: this is so in the output of every document, and every
  item has its markers there if and only if every item is seen.
-/

namespace Taskdown

/-! ## Markers -/

/-- What goes in front of the first line of an item with content: its markers. -/
def Item.firstLead (o : FormatOptions) (start : Option Nat) (ordinal : Nat) (item : Item) : Text :=
  item.newMarker start ordinal ++ [' '] ++ (match o.taskMarker item with
    | some task => task ++ [' ']
    | none => [])

/-- What goes in front of the other lines of the item. -/
def Item.restLead (start : Option Nat) (ordinal : Nat) (item : Item) : Text :=
  List.replicate (Text.width (item.newMarker start ordinal) + 1) ' '

theorem Item.isBlank_restLead (start : Option Nat) (ordinal : Nat) (item : Item) :
    Text.isBlank (item.restLead start ordinal) := by
  refine List.all_eq_true.2 fun c hc => ?_
  rw [List.eq_of_mem_replicate hc]
  rfl

/-- The item has a marker in the source, and none of its markers has a newline. -/
structure Item.Marked (item : Item) : Prop extends Item.MarkersClean item where
  nonblank : Text.isBlank item.marker.text = false

/-- A number is not blank, nor is a bullet. -/
theorem Item.Marked.isBlank_newMarker {item : Item} (h : item.Marked) (start : Option Nat)
    (ordinal : Nat) : Text.isBlank (item.newMarker start ordinal) = false := by
  cases start with
  | none => exact h.nonblank
  | some n =>
    change Text.isBlank ((toString (n + ordinal)).toList ++ [item.marker.text.getLast?.getD '.']) =
      false
    rw [Text.isBlank_append, Nat.toString_eq_repr, Nat.toList_repr, Bool.and_eq_false_iff]
    left
    cases hdigits : Nat.toDigits 10 (n + ordinal) with
    | nil => exact absurd hdigits Nat.toDigits_ne_nil
    | cons c cs =>
      have hdigit : c.isDigit :=
        Nat.isDigit_of_mem_toDigits (by decide) (by decide) (hdigits ▸ List.mem_cons_self)
      have hc : Text.isWhiteSpace c = false := by
        simp only [Char.isDigit, Bool.and_eq_true, decide_eq_true_eq, ge_iff_le,
          UInt32.le_iff_toNat_le] at hdigit
        have hcode : 48 ≤ c.toNat ∧ c.toNat ≤ 57 := hdigit
        simp only [Text.isWhiteSpace, Bool.or_eq_false_iff, Bool.and_eq_false_iff,
          decide_eq_false_iff_not]
        omega
      rw [Text.isBlank, List.all_cons, hc, Bool.false_and]

theorem Item.Marked.isBlank_emptyText {item : Item} (h : item.Marked) (o : FormatOptions)
    (start : Option Nat) (ordinal : Nat) :
    Text.isBlank (item.emptyText o start ordinal) = false := by
  rw [Item.emptyText, Text.trimEnd, Text.isBlank_dropEndWhile fun _ => id, Text.isBlank_append,
    Text.isBlank_append, h.isBlank_newMarker, Bool.false_and, Bool.false_and]

/-! ## Marked lines -/

/-- A part of a line: the markers of an item, or anything else. -/
inductive LinePart where
  | markers (item : Item) (text : Text)
  | plain (text : Text)

/-- The text of a part. -/
def LinePart.text : LinePart → Text
  | .markers _ text => text
  | .plain text => text

/-- The item whose markers the part is. -/
def LinePart.item? : LinePart → Option Item
  | .markers item _ => some item
  | .plain _ => none

/-- A line in parts. -/
structure MarkedLine where
  lead : List LinePart
  body : LinePart

namespace MarkedLine

/-- A line of the content of an item. -/
def ofText (text : Text) : MarkedLine := ⟨[], .plain text⟩

/-- A line for the markers of an item alone. -/
def ofMarkers (item : Item) (text : Text) : MarkedLine := ⟨[], .markers item text⟩

/-- The items whose markers stand in the line. -/
def items (l : MarkedLine) : List Item := (l.lead ++ [l.body]).filterMap LinePart.item?

/-- The line without its partition. -/
def laid (l : MarkedLine) : LaidLine := ⟨l.lead.flatMap LinePart.text, l.body.text⟩

/-- The lines of the content of an item behind its markers. -/
def indented (item : Item) (first rest : Text) : List MarkedLine → List MarkedLine
  | [] => []
  | l :: ls =>
    { l with lead := .markers item first :: l.lead } :: ls.map fun l =>
      { l with lead := .plain rest :: l.lead }

theorem map_laid_ofText (texts : List Text) : (texts.map ofText).map laid = texts.map .ofText := by
  rw [List.map_map]
  rfl

theorem flatMap_items_ofText (texts : List Text) : (texts.map ofText).flatMap items = [] := by
  rw [List.flatMap_map, List.flatMap_eq_nil_iff]
  exact fun _ _ => rfl

theorem map_laid_indented (item : Item) (first rest : Text) (lines : List MarkedLine) :
    (indented item first rest lines).map laid = LaidLine.indented first rest (lines.map laid) := by
  cases lines with
  | nil => rfl
  | cons l ls =>
    simp only [indented, LaidLine.indented, List.map_cons, List.map_map]
    rfl

theorem indented_eq_nil_iff {item : Item} {first rest : Text} {lines : List MarkedLine} :
    indented item first rest lines = [] ↔ lines = [] := by
  cases lines with
  | nil => exact iff_of_true rfl rfl
  | cons l ls => exact iff_of_false (List.cons_ne_nil _ _) (List.cons_ne_nil _ _)

/-- The item has its markers in the lines if there are any lines, and then once. -/
theorem flatMap_items_indented (item : Item) (first rest : Text) (lines : List MarkedLine) :
    (indented item first rest lines).flatMap items =
      if lines.isEmpty then [] else item :: lines.flatMap items := by
  cases lines with
  | nil => rfl
  | cons l ls =>
    rw [indented, List.flatMap_cons, List.flatMap_map]
    rfl

end MarkedLine

/-- The lines of an item whose content has the given lines. -/
def Item.marked (o : FormatOptions) (start : Option Nat) (ordinal : Nat) (item : Item)
    (lines : List MarkedLine) : List MarkedLine :=
  if item.children.all Block.isEmpty then [.ofMarkers item (item.emptyText o start ordinal)]
  else MarkedLine.indented item (item.firstLead o start ordinal) (item.restLead start ordinal) lines

/-- The lines of the items of a list, from an ordinal on. -/
def Item.markedOfList (o : FormatOptions) (start : Option Nat) :
    Nat → List (Item × List MarkedLine) → List MarkedLine
  | _, [] => []
  | ordinal, (item, lines) :: items =>
    item.marked o start ordinal lines ++ Item.markedOfList o start (ordinal + 1) items

mutual

/-- The lines with content that a block has in an item whose content starts at column `indent`. -/
def Block.marked (o : FormatOptions) (indent : Nat) : Block → List MarkedLine
  | .paragraph view => (Text.nonblank view.textLines).map .ofText
  | .heading view => (Text.nonblank view.textLines).map .ofText
  | .code view => (view.keptLines indent).map .ofText
  | .other view => (Text.nonblank (view.keptLines indent)).map .ofText
  | .list _ start _ items =>
    Item.markedOfList o start 0 (o.arranged Prod.fst (Item.markedBodies o items))

/-- The items of a list, each with the lines of its content. -/
def Item.markedBodies (o : FormatOptions) : List Item → List (Item × List MarkedLine)
  | [] => []
  | item@⟨_, _, _, column, children⟩ :: items =>
    (item, Block.markedOfBlocks o column children) :: Item.markedBodies o items

/-- The lines of blocks, one after the other. -/
def Block.markedOfBlocks (o : FormatOptions) (indent : Nat) : List Block → List MarkedLine
  | [] => []
  | block :: blocks => block.marked o indent ++ Block.markedOfBlocks o indent blocks

end

/-! ## The marked lines are written -/

open Script

section

variable {o : FormatOptions} {start : Option Nat} {item : Item} {body : Script}
    {lines : List MarkedLine}

theorem Item.lays_script (ordinal : Nat) (hm : item.Marked)
    (hbody : Lays body (lines.map MarkedLine.laid)) :
    Lays (item.script o start ordinal body)
    ((item.marked o start ordinal lines).map MarkedLine.laid) := by
  rw [Item.script, Item.marked]
  split
  · have hline := lays_append_line (hm.newline_not_mem_emptyText o start ordinal)
    rw [Text.nonblank_singleton, hm.isBlank_emptyText, if_neg Bool.false_ne_true] at hline
    exact hline
  · rw [MarkedLine.map_laid_indented]
    exact lays_indented hbody (item.isBlank_restLead start ordinal)

end

/-- The marked lines are collected along a document. -/
def MarkedLine.collection (o : FormatOptions) : Collection MarkedLine where
  leaf indent block := block.marked o indent
  item := Item.marked o

theorem MarkedLine.leaf_collection (o : FormatOptions) (indent : Nat) (block : Block) :
    (MarkedLine.collection o).leaf indent block = block.marked o indent := rfl

theorem MarkedLine.item_collection (o : FormatOptions) :
    (MarkedLine.collection o).item = Item.marked o := rfl

theorem Item.markedOfList_eq (o : FormatOptions) (start : Option Nat) (ordinal : Nat)
    (bodies : List (Item × List MarkedLine)) :
    Item.markedOfList o start ordinal bodies = (MarkedLine.collection o).ofList start
    ordinal bodies := by
  induction bodies generalizing ordinal with
  | nil => rfl
  | cons body bodies ih =>
    rw [Item.markedOfList, Collection.ofList, ih, MarkedLine.item_collection]

mutual

theorem Block.marked_eq (o : FormatOptions) : ∀ (block : Block) (indent : Nat),
    block.marked o indent = (MarkedLine.collection o).ofBlock o indent block
  | .paragraph _, _ | .heading _, _ | .code _, _ | .other _, _ => by
    rw [Collection.ofBlock, MarkedLine.leaf_collection]
  | .list _ start _ items, _ => by
    rw [Block.marked, Collection.ofBlock, Item.markedOfList_eq, Item.markedBodies_eq o items]

theorem Item.markedBodies_eq (o : FormatOptions) : ∀ items : List Item,
    Item.markedBodies o items = (MarkedLine.collection o).inners o items
  | [] => by rw [Item.markedBodies, Collection.inners]
  | ⟨_, _, _, column, children⟩ :: items => by
    rw [Item.markedBodies, Collection.inners, Block.markedOfBlocks_eq o children,
      Item.markedBodies_eq o items]

theorem Block.markedOfBlocks_eq (o : FormatOptions) : ∀ (blocks : List Block) (indent : Nat),
    Block.markedOfBlocks o indent blocks = (MarkedLine.collection o).ofBlocks o indent blocks
  | [], _ => by rw [Block.markedOfBlocks, Collection.ofBlocks]
  | block :: blocks, indent => by
    rw [Block.markedOfBlocks, Collection.ofBlocks, Block.marked_eq o block,
      Block.markedOfBlocks_eq o blocks]

end

theorem MarkedLine.told (o : FormatOptions) :
    (MarkedLine.collection o).Told o View.Sound Item.Marked fun script lines =>
    Lays script (lines.map MarkedLine.laid) where
  nil := .nil
  append ha hb := by
    rw [List.map_append]
    exact ha.append hb
  blankLine := lays_blankLine
  paragraph indent view hv := by
    rw [leaf_collection, Block.marked, map_laid_ofText]
    exact lays_ofTextLines hv.newline_not_mem_textLines
  heading indent view hv := by
    rw [leaf_collection, Block.marked, map_laid_ofText]
    exact lays_ofTextLines hv.newline_not_mem_textLines
  code indent view hv := by
    rw [leaf_collection, Block.marked, map_laid_ofText]
    exact lays_run (hv.newline_not_mem_keptLines indent)
  other indent view hv := by
    rw [leaf_collection, Block.marked, map_laid_ofText]
    exact lays_ofKeptLines (hv.newline_not_mem_keptLines indent)
  item start ordinal item body inner hm hbody := by
    rw [item_collection]
    exact Item.lays_script ordinal hm hbody

/-- Blocks are written, and their marked lines are laid. -/
theorem Block.exists_lays_of_blocks (o : FormatOptions) (separated : Bool) (blocks : List Block)
    (indent : Nat) (behind : Bool) (hv : ∀ v ∈ Block.leafViewsOf blocks, v.Sound)
    (hm : ∀ item ∈ Block.items blocks, item.Marked) :
    ∃ script, Block.scriptOfBlocks o indent separated behind blocks = .ok script ∧
      Lays script ((Block.markedOfBlocks o indent blocks).map MarkedLine.laid) := by
  rw [Block.markedOfBlocks_eq]
  exact (MarkedLine.told o).exists_scriptOfBlocks separated blocks indent behind hv hm

/-! ## What is seen has lines -/

theorem Item.markedOfList_eq_nil_iff {o : FormatOptions} {start : Option Nat} {ordinal : Nat}
    {bodies : List (Item × List MarkedLine)} :
    Item.markedOfList o start ordinal bodies = [] ↔ ∀ p ∈ bodies, p.1.children.all Block.isEmpty =
    false ∧ p.2 = [] := by
  induction bodies generalizing ordinal with
  | nil => exact iff_of_true rfl fun _ h => nomatch h
  | cons p bodies ih =>
    rw [Item.markedOfList, List.append_eq_nil_iff, ih, List.forall_mem_cons, Item.marked]
    refine and_congr_left fun _ => ?_
    cases p.1.children.all Block.isEmpty with
    | true => exact iff_of_false (List.cons_ne_nil _ _) fun h => nomatch h.1
    | false => exact MarkedLine.indented_eq_nil_iff.trans (and_iff_right rfl).symm

mutual

theorem Block.marked_eq_nil_iff (o : FormatOptions) : ∀ (block : Block) (indent : Nat),
    (∀ v ∈ block.leafViews, v.Sound) → (block.marked o indent = [] ↔ block.isSeen = false)
  | .paragraph view, indent, hv => by
    rw [Block.marked, List.map_eq_nil_iff,
      (hv view List.mem_cons_self).nonblank_textLines_eq_nil_iff, Block.isSeen, Bool.not_eq_false']
  | .heading view, indent, hv => by
    rw [Block.marked, List.map_eq_nil_iff,
      (hv view List.mem_cons_self).nonblank_textLines_eq_nil_iff, Block.isSeen, Bool.not_eq_false']
  | .code view, indent, hv => by
    rw [Block.marked, List.map_eq_nil_iff, (hv view List.mem_cons_self).keptLines_eq_nil_iff,
      Block.isSeen, Bool.not_eq_false']
  | .other view, indent, hv => by
    rw [Block.marked, List.map_eq_nil_iff,
      (hv view List.mem_cons_self).nonblank_keptLines_eq_nil_iff, Block.isSeen, Bool.not_eq_false']
  | .list view start loose items, indent, hv => by
    have hperm := o.arranged_perm Prod.fst (Item.markedBodies o items)
    rw [Block.marked, Item.markedOfList_eq_nil_iff, Block.isSeen,
      ← Item.markedBodies_unseen_iff o items hv]
    exact forall_congr' fun p => by rw [hperm.mem_iff]

theorem Item.markedBodies_unseen_iff (o : FormatOptions) :
    ∀ items : List Item, (∀ v ∈ Item.leafViews items, v.Sound) →
    ((∀ p ∈ Item.markedBodies o items, p.1.children.all Block.isEmpty = false ∧ p.2 = []) ↔
      Item.anySeen items = false)
  | [], _ => iff_of_true (fun _ h => nomatch h) rfl
  | ⟨view, marker, task, column, children⟩ :: items, hv => by
    rw [Item.leafViews] at hv
    have hchildren := Block.markedOfBlocks_eq_nil_iff o children column fun v h =>
      hv v (List.mem_append_left _ h)
    have hitems := Item.markedBodies_unseen_iff o items fun v h => hv v (List.mem_append_right _ h)
    rw [Item.markedBodies, List.forall_mem_cons, Item.anySeen, Bool.or_eq_false_iff,
      Bool.or_eq_false_iff, hitems, hchildren]

theorem Block.markedOfBlocks_eq_nil_iff (o : FormatOptions) :
    ∀ (blocks : List Block) (indent : Nat), (∀ v ∈ Block.leafViewsOf blocks, v.Sound) →
    (Block.markedOfBlocks o indent blocks = [] ↔ Block.anySeen blocks = false)
  | [], indent, _ => iff_of_true rfl rfl
  | block :: blocks, indent, hv => by
    rw [Block.leafViewsOf] at hv
    have hblock := Block.marked_eq_nil_iff o block indent fun v h => hv v (List.mem_append_left _ h)
    have hblocks := Block.markedOfBlocks_eq_nil_iff o blocks indent fun v h =>
      hv v (List.mem_append_right _ h)
    rw [Block.markedOfBlocks, List.append_eq_nil_iff, Block.anySeen, Bool.or_eq_false_iff, hblock,
      hblocks]

end

/-! ## What is seen is marked -/

/-- The items whose markers stand in the lines of an item and its content. -/
def Item.markedItems (body : Item × List MarkedLine) : List Item :=
  if body.1.children.all Block.isEmpty then [body.1]
  else if body.2.isEmpty then [] else body.1 :: body.2.flatMap MarkedLine.items

theorem Item.flatMap_items_markedOfList (o : FormatOptions) (start : Option Nat) (ordinal : Nat)
    (bodies : List (Item × List MarkedLine)) :
    (Item.markedOfList o start ordinal bodies).flatMap MarkedLine.items =
    bodies.flatMap Item.markedItems := by
  induction bodies generalizing ordinal with
  | nil => rfl
  | cons body bodies ih =>
    rw [Item.markedOfList, List.flatMap_append, ih, List.flatMap_cons,
      Item.marked, Item.markedItems]
    refine congrArg (· ++ bodies.flatMap Item.markedItems) ?_
    split
    · rfl
    · exact MarkedLine.flatMap_items_indented _ _ _ _

/-- An item without content has no items below it. -/
theorem Block.items_of_all_isEmpty {blocks : List Block} (h : blocks.all Block.isEmpty) :
    Block.items blocks = [] := by
  induction blocks with
  | nil => rw [Block.items]
  | cons block blocks ih =>
    rw [List.all_cons, Bool.and_eq_true] at h
    cases block with
    | paragraph view =>
      rw [Block.items, ih h.2]
      exact nofun
    | heading | code | list | other => exact absurd h.1 Bool.false_ne_true

mutual

theorem Block.perm_items_marked (o : FormatOptions) : ∀ (block : Block) (indent : Nat),
    (∀ v ∈ block.leafViews, v.Sound) →
    ((block.marked o indent).flatMap MarkedLine.items).Perm
    ((Block.items [block]).filter Item.isSeen)
  | .paragraph view, indent, _ => by
    simp only [Block.marked, MarkedLine.flatMap_items_ofText, Block.items, List.filter_nil]
    exact .refl _
  | .heading view, indent, _ => by
    simp only [Block.marked, MarkedLine.flatMap_items_ofText, Block.items, List.filter_nil]
    exact .refl _
  | .code view, indent, _ => by
    simp only [Block.marked, MarkedLine.flatMap_items_ofText, Block.items, List.filter_nil]
    exact .refl _
  | .other view, indent, _ => by
    simp only [Block.marked, MarkedLine.flatMap_items_ofText, Block.items, List.filter_nil]
    exact .refl _
  | .list view start loose items, indent, hv => by
    rw [Block.marked, Item.flatMap_items_markedOfList, Block.items, Block.items, List.append_nil]
    exact ((o.arranged_perm Prod.fst _).flatMap_right Item.markedItems).trans
      (Item.perm_markedItems o items hv)

theorem Item.perm_markedItems (o : FormatOptions) :
    ∀ items : List Item, (∀ v ∈ Item.leafViews items, v.Sound) →
    ((Item.markedBodies o items).flatMap Item.markedItems).Perm
    ((Item.flatten items).filter Item.isSeen)
  | [], _ => by
    rw [Item.markedBodies, Item.flatten]
    exact .refl _
  | ⟨view, marker, task, column, children⟩ :: items, hv => by
    rw [Item.leafViews] at hv
    let item : Item := ⟨view, marker, task, column, children⟩
    let lines := Block.markedOfBlocks o column children
    have hlines : lines = [] ↔ Block.anySeen children = false :=
      Block.markedOfBlocks_eq_nil_iff o children column fun v h => hv v (List.mem_append_left _ h)
    have hchildren : (lines.flatMap MarkedLine.items).Perm
        ((Block.items children).filter Item.isSeen) :=
      Block.perm_items_markedOfBlocks o children column fun v h => hv v (List.mem_append_left _ h)
    have hitems := Item.perm_markedItems o items fun v h => hv v (List.mem_append_right _ h)
    have hitem : (Item.markedItems (item, lines)).Perm
        ((item :: Block.items children).filter Item.isSeen) := by
      rw [Item.markedItems, List.filter_cons]
      change (if children.all Block.isEmpty then [item] else _).Perm
        (if children.all Block.isEmpty || Block.anySeen children then _ else _)
      cases hempty : children.all Block.isEmpty with
      | true =>
        rw [Block.items_of_all_isEmpty hempty]
        exact .refl _
      | false =>
        cases hseen : Block.anySeen children with
        | false =>
          -- The content has no lines, and so no item below is seen.
          rw [hlines.2 hseen] at hchildren ⊢
          exact hchildren
        | true =>
          have hne : lines.isEmpty = false := by
            rw [List.isEmpty_eq_false_iff]
            exact fun h => nomatch hseen.symm.trans (hlines.1 h)
          rw [hne]
          exact hchildren.cons item
    rw [Item.markedBodies, List.flatMap_cons, Item.flatten, ← List.cons_append, List.filter_append]
    exact hitem.append hitems

theorem Block.perm_items_markedOfBlocks (o : FormatOptions) :
    ∀ (blocks : List Block) (indent : Nat), (∀ v ∈ Block.leafViewsOf blocks, v.Sound) →
    ((Block.markedOfBlocks o indent blocks).flatMap MarkedLine.items).Perm
    ((Block.items blocks).filter Item.isSeen)
  | [], indent, _ => by
    rw [Block.markedOfBlocks, Block.items]
    exact .refl _
  | block :: blocks, indent, hv => by
    rw [Block.leafViewsOf] at hv
    rw [Block.markedOfBlocks, Block.items_cons, List.flatMap_append, List.filter_append]
    exact (Block.perm_items_marked o block indent fun v h => hv v (List.mem_append_left _ h)).append
      (Block.perm_items_markedOfBlocks o blocks indent fun v h => hv v (List.mem_append_right _ h))

end

/-! ## Documents -/

/-- Every document is written. Apart from lines that have nothing on them, its output consists of
    the lines that are laid out for it. In these the items that are seen have their markers, each of
    them once, and no other item has any: all items have their markers if and only if all are
    seen. -/
theorem FormatOptions.seen_items_are_marked_once (o : FormatOptions) {source : View}
    {forest : List Node} {blocks : List Block}
    (hbuilt : Block.listOfNodes source none forest = .ok blocks)
    (hmarkers : ∀ item ∈ Block.items blocks, item.Marked) :
    ∃ w lines, o.write blocks = .ok w ∧ lines = Block.markedOfBlocks o 0 blocks ∧
      w.laid = lines.map (fun l => l.laid.under []) ∧
      (∀ l ∈ w.ended, l.hasContent ∨ l.lead = [] ∧ l.text = []) ∧
      (lines.flatMap MarkedLine.items).Perm ((Block.items blocks).filter Item.isSeen) ∧
      ((lines.flatMap MarkedLine.items).Perm (Block.items blocks) ↔
        ∀ item ∈ Block.items blocks, item.isSeen) := by
  -- The views come from checked spans of the source, and the writer is new, so that no line is
  -- pending.
  have hsound : ∀ v ∈ Block.leafViewsOf blocks, v.Sound :=
    fun v hv => (Block.within_of_listOfNodes hbuilt v hv).sound
  obtain ⟨script, hscript, hlays⟩ :=
    Block.exists_lays_of_blocks o true blocks 0 false hsound hmarkers
  obtain ⟨hsettled, hgains⟩ := hlays _ (Writer.settled_new o.maxBlankLines)
  have hperm := Block.perm_items_markedOfBlocks o blocks 0 hsound
  refine ⟨_, _, ?_, rfl, ?_, fun l hl => hsettled.bare_finish hl, hperm, fun h => ?_, fun h => ?_⟩
  · rw [FormatOptions.write, hscript]
    rfl
  · -- A new writer has no leads.
    rw [hsettled.laid_finish, hgains.laid]
    refine (LaidLine.allUnder_used [] _).trans ?_
    rw [List.map_map]
    rfl
  · -- If all items are marked, none is left out of those that are seen.
    exact List.length_filter_eq_length_iff.1 (hperm.symm.trans h).length_eq
  · rwa [List.filter_eq_self.2 h] at hperm

/-- Of three items the first has a no-break space for its content. The markers of the other two, one
    in the other, stand in front of the same line. -/
theorem FormatOptions.seen_items_are_marked_once_nested :
    ∃ blocks w lines,
      Block.listOfNodes (View.of ⟨0, ['-', ' ', '\u00a0', '\n', '-', ' ', '-', ' ', 'b']⟩) none
        [.block (.list none) ⟨0, 10⟩ [.block .item ⟨0, 5⟩ [.text ⟨2, 4⟩],
          .block .item ⟨5, 10⟩
          [.block (.list none) ⟨7, 10⟩ [.block .item ⟨7, 10⟩ [.text ⟨9, 10⟩]]]]] = .ok blocks ∧
      (∀ item ∈ Block.items blocks, item.Marked) ∧ ({} : FormatOptions).write blocks = .ok w ∧
      w.laid = [⟨['-', ' ', '-', ' '], ['b']⟩] ∧ (Block.items blocks).map Item.isSeen =
        [false, true, true] ∧
      lines = Block.markedOfBlocks {} 0 blocks ∧
      (lines.flatMap MarkedLine.items).Perm ((Block.items blocks).filter Item.isSeen) := by
  let source := View.of ⟨0, ['-', ' ', '\u00a0', '\n', '-', ' ', '-', ' ', 'b']⟩
  let forest : List Node := [.block (.list none) ⟨0, 10⟩ [.block .item ⟨0, 5⟩ [.text ⟨2, 4⟩],
    .block .item ⟨5, 10⟩ [.block (.list none) ⟨7, 10⟩ [.block .item ⟨7, 10⟩ [.text ⟨9, 10⟩]]]]]
  obtain ⟨blocks, hbuilt⟩ : ∃ blocks, Block.listOfNodes source none forest = .ok blocks := ⟨_, rfl⟩
  have hmarkers : ∀ item ∈ Block.items blocks, item.Marked := by
    have hall : (Block.items blocks).map (fun i => (i.marker.text, i.task)) =
        [(['-'], none), (['-'], none), (['-'], none)] := by
      obtain rfl := Except.ok.inj hbuilt
      decide +kernel
    intro item hitem
    have hmem := List.mem_map_of_mem (f := fun i : Item => (i.marker.text, i.task)) hitem
    rw [hall] at hmem
    obtain ⟨hmarker, htask⟩ : item.marker.text = ['-'] ∧ item.task = none := by simpa using hmem
    exact ⟨⟨by rw [hmarker]; decide, by simp [htask]⟩, by rw [hmarker]; rfl⟩
  obtain ⟨w, lines, hw, hlines, -, -, hperm, -⟩ := seen_items_are_marked_once {} hbuilt hmarkers
  refine ⟨blocks, w, lines, hbuilt, hmarkers, hw, ?_, ?_, hlines, hperm⟩
  · obtain rfl := Except.ok.inj hbuilt
    obtain rfl := Except.ok.inj hw
    decide +kernel
  · obtain rfl := Except.ok.inj hbuilt
    decide +kernel

/-- An item with a no-break space for its content is not written at all: it is not empty, so that no
    line is made for its marker, and the line of its content is blank, so that the marker does not
    go there. -/
theorem FormatOptions.format_of_noBreakSpace :
    ∃ blocks item f, Block.listOfView (View.of ⟨0, ['-', ' ', '\u00a0']⟩) = .ok blocks ∧
      Block.items blocks = [item] ∧ item.marker.text = ['-'] ∧
      ({} : FormatOptions).format ['-', ' ', '\u00a0'] = .ok f ∧ f.text = [] := by
  let source := View.of ⟨0, ['-', ' ', '\u00a0']⟩
  let forest : List Node := [.block (.list none) ⟨0, 4⟩ [.block .item ⟨0, 4⟩ [.text ⟨2, 4⟩]]]
  have hstructure : Markup.structureOf source.text = forest := by rfl
  obtain ⟨blocks, hbuilt⟩ : ∃ blocks, Block.listOfNodes source none forest = .ok blocks := ⟨_, rfl⟩
  have hview : Block.listOfView source = .ok blocks := by
    rw [Block.listOfView]
    exact (congrArg (Block.listOfNodes source none) hstructure).trans hbuilt
  have hmarkers : (Block.items blocks).map (fun item => item.marker.text) = [['-']] := by
    obtain rfl := Except.ok.inj hbuilt
    decide +kernel
  obtain ⟨item, hitems, hmarker⟩ := List.map_eq_singleton_iff.1 hmarkers
  have hwritten : (({} : FormatOptions).record blocks).toOption.map Formatted.text = some [] := by
    obtain rfl := Except.ok.inj hbuilt
    decide +kernel
  obtain ⟨f, hrecord, htext⟩ := Option.map_eq_some_iff.1 hwritten
  refine ⟨blocks, item, f, hview, hitems, hmarker, ?_, htext⟩
  rw [FormatOptions.format, hview, bind_lift_error]
  exact toOption_eq_some_iff.1 hrecord

end Taskdown
