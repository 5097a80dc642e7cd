import Taskdown.Proofs.Document.Collection
import Taskdown.Proofs.Output.Contents
import Taskdown.Proofs.Output.Records

/-!
# A document is written as a walk over its tree

Leads, runs and limits aside, what is written of a document is decided by a walk over its tree
(`Walk`), which says in which order the blocks and items come, and which texts each of them
contributes. No state is carried from one block to the next, so that nothing can leak: whatever
stands before a block, and however deep it stands, it writes the same texts (`Walk.told`).

* `Walk.unique`: a tree has one walk at most;
* `FormatOptions.contents_follow_walk`: every document is written, and the lines that are not blank
  are those of its walk, in order.
-/

namespace Taskdown

/-! ## Texts without a newline -/

theorem View.dropIndent_suffix (limit column : Nat) (cs : Text) :
    View.dropIndent limit column cs <:+ cs := by
  induction cs generalizing column with
  | nil => exact List.suffix_rfl
  | cons c cs ih =>
    rw [View.dropIndent]
    split
    · exact (ih _).trans (List.suffix_cons c cs)
    · exact List.suffix_rfl

/-- The lines of a paragraph have no newline left. -/
theorem View.Sound.newline_not_mem_textLines {v : View} (h : v.Sound) :
    ∀ l ∈ v.textLines, '\n' ∉ l := by
  intro l hl
  obtain ⟨line, hline, rfl⟩ := List.mem_map.1 hl
  obtain ⟨before, cs, behind, hshows, hcs⟩ := h.trim.exists_of_mem_lines hline
  have htrimmed : Text.IsLine (cs.dropWhile Text.isTrimmed) :=
    hcs.of_suffix (List.dropWhile_suffix _)
  obtain ⟨behind', hchomped⟩ := hshows.trimStart.chomp htrimmed
  rw [hchomped.text_eq]
  exact htrimmed.newline_not_mem_chomp

/-- Nor have the lines of a block that is kept as it is. -/
theorem View.Sound.newline_not_mem_keptLines {v : View} (h : v.Sound) (indent : Nat) :
    ∀ l ∈ v.keptLines indent, '\n' ∉ l := by
  intro l hl
  obtain ⟨line, hline, rfl⟩ := List.mem_map.1 hl
  obtain ⟨before, cs, behind, hshows, hcs⟩ := (h.withIndent none).trimEnd.exists_of_mem_lines hline
  obtain ⟨behind', hchomped⟩ := hshows.chomp hcs
  rw [hchomped.text_eq]
  exact fun hmem => hcs.newline_not_mem_chomp ((View.dropIndent_suffix _ _ _).mem hmem)

/-- The markers of an item have no newline. -/
structure Item.MarkersClean (item : Item) : Prop where
  marker : '\n' ∉ item.marker.text
  task : ∀ task ∈ item.task, '\n' ∉ task.view.text

/-- The text of an item without content: its markers, without the blank behind them. -/
def Item.emptyText (o : FormatOptions) (start : Option Nat) (ordinal : Nat) (item : Item) : Text :=
  Text.trimEnd (item.newMarker start ordinal ++ [' '] ++ (match o.taskMarker item with
    | some task => task ++ [' ']
    | none => []))

/-- A letter does not become a newline in another case. -/
theorem TaskCase.newline_not_mem_apply {cs : Text} (h : '\n' ∉ cs) (case : TaskCase) :
    '\n' ∉ case.apply cs := by
  have hmap : ∀ f : Char → Char, (∀ c, f c = '\n' → c = '\n') → '\n' ∉ cs.map f :=
      fun f hf hmem => by
    obtain ⟨c, hc, hfc⟩ := List.mem_map.1 hmem
    exact h (hf c hfc ▸ hc)
  cases case with
  | asIs => exact h
  | lowercase =>
    refine hmap _ fun c hc => ?_
    unfold Char.toLower at hc
    split at hc
    · next h =>
      have hval := congrArg Char.val hc
      grind
    · exact hc
  | uppercase =>
    refine hmap _ fun c hc => ?_
    unfold Char.toUpper at hc
    split at hc
    · next h =>
      have hval := congrArg Char.val hc
      grind
    · exact hc

theorem Item.MarkersClean.newline_not_mem_newMarker {item : Item} (h : item.MarkersClean)
    (start : Option Nat) (ordinal : Nat) : '\n' ∉ item.newMarker start ordinal := by
  cases start with
  | none => exact h.marker
  | some n =>
    change '\n' ∉ (toString (n + ordinal)).toList ++ [item.marker.text.getLast?.getD '.']
    rw [List.mem_append, not_or, List.mem_singleton]
    constructor
    · intro hmem
      have hdigit : '\n' ∈ Nat.toDigits 10 (n + ordinal) := by
        rwa [Nat.toString_eq_repr, Nat.toList_repr] at hmem
      exact absurd (Nat.isDigit_of_mem_toDigits (by decide) (by decide) hdigit) (by decide)
    · cases hlast : item.marker.text.getLast? with
      | none => decide
      | some c =>
        rintro rfl
        exact h.marker (List.mem_of_getLast? hlast)

theorem Item.MarkersClean.newline_not_mem_emptyText {item : Item} (h : item.MarkersClean)
    (o : FormatOptions) (start : Option Nat) (ordinal : Nat) :
    '\n' ∉ item.emptyText o start ordinal := by
  have htask : ∀ task ∈ o.taskMarker item, '\n' ∉ task := by
    intro task ht
    rw [FormatOptions.taskMarker] at ht
    split at ht
    · cases ht
    · next task' htask' =>
      split at ht
      · cases ht
      · obtain rfl := Option.some.inj ht
        exact TaskCase.newline_not_mem_apply (h.task task' htask') _
  -- Of what the text is trimmed from, no part has a newline.
  have hfirst : '\n' ∉ item.newMarker start ordinal ++ [' '] ++ (match o.taskMarker item with
      | some task => task ++ [' ']
      | none => []) := by
    rw [List.mem_append, List.mem_append, not_or, not_or]
    refine ⟨⟨h.newline_not_mem_newMarker start ordinal, by decide⟩, ?_⟩
    split
    · next task ht =>
      rw [List.mem_append, not_or]
      exact ⟨htask task ht, by decide⟩
    · exact List.not_mem_nil
  obtain ⟨tail, htail, -⟩ := Text.exists_eq_dropEndWhile_append Text.isWhiteSpace
    (item.newMarker start ordinal ++ [' '] ++ (match o.taskMarker item with
      | some task => task ++ [' ']
      | none => []))
  intro hmem
  rw [htail] at hfirst
  exact hfirst (List.mem_append_left _ hmem)

/-! ## The walk -/

/-- What a walk goes over: blocks in an item whose content starts at a column, or the items of a
    list from an ordinal on. -/
inductive Stretch where
  | blocks (indent : Nat) (blocks : List Block)
  | items (start : Option Nat) (ordinal : Nat) (items : List Item)

/-- The texts of the blocks and items of a stretch, in the order in which they are written. -/
inductive Walk (o : FormatOptions) : Stretch → List Text → Prop
  | noBlocks {indent : Nat} : Walk o (.blocks indent []) []
  | paragraph {indent : Nat} {view : View} {blocks : List Block} {texts : List Text}
      (h : Walk o (.blocks indent blocks) texts) :
      Walk o (.blocks indent (.paragraph view :: blocks)) (view.textLines ++ texts)
  | heading {indent : Nat} {view : View} {blocks : List Block} {texts : List Text}
      (h : Walk o (.blocks indent blocks) texts) :
      Walk o (.blocks indent (.heading view :: blocks)) (view.textLines ++ texts)
  | code {indent : Nat} {view : View} {blocks : List Block} {texts : List Text}
      (h : Walk o (.blocks indent blocks) texts) :
      Walk o (.blocks indent (.code view :: blocks)) (view.keptLines indent ++ texts)
  | other {indent : Nat} {view : View} {blocks : List Block} {texts : List Text}
      (h : Walk o (.blocks indent blocks) texts) :
      Walk o (.blocks indent (.other view :: blocks)) (view.keptLines indent ++ texts)
  /-- The items of a list are gone over as they are arranged. -/
  | list {indent : Nat} {view : View} {start : Option Nat} {loose : Bool}
      {items arranged : List Item} {blocks : List Block} {inner texts : List Text}
        (ha : o.arrange items = .ok arranged)
      (hi : Walk o (.items start 0 arranged) inner) (h : Walk o (.blocks indent blocks) texts) :
      Walk o (.blocks indent (.list view start loose items :: blocks)) (inner ++ texts)
  | noItems {start : Option Nat} {ordinal : Nat} : Walk o (.items start ordinal []) []
  /-- An item without content contributes its markers. -/
  | emptyItem {start : Option Nat} {ordinal : Nat} {item : Item} {items : List Item}
      {texts : List Text} (he : item.children.all Block.isEmpty)
        (h : Walk o (.items start (ordinal + 1) items) texts) :
      Walk o (.items start ordinal (item :: items)) (item.emptyText o start ordinal :: texts)
  /-- Any other item contributes what its blocks do. -/
  | item {start : Option Nat} {ordinal : Nat} {item : Item} {items : List Item}
      {inner texts : List Text} (he : ¬item.children.all Block.isEmpty)
        (hi : Walk o (.blocks item.contentColumn item.children) inner)
      (h : Walk o (.items start (ordinal + 1) items) texts) :
      Walk o (.items start ordinal (item :: items)) (inner ++ texts)

/-- A tree has one walk at most. -/
theorem Walk.unique {o : FormatOptions} {s : Stretch} {texts texts' : List Text}
    (h : Walk o s texts) (h' : Walk o s texts') : texts = texts' := by
  induction h generalizing texts' with
  | noBlocks | noItems =>
    cases h'
    rfl
  | paragraph _ ih =>
    cases h' with
    | paragraph h' => rw [ih h']
  | heading _ ih =>
    cases h' with
    | heading h' => rw [ih h']
  | code _ ih =>
    cases h' with
    | code h' => rw [ih h']
  | other _ ih =>
    cases h' with
    | other h' => rw [ih h']
  | list ha _ _ ihi ih =>
    cases h' with
    | list ha' hi' h' =>
      obtain rfl := Except.ok.inj (ha.symm.trans ha')
      rw [ihi hi', ih h']
  | emptyItem he _ ih =>
    cases h' with
    | emptyItem _ h' => rw [ih h']
    | item he' => exact absurd he he'
  | item he _ _ ihi ih =>
    cases h' with
    | emptyItem he' => exact absurd he' he
    | item _ hi' h' => rw [ihi hi', ih h']

/-! ## Writing along the walk -/

open Script

/-- The texts of a block that is no list. -/
def Block.leafTexts (indent : Nat) : Block → List Text
  | .paragraph view => view.textLines
  | .heading view => view.textLines
  | .code view => view.keptLines indent
  | .other view => view.keptLines indent
  | .list .. => []

/-- The texts are collected along a document. -/
def Walk.collection (o : FormatOptions) : Collection Text where
  leaf := Block.leafTexts
  item start ordinal item inner :=
    if item.children.all Block.isEmpty then [item.emptyText o start ordinal] else inner

theorem Walk.leaf_collection (o : FormatOptions) : (Walk.collection o).leaf = Block.leafTexts := rfl

theorem Walk.item_collection (o : FormatOptions) (start : Option Nat) (ordinal : Nat) (item : Item)
    (inner : List Text) : (Walk.collection o).item start ordinal item inner =
      if item.children.all Block.isEmpty then [item.emptyText o start ordinal] else inner :=
  rfl

/-- Items whose blocks are gone over are gone over one after the other. -/
theorem Walk.ofList {o : FormatOptions} {start : Option Nat} {ordinal : Nat}
    {bodies : List (Item × List Text)}
    (h : ∀ p ∈ bodies, Walk o (.blocks p.1.contentColumn p.1.children) p.2) :
    Walk o (.items start ordinal (bodies.map Prod.fst))
    ((Walk.collection o).ofList start ordinal bodies) := by
  induction bodies generalizing ordinal with
  | nil => exact .noItems
  | cons p bodies ih =>
    obtain ⟨item, inner⟩ := p
    have hitem : Walk o (.blocks item.contentColumn item.children) inner := h _ List.mem_cons_self
    have hitems := @ih (ordinal + 1) fun q hq => h q (List.mem_cons_of_mem _ hq)
    rw [Collection.ofList, Walk.item_collection]
    split
    · next he => exact .emptyItem he hitems
    · next he => exact .item he hitem hitems

mutual

/-- A block contributes what is collected along it to every walk that comes by. -/
theorem Walk.ofBlock {o : FormatOptions} :
    ∀ (block : Block) (indent : Nat) {blocks : List Block} {rest : List Text},
    Walk o (.blocks indent blocks) rest → Walk o (.blocks indent (block :: blocks))
    ((Walk.collection o).ofBlock o indent block ++ rest)
  | .paragraph _, _, _, _, h => by
    rw [Collection.ofBlock, Walk.leaf_collection, Block.leafTexts]
    exact .paragraph h
  | .heading _, _, _, _, h => by
    rw [Collection.ofBlock, Walk.leaf_collection, Block.leafTexts]
    exact .heading h
  | .code _, _, _, _, h => by
    rw [Collection.ofBlock, Walk.leaf_collection, Block.leafTexts]
    exact .code h
  | .other _, _, _, _, h => by
    rw [Collection.ofBlock, Walk.leaf_collection, Block.leafTexts]
    exact .other h
  | .list _ start _ items, _, _, _, h => by
    obtain ⟨hitems, hinners⟩ := Walk.ofInners (o := o) items
    -- The items with what their blocks contribute are arranged as the items are.
    have hperm := o.arranged_perm Prod.fst ((Walk.collection o).inners o items)
    have hwalk := @Walk.ofList o start 0 _ fun p hp => hinners p (hperm.mem_iff.1 hp)
    have hmap : (o.arranged Prod.fst ((Walk.collection o).inners o items)).map Prod.fst =
        o.arranged id items :=
      (o.map_arranged id Prod.fst _).trans (congrArg (o.arranged id) hitems)
    rw [hmap] at hwalk
    rw [Collection.ofBlock]
    exact .list (o.arrangeBy_eq id items) hwalk h

theorem Walk.ofInners {o : FormatOptions} : ∀ items : List Item,
    ((Walk.collection o).inners o items).map Prod.fst = items ∧
      ∀ p ∈ (Walk.collection o).inners o items, Walk o (.blocks p.1.contentColumn p.1.children) p.2
  | [] => by
    rw [Collection.inners]
    exact ⟨rfl, List.forall_mem_nil _⟩
  | ⟨view, marker, task, column, children⟩ :: items => by
    obtain ⟨hitems, hinners⟩ := Walk.ofInners (o := o) items
    rw [Collection.inners, List.map_cons, hitems]
    exact ⟨rfl, List.forall_mem_cons.2 ⟨Walk.ofBlocks children column, hinners⟩⟩

theorem Walk.ofBlocks {o : FormatOptions} : ∀ (blocks : List Block) (indent : Nat),
    Walk o (.blocks indent blocks) ((Walk.collection o).ofBlocks o indent blocks)
  | [], _ => by
    rw [Collection.ofBlocks]
    exact .noBlocks
  | block :: blocks, indent => by
    rw [Collection.ofBlocks]
    exact Walk.ofBlock block indent (Walk.ofBlocks blocks indent)

end

/-- What is collected is written. An item writes its markers if it has no content, and what its
    blocks write otherwise. -/
theorem Walk.told (o : FormatOptions) :
    (Walk.collection o).Told o View.Sound Item.MarkersClean Writes where
  nil := .nil
  append := .append
  blankLine := writes_blankLine
  paragraph indent view hv := by
    rw [Walk.leaf_collection, Block.leafTexts]
    exact writes_ofTextLines hv.newline_not_mem_textLines
  heading indent view hv := by
    rw [Walk.leaf_collection, Block.leafTexts]
    exact writes_ofTextLines hv.newline_not_mem_textLines
  code indent view hv := by
    rw [Walk.leaf_collection, Block.leafTexts]
    have hkept := writes_ofKeptLines (hv.newline_not_mem_keptLines indent)
    have hall := (writes_openRun.append hkept).append writes_closeRun
    rwa [List.nil_append, List.append_nil] at hall
  other indent view hv := by
    rw [Walk.leaf_collection, Block.leafTexts]
    exact writes_ofKeptLines (hv.newline_not_mem_keptLines indent)
  item start ordinal item body inner hm hbody := by
    rw [Walk.item_collection, Item.script]
    split
    · exact writes_append_line (hm.newline_not_mem_emptyText o start ordinal)
    · have hend : Writes [.line, .popLead] [] := writes_line.append writes_popLead
      rw [← List.nil_append inner, ← List.append_nil ([] ++ inner)]
      exact ((writes_pushLeadFirst _ _).append hbody).append hend

/-- Blocks are written along their walk. -/
theorem FormatOptions.exists_walk_of_write (o : FormatOptions) {blocks : List Block}
    (hv : ∀ v ∈ Block.leafViewsOf blocks, v.Sound)
    (hm : ∀ item ∈ Block.items blocks, item.MarkersClean) :
    ∃ script texts, o.write blocks =
    .ok (({ maxBlankLines := o.maxBlankLines } : Writer).run script).finish ∧
      Walk o (.blocks 0 blocks) texts ∧
      (({ maxBlankLines := o.maxBlankLines } : Writer).run script).finish.contents =
        Text.nonblank texts := by
  obtain ⟨script, hscript, hwrites⟩ := (Walk.told o).exists_scriptOfBlocks true blocks 0 false hv hm
  -- The writer is new, so that no line is pending.
  obtain ⟨hpending, hcontents⟩ := hwrites { maxBlankLines := o.maxBlankLines } rfl
  have hends := (Writer.endsBlank_new o.maxBlankLines).chain (Writer.chain_run_true _ script)
  refine ⟨script, _, ?_, Walk.ofBlocks blocks 0, ?_⟩
  · rw [FormatOptions.write, hscript]
    rfl
  · rw [hends.contents_finish, hpending, hcontents]
    exact List.append_nil _

/-- Every document is written. The lines that are not blank are those of its walk, in order: no line
    is lost, none is written twice, and none goes elsewhere but by arranging, which gives the items
    in some order. The records of the lines describe the text, unless it is too long. -/
theorem FormatOptions.contents_follow_walk (o : FormatOptions) {source : View} {forest : List Node}
    {blocks : List Block} (hbuilt : Block.listOfNodes source none forest = .ok blocks)
    (hmarkers : ∀ item ∈ Block.items blocks, item.MarkersClean) :
    ∃ w texts, o.write blocks = .ok w ∧ Walk o (.blocks 0 blocks) texts ∧
    w.contents = Text.nonblank texts ∧
      (∀ other, Walk o (.blocks 0 blocks) other → other = texts) ∧
      (∀ items arranged, o.arrange items = .ok arranged → arranged.Perm items) ∧
      (Text.width w.text ≤ maxLength → ∃ b, w.Described b) := by
  -- The views come from checked spans of the source.
  have hsound : ∀ v ∈ Block.leafViewsOf blocks, v.Sound :=
    fun v hv => (Block.within_of_listOfNodes hbuilt v hv).sound
  obtain ⟨script, texts, hwrite, hwalk, hcontents⟩ := o.exists_walk_of_write hsound hmarkers
  refine ⟨_, texts, hwrite, hwalk, hcontents, fun other h => h.unique hwalk, ?_, ?_⟩
  · intro items arranged h
    obtain rfl := Except.ok.inj ((o.arrangeBy_eq id items).symm.trans h)
    exact o.arranged_perm id items
  · exact ((Writer.clean_new o.maxBlankLines).chain
      (Writer.chain_run_true _ script)).finish.exists_described

/-- A list with an item without content. -/
theorem FormatOptions.contents_follow_walk_list :
    ∃ blocks w, Block.listOfNodes (View.of ⟨0, ['-', '\n', '-', ' ', 'a']⟩) none
        [.block (.list none) ⟨0, 5⟩ [.block .item ⟨0, 1⟩ [], .block .item ⟨2, 5⟩ [.text ⟨4, 5⟩]]] =
          .ok blocks ∧
      (∀ item ∈ Block.items blocks, item.MarkersClean) ∧
      ({} : FormatOptions).write blocks = .ok w ∧ w.contents = [['-'], ['a']] := by
  let source := View.of ⟨0, ['-', '\n', '-', ' ', 'a']⟩
  let forest : List Node :=
    [.block (.list none) ⟨0, 5⟩ [.block .item ⟨0, 1⟩ [], .block .item ⟨2, 5⟩ [.text ⟨4, 5⟩]]]
  obtain ⟨blocks, hbuilt⟩ : ∃ blocks, Block.listOfNodes source none forest = .ok blocks := ⟨_, rfl⟩
  have hmarkers : ∀ item ∈ Block.items blocks, item.MarkersClean := by
    have hall : (Block.items blocks).map (fun i => (i.marker.text, i.task)) =
        [(['-'], none), (['-'], none)] := by
      obtain rfl := Except.ok.inj hbuilt
      decide +kernel
    intro item hitem
    have hmem := List.mem_map_of_mem (f := fun i : Item => (i.marker.text, i.task)) hitem
    rw [hall] at hmem
    obtain ⟨hmarker, htask⟩ : item.marker.text = ['-'] ∧ item.task = none := by simpa using hmem
    exact ⟨by rw [hmarker]; decide, by simp [htask]⟩
  obtain ⟨w, texts, hw, -, -⟩ := contents_follow_walk {} hbuilt hmarkers
  refine ⟨blocks, w, hbuilt, hmarkers, hw, ?_⟩
  obtain rfl := Except.ok.inj hbuilt
  obtain rfl := Except.ok.inj hw
  decide +kernel

end Taskdown
