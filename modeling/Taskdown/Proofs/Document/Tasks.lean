import Mathlib.Data.List.Forall2
import Taskdown.Proofs.Document.Admission
import Taskdown.Proofs.Document.Building

/-!
# Which items become tasks

The builder remembers one marker at a time. A marker that it skips is given away by the first block
of an item only, and an item starts without any, but what an item has not given away outlives it: it
is still remembered behind its list. What is remembered behind a node (`Node.leftAfter`) thus
decides which items take a marker (`Node.TakesTask`).

An item should be a task if it has a marker of its own (`Node.OwnsTask`). It is, unless its first
block is no paragraph and leaves a marker behind that belongs below it (`Node.TakesForeign`): a
quote with a task in it makes a task of the item that it starts.

* `Node.takesTask_iff_ownsTask_iff`: taking a marker and having one are the same but for a foreign
  one;
* `Node.builds`: the builder remembers what `Node.leftAfter` says, and gives every item the marker
  that it should take;
* `Block.tasks_of_listOfNodes`: the items of a document are those of its structure, in order, and
  all of them are tasks that should be, and no others, but for those that take a foreign marker.
-/

namespace Taskdown

/-! ## Markers in a structure -/

namespace Node

/-- The nodes below a node. -/
def children : Node → List Node
  | .block _ _ children => children
  | _ => []

/-- Is the node a task marker? -/
def isTaskMark : Node → Bool
  | .task _ _ => true
  | _ => false

/-- Is the node a block with nodes below it? -/
def isContainer : Node → Bool
  | .block tag _ _ => tag ≠ .inline
  | _ => false

mutual

/-- The marker that is remembered behind a node, when `left` is remembered before it. -/
def leftAfter (left : Option TaskMark) : Node → Option TaskMark
  | .block (.list _) _ children => leftAfterItems left children
  | .block _ _ children => left.or (firstTaskOf? children)
  | _ => left

/-- The marker that is remembered behind the nodes of a list: what its last item has left. -/
def leftAfterItems (left : Option TaskMark) : List Node → Option TaskMark
  | [] => left
  | .block .item _ children :: nodes => leftAfterItems (leftAfterItem children) nodes
  | _ :: nodes => leftAfterItems left nodes

/-- The marker that is remembered behind the nodes of an item. What its first block leaves is the
    item's. -/
def leftAfterItem : List Node → Option TaskMark
  | [] => none
  | node :: nodes => leftAfterAll (if node.isContainer then none else node.leftAfter none) nodes

/-- The marker that is remembered behind more nodes of an item. -/
def leftAfterAll (left : Option TaskMark) : List Node → Option TaskMark
  | [] => left
  | node :: nodes => leftAfterAll (node.leftAfter left) nodes

end

mutual

/-- The nodes of the items of a list, and of all items below them. -/
def items : Node → List Node
  | .block (.list _) _ children => itemsOfList children
  | _ => []

/-- The nodes of the items among the nodes of a list, and of all items below them. -/
def itemsOfList : List Node → List Node
  | [] => []
  | .block .item span children :: nodes =>
    .block .item span children :: (itemsOf children ++ itemsOfList nodes)
  | _ :: nodes => itemsOfList nodes

/-- The nodes of the items of the lists among some nodes, and of all items below them. -/
def itemsOf : List Node → List Node
  | [] => []
  | node :: nodes => node.items ++ itemsOf nodes

end

/-- Has the item a marker of its own? It stands directly in the item, or in the paragraph that the
    item starts with. -/
def OwnsTask (item : Node) : Prop :=
  item.children.any isTaskMark ∨
    ∃ span inner rest, item.children = .block .paragraph span inner :: rest ∧
    (firstTaskOf? inner).isSome

/-- Does the item take a marker of its own, or the one that is remembered behind its first block? -/
def TakesTask (item : Node) : Prop :=
  item.children.any isTaskMark ∨
    ∃ first rest, item.children = first :: rest ∧ first.isContainer ∧ (first.leftAfter none).isSome

/-- Does the item take a marker that is not its own? It has none, and the block that it starts with
    is no paragraph but leaves one behind, be it that a marker was skipped below the block, or that
    the last item of a list has left one. -/
def TakesForeign (item : Node) : Prop :=
  ¬ item.children.any isTaskMark ∧
    ∃ tag span inner rest, item.children = .block tag span inner :: rest ∧
    tag ≠ .inline ∧ tag ≠ .paragraph ∧
      ((Node.block tag span inner).leftAfter none).isSome

theorem takesTask_cons {first : Node} {rest : List Node} {span : Span} :
    (Node.block .item span (first :: rest)).TakesTask ↔
      first.isTaskMark || first.isContainer && (first.leftAfter none).isSome ||
        rest.any isTaskMark := by
  rw [Bool.or_right_comm, Bool.or_eq_true, Bool.and_eq_true]
  refine or_congr Iff.rfl ⟨?_, ?_⟩
  · rintro ⟨_, _, hchildren, hcontainer, hleft⟩
    cases hchildren
    exact ⟨hcontainer, hleft⟩
  · exact fun ⟨hcontainer, hleft⟩ => ⟨first, rest, rfl, hcontainer, hleft⟩

/-- An item that takes a marker takes its own, or a foreign one. -/
theorem takesTask_iff {item : Node} : item.TakesTask ↔ item.OwnsTask ∨ item.TakesForeign := by
  constructor
  · rintro (hmark | ⟨first, rest, hchildren, hcontainer, hleft⟩)
    · exact .inl (.inl hmark)
    · cases first with
      | text | task | rule => cases hcontainer
      | block tag span inner =>
        by_cases hmark : item.children.any isTaskMark
        · exact .inl (.inl hmark)
        · by_cases htag : tag = .paragraph
          · -- A paragraph leaves the first marker that is in it, which is the item's own.
            subst htag
            exact .inl (.inr ⟨span, inner, rest, hchildren, hleft⟩)
          · exact .inr ⟨hmark, tag, span, inner, rest, hchildren, of_decide_eq_true hcontainer,
              htag, hleft⟩
  · rintro ((hmark | ⟨span, inner, rest, hchildren, hinner⟩) | ⟨-, tag, span, inner, rest,
      hchildren, htag, -, hleft⟩)
    · exact .inl hmark
    · exact .inr ⟨_, rest, hchildren, rfl, hinner⟩
    · exact .inr ⟨_, rest, hchildren, decide_eq_true htag, hleft⟩

/-- No item does both. -/
theorem TakesForeign.not_ownsTask {item : Node} (h : item.TakesForeign) : ¬ item.OwnsTask := by
  obtain ⟨hmark, tag, span, inner, rest, hchildren, -, htag, -⟩ := h
  rintro (hmark' | ⟨span', inner', rest', hchildren', -⟩)
  · exact hmark hmark'
  · rw [hchildren'] at hchildren
    cases hchildren
    exact htag rfl

/-- Taking a marker and having one are the same but for a foreign one. -/
theorem takesTask_iff_ownsTask_iff {item : Node} :
    (item.TakesTask ↔ item.OwnsTask) ↔ ¬ item.TakesForeign := by
  rw [takesTask_iff]
  constructor
  · exact fun h hforeign => hforeign.not_ownsTask (h.1 (.inr hforeign))
  · exact fun h => or_iff_left h

end Node

/-- An item of a document and its node: they stand for the same text, and the item is a task if it
    takes a marker. -/
structure Item.StandsFor (source : View) (item : Item) (node : Node) : Prop where
  view : source.ofSpan node.span = .ok item.view
  isTask : item.isTask ↔ node.TakesTask

theorem Item.flatten_cons (item : Item) (items : List Item) :
    Item.flatten (item :: items) = item :: (Block.items item.children ++ Item.flatten items) := by
  obtain ⟨view, marker, task, column, children⟩ := item
  rw [Item.flatten]

theorem Block.items_paragraph (view : View) (blocks : List Block) :
    Block.items (.paragraph view :: blocks) = Block.items blocks := by
  simp only [Block.items]

theorem Block.items_append (blocks others : List Block) :
    Block.items (blocks ++ others) = Block.items blocks ++ Block.items others := by
  induction blocks with
  | nil => rw [Block.items, List.nil_append, List.nil_append]
  | cons block blocks ih =>
    rw [List.cons_append, Block.items_cons, ih, Block.items_cons block blocks, List.append_assoc]

/-- What is built of a node: which marker is remembered behind it, and which items come from it. -/
def Node.Builds (source : View) (node : Node) : Prop :=
  ∀ ⦃left block left'⦄, Block.ofNode source left node = .ok (block, left') →
    left' = node.leftAfter left ∧
    List.Forall₂ (Item.StandsFor source) (Block.items [block]) node.items

/-! ## Markers in the making -/

namespace ItemDraft

variable {source : View} {d d' : ItemDraft}

/-- The items of the blocks so far. -/
def items (d : ItemDraft) : List Item := Block.items d.children.reverse

/-- Is it too late for the draft to take a marker that a block has left? -/
def Settled (d : ItemDraft) : Prop := d.task.isSome ∨ d.children ≠ [] ∨ d.inlineSpan.isSome

theorem items_new : items {} = [] := by
  rw [items, List.reverse_nil, Block.items]

theorem items_cons {block : Block} (h : d'.children = block :: d.children) :
    d'.items = d.items ++ Block.items [block] := by
  rw [items, items, h, List.reverse_cons, Block.items_append]

/-- The items of an item are those of its draft: what its first paragraph loses are no items. -/
theorem items_item (d : ItemDraft) (view : View) :
    Block.items (d.item view).children = d.items := by
  rw [ItemDraft.item]
  dsimp only
  split
  · next task first rest htask hrest =>
    rw [items, hrest]
    split
    · rw [Block.items_paragraph, Block.items_paragraph]
    · rfl
  · rfl

/-- Flushing adds a paragraph at most. -/
theorem eq_of_flush (h : d.flush source = .ok d') :
    (d' = d ∧ d.inlineSpan = none) ∨
      ∃ view, d' = { d with children := .paragraph view :: d.children, inlineSpan := none } := by
  rw [ItemDraft.flush] at h
  split at h
  · next hspan => exact .inl ⟨(Except.ok.inj h).symm, hspan⟩
  · obtain ⟨view, -, h⟩ := bind_eq_ok_iff.1 h
    exact .inr ⟨view, (Except.ok.inj h).symm⟩

/-- Flushing leaves the markers, and the items, as they are. -/
theorem frame_of_flush (h : d.flush source = .ok d') :
    d'.task = d.task ∧ d'.left = d.left ∧ d'.items = d.items := by
  rcases eq_of_flush h with ⟨rfl, -⟩ | ⟨view, rfl⟩
  · exact ⟨rfl, rfl, rfl⟩
  · refine ⟨rfl, rfl, ?_⟩
    rw [items_cons (d := d) rfl, Block.items_paragraph, Block.items, List.append_nil]

theorem Settled.flush (hd : d.Settled) (h : d.flush source = .ok d') :
    d'.task.isSome ∨ d'.children ≠ [] := by
  rcases eq_of_flush h with ⟨rfl, hspan⟩ | ⟨view, rfl⟩
  · rcases hd with htask | hchildren | hinline
    · exact .inl htask
    · exact .inr hchildren
    · rw [hspan] at hinline
      cases hinline
  · exact .inr (List.cons_ne_nil _ _)

theorem children_of_addBlock {block : Block} (h : d.addBlock source block = .ok d') :
    d'.children = block :: d.children := by
  rw [ItemDraft.addBlock] at h
  split at h
  · obtain ⟨task, -, h⟩ := bind_eq_ok_iff.1 h
    obtain rfl := Except.ok.inj h
    rfl
  · obtain rfl := Except.ok.inj h
    rfl

/-- A draft that is settled takes no marker from a block. -/
theorem frame_of_addBlock {block : Block} (h : d.addBlock source block = .ok d')
    (hd : d.task.isSome ∨ d.children ≠ []) : d'.task = d.task ∧ d'.left = d.left := by
  rw [ItemDraft.addBlock] at h
  split at h
  · next htask hchildren hleft =>
    rcases hd with hd | hd
    · cases htask ▸ hd
    · exact absurd (List.cons.inj hchildren).2 hd
  · obtain rfl := Except.ok.inj h
    exact ⟨rfl, rfl⟩

/-- The first block of a draft without a marker gives it the one that is remembered, and none is
    remembered then. -/
theorem take_of_addBlock {block : Block} (htask : d.task = none) (hchildren : d.children = [])
    (h : d.addBlock source block = .ok d') : d'.task.isSome = d.left.isSome ∧ d'.left = none := by
  rw [ItemDraft.addBlock] at h
  split at h
  · next mark _ _ hleft =>
    obtain ⟨task, -, h⟩ := bind_eq_ok_iff.1 h
    obtain rfl := Except.ok.inj h
    have hmark : d.left = some mark := hleft
    exact ⟨by rw [hmark, Option.isSome_some, Option.isSome_some], rfl⟩
  · next hnone =>
    obtain rfl := Except.ok.inj h
    have hleft : d.left = none := by
      refine Option.eq_none_iff_forall_ne_some.2 fun mark hmark => ?_
      exact hnone block mark htask (by rw [hchildren]) hmark
    exact ⟨by rw [htask, hleft, Option.isSome_none, Option.isSome_none], hleft⟩

/-- After any node the draft is settled. -/
theorem Adds.settled {node : Node} (h : Adds source node d d') : d'.Settled := by
  cases h with
  | text | inline => exact .inr (.inr rfl)
  | task => exact .inl rfl
  | rule => exact .inr (.inl (List.cons_ne_nil _ _))
  | block span children ht hf hb ha =>
    refine .inr (.inl ?_)
    rw [children_of_addBlock ha]
    exact List.cons_ne_nil _ _

/-- A node adds its items to those of a draft. -/
theorem Adds.items {node : Node} {nodes : List Node} (hnode : node.Builds source)
    (h : Adds source node d d') (hd : List.Forall₂ (Item.StandsFor source) d.items nodes) :
    List.Forall₂ (Item.StandsFor source) d'.items (nodes ++ node.items) := by
  cases h with
  | text | task | inline =>
    simp only [Node.items, List.append_nil]
    exact hd
  | rule span hf =>
    obtain ⟨-, -, hitems⟩ := frame_of_flush hf
    simp only [Node.items, List.append_nil]
    rw [items_cons rfl, hitems]
    simp only [Block.items, List.append_nil]
    exact hd
  | block span children ht hf hb ha =>
    obtain ⟨-, -, hitems⟩ := frame_of_flush hf
    rw [items_cons (children_of_addBlock ha)]
    refine List.rel_append ?_ (hnode hb).2
    exact hitems.symm ▸ hd

/-- A draft that is settled takes the markers directly in the item only. -/
theorem Adds.frame_of_settled {node : Node} (hnode : node.Builds source) (h : Adds source node d d')
    (hd : d.Settled) : d'.left = node.leftAfter d.left ∧
    d'.task.isSome = (d.task.isSome || node.isTaskMark) := by
  cases h with
  | text | inline =>
    exact ⟨rfl, (Bool.or_false _).symm⟩
  | task =>
    exact ⟨rfl, (Bool.or_true _).symm⟩
  | rule span hf =>
    obtain ⟨htask, hleft, -⟩ := frame_of_flush hf
    exact ⟨hleft, by rw [← htask]; exact (Bool.or_false _).symm⟩
  | block span children ht hf hb ha =>
    obtain ⟨htask, hleft, -⟩ := frame_of_flush hf
    have hsettled := hd.flush hf
    obtain ⟨htask', hleft'⟩ := frame_of_addBlock ha hsettled
    exact ⟨by rw [hleft', ← hleft]; exact (hnode hb).1,
      by rw [htask', ← htask]; exact (Bool.or_false _).symm⟩

/-- A new draft takes the marker that a block leaves as well, and forgets it. -/
theorem Adds.take_of_new {node : Node} (hnode : node.Builds source) (h : Adds source node {} d') :
    d'.left = (if node.isContainer then none else node.leftAfter none) ∧
      d'.task.isSome = (node.isTaskMark || node.isContainer && (node.leftAfter none).isSome) := by
  cases h with
  | text | task | inline => exact ⟨rfl, rfl⟩
  | rule span hf =>
    obtain rfl := Except.ok.inj hf
    exact ⟨rfl, rfl⟩
  | @block _ flushed _ tag span children block left ht hf hb ha =>
    obtain rfl := Except.ok.inj hf
    have hcontainer : (Node.block tag span children).isContainer = true := decide_eq_true ht
    obtain ⟨htask, hleft⟩ := take_of_addBlock rfl rfl ha
    rw [hcontainer]
    refine ⟨hleft, htask.trans ?_⟩
    rw [← (hnode hb).1]
    rfl

end ItemDraft

mutual

theorem Node.builds {source : View} : ∀ node : Node, node.Builds source
  | .text span, left, block, left', h | .task span done, left, block, left', h | .rule span, left,
      block, left', h => by
    rw [Block.ofNode] at h
    obtain ⟨view, -, h⟩ := bind_eq_ok_iff.1 h
    obtain ⟨rfl, rfl⟩ := Prod.mk.injEq .. ▸ Except.ok.inj h
    refine ⟨rfl, ?_⟩
    simp only [Block.items, Node.items]
    exact .nil
  | .block tag span children, left, block, left', h => by
    rw [Block.ofNode] at h
    obtain ⟨view, -, h⟩ := bind_eq_ok_iff.1 h
    cases tag with
    | list start =>
      obtain ⟨⟨items, loose, left''⟩, hitems, h⟩ := bind_eq_ok_iff.1 h
      obtain ⟨rfl, rfl⟩ := Prod.mk.injEq .. ▸ Except.ok.inj h
      rw [Block.items, Block.items, List.append_nil]
      exact Item.built_of_listOfNodes children hitems
    | paragraph | heading | code | item | other | inline =>
      obtain ⟨rfl, rfl⟩ := Prod.mk.injEq .. ▸ Except.ok.inj h
      refine ⟨rfl, ?_⟩
      simp only [Block.items, Node.items]
      exact .nil

theorem Item.built_of_listOfNodes {source : View} :
    ∀ (nodes : List Node) {left left' : Option TaskMark} {items : List Item} {loose : Bool},
    Item.listOfNodes source left nodes = .ok (items, loose, left') →
    left' = Node.leftAfterItems left nodes ∧
      List.Forall₂ (Item.StandsFor source) (Item.flatten items) (Node.itemsOfList nodes)
  | [], left, left', items, loose, h => by
    rw [Item.listOfNodes] at h
    cases h
    rw [Item.flatten, Node.itemsOfList, Node.leftAfterItems]
    exact ⟨rfl, .nil⟩
  | .text _ :: nodes, left, left', items, loose, h | .task _ _ :: nodes, left, left', items, loose,
      h
  | .rule _ :: nodes, left, left', items, loose, h => by
    rw [Item.listOfNodes] at h
    · simp only [Node.leftAfterItems, Node.itemsOfList]
      exact Item.built_of_listOfNodes nodes h
    · exact nofun
  | .block tag span children :: nodes, left, left', items, loose, h => by
    rcases Item.listOfNodes_cons h with
      ⟨_, _, view, draft, items', loose', hnode, hview, hdraft, hrest, rfl⟩ | ⟨hnode, h⟩
    · -- The item starts without a marker, so that what was remembered before it is forgotten.
      cases hnode
      obtain ⟨hleft, htask, hitems⟩ := ItemDraft.built_of_addNodes_new children hdraft
      obtain ⟨hleft', hitems'⟩ := Item.built_of_listOfNodes nodes hrest
      rw [Node.leftAfterItems, ← hleft, Item.flatten_cons, ItemDraft.items_item, Node.itemsOfList]
      exact ⟨hleft', .cons ⟨hview, htask⟩ (List.rel_append hitems hitems')⟩
    · have htag : ∀ span' children', Node.block tag span children ≠ .block .item span' children' :=
        hnode
      rw [Node.leftAfterItems, Node.itemsOfList]
      · exact Item.built_of_listOfNodes nodes h
      · exact htag
      · exact htag

theorem ItemDraft.built_of_addNodes_new {source : View} :
    ∀ (nodes : List Node) {d' : ItemDraft} {span : Span}, ItemDraft.addNodes source {} nodes =
    .ok d' → d'.left = Node.leftAfterItem nodes ∧
    (d'.task.isSome ↔ (Node.block .item span nodes).TakesTask) ∧
      List.Forall₂ (Item.StandsFor source) d'.items (Node.itemsOf nodes)
  | [], d', span, h => by
    rw [ItemDraft.addNodes] at h
    obtain rfl := Except.ok.inj h
    refine ⟨rfl, ⟨nofun, ?_⟩, ?_⟩
    · rintro (hmark | ⟨_, _, hchildren, -⟩)
      · cases hmark
      · cases hchildren
    · rw [ItemDraft.items_new, Node.itemsOf]
      exact .nil
  | node :: nodes, d', span, h => by
    obtain ⟨d₁, hadds, h⟩ := ItemDraft.addNodes_cons h
    have hnode : node.Builds source := Node.builds node
    obtain ⟨hleft, htask⟩ := hadds.take_of_new hnode
    have hnew : List.Forall₂ (Item.StandsFor source) (ItemDraft.items {}) [] := by
      rw [ItemDraft.items_new]
      exact .nil
    have hitems := hadds.items hnode hnew
    -- Behind the first node the draft is settled: no later block gives it a marker.
    obtain ⟨hleft', htask', hitems'⟩ := ItemDraft.built_of_addNodes nodes hadds.settled h hitems
    refine ⟨by rw [hleft', hleft]; rfl, ?_, hitems'⟩
    rw [htask', htask]
    exact Node.takesTask_cons.symm

theorem ItemDraft.built_of_addNodes {source : View} :
    ∀ (nodes : List Node) {d d' : ItemDraft} {before : List Node}, d.Settled →
    ItemDraft.addNodes source d nodes = .ok d' →
    List.Forall₂ (Item.StandsFor source) d.items before → d'.left = Node.leftAfterAll d.left nodes ∧
    d'.task.isSome = (d.task.isSome || nodes.any Node.isTaskMark) ∧
      List.Forall₂ (Item.StandsFor source) d'.items (before ++ Node.itemsOf nodes)
  | [], d, d', before, hd, h, hbefore => by
    rw [ItemDraft.addNodes] at h
    obtain ⟨htask, hleft, hitems⟩ := ItemDraft.frame_of_flush h
    rw [Node.itemsOf, List.append_nil, hitems]
    exact ⟨hleft, by rw [htask]; exact (Bool.or_false _).symm, hbefore⟩
  | node :: nodes, d, d', before, hd, h, hbefore => by
    obtain ⟨d₁, hadds, h⟩ := ItemDraft.addNodes_cons h
    have hnode : node.Builds source := Node.builds node
    obtain ⟨hleft, htask⟩ := hadds.frame_of_settled hnode hd
    obtain ⟨hleft', htask', hitems'⟩ :=
      ItemDraft.built_of_addNodes nodes hadds.settled h (hadds.items hnode hbefore)
    rw [Node.itemsOf, ← List.append_assoc]
    exact ⟨by rw [hleft', hleft]; rfl, by rw [htask', htask, Bool.or_assoc]; rfl, hitems'⟩

end

/-! ## Tasks of a document -/

/-- The items of a document are those of its structure. -/
theorem Block.built_of_listOfNodes {source : View} {nodes : List Node} {left : Option TaskMark}
    {blocks : List Block} (h : Block.listOfNodes source left nodes = .ok blocks) :
    List.Forall₂ (Item.StandsFor source) (Block.items blocks) (Node.itemsOf nodes) := by
  induction nodes generalizing left blocks with
  | nil =>
    obtain rfl := Except.ok.inj h
    rw [Block.items, Node.itemsOf]
    exact .nil
  | cons node nodes ih =>
    cases node with
    | text | task =>
      simp only [Node.itemsOf, Node.items, List.nil_append]
      exact ih h
    | rule | block =>
      obtain ⟨⟨block, left'⟩, hb, h⟩ := bind_eq_ok_iff.1 h
      obtain ⟨blocks', hrest, h⟩ := bind_eq_ok_iff.1 h
      obtain rfl := Except.ok.inj h
      rw [Block.items_cons, Node.itemsOf]
      exact List.rel_append (Node.builds _ hb).2 (ih hrest)

/-- A document with all its spans in the source, between characters, is built. Its items are those
    of its structure, in order. An item is a task if and only if it has a marker of its own, except
    where it takes a foreign one, and there this fails. -/
theorem Block.tasks_of_listOfNodes (source : View) (forest : List Node) :
    (Node.Admitted source forest → ∃ blocks, Block.listOfNodes source none forest = .ok blocks) ∧
      ∀ blocks, Block.listOfNodes source none forest = .ok blocks →
        List.Forall₂ (fun item node => source.ofSpan node.span = .ok item.view ∧
          ((item.isTask ↔ node.OwnsTask) ↔ ¬ node.TakesForeign)) (Block.items blocks)
    (Node.itemsOf forest) := by
  refine ⟨fun h => Block.exists_listOfNodes h nofun, fun blocks h => ?_⟩
  refine (Block.built_of_listOfNodes h).imp fun item node hstands => ⟨hstands.view, ?_⟩
  rw [hstands.isTask]
  exact Node.takesTask_iff_ownsTask_iff

/-- The item has no marker of its own, and is a task, as an item of its quote has one. -/
theorem Block.task_of_quote :
    ∃ blocks node,
      Block.listOfView (View.of ⟨0, ['-', ' ', '>', ' ', '-', ' ', '[', ' ', ']', ' ', 'a']⟩) =
        .ok blocks ∧
      Node.itemsOf (Markup.structureOf ['-', ' ', '>', ' ', '-', ' ', '[', ' ', ']', ' ', 'a']) =
        [node] ∧
      (Block.items blocks).map Item.isTask = [true] ∧ ¬ node.OwnsTask := by
  let source := View.of ⟨0, ['-', ' ', '>', ' ', '-', ' ', '[', ' ', ']', ' ', 'a']⟩
  let quote : Node := .block .other ⟨2, 11⟩
    [.block (.list none) ⟨4, 11⟩ [.block .item ⟨4, 11⟩ [.task ⟨6, 9⟩ false, .text ⟨10, 11⟩]]]
  let node : Node := .block .item ⟨0, 11⟩ [quote]
  have hstructure : Markup.structureOf source.text = [.block (.list none) ⟨0, 11⟩ [node]] := by rfl
  obtain ⟨blocks, hbuilt⟩ :
      ∃ blocks, Block.listOfNodes source none [.block (.list none) ⟨0, 11⟩ [node]] = .ok blocks :=
    ⟨_, rfl⟩
  refine ⟨blocks, node, ?_, ?_, ?_, ?_⟩
  · rw [Block.listOfView]
    exact (congrArg (Block.listOfNodes source none) hstructure).trans hbuilt
  · refine (congrArg Node.itemsOf hstructure).trans ?_
    rfl
  · obtain rfl := Except.ok.inj hbuilt
    decide +kernel
  · rintro (hmark | ⟨_, _, _, hchildren, -⟩)
    · cases hmark
    · obtain ⟨htag, -⟩ := Node.block.inj (List.cons.inj hchildren).1
      cases htag

end Taskdown
