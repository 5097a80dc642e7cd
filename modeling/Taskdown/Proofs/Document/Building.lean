import Taskdown.Document.Build
import Taskdown.Proofs.Source.Showing

/-!
# How documents are built

The builder goes over nodes. What a node does to the item in the making is one of a few things, all
of which can be seen in `ItemDraft.Adds`; a list of nodes does them one after the other
(`ItemDraft.addNodes_cons`).

All blocks are views of the source, and their spans have been checked: every view of a document is
sound, whatever structure the document was built from (`Block.within_of_listOfNodes`).
-/

namespace Taskdown

/-! ## What stands in a document -/

mutual

/-- The items of a list, and all items below them. -/
def Item.flatten : List Item → List Item
  | [] => []
  | item@⟨_, _, _, _, children⟩ :: items => item :: (Block.items children ++ Item.flatten items)

/-- The items of the lists among the blocks, and all items below them. -/
def Block.items : List Block → List Item
  | [] => []
  | .list _ _ _ items :: blocks => Item.flatten items ++ Block.items blocks
  | _ :: blocks => Block.items blocks

end

mutual

/-- The views of a block that is no list; the views of all such blocks in a list. -/
def Block.leafViews : Block → List View
  | .list _ _ _ items => Item.leafViews items
  | .paragraph view => [view]
  | .heading view => [view]
  | .code view => [view]
  | .other view => [view]

/-- The views of all blocks below items that are no lists. -/
def Item.leafViews : List Item → List View
  | [] => []
  | ⟨_, _, _, _, children⟩ :: items => Block.leafViewsOf children ++ Item.leafViews items

/-- The views of all blocks among blocks or below them that are no lists. -/
def Block.leafViewsOf : List Block → List View
  | [] => []
  | block :: blocks => block.leafViews ++ Block.leafViewsOf blocks

end

theorem Block.mem_leafViewsOf {v : View} {blocks : List Block} :
    v ∈ Block.leafViewsOf blocks ↔ ∃ block ∈ blocks, v ∈ block.leafViews := by
  induction blocks with
  | nil => simp [Block.leafViewsOf]
  | cons block blocks ih => simp [Block.leafViewsOf, ih]

theorem Block.items_cons (block : Block) (blocks : List Block) :
    Block.items (block :: blocks) = Block.items [block] ++ Block.items blocks := by
  cases block with
  | list view start loose items => rw [Block.items, Block.items, Block.items, List.append_nil]
  | paragraph | heading | code | other =>
    simp only [Block.items, List.nil_append]

theorem Item.mem_flatten_of_mem {item : Item} {items : List Item} (h : item ∈ items) :
    item ∈ Item.flatten items := by
  induction items with
  | nil => cases h
  | cons i items ih =>
    obtain ⟨view, marker, task, column, children⟩ := i
    rw [Item.flatten]
    rcases List.mem_cons.1 h with rfl | h
    · exact List.mem_cons_self
    · exact List.mem_cons_of_mem _ (List.mem_append_right _ (ih h))

/-! ## Steps of the builder -/

namespace ItemDraft

variable {source : View} {d d' : ItemDraft}

/-- What a node does to an item in the making. -/
inductive Adds (source : View) : Node → ItemDraft → ItemDraft → Prop
  | text (d : ItemDraft) (span : Span) : Adds source (.text span) d (d.addInline span)
  | task (d : ItemDraft) (span : Span) (done : Bool) {task : Task}
      (h : TaskMark.task source ⟨span, done⟩ = .ok task) :
      Adds source (.task span done) d { d with task := some task }
  | rule {d flushed : ItemDraft} (span : Span) {view : View} (hf : d.flush source = .ok flushed)
      (hv : source.ofSpan span = .ok view) :
      Adds source (.rule span) d { flushed with children := .other view :: flushed.children }
  | inline (d : ItemDraft) (span : Span) (children : List Node) :
      Adds source (.block .inline span children) d
        { d.addInline span with left := (d.addInline span).left.or (Node.firstTaskOf? children) }
  | block {d flushed added : ItemDraft} {tag : Tag} (span : Span) (children : List Node)
      {block : Block} {left : Option TaskMark} (ht : tag ≠ .inline)
        (hf : d.flush source = .ok flushed)
      (hb : Block.ofNode source flushed.left (.block tag span children) = .ok (block, left))
      (ha : { flushed with
        hasParagraph := flushed.hasParagraph || tag = Tag.paragraph
        left }.addBlock source block = .ok added) :
      Adds source (.block tag span children) d added

/-- The nodes of an item are added one after the other. -/
theorem addNodes_cons {node : Node} {nodes : List Node}
    (h : addNodes source d (node :: nodes) = .ok d') :
    ∃ d₁, Adds source node d d₁ ∧ addNodes source d₁ nodes = .ok d' := by
  cases node with
  | text span =>
    rw [addNodes] at h
    exact ⟨_, .text d span, h⟩
  | task span done =>
    rw [addNodes] at h
    obtain ⟨task, htask, h⟩ := bind_eq_ok_iff.1 h
    exact ⟨_, .task d span done htask, h⟩
  | rule span =>
    rw [addNodes] at h
    obtain ⟨flushed, hf, h⟩ := bind_eq_ok_iff.1 h
    obtain ⟨view, hv, h⟩ := bind_eq_ok_iff.1 h
    exact ⟨_, .rule span hf hv, h⟩
  | block tag span children =>
    rw [addNodes] at h
    by_cases ht : tag = .inline
    · subst ht
      exact ⟨_, .inline d span children, h⟩
    · rw [if_neg ht] at h
      obtain ⟨flushed, hf, h⟩ := bind_eq_ok_iff.1 h
      obtain ⟨⟨block, left⟩, hb, h⟩ := bind_eq_ok_iff.1 h
      obtain ⟨added, ha, h⟩ := bind_eq_ok_iff.1 h
      exact ⟨added, .block span children ht hf hb ha, h⟩

end ItemDraft

/-- An item is built from its nodes, and what it has skipped is left for the next one. -/
theorem Item.exists_draft_of_listOfNodes {source : View} {left left' : Option TaskMark}
    {span : Span} {children nodes : List Node} {items : List Item} {loose : Bool}
    (h : Item.listOfNodes source left (.block .item span children :: nodes) =
      .ok (items, loose, left')) :
    ∃ view draft items' loose', source.ofSpan span = .ok view ∧
    ItemDraft.addNodes source {} children = .ok draft ∧
      Item.listOfNodes source draft.left nodes = .ok (items', loose', left') ∧
      items = draft.item view :: items' ∧ loose = (draft.hasParagraph || loose') := by
  rw [Item.listOfNodes] at h
  obtain ⟨view, hview, h⟩ := bind_eq_ok_iff.1 h
  obtain ⟨draft, hdraft, h⟩ := bind_eq_ok_iff.1 h
  obtain ⟨⟨items', loose', left''⟩, hrest, h⟩ := bind_eq_ok_iff.1 h
  obtain ⟨rfl, rfl, rfl⟩ := Prod.mk.injEq .. ▸ Prod.mk.injEq .. ▸ Except.ok.inj h
  exact ⟨view, draft, items', loose', hview, hdraft, hrest, rfl, rfl⟩

/-- Of the nodes of a list only items count. -/
theorem Item.listOfNodes_cons {source : View} {left left' : Option TaskMark}
    {node : Node} {nodes : List Node} {items : List Item} {loose : Bool}
    (h : Item.listOfNodes source left (node :: nodes) = .ok (items, loose, left')) :
    (∃ span children view draft items' loose', node = .block .item span children ∧
      source.ofSpan span = .ok view ∧ ItemDraft.addNodes source {} children = .ok draft ∧
      Item.listOfNodes source draft.left nodes = .ok (items', loose', left') ∧
      items = draft.item view :: items') ∨
    ((∀ span children, node ≠ .block .item span children) ∧
      Item.listOfNodes source left nodes = .ok (items, loose, left')) := by
  by_cases hitem : ∃ span children, node = .block .item span children
  · obtain ⟨span, children, rfl⟩ := hitem
    obtain ⟨view, draft, items', loose', hview, hdraft, hrest, hitems, -⟩ :=
      Item.exists_draft_of_listOfNodes h
    exact .inl ⟨span, children, view, draft, items', loose', rfl, hview, hdraft, hrest, hitems⟩
  · refine .inr ⟨fun span children e => hitem ⟨span, children, e⟩, ?_⟩
    rw [Item.listOfNodes] at h
    · exact h
    · exact fun span children e => hitem ⟨span, children, e⟩

/-- Outside of all blocks text and task markers are passed over. -/
theorem Block.listOfNodes_cons {source : View} {left : Option TaskMark}
    {node : Node} {nodes : List Node} {blocks : List Block}
    (h : Block.listOfNodes source left (node :: nodes) = .ok blocks) :
    Block.listOfNodes source left nodes = .ok blocks ∨ ∃ block left' blocks',
    Block.ofNode source left node = .ok (block, left') ∧
      Block.listOfNodes source left' nodes = .ok blocks' ∧ blocks = block :: blocks' := by
  cases node with
  | text | task => exact .inl h
  | rule | block =>
    obtain ⟨⟨block, left'⟩, hb, h⟩ := bind_eq_ok_iff.1 h
    obtain ⟨blocks', hrest, h⟩ := bind_eq_ok_iff.1 h
    exact .inr ⟨block, left', blocks', hb, hrest, (Except.ok.inj h).symm⟩

/-! ## Views of the source -/

/-- A sound view of a source. -/
structure View.Within (s : Source) (v : View) : Prop where
  source : v.source = s
  sound : v.Sound

theorem View.within_of_ofSpan {source view : View} {span : Span}
    (h : source.ofSpan span = .ok view) : view.Within source.source := by
  refine ⟨?_, View.sound_of_sub h⟩
  rw [View.ofSpan, View.sub] at h
  split at h
  · cases h
  · obtain ⟨_, -, h⟩ := bind_eq_ok_iff.1 h
    obtain ⟨_, -, h⟩ := bind_eq_ok_iff.1 h
    obtain rfl := Except.ok.inj h
    rfl

/-- What is behind another view is within the source too. -/
theorem View.Within.after {s : Source} {v w : View} (hv : v.Within s) (hw : w.Within s) :
    (v.withSpan (v.span.after w.span)).Within s := by
  refine ⟨hv.source, View.sound_iff.2 ?_⟩
  obtain ⟨hle, hstart, hstop⟩ := View.sound_iff.1 hv.sound
  obtain ⟨-, -, hstop'⟩ := View.sound_iff.1 hw.sound
  rw [hw.source, ← hv.source] at hstop'
  change (v.span.after w.span).start ≤ (v.span.after w.span).stop ∧
    Text.isBoundary v.source.text (v.span.after w.span).start ∧
    Text.isBoundary v.source.text (v.span.after w.span).stop
  rw [Span.after]
  split
  · exact ⟨Nat.le_refl _, hstop, hstop⟩
  · next hlt =>
    -- The rest starts at the start of one view or behind the other.
    refine ⟨Nat.max_le.2 ⟨hle, Nat.le_of_lt (Nat.lt_of_not_le hlt)⟩, ?_, hstop⟩
    change Text.isBoundary v.source.text (max v.span.start w.span.stop)
    rcases Nat.le_total v.span.start w.span.stop with h | h
    · rwa [Nat.max_eq_right h]
    · rwa [Nat.max_eq_left h]

namespace ItemDraft

variable {s : Source} {source : View} {d d' : ItemDraft}

/-- Everything in the draft is within a source. -/
structure Within (s : Source) (d : ItemDraft) : Prop where
  children : ∀ block ∈ d.children, ∀ v ∈ block.leafViews, v.Within s
  task : ∀ task ∈ d.task, task.view.Within s

theorem within_new (s : Source) :
    Within s {} := ⟨fun _ h => absurd h List.not_mem_nil, fun _ h => nomatch h⟩

/-- Another block goes in front of those so far. -/
theorem Within.cons (hd : d.Within s) {block : Block} (hb : ∀ v ∈ block.leafViews, v.Within s) :
    ∀ b ∈ block :: d.children, ∀ v ∈ b.leafViews, v.Within s :=
  List.forall_mem_cons.2 ⟨hb, hd.children⟩

theorem Within.flush (hd : d.Within source.source) (h : d.flush source = .ok d') :
    d'.Within source.source := by
  rw [ItemDraft.flush] at h
  split at h
  · obtain rfl := Except.ok.inj h
    exact hd
  · obtain ⟨view, hv, h⟩ := bind_eq_ok_iff.1 h
    obtain rfl := Except.ok.inj h
    exact ⟨hd.cons (List.forall_mem_singleton.2 (View.within_of_ofSpan hv)), hd.task⟩

theorem Within.addBlock (hd : d.Within source.source) {block : Block}
    (hb : ∀ v ∈ block.leafViews, v.Within source.source) (h : d.addBlock source block = .ok d') :
    d'.Within source.source := by
  have hchildren := hd.cons hb
  rw [ItemDraft.addBlock] at h
  split at h
  · obtain ⟨task, ht, h⟩ := bind_eq_ok_iff.1 h
    obtain ⟨view, hv, ht⟩ := bind_eq_ok_iff.1 ht
    obtain rfl := Except.ok.inj ht
    obtain rfl := Except.ok.inj h
    refine ⟨hchildren, fun task htask => ?_⟩
    obtain rfl := Option.some.inj htask
    exact View.within_of_ofSpan hv
  · obtain rfl := Except.ok.inj h
    exact ⟨hchildren, hd.task⟩

theorem Within.adds (hd : d.Within source.source) {node : Node}
    (hnode : ∀ left block left', Block.ofNode source left node = .ok (block, left') →
      ∀ v ∈ block.leafViews, v.Within source.source)
    (h : Adds source node d d') : d'.Within source.source := by
  cases h with
  | text | inline => exact ⟨hd.children, hd.task⟩
  | task _ span done ht =>
    obtain ⟨view, hv, ht⟩ := bind_eq_ok_iff.1 ht
    obtain rfl := Except.ok.inj ht
    refine ⟨hd.children, fun task htask => ?_⟩
    obtain rfl := Option.some.inj htask
    exact View.within_of_ofSpan hv
  | rule span hf hv =>
    have hflushed := hd.flush hf
    exact ⟨hflushed.cons (List.forall_mem_singleton.2 (View.within_of_ofSpan hv)), hflushed.task⟩
  | block span children ht hf hb ha =>
    have hflushed := hd.flush hf
    refine Within.addBlock ?_ (hnode _ _ _ hb) ha
    exact ⟨hflushed.children, hflushed.task⟩

/-- The blocks of an item are those of the draft, but that its first paragraph may lose what is
    before its text. -/
theorem Within.item (hd : d.Within s) (view : View) :
    ∀ v ∈ Block.leafViewsOf (d.item view).children, v.Within s := by
  have hchildren : ∀ v ∈ Block.leafViewsOf d.children.reverse, v.Within s := by
    intro v hv
    obtain ⟨block, hblock, hv⟩ := Block.mem_leafViewsOf.1 hv
    exact hd.children block (List.mem_reverse.1 hblock) v hv
  rw [ItemDraft.item]
  dsimp only
  split
  · next task first rest htask hrest =>
    rw [hrest] at hchildren
    split
    · -- The task marker is within the source, so what follows it in the paragraph is.
      have hfirst := hchildren first List.mem_cons_self
      have hafter := hfirst.after (hd.task task htask)
      refine List.forall_mem_cons.2 ⟨⟨hafter.source, hafter.sound.trimStart⟩, fun v hv => ?_⟩
      exact hchildren v (List.mem_cons_of_mem _ hv)
    · exact hchildren
  · exact hchildren

end ItemDraft

theorem Block.within_of_other {source : View} {span : Span} {block : Block}
    {left left' : Option TaskMark}
    (h : (do return (Block.other (← source.ofSpan span), left)) = Except.ok (block, left')) :
    ∀ v ∈ block.leafViews, v.Within source.source := by
  obtain ⟨view, hv, h⟩ := bind_eq_ok_iff.1 h
  obtain ⟨rfl, -⟩ := Prod.mk.injEq .. ▸ Except.ok.inj h
  exact List.forall_mem_singleton.2 (View.within_of_ofSpan hv)

mutual

theorem Block.within_of_ofNode {source : View} :
    ∀ (node : Node) {left left' : Option TaskMark} {block : Block}, Block.ofNode source left node =
    .ok (block, left') → ∀ v ∈ block.leafViews, v.Within source.source
  | .text span, left, left', block, h => by
    rw [Block.ofNode] at h
    exact Block.within_of_other h
  | .task span done, left, left', block, h => by
    rw [Block.ofNode] at h
    exact Block.within_of_other h
  | .rule span, left, left', block, h => by
    rw [Block.ofNode] at h
    exact Block.within_of_other h
  | .block tag span children, left, left', block, h => by
    rw [Block.ofNode] at h
    obtain ⟨view, hv, h⟩ := bind_eq_ok_iff.1 h
    have hview := List.forall_mem_singleton.2 (View.within_of_ofSpan hv)
    cases tag with
    | list start =>
      obtain ⟨⟨items, loose, left''⟩, hitems, h⟩ := bind_eq_ok_iff.1 h
      obtain ⟨rfl, -⟩ := Prod.mk.injEq .. ▸ Except.ok.inj h
      exact Item.within_of_listOfNodes children hitems
    | paragraph | heading | code | item | other | inline =>
      obtain ⟨rfl, -⟩ := Prod.mk.injEq .. ▸ Except.ok.inj h
      exact hview

theorem Item.within_of_listOfNodes {source : View} :
    ∀ (nodes : List Node) {left left' : Option TaskMark} {items : List Item} {loose : Bool},
    Item.listOfNodes source left nodes = .ok (items, loose, left') → ∀ v ∈ Item.leafViews items,
    v.Within source.source
  | [], left, left', items, loose, h => by
    rw [Item.listOfNodes] at h
    obtain ⟨rfl, -⟩ := Prod.mk.injEq .. ▸ Except.ok.inj h
    exact fun v hv => absurd hv List.not_mem_nil
  | .text _ :: nodes, left, left', items, loose, h => by
    rw [Item.listOfNodes] at h
    · exact Item.within_of_listOfNodes nodes h
    · exact nofun
  | .task _ _ :: nodes, left, left', items, loose, h => by
    rw [Item.listOfNodes] at h
    · exact Item.within_of_listOfNodes nodes h
    · exact nofun
  | .rule _ :: nodes, left, left', items, loose, h => by
    rw [Item.listOfNodes] at h
    · exact Item.within_of_listOfNodes nodes h
    · exact nofun
  | .block tag span children :: nodes, left, left', items, loose, h => by
    rcases Item.listOfNodes_cons h with ⟨_, _, view, draft, items', loose', hnode, -, hdraft,
      hrest, rfl⟩ | ⟨-, h⟩
    · cases hnode
      have hd := ItemDraft.within_of_addNodes children (ItemDraft.within_new _) hdraft
      refine fun v hv => (List.mem_append.1 hv).elim (hd.item view v)
        (Item.within_of_listOfNodes nodes hrest v)
    · exact Item.within_of_listOfNodes nodes h

theorem ItemDraft.within_of_addNodes {source : View} : ∀ (nodes : List Node) {d d' : ItemDraft},
    d.Within source.source → ItemDraft.addNodes source d nodes = .ok d' → d'.Within source.source
  | [], d, d', hd, h => by
    rw [ItemDraft.addNodes] at h
    exact hd.flush h
  | node :: nodes, d, d', hd, h => by
    obtain ⟨d₁, hadds, h⟩ := ItemDraft.addNodes_cons h
    have hnode : ∀ left block left', Block.ofNode source left node = .ok (block, left') →
        ∀ v ∈ block.leafViews, v.Within source.source := fun _ _ _ => Block.within_of_ofNode node
    exact ItemDraft.within_of_addNodes nodes (hd.adds hnode hadds) h

end

/-- Every view of a document is a sound view of its source, whatever the document is built from. -/
theorem Block.within_of_listOfNodes {source : View} {nodes : List Node} {left : Option TaskMark}
    {blocks : List Block} (h : Block.listOfNodes source left nodes = .ok blocks) :
    ∀ v ∈ Block.leafViewsOf blocks, v.Within source.source := by
  induction nodes generalizing left blocks with
  | nil =>
    obtain rfl := Except.ok.inj h
    exact fun v hv => absurd hv List.not_mem_nil
  | cons node nodes ih =>
    rcases Block.listOfNodes_cons h with h | ⟨block, left', blocks', hb, hrest, rfl⟩
    · exact ih h
    · exact fun v hv => (List.mem_append.1 hv).elim (Block.within_of_ofNode node hb v) (ih hrest v)

end Taskdown
