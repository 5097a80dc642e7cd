import Taskdown.Document.Build

/-!
# What can be built

Of the nodes of a structure only the spans matter to whether a document can be built: the builder
fails where it cannot view one of them. A span that it views is that of a node, or of a marker that
it remembers, or the smallest that holds the spans of some nodes, so nothing fails if all spans of
the structure are in the source and start and stop between characters (`Block.exists_listOfNodes`).
-/

namespace Taskdown

/-! ## Spans that can be viewed -/

/-- A span that can be viewed: it is in the source, and starts and stops between characters. -/
structure View.Admits (source : View) (span : Span) : Prop where
  le : span.start ≤ span.stop
  stop_le : span.stop ≤ source.length
  start : Text.isBoundary source.source.text (source.start + span.start)
  stop : Text.isBoundary source.source.text (source.start + span.stop)

namespace View.Admits

variable {source : View} {span other : Span}

theorem exists_ofSpan (h : source.Admits span) : ∃ view, source.ofSpan span = .ok view := by
  have hrange : ¬ (span.stop < span.start ∨ source.length < span.stop) :=
    not_or.2 ⟨Nat.not_lt.2 h.le, Nat.not_lt.2 h.stop_le⟩
  refine ⟨source.withSpan ⟨source.start + span.start, source.start + span.stop⟩, ?_⟩
  rw [ofSpan, sub, if_neg hrange, checkBoundary, if_pos h.start, checkBoundary, if_pos h.stop]
  rfl

/-- Each end of a hull is an end of one of the two spans. -/
theorem hull (h : source.Admits span) (h' : source.Admits other) :
    source.Admits (span.hull other) where
  le := Nat.le_trans (Nat.min_le_left ..) (Nat.le_trans h.le (Nat.le_max_left ..))
  stop_le := Nat.max_le.2 ⟨h.stop_le, h'.stop_le⟩
  start := by
    rcases Nat.le_total span.start other.start with hle | hle
    · rw [Span.hull, Nat.min_eq_left hle]
      exact h.start
    · rw [Span.hull, Nat.min_eq_right hle]
      exact h'.start
  stop := by
    rcases Nat.le_total span.stop other.stop with hle | hle
    · rw [Span.hull, Nat.max_eq_right hle]
      exact h'.stop
    · rw [Span.hull, Nat.max_eq_left hle]
      exact h.stop

end View.Admits

namespace Node

mutual

/-- The spans at and below a node. -/
def spans : Node → List Span
  | .text span => [span]
  | .task span _ => [span]
  | .rule span => [span]
  | .block _ span children => span :: spansOf children

/-- The spans at and below some nodes. -/
def spansOf : List Node → List Span
  | [] => []
  | node :: nodes => node.spans ++ spansOf nodes

end

/-- Can all of the nodes be viewed? -/
def Admitted (source : View) (nodes : List Node) : Prop :=
  ∀ span ∈ spansOf nodes, source.Admits span

theorem admitted_cons {source : View} {node : Node} {nodes : List Node} :
    Admitted source (node :: nodes) ↔ (∀ span ∈ node.spans, source.Admits span) ∧
    Admitted source nodes := by
  rw [Admitted, spansOf, List.forall_mem_append]
  rfl

theorem admitted_children {source : View} {tag : Tag} {span : Span} {children : List Node}
    (h : ∀ s ∈ (block tag span children).spans, source.Admits s) :
    source.Admits span ∧ Admitted source children :=
  List.forall_mem_cons.1 h

mutual

theorem mem_spans_of_firstTask? : ∀ {node : Node} {mark : TaskMark}, node.firstTask? = some mark →
    mark.span ∈ node.spans
  | .text _, mark, h | .rule _, mark, h => nomatch h
  | .task _ _, mark, h => by
    obtain rfl := Option.some.inj h
    exact List.mem_singleton_self _
  | .block _ _ _, mark, h => List.mem_cons_of_mem _ (mem_spansOf_of_firstTaskOf? h)

theorem mem_spansOf_of_firstTaskOf? :
    ∀ {nodes : List Node} {mark : TaskMark}, firstTaskOf? nodes = some mark →
    mark.span ∈ spansOf nodes
  | [], mark, h => nomatch h
  | node :: nodes, mark, h => by
    rw [firstTaskOf?, Option.or_eq_some_iff] at h
    rcases h with h | ⟨-, h⟩
    · exact List.mem_append_left _ (mem_spans_of_firstTask? h)
    · exact List.mem_append_right _ (mem_spansOf_of_firstTaskOf? h)

end

end Node

/-! ## Building succeeds -/

/-- Can the marker that is remembered be viewed, if there is one? -/
def View.AdmitsLeft (source : View) (left : Option TaskMark) : Prop :=
  ∀ mark ∈ left, source.Admits mark.span

/-- A marker that is skipped can be viewed as all nodes can. -/
theorem View.AdmitsLeft.or {source : View} {left : Option TaskMark} {nodes : List Node}
    (h : source.AdmitsLeft left) (hnodes : Node.Admitted source nodes) :
    source.AdmitsLeft (left.or (Node.firstTaskOf? nodes)) := by
  intro mark hmark
  rcases Option.or_eq_some_iff.1 hmark with hmark | ⟨-, hmark⟩
  · exact h mark hmark
  · exact hnodes _ (Node.mem_spansOf_of_firstTaskOf? hmark)

namespace ItemDraft

variable {source : View} {d : ItemDraft}

/-- All that the draft may still view can be viewed. -/
structure Ready (source : View) (d : ItemDraft) : Prop where
  inlineSpan : ∀ span ∈ d.inlineSpan, source.Admits span
  left : source.AdmitsLeft d.left

theorem ready_new (source : View) : Ready source {} := ⟨nofun, nofun⟩

theorem Ready.addInline (hd : d.Ready source) {span : Span} (hspan : source.Admits span) :
    (d.addInline span).Ready source where
  inlineSpan := by
    intro hull hhull
    obtain rfl := Option.some.inj hhull
    split
    · next span' hspan' => exact (hd.inlineSpan span' hspan').hull hspan
    · exact hspan
  left := hd.left

theorem Ready.exists_flush (hd : d.Ready source) :
    ∃ d', d.flush source = .ok d' ∧ d'.Ready source := by
  rw [ItemDraft.flush]
  split
  · exact ⟨d, rfl, hd⟩
  · next span hspan =>
    obtain ⟨view, hview⟩ := (hd.inlineSpan span hspan).exists_ofSpan
    refine ⟨{ d with children := .paragraph view :: d.children, inlineSpan := none }, ?_,
      fun span h => absurd h (Option.not_mem_none span), hd.left⟩
    exact bind_of_eq_ok hview

theorem Ready.exists_addBlock (hd : d.Ready source) (block : Block) :
    ∃ d', d.addBlock source block = .ok d' ∧ d'.Ready source := by
  rw [ItemDraft.addBlock]
  dsimp only
  split
  · next mark _ _ hmark =>
    obtain ⟨view, hview⟩ := (hd.left mark hmark).exists_ofSpan
    refine ⟨{ d with
      task := some ⟨view, mark.done⟩
      children := block :: d.children
      left := none }, ?_, hd.inlineSpan, fun mark h => absurd h (Option.not_mem_none mark)⟩
    exact bind_of_eq_ok (bind_of_eq_ok hview)
  · exact ⟨_, rfl, hd.inlineSpan, hd.left⟩

/-- The nodes of an item can be added one after the other if all of them can be viewed. -/
theorem Ready.exists_step (hd : d.Ready source) {node : Node}
    (hspans : ∀ span ∈ node.spans, source.Admits span) (hnode : ∀ left, source.AdmitsLeft left →
      ∃ block left', Block.ofNode source left node = .ok (block, left') ∧ source.AdmitsLeft left')
    (nodes : List Node) :
    ∃ d', d'.Ready source ∧ ItemDraft.addNodes source d (node :: nodes) =
    ItemDraft.addNodes source d' nodes := by
  cases node with
  | text span =>
    refine ⟨d.addInline span, hd.addInline (hspans _ List.mem_cons_self), ?_⟩
    rw [ItemDraft.addNodes]
  | task span done =>
    obtain ⟨view, hview⟩ := (hspans _ List.mem_cons_self).exists_ofSpan
    refine ⟨{ d with task := some ⟨view, done⟩ }, ⟨hd.inlineSpan, hd.left⟩, ?_⟩
    rw [ItemDraft.addNodes]
    exact bind_of_eq_ok (bind_of_eq_ok hview)
  | rule span =>
    obtain ⟨flushed, hf, hflushed⟩ := hd.exists_flush
    obtain ⟨view, hview⟩ := (hspans _ List.mem_cons_self).exists_ofSpan
    refine ⟨{ flushed with children := .other view :: flushed.children },
      ⟨hflushed.inlineSpan, hflushed.left⟩, ?_⟩
    rw [ItemDraft.addNodes]
    exact (bind_of_eq_ok hf).trans (bind_of_eq_ok hview)
  | block tag span children =>
    obtain ⟨hspan, hchildren⟩ := Node.admitted_children hspans
    by_cases htag : tag = .inline
    · have hinline := hd.addInline hspan
      refine ⟨{ d.addInline span with
        left := (d.addInline span).left.or (Node.firstTaskOf? children) },
        ⟨hinline.inlineSpan, hinline.left.or hchildren⟩, ?_⟩
      rw [ItemDraft.addNodes, if_pos htag]
    · obtain ⟨flushed, hf, hflushed⟩ := hd.exists_flush
      obtain ⟨block, left, hb, hleft⟩ := hnode flushed.left hflushed.left
      have hready : Ready source { flushed with
          hasParagraph := flushed.hasParagraph || tag = Tag.paragraph
          left } := ⟨hflushed.inlineSpan, hleft⟩
      obtain ⟨added, ha, hadded⟩ := hready.exists_addBlock block
      refine ⟨added, hadded, ?_⟩
      rw [ItemDraft.addNodes, if_neg htag]
      exact (bind_of_eq_ok hf).trans ((bind_of_eq_ok hb).trans (bind_of_eq_ok ha))

end ItemDraft

mutual

theorem Block.exists_ofNode {source : View} : ∀ (node : Node) {left : Option TaskMark},
    (∀ span ∈ node.spans, source.Admits span) → source.AdmitsLeft left →
    ∃ block left', Block.ofNode source left node = .ok (block, left') ∧ source.AdmitsLeft left'
  | .text span, left, h, hleft | .task span _, left, h, hleft | .rule span, left, h, hleft => by
    obtain ⟨view, hview⟩ := (h _ List.mem_cons_self).exists_ofSpan
    refine ⟨.other view, left, ?_, hleft⟩
    rw [Block.ofNode]
    exact bind_of_eq_ok hview
  | .block tag span children, left, h, hleft => by
    obtain ⟨hspan, hchildren⟩ := Node.admitted_children h
    obtain ⟨view, hview⟩ := hspan.exists_ofSpan
    rw [Block.ofNode, bind_of_eq_ok hview]
    cases tag with
    | list start =>
      obtain ⟨items, loose, left', hitems, hleft'⟩ :=
        Item.exists_listOfNodes children hchildren hleft
      refine ⟨.list view start loose items, left', ?_, hleft'⟩
      exact bind_of_eq_ok hitems
    | paragraph | heading | code | item | other | inline =>
      exact ⟨_, _, rfl, hleft.or hchildren⟩

theorem Item.exists_listOfNodes {source : View} : ∀ (nodes : List Node) {left : Option TaskMark},
    Node.Admitted source nodes → source.AdmitsLeft left →
    ∃ items loose left', Item.listOfNodes source left nodes = .ok (items, loose, left') ∧
    source.AdmitsLeft left'
  | [], left, h, hleft => ⟨[], false, left, by rw [Item.listOfNodes]; rfl, hleft⟩
  | .text _ :: nodes, left, h, hleft | .task _ _ :: nodes, left, h, hleft | .rule _ :: nodes,
      left, h, hleft => by
    rw [Item.listOfNodes]
    · exact Item.exists_listOfNodes nodes (Node.admitted_cons.1 h).2 hleft
    · exact nofun
  | .block tag span children :: nodes, left, h, hleft => by
    obtain ⟨hnode, hnodes⟩ := Node.admitted_cons.1 h
    by_cases htag : tag = .item
    · subst htag
      obtain ⟨hspan, hchildren⟩ := Node.admitted_children hnode
      obtain ⟨view, hview⟩ := hspan.exists_ofSpan
      obtain ⟨draft, hdraft, hleft'⟩ :=
        ItemDraft.exists_addNodes children hchildren (ItemDraft.ready_new source)
      obtain ⟨items, loose, left', hitems, hleft''⟩ := Item.exists_listOfNodes nodes hnodes hleft'
      refine ⟨draft.item view :: items, draft.hasParagraph || loose, left', ?_, hleft''⟩
      rw [Item.listOfNodes]
      exact (bind_of_eq_ok hview).trans ((bind_of_eq_ok hdraft).trans (bind_of_eq_ok hitems))
    · rw [Item.listOfNodes]
      · exact Item.exists_listOfNodes nodes hnodes hleft
      · rintro _ _ hitem
        cases hitem
        exact htag rfl

theorem ItemDraft.exists_addNodes {source : View} : ∀ (nodes : List Node) {d : ItemDraft},
    Node.Admitted source nodes → d.Ready source →
    ∃ d', ItemDraft.addNodes source d nodes = .ok d' ∧ source.AdmitsLeft d'.left
  | [], d, h, hd => by
    rw [ItemDraft.addNodes]
    obtain ⟨d', hf, hd'⟩ := hd.exists_flush
    exact ⟨d', hf, hd'.left⟩
  | node :: nodes, d, h, hd => by
    obtain ⟨hspans, hnodes⟩ := Node.admitted_cons.1 h
    obtain ⟨d', hd', hstep⟩ :=
      hd.exists_step hspans (fun _ => Block.exists_ofNode node hspans) nodes
    rw [hstep]
    exact ItemDraft.exists_addNodes nodes hnodes hd'

end

/-- What has all its spans in the source, between characters, can be built. -/
theorem Block.exists_listOfNodes {source : View} {nodes : List Node} {left : Option TaskMark}
    (h : Node.Admitted source nodes) (hleft : source.AdmitsLeft left) :
    ∃ blocks, Block.listOfNodes source left nodes = .ok blocks := by
  induction nodes generalizing left with
  | nil => exact ⟨[], rfl⟩
  | cons node nodes ih =>
    obtain ⟨hspans, hnodes⟩ := Node.admitted_cons.1 h
    cases node with
    | text | task => exact ih hnodes hleft
    | rule | block =>
      obtain ⟨block, left', hb, hleft'⟩ := Block.exists_ofNode _ hspans hleft
      obtain ⟨blocks, hblocks⟩ := ih hnodes hleft'
      refine ⟨block :: blocks, ?_⟩
      rw [Block.listOfNodes]
      · exact (bind_of_eq_ok hb).trans (bind_of_eq_ok hblocks)
      · exact nofun
      · exact nofun

end Taskdown
