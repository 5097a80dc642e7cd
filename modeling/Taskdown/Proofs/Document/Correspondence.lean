import Mathlib.Data.List.Forall2
import Mathlib.Data.List.TakeWhile
import Taskdown.Proofs.Document.Events
import Taskdown.Proofs.Document.Tasks

/-!
# The document of a structure

What the builder makes of a structure, without the builder: a block that is no list becomes one
block, a list becomes a list with an item for each of its items, and what is in an item is taken in
parts, where a part is a block, a rule, or as much text and inline containers as stand in a row
(`Node.Becomes`, `Node.BecomeItems`, `Node.BecomeParts`). Only the first part of an item may change
afterwards: a paragraph around the marker of a task loses everything up to the text behind the
marker (`Item.Keeps`).

The builder collects a run of text before it knows where the run ends, and so the induction over the
nodes of an item carries the run so far (`ItemDraft.Collects`).

* `ItemDraft.exists_parts`: the blocks of a draft are the parts of its nodes, the run so far
  included;
* `ItemDraft.task_of_addNodes`: which marker makes an item a task;
* `Block.readForest_becomes`: the events of a structure are read to the end, and the blocks
  correspond to its nodes one by one.
-/

namespace Taskdown

/-! ## Nodes of an item -/

namespace Node

/-- Is the node text, or an inline container? -/
def isInline : Node → Bool
  | .text _ => true
  | .block .inline _ _ => true
  | _ => false

/-- Is the node a block or a rule? -/
def isBlock : Node → Bool
  | .rule _ => true
  | .block _ _ _ => true
  | _ => false

/-- Is the node a paragraph? -/
def isParagraph : Node → Bool
  | .block .paragraph _ _ => true
  | _ => false

/-- Is the node an item with a paragraph directly in it? -/
def hasParagraph : Node → Bool
  | .block .item _ children => children.any isParagraph
  | _ => false

/-- The last task marker directly among nodes. -/
def ownTask? : List Node → Option TaskMark
  | [] => none
  | .task span done :: nodes => (ownTask? nodes).or (some ⟨span, done⟩)
  | _ :: nodes => ownTask? nodes

/-- The marker that is remembered behind the block that nodes start with, if they start with one. -/
def leadTask? : List Node → Option TaskMark
  | [] => none
  | node :: _ => if node.isContainer then node.leftAfter none else none

end Node

/-- The smallest span that holds all of some spans. -/
structure Span.IsHullOf (hull : Span) (spans : List Span) : Prop where
  start : ∃ span ∈ spans, span.start = hull.start
  stop : ∃ span ∈ spans, span.stop = hull.stop
  holds : ∀ span ∈ spans, hull.start ≤ span.start ∧ span.stop ≤ hull.stop

/-- What is left of a view behind a mark within it, without the blanks behind the mark. -/
structure View.LeftBehind (first mark kept : View) : Prop where
  source : kept.source = first.source
  sound : kept.Sound
  stop : kept.stop = first.stop
  mark_le : mark.stop ≤ kept.start
  blank : ∀ c ∈ Text.slice first.source.text mark.stop kept.start, c ∈ [' ', '\t', '\r', '\n']
  not_blank : ∀ c ∈ kept.text.head?, c ∉ [' ', '\t', '\r', '\n']

/-- The blocks of an item, made from its parts: a first paragraph around the marker of the task
    keeps what is behind the marker. -/
inductive Item.Keeps (task : Option Task) : List Block → List Block → Prop
  | behind {t : Task} {first kept : View} {rest : List Block} : task = some t →
      first.start ≤ t.view.start → t.view.stop ≤ first.stop → first.LeftBehind t.view kept →
      Keeps task (.paragraph first :: rest) (.paragraph kept :: rest)
  | all {parts : List Block} :
      (∀ t first rest, task = some t → parts = .paragraph first :: rest →
        ¬ (first.start ≤ t.view.start ∧ t.view.stop ≤ first.stop)) →
      Keeps task parts parts

/-! ## Blocks of nodes -/

/-- The block of a tag that is no list. -/
def Tag.leaf : Tag → View → Block
  | .paragraph => .paragraph
  | .heading => .heading
  | .code => .code
  | _ => .other

/-- The task of an item is made of the marker, if there is one. -/
abbrev IsTaskOf (source : View) : Option TaskMark → Option Task → Prop :=
  Option.Rel fun mark task => TaskMark.task source mark = .ok task

mutual

/-- The node becomes the block. -/
inductive Node.Becomes (source : View) : Node → Block → Prop
  | rule {span : Span} {view : View} : source.ofSpan span = .ok view →
      Becomes source (.rule span) (.other view)
  | leaf {tag : Tag} {span : Span} {view : View} (children : List Node) :
      (∀ start, tag ≠ .list start) → source.ofSpan span = .ok view →
      Becomes source (.block tag span children) (tag.leaf view)
  | list {start : Option Nat} {span : Span} {view : View} {children : List Node}
      {items : List Item} : source.ofSpan span = .ok view → BecomeItems source children items →
      Becomes source (.block (.list start) span children)
        (.list view start (children.any Node.hasParagraph) items)

/-- The nodes are items, and become the items of a list. -/
inductive Node.BecomeItems (source : View) : List Node → List Item → Prop
  | nil : BecomeItems source [] []
  | cons {span : Span} {view : View} {children nodes : List Node} {task : Option Task}
      {parts blocks : List Block} {items : List Item} : source.ofSpan span = .ok view →
      IsTaskOf source ((Node.ownTask? children).or (Node.leadTask? children)) task →
      BecomeParts source (children.filter (!·.isTaskMark)) parts → Item.Keeps task parts blocks →
      BecomeItems source nodes items →
      BecomeItems source (.block .item span children :: nodes)
        (⟨view, Item.markerOf view, task, Item.contentColumnOf (Item.markerOf view), blocks⟩ ::
          items)

/-- The nodes of an item, its task markers left out, become its parts. -/
inductive Node.BecomeParts (source : View) : List Node → List Block → Prop
  | nil : BecomeParts source [] []
  | block {node : Node} {nodes : List Node} {block : Block} {parts : List Block} :
      node.isInline = false → Becomes source node block → BecomeParts source nodes parts →
      BecomeParts source (node :: nodes) (block :: parts)
  | run {run nodes : List Node} {hull : Span} {view : View} {parts : List Block} : run ≠ [] →
      (∀ node ∈ run, node.isInline) → (∀ node ∈ nodes.head?, node.isInline = false) →
      hull.IsHullOf (run.map Node.span) → source.ofSpan hull = .ok view →
      BecomeParts source nodes parts → BecomeParts source (run ++ nodes) (.paragraph view :: parts)

end

/-! ## Runs of text -/

namespace Span.IsHullOf

variable {hull span : Span} {spans : List Span}

theorem singleton (span : Span) : span.IsHullOf [span] where
  start := ⟨span, List.mem_singleton_self _, rfl⟩
  stop := ⟨span, List.mem_singleton_self _, rfl⟩
  holds := List.forall_mem_singleton.2 ⟨Nat.le_refl _, Nat.le_refl _⟩

theorem append (h : hull.IsHullOf spans) (span : Span) :
    (hull.hull span).IsHullOf (spans ++ [span]) where
  start := by
    rcases Nat.le_total hull.start span.start with hle | hle
    · obtain ⟨s, hs, he⟩ := h.start
      exact ⟨s, List.mem_append_left _ hs, he.trans (Nat.min_eq_left hle).symm⟩
    · exact ⟨span, List.mem_append_right _ (List.mem_singleton_self _), (Nat.min_eq_right hle).symm⟩
  stop := by
    rcases Nat.le_total span.stop hull.stop with hle | hle
    · obtain ⟨s, hs, he⟩ := h.stop
      exact ⟨s, List.mem_append_left _ hs, he.trans (Nat.max_eq_left hle).symm⟩
    · exact ⟨span, List.mem_append_right _ (List.mem_singleton_self _), (Nat.max_eq_right hle).symm⟩
  holds := by
    refine List.forall_mem_append.2 ⟨fun s hs => ?_, List.forall_mem_singleton.2 ?_⟩
    · obtain ⟨hstart, hstop⟩ := h.holds s hs
      exact ⟨Nat.le_trans (Nat.min_le_left ..) hstart, Nat.le_trans hstop (Nat.le_max_left ..)⟩
    · exact ⟨Nat.min_le_right .., Nat.le_max_right ..⟩

end Span.IsHullOf

namespace ItemDraft

variable {source : View} {d d' : ItemDraft} {run : List Node}

/-- The draft has collected a run of text. -/
structure Collects (d : ItemDraft) (run : List Node) : Prop where
  inline : ∀ node ∈ run, node.isInline
  of_none : d.inlineSpan = none → run = []
  of_some : ∀ hull, d.inlineSpan = some hull → hull.IsHullOf (run.map Node.span)

theorem collects_nil (h : d.inlineSpan = none) : d.Collects [] where
  inline := List.forall_mem_nil _
  of_none _ := rfl
  of_some _ hsome := absurd (h.symm.trans hsome) (Option.some_ne_none _).symm

theorem Collects.addInline (h : d.Collects run) {node : Node} (hnode : node.isInline) :
    (d.addInline node.span).Collects (run ++ [node]) where
  inline := List.forall_mem_append.2 ⟨h.inline, List.forall_mem_singleton.2 hnode⟩
  of_none hnone := absurd hnone (Option.some_ne_none _)
  of_some hull hsome := by
    obtain rfl := Option.some.inj hsome
    rw [List.map_append, List.map_singleton]
    split
    · next s hs => exact (h.of_some s hs).append node.span
    · next hnone =>
      rw [h.of_none hnone]
      exact .singleton node.span

/-- The draft after its run has become a paragraph. -/
structure Flushes (source : View) (run : List Node) (d d' : ItemDraft) : Prop where
  inlineSpan : d'.inlineSpan = none
  task : d'.task = d.task
  left : d'.left = d.left
  hasParagraph : d'.hasParagraph = d.hasParagraph
  /-- In front of nodes that do not continue it, the run is a part of its own. -/
  parts : ∀ nodes parts, (∀ node ∈ nodes.head?, node.isInline = false) →
    Node.BecomeParts source nodes parts → ∃ parts', d'.children.reverse ++ parts =
      d.children.reverse ++ parts' ∧ Node.BecomeParts source (run ++ nodes) parts'

theorem Collects.flush (h : d.Collects run) (hflush : d.flush source = .ok d') :
    Flushes source run d d' := by
  rw [ItemDraft.flush] at hflush
  split at hflush
  · next hnone =>
    obtain rfl := Except.ok.inj hflush
    obtain rfl := h.of_none hnone
    exact ⟨hnone, rfl, rfl, rfl, fun nodes parts _ hparts => ⟨parts, rfl, hparts⟩⟩
  · next hull hsome =>
    obtain ⟨view, hview, hflush⟩ := bind_eq_ok_iff.1 hflush
    obtain rfl := Except.ok.inj hflush
    have hhull := h.of_some hull hsome
    refine ⟨rfl, rfl, rfl, rfl, fun nodes parts hnodes hparts => ⟨.paragraph view :: parts, ?_, ?_⟩⟩
    · rw [List.reverse_cons, List.append_assoc, List.singleton_append]
    · refine .run ?_ h.inline hnodes hhull hview hparts
      rintro rfl
      obtain ⟨_, hmem, -⟩ := hhull.start
      exact absurd hmem List.not_mem_nil

theorem rests_of_addBlock {block : Block} (h : d.addBlock source block = .ok d') :
    d'.inlineSpan = d.inlineSpan ∧ d'.hasParagraph = d.hasParagraph := by
  rw [ItemDraft.addBlock] at h
  split at h
  · obtain ⟨_, -, h⟩ := bind_eq_ok_iff.1 h
    obtain rfl := Except.ok.inj h
    exact ⟨rfl, rfl⟩
  · obtain rfl := Except.ok.inj h
    exact ⟨rfl, rfl⟩

/-! ## The task of an item -/

/-- The first block gives its item the marker that is remembered. -/
theorem isTaskOf_of_addBlock {block : Block} (htask : d.task = none) (hchildren : d.children = [])
    (hadd : d.addBlock source block = .ok d') : IsTaskOf source d.left d'.task := by
  rw [ItemDraft.addBlock, htask, hchildren] at hadd
  dsimp only at hadd
  split at hadd
  · next mark _ _ hleft =>
    obtain ⟨task, hmark, hadd⟩ := bind_eq_ok_iff.1 hadd
    obtain rfl := Except.ok.inj hadd
    rw [hleft]
    exact .some hmark
  · next hleft =>
    obtain rfl := Except.ok.inj hadd
    cases hd : d.left with
    | none => exact .none
    | some mark => exact absurd hd (hleft block mark rfl rfl)

/-- The draft has taken a marker directly in its item. -/
def TakesMark (source : View) (node : Node) (d' : ItemDraft) : Prop :=
  ∃ span done task, node = .task span done ∧ TaskMark.task source ⟨span, done⟩ = .ok task ∧
    d'.task = some task

/-- Once it is settled only a marker directly in the item changes its task. -/
theorem Adds.task_of_settled {node : Node} (hadds : Adds source node d d') (hd : d.Settled) :
    TakesMark source node d' ∨ node.isTaskMark = false ∧ d'.task = d.task := by
  cases hadds with
  | text | inline => exact .inr ⟨rfl, rfl⟩
  | task _ span done htask => exact .inl ⟨span, done, _, rfl, htask, rfl⟩
  | rule span hf =>
    obtain ⟨htask, -, -⟩ := frame_of_flush hf
    exact .inr ⟨rfl, htask⟩
  | block span children ht hf hb ha =>
    obtain ⟨htask, -, -⟩ := frame_of_flush hf
    have hsettled := hd.flush hf
    obtain ⟨hadded, -⟩ := frame_of_addBlock ha hsettled
    exact .inr ⟨rfl, hadded.trans htask⟩

/-- The first node may be a block, which gives its item the marker that is remembered behind it. -/
theorem Adds.task_of_new {node : Node} (hadds : Adds source node {} d') (nodes : List Node) :
    TakesMark source node d' ∨ node.isTaskMark = false ∧
    IsTaskOf source (Node.leadTask? (node :: nodes)) d'.task := by
  cases hadds with
  | text | inline => exact .inr ⟨rfl, .none⟩
  | task _ span done htask => exact .inl ⟨span, done, _, rfl, htask, rfl⟩
  | rule span hf =>
    obtain rfl := Except.ok.inj hf
    exact .inr ⟨rfl, .none⟩
  | @block _ _ _ tag span children block left ht hf hb ha =>
    obtain rfl := Except.ok.inj hf
    have hcontainer : (Node.block tag span children).isContainer = true := decide_eq_true ht
    refine .inr ⟨rfl, ?_⟩
    rw [Node.leadTask?, if_pos hcontainer, ← (Node.builds _ hb).1]
    exact isTaskOf_of_addBlock rfl rfl ha

end ItemDraft

theorem Node.ownTask?_cons_of_not {node : Node} {nodes : List Node} (h : node.isTaskMark = false) :
    ownTask? (node :: nodes) = ownTask? nodes := by
  cases node with
  | task => cases h
  | text | rule | block => rw [ownTask?]; exact nofun

namespace ItemDraft

variable {source : View} {d d' : ItemDraft} {mark? : Option TaskMark}

theorem Settled.task_of_addNodes (h : d.Settled) {nodes : List Node}
    (hd : IsTaskOf source mark? d.task) (hadd : addNodes source d nodes = .ok d') :
    IsTaskOf source ((Node.ownTask? nodes).or mark?) d'.task := by
  induction nodes generalizing d mark? with
  | nil =>
    rw [addNodes] at hadd
    rwa [Node.ownTask?, Option.none_or, (frame_of_flush hadd).1]
  | cons node nodes ih =>
    obtain ⟨d₁, hadds, hrest⟩ := addNodes_cons hadd
    obtain ⟨span, done, task, rfl, htask, hd₁⟩ | ⟨hnode, hd₁⟩ := hadds.task_of_settled h
    · rw [Node.ownTask?, Option.or_assoc, Option.some_or]
      exact ih hadds.settled (hd₁ ▸ .some htask) hrest
    · rw [Node.ownTask?_cons_of_not hnode]
      exact ih hadds.settled (hd₁ ▸ hd) hrest

/-- An item is a task by the last marker directly in it. Without one it is a task by the marker that
    is remembered behind the block that it starts with. -/
theorem task_of_addNodes {nodes : List Node} (hadd : addNodes source {} nodes = .ok d') :
    IsTaskOf source ((Node.ownTask? nodes).or (Node.leadTask? nodes)) d'.task := by
  cases nodes with
  | nil =>
    rw [addNodes] at hadd
    obtain rfl := Except.ok.inj hadd
    exact .none
  | cons node nodes =>
    obtain ⟨d₁, hadds, hrest⟩ := addNodes_cons hadd
    obtain ⟨span, done, task, rfl, htask, hd₁⟩ | ⟨hnode, hd₁⟩ := hadds.task_of_new nodes
    · rw [Node.ownTask?, Option.or_assoc, Option.some_or]
      exact hadds.settled.task_of_addNodes (hd₁ ▸ .some htask) hrest
    · rw [Node.ownTask?_cons_of_not hnode]
      exact hadds.settled.task_of_addNodes hd₁ hrest

theorem flush_hasParagraph (hflush : d.flush source = .ok d') :
    d'.hasParagraph = d.hasParagraph := by
  rw [ItemDraft.flush] at hflush
  split at hflush
  · rw [← Except.ok.inj hflush]
  · obtain ⟨view, -, hflush⟩ := bind_eq_ok_iff.1 hflush
    rw [← Except.ok.inj hflush]

theorem Adds.hasParagraph {node : Node} (hadds : Adds source node d d') :
    d'.hasParagraph = (d.hasParagraph || node.isParagraph) := by
  cases hadds with
  | text | task | inline => exact (Bool.or_false _).symm
  | rule span hf hv => exact (flush_hasParagraph hf).trans (Bool.or_false _).symm
  | @block _ _ _ tag span children block left ht hf hb ha =>
    obtain ⟨-, hadded⟩ := rests_of_addBlock ha
    rw [hadded, ← flush_hasParagraph hf]
    cases tag <;> rfl

/-- A draft has a paragraph if one of its nodes is a paragraph. -/
theorem hasParagraph_of_addNodes {nodes : List Node} (hadd : addNodes source d nodes = .ok d') :
    d'.hasParagraph = (d.hasParagraph || nodes.any Node.isParagraph) := by
  induction nodes generalizing d with
  | nil =>
    rw [addNodes] at hadd
    rw [flush_hasParagraph hadd, List.any_nil, Bool.or_false]
  | cons node nodes ih =>
    obtain ⟨d₁, hadds, hrest⟩ := addNodes_cons hadd
    rw [ih hrest, hadds.hasParagraph, List.any_cons, Bool.or_assoc]

end ItemDraft

/-! ## What is kept of the first part -/

theorem Text.isTrimmed_iff {c : Char} : Text.isTrimmed c ↔ c ∈ [' ', '\t', '\r', '\n'] := by
  simp [Text.isTrimmed, Text.isSpaceTab, Text.isLineEnd, or_assoc]

theorem Span.after_of_containsAll {s t : Span} (h : s.containsAll t) (ht : t.start ≤ t.stop) :
    s.after t = ⟨t.stop, s.stop⟩ := by
  simp only [containsAll, Bool.and_eq_true, decide_eq_true_eq] at h
  rw [after]
  split
  · rw [atStop, Nat.le_antisymm h.2 ‹_›]
  · rw [Nat.max_eq_right (Nat.le_trans h.1 ht)]

/-- What follows a mark within a view is kept of it, once the blanks are trimmed. -/
theorem View.leftBehind_trimStart {s : Source} {first mark : View} (hfirst : first.Within s)
    (hmark : mark.Within s) (h : first.span.containsAll mark.span) :
    first.LeftBehind mark (first.withSpan (first.span.after mark.span)).trimStart := by
  obtain ⟨before, cs, behind, hshows⟩ := (hfirst.after hmark).sound
  have hspan := Span.after_of_containsAll h (View.sound_iff.1 hmark.sound).1
  have htrim := hshows.trimStart
  have hstart : mark.stop = Text.width before := by
    rw [← hshows.start, hspan]
    rfl
  refine ⟨rfl, htrim.sound, ?_, ?_, fun c hc => ?_, fun c hc => ?_⟩
  · rw [hspan]
    rfl
  · rw [htrim.start, hstart, Text.width_append]
    exact Nat.le_add_right _ _
  · have hsource : first.source.text = _ := htrim.source
    rw [htrim.start, hstart, hsource, Text.width_append, List.append_assoc,
      Text.slice_append_append] at hc
    exact Text.isTrimmed_iff.1 (List.mem_takeWhile_imp hc)
  · rw [htrim.text_eq] at hc
    have hhead := List.head?_dropWhile_not Text.isTrimmed cs
    rw [Option.mem_def.1 hc] at hhead
    exact fun hmem => Bool.eq_false_iff.1 hhead (Text.isTrimmed_iff.2 hmem)

namespace ItemDraft

variable {source : View} {d d' : ItemDraft}

/-- The blocks of an item are those of its draft, but for what the first one keeps. -/
theorem Within.keeps {s : Source} (hd : d.Within s) (view : View) :
    Item.Keeps d.task d.children.reverse (d.item view).children := by
  rw [ItemDraft.item]
  dsimp only
  split
  · next task first rest htask hrest =>
    rw [htask, hrest]
    split
    · next h =>
      have hfirst :=
        hd.children (.paragraph first) (List.mem_reverse.1 (hrest ▸ List.mem_cons_self)) first
          (List.mem_singleton_self _)
      have hle : _ ∧ _ := (Bool.and_eq_true_iff.1 h).imp of_decide_eq_true of_decide_eq_true
      exact .behind rfl hle.1 hle.2 (View.leftBehind_trimStart hfirst (hd.task task htask) h)
    · next h =>
      refine .all fun t first' rest' ht hparts hle => h ?_
      obtain rfl := Option.some.inj ht
      obtain rfl := Block.paragraph.inj (List.cons.inj hparts).1
      exact Bool.and_eq_true_iff.2 (hle.imp decide_eq_true decide_eq_true)
  · next hnot =>
    refine .all fun t first rest ht hparts => ?_
    exact absurd hparts (hnot t first rest ht)

end ItemDraft

namespace ItemDraft

variable {source : View} {d d' : ItemDraft} {run : List Node}

/-- A node continues the run, or ends it, or is a task marker. Whatever the parts of the run and the
    nodes behind it are, they follow the blocks so far. -/
theorem Adds.exists_parts {node : Node} (hadds : Adds source node d d') (hd : d.Collects run)
    (hnode : ∀ left block left', node.isBlock → Block.ofNode source left node = .ok (block, left') →
      Node.Becomes source node block) :
    ∃ run', d'.Collects run' ∧ ∀ nodes parts, Node.BecomeParts source (run' ++ nodes) parts →
      ∃ parts', d'.children.reverse ++ parts = d.children.reverse ++ parts' ∧
        Node.BecomeParts source (run ++ ([node].filter (!·.isTaskMark) ++ nodes)) parts' := by
  cases hadds with
  | @text _ span =>
    refine ⟨run ++ [Node.text span], hd.addInline (show (Node.text span).isInline from rfl),
      fun nodes parts hparts => ⟨parts, rfl, ?_⟩⟩
    rwa [List.append_assoc] at hparts
  | task _ span done htask =>
    exact ⟨run, ⟨hd.inline, hd.of_none, hd.of_some⟩, fun nodes parts hparts => ⟨parts, rfl, hparts⟩⟩
  | @inline _ span children =>
    have hadd := hd.addInline (show (Node.block .inline span children).isInline from rfl)
    refine ⟨run ++ [Node.block .inline span children], ⟨hadd.inline, hadd.of_none, hadd.of_some⟩,
      fun nodes parts hparts => ⟨parts, rfl, ?_⟩⟩
    rwa [List.append_assoc] at hparts
  | @rule _ flushed span view hf hv =>
    have hflush := hd.flush hf
    refine ⟨[], collects_nil hflush.inlineSpan, fun nodes parts hparts => ?_⟩
    obtain ⟨parts', hparts', hbecome⟩ := hflush.parts (.rule span :: nodes) (.other view :: parts)
      (fun _ h => Option.some.inj h ▸ rfl) (.block rfl (.rule hv) hparts)
    refine ⟨parts', ?_, hbecome⟩
    rw [List.reverse_cons, List.append_assoc]
    exact hparts'
  | @block _ flushed added tag span children block left ht hf hb ha =>
    have hflush := hd.flush hf
    obtain ⟨hinline, -⟩ := rests_of_addBlock ha
    have hnotInline : (Node.block tag span children).isInline = false := by
      cases tag with
      | inline => exact absurd rfl ht
      | _ => rfl
    refine ⟨[], collects_nil (hinline.trans hflush.inlineSpan), fun nodes parts hparts => ?_⟩
    obtain ⟨parts', hparts', hbecome⟩ :=
      hflush.parts (.block tag span children :: nodes) (block :: parts)
        (fun _ h => Option.some.inj h ▸ hnotInline) (.block hnotInline (hnode _ _ _ rfl hb) hparts)
    refine ⟨parts', ?_, hbecome⟩
    rw [children_of_addBlock ha, List.reverse_cons, List.append_assoc]
    exact hparts'

end ItemDraft

/-! ## Builder and correspondence -/

instance (source : View) (span : Span) : Decidable (source.Admits span) :=
  decidable_of_iff (span.start ≤ span.stop ∧ span.stop ≤ source.length ∧
      Text.isBoundary source.source.text (source.start + span.start) ∧
      Text.isBoundary source.source.text (source.start + span.stop))
    ⟨fun ⟨hle, hstop, h, h'⟩ => ⟨hle, hstop, h, h'⟩, fun h => ⟨h.le, h.stop_le, h.start, h.stop⟩⟩

mutual

theorem Node.becomes_of_ofNode {source : View} :
    ∀ (node : Node) {left left' : Option TaskMark} {block : Block}, node.Nests → node.isBlock →
    Block.ofNode source left node = .ok (block, left') → Node.Becomes source node block
  | .text _, left, left', block, hnests, hblock, h | .task _ _, left, left', block, hnests, hblock,
      h => by cases hblock
  | .rule span, left, left', block, hnests, hblock, h => by
    rw [Block.ofNode] at h
    obtain ⟨view, hview, h⟩ := bind_eq_ok_iff.1 h
    obtain ⟨rfl, -⟩ := Prod.mk.inj (Except.ok.inj h)
    exact .rule hview
  | .block tag span children, left, left', block, hnests, hblock, h => by
    rw [Block.ofNode] at h
    obtain ⟨view, hview, h⟩ := bind_eq_ok_iff.1 h
    cases tag with
    | list start =>
      obtain ⟨⟨items, loose, left''⟩, hitems, h⟩ := bind_eq_ok_iff.1 h
      obtain ⟨rfl, -⟩ := Prod.mk.inj (Except.ok.inj h)
      obtain ⟨hbecome, rfl⟩ := Node.becomeItems_of_listOfNodes children hnests hitems
      exact .list hview hbecome
    | paragraph | heading | code | item | other | inline =>
      obtain ⟨rfl, -⟩ := Prod.mk.inj (Except.ok.inj h)
      exact .leaf children nofun hview

theorem Node.becomeItems_of_listOfNodes {source : View} :
    ∀ (nodes : List Node) {left left' : Option TaskMark} {items : List Item} {loose : Bool},
    Node.NestsItems nodes → Item.listOfNodes source left nodes = .ok (items, loose, left') →
    Node.BecomeItems source nodes items ∧ loose = nodes.any Node.hasParagraph
  | [], left, left', items, loose, hnests, h => by
    rw [Item.listOfNodes] at h
    obtain ⟨rfl, rfl, -⟩ := Prod.mk.injEq .. ▸ Prod.mk.injEq .. ▸ Except.ok.inj h
    exact ⟨.nil, rfl⟩
  | .block .item span children :: nodes, left, left', items, loose, hnests, h => by
    obtain ⟨hchildren, hnodes⟩ := hnests
    obtain ⟨view, draft, items', loose', hview, hdraft, hitems, rfl, rfl⟩ :=
      Item.exists_draft_of_listOfNodes h
    obtain ⟨hbecome, rfl⟩ := Node.becomeItems_of_listOfNodes nodes hnodes hitems
    obtain ⟨parts, hparts, hbecomeParts⟩ :=
      ItemDraft.exists_parts children hchildren (ItemDraft.collects_nil rfl) hdraft
    have hwithin := ItemDraft.within_of_addNodes children (ItemDraft.within_new _) hdraft
    refine ⟨.cons hview (ItemDraft.task_of_addNodes hdraft) hbecomeParts ?_ hbecome, ?_⟩
    · have := hwithin.keeps view
      rw [hparts] at this
      exact this
    · rw [ItemDraft.hasParagraph_of_addNodes hdraft]
      rfl

/-- The blocks of a draft are the parts of its nodes, the run that it has collected before
    included. -/
theorem ItemDraft.exists_parts {source : View} :
    ∀ (nodes : List Node) {d d' : ItemDraft} {run : List Node}, Node.NestsAll nodes →
    d.Collects run → ItemDraft.addNodes source d nodes = .ok d' →
    ∃ parts, d'.children.reverse = d.children.reverse ++ parts ∧
      Node.BecomeParts source (run ++ nodes.filter (!·.isTaskMark)) parts
  | [], d, d', run, hnests, hd, h => by
    rw [ItemDraft.addNodes] at h
    obtain ⟨parts, hparts, hbecome⟩ := (hd.flush h).parts [] [] nofun .nil
    exact ⟨parts, (List.append_nil _).symm.trans hparts, hbecome⟩
  | node :: nodes, d, d', run, hnests, hd, h => by
    obtain ⟨hnode, hnodes⟩ := hnests
    obtain ⟨d₁, hadds, hrest⟩ := ItemDraft.addNodes_cons h
    obtain ⟨run', hd₁, hstep⟩ :=
      hadds.exists_parts hd fun _ _ _ hblock => Node.becomes_of_ofNode node hnode hblock
    obtain ⟨parts, hparts, hbecome⟩ := ItemDraft.exists_parts nodes hnodes hd₁ hrest
    obtain ⟨parts', hparts', hbecome'⟩ := hstep _ _ hbecome
    rw [← List.filter_append, List.singleton_append] at hbecome'
    exact ⟨parts', hparts.trans hparts', hbecome'⟩

end

/-- What stands outside of all blocks and is no block is passed over. -/
theorem Node.forall₂_becomes {source : View} {forest : List Node} {left : Option TaskMark}
    {blocks : List Block} (hnests : Node.NestsAll forest)
    (h : Block.listOfNodes source left forest = .ok blocks) :
    List.Forall₂ (Node.Becomes source) (forest.filter Node.isBlock) blocks := by
  induction forest generalizing left blocks with
  | nil =>
    obtain rfl := Except.ok.inj h
    exact .nil
  | cons node nodes ih =>
    obtain ⟨hnode, hnodes⟩ := hnests
    cases node with
    | text | task => exact ih hnodes h
    | rule | block =>
      obtain ⟨⟨block, left'⟩, hblock, h⟩ := bind_eq_ok_iff.1 h
      obtain ⟨blocks', hrest, h⟩ := bind_eq_ok_iff.1 h
      obtain rfl := Except.ok.inj h
      exact .cons (Node.becomes_of_ofNode _ hnode rfl hblock) (ih hnodes hrest)

/-- The events of any structure that nests, and whose spans can be viewed, are read to the end. The
    reader makes the document that the builder makes, and it has one block for every block and rule
    of the structure, in order. -/
theorem Block.readForest_becomes {source : View} {forest : List Node}
    (hnests : Node.NestsAll forest) (hadmitted : Node.Admitted source forest) :
    ∃ blocks, Block.listOfNodes source none forest = .ok blocks ∧
      (∀ fuel, (Node.eventsOf forest).length ≤ fuel →
        Block.readForest source fuel none (Node.eventsOf forest) = .ok (blocks, [])) ∧
      List.Forall₂ (Node.Becomes source) (forest.filter Node.isBlock) blocks := by
  obtain ⟨blocks, h⟩ := @Block.exists_listOfNodes source forest none hadmitted nofun
  exact ⟨blocks, h, fun fuel hfuel => Block.readForest_eq hnests h hfuel,
    Node.forall₂_becomes hnests h⟩

/-- A list in the item of a task, and a rule behind it. -/
theorem Block.readForest_becomes_of_nested :
    let source := View.of ⟨0, "- [ ] a\n  - b\n***\n".toList⟩
    let forest : List Node := [
      .block (.list none) ⟨0, 14⟩ [.block .item ⟨0, 14⟩ [.task ⟨2, 5⟩ false, .text ⟨6, 7⟩,
        .block (.list none) ⟨10, 14⟩ [.block .item ⟨10, 14⟩ [.text ⟨12, 13⟩]]]],
      .rule ⟨14, 18⟩]
    Node.NestsAll forest ∧ Node.Admitted source forest ∧
      ∃ blocks, Block.listOfNodes source none forest = .ok blocks ∧
        (∀ fuel, (Node.eventsOf forest).length ≤ fuel →
          Block.readForest source fuel none (Node.eventsOf forest) = .ok (blocks, [])) ∧
        List.Forall₂ (Node.Becomes source) (forest.filter Node.isBlock) blocks := by
  intro source forest
  have hnests : Node.NestsAll forest := by simp [forest, Node.NestsAll, Node.Nests, Node.NestsItems]
  have hadmitted : Node.Admitted source forest := by
    unfold Node.Admitted
    decide
  exact ⟨hnests, hadmitted, Block.readForest_becomes hnests hadmitted⟩

end Taskdown
