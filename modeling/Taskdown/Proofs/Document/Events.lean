import Taskdown.Proofs.Document.Building

/-!
# Reading a document from events

A structure can be told as a sequence of *events*: every block starts and ends, and what is in it
comes between. A reader of events has nothing but the events to come. It goes down into a list or an
item by itself, skips any other block by counting, and leaves to its caller what comes behind the
end of what it has read; all of its parts share one sequence.

On the events of a structure whose lists hold items only, the reader does what the builder does on
the structure: it consumes every event once, and every part of it stops at the end of the node that
it was called for.

* `Event.skip_eventsOf`: skipping stops at the end of the block, and remembers the first marker in
  it;
* `Block.read_eq`, `Item.readList_eq`, `ItemDraft.readNodes_eq`: the parts of the reader agree with
  those of the builder, whatever events come behind;
* `Block.readForest_eq`: of the events of a structure nothing is left.
-/

namespace Taskdown

/-- A step of a walk over a structure. -/
inductive Event where
  /-- A block or an inline container starts. -/
  | start (tag : Tag) (span : Span)
  /-- The block or inline container that started last, and has not ended, ends. -/
  | stop (tag : Tag)
  | text (span : Span)
  | task (span : Span) (done : Bool)
  | rule (span : Span)
deriving DecidableEq, Repr

mutual

/-- The events of a node. -/
def Node.events : Node → List Event
  | .text span => [.text span]
  | .task span done => [.task span done]
  | .rule span => [.rule span]
  | .block tag span children => .start tag span :: (Node.eventsOf children ++ [.stop tag])

/-- The events of nodes, one after the other. -/
def Node.eventsOf : List Node → List Event
  | [] => []
  | node :: nodes => node.events ++ Node.eventsOf nodes

end

/-! ## Reading -/

/-- Consumes events up to the end of the block that was started last, in which `depth` others are
    open. What comes behind it is left, and the first task marker is remembered. -/
def Event.skip (left : Option TaskMark) : Nat → List Event → Option TaskMark × List Event
  | _, [] => (left, [])
  | depth, .start _ _ :: events => skip left (depth + 1) events
  | 0, .stop _ :: events => (left, events)
  | depth + 1, .stop _ :: events => skip left depth events
  | depth, .task span done :: events => skip (left.or (some ⟨span, done⟩)) depth events
  | depth, .text _ :: events => skip left depth events
  | depth, .rule _ :: events => skip left depth events

mutual

/-- Reads a block that has been started: the block, the marker that is remembered behind it, and the
    events to come. At most `fuel` of the events are looked at one by one. -/
def Block.read (source : View) (fuel : Nat) (left : Option TaskMark) (tag : Tag) (span : Span)
    (events : List Event) : Except Error (Block × Option TaskMark × List Event) := do
  let view ← source.ofSpan span
  match tag with
  | .list start =>
    let (items, loose, left, events) ← Item.readList source fuel left events
    return (.list view start loose items, left, events)
  | .paragraph => return (.paragraph view, Event.skip left 0 events)
  | .heading => return (.heading view, Event.skip left 0 events)
  | .code => return (.code view, Event.skip left 0 events)
  | _ => return (.other view, Event.skip left 0 events)
termination_by (fuel, 1)

/-- Reads the items of a list up to its end. -/
def Item.readList (source : View) (fuel : Nat) (left : Option TaskMark) (events : List Event) :
    Except Error (List Item × Bool × Option TaskMark × List Event) :=
  match fuel, events with
  | _, [] => return ([], false, left, [])
  | 0, events => return ([], false, left, events)
  | fuel + 1, event :: events => do
    match event with
    | .start .item span =>
      let view ← source.ofSpan span
      let (draft, events) ← ItemDraft.readNodes source fuel {} events
      let (items, loose, left, events) ← Item.readList source fuel draft.left events
      return (draft.item view :: items, draft.hasParagraph || loose, left, events)
    | .stop (.list _) => return ([], false, left, events)
    | _ => Item.readList source fuel left events
termination_by (fuel, 0)

/-- Reads an item up to its end. -/
def ItemDraft.readNodes (source : View) (fuel : Nat) (d : ItemDraft) (events : List Event) :
    Except Error (ItemDraft × List Event) :=
  match fuel, events with
  | _, [] => return (← d.flush source, [])
  | 0, events => return (← d.flush source, events)
  | fuel + 1, event :: events => do
    match event with
    | .stop .item => return (← d.flush source, events)
    | .stop _ => ItemDraft.readNodes source fuel d events
    | .text span => ItemDraft.readNodes source fuel (d.addInline span) events
    | .task span done =>
      let task ← TaskMark.task source ⟨span, done⟩
      ItemDraft.readNodes source fuel { d with task := some task } events
    | .rule span =>
      let d ← d.flush source
      let d := { d with children := .other (← source.ofSpan span) :: d.children }
      ItemDraft.readNodes source fuel d events
    | .start tag span =>
      if tag = .inline then
        let d := d.addInline span
        let (left, events) := Event.skip d.left 0 events
        ItemDraft.readNodes source fuel { d with left } events
      else
        let d ← d.flush source
        let (block, left, events) ← Block.read source fuel d.left tag span events
        let d := { d with hasParagraph := d.hasParagraph || tag = Tag.paragraph, left }
        ItemDraft.readNodes source fuel (← d.addBlock source block) events
termination_by (fuel, 0)

end

/-- Reads all blocks. -/
def Block.readForest (source : View) :
    Nat → Option TaskMark → List Event → Except Error (List Block × List Event)
  | _, _, [] => return ([], [])
  | 0, _, events => return ([], events)
  | fuel + 1, left, event :: events => do
    match event with
    | .start tag span =>
      let (block, left, events) ← Block.read source fuel left tag span events
      let (blocks, events) ← Block.readForest source fuel left events
      return (block :: blocks, events)
    | .rule span =>
      let view ← source.ofSpan span
      let (blocks, events) ← Block.readForest source fuel left events
      return (.other view :: blocks, events)
    | _ => Block.readForest source fuel left events

/-! ## Structures that can be read -/

mutual

/-- Do the lists at the node and in the items below it hold items only? -/
def Node.Nests : Node → Prop
  | .block (.list _) _ children => Node.NestsItems children
  | _ => True

/-- Are the nodes items, below which lists hold items only? -/
def Node.NestsItems : List Node → Prop
  | [] => True
  | .block .item _ children :: nodes => Node.NestsAll children ∧ Node.NestsItems nodes
  | _ :: _ => False

/-- Do the lists at the nodes and in the items below them hold items only? -/
def Node.NestsAll : List Node → Prop
  | [] => True
  | node :: nodes => node.Nests ∧ Node.NestsAll nodes

end

/-! ## Skipping -/

mutual

theorem Event.skip_events :
    ∀ (node : Node) (left : Option TaskMark) (depth : Nat) (rest : List Event),
    Event.skip left depth (node.events ++ rest) = Event.skip (left.or node.firstTask?) depth rest
  | .text _, left, depth, rest | .rule _, left, depth, rest => by
    rw [Node.events, Node.firstTask?, Option.or_none, List.singleton_append, Event.skip]
  | .task span done, left, depth, rest => by
    rw [Node.events, Node.firstTask?, List.singleton_append, Event.skip]
  | .block tag span children, left, depth, rest => by
    rw [Node.events, Node.firstTask?, List.cons_append, List.append_assoc, List.singleton_append,
      Event.skip, Event.skip_eventsOf_append children, Event.skip]

theorem Event.skip_eventsOf_append :
    ∀ (nodes : List Node) (left : Option TaskMark) (depth : Nat) (rest : List Event),
    Event.skip left depth (Node.eventsOf nodes ++ rest) =
    Event.skip (left.or (Node.firstTaskOf? nodes)) depth rest
  | [], left, depth, rest => by
    rw [Node.eventsOf, Node.firstTaskOf?, Option.or_none, List.nil_append]
  | node :: nodes, left, depth, rest => by
    rw [Node.eventsOf, Node.firstTaskOf?, List.append_assoc, Event.skip_events node,
      Event.skip_eventsOf_append nodes, Option.or_assoc]

end

/-- Skipping stops at the end of the block. -/
theorem Event.skip_eventsOf (nodes : List Node) (left : Option TaskMark) (tag : Tag)
    (rest : List Event) :
    Event.skip left 0 (Node.eventsOf nodes ++ .stop tag :: rest) =
    (left.or (Node.firstTaskOf? nodes), rest) := by
  rw [Event.skip_eventsOf_append, Event.skip]

/-! ## Reader and builder agree -/

mutual

theorem Block.read_eq {source : View} : ∀ (tag : Tag) (span : Span) (children : List Node)
    {left left' : Option TaskMark} {block : Block} {fuel : Nat} (rest : List Event),
    (Node.block tag span children).Nests →
    Block.ofNode source left (.block tag span children) = .ok (block, left') →
    (Node.eventsOf children).length < fuel →
    Block.read source fuel left tag span (Node.eventsOf children ++ .stop tag :: rest) =
    .ok (block, left', rest)
  | tag, span, children, left, left', block, fuel, rest, hnests, h, hfuel => by
    rw [Block.ofNode] at h
    obtain ⟨view, hview, h⟩ := bind_eq_ok_iff.1 h
    rw [Block.read, bind_of_eq_ok hview]
    cases tag with
    | list start =>
      obtain ⟨⟨items, loose, left''⟩, hitems, h⟩ := bind_eq_ok_iff.1 h
      obtain ⟨rfl, rfl⟩ := Prod.mk.injEq .. ▸ Except.ok.inj h
      exact bind_of_eq_ok (Item.readList_eq children start rest hnests hitems hfuel)
    | paragraph | heading | code | item | other | inline =>
      obtain ⟨rfl, rfl⟩ := Prod.mk.injEq .. ▸ Except.ok.inj h
      dsimp only
      rw [Event.skip_eventsOf]
      rfl
termination_by _ _ _ _ _ _ fuel => (fuel, 1)

theorem Item.readList_eq {source : View} : ∀ (nodes : List Node) (start : Option Nat)
    {left left' : Option TaskMark} {items : List Item} {loose : Bool} {fuel : Nat}
    (rest : List Event), Node.NestsItems nodes → Item.listOfNodes source left nodes =
    .ok (items, loose, left') → (Node.eventsOf nodes).length < fuel →
    Item.readList source fuel left (Node.eventsOf nodes ++ .stop (.list start) :: rest) =
      .ok (items, loose, left', rest)
  | _, _, _, _, _, _, 0, _, _, _, hfuel => absurd hfuel (Nat.not_lt_zero _)
  | [], start, left, left', items, loose, fuel + 1, rest, hnests, h, hfuel => by
    rw [Item.listOfNodes] at h
    rw [Node.eventsOf, List.nil_append, Item.readList]
    obtain ⟨rfl, rfl, rfl⟩ := Prod.mk.injEq .. ▸ Prod.mk.injEq .. ▸ Except.ok.inj h
    rfl
  | .block .item span children :: nodes, start, left, left', items, loose, fuel + 1, rest,
      hnests, h, hfuel => by
    obtain ⟨hchildren, hnodes⟩ := hnests
    obtain ⟨view, draft, items', loose', hview, hdraft, hitems, rfl, rfl⟩ :=
      Item.exists_draft_of_listOfNodes h
    simp only [Node.eventsOf, Node.events, List.length_append, List.length_cons, List.length_nil]
      at hfuel
    simp only [Node.eventsOf, Node.events, List.cons_append, List.append_assoc, List.nil_append]
    have hlengths : (Node.eventsOf children).length < fuel ∧
      (Node.eventsOf nodes).length < fuel := by omega
    have hread :=
      ItemDraft.readNodes_eq children (Node.eventsOf nodes ++ .stop (.list start) :: rest)
        hchildren hdraft hlengths.1
    have hrest := Item.readList_eq nodes start rest hnodes hitems hlengths.2
    rw [Item.readList]
    exact (bind_of_eq_ok hview).trans ((bind_of_eq_ok hread).trans (bind_of_eq_ok hrest))
termination_by _ _ _ _ _ _ fuel => (fuel, 0)

theorem ItemDraft.readNodes_eq {source : View} : ∀ (nodes : List Node)
    {d d' : ItemDraft} {fuel : Nat} (rest : List Event),
    Node.NestsAll nodes → ItemDraft.addNodes source d nodes = .ok d' →
    (Node.eventsOf nodes).length < fuel →
    ItemDraft.readNodes source fuel d (Node.eventsOf nodes ++ .stop .item :: rest) = .ok (d', rest)
  | _, _, _, 0, _, _, _, hfuel => absurd hfuel (Nat.not_lt_zero _)
  | [], d, d', fuel + 1, rest, hnests, h, hfuel => by
    rw [ItemDraft.addNodes] at h
    rw [Node.eventsOf, List.nil_append, ItemDraft.readNodes]
    exact bind_of_eq_ok h
  | .text span :: nodes, d, d', fuel + 1, rest, hnests, h, hfuel => by
    rw [ItemDraft.addNodes] at h
    simp only [Node.eventsOf, Node.events, List.length_append, List.length_cons, List.length_nil]
      at hfuel
    rw [Node.eventsOf, Node.events, List.append_assoc, List.singleton_append, ItemDraft.readNodes]
    exact ItemDraft.readNodes_eq nodes rest hnests.2 h (by omega)
  | .task span done :: nodes, d, d', fuel + 1, rest, hnests, h, hfuel => by
    rw [ItemDraft.addNodes] at h
    obtain ⟨task, htask, h⟩ := bind_eq_ok_iff.1 h
    simp only [Node.eventsOf, Node.events, List.length_append, List.length_cons, List.length_nil]
      at hfuel
    rw [Node.eventsOf, Node.events, List.append_assoc, List.singleton_append, ItemDraft.readNodes]
    exact (bind_of_eq_ok htask).trans (ItemDraft.readNodes_eq nodes rest hnests.2 h (by omega))
  | .rule span :: nodes, d, d', fuel + 1, rest, hnests, h, hfuel => by
    rw [ItemDraft.addNodes] at h
    obtain ⟨flushed, hflushed, h⟩ := bind_eq_ok_iff.1 h
    obtain ⟨view, hview, h⟩ := bind_eq_ok_iff.1 h
    simp only [Node.eventsOf, Node.events, List.length_append, List.length_cons, List.length_nil]
      at hfuel
    rw [Node.eventsOf, Node.events, List.append_assoc, List.singleton_append, ItemDraft.readNodes]
    exact (bind_of_eq_ok hflushed).trans ((bind_of_eq_ok hview).trans
      (ItemDraft.readNodes_eq nodes rest hnests.2 h (by omega)))
  | .block tag span children :: nodes, d, d', fuel + 1, rest, hnests, h, hfuel => by
    rw [ItemDraft.addNodes] at h
    simp only [Node.eventsOf, Node.events, List.length_append, List.length_cons, List.length_nil]
      at hfuel
    simp only [Node.eventsOf, Node.events, List.cons_append, List.append_assoc, List.nil_append]
    rw [ItemDraft.readNodes]
    by_cases htag : tag = .inline
    · rw [if_pos htag] at h ⊢
      dsimp only
      rw [Event.skip_eventsOf]
      exact ItemDraft.readNodes_eq nodes rest hnests.2 h (by omega)
    · rw [if_neg htag] at h ⊢
      obtain ⟨flushed, hflushed, h⟩ := bind_eq_ok_iff.1 h
      obtain ⟨⟨block, left⟩, hblock, h⟩ := bind_eq_ok_iff.1 h
      obtain ⟨added, hadded, h⟩ := bind_eq_ok_iff.1 h
      have hlength : (Node.eventsOf children).length < fuel := by omega
      have hread := Block.read_eq tag span children (Node.eventsOf nodes ++ .stop .item :: rest)
        hnests.1 hblock hlength
      exact (bind_of_eq_ok hflushed).trans
        ((bind_of_eq_ok hread).trans
          ((bind_of_eq_ok hadded).trans (ItemDraft.readNodes_eq nodes rest hnests.2 h (by omega))))
termination_by _ _ _ fuel => (fuel, 0)

end

/-- The reader does what the builder does, and leaves no event. -/
theorem Block.readForest_eq {source : View} {nodes : List Node} {left : Option TaskMark}
    {blocks : List Block} {fuel : Nat} (hnests : Node.NestsAll nodes)
    (h : Block.listOfNodes source left nodes = .ok blocks)
    (hfuel : (Node.eventsOf nodes).length ≤ fuel) :
    Block.readForest source fuel left (Node.eventsOf nodes) = .ok (blocks, []) := by
  induction nodes generalizing left blocks fuel with
  | nil =>
    obtain rfl := Except.ok.inj h
    rw [Node.eventsOf, Block.readForest]
    rfl
  | cons node nodes ih =>
    obtain ⟨hnode, hnodes⟩ := hnests
    cases fuel with
    | zero => cases node <;> simp [Node.eventsOf, Node.events] at hfuel
    | succ fuel =>
      simp only [Node.eventsOf, List.length_append] at hfuel
      cases node with
      | text | task =>
        exact ih hnodes h (by simp only [Node.events, List.length_singleton] at hfuel; omega)
      | rule span =>
        obtain ⟨⟨block, left'⟩, hblock, h⟩ := bind_eq_ok_iff.1 h
        obtain ⟨blocks', hrest, h⟩ := bind_eq_ok_iff.1 h
        obtain rfl := Except.ok.inj h
        rw [Block.ofNode] at hblock
        obtain ⟨view, hview, hblock⟩ := bind_eq_ok_iff.1 hblock
        obtain ⟨rfl, rfl⟩ := Prod.mk.injEq .. ▸ Except.ok.inj hblock
        simp only [Node.events, List.length_singleton] at hfuel
        rw [Node.eventsOf, Node.events, List.singleton_append, Block.readForest]
        exact (bind_of_eq_ok hview).trans (bind_of_eq_ok (ih hnodes hrest (by omega)))
      | block tag span children =>
        obtain ⟨⟨block, left'⟩, hblock, h⟩ := bind_eq_ok_iff.1 h
        obtain ⟨blocks', hrest, h⟩ := bind_eq_ok_iff.1 h
        obtain rfl := Except.ok.inj h
        simp only [Node.events, List.length_append, List.length_cons, List.length_nil] at hfuel
        simp only [Node.eventsOf, Node.events, List.cons_append, List.append_assoc, List.nil_append]
        rw [Block.readForest]
        have hlength : (Node.eventsOf children).length < fuel := by omega
        have hread := Block.read_eq tag span children (Node.eventsOf nodes) hnode hblock hlength
        exact (bind_of_eq_ok hread).trans (bind_of_eq_ok (ih hnodes hrest (by omega)))

end Taskdown
