import Mathlib.Data.List.Forall2
import Taskdown.Markup.Reader
import Taskdown.Proofs.Markup.Spacing
import Taskdown.Proofs.Source.Derivation

/-!
# Open containers

While a text is read, some containers are open, one in another. Whatever has been read so far is
spaced out, the children of the open containers included (`Markup.Held`): lists hold open or
finished items only, and an item is opened in a list, with its marker behind whatever comes before.
In a quote nothing of this matters (`Markup.Laid`).

* `Held.emit`, `Held.popItem`, `Held.popList`, `Held.pop`: what is finished goes to the container
  around it;
* `Held.pushItem`, `Held.pushQuote`: containers are opened behind what has been read;
* `Held.alike`: whether a list is tight, and the indentation of an item, do not matter;
* `Held.regular`: with no open container left, the structure is regular.
-/

namespace Taskdown

theorem View.admits_of {source : Source} {start stop : Nat} (hle : start ≤ stop)
    (hstart : Text.isBoundary source.text start) (hstop : Text.isBoundary source.text stop) :
    (View.of source).Admits ⟨start, stop⟩ where
  le := hle
  stop_le := Text.le_width_of_isBoundary hstop
  start := (Nat.zero_add start).symm ▸ hstart
  stop := (Nat.zero_add stop).symm ▸ hstop

/-! ## Nodes within a source -/

namespace Node

theorem mem_spansOf {span : Span} {nodes : List Node} :
    span ∈ spansOf nodes ↔ ∃ node ∈ nodes, span ∈ node.spans := by
  induction nodes with
  | nil => simp [spansOf]
  | cons node nodes ih => simp [spansOf, ih]

/-- The spans of a node are spans of the source, and its task markers do not go over the end of a
    line. -/
structure Within (source : Source) (node : Node) : Prop where
  admitted : ∀ span ∈ node.spans, (View.of source).Admits span
  tasks : source.HoldsMarks node.tasks

variable {source : Source} {span : Span} {tag : Tag} {children nodes : List Node} {node : Node}

theorem within_text (h : (View.of source).Admits span) : (text span).Within source :=
  ⟨List.forall_mem_singleton.2 h, nofun⟩

theorem within_rule (h : (View.of source).Admits span) : (rule span).Within source :=
  ⟨List.forall_mem_singleton.2 h, nofun⟩

theorem within_task {done : Bool} (h : (View.of source).Admits span)
    (hline : '\n' ∉ Text.slice source.text span.start span.stop) : (task span done).Within source :=
  ⟨List.forall_mem_singleton.2 h, fun _ hmark => List.mem_singleton.1 hmark ▸ hline⟩

theorem within_block (h : (View.of source).Admits span)
    (hchildren : ∀ node ∈ children, node.Within source) :
    (block tag span children).Within source := by
  refine ⟨List.forall_mem_cons.2 ⟨h, fun s hs => ?_⟩, fun mark hmark => ?_⟩
  · obtain ⟨node, hnode, hs⟩ := mem_spansOf.1 hs
    exact (hchildren node hnode).admitted s hs
  · obtain ⟨node, hnode, hmark⟩ := mem_tasksOf.1 hmark
    exact (hchildren node hnode).tasks mark hmark

theorem Within.admits_span (h : (block tag span children).Within source) :
    (View.of source).Admits span :=
  h.admitted span List.mem_cons_self

theorem Within.forall_children (h : (block tag span children).Within source) :
    ∀ node ∈ children, node.Within source :=
  fun node hnode => ⟨fun s hs =>
    h.admitted s (List.mem_cons_of_mem _ (mem_spansOf.2 ⟨node, hnode, hs⟩)),
      fun mark hmark => h.tasks mark (mem_tasksOf.2 ⟨node, hnode, hmark⟩)⟩

theorem regular_of_within (h : ∀ node ∈ nodes, node.Within source)
    (hs : SpacedAll source.text 0 nodes source.size) : Regular source nodes where
  admitted span hspan := by
    obtain ⟨node, hnode, hspan⟩ := mem_spansOf.1 hspan
    exact (h node hnode).admitted span hspan
  spaced := hs
  tasks mark hmark := by
    obtain ⟨node, hnode, hmark⟩ := mem_tasksOf.1 hmark
    exact (h node hnode).tasks mark hmark

/-! ## Tight items -/

theorem Within.tight (h : node.Within source) : ∀ other ∈ node.tight, other.Within source := by
  cases node with
  | text | task | rule => exact List.forall_mem_singleton.2 h
  | block tag span children =>
    cases tag with
    | paragraph => exact h.forall_children
    | _ => exact List.forall_mem_singleton.2 h

theorem Within.tightItem (h : node.Within source) : node.tightItem.Within source := by
  cases node with
  | text | task | rule => exact h
  | block tag span children =>
    cases tag with
    | item =>
      refine within_block h.admits_span fun other hother => ?_
      obtain ⟨child, hchild, hother⟩ := List.mem_flatMap.1 hother
      exact (h.forall_children child hchild).tight other hother
    | _ => exact h

variable {cs : Text} {p q : Nat}

theorem Spaced.tight (h : Spaced cs p node q) : SpacedAll cs p node.tight q := by
  have hsingle := SpacedAll.cons h (.nil (Nat.le_refl q))
  cases h with
  | text | task | rule | list => exact hsingle
  | paragraph hstart _ hchildren => exact hchildren.of_le hstart
  | @leaf _ tag span children htag htag' hstart hlt =>
    cases tag with
    | paragraph => exact absurd rfl htag
    | _ => exact hsingle

theorem SpacedAll.tight (h : SpacedAll cs p nodes q) :
    SpacedAll cs p (nodes.flatMap Node.tight) q := by
  induction nodes generalizing p with
  | nil => exact h
  | cons node nodes ih =>
    cases h with
    | cons h h' => exact h.tight.append (ih h')

/-- The walk over items may go on. -/
theorem SpacedItems.trans_le {q' : Nat} (h : SpacedItems cs p nodes q) (hq : q ≤ q') :
    SpacedItems cs p nodes q' := by
  induction nodes generalizing p with
  | nil =>
    cases h with
    | nil h => exact .nil (Nat.le_trans h hq)
  | cons node nodes ih =>
    cases h with
    | cons hm hs hp h h' => exact .cons hm hs hp h (ih h')

/-- The items of a tight list are spaced out as they are. -/
theorem SpacedItems.tight (h : SpacedItems cs p nodes q) :
    SpacedItems cs p (nodes.map Node.tightItem) q := by
  induction nodes generalizing p with
  | nil => exact h
  | cons node nodes ih =>
    cases h with
    | cons hm hs hp h h' => exact .cons hm hs hp h.tight (ih h')

end Node

namespace Markup

/-! ## Frames -/

namespace Frame

/-- The container starts within the source, before `limit`, and so do the nodes in it. -/
structure Within (source : Source) (limit : Nat) (f : Frame) : Prop where
  start_lt : f.start < limit
  start : Text.isBoundary source.text f.start
  children : ∀ node ∈ f.children, node.Within source
  /-- Behind a marker the content of an item is indented by two columns at least. -/
  indent : f.container ≠ .item 1

variable {source : Source} {limit limit' stop p q q' : Nat} {f g : Frame} {cs : Text}

theorem Within.mono (h : f.Within source limit) (hle : limit ≤ limit') : f.Within source limit' :=
  ⟨Nat.lt_of_lt_of_le h.start_lt hle, h.start, h.children, h.indent⟩

theorem Within.within_node (h : f.Within source limit) (hle : f.start ≤ stop)
    (hstop : Text.isBoundary source.text stop) : (f.node stop).Within source := by
  have hspan := View.admits_of hle h.start hstop
  have hchildren : ∀ node ∈ f.children.reverse, node.Within source :=
    fun node hnode => h.children node (List.mem_reverse.1 hnode)
  rw [Frame.node]
  cases f.container with
  | quote | item => exact Node.within_block hspan hchildren
  | list mark number tight =>
    refine Node.within_block hspan ?_
    split
    · exact List.forall_mem_map.2 fun node hnode => (hchildren node hnode).tightItem
    · exact hchildren

/-- The container is a list. The walk over its items goes from one offset to another. -/
structure IsList (cs : Text) (p : Nat) (f : Frame) (q : Nat) : Prop where
  exists_list : ∃ mark number tight, f.container = .list mark number tight ∧ number ≤ 999999999
  spaced : Node.SpacedItems cs p f.children.reverse q

/-- The container is an item with a marker that ends before `limit`. The walk over what is in it
    goes on to an offset. -/
structure IsItem (cs : Text) (limit p : Nat) (f : Frame) (q : Nat) : Prop where
  exists_item : ∃ indent, f.container = .item indent
  exists_marked : ∃ place stop, cs.MarkedAt f.start place stop ∧ stop ≤ limit ∧ p ≤ place ∧
    Node.SpacedAll cs stop f.children.reverse q

theorem IsList.trans_le (h : f.IsList cs p q) (hq : q ≤ q') : f.IsList cs p q' :=
  ⟨h.exists_list, h.spaced.trans_le hq⟩

theorem IsItem.mono (h : f.IsItem cs limit p q) (hlimit : limit ≤ limit') (hq : q ≤ q') :
    f.IsItem cs limit' p q' := by
  obtain ⟨place, stop, hmarked, hstop, hplace, hs⟩ := h.exists_marked
  exact ⟨h.exists_item, place, stop, hmarked, Nat.le_trans hstop hlimit, hplace, hs.trans_le hq⟩

/-- An item can be added to a list. -/
theorem IsList.addItem (h : f.IsList cs p q) (hitem : g.IsItem cs limit q q')
    (hlimit : limit ≤ stop) : { f with children := g.node stop :: f.children }.IsList cs p q' := by
  obtain ⟨place, markStop, hmarked, hmarkStop, hplace, hs⟩ := hitem.exists_marked
  obtain ⟨indent, hcontainer⟩ := hitem.exists_item
  refine ⟨h.exists_list, ?_⟩
  rw [List.reverse_cons, Frame.node, hcontainer]
  exact h.spaced.append (.cons hmarked (Nat.le_trans hmarkStop hlimit) hplace hs
    (.nil (Nat.le_refl _)))

/-- A list with items is spaced out as they are. -/
theorem IsList.spaced_node (h : f.IsList cs p q) (hne : f.children ≠ []) (stop : Nat) :
    Node.Spaced cs p (f.node stop) q := by
  obtain ⟨mark, number, tight, hcontainer, hnumber⟩ := h.exists_list
  have hreverse : f.children.reverse ≠ [] := mt List.reverse_eq_nil_iff.1 hne
  have hstart : ∀ n ∈ listStart mark number, n ≤ 999999999 := by
    intro n hn
    rw [listStart] at hn
    split at hn
    · cases hn
    · obtain rfl := Option.some.inj hn
      exact hnumber
  rw [Frame.node, hcontainer]
  dsimp only
  split
  · exact .list hstart (mt List.map_eq_nil_iff.1 hreverse) h.spaced.tight
  · exact .list hstart hreverse h.spaced

/-- Two frames are alike if they differ in whether a list is tight, or in the indentation of an
    item, only. -/
inductive Alike : Frame → Frame → Prop
  | refl (f : Frame) : Alike f f
  | list {mark : Char} {number start : Nat} {tight tight' : Bool} {children : List Node} :
      Alike ⟨.list mark number tight, start, children⟩ ⟨.list mark number tight', start, children⟩
  | item {indent indent' start : Nat} {children : List Node} : indent' ≠ 1 →
      Alike ⟨.item indent, start, children⟩ ⟨.item indent', start, children⟩

theorem alike_loosen (f : Frame) : f.Alike f.loosen := by
  obtain ⟨container, start, children⟩ := f
  cases container with
  | quote | item => exact .refl _
  | list => exact .list

namespace Alike

theorem within (h : f.Alike g) (hf : f.Within source limit) : g.Within source limit := by
  cases h with
  | refl => exact hf
  | list => exact ⟨hf.start_lt, hf.start, hf.children, nofun⟩
  | item hindent =>
    exact ⟨hf.start_lt, hf.start, hf.children, fun h => hindent (Container.item.inj h)⟩

theorem isList (h : f.Alike g) (hf : f.IsList cs p q) : g.IsList cs p q := by
  obtain ⟨mark, number, tight, hcontainer, hnumber⟩ := hf.exists_list
  cases h with
  | refl => exact hf
  | list =>
    obtain ⟨rfl, rfl, -⟩ := Container.list.inj hcontainer
    exact ⟨⟨_, _, _, rfl, hnumber⟩, hf.spaced⟩
  | item => cases hcontainer

theorem isItem (h : f.Alike g) (hf : f.IsItem cs limit p q) : g.IsItem cs limit p q := by
  obtain ⟨indent, hcontainer⟩ := hf.exists_item
  cases h with
  | refl => exact hf
  | list => cases hcontainer
  | item => exact ⟨⟨_, rfl⟩, hf.exists_marked⟩

theorem start_eq (h : f.Alike g) : g.start = f.start := by cases h <;> rfl

theorem children_eq (h : f.Alike g) : g.children = f.children := by cases h <;> rfl

theorem quote_iff (h : f.Alike g) : g.container = .quote ↔ f.container = .quote := by
  cases h with
  | refl => exact Iff.rfl
  | list | item => exact iff_of_false nofun nofun

end Alike

end Frame

/-! ## Stacks of frames -/

/-- Is the innermost container no list? -/
def NoList (frames : List Frame) : Prop :=
  ∀ f ∈ frames.head?, ∀ mark number tight, f.container ≠ .list mark number tight

/-- Outside of all quotes there are items in lists, up to an item. The walk over the nodes outside
    of all containers and over what is in the open ones, from the outermost to the innermost, goes
    on to an offset. -/
inductive Nested (cs : Text) (limit : Nat) (nodes : List Node) : List Frame → Nat → Prop
  | nil {q : Nat} : Node.SpacedAll cs 0 nodes.reverse q → Nested cs limit nodes [] q
  | item {p m q : Nat} {list item : Frame} {frames : List Frame} : Nested cs limit nodes frames p →
      list.IsList cs p m → item.IsItem cs limit m q →
      Nested cs limit nodes (item :: list :: frames) q

/-- The open containers are items in lists, up to an item or a list, or up to a quote and whatever
    is in it. -/
inductive Laid (cs : Text) (limit : Nat) (nodes : List Node) : Bool → List Frame → Nat → Prop
  | nested {q : Nat} {frames : List Frame} : Nested cs limit nodes frames q →
      Laid cs limit nodes false frames q
  /-- A list is open without an open item, but it has items. -/
  | list {p q : Nat} {list : Frame} {frames : List Frame} : Nested cs limit nodes frames p →
      list.IsList cs p q → list.children ≠ [] → Laid cs limit nodes false (list :: frames) q
  | quote {p q : Nat} {quote : Frame} {frames : List Frame} : Nested cs limit nodes frames p →
      quote.container = .quote → p ≤ quote.start → Laid cs limit nodes true (quote :: frames) q
  | inQuote {p q : Nat} {f : Frame} {frames : List Frame} : Laid cs limit nodes true frames p →
      Laid cs limit nodes true (f :: frames) q

section

variable {cs : Text} {limit limit' p q stop : Nat} {nodes : List Node} {frames frames' : List Frame}
  {f : Frame} {quoted : Bool}

theorem Nested.mono (h : Nested cs limit nodes frames p) (hlimit : limit ≤ limit') :
    Nested cs limit' nodes frames p := by
  induction h with
  | nil h => exact .nil h
  | item _ hlist hitem ih => exact .item ih hlist (hitem.mono hlimit (Nat.le_refl _))

theorem Nested.trans_le (h : Nested cs limit nodes frames p) (hp : p ≤ q) :
    Nested cs limit nodes frames q := by
  cases h with
  | nil h => exact .nil (h.trans_le hp)
  | item h hlist hitem => exact .item h hlist (hitem.mono (Nat.le_refl _) hp)

theorem Nested.noList (h : Nested cs limit nodes frames p) : NoList frames := by
  intro f hf mark number tight hcontainer
  cases h with
  | nil => cases hf
  | item _ _ hitem =>
    obtain rfl := Option.some.inj hf
    obtain ⟨indent, hitem⟩ := hitem.exists_item
    cases hitem.symm.trans hcontainer

theorem Nested.ne_quote (h : Nested cs limit nodes frames p) :
    ∀ f ∈ frames, f.container ≠ .quote := by
  induction h with
  | nil => exact nofun
  | item _ hlist hitem ih =>
    obtain ⟨indent, hitem⟩ := hitem.exists_item
    obtain ⟨mark, number, tight, hlist, -⟩ := hlist.exists_list
    exact List.forall_mem_cons.2 ⟨fun h => (by cases hitem.symm.trans h),
      List.forall_mem_cons.2 ⟨fun h => (by cases hlist.symm.trans h), ih⟩⟩

theorem Nested.alike (h : Nested cs limit nodes frames p)
    (ha : List.Forall₂ Frame.Alike frames frames') : Nested cs limit nodes frames' p := by
  induction h generalizing frames' with
  | nil h =>
    cases ha
    exact .nil h
  | item _ hlist hitem ih =>
    cases ha with
    | cons ha ha' =>
      cases ha' with
      | cons ha' ha'' => exact .item (ih ha'') (ha'.isList hlist) (ha.isItem hitem)

theorem Laid.alike (h : Laid cs limit nodes quoted frames p)
    (ha : List.Forall₂ Frame.Alike frames frames') : Laid cs limit nodes quoted frames' p := by
  induction h generalizing frames' with
  | nested h => exact .nested (h.alike ha)
  | list h hlist hne =>
    cases ha with
    | cons ha ha' => exact .list (h.alike ha') (ha.isList hlist) (ha.children_eq ▸ hne)
  | quote h hquote hp =>
    cases ha with
    | cons ha ha' => exact .quote (h.alike ha') (ha.quote_iff.2 hquote) (ha.start_eq ▸ hp)
  | inQuote _ ih =>
    cases ha with
    | cons ha ha' => exact .inQuote (ih ha')

theorem Laid.mono (h : Laid cs limit nodes quoted frames p) (hlimit : limit ≤ limit') (hp : p ≤ q) :
    Laid cs limit' nodes quoted frames q := by
  induction h generalizing q with
  | nested h => exact .nested ((h.mono hlimit).trans_le hp)
  | list h hlist hne => exact .list (h.mono hlimit) (hlist.trans_le hp) hne
  | quote h hquote hstart => exact .quote (h.mono hlimit) hquote hstart
  | inQuote _ ih => exact .inQuote (ih (Nat.le_refl _))

/-- In a quote, how far the walk has gone does not matter. -/
theorem Laid.of_quoted (h : Laid cs limit nodes true frames p) (q : Nat) :
    Laid cs limit nodes true frames q := by
  cases h with
  | quote h hquote hstart => exact .quote h hquote hstart
  | inQuote h => exact .inQuote h

theorem Laid.ne_quote (h : Laid cs limit nodes false frames p) :
    ∀ f ∈ frames, f.container ≠ .quote := by
  cases h with
  | nested h => exact h.ne_quote
  | list h hlist =>
    obtain ⟨mark, number, tight, hlist, -⟩ := hlist.exists_list
    exact List.forall_mem_cons.2 ⟨fun h => (by cases hlist.symm.trans h), h.ne_quote⟩

theorem Laid.nested_of_noList (h : Laid cs limit nodes false frames p) (htop : NoList frames) :
    Nested cs limit nodes frames p := by
  cases h with
  | nested h => exact h
  | list h hlist =>
    obtain ⟨mark, number, tight, hlist, -⟩ := hlist.exists_list
    exact absurd hlist (htop _ rfl mark number tight)

end

/-! ## Finished nodes -/

section

variable {cs : Text} {limit p q stop : Nat} {node : Node} {r : Reader} {quoted : Bool}

theorem Nested.emit (h : Nested cs limit r.nodes r.frames p) (hs : Node.Spaced cs p node q) :
    Nested cs limit (r.emit node).nodes (r.emit node).frames q := by
  obtain ⟨frames, nodes, leaf, blank, empty, ahead⟩ := r
  cases h with
  | nil h =>
    refine .nil ?_
    change Node.SpacedAll cs 0 (node :: nodes).reverse q
    rw [List.reverse_cons]
    exact h.concat hs
  | item h hlist hitem =>
    obtain ⟨place, stop, hmarked, hstop, hplace, hchildren⟩ := hitem.exists_marked
    refine .item h hlist ⟨hitem.exists_item, place, stop, hmarked, hstop, hplace, ?_⟩
    dsimp only
    rw [List.reverse_cons]
    exact hchildren.concat hs

/-- What is added within a quote does not matter. -/
theorem Laid.emit_of_quoted (h : Laid cs limit r.nodes true r.frames p) (node : Node) (q : Nat) :
    Laid cs limit (r.emit node).nodes true (r.emit node).frames q := by
  obtain ⟨frames, nodes, leaf, blank, empty, ahead⟩ := r
  cases h with
  | quote h hquote hstart => exact .quote h hquote hstart
  | inQuote h => exact .inQuote h

theorem Laid.emit (h : Laid cs limit r.nodes quoted r.frames p)
    (htop : quoted = false → NoList r.frames) (hs : Node.Spaced cs p node q) :
    Laid cs limit (r.emit node).nodes quoted (r.emit node).frames q := by
  cases quoted with
  | true => exact h.emit_of_quoted node q
  | false => exact .nested ((h.nested_of_noList (htop rfl)).emit hs)

end

/-! ## What has been read -/

theorem Reader.pop_of_nil {r : Reader} (h : r.frames = []) (stop : Nat) : r.pop stop = r := by
  rw [pop, h]

/-- Closing a container, and maybe forgetting an empty item. -/
theorem Reader.exists_pop {r : Reader} {f : Frame} {frames : List Frame}
    (h : r.frames = f :: frames) (stop : Nat) :
    ∃ emptyItem, (emptyItem = none ∨ emptyItem = r.emptyItem) ∧
      r.pop stop = { r with frames, emptyItem }.emit (f.node stop) := by
  rw [pop, h]
  refine ⟨_, ?_, rfl⟩
  split
  · split
    · exact .inl rfl
    · exact .inr rfl
  · exact .inr rfl

/-- What has been read up to an offset: all nodes and open containers are within the source, with
    the open containers starting before `limit`, and they are laid out one behind the other. -/
structure Held (source : Source) (limit : Nat) (quoted : Bool) (p : Nat) (nodes : List Node)
    (frames : List Frame) : Prop where
  within_frames : ∀ f ∈ frames, f.Within source limit
  within_nodes : ∀ node ∈ nodes, node.Within source
  laid : Laid source.text limit nodes quoted frames p

namespace Held

variable {source : Source} {limit limit' p q start stop content number : Nat} {mark : Char}
  {tight quoted quoted' : Bool} {nodes : List Node} {node : Node} {frames frames' : List Frame}
    {f : Frame} {r : Reader}

theorem mono (h : Held source limit quoted p nodes frames) (hlimit : limit ≤ limit') (hp : p ≤ q) :
    Held source limit' quoted q nodes frames :=
  ⟨fun f hf => (h.within_frames f hf).mono hlimit, h.within_nodes, h.laid.mono hlimit hp⟩

theorem alike (h : Held source limit quoted p nodes frames)
    (ha : List.Forall₂ Frame.Alike frames frames') : Held source limit quoted p nodes frames' := by
  refine ⟨?_, h.within_nodes, h.laid.alike ha⟩
  have hframes := h.within_frames
  clear h
  induction ha with
  | nil => exact nofun
  | cons ha _ ih =>
    obtain ⟨hf, hframes⟩ := List.forall_mem_cons.1 hframes
    exact List.forall_mem_cons.2 ⟨ha.within hf, ih hframes⟩

/-- With no container open, what has been read is regular. -/
theorem regular (h : Held source limit quoted p nodes []) (hp : p ≤ source.size) :
    Node.Regular source nodes.reverse := by
  refine Node.regular_of_within (fun node hnode => h.within_nodes node (List.mem_reverse.1 hnode))
    ?_
  cases h.laid with
  | nested h =>
    cases h with
    | nil h => exact h.trans_le hp

/-! ### Closing -/

theorem within_emit (hframes : ∀ f ∈ r.frames, f.Within source limit)
    (hnodes : ∀ node ∈ r.nodes, node.Within source) (hnode : node.Within source) :
    (∀ f ∈ (r.emit node).frames, f.Within source limit) ∧ ∀ n ∈ (r.emit node).nodes,
    n.Within source := by
  obtain ⟨frames, nodes, leaf, blank, empty, ahead⟩ := r
  cases frames with
  | nil => exact ⟨nofun, List.forall_mem_cons.2 ⟨hnode, hnodes⟩⟩
  | cons f frames =>
    obtain ⟨hf, hframes⟩ := List.forall_mem_cons.1 hframes
    exact ⟨List.forall_mem_cons.2
      ⟨⟨hf.start_lt, hf.start, List.forall_mem_cons.2 ⟨hnode, hf.children⟩, hf.indent⟩, hframes⟩,
      hnodes⟩

/-- A finished node goes to the innermost container. -/
theorem emit (h : Held source limit quoted p r.nodes r.frames)
    (htop : quoted = false → NoList r.frames) (hnode : node.Within source)
    (hs : Node.Spaced source.text p node q) :
    Held source limit quoted q (r.emit node).nodes (r.emit node).frames := by
  obtain ⟨hframes, hnodes⟩ := within_emit h.within_frames h.within_nodes hnode
  exact ⟨hframes, hnodes, h.laid.emit htop hs⟩

/-- A container that is closed becomes a node in the container around it. -/
theorem pop_of (h : Held source limit quoted p r.nodes r.frames) (hframes : r.frames = f :: frames)
    (hle : f.start ≤ stop) (hstop : Text.isBoundary source.text stop)
    (hlaid : ∀ outer : Reader, outer.frames = frames → outer.nodes = r.nodes →
      Laid source.text limit (outer.emit (f.node stop)).nodes quoted'
      (outer.emit (f.node stop)).frames q) :
    Held source limit quoted' q (r.pop stop).nodes (r.pop stop).frames := by
  have hwithin := h.within_frames
  rw [hframes] at hwithin
  obtain ⟨hf, hfs⟩ := List.forall_mem_cons.1 hwithin
  have hnode := hf.within_node hle hstop
  obtain ⟨emptyItem, -, hpop⟩ := Reader.exists_pop hframes stop
  rw [hpop]
  obtain ⟨hfs, hns⟩ :=
    @within_emit source limit _ { r with frames, emptyItem } hfs h.within_nodes hnode
  exact ⟨hfs, hns, hlaid _ rfl rfl⟩

/-- A finished item goes to its list. -/
theorem popItem (h : Held source limit quoted p r.nodes r.frames) (hframes : r.frames = f :: frames)
    (hitem : f.container = .item content) (hlimit : limit ≤ stop)
    (hstop : Text.isBoundary source.text stop) :
    Held source limit quoted p (r.pop stop).nodes (r.pop stop).frames := by
  have hlt := (h.within_frames f (hframes ▸ List.mem_cons_self)).start_lt
  refine h.pop_of hframes (by omega) hstop fun outer houter hnodes => ?_
  have hlaid := h.laid
  rw [hframes, ← hnodes] at hlaid
  cases hlaid with
  | nested h =>
    cases h with
    | @item _ _ _ list _ frames h hlist hitem =>
      obtain ⟨rframes, nodes, leaf, blank, empty, ahead⟩ := outer
      subst houter
      exact .list h (hlist.addItem hitem hlimit) (List.cons_ne_nil _ _)
  | list h hlist =>
    obtain ⟨mark, number, tight, hlist, -⟩ := hlist.exists_list
    cases hitem.symm.trans hlist
  | quote h hquote => cases hitem.symm.trans hquote
  | inQuote h => exact (houter ▸ h).emit_of_quoted _ _

/-- A finished list goes to the item or quote that it is in. -/
theorem popList (h : Held source limit quoted p r.nodes r.frames) (hframes : r.frames = f :: frames)
    (hlist : f.container = .list mark number tight) (hlimit : limit ≤ stop + 1)
    (hstop : Text.isBoundary source.text stop) :
    Held source limit quoted p (r.pop stop).nodes (r.pop stop).frames := by
  have hlt := (h.within_frames f (hframes ▸ List.mem_cons_self)).start_lt
  refine h.pop_of hframes (by omega) hstop fun outer houter hnodes => ?_
  have hlaid := h.laid
  rw [hframes, ← hnodes] at hlaid
  cases hlaid with
  | nested h =>
    cases h with
    | item _ _ hitem =>
      obtain ⟨indent, hitem⟩ := hitem.exists_item
      cases hlist.symm.trans hitem
  | list h hlist hne => exact .nested ((houter ▸ h).emit (hlist.spaced_node hne stop))
  | quote h hquote => cases hlist.symm.trans hquote
  | inQuote h => exact (houter ▸ h).emit_of_quoted _ _

/-- A finished quote stands for all that is in it. -/
theorem popQuote (h : Held source limit quoted p r.nodes r.frames)
    (hframes : r.frames = f :: frames) (hquote : f.container = .quote) (hlimit : limit ≤ stop)
    (hstop : Text.isBoundary source.text stop) :
    ∃ quoted', Held source limit quoted' stop (r.pop stop).nodes (r.pop stop).frames := by
  have hlt := (h.within_frames f (hframes ▸ List.mem_cons_self)).start_lt
  have hlaid := h.laid
  rw [hframes] at hlaid
  cases hlaid with
  | nested h => exact absurd hquote (h.ne_quote f List.mem_cons_self)
  | list h hlist =>
    obtain ⟨mark, number, tight, hlist, -⟩ := hlist.exists_list
    cases hquote.symm.trans hlist
  | quote hnested _ hp =>
    refine ⟨false, h.pop_of hframes (by omega) hstop fun outer houter hnodes => .nested ?_⟩
    rw [← hnodes, ← houter] at hnested
    refine hnested.emit ?_
    rw [Frame.node, hquote]
    exact .of_tag (.inr (.inr rfl)) hp (Nat.lt_of_lt_of_le hlt hlimit)
  | inQuote hquoted =>
    refine ⟨true, h.pop_of hframes (by omega) hstop fun outer houter hnodes => ?_⟩
    rw [← hnodes, ← houter] at hquoted
    exact hquoted.emit_of_quoted _ _

/-- Whatever container is closed. -/
theorem pop (h : Held source limit quoted p r.nodes r.frames) (hlimit : limit ≤ stop)
    (hstop : Text.isBoundary source.text stop) (hp : p ≤ stop) :
    ∃ quoted', Held source limit quoted' stop (r.pop stop).nodes (r.pop stop).frames := by
  cases hframes : r.frames with
  | nil =>
    rw [Reader.pop_of_nil hframes]
    exact ⟨quoted, h.mono (Nat.le_refl _) hp⟩
  | cons f frames =>
    cases hcontainer : f.container with
    | quote => exact h.popQuote hframes hcontainer hlimit hstop
    | list =>
      exact ⟨quoted, (h.popList hframes hcontainer (by omega) hstop).mono (Nat.le_refl _) hp⟩
    | item => exact ⟨quoted, (h.popItem hframes hcontainer hlimit hstop).mono (Nat.le_refl _) hp⟩

/-! ### Opening -/

/-- A quote is opened. -/
theorem pushQuote (h : Held source limit quoted p nodes frames)
    (htop : quoted = false → NoList frames) (hp : p ≤ start) (hlimit : limit ≤ limit')
    (hlt : start < limit') (hstart : Text.isBoundary source.text start) (q : Nat) :
    Held source limit' true q nodes (⟨.quote, start, []⟩ :: frames) := by
  have h := h.mono hlimit (Nat.le_refl p)
  refine ⟨List.forall_mem_cons.2 ⟨⟨hlt, hstart, nofun, nofun⟩, h.within_frames⟩, h.within_nodes, ?_⟩
  have hlaid := h.laid
  cases quoted with
  | true => exact .inQuote hlaid
  | false => exact .quote (hlaid.nested_of_noList (htop rfl)) rfl hp

/-- An item is opened in a list. -/
theorem pushItem (h : Held source limit quoted p nodes (f :: frames))
    (hlist : f.container = .list mark number tight) (hlimit : limit ≤ limit') (hlt : start < limit')
    (hstart : Text.isBoundary source.text start)
    (hmarked : quoted = false → ∃ place stop, source.text.MarkedAt start place stop ∧
      stop ≤ limit' ∧ p ≤ place)
    (hcontent : content ≠ 1) :
    Held source limit' quoted limit' nodes (⟨.item content, start, []⟩ :: f :: frames) := by
  have h := h.mono hlimit (Nat.le_refl p)
  refine ⟨List.forall_mem_cons.2 ⟨⟨hlt, hstart, nofun, fun h => hcontent (Container.item.inj h)⟩,
    h.within_frames⟩, h.within_nodes, ?_⟩
  have hlaid := h.laid
  cases quoted with
  | true => exact .inQuote hlaid
  | false =>
    obtain ⟨place, stop, hmarked, hstop, hplace⟩ := hmarked rfl
    cases hlaid with
    | nested h => exact absurd hlist (h.noList f rfl _ _ _)
    | list h hlist =>
      exact .nested (.item h hlist ⟨⟨_, rfl⟩, place, stop, hmarked, hstop, hplace, .nil hstop⟩)

/-- A list is opened, and an item in it. -/
theorem pushListItem (h : Held source limit quoted p nodes frames)
    (htop : quoted = false → NoList frames) (hnumber : number ≤ 999999999) (hlimit : limit ≤ limit')
    (hlt : start < limit') (hstart : Text.isBoundary source.text start)
    (hmarked : quoted = false → ∃ place stop, source.text.MarkedAt start place stop ∧
      stop ≤ limit' ∧ p ≤ place)
    (hcontent : content ≠ 1) : Held source limit' quoted limit' nodes
      (⟨.item content, start, []⟩ :: ⟨.list mark number true, start, []⟩ :: frames) := by
  have h := h.mono hlimit (Nat.le_refl p)
  refine ⟨List.forall_mem_cons.2 ⟨⟨hlt, hstart, nofun, fun h => hcontent (Container.item.inj h)⟩,
    List.forall_mem_cons.2 ⟨⟨hlt, hstart, nofun, nofun⟩, h.within_frames⟩⟩, h.within_nodes, ?_⟩
  have hlaid := h.laid
  cases quoted with
  | true => exact .inQuote (.inQuote (hlaid.of_quoted p) : Laid _ _ _ _ _ p)
  | false =>
    obtain ⟨place, stop, hmarked, hstop, hplace⟩ := hmarked rfl
    exact .nested (.item (hlaid.nested_of_noList (htop rfl)) ⟨⟨_, _, _, rfl, hnumber⟩,
      .nil (Nat.le_refl _)⟩ ⟨⟨_, rfl⟩, place, stop, hmarked, hstop, hplace, .nil hstop⟩)

end Held

end Markup

end Taskdown
