import Taskdown.Proofs.Document.Correspondence
import Taskdown.Proofs.Markup.Spacing

/-!
# Documents that fit their source

Of a structure that is spaced out over its source a document is built that *fits* the source: all of
its views are sound views of the source, every item has a marker, and lists start with small numbers
(`Block.Fits`). It has a *weight* that counts the bytes of its leaf blocks, one more for each of
them, and two for each item (`Block.weight`), and that is no more than twice the length of the
source (`Block.fits_of_regular`). The weight bounds everything that depends on the size of a
document.
-/

namespace Taskdown

/-! ## What fits -/

/-- The markers of an item: the one of the item is what it should be, and both are views of the
    source. -/
structure Item.HasMarkers (source : Source) (item : Item) : Prop where
  marker : item.marker.Within source
  isMarker : Text.IsItemMarker item.marker.text
  column : item.contentColumn = Item.contentColumnOf item.marker
  task : ∀ task ∈ item.task, task.view.Within source ∧ '\n' ∉ task.view.text

/-- An item by its parts. -/
theorem Item.HasMarkers.of_parts {source : Source} {view marker : View} {task : Option Task}
    {column : Nat} {children : List Block} (hmarker : marker.Within source)
    (hisMarker : Text.IsItemMarker marker.text) (hcolumn : column = Item.contentColumnOf marker)
    (htask : ∀ t ∈ task, t.view.Within source ∧ '\n' ∉ t.view.text) :
    Item.HasMarkers source ⟨view, marker, task, column, children⟩ :=
  ⟨hmarker, hisMarker, hcolumn, htask⟩

mutual

/-- The block fits the source. -/
inductive Block.Fits (source : Source) : Block → Prop
  | paragraph {view : View} : view.Within source → Block.Fits source (.paragraph view)
  | heading {view : View} : view.Within source → Block.Fits source (.heading view)
  | code {view : View} : view.Within source → Block.Fits source (.code view)
  | other {view : View} : view.Within source → Block.Fits source (.other view)
  | list {view : View} {start : Option Nat} {loose : Bool} {items : List Item} :
      (∀ n ∈ start, n ≤ 999999999) → items ≠ [] → Item.AllFit source items →
      Block.Fits source (.list view start loose items)

/-- The items fit the source. -/
inductive Item.AllFit (source : Source) : List Item → Prop
  | nil : Item.AllFit source []
  | cons {item : Item} {items : List Item} : item.HasMarkers source →
      Block.AllFit source item.children → Item.AllFit source items →
      Item.AllFit source (item :: items)

/-- The blocks fit the source. -/
inductive Block.AllFit (source : Source) : List Block → Prop
  | nil : Block.AllFit source []
  | cons {block : Block} {blocks : List Block} : Block.Fits source block →
      Block.AllFit source blocks → Block.AllFit source (block :: blocks)

end

mutual

/-- The weight of a block. -/
def Block.weight : Block → Nat
  | .list _ _ _ items => Item.weightOf items
  | .paragraph view => view.length + 1
  | .heading view => view.length + 1
  | .code view => view.length + 1
  | .other view => view.length + 1

/-- The weight of items. -/
def Item.weightOf : List Item → Nat
  | [] => 0
  | ⟨_, _, _, _, children⟩ :: items => 2 + Block.weightOf children + Item.weightOf items

/-- The weight of blocks. -/
def Block.weightOf : List Block → Nat
  | [] => 0
  | block :: blocks => block.weight + Block.weightOf blocks

end

/-! ## Markers of items -/

namespace View

variable {source : Source} {view : View} {span : Span}

theorem span_of_ofSpan (h : (View.of source).ofSpan span = .ok view) : view.span = span := by
  rw [ofSpan, sub] at h
  split at h
  · cases h
  · obtain ⟨_, -, h⟩ := bind_eq_ok_iff.1 h
    obtain ⟨_, -, h⟩ := bind_eq_ok_iff.1 h
    obtain rfl := Except.ok.inj h
    change (⟨0 + span.start, 0 + span.stop⟩ : Span) = span
    rw [Nat.zero_add, Nat.zero_add]

/-- The empty view at the start. -/
theorem Shows.atStart {v : View} {before cs behind : Text} (h : v.Shows before cs behind) :
    v.atStart.Shows before [] (cs ++ behind) :=
  ⟨h.source, h.start, by rw [List.append_nil]; exact h.start⟩

/-- What a view grows over is what comes next in its source. -/
theorem Shows.extendOver {v : View} {before cs behind : Text} (h : v.Shows before cs behind)
    (set : Text) (limit : Option Nat) {taken rest : Text} (hbehind : behind = taken ++ rest)
    (htaken : (firstChars limit behind).takeWhile set.contains = taken) :
    (v.extendOver set limit).Shows before (cs ++ taken) rest := by
  have hafter : v.textAfter = behind := by
    rw [textAfter, h.source, h.stop, ← List.append_assoc, Text.dropBytes_width_append]
  refine ⟨?_, h.start, ?_⟩
  · rw [List.append_assoc, ← hbehind]
    exact h.source
  · change v.stop + Text.width ((firstChars limit v.textAfter).takeWhile set.contains) = _
    rw [hafter, htaken, h.stop, ← List.append_assoc, Text.width_append (before ++ cs)]

end View

/-- The view of an item shows the blanks and the marker that it starts with. -/
theorem View.exists_shows_of_markedAt {source : Source} {span : Span} {place stop : Nat}
    {view : View} (h : source.text.MarkedAt span.start place stop) (hstop : stop ≤ span.stop)
    (hview : (View.of source).ofSpan span = .ok view) :
    ∃ before blanks marker rest behind, view.Shows before (blanks ++ (marker ++ rest)) behind ∧
      (∀ c ∈ blanks, Text.isTrimmed c) ∧ Text.IsItemMarker marker := by
  obtain ⟨before, blanks, marker, behind, htext, hblanks, hmarker, hstart, hplace, hwidth⟩ :=
    h.exists_parts
  obtain ⟨before', cs, behind', hshows⟩ := View.sound_of_sub hview
  have hsource : view.source = source := (View.within_of_ofSpan hview).source
  have hspan := View.span_of_ofSpan hview
  have heq := hshows.source
  rw [hsource, htext] at heq
  -- Both ways to split the source agree on what is before the view.
  have hbefore : Text.width before = Text.width before' := by
    rw [← hstart, ← hshows.start, View.start, hspan]
  obtain ⟨ms, rfl⟩ := Text.prefix_of_width_le heq (Nat.le_of_eq hbefore)
  obtain rfl : ms = [] := Text.width_eq_zero_iff.1 (by rw [Text.width_append] at hbefore; omega)
  rw [List.append_nil] at heq hshows
  -- The marker ends within the view.
  have hin : Text.width (blanks ++ marker) ≤ Text.width cs := by
    have hstop' : span.stop = Text.width before + Text.width cs := by
      rw [← Text.width_append, ← hshows.stop, View.stop, hspan]
    rw [Text.width_append]
    omega
  have hrest := List.append_cancel_left heq
  rw [← List.append_assoc] at hrest
  obtain ⟨rest, rfl⟩ := Text.prefix_of_width_le hrest hin
  rw [List.append_assoc] at hshows
  exact ⟨before, blanks, marker, rest, behind', hshows, hblanks, hmarker⟩

/-- What an item starts with, behind blanks, is its marker. -/
theorem Item.shows_markerOf {view : View} {before blanks marker rest behind : Text}
    (hshows : view.Shows before (blanks ++ (marker ++ rest)) behind)
    (hblanks : ∀ c ∈ blanks, Text.isTrimmed c) (hmarker : Text.IsItemMarker marker) :
    (Item.markerOf view).Shows (before ++ blanks) marker (rest ++ behind) := by
  obtain ⟨c, marker', hcons⟩ := List.exists_cons_of_ne_nil
    (List.ne_nil_of_length_pos (hmarker.width_eq_length ▸ hmarker.width_pos))
  have htake : (blanks ++ (marker ++ rest)).takeWhile Text.isTrimmed = blanks := by
    rw [List.takeWhile_append_of_pos hblanks, hcons, List.cons_append, List.takeWhile_cons_of_neg,
      List.append_nil]
    rw [hmarker.not_isTrimmed c (hcons ▸ List.mem_cons_self)]
    exact Bool.false_ne_true
  have hdrop : (blanks ++ (marker ++ rest)).dropWhile Text.isTrimmed = marker ++ rest := by
    have := List.takeWhile_append_dropWhile (p := Text.isTrimmed) (l := blanks ++ (marker ++ rest))
    rw [htake] at this
    exact List.append_cancel_left this
  have hplace := hshows.trimStart.atStart
  rw [htake, hdrop] at hplace
  rw [Item.markerOf]
  cases hmarker with
  | @bullet b hb =>
    have hnone : ¬ "0123456789".toList.contains b := by
      rw [List.mem_cons, List.mem_cons, List.mem_singleton] at hb
      rcases hb with rfl | rfl | rfl <;> decide
    have hone : ['-', '+', '*'].contains b := List.contains_iff_mem.2 hb
    have hdigits := hplace.extendOver "0123456789".toList none (List.nil_append _).symm
      (List.takeWhile_cons_of_neg hnone)
    have hbullet : View.Shows _ _ ([] ++ [b]) (rest ++ behind) :=
      hplace.extendOver ['-', '+', '*'] (some 1) rfl (List.takeWhile_cons_of_pos hone)
    rw [hdigits.isEmpty_eq]
    exact hbullet
  | @number digits d hne hlength hdigits hd =>
    have hall : ∀ c ∈ digits, "0123456789".toList.contains c :=
      fun c hc => List.contains_iff_mem.2 (hdigits c hc)
    have hnone : ¬ "0123456789".toList.contains d := by
      rw [List.mem_cons, List.mem_singleton] at hd
      rcases hd with rfl | rfl <;> decide
    have hone : ['.', ')'].contains d := List.contains_iff_mem.2 hd
    have hnumber : View.Shows _ _ ([] ++ digits) ([d] ++ (rest ++ behind)) :=
      hplace.extendOver "0123456789".toList none
        (by simp only [List.append_assoc]) (by
          change List.takeWhile _ (digits ++ [d] ++ rest ++ behind) = digits
          rw [List.append_assoc, List.append_assoc, List.takeWhile_append_of_pos hall,
            List.singleton_append, List.takeWhile_cons_of_neg hnone, List.append_nil])
    have hdelimiter : View.Shows _ _ ([] ++ digits ++ [d]) (rest ++ behind) :=
      hnumber.extendOver ['.', ')'] (some 1) rfl (List.takeWhile_cons_of_pos hone)
    have hnonempty : digits.isEmpty = false := List.isEmpty_eq_false_iff.2 hne
    rw [hnumber.isEmpty_eq, List.nil_append, hnonempty]
    exact hdelimiter

theorem Item.source_markerOf (view : View) : (Item.markerOf view).source = view.source := by
  rw [Item.markerOf]
  split <;> rfl

/-- An item that starts with a marker behind blanks has this marker. -/
theorem Item.isMarker_markerOf {source : Source} {span : Span} {place stop : Nat} {view : View}
    (h : source.text.MarkedAt span.start place stop) (hstop : stop ≤ span.stop)
    (hview : (View.of source).ofSpan span = .ok view) :
    (Item.markerOf view).Within source ∧ Text.IsItemMarker (Item.markerOf view).text := by
  obtain ⟨before, blanks, marker, rest, behind, hshows, hblanks, hmarker⟩ :=
    View.exists_shows_of_markedAt h hstop hview
  have hsource : view.source = source := (View.within_of_ofSpan hview).source
  have hmarkerShows := Item.shows_markerOf hshows hblanks hmarker
  exact ⟨⟨(Item.source_markerOf view).trans hsource, hmarkerShows.sound⟩,
    hmarkerShows.text_eq ▸ hmarker⟩

/-! ## Markers of tasks -/

namespace Node

mutual

theorem mem_tasks_of_firstTask? {mark : TaskMark} :
    ∀ {node : Node}, node.firstTask? = some mark → mark ∈ node.tasks
  | .text _, h | .rule _, h => nomatch h
  | .task _ _, h => by
    obtain rfl := Option.some.inj h
    exact List.mem_singleton_self _
  | .block _ _ _, h => mem_tasksOf_of_firstTaskOf? h

theorem mem_tasksOf_of_firstTaskOf? {mark : TaskMark} :
    ∀ {nodes : List Node}, firstTaskOf? nodes = some mark → mark ∈ tasksOf nodes
  | [], h => nomatch h
  | node :: nodes, h => by
    rw [firstTaskOf?, Option.or_eq_some_iff] at h
    rcases h with h | ⟨-, h⟩
    · exact List.mem_append_left _ (mem_tasks_of_firstTask? h)
    · exact List.mem_append_right _ (mem_tasksOf_of_firstTaskOf? h)

end

mutual

/-- What is remembered behind a node has been remembered before, or is a marker below the node. -/
theorem mem_tasks_of_leftAfter {mark : TaskMark} : ∀ {node : Node} {left : Option TaskMark},
    node.leftAfter left = some mark → left = some mark ∨ mark ∈ node.tasks
  | .text _, _, h | .task _ _, _, h | .rule _, _, h => .inl h
  | .block tag _ children, left, h => by
    cases tag with
    | list start => exact mem_tasks_of_leftAfterItems h
    | paragraph | heading | code | item | other | inline =>
      rcases Option.or_eq_some_iff.1 h with h | ⟨-, h⟩
      · exact .inl h
      · exact .inr (mem_tasksOf_of_firstTaskOf? h)

theorem mem_tasks_of_leftAfterItems {mark : TaskMark} :
    ∀ {nodes : List Node} {left : Option TaskMark}, leftAfterItems left nodes = some mark →
    left = some mark ∨ mark ∈ tasksOf nodes
  | [], _, h => .inl h
  | node :: nodes, left, h => by
    by_cases hitem : ∃ span children, node = .block .item span children
    · obtain ⟨span, children, rfl⟩ := hitem
      rw [leftAfterItems] at h
      rcases mem_tasks_of_leftAfterItems h with h | h
      · exact .inr (List.mem_append_left _ (mem_tasks_of_leftAfterItem h))
      · exact .inr (List.mem_append_right _ h)
    · rw [leftAfterItems] at h
      · exact (mem_tasks_of_leftAfterItems h).imp_right (List.mem_append_right _)
      · exact fun span children he => hitem ⟨span, children, he⟩

theorem mem_tasks_of_leftAfterItem {mark : TaskMark} : ∀ {nodes : List Node},
    leftAfterItem nodes = some mark → mark ∈ tasksOf nodes
  | [], h => nomatch h
  | node :: nodes, h => by
    rw [leftAfterItem] at h
    rcases mem_tasks_of_leftAfterAll h with h | h
    · split at h
      · cases h
      · exact List.mem_append_left _ ((mem_tasks_of_leftAfter h).resolve_left nofun)
    · exact List.mem_append_right _ h

theorem mem_tasks_of_leftAfterAll {mark : TaskMark} :
    ∀ {nodes : List Node} {left : Option TaskMark}, leftAfterAll left nodes = some mark →
    left = some mark ∨ mark ∈ tasksOf nodes
  | [], _, h => .inl h
  | node :: nodes, left, h => by
    rw [leftAfterAll] at h
    rcases mem_tasks_of_leftAfterAll h with h | h
    · exact (mem_tasks_of_leftAfter h).imp_right (List.mem_append_left _)
    · exact .inr (List.mem_append_right _ h)

end

theorem mem_tasksOf_of_ownTask? {mark : TaskMark} {nodes : List Node}
    (h : ownTask? nodes = some mark) : mark ∈ tasksOf nodes := by
  induction nodes with
  | nil => cases h
  | cons node nodes ih =>
    cases node with
    | task span done =>
      rw [ownTask?, Option.or_eq_some_iff] at h
      rcases h with h | ⟨-, h⟩
      · exact List.mem_cons_of_mem _ (ih h)
      · obtain rfl := Option.some.inj h
        exact List.mem_cons_self
    | text | rule | block => exact List.mem_append_right _ (ih h)

/-- An item becomes a task by a marker below it. -/
theorem mem_tasksOf_of_mark {mark : TaskMark} {nodes : List Node}
    (h : (ownTask? nodes).or (leadTask? nodes) = some mark) : mark ∈ tasksOf nodes := by
  rcases Option.or_eq_some_iff.1 h with h | ⟨-, h⟩
  · exact mem_tasksOf_of_ownTask? h
  · cases nodes with
    | nil => cases h
    | cons node nodes =>
      rw [leadTask?] at h
      split at h
      · exact List.mem_append_left _ ((mem_tasks_of_leftAfter h).resolve_left nofun)
      · cases h

end Node

theorem IsTaskOf.fits {source : Source} {mark? : Option TaskMark} {task? : Option Task}
    {marks : List TaskMark} (h : IsTaskOf (.of source) mark? task?)
    (hmarks : source.HoldsMarks marks) (hmem : ∀ mark ∈ mark?, mark ∈ marks) :
    ∀ task ∈ task?, task.view.Within source ∧ '\n' ∉ task.view.text := by
  intro task htask
  cases h with
  | none => cases htask
  | @some mark task' h =>
    obtain rfl := Option.some.inj htask
    obtain ⟨view, hview, h⟩ := bind_eq_ok_iff.1 h
    obtain rfl := Except.ok.inj h
    have hwithin := View.within_of_ofSpan hview
    refine ⟨hwithin, ?_⟩
    change '\n' ∉ Text.slice view.source.text view.span.start view.span.stop
    rw [hwithin.source, View.span_of_ofSpan hview]
    exact hmarks mark (hmem mark rfl)

/-! ## What is built fits -/

section

variable {source : Source}

/-- What follows a mark is no wider than the view in which the mark is. -/
theorem Item.Keeps.fits {task : Option Task} {parts blocks : List Block}
    (h : Item.Keeps task parts blocks) (htask : ∀ t ∈ task, t.view.Sound)
    (hparts : Block.AllFit source parts) :
    Block.AllFit source blocks ∧ Block.weightOf blocks ≤ Block.weightOf parts := by
  cases h with
  | all => exact ⟨hparts, Nat.le_refl _⟩
  | @behind t first kept rest ht hstart hstop hkept =>
    cases hparts with
    | cons hfirst hrest =>
      cases hfirst with
      | paragraph hfirst =>
        refine ⟨.cons (.paragraph ⟨hkept.source.trans hfirst.source, hkept.sound⟩) hrest, ?_⟩
        have hmark := (View.sound_iff.1 (htask t ht)).1
        have hle := hkept.mark_le
        have hlength : kept.length ≤ first.length := by
          change kept.stop - kept.start ≤ first.stop - first.start
          rw [hkept.stop]
          omega
        simp only [Block.weightOf, Block.weight]
        omega

theorem View.length_of_ofSpan {span : Span} {view : View}
    (h : (View.of source).ofSpan span = .ok view) : view.length = span.stop - span.start := by
  rw [View.length, View.span_of_ofSpan h]
  rfl

theorem Tag.fits_leaf (tag : Tag) {view : View} (h : view.Within source) :
    (tag.leaf view).Fits source ∧ (tag.leaf view).weight = view.length + 1 := by
  cases tag with
  | paragraph => exact ⟨.paragraph h, rfl⟩
  | heading => exact ⟨.heading h, rfl⟩
  | code => exact ⟨.code h, rfl⟩
  | list | item | other | inline => exact ⟨.other h, rfl⟩

/-- A run of text that is spaced out lies where the walk goes. -/
theorem Node.SpacedAll.hull_le {p q : Nat} {run : List Node} {hull : Span}
    (h : Node.SpacedAll source.text p run q) (hinline : ∀ node ∈ run, node.isInline)
    (hhull : hull.IsHullOf (run.map Node.span)) :
    p ≤ hull.start ∧ hull.start < hull.stop ∧ hull.stop ≤ q := by
  have hspans : ∀ span ∈ run.map Node.span, p ≤ span.start ∧ span.start < span.stop ∧
      span.stop ≤ q := by
    clear hhull
    induction run generalizing p with
    | nil => exact fun _ h => absurd h List.not_mem_nil
    | cons node run ih =>
      cases h with
      | cons hnode hrun =>
        have hrest := ih hrun fun n hn => hinline n (List.mem_cons_of_mem _ hn)
        have hle := hnode.le
        have hle' := hrun.le
        refine List.forall_mem_cons.2 ⟨?_, fun span hspan => ?_⟩
        · have hin := hinline node List.mem_cons_self
          cases hnode with
          | text h h' | leaf _ _ h h' => exact ⟨h, h', hle'⟩
          | task | rule | paragraph | list => cases hin
        · obtain ⟨h, h', h''⟩ := hrest span hspan
          exact ⟨Nat.le_trans hle h, h', h''⟩
  obtain ⟨s, hs, hstart⟩ := hhull.start
  obtain ⟨t, ht, hstop⟩ := hhull.stop
  obtain ⟨hp, hlt, -⟩ := hspans s hs
  obtain ⟨-, -, hq⟩ := hspans t ht
  have hle := (hhull.holds s hs).2
  exact ⟨hstart ▸ hp, by omega, hstop ▸ hq⟩

mutual

/-- The block of a node fits, and has twice as much weight as the walk over the node has bytes. -/
theorem Node.Becomes.fits {node : Node} {block : Block} {p q : Nat} :
    node.Becomes (.of source) block → node.Spaced source.text p q → source.HoldsMarks node.tasks →
    block.Fits source ∧ 2 * p + block.weight ≤ 2 * q
  | .rule hview, .rule hp hlt, _ => by
    have hlength := View.length_of_ofSpan hview
    refine ⟨.other (View.within_of_ofSpan hview), ?_⟩
    rw [Block.weight]
    omega
  | @Node.Becomes.leaf _ tag span view children hlist hview, hspaced, _ => by
    have hlength := View.length_of_ofSpan hview
    obtain ⟨hfits, hweight⟩ := Tag.fits_leaf tag (View.within_of_ofSpan hview)
    have hspan : p ≤ span.start ∧ span.start < span.stop ∧ span.stop ≤ q := by
      cases hspaced with
      | paragraph h h' | leaf _ _ h h' => exact ⟨h, h', Nat.le_refl _⟩
      | list => exact absurd rfl (hlist _)
    refine ⟨hfits, ?_⟩
    rw [hweight]
    omega
  | .list hview hitems, hspaced, hmarks => by
    cases hspaced with
    | list hstart hne hspaced =>
      obtain ⟨hfits, hweight⟩ := hitems.fits hspaced hmarks
      refine ⟨.list hstart ?_ hfits, hweight⟩
      cases hitems with
      | nil => exact absurd rfl hne
      | cons => exact List.cons_ne_nil _ _
    | leaf _ hlist => exact absurd rfl (hlist _)

theorem Node.BecomeItems.fits {nodes : List Node} {items : List Item} {p q : Nat} :
    Node.BecomeItems (.of source) nodes items → Node.SpacedItems source.text p nodes q →
    source.HoldsMarks (Node.tasksOf nodes) → Item.AllFit source items ∧
    2 * p + Item.weightOf items ≤ 2 * q
  | .nil, .nil h, _ => ⟨.nil, by rw [Item.weightOf]; omega⟩
  | .cons hview htask hparts hkeeps hitems, .cons hm hstop hp hchildren hnodes, hmarks => by
    have hown : source.HoldsMarks _ := fun mark h => hmarks mark (List.mem_append_left _ h)
    have hlt := hm.place_lt
    have htask := htask.fits hown fun mark => Node.mem_tasksOf_of_mark
    obtain ⟨hmarker, hisMarker⟩ := Item.isMarker_markerOf hm hstop hview
    obtain ⟨hpartsFit, hpartsWeight⟩ := hparts.fits (hchildren.filter _) fun mark h => by
      obtain ⟨node, hnode, h⟩ := Node.mem_tasksOf.1 h
      exact hown mark (Node.mem_tasksOf.2 ⟨node, List.mem_of_mem_filter hnode, h⟩)
    obtain ⟨hblocks, hkept⟩ := hkeeps.fits (fun t ht => (htask t ht).1.sound) hpartsFit
    obtain ⟨hrest, hrestWeight⟩ :=
      hitems.fits hnodes fun mark h => hmarks mark (List.mem_append_right _ h)
    refine ⟨.cons (.of_parts hmarker hisMarker rfl htask) hblocks hrest, ?_⟩
    rw [Item.weightOf]
    omega

theorem Node.BecomeParts.fits {nodes : List Node} {parts : List Block} {p q : Nat} :
    Node.BecomeParts (.of source) nodes parts → Node.SpacedAll source.text p nodes q →
    source.HoldsMarks (Node.tasksOf nodes) → Block.AllFit source parts ∧
    2 * p + Block.weightOf parts ≤ 2 * q
  | .nil, .nil h, _ => ⟨.nil, by rw [Block.weightOf]; omega⟩
  | .block _ hblock hparts, .cons hnode hnodes, hmarks => by
    obtain ⟨hfits, hweight⟩ :=
      hblock.fits hnode fun mark h => hmarks mark (List.mem_append_left _ h)
    obtain ⟨hrest, hrestWeight⟩ :=
      hparts.fits hnodes fun mark h => hmarks mark (List.mem_append_right _ h)
    refine ⟨.cons hfits hrest, ?_⟩
    rw [Block.weightOf]
    omega
  | .run hne hinline hnext hhull hview hparts, hspaced, hmarks => by
    obtain ⟨m, hrun, hnodes⟩ := hspaced.exists_of_append
    obtain ⟨hp, hlt, hq⟩ := hrun.hull_le hinline hhull
    obtain ⟨hrest, hrestWeight⟩ := hparts.fits hnodes fun mark h => by
      obtain ⟨node, hnode, h⟩ := Node.mem_tasksOf.1 h
      exact hmarks mark (Node.mem_tasksOf.2 ⟨node, List.mem_append_right _ hnode, h⟩)
    have hlength := View.length_of_ofSpan hview
    refine ⟨.cons (.paragraph (View.within_of_ofSpan hview)) hrest, ?_⟩
    rw [Block.weightOf, Block.weight]
    omega

end

end

/-- The document of a structure that is spaced out over its source fits the source, and has no more
    weight than twice the length of the source. -/
theorem Block.fits_of_regular {source : Source} {forest : List Node} {blocks : List Block}
    (h : Node.Regular source forest)
    (hbuilt : Block.listOfNodes (.of source) none forest = .ok blocks) :
    Block.AllFit source blocks ∧ Block.weightOf blocks ≤ 2 * source.size := by
  have hall : ∀ {nodes : List Node} {bs : List Block} {p : Nat},
      List.Forall₂ (Node.Becomes (.of source)) nodes bs →
      Node.SpacedAll source.text p nodes source.size → source.HoldsMarks (Node.tasksOf nodes) →
      Block.AllFit source bs ∧ 2 * p + Block.weightOf bs ≤ 2 * source.size := by
    intro nodes bs p hbecome
    induction hbecome generalizing p with
    | nil =>
      intro hspaced _
      have hle := hspaced.le
      exact ⟨.nil, by rw [Block.weightOf]; omega⟩
    | cons hblock _ ih =>
      intro hspaced hmarks
      cases hspaced with
      | cons hnode hnodes =>
        obtain ⟨hfits, hweight⟩ :=
          hblock.fits hnode fun mark h => hmarks mark (List.mem_append_left _ h)
        obtain ⟨hrest, hrestWeight⟩ :=
          ih hnodes fun mark h => hmarks mark (List.mem_append_right _ h)
        refine ⟨.cons hfits hrest, ?_⟩
        rw [Block.weightOf]
        omega
  obtain ⟨hfits, hweight⟩ :=
      hall (Node.forall₂_becomes h.spaced.nests hbuilt) (h.spaced.filter _) fun mark hmark => by
    obtain ⟨node, hnode, hmark⟩ := Node.mem_tasksOf.1 hmark
    exact h.tasks mark (Node.mem_tasksOf.2 ⟨node, List.mem_of_mem_filter hnode, hmark⟩)
  exact ⟨hfits, by omega⟩

/-! ## What fits all over a document -/

section

variable {source : Source}

mutual

/-- Of items that fit a source all items fit it, and so do their blocks. -/
theorem Item.AllFit.of_mem_flatten : ∀ {items : List Item}, Item.AllFit source items →
    ∀ item ∈ Item.flatten items, item.HasMarkers source ∧ Block.AllFit source item.children
  | [], _, item, hitem => by
    rw [Item.flatten] at hitem
    cases hitem
  | ⟨view, marker, task, column, children⟩ :: items, .cons hmarkers hchildren hitems, item, hitem =>
    by
    rw [Item.flatten, List.mem_cons, List.mem_append] at hitem
    rcases hitem with rfl | hitem | hitem
    · exact ⟨hmarkers, hchildren⟩
    · exact Block.AllFit.of_mem_items (show Block.AllFit source children from hchildren) item hitem
    · exact hitems.of_mem_flatten item hitem

theorem Block.Fits.of_mem_items : ∀ {block : Block}, block.Fits source →
    ∀ item ∈ Block.items [block], item.HasMarkers source ∧ Block.AllFit source item.children
  | .list view start loose items, .list _ _ h, item, hitem => by
    rw [Block.items, Block.items, List.append_nil] at hitem
    exact h.of_mem_flatten item hitem
  | .paragraph _, _, item, hitem | .heading _, _, item, hitem | .code _, _, item, hitem | .other _,
      _, item, hitem => by
    simp [Block.items] at hitem

theorem Block.AllFit.of_mem_items : ∀ {blocks : List Block}, Block.AllFit source blocks →
    ∀ item ∈ Block.items blocks, item.HasMarkers source ∧ Block.AllFit source item.children
  | [], _, item, hitem => by
    rw [Block.items] at hitem
    cases hitem
  | block :: blocks, .cons hblock hblocks, item, hitem => by
    rw [Block.items_cons, List.mem_append] at hitem
    rcases hitem with hitem | hitem
    · exact hblock.of_mem_items item hitem
    · exact hblocks.of_mem_items item hitem

end

theorem Block.AllFit.fits_of_mem {blocks : List Block} (h : Block.AllFit source blocks) :
    ∀ block ∈ blocks, block.Fits source := by
  induction blocks with
  | nil => exact List.forall_mem_nil _
  | cons block blocks ih =>
    cases h with
    | cons hblock hblocks => exact List.forall_mem_cons.2 ⟨hblock, ih hblocks⟩

end

end Taskdown
