import Taskdown.Proofs.Document.Markers
import Taskdown.Proofs.Document.TasksBelow

/-!
# Formatting twice

The output of a document is a document again. If it is read as what has been written
(`Block.AllReread`), that is, with the items in the order in which they have been arranged, with the
markers that they have been given, and with the same lines in the same blocks, then it is written in
the same way:

* `Item.AllReread.arranged_eq`: items that have been arranged stay where they are;
* `Block.AllReread.script_eq`: the markers, numbers and lines are the same, and so are the blank
  lines between them;
* `FormatOptions.format_again`: formatting the output gives the output.

But it may be read as something else (`FormatOptions.format_again_differs`). Of an outline it is
known how the output is read: see `FormatOptions.format_outline`.
-/

namespace Taskdown

/-! ## Markers -/

theorem Text.toLower_toLower (c : Char) : c.toLower.toLower = c.toLower := by
  by_cases hc : c.val ≥ 'A'.val ∧ c.val ≤ 'Z'.val
  · have hlower : c.toLower.val = c.val + 32 := by
      unfold Char.toLower
      rw [dif_pos hc]
      rfl
    have hA : 65 ≤ c.val.toNat := UInt32.le_iff_toNat_le.1 hc.1
    have hZ : c.val.toNat ≤ 90 := UInt32.le_iff_toNat_le.1 hc.2
    refine dif_neg fun h => ?_
    have h := UInt32.le_iff_toNat_le.1 h.2
    rw [hlower, UInt32.toNat_add] at h
    change (c.val.toNat + 32) % 4294967296 ≤ 90 at h
    omega
  · rw [show c.toLower = c from dif_neg hc]
    exact dif_neg hc

theorem Text.toUpper_toUpper (c : Char) : c.toUpper.toUpper = c.toUpper := by
  by_cases hc : 'a'.val ≤ c.val ∧ c.val ≤ 'z'.val
  · have hupper : c.toUpper.val = c.val + ('A'.val - 'a'.val) := by
      unfold Char.toUpper
      rw [dif_pos hc]
    have ha : 97 ≤ c.val.toNat := UInt32.le_iff_toNat_le.1 hc.1
    have hz : c.val.toNat ≤ 122 := UInt32.le_iff_toNat_le.1 hc.2
    refine dif_neg fun h => ?_
    have h := UInt32.le_iff_toNat_le.1 h.1
    rw [hupper, UInt32.toNat_add, UInt32.toNat_sub] at h
    change 97 ≤ (c.val.toNat + (4294967296 - 97 + 65) % 4294967296) % 4294967296 at h
    omega
  · rw [show c.toUpper = c from dif_neg hc]
    exact dif_neg hc

theorem TaskCase.apply_apply (cs : Text) (case : TaskCase) :
    case.apply (case.apply cs) = case.apply cs := by
  cases case with
  | asIs => rfl
  | lowercase =>
    refine (List.map_map ..).trans (List.map_congr_left fun c _ => ?_)
    exact Text.toLower_toLower c
  | uppercase =>
    refine (List.map_map ..).trans (List.map_congr_left fun c _ => ?_)
    exact Text.toUpper_toUpper c

/-- The item `again` has the markers that an item of a list is written with. -/
structure Item.WrittenAs (o : FormatOptions) (start : Option Nat) (ordinal : Nat)
    (item again : Item) : Prop where
  marker : again.marker.text = item.newMarker start ordinal
  task : again.task.map (fun task => (task.view.text, task.done)) =
    (o.taskMarker item).map fun text => (text, item.isComplete)
  /-- In an ordered list all items are numbered. -/
  ordered : start.isSome → item.isOrdered

namespace Item.WrittenAs

variable {o : FormatOptions} {start : Option Nat} {ordinal : Nat} {item again : Item}

theorem newMarker_eq (h : item.WrittenAs o start ordinal again) :
    again.newMarker start ordinal = item.newMarker start ordinal := by
  cases start with
  | none => exact h.marker
  | some n =>
    -- The last character of the marker is its delimiter.
    have hlast : again.marker.text.getLast? = some (item.marker.text.getLast?.getD '.') := by
      rw [h.marker]
      exact List.getLast?_concat
    change (toString (n + ordinal)).toList ++ [again.marker.text.getLast?.getD '.'] = _
    rw [hlast]
    rfl

/-- A task is done as before, unless its marker has been left out. -/
theorem task_cases (h : item.WrittenAs o start ordinal again) :
    (o.taskMarker item = none ∧ again.task = none ∧ item.isIncomplete = false) ∨
      ∃ task task', item.task = some task ∧ again.task = some task' ∧ task'.done = task.done ∧
        (task.done && o.placement.unmarksComplete) = false ∧
        task'.view.text = o.taskCase.apply task.view.text := by
  have htask := h.task
  rw [FormatOptions.taskMarker] at htask ⊢
  cases hitem : item.task with
  | none =>
    rw [hitem] at htask
    exact .inl ⟨rfl, Option.map_eq_none_iff.1 htask, by rw [Item.isIncomplete, hitem]; rfl⟩
  | some task =>
    rw [hitem] at htask
    dsimp only at htask ⊢
    cases hmarks : task.done && o.placement.unmarksComplete with
    | true =>
      rw [hmarks] at htask
      refine .inl ⟨rfl, Option.map_eq_none_iff.1 htask, ?_⟩
      rw [Item.isIncomplete, hitem]
      exact congrArg not (Bool.and_eq_true_iff.1 hmarks).1
    | false =>
      rw [hmarks] at htask
      obtain ⟨task', htask', heq⟩ := Option.map_eq_some_iff.1 htask
      obtain ⟨htext, hdone⟩ := Prod.mk.inj heq
      refine .inr ⟨task, task', rfl, htask', hdone.trans ?_, hmarks, htext⟩
      rw [Item.isComplete, hitem]
      rfl

theorem taskMarker_eq (h : item.WrittenAs o start ordinal again) :
    o.taskMarker again = o.taskMarker item := by
  rcases h.task_cases with ⟨hnone, hagain, -⟩ | ⟨task, task', hitem, hagain, hdone, hmarks, htext⟩
  · rw [hnone, FormatOptions.taskMarker, hagain]
  · rw [FormatOptions.taskMarker, FormatOptions.taskMarker, hitem, hagain]
    dsimp only
    rw [hdone, hmarks, htext, TaskCase.apply_apply]

theorem isIncomplete_eq (h : item.WrittenAs o start ordinal again) :
    again.isIncomplete = item.isIncomplete := by
  rcases h.task_cases with ⟨-, hagain, hincomplete⟩ | ⟨task, task', hitem, hagain, hdone, -, -⟩
  · rw [hincomplete, Item.isIncomplete, hagain]
    rfl
  · rw [Item.isIncomplete, Item.isIncomplete, hitem, hagain, Option.any_some,
      Option.any_some, hdone]

/-- A number has no priority of its own, and a bullet stays as it is. -/
theorem taskPriority_eq (h : item.WrittenAs o start ordinal again) :
    o.taskPriority again = o.taskPriority item := by
  cases start with
  | none =>
    have htext : again.marker.text = item.marker.text := h.marker
    rw [FormatOptions.taskPriority, FormatOptions.taskPriority, Item.isOrdered,
      Item.isOrdered, htext]
  | some n =>
    have hitem : item.isOrdered := h.ordered rfl
    have hlast : again.marker.text.getLast? = item.marker.text.getLast? := by
      rw [Item.isOrdered, Option.any_eq_true_iff_get] at hitem
      obtain ⟨hsome, -⟩ := hitem
      obtain ⟨d, hd⟩ := Option.isSome_iff_exists.1 hsome
      rw [h.marker, hd]
      refine List.getLast?_concat.trans ?_
      rw [hd]
      rfl
    have hagain : again.isOrdered := by
      rw [Item.isOrdered, hlast]
      exact hitem
    rw [FormatOptions.taskPriority, FormatOptions.taskPriority, if_pos hitem, if_pos hagain]

end Item.WrittenAs

/-! ## Documents that are read again -/

mutual

/-- What a block has been written as, in an item whose content starts at a column, is read as a
    block in an item whose content starts at another column. -/
inductive Block.Reread (o : FormatOptions) : Nat → Nat → Block → Block → Prop
  | paragraph {indent indent' : Nat} {view view' : View} : view'.textLines = view.textLines →
      view'.trim.isEmpty = view.trim.isEmpty →
      Block.Reread o indent indent' (.paragraph view) (.paragraph view')
  | heading {indent indent' : Nat} {view view' : View} : view'.textLines = view.textLines →
      Block.Reread o indent indent' (.heading view) (.heading view')
  | code {indent indent' : Nat} {view view' : View} :
      view'.keptLines indent' = view.keptLines indent →
      Block.Reread o indent indent' (.code view) (.code view')
  | other {indent indent' : Nat} {view view' : View} :
      view'.keptLines indent' = view.keptLines indent →
      Block.Reread o indent indent' (.other view) (.other view')
  /-- The items are read in the order in which they have been arranged. -/
  | list {indent indent' : Nat} {view view' : View} {start : Option Nat} {loose : Bool}
      {items again : List Item} : Item.AllReread o start 0 (o.arranged id items) again →
      Block.Reread o indent indent' (.list view start loose items) (.list view' start loose again)

/-- What the items of a list have been written as, from an ordinal on, is read as other items. -/
inductive Item.AllReread (o : FormatOptions) : Option Nat → Nat → List Item → List Item → Prop
  | nil {start : Option Nat} {ordinal : Nat} : Item.AllReread o start ordinal [] []
  /-- An item without content may have lost its empty paragraphs. -/
  | emptyItem {start : Option Nat} {ordinal : Nat} {item item' : Item} {items again : List Item} :
      item.WrittenAs o start ordinal item' → item.children.all Block.isEmpty →
      item'.children.all Block.isEmpty → Item.AllReread o start (ordinal + 1) items again →
      Item.AllReread o start ordinal (item :: items) (item' :: again)
  | item {start : Option Nat} {ordinal : Nat} {item item' : Item} {items again : List Item} :
      item.WrittenAs o start ordinal item' →
      Block.AllReread o item.contentColumn item'.contentColumn item.children item'.children →
      Item.AllReread o start (ordinal + 1) items again →
      Item.AllReread o start ordinal (item :: items) (item' :: again)

/-- What blocks have been written as is read as other blocks. -/
inductive Block.AllReread (o : FormatOptions) : Nat → Nat → List Block → List Block → Prop
  | nil {indent indent' : Nat} : Block.AllReread o indent indent' [] []
  | cons {indent indent' : Nat} {block block' : Block} {blocks again : List Block} :
      Block.Reread o indent indent' block block' → Block.AllReread o indent indent' blocks again →
      Block.AllReread o indent indent' (block :: blocks) (block' :: again)

end

/-! ## What is arranged stays arranged -/

theorem Item.topPriority_eq_foldr (o : FormatOptions) (items : List Item) :
    Item.topPriority o items = (items.map (Item.priority o)).foldr max Int32.minValue := by
  induction items with
  | nil => rw [Item.topPriority, List.map_nil, List.foldr_nil]
  | cons item items ih => rw [Item.topPriority, ih, List.map_cons, List.foldr_cons]

/-- The highest priority does not depend on the order of the items. -/
theorem Item.topPriority_perm {o : FormatOptions} {items items' : List Item}
    (h : items.Perm items') : Item.topPriority o items = Item.topPriority o items' := by
  refine Int32.le_antisymm (Item.topPriority_le_iff.2 fun item hitem => ?_)
    (Item.topPriority_le_iff.2 fun item hitem => ?_)
  · exact Item.topPriority_le_iff.1 (Int32.le_refl _) item (h.mem_iff.1 hitem)
  · exact Item.topPriority_le_iff.1 (Int32.le_refl _) item (h.mem_iff.2 hitem)

/-- An item without content has no tasks below it. -/
theorem Block.tasks_of_all_isEmpty {blocks : List Block} (h : blocks.all Block.isEmpty)
    (o : FormatOptions) :
    Block.anyIncomplete blocks = false ∧ Block.topPriority o blocks = Int32.minValue := by
  induction blocks with
  | nil => simp only [Block.anyIncomplete, Block.topPriority, and_self]
  | cons block blocks ih =>
    rw [List.all_cons, Bool.and_eq_true] at h
    cases block with
    | paragraph view =>
      simp only [Block.anyIncomplete, Block.topPriority]
      exact ih h.2
    | heading | code | list | other => exact absurd h.1 Bool.false_ne_true

section

variable {o : FormatOptions} {start : Option Nat} {ordinal indent indent' : Nat} {item item' : Item}

/-- An item is arranged as before if the tasks below it are. -/
theorem Item.WrittenAs.tasks_eq (h : item.WrittenAs o start ordinal item')
    (hany : Block.anyIncomplete item'.children = Block.anyIncomplete item.children)
    (htop : Block.topPriority o item'.children = Block.topPriority o item.children) :
    item'.goesFirst o.placement.nested = item.goesFirst o.placement.nested ∧
    item'.priority o = item.priority o := by
  rw [Item.goesFirst, Item.goesFirst, Item.priority_eq, Item.priority_eq, h.isIncomplete_eq,
    h.taskPriority_eq, hany, htop]
  exact ⟨rfl, rfl⟩

mutual

theorem Block.AllReread.tasks_eq {indent indent' : Nat} : ∀ {blocks again : List Block},
    Block.AllReread o indent indent' blocks again →
    Block.anyIncomplete again = Block.anyIncomplete blocks ∧ Block.topPriority o again =
    Block.topPriority o blocks
  | _, _, .nil => ⟨rfl, rfl⟩
  | _, _, .cons (.paragraph _ _) h | _, _, .cons (.heading _) h | _, _, .cons (.code _) h | _, _,
      .cons (.other _) h => by
    simp only [Block.anyIncomplete, Block.topPriority]
    exact h.tasks_eq
  | _, _, .cons (@Block.Reread.list _ _ _ _ _ _ _ items again hitems) h => by
    obtain ⟨hany, htop⟩ := h.tasks_eq
    obtain ⟨hanyItems, -, hpriorities⟩ := hitems.tasks_eq
    have hperm := o.arranged_perm id items
    rw [Block.anyIncomplete, Block.anyIncomplete, Block.topPriority, Block.topPriority,
      hany, htop, hanyItems, Item.topPriority_eq_foldr o again, hpriorities,
      ← Item.topPriority_eq_foldr, Item.topPriority_perm hperm, Item.anyIncomplete_eq_any,
      Item.anyIncomplete_eq_any, hperm.any_eq]
    exact ⟨rfl, rfl⟩

theorem Item.AllReread.tasks_eq {start : Option Nat} {ordinal : Nat} : ∀ {items again : List Item},
    Item.AllReread o start ordinal items again →
    Item.anyIncomplete again = Item.anyIncomplete items ∧
      again.map (Item.goesFirst o.placement.nested) =
        items.map (Item.goesFirst o.placement.nested) ∧
      again.map (Item.priority o) = items.map (Item.priority o)
  | _, _, .nil => ⟨rfl, rfl, rfl⟩
  | _, _, .emptyItem hw he he' h => by
    obtain ⟨hany, htop⟩ := Block.tasks_of_all_isEmpty he o
    obtain ⟨hany', htop'⟩ := Block.tasks_of_all_isEmpty he' o
    obtain ⟨hfirst, hpriority⟩ := hw.tasks_eq (hany'.trans hany.symm) (htop'.trans htop.symm)
    obtain ⟨hanyItems, hfirsts, hpriorities⟩ := h.tasks_eq
    rw [Item.anyIncomplete_eq_any, Item.anyIncomplete_eq_any] at hanyItems ⊢
    rw [List.any_cons, List.any_cons, hanyItems, hw.isIncomplete_eq, hany, hany', List.map_cons,
      List.map_cons, hfirst, hfirsts, List.map_cons, List.map_cons, hpriority, hpriorities]
    exact ⟨rfl, rfl, rfl⟩
  | _, _, .item hw hc h => by
    obtain ⟨hany, htop⟩ := hc.tasks_eq
    obtain ⟨hfirst, hpriority⟩ := hw.tasks_eq hany htop
    obtain ⟨hanyItems, hfirsts, hpriorities⟩ := h.tasks_eq
    rw [Item.anyIncomplete_eq_any, Item.anyIncomplete_eq_any] at hanyItems ⊢
    rw [List.any_cons, List.any_cons, hanyItems, hw.isIncomplete_eq, hany, List.map_cons,
      List.map_cons, hfirst, hfirsts, List.map_cons, List.map_cons, hpriority, hpriorities]
    exact ⟨rfl, rfl, rfl⟩

end

end

section

variable {o : FormatOptions}

/-- The items that are read again stay where they are, as their tasks and priorities have been
    arranged. -/
theorem Item.AllReread.arranged_eq {start : Option Nat} {ordinal : Nat} {items again : List Item}
    (h : Item.AllReread o start ordinal (o.arranged id items) again) :
    o.arranged id again = again := by
  by_cases hplacement : o.placement = .asIs
  · exact if_pos hplacement
  obtain ⟨first, rest, harranged, hfirst, hrest, hsorted⟩ :=
    FormatOptions.exists_arranged items hplacement
  obtain ⟨-, hfirsts, hpriorities⟩ := h.tasks_eq
  rw [harranged, List.map_append] at hfirsts hpriorities
  obtain ⟨first', rest', rfl, hfirst', hrest'⟩ := List.map_eq_append_iff.1 hfirsts
  rw [List.map_append] at hpriorities
  have hlength : (first'.map (Item.priority o)).length = (first.map (Item.priority o)).length := by
    have := congrArg List.length hfirst'
    rwa [List.length_map, List.length_map] at this ⊢
  have hpriority := (List.append_inj hpriorities hlength).1
  refine FormatOptions.arranged_append ?_ ?_ fun hprioritized => ?_
  · have hall : ∀ b ∈ first.map (Item.goesFirst o.placement.nested), b = true :=
      List.forall_mem_map.2 hfirst
    rw [← hfirst'] at hall
    exact List.forall_mem_map.1 hall
  · have hall : ∀ b ∈ rest.map (Item.goesFirst o.placement.nested), b = false :=
      List.forall_mem_map.2 hrest
    rw [← hrest'] at hall
    exact List.forall_mem_map.1 hall
  · have hpairs : (first.map (Item.priority o)).Pairwise fun m n => decide (n ≤ m) = true :=
      List.pairwise_map.2 (hsorted hprioritized)
    rw [← hpriority] at hpairs
    exact List.pairwise_map.1 hpairs

end

/-! ## What is written is written again -/

mutual

/-- Every block is written. -/
theorem Block.exists_script (o : FormatOptions) : ∀ (block : Block) (indent : Nat),
    ∃ script, block.script o indent = .ok script
  | .paragraph _, _ | .heading _, _ | .code _, _ | .other _, _ => ⟨_, rfl⟩
  | .list view start loose items, indent => by
    obtain ⟨bodies, hbodies⟩ := Item.exists_withBodies o loose items
    rw [Block.script, hbodies]
    change ∃ script, (o.arrangeBy Prod.fst bodies >>= _) = .ok script
    rw [o.arrangeBy_eq]
    exact ⟨_, rfl⟩

theorem Item.exists_withBodies (o : FormatOptions) (loose : Bool) : ∀ items : List Item,
    ∃ bodies, Item.withBodies o loose items = .ok bodies
  | [] => ⟨_, rfl⟩
  | ⟨view, marker, task, column, children⟩ :: items => by
    obtain ⟨script, hscript⟩ := Block.exists_scriptOfBlocks o loose children column false
    obtain ⟨bodies, hbodies⟩ := Item.exists_withBodies o loose items
    rw [Item.withBodies, hscript, hbodies]
    exact ⟨_, rfl⟩

theorem Block.exists_scriptOfBlocks (o : FormatOptions) (separated : Bool) :
    ∀ (blocks : List Block) (indent : Nat) (behind : Bool), ∃ script,
    Block.scriptOfBlocks o indent separated behind blocks = .ok script
  | [], _, _ => ⟨_, rfl⟩
  | block :: blocks, indent, behind => by
    obtain ⟨script, hscript⟩ := Block.exists_script o block indent
    obtain ⟨rest, hrest⟩ := Block.exists_scriptOfBlocks o separated blocks indent true
    rw [Block.scriptOfBlocks, hscript, hrest]
    exact ⟨_, rfl⟩

end

section

variable {o : FormatOptions} {loose : Bool}

/-- The body of an item is what writes its content. -/
theorem Item.withBodies_eq_ok_iff {items : List Item} {bodies : List (Item × Script)} :
    Item.withBodies o loose items = .ok bodies ↔ bodies.map Prod.fst = items ∧
      ∀ p ∈ bodies, Block.scriptOfBlocks o p.1.contentColumn loose false p.1.children =
        .ok p.2 := by
  induction items generalizing bodies with
  | nil =>
    rw [Item.withBodies, List.map_eq_nil_iff]
    constructor
    · intro h
      obtain rfl := Except.ok.inj h
      exact ⟨rfl, List.forall_mem_nil _⟩
    · rintro ⟨rfl, -⟩
      rfl
  | cons item items ih =>
    obtain ⟨view, marker, task, column, children⟩ := item
    rw [Item.withBodies]
    constructor
    · intro h
      obtain ⟨script, hscript, h⟩ := bind_eq_ok_iff.1 h
      obtain ⟨rest, hrest, h⟩ := bind_eq_ok_iff.1 h
      obtain rfl := Except.ok.inj h
      obtain ⟨hitems, hall⟩ := ih.1 hrest
      exact ⟨congrArg _ hitems, List.forall_mem_cons.2 ⟨hscript, hall⟩⟩
    · rintro ⟨hitems, hall⟩
      obtain ⟨⟨item, script⟩, rest, rfl, rfl, hrest⟩ := List.map_eq_cons_iff.1 hitems
      obtain ⟨hscript, hall⟩ := List.forall_mem_cons.1 hall
      exact (bind_of_eq_ok hscript).trans (bind_of_eq_ok (ih.2 ⟨hrest, hall⟩))

/-- A list is written by arranging its items first. -/
theorem Block.script_list {view : View} {start : Option Nat} {items : List Item}
    {bodies : List (Item × Script)} (h : Item.withBodies o loose (o.arranged id items) = .ok bodies)
    (indent : Nat) : (Block.list view start loose items).script o indent =
    .ok (Item.scriptOfList o start loose 0 bodies) := by
  obtain ⟨bodies', hbodies'⟩ := Item.exists_withBodies o loose items
  obtain ⟨hitems, hall⟩ := Item.withBodies_eq_ok_iff.1 hbodies'
  -- What is arranged with the items keeps its item.
  have hmap : (o.arranged Prod.fst bodies').map Prod.fst = o.arranged id items := by
    rw [← hitems]
    exact o.map_arranged id Prod.fst bodies'
  have harranged : Item.withBodies o loose (o.arranged id items) =
      .ok (o.arranged Prod.fst bodies') :=
    Item.withBodies_eq_ok_iff.2 ⟨hmap,
      fun p hp => hall p ((o.arranged_perm Prod.fst bodies').mem_iff.1 hp)⟩
  obtain rfl := Except.ok.inj (h.symm.trans harranged)
  rw [Block.script, hbodies']
  change (o.arrangeBy Prod.fst bodies' >>= _) = _
  rw [o.arrangeBy_eq]
  rfl

/-- An item is written as before if its content is. -/
theorem Item.WrittenAs.script_eq {start : Option Nat} {ordinal : Nat} {item again : Item}
    {body body' : Script} (h : item.WrittenAs o start ordinal again)
    (hempty : again.children.all Block.isEmpty = item.children.all Block.isEmpty)
    (hbody : item.children.all Block.isEmpty = true ∨ body' = body) :
    again.script o start ordinal body' = item.script o start ordinal body := by
  rw [Item.script, Item.script, h.newMarker_eq, h.taskMarker_eq, hempty]
  split
  · rfl
  · next hne =>
    rw [hbody.resolve_left hne]

mutual

theorem Block.Reread.script_eq {indent indent' : Nat} :
    ∀ {block again : Block}, Block.Reread o indent indent' block again →
    again.script o indent' = block.script o indent ∧ again.isEmpty = block.isEmpty
  | _, _, .paragraph hlines hempty => by
    rw [Block.script, Block.script, hlines]
    exact ⟨rfl, hempty⟩
  | _, _, .heading hlines => by
    rw [Block.script, Block.script, hlines]
    exact ⟨rfl, rfl⟩
  | _, _, .code hlines => by
    rw [Block.script, Block.script, hlines]
    exact ⟨rfl, rfl⟩
  | _, _, .other hlines => by
    rw [Block.script, Block.script, hlines]
    exact ⟨rfl, rfl⟩
  | _, _, @Block.Reread.list _ _ _ _ _ start loose items again h => by
    obtain ⟨bodies, hbodies⟩ := Item.exists_withBodies o loose (o.arranged id items)
    obtain ⟨bodies', hbodies'⟩ := Item.exists_withBodies o loose again
    have hagain : Item.withBodies o loose (o.arranged id again) = .ok bodies' := by
      rwa [h.arranged_eq]
    rw [Block.script_list hbodies, Block.script_list hagain, h.scriptOfList_eq hbodies hbodies']
    exact ⟨rfl, rfl⟩

theorem Item.AllReread.scriptOfList_eq {start : Option Nat} {ordinal : Nat} {loose : Bool} :
    ∀ {items again : List Item} {bodies bodies' : List (Item × Script)},
    Item.AllReread o start ordinal items again → Item.withBodies o loose items = .ok bodies →
    Item.withBodies o loose again = .ok bodies' → Item.scriptOfList o start loose ordinal bodies' =
    Item.scriptOfList o start loose ordinal bodies
  | _, _, bodies, bodies', .nil, h, h' => by
    obtain rfl := Except.ok.inj (h.symm.trans h')
    rfl
  | _, _, bodies, bodies', .emptyItem hw he he' hitems, h, h' => by
    have ih := fun rest rest' => @Item.AllReread.scriptOfList_eq _ _ loose _ _ rest rest' hitems
    obtain ⟨hcons, hall⟩ := Item.withBodies_eq_ok_iff.1 h
    obtain ⟨hcons', hall'⟩ := Item.withBodies_eq_ok_iff.1 h'
    obtain ⟨⟨item, body⟩, rest, rfl, rfl, hrest⟩ := List.map_eq_cons_iff.1 hcons
    obtain ⟨⟨item', body'⟩, rest', rfl, rfl, hrest'⟩ := List.map_eq_cons_iff.1 hcons'
    have hscripts :=
      ih rest rest' (Item.withBodies_eq_ok_iff.2 ⟨hrest, (List.forall_mem_cons.1 hall).2⟩)
        (Item.withBodies_eq_ok_iff.2 ⟨hrest', (List.forall_mem_cons.1 hall').2⟩)
    rw [Item.scriptOfList, Item.scriptOfList, hscripts, hw.script_eq (he'.trans he.symm) (.inl he)]
  | _, _, bodies, bodies', .item hw hchildren hitems, h, h' => by
    have ih := fun rest rest' => @Item.AllReread.scriptOfList_eq _ _ loose _ _ rest rest' hitems
    obtain ⟨hcontent, hempty⟩ := hchildren.script_eq
    obtain ⟨hcons, hall⟩ := Item.withBodies_eq_ok_iff.1 h
    obtain ⟨hcons', hall'⟩ := Item.withBodies_eq_ok_iff.1 h'
    obtain ⟨⟨item, body⟩, rest, rfl, rfl, hrest⟩ := List.map_eq_cons_iff.1 hcons
    obtain ⟨⟨item', body'⟩, rest', rfl, rfl, hrest'⟩ := List.map_eq_cons_iff.1 hcons'
    obtain ⟨hbody, hall⟩ := List.forall_mem_cons.1 hall
    obtain ⟨hbody', hall'⟩ := List.forall_mem_cons.1 hall'
    have hscripts := ih rest rest' (Item.withBodies_eq_ok_iff.2 ⟨hrest, hall⟩)
      (Item.withBodies_eq_ok_iff.2 ⟨hrest', hall'⟩)
    have hsame : body' = body :=
      Except.ok.inj (hbody'.symm.trans ((hcontent loose false).trans hbody))
    rw [Item.scriptOfList, Item.scriptOfList, hscripts, hw.script_eq hempty (.inr hsame)]

/-- Blocks are written as before. -/
theorem Block.AllReread.script_eq {indent indent' : Nat} : ∀ {blocks again : List Block},
    Block.AllReread o indent indent' blocks again →
    (∀ separated behind, Block.scriptOfBlocks o indent' separated behind again =
      Block.scriptOfBlocks o indent separated behind blocks) ∧
      again.all Block.isEmpty = blocks.all Block.isEmpty
  | _, _, .nil => ⟨fun _ _ => rfl, rfl⟩
  | _, _, .cons hblock hblocks => by
    obtain ⟨hscript, hempty⟩ := hblock.script_eq
    obtain ⟨hrest, hrestEmpty⟩ := hblocks.script_eq
    refine ⟨fun separated behind => ?_, ?_⟩
    · rw [Block.scriptOfBlocks, Block.scriptOfBlocks, hscript, hrest]
    · rw [List.all_cons, List.all_cons, hempty, hrestEmpty]

end

end

/-! ## Formatting again -/

theorem Block.AllReread.record_eq {o : FormatOptions} {blocks again : List Block}
    (h : Block.AllReread o 0 0 blocks again) : o.record again = o.record blocks := by
  rw [FormatOptions.record, FormatOptions.record, h.script_eq.1]

/-- If the output of a document is read as what has been written, then formatting it gives the same
    output. -/
theorem FormatOptions.format_again (o : FormatOptions) {text : Text} {f : Formatted}
    {blocks again : List Block} (hformat : o.format text = .ok f)
    (hbuilt : Block.listOfView (View.of ⟨0, text⟩) = .ok blocks)
    (hagain : Block.listOfView (View.of ⟨0, f.text⟩) = .ok again)
    (h : Block.AllReread o 0 0 blocks again) : o.format f.text = .ok f := by
  rw [FormatOptions.format, hbuilt, bind_lift_error] at hformat
  rw [FormatOptions.format, hagain, bind_lift_error, h.record_eq]
  exact hformat

/-- A task goes in front of an item that is no task, and stays there. -/
theorem FormatOptions.format_again_of_task :
    ∃ f : Formatted, f.text = ['-', ' ', '[', ' ', ']', ' ', 'b', '\n', '-', ' ', 'a', '\n'] ∧
      ({ placement := .incompleteFirst } : FormatOptions).format
        ['-', ' ', 'a', '\n', '-', ' ', '[', ' ', ']', ' ', 'b'] = .ok f ∧
      ({ placement := .incompleteFirst } : FormatOptions).format f.text = .ok f := by
  obtain ⟨f, hformat, htext⟩ :
        ∃ f : Formatted, ({ placement := .incompleteFirst } : FormatOptions).format ['-', ' ', 'a',
          '\n', '-', ' ', '[', ' ', ']', ' ', 'b'] = .ok f ∧
      f.text = ['-', ' ', '[', ' ', ']', ' ', 'b', '\n', '-', ' ', 'a', '\n'] := ⟨_, rfl, rfl⟩
  let v (start stop : Nat) : View :=
    ⟨⟨0, ['-', ' ', 'a', '\n', '-', ' ', '[', ' ', ']', ' ', 'b']⟩, ⟨start, stop⟩, none⟩
  let v' (start stop : Nat) : View :=
    ⟨⟨0, ['-', ' ', '[', ' ', ']', ' ', 'b', '\n', '-', ' ', 'a', '\n']⟩, ⟨start, stop⟩, none⟩
  let item (view : View) (task : Option Task) (content : View) : Item :=
    ⟨view, Item.markerOf view, task, Item.contentColumnOf (Item.markerOf view),
      [.paragraph content]⟩
  let plain := item (v 0 4) none (v 2 3)
  let task := item (v 4 11) (some ⟨v 6 9, false⟩) (v 10 11)
  let plain' := item (v' 8 12) none (v' 10 11)
  let task' := item (v' 0 8) (some ⟨v' 2 5, false⟩) (v' 6 7)
  have hstructure : Markup.structureOf (v 0 11).source.text =
      [.block (.list none) ⟨0, 11⟩ [.block .item ⟨0, 4⟩ [.text ⟨2, 3⟩],
        .block .item ⟨4, 11⟩ [.task ⟨6, 9⟩ false, .text ⟨10, 11⟩]]] := rfl
  have hstructure' : Markup.structureOf (v' 0 12).source.text =
      [.block (.list none) ⟨0, 12⟩ [.block .item ⟨0, 8⟩ [.task ⟨2, 5⟩ false, .text ⟨6, 7⟩],
        .block .item ⟨8, 12⟩ [.text ⟨10, 11⟩]]] := rfl
  have hbuilt : Block.listOfView (v 0 11) = .ok [.list (v 0 11) none false [plain, task]] := by
    refine (congrArg (Block.listOfNodes (v 0 11) none) hstructure).trans ?_
    rfl
  have hagain : Block.listOfView (.of ⟨0, f.text⟩) =
      .ok [.list (v' 0 12) none false [task', plain']] := by
    rw [htext]
    refine (congrArg (Block.listOfNodes (v' 0 12) none) hstructure').trans ?_
    rfl
  have harranged : ({ placement := .incompleteFirst } : FormatOptions).arranged id [plain, task] =
    [task, plain] := rfl
  -- Each of the two is read as it has been written.
  have hplain : plain.WrittenAs { placement := .incompleteFirst } none 1 plain' := ⟨rfl, rfl, nofun⟩
  have htask : task.WrittenAs { placement := .incompleteFirst } none 0 task' := ⟨rfl, rfl, nofun⟩
  have ha : Block.Reread { placement := .incompleteFirst } plain.contentColumn plain'.contentColumn
      (.paragraph (v 2 3)) (.paragraph (v' 10 11)) :=
    .paragraph (by decide +kernel) (by decide +kernel)
  have hb : Block.Reread { placement := .incompleteFirst } task.contentColumn task'.contentColumn
      (.paragraph (v 10 11)) (.paragraph (v' 6 7)) :=
    .paragraph (by decide +kernel) (by decide +kernel)
  refine ⟨f, htext, hformat, format_again _ hformat hbuilt hagain (.cons (.list ?_) .nil)⟩
  rw [harranged]
  exact .item htask (.cons hb .nil) (.item hplain (.cons ha .nil) .nil)

/-- The content of an item with a bullet starts in column 2, but of code in its first line the
    indentation is counted from right behind the bullet, which is column 1. So one column too many
    is cut off, and what is written is read as a paragraph. -/
theorem FormatOptions.format_again_differs :
    ∃ f g : Formatted, ({} : FormatOptions).format ['-', ' ', ' ', ' ', ' ', ' ', 'a'] = .ok f ∧
      ({} : FormatOptions).format f.text = .ok g ∧ g.text ≠ f.text := by
  obtain ⟨f, hf, htext⟩ : ∃ f : Formatted, ({} : FormatOptions).format ['-', ' ', ' ', ' ',
      ' ', ' ', 'a'] = .ok f ∧ f.text = ['-', ' ', ' ', ' ', ' ', 'a', '\n'] := ⟨_, rfl, rfl⟩
  obtain ⟨g, hg, hagain⟩ : ∃ g : Formatted, ({} : FormatOptions).format ['-', ' ', ' ', ' ', ' ',
      'a', '\n'] = .ok g ∧ g.text = ['-', ' ', 'a', '\n'] := ⟨_, rfl, rfl⟩
  refine ⟨f, g, hf, htext ▸ hg, ?_⟩
  rw [htext, hagain]
  decide

end Taskdown
