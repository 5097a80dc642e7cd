import Mathlib.Logic.Relation
import Mathlib.Order.Bounds.Basic
import Mathlib.Tactic.Tauto
import Taskdown.Proofs.Document.Arrangement

/-!
# Incomplete tasks below an item

The items of the lists among the children of an item are its *children* in the tree of items
(`Item.HasChild`), and its *open tasks* are the incomplete tasks among itself and all items below it
(`Item.openTasks`). The two walks over the tree, the one that looks for an incomplete task and stops
at the first, and the one that takes the highest priority of all, are about the same set of items:

* `Item.priority_le_iff_openTasks`: the priority of an item is bounded by exactly what bounds the
  priorities of its open tasks;
* `Item.goesFirst_iff`: where tasks below an item count, those items go first that have an open
  task;
* `Item.Gains.priority_eq`: a new item anywhere below an item raises its priority to that of the new
  item, or leaves it alone;
* `Item.priority_follows_tasks`: the priority of an item is the highest one of its open tasks.
-/

namespace Taskdown

open Relation

variable {o : FormatOptions} {item child new item' : Item} {n : Int32}

/-! ## The tree of items -/

/-- The item stands in one of the lists among the blocks. -/
def Block.Lists (blocks : List Block) (item : Item) : Prop :=
  ∃ view start loose items, .list view start loose items ∈ blocks ∧ item ∈ items

/-- The child stands in one of the lists among the children of the item. -/
def Item.HasChild (item child : Item) : Prop := Block.Lists item.children child

/-- The incomplete tasks among an item and all items below it. -/
def Item.openTasks (item : Item) : Set Item :=
  {task | ReflTransGen Item.HasChild item task ∧ task.isIncomplete}

theorem Block.not_lists_nil : ¬ Block.Lists [] item := by
  rintro ⟨_, _, _, _, hmem, -⟩
  cases hmem

theorem Block.lists_cons {block : Block} {blocks : List Block} :
    Block.Lists (block :: blocks) item ↔
    (∃ view start loose items, block = .list view start loose items ∧ item ∈ items) ∨
    Block.Lists blocks item := by
  simp only [Block.Lists, List.mem_cons, or_and_right, exists_or, eq_comm]

theorem Block.lists_append {front back : List Block} :
    Block.Lists (front ++ back) item ↔ Block.Lists front item ∨ Block.Lists back item := by
  simp only [Block.Lists, List.mem_append, or_and_right, exists_or]

section

variable {view : View} {start : Option Nat} {loose : Bool} {items : List Item}

@[simp] theorem Block.lists_list_cons {blocks : List Block} :
    Block.Lists (.list view start loose items :: blocks) item ↔ item ∈ items ∨
    Block.Lists blocks item := by
  rw [Block.lists_cons]
  refine or_congr_left ⟨?_, fun h => ⟨_, _, _, _, rfl, h⟩⟩
  rintro ⟨_, _, _, _, heq, h⟩
  cases heq
  exact h

/-- A list among the blocks has its own items, and the other lists have the others. -/
theorem Block.lists_append_list {front back : List Block} :
    Block.Lists (front ++ .list view start loose items :: back) item ↔
      item ∈ items ∨ Block.Lists (front ++ back) item := by
  rw [Block.lists_append, Block.lists_list_cons, Block.lists_append, or_left_comm]

end

theorem Item.HasChild.sizeOf_lt (h : item.HasChild child) : sizeOf child < sizeOf item := by
  obtain ⟨view, start, loose, items, hlist, hchild⟩ := h
  have hitems := List.sizeOf_lt_of_mem hchild
  have hblocks := List.sizeOf_lt_of_mem hlist
  obtain ⟨_, _, _, _, children⟩ := item
  simp only [Block.list.sizeOf_spec, Item.mk.sizeOf_spec] at hblocks ⊢
  omega

/-- What holds of an item if it holds of its children holds of all items. -/
theorem Item.byChildren {p : Item → Prop}
    (h : ∀ item, (∀ child, item.HasChild child → p child) → p item) (item : Item) : p item :=
  h item fun child _ => Item.byChildren h child
termination_by sizeOf item
decreasing_by exact Item.HasChild.sizeOf_lt ‹_›

/-- An open task of an item is the item itself, or an open task of one of its children. -/
theorem Item.mem_openTasks_iff {task : Item} : task ∈ item.openTasks ↔
    (task = item ∧ item.isIncomplete) ∨ ∃ child, item.HasChild child ∧ task ∈ child.openTasks := by
  constructor
  · rintro ⟨hreach, htask⟩
    rcases ReflTransGen.cases_head hreach with rfl | ⟨child, hchild, hreach⟩
    · exact .inl ⟨rfl, htask⟩
    · exact .inr ⟨child, hchild, hreach, htask⟩
  · rintro (⟨rfl, htask⟩ | ⟨child, hchild, hreach, htask⟩)
    · exact ⟨.refl, htask⟩
    · exact ⟨.head hchild hreach, htask⟩

/-! ## Looking for an incomplete task -/

theorem Item.anyIncomplete_eq_any (items : List Item) :
    Item.anyIncomplete items = items.any fun item => item.isIncomplete ||
    Block.anyIncomplete item.children := by
  induction items with
  | nil => rw [Item.anyIncomplete, List.any_nil]
  | cons item items ih =>
    cases item
    rw [Item.anyIncomplete, List.any_cons, ih]

theorem Block.anyIncomplete_iff {blocks : List Block} : Block.anyIncomplete blocks = true ↔
    ∃ item, Block.Lists blocks item ∧ (item.isIncomplete ∨ Block.anyIncomplete item.children) := by
  induction blocks with
  | nil =>
    rw [Block.anyIncomplete]
    refine iff_of_false Bool.false_ne_true ?_
    rintro ⟨item, hitem, -⟩
    exact Block.not_lists_nil hitem
  | cons block blocks ih =>
    cases block with
    | list view start loose items =>
      simp only [Block.anyIncomplete, Item.anyIncomplete_eq_any, Bool.or_eq_true,
        List.any_eq_true, ih, Block.lists_list_cons, or_and_right, exists_or]
    | paragraph | heading | code | other =>
      simp only [Block.anyIncomplete, ih, Block.lists_cons, reduceCtorEq, false_and,
        exists_false, false_or]

/-- An incomplete task is found below an item if and only if one of its children has an open
    task. -/
theorem Item.anyIncomplete_children_iff (item : Item) : Block.anyIncomplete item.children = true ↔
    ∃ child, item.HasChild child ∧ child.openTasks.Nonempty := by
  induction item using Item.byChildren with
  | h item ih =>
    rw [Block.anyIncomplete_iff]
    refine exists_congr fun child => and_congr_right fun hchild => ?_
    rw [ih child hchild]
    constructor
    · rintro (hopen | ⟨grandchild, hgrandchild, task, htask⟩)
      · exact ⟨child, Item.mem_openTasks_iff.2 (.inl ⟨rfl, hopen⟩)⟩
      · exact ⟨task, Item.mem_openTasks_iff.2 (.inr ⟨grandchild, hgrandchild, htask⟩)⟩
    · rintro ⟨task, htask⟩
      rcases Item.mem_openTasks_iff.1 htask with ⟨rfl, hopen⟩ | ⟨grandchild, hgrandchild, htask⟩
      · exact .inl hopen
      · exact .inr ⟨grandchild, hgrandchild, task, htask⟩

/-- Where tasks below an item count, the items that have an open task go first. -/
theorem Item.goesFirst_iff (item : Item) :
    item.goesFirst true = true ↔ item.openTasks.Nonempty := by
  rw [Item.goesFirst, Bool.true_and, Bool.or_eq_true, item.anyIncomplete_children_iff]
  constructor
  · rintro (hopen | ⟨child, hchild, task, htask⟩)
    · exact ⟨item, Item.mem_openTasks_iff.2 (.inl ⟨rfl, hopen⟩)⟩
    · exact ⟨task, Item.mem_openTasks_iff.2 (.inr ⟨child, hchild, htask⟩)⟩
  · rintro ⟨task, htask⟩
    rcases Item.mem_openTasks_iff.1 htask with ⟨rfl, hopen⟩ | ⟨child, hchild, htask⟩
    · exact .inl hopen
    · exact .inr ⟨child, hchild, task, htask⟩

/-! ## Taking the highest priority -/

theorem FormatOptions.max_le_iff {a b c : Int32} : max a b ≤ c ↔ a ≤ c ∧ b ≤ c := by
  have hmax : max a b = if a ≤ b then b else a := rfl
  rw [hmax]
  split
  · next h => exact ⟨fun hc => ⟨Int32.le_trans h hc, hc⟩, And.right⟩
  · next h =>
    have hba : b ≤ a := Int32.le_of_lt (Int32.not_le.1 h)
    exact ⟨fun hc => ⟨hc, Int32.le_trans hba hc⟩, And.left⟩

/-- Priorities with the same bounds are equal. -/
theorem FormatOptions.eq_of_forall_le_iff {a b : Int32} (h : ∀ n, a ≤ n ↔ b ≤ n) : a = b :=
  Int32.le_antisymm ((h b).2 (Int32.le_refl b)) ((h a).1 (Int32.le_refl a))

theorem Item.topPriority_le_iff {items : List Item} :
    Item.topPriority o items ≤ n ↔ ∀ item ∈ items, item.priority o ≤ n := by
  induction items with
  | nil =>
    rw [Item.topPriority]
    exact iff_of_true (Int32.minValue_le n) (List.forall_mem_nil _)
  | cons item items ih => rw [Item.topPriority, FormatOptions.max_le_iff, ih, List.forall_mem_cons]

theorem Block.topPriority_le_iff {blocks : List Block} :
    Block.topPriority o blocks ≤ n ↔ ∀ item, Block.Lists blocks item → item.priority o ≤ n := by
  induction blocks with
  | nil =>
    rw [Block.topPriority]
    exact iff_of_true (Int32.minValue_le n) fun _ h => absurd h Block.not_lists_nil
  | cons block blocks ih =>
    cases block with
    | list view start loose items =>
      simp only [Block.topPriority, FormatOptions.max_le_iff, Item.topPriority_le_iff, ih,
        Block.lists_list_cons, or_imp, forall_and]
    | paragraph | heading | code | other =>
      simp only [Block.topPriority, ih, Block.lists_cons, reduceCtorEq, false_and,
        exists_false, false_or]

theorem Item.priority_eq (o : FormatOptions) (item : Item) : item.priority o =
    max (if item.isIncomplete then o.taskPriority item else Int32.minValue)
    (Block.topPriority o item.children) := by
  cases item
  rw [Item.priority]

/-- A bound on the priority of an item is one on its own, if it is an incomplete task, and on those
    of its children. -/
theorem Item.priority_le_iff (item : Item) : item.priority o ≤ n ↔
    (item.isIncomplete → o.taskPriority item ≤ n) ∧ ∀ child, item.HasChild child →
    child.priority o ≤ n := by
  rw [Item.priority_eq, FormatOptions.max_le_iff, Block.topPriority_le_iff]
  refine and_congr_left fun _ => ?_
  split
  · next h => exact ⟨fun hn _ => hn, fun hn => hn h⟩
  · next h => exact iff_of_true (Int32.minValue_le n) fun h' => absurd h' h

/-- A bound on the priority of an item is one on those of its open tasks. -/
theorem Item.priority_le_iff_openTasks (item : Item) :
    item.priority o ≤ n ↔ ∀ task ∈ item.openTasks, o.taskPriority task ≤ n := by
  induction item using Item.byChildren with
  | h item ih =>
    rw [Item.priority_le_iff]
    constructor
    · rintro ⟨hown, hchildren⟩ task htask
      rcases Item.mem_openTasks_iff.1 htask with ⟨rfl, hopen⟩ | ⟨child, hchild, htask⟩
      · exact hown hopen
      · exact (ih child hchild).1 (hchildren child hchild) task htask
    · intro hall
      refine ⟨fun hopen => hall item (Item.mem_openTasks_iff.2 (.inl ⟨rfl, hopen⟩)),
        fun child hchild => ?_⟩
      exact (ih child hchild).2 fun task htask =>
        hall task (Item.mem_openTasks_iff.2 (.inr ⟨child, hchild, htask⟩))

theorem FormatOptions.max_eq_or (a b : Int32) : max a b = a ∨ max a b = b := by
  have hmax : max a b = if a ≤ b then b else a := rfl
  rw [hmax]
  split
  · exact .inr rfl
  · exact .inl rfl

theorem Item.exists_of_topPriority (o : FormatOptions) (items : List Item) :
    Item.topPriority o items = Int32.minValue ∨ ∃ item ∈ items, item.priority o =
    Item.topPriority o items := by
  induction items with
  | nil => exact .inl (by rw [Item.topPriority])
  | cons item items ih =>
    rw [Item.topPriority]
    rcases FormatOptions.max_eq_or (item.priority o) (Item.topPriority o items) with h | h <;>
      rw [h]
    · exact .inr ⟨item, List.mem_cons_self, rfl⟩
    · exact ih.imp id fun ⟨i, hi, heq⟩ => ⟨i, List.mem_cons_of_mem _ hi, heq⟩

theorem Block.exists_of_topPriority (o : FormatOptions) (blocks : List Block) :
    Block.topPriority o blocks = Int32.minValue ∨
      ∃ item, Block.Lists blocks item ∧ item.priority o = Block.topPriority o blocks := by
  induction blocks with
  | nil => exact .inl (by rw [Block.topPriority])
  | cons block blocks ih =>
    cases block with
    | list view start loose items =>
      rw [Block.topPriority]
      rcases FormatOptions.max_eq_or (Item.topPriority o items) (Block.topPriority o blocks) with h
        | h <;> rw [h]
      · refine (Item.exists_of_topPriority o items).imp id fun ⟨item, hitem, heq⟩ => ⟨item, ?_, heq⟩
        exact Block.lists_list_cons.2 (.inl hitem)
      · refine ih.imp id fun ⟨item, hitem, heq⟩ => ⟨item, ?_, heq⟩
        exact Block.lists_list_cons.2 (.inr hitem)
    | paragraph | heading | code | other =>
      simp only [Block.topPriority, Block.lists_cons, reduceCtorEq, false_and,
        exists_false, false_or]
      exact ih

/-- The priority of an item is that of one of its open tasks, unless it is the lowest number. -/
theorem Item.exists_of_priority (o : FormatOptions) (item : Item) :
    item.priority o = Int32.minValue ∨ ∃ task ∈ item.openTasks, o.taskPriority task =
    item.priority o := by
  induction item using Item.byChildren with
  | h item ih =>
    rw [Item.priority_eq]
    rcases FormatOptions.max_eq_or
      (if item.isIncomplete then o.taskPriority item else Int32.minValue)
      (Block.topPriority o item.children) with h | h <;> rw [h]
    · split
      · next hopen => exact .inr ⟨item, Item.mem_openTasks_iff.2 (.inl ⟨rfl, hopen⟩), rfl⟩
      · exact .inl rfl
    · rcases Block.exists_of_topPriority o item.children with hmin | ⟨child, hchild, heq⟩
      · exact .inl hmin
      · rw [← heq]
        refine (ih child hchild).imp id fun ⟨task, htask, heq⟩ => ⟨task, ?_, heq⟩
        exact Item.mem_openTasks_iff.2 (.inr ⟨child, hchild, htask⟩)

/-- An item with open tasks has the highest of their priorities. -/
theorem Item.isGreatest_priority (o : FormatOptions) (h : item.openTasks.Nonempty) :
    IsGreatest (o.taskPriority '' item.openTasks) (item.priority o) := by
  have hbound := item.priority_le_iff_openTasks.1 (Int32.le_refl (item.priority o))
  refine ⟨?_, Set.forall_mem_image.2 hbound⟩
  rcases item.exists_of_priority o with hmin | ⟨task, htask, heq⟩
  · -- Even the lowest number is the priority of a task then.
    obtain ⟨task, htask⟩ := h
    refine ⟨task, htask, Int32.le_antisymm (hbound task htask) ?_⟩
    rw [hmin]
    exact Int32.minValue_le _
  · exact ⟨task, htask, heq⟩

/-! ## A new item -/

/-- An item with a new item below it: in a list that it had, in a list of the new item's own, or
    below a child. -/
inductive Item.Gains (new : Item) : Item → Item → Prop
  | inList {item : Item} {front back : List Block} {view : View} {start : Option Nat} {loose : Bool}
      {before behind : List Item} (h : item.children = front ++ .list view start loose
        (before ++ behind) :: back) :
      Item.Gains new item { item with
        children := front ++ .list view start loose (before ++ new :: behind) :: back }
  | ownList {item : Item} {front back : List Block} {view : View} {start : Option Nat}
      {loose : Bool} (h : item.children = front ++ back) :
      Item.Gains new item { item with children := front ++ .list view start loose [new] :: back }
  | inChild {item child child' : Item} {front back : List Block} {view : View} {start : Option Nat}
      {loose : Bool} {before behind : List Item}
      (h : item.children = front ++ .list view start loose (before ++ child :: behind) :: back)
      (hc : Item.Gains new child child') :
      Item.Gains new item { item with
        children := front ++ .list view start loose (before ++ child' :: behind) :: back }

/-- Other children change the priority of an item as far as they change the bounds on those of its
    children. -/
theorem Item.priority_le_iff_of_children {children : List Block} {p : Prop}
    (h : (∀ child, Block.Lists children child → child.priority o ≤ n) ↔
      (∀ child, item.HasChild child → child.priority o ≤ n) ∧ p) :
    ({ item with children } : Item).priority o ≤ n ↔ item.priority o ≤ n ∧ p := by
  rw [Item.priority_le_iff, item.priority_le_iff, and_assoc]
  exact and_congr_right fun _ => h

/-- A bound on the priority of the item with the new one is a bound on both priorities. -/
theorem Item.Gains.priority_le_iff (h : Item.Gains new item item') :
    item'.priority o ≤ n ↔ item.priority o ≤ n ∧ new.priority o ≤ n := by
  induction h with
  | inList h =>
    refine Item.priority_le_iff_of_children ?_
    simp only [Item.HasChild, h, Block.lists_append_list, List.mem_append, List.mem_cons, or_imp,
      forall_and, forall_eq]
    tauto
  | ownList h =>
    refine Item.priority_le_iff_of_children ?_
    simp only [Item.HasChild, h, Block.lists_append_list, List.mem_singleton, or_imp,
      forall_and, forall_eq]
    tauto
  | inChild h _ ih =>
    refine Item.priority_le_iff_of_children ?_
    simp only [Item.HasChild, h, Block.lists_append_list, List.mem_append, List.mem_cons, or_imp,
      forall_and, forall_eq, ih]
    tauto

/-- A new item below an item counts as much as all that was there. -/
theorem Item.Gains.priority_eq (h : Item.Gains new item item') :
    item'.priority o = max (item.priority o) (new.priority o) :=
  FormatOptions.eq_of_forall_le_iff fun n => by rw [h.priority_le_iff, FormatOptions.max_le_iff]

/-! ## The priority of an item -/

/-- The priority of an item is the highest one of its open tasks, and the lowest number if it has
    none. Where tasks below an item count, arranging puts in front just the items that have an open
    task. No child has a higher priority than its parent, and no new item lowers the priority of
    those that it stands below. -/
theorem Item.priority_follows_tasks (o : FormatOptions) (item : Item) :
    (item.openTasks.Nonempty → IsGreatest (o.taskPriority '' item.openTasks) (item.priority o)) ∧
    (item.openTasks = ∅ → item.priority o = Int32.minValue) ∧
    (o.placement.nested → (item.goesFirst o.placement.nested ↔ item.openTasks.Nonempty) ∧
      ∀ items, ∃ first rest, o.arrange items = .ok (first ++ rest) ∧ (first ++ rest).Perm items ∧
        (∀ i ∈ first, i.openTasks.Nonempty) ∧ ∀ i ∈ rest, i.openTasks = ∅) ∧
    (∀ child, item.HasChild child → child.priority o ≤ item.priority o) ∧
    ∀ new item', Item.Gains new item item' →
      item.priority o ≤ item'.priority o ∧ item'.priority o = max (item.priority o)
        (new.priority o) := by
  refine ⟨Item.isGreatest_priority o, fun hnone => ?_, fun hnested => ⟨?_, fun items => ?_⟩, ?_,
    fun new item' h => ?_⟩
  · refine Int32.le_antisymm (item.priority_le_iff_openTasks.2 ?_) (Int32.minValue_le _)
    rw [hnone]
    exact fun _ h => absurd h (Set.notMem_empty _)
  · rw [hnested]
    exact item.goesFirst_iff
  · have hplacement : o.placement ≠ .asIs := fun h => by
      rw [h] at hnested
      cases hnested
    obtain ⟨first, rest, harranged, hfirst, hrest, -⟩ :=
      FormatOptions.exists_arranged items hplacement
    rw [hnested] at hfirst hrest
    refine ⟨first, rest, harranged ▸ o.arrangeBy_eq id items, harranged ▸ o.arranged_perm id items,
      fun i hi => i.goesFirst_iff.1 (hfirst i hi), fun i hi => ?_⟩
    rw [← Set.not_nonempty_iff_eq_empty, ← i.goesFirst_iff, hrest i hi]
    exact Bool.false_ne_true
  · exact (item.priority_le_iff.1 (Int32.le_refl _)).2
  · exact ⟨(h.priority_le_iff.1 (Int32.le_refl _)).1, h.priority_eq⟩

end Taskdown
