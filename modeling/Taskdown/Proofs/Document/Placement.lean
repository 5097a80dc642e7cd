import Mathlib.Logic.Relation
import Taskdown.Proofs.Document.TasksBelow

/-!
# Where the items of a list go

What arranging does is said in terms of the tree of items and of the order of the list alone: which
items go first (`Item.Pending`), in which order they go (`FormatOptions.Orders`), and that the
others follow (`FormatOptions.Arranges`). Neither positions that move nor a way to sort are part of
that, and yet it leaves no choice.

* `FormatOptions.Orders.unique`: items that are sorted by priority, with ties kept, are in one order
  only;
* `FormatOptions.arrange_is_stable`: arranging gives the items in the one order in which they are
  arranged, and does not change what is arranged already.
-/

namespace Taskdown

open Relation

/-! ## What goes first -/

/-- The item is an incomplete task, or such tasks count below it and there is one in its lists or
    below. -/
def Item.Pending (nested : Bool) (item : Item) : Prop :=
  item.isIncomplete ∨ nested ∧ ∃ task, TransGen Item.HasChild item task ∧ task.isIncomplete

theorem Item.goesFirst_iff_pending {nested : Bool} {item : Item} :
    item.goesFirst nested = true ↔ item.Pending nested := by
  rw [Item.goesFirst, Bool.or_eq_true, Bool.and_eq_true, Item.anyIncomplete_children_iff,
    Item.Pending]
  refine or_congr_right (and_congr_right fun _ => ?_)
  constructor
  · rintro ⟨child, hchild, task, hreach, htask⟩
    exact ⟨task, .head' hchild hreach, htask⟩
  · rintro ⟨task, hreach, htask⟩
    obtain ⟨child, hchild, hreach⟩ := TransGen.head'_iff.1 hreach
    exact ⟨child, hchild, task, hreach, htask⟩

instance (nested : Bool) (item : Item) : Decidable (item.Pending nested) :=
  decidable_of_iff _ Item.goesFirst_iff_pending

theorem Item.goesFirst_eq_decide (nested : Bool) (item : Item) :
    item.goesFirst nested = decide (item.Pending nested) := by
  rw [Bool.eq_iff_iff, Item.goesFirst_iff_pending, decide_eq_true_iff]

namespace FormatOptions

variable {o : FormatOptions} {item : Item} {items ordered other arranged : List Item}

/-! ## In which order -/

/-- Items are put into an order: that of their priorities, the highest one first, if the options say
    so. Otherwise, and among items of equal priority, they stay in their own. -/
structure Orders (o : FormatOptions) (items ordered : List Item) : Prop where
  same : o.prioritized = false → ordered = items
  descending : o.prioritized → ordered.Pairwise fun a b => b.priority o ≤ a.priority o
  ties (n : Int32) : ordered.filter (·.priority o = n) = items.filter (·.priority o = n)

theorem mem_of_ties (hties : ∀ n, items.filter (·.priority o = n) = other.filter (·.priority o = n))
    (h : item ∈ items) : item ∈ other := by
  have hmem : item ∈ items.filter (·.priority o = item.priority o) :=
    List.mem_filter.2 ⟨h, decide_eq_true rfl⟩
  rw [hties] at hmem
  exact (List.mem_filter.1 hmem).1

/-- Two lists in descending order with the same items of each priority are the same. -/
theorem eq_of_descending (h : ordered.Pairwise fun a b => b.priority o ≤ a.priority o)
    (h' : other.Pairwise fun a b => b.priority o ≤ a.priority o)
    (hties : ∀ n, ordered.filter (·.priority o = n) = other.filter (·.priority o = n)) :
    ordered = other := by
  have hback : ∀ n, other.filter (·.priority o = n) = ordered.filter (·.priority o = n) :=
    fun n => (hties n).symm
  induction ordered generalizing other with
  | nil =>
    exact (List.eq_nil_iff_forall_not_mem.2 fun b hb =>
      List.not_mem_nil (mem_of_ties hback hb)).symm
  | cons a as ih =>
    cases other with
    | nil => exact absurd (mem_of_ties hties List.mem_cons_self) List.not_mem_nil
    | cons b bs =>
      rw [List.pairwise_cons] at h h'
      -- Both lists start with an item of the highest priority, and the first one of that priority
      -- is the same.
      have hle : a.priority o ≤ b.priority o := by
        rcases List.mem_cons.1 (mem_of_ties hties List.mem_cons_self) with rfl | ha
        · exact Int32.le_refl _
        · exact h'.1 a ha
      have hge : b.priority o ≤ a.priority o := by
        rcases List.mem_cons.1 (mem_of_ties hback List.mem_cons_self) with rfl | hb
        · exact Int32.le_refl _
        · exact h.1 b hb
      have hfirst := hties (a.priority o)
      simp only [List.filter_cons, Int32.le_antisymm hge hle, decide_true, if_true] at hfirst
      obtain rfl := (List.cons.inj hfirst).1
      have htail : ∀ n, as.filter (·.priority o = n) = bs.filter (·.priority o = n) := fun n => by
        have hn := hties n
        rw [List.filter_cons, List.filter_cons] at hn
        split at hn
        · exact (List.cons.inj hn).2
        · exact hn
      exact congrArg (a :: ·) (ih h.2 h'.2 htail fun n => (htail n).symm)

/-- There is one order only. -/
theorem Orders.unique (h : o.Orders items ordered) (h' : o.Orders items other) :
    ordered = other := by
  cases hprioritized : o.prioritized with
  | false => rw [h.same hprioritized, h'.same hprioritized]
  | true =>
    exact eq_of_descending (h.descending hprioritized) (h'.descending hprioritized)
      fun n => (h.ties n).trans (h'.ties n).symm

/-- Sorting keeps the order of items of equal priority. -/
theorem filter_mergeSort (o : FormatOptions) (items : List Item) (n : Int32) :
    (items.mergeSort fun a b => decide (b.priority o ≤ a.priority o)).filter (·.priority o = n) =
      items.filter (·.priority o = n) := by
  -- Items of equal priority are in descending order, however they stand.
  have hequal : (items.filter (·.priority o = n)).Pairwise fun a b =>
      decide (b.priority o ≤ a.priority o) = true := by
    refine List.pairwise_filter.2 (List.pairwise_of_forall fun a b ha hb => decide_eq_true ?_)
    rw [of_decide_eq_true ha, of_decide_eq_true hb]
    exact Int32.le_refl n
  have hsublist :=
    (List.sublist_mergeSort (priority_trans o) (priority_total o) hequal List.filter_sublist).filter
      (·.priority o = n)
  rw [List.filter_filter] at hsublist
  simp only [Bool.and_self] at hsublist
  refine (hsublist.eq_of_length ?_).symm
  exact ((List.mergeSort_perm items _).filter _).length_eq.symm

/-- The items that go first are put into their order. -/
theorem orders_arrangedFirst (o : FormatOptions) (items : List Item) :
    o.Orders (items.filter fun i => i.Pending o.placement.nested) (o.arrangedFirst id items) := by
  have hfilter : (items.filter fun i => i.goesFirst o.placement.nested) =
      items.filter fun i => i.Pending o.placement.nested := by
    simp only [Item.goesFirst_eq_decide]
  rw [arrangedFirst]
  change o.Orders _ (if o.prioritized then
      (items.filter fun i => i.goesFirst o.placement.nested).mergeSort _
    else items.filter fun i => i.goesFirst _)
  rw [hfilter]
  cases hprioritized : o.prioritized with
  | false =>
    exact ⟨fun _ => rfl, fun h => absurd (hprioritized.symm.trans h) Bool.false_ne_true,
      fun _ => rfl⟩
  | true =>
    refine ⟨fun h => absurd (h.symm.trans hprioritized) Bool.false_ne_true, fun _ => ?_,
      o.filter_mergeSort _⟩
    exact (List.pairwise_mergeSort (priority_trans o) (priority_total o) _).imp of_decide_eq_true

/-! ## The whole list -/

/-- Items are arranged: they stay as they are, or those that go first are put into their order and
    the others follow in their own. -/
structure Arranges (o : FormatOptions) (items arranged : List Item) : Prop where
  asIs : o.placement = .asIs → arranged = items
  parts : o.placement ≠ .asIs →
    ∃ first, o.Orders (items.filter fun i => i.Pending o.placement.nested) first ∧
    arranged = first ++ items.filter fun i => ¬ i.Pending o.placement.nested

theorem Arranges.unique (h : o.Arranges items arranged) (h' : o.Arranges items other) :
    arranged = other := by
  by_cases hplacement : o.placement = .asIs
  · rw [h.asIs hplacement, h'.asIs hplacement]
  · obtain ⟨first, hfirst, rfl⟩ := h.parts hplacement
    obtain ⟨first', hfirst', rfl⟩ := h'.parts hplacement
    rw [hfirst.unique hfirst']

theorem arranges_arranged (o : FormatOptions) (items : List Item) :
    o.Arranges items (o.arranged id items) where
  asIs h := if_pos h
  parts h := by
    refine ⟨_, o.orders_arrangedFirst items, (if_neg h).trans ?_⟩
    rw [arrangedRest]
    simp only [id_eq, Item.goesFirst_eq_decide, decide_not]

/-- Arranging succeeds, and gives the items in the one order in which they are arranged. Nothing is
    lost or added, and what has been arranged stays as it is. -/
theorem arrange_is_stable (o : FormatOptions) (items : List Item) :
    ∃ arranged, o.arrange items = .ok arranged ∧ o.Arranges items arranged ∧
    (∀ other, o.Arranges items other → other = arranged) ∧ arranged.Perm items ∧
    o.arrange arranged = .ok arranged := by
  have harranges := o.arranges_arranged items
  refine ⟨o.arranged id items, o.arrangeBy_eq id items, harranges,
    fun other h => h.unique harranges, o.arranged_perm id items,
    (o.arrangeBy_eq id _).trans (congrArg Except.ok ?_)⟩
  by_cases hplacement : o.placement = .asIs
  · exact if_pos hplacement
  · obtain ⟨first, rest, harranged, hfirst, hrest, hsorted⟩ := exists_arranged items hplacement
    rw [harranged]
    exact arranged_append hfirst hrest hsorted

end FormatOptions

end Taskdown
