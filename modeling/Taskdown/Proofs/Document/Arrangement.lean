import Taskdown.Document.Arrange
import Taskdown.Proofs.Tracker.Gathering

/-!
# What arranging does

Arranging never fails, and its result is known in closed form (`FormatOptions.arranged`). What is
arranged need not be items: anything that belongs to items goes where its item goes
(`FormatOptions.map_arranged`). Nothing is lost, and nothing is added
(`FormatOptions.arranged_perm`).
-/

namespace Taskdown.FormatOptions

variable {α β : Type} (o : FormatOptions) (item : α → Item) (values : List α)

/-- The values whose items go first, in the order in which they go. -/
def arrangedFirst : List α :=
  let first := values.filter fun a => (item a).goesFirst o.placement.nested
  if o.prioritized then first.mergeSort fun a b =>
    decide ((item b).priority o ≤ (item a).priority o) else first

/-- The values whose items do not go first. -/
def arrangedRest : List α := values.filter fun a => !(item a).goesFirst o.placement.nested

/-- The values in the order in which their items are arranged. -/
def arranged : List α :=
  if o.placement = .asIs then values else o.arrangedFirst item values ++ o.arrangedRest item values

/-- Arranging succeeds. -/
theorem arrangeBy_eq : o.arrangeBy item values = .ok (o.arranged item values) := by
  rw [arrangeBy, arranged]
  split
  · rfl
  · let wanted := fun a => (item a).goesFirst o.placement.nested
    let t : Tracker α := { id := 0, items := values }
    obtain ⟨boundary, t', hgather, hitems, hindex⟩ := t.gather_eq wanted Arena.sound_empty
    change (t.gather wanted >>= _) = _
    rw [hgather]
    change (if o.prioritized then _ else _) = _
    rw [arrangedFirst, arrangedRest]
    split
    · -- The wanted elements are taken out, sorted, and put back where they were.
      have hle : (t'.state boundary).index ≤ t'.length := by
        rw [hindex, Tracker.length, hitems, List.length_append]
        exact Nat.le_add_right _ _
      have hremove : t'.removeRange 0 (t'.state boundary).index =
          .ok (values.filter wanted, { (t'.cut 0 (t'.state boundary).index).2 with
            items := values.filter (!wanted ·) }) := by
        rw [Tracker.removeRange, if_neg (by omega), Tracker.cut, hitems, hindex]
        simp only [List.drop_zero, Nat.sub_zero, List.take_zero, List.nil_append,
          List.take_left', List.drop_left']
        rfl
      rw [hremove, bind_lift_error]
      change (_ >>= _) = _
      rw [Tracker.insertAll, if_neg (Nat.not_lt_zero _), bind_lift_error]
      rfl
    · exact congrArg Except.ok hitems

/-- Values that are made of others are arranged as those are. -/
theorem map_arranged (f : β → α) (values : List β) :
    (o.arranged (fun b => item (f b)) values).map f = o.arranged item (values.map f) := by
  rw [arranged, arranged]
  split
  · rfl
  · rw [List.map_append, arrangedRest, arrangedRest, arrangedFirst, arrangedFirst,
      List.filter_map, List.filter_map]
    congr 1
    split
    · exact List.map_mergeSort fun a _ b _ => rfl
    · rfl

/-- The arranged values are the values, in some order. -/
theorem arranged_perm : (o.arranged item values).Perm values := by
  rw [arranged]
  split
  · exact .refl _
  · refine .trans (.append_right _ ?_) (List.filter_append_perm _ values)
    rw [arrangedFirst]
    split
    · exact List.mergeSort_perm _ _
    · exact .refl _

/-! ## Items by priority -/

theorem priority_trans (a b c : Item) (hab : decide (b.priority o ≤ a.priority o) = true)
    (hbc : decide (c.priority o ≤ b.priority o) = true) :
    decide (c.priority o ≤ a.priority o) = true :=
  decide_eq_true (Int32.le_trans (of_decide_eq_true hbc) (of_decide_eq_true hab))

theorem priority_total (a b : Item) :
    (decide (b.priority o ≤ a.priority o) || decide (a.priority o ≤ b.priority o)) = true := by
  rw [Bool.or_eq_true, decide_eq_true_iff, decide_eq_true_iff]
  exact Int32.le_total _ _

section

variable {o}

/-- Items of which those that go first stand in front, in the order of their priorities, stay where
    they are. -/
theorem arranged_append {first rest : List Item}
    (hfirst : ∀ item ∈ first, item.goesFirst o.placement.nested = true)
    (hrest : ∀ item ∈ rest, item.goesFirst o.placement.nested = false)
    (hsorted : o.prioritized → first.Pairwise fun a b => decide (b.priority o ≤ a.priority o) =
      true) :
    o.arranged id (first ++ rest) = first ++ rest := by
  have hwanted : (first ++ rest).filter (fun a => (id a).goesFirst o.placement.nested) = first := by
    have hnone : rest.filter (fun a => (id a).goesFirst o.placement.nested) = [] :=
      List.filter_eq_nil_iff.2 fun item hitem => ne_true_of_eq_false (hrest item hitem)
    rw [List.filter_append, hnone, List.append_nil]
    exact List.filter_eq_self.2 hfirst
  have hothers : (first ++ rest).filter (fun a => !(id a).goesFirst o.placement.nested) = rest := by
    have hnone : first.filter (fun a => !(id a).goesFirst o.placement.nested) = [] :=
      List.filter_eq_nil_iff.2 fun item hitem =>
        ne_true_of_eq_false (congrArg not (hfirst item hitem))
    rw [List.filter_append, hnone, List.nil_append]
    exact List.filter_eq_self.2 fun item hitem => congrArg not (hrest item hitem)
  rw [arranged, arrangedFirst, arrangedRest, hwanted, hothers]
  split
  · rfl
  · split
    · next hprioritized =>
        exact congrArg (· ++ rest) (List.mergeSort_of_pairwise (hsorted hprioritized))
    · rfl

/-- So it is with items that have been arranged. -/
theorem exists_arranged (items : List Item) (hplacement : o.placement ≠ .asIs) :
    ∃ first rest, o.arranged id items = first ++ rest ∧
      (∀ item ∈ first, item.goesFirst o.placement.nested = true) ∧
      (∀ item ∈ rest, item.goesFirst o.placement.nested = false) ∧
      (o.prioritized → first.Pairwise fun a b => decide (b.priority o ≤ a.priority o) = true) := by
  refine ⟨o.arrangedFirst id items, o.arrangedRest id items, if_neg hplacement,
    fun item hitem => ?_, fun item hitem => ?_, fun hprioritized => ?_⟩
  · have hmem : item ∈ items.filter fun a => a.goesFirst o.placement.nested := by
      rw [arrangedFirst] at hitem
      split at hitem
      · exact (List.mergeSort_perm _ _).mem_iff.1 hitem
      · exact hitem
    exact (List.mem_filter.1 hmem).2
  · exact Bool.not_eq_true' _ ▸ (List.mem_filter.1 hitem).2
  · rw [arrangedFirst, if_pos hprioritized]
    exact List.pairwise_mergeSort (priority_trans o) (priority_total o) _

end

end Taskdown.FormatOptions
