import Taskdown.Document.Block
import Taskdown.Document.Options
import Taskdown.Tracker.Gather

/-!
# Arranging the items of a list

Unless the items of a list stay where they are, those that are incomplete go first. With priorities,
an item with a higher priority goes before one with a lower priority; items of equal priority keep
their order, and so do all others.

An item has the highest priority of all incomplete tasks among itself and the items in lists below
it.
-/

namespace Taskdown

/-! ## Incomplete tasks below an item -/

mutual

/-- Is there an incomplete task among the items, or in a list below one of them? -/
def Item.anyIncomplete : List Item → Bool
  | [] => false
  | item@⟨_, _, _, _, children⟩ :: items =>
    item.isIncomplete || Block.anyIncomplete children || Item.anyIncomplete items

/-- Is there an incomplete task in one of the lists among the blocks? -/
def Block.anyIncomplete : List Block → Bool
  | [] => false
  | .list _ _ _ items :: blocks => Item.anyIncomplete items || Block.anyIncomplete blocks
  | _ :: blocks => Block.anyIncomplete blocks

end

/-- Does the item go first? -/
def Item.goesFirst (nested : Bool) (item : Item) : Bool :=
  item.isIncomplete || (nested && Block.anyIncomplete item.children)

/-! ## Priorities -/

/-- The priority of an item as a task, by its marker. -/
def FormatOptions.taskPriority (o : FormatOptions) (item : Item) : Int32 :=
  if item.isOrdered then o.orderedPriority
  else (item.marker.text.head?.bind fun c => List.lookup c o.priorities).getD o.defaultPriority

mutual

/-- The highest priority of the incomplete tasks among an item and those in lists below it; the
    lowest number if there are none. -/
def Item.priority (o : FormatOptions) : Item → Int32
  | item@⟨_, _, _, _, children⟩ =>
    max (if item.isIncomplete then o.taskPriority item else Int32.minValue)
      (Block.topPriority o children)

/-- The highest priority of items. -/
def Item.topPriority (o : FormatOptions) : List Item → Int32
  | [] => Int32.minValue
  | item :: items => max (item.priority o) (Item.topPriority o items)

/-- The highest priority of the items of the lists among the blocks. -/
def Block.topPriority (o : FormatOptions) : List Block → Int32
  | [] => Int32.minValue
  | .list _ _ _ items :: blocks => max (Item.topPriority o items) (Block.topPriority o blocks)
  | _ :: blocks => Block.topPriority o blocks

end

/-! ## Arranging -/

/-- Arranges what belongs to the items of a list. -/
def FormatOptions.arrangeBy {α : Type} (o : FormatOptions) (item : α → Item) (values : List α) :
    Except Failure (List α) :=
  if o.placement = .asIs then return values
  else do
    let t : Tracker α := { id := 0, items := values }
    let (boundary, t) ← t.gather fun a => (item a).goesFirst o.placement.nested
    if o.prioritized then
      let (gathered, t) ← t.removeRange 0 (t.state boundary).index
      let sorted := gathered.mergeSort fun a b => decide ((item b).priority o ≤ (item a).priority o)
      let t ← t.insertAll 0 sorted
      return t.items
    else return t.items

/-- Arranges the items of a list. -/
def FormatOptions.arrange (o : FormatOptions) (items : List Item) : Except Failure (List Item) :=
  o.arrangeBy id items

/-! ## Task markers -/

/-- The task marker that an item is written with, if any. -/
def FormatOptions.taskMarker (o : FormatOptions) (item : Item) : Option Text :=
  match item.task with
  | none => none
  | some task =>
    if task.done && o.placement.unmarksComplete then none
    else some (o.taskCase.apply task.view.text)

end Taskdown
