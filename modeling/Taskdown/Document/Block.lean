import Taskdown.Source.View

/-!
# Documents

A document is a list of *blocks*. Every block has a view of its source; lists have items, items have
blocks again. What the formatter does not touch inside (quotes, tables, raw HTML, thematic breaks)
is a block of its own kind, whatever it holds.
-/

namespace Taskdown

/-- The marker of a task, `[ ]` or `[x]`. -/
structure Task where
  view : View
  /-- Is the task completed? -/
  done : Bool
deriving DecidableEq, Repr, Inhabited

mutual

/-- A block of a document. -/
inductive Block where
  | paragraph (view : View)
  | heading (view : View)
  | code (view : View)
  /-- A list: its first number if it is ordered, whether its items are separated by blank lines, and
      its items. -/
  | list (view : View) (start : Option Nat) (loose : Bool) (items : List Item)
  /-- A block that is kept as it is. -/
  | other (view : View)

/-- An item of a list. -/
structure Item where
  view : View
  /-- The bullet, or the number and the delimiter behind it. -/
  marker : View
  /-- The task marker, if the item is a task. -/
  task : Option Task
  /-- The column of the source at which the content of the item starts. -/
  contentColumn : Nat
  children : List Block

end

instance : Inhabited Block := ⟨.other default⟩

instance : Inhabited Item := ⟨⟨default, default, none, 0, []⟩⟩

/-- The view of a block. -/
def Block.view : Block → View
  | .paragraph view => view
  | .heading view => view
  | .code view => view
  | .list view _ _ _ => view
  | .other view => view

namespace Item

/-- Is the item numbered? -/
def isOrdered (i : Item) : Bool := i.marker.text.getLast?.any fun c => c = '.' || c = ')'

/-- Is the item a task? -/
def isTask (i : Item) : Bool := i.task.isSome

/-- Is the item a task that is not completed? -/
def isIncomplete (i : Item) : Bool := i.task.any (!·.done)

/-- Is the item a completed task? -/
def isComplete (i : Item) : Bool := i.task.any (·.done)

end Item

end Taskdown
