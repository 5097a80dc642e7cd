import Taskdown.Text.Bytes

/-!
# Options

The options say where task items go when a list is written, how task markers look, and how many
blank lines may stand between two blocks. The names of the choices are what a configuration calls
them.
-/

namespace Taskdown

/-- Where the task items of a list go. -/
inductive Placement where
  /-- They stay where they are. -/
  | asIs
  /-- Incomplete tasks go first. -/
  | incompleteFirst
  /-- Items that are incomplete tasks, or have such tasks in lists below them, go first. -/
  | incompleteNestedFirst
  /-- As `incompleteFirst`, and completed tasks lose their marker. -/
  | completeToNonTask
  /-- As `incompleteNestedFirst`, and completed tasks lose their marker. -/
  | completeNestedToNonTask
deriving DecidableEq, Repr, Inhabited

namespace Placement

/-- All placements. -/
def all : List Placement :=
  [.asIs, .incompleteFirst, .incompleteNestedFirst, .completeToNonTask, .completeNestedToNonTask]

/-- The name of a placement. -/
def name : Placement → String
  | .asIs => "as_is"
  | .incompleteFirst => "incomplete_first"
  | .incompleteNestedFirst => "incomplete_nested_first"
  | .completeToNonTask => "complete_to_non_task"
  | .completeNestedToNonTask => "complete_nested_to_non_task"

/-- The placement with a name. -/
def ofName? (name : String) : Option Placement := all.find? (·.name = name)

theorem ofName?_name (p : Placement) : ofName? p.name = some p := by cases p <;> decide

/-- Do tasks below an item count? -/
def nested : Placement → Bool
  | .incompleteNestedFirst => true
  | .completeNestedToNonTask => true
  | _ => false

/-- Do completed tasks lose their marker? -/
def unmarksComplete : Placement → Bool
  | .completeToNonTask => true
  | .completeNestedToNonTask => true
  | _ => false

end Placement

/-- The case of the letter in the marker of a completed task. -/
inductive TaskCase where
  | asIs
  | lowercase
  | uppercase
deriving DecidableEq, Repr, Inhabited

namespace TaskCase

/-- All cases. -/
def all : List TaskCase := [.asIs, .lowercase, .uppercase]

/-- The name of a case. -/
def name : TaskCase → String
  | .asIs => "as_is"
  | .lowercase => "lowercase"
  | .uppercase => "uppercase"

/-- The case with a name. -/
def ofName? (name : String) : Option TaskCase := all.find? (·.name = name)

theorem ofName?_name (c : TaskCase) : ofName? c.name = some c := by cases c <;> decide

/-- A marker in a case. Its letters are ASCII letters. -/
def apply (text : Text) : TaskCase → Text
  | .asIs => text
  | .lowercase => text.map Char.toLower
  | .uppercase => text.map Char.toUpper

end TaskCase

/-- How a document is formatted. -/
structure FormatOptions where
  placement : Placement := .asIs
  taskCase : TaskCase := .asIs
  /-- Are the items that go first sorted by priority? -/
  prioritized : Bool := false
  /-- The priorities of tasks by the bullet of their item. -/
  priorities : List (Char × Int32) := [('*', 0), ('+', 1), ('-', -1)]
  /-- The priority of tasks with any other bullet. -/
  defaultPriority : Int32 := 0
  /-- The priority of tasks with a number. -/
  orderedPriority : Int32 := 0
  /-- The number of blank lines that may stand between two lines. -/
  maxBlankLines : Nat := 1
deriving DecidableEq, Repr, Inhabited

end Taskdown
