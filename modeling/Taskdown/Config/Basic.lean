import Taskdown.Config.Priorities
import Taskdown.Document.Options

/-!
# Configurations

A configuration states how documents are formatted. It has seven fields, each with a name in the
file that the configuration is kept in.
-/

namespace Taskdown

/-- What a configuration file says. -/
structure Config where
  placement : Placement := .asIs
  taskCase : TaskCase := .asIs
  prioritized : Bool := false
  /-- The priorities of tasks by the bullet of their item. -/
  priorities : Priorities := ⟨[(['*'], 0), (['+'], 1), (['-'], -1)], by decide⟩
  /-- The priority of tasks with any other bullet. -/
  defaultPriority : Int32 := 0
  /-- The priority of tasks with a number. -/
  orderedPriority : Int32 := 0
  /-- The number of blank lines that may stand between two lines. -/
  maxBlankLines : UInt64 := 1
deriving DecidableEq, Repr, Inhabited

namespace Config

/-- The configuration that holds where nothing is stated. -/
def standard : Config := {}

/-- The fields of a configuration. -/
inductive Field where
  | placement
  | taskCase
  | prioritized
  | priorities
  | defaultPriority
  | orderedPriority
  | maxBlankLines
deriving DecidableEq, Repr

namespace Field

/-- All fields, in the order in which they are kept. -/
def all : List Field :=
  [.placement, .taskCase, .prioritized, .priorities, .defaultPriority, .orderedPriority,
    .maxBlankLines]

/-- The place of a field among all fields. -/
def place (f : Field) : Nat := all.idxOf f

/-- The name of a field. -/
def name : Field → Text
  | .placement => "task_list_item_placement".toList
  | .taskCase => "task_list_item_case".toList
  | .prioritized => "prioritized_task_items".toList
  | .priorities => "task_item_priorities".toList
  | .defaultPriority => "default_task_item_priority".toList
  | .orderedPriority => "ordered_task_item_priority".toList
  | .maxBlankLines => "max_blank_lines".toList

end Field

/-- The name of the table that states the fields. -/
def tableName : Text := "format".toList

/-- The markers that are no bullets, because they are not one character long. -/
def oddMarkers (c : Config) : List Text := (c.priorities.entries.map Prod.fst).filter (·.length ≠ 1)

/-- The options that a configuration stands for. Priorities of odd markers are dropped. -/
def options (c : Config) : FormatOptions where
  placement := c.placement
  taskCase := c.taskCase
  prioritized := c.prioritized
  priorities := c.priorities.entries.filterMap fun (marker, priority) =>
    match marker with
    | [bullet] => some (bullet, priority)
    | _ => none
  defaultPriority := c.defaultPriority
  orderedPriority := c.orderedPriority
  maxBlankLines := c.maxBlankLines.toNat

end Config

end Taskdown
