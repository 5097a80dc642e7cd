import Taskdown.Config.Basic
import Taskdown.Storage
import Taskdown.Toml.Printer

/-!
# Configuration files

A configuration is kept in a TOML document, in one table of it. A field that the table does not
state has its default; what else the document says does not matter.

* `Config.ofText?` reads a document.
* `Config.text` writes all fields, and `Config.textOf` writes some of them.
-/

namespace Taskdown.Config

open Toml

/-! ## Values of fields -/

/-- A number of 32 bits. -/
def int32? : Value → Option Int32
  | .integer n => if -0x80000000 ≤ n ∧ n ≤ 0x7fffffff then some (Int32.ofInt n) else none
  | _ => none

/-- A number of 64 bits that is not negative. -/
def uint64? : Value → Option UInt64
  | .integer n => if 0 ≤ n ∧ n ≤ 0xffffffffffffffff then some (UInt64.ofNat n.toNat) else none
  | _ => none

/-- A truth value. -/
def boolean? : Value → Option Bool
  | .boolean b => some b
  | _ => none

/-- Is a value an array or a table without anything in it? -/
def isHollow : Value → Bool
  | .array _ elements => elements.isEmpty
  | .table t => t.entries.isEmpty
  | _ => false

/-- One of several choices with names: its name, or a table with its name as the only key and
    nothing behind it. -/
def choice? {α : Type} (ofName? : String → Option α) : Value → Option α
  | .string name => ofName? (String.ofList name)
  | .table ⟨_, [(name, v)]⟩ => if isHollow v then ofName? (String.ofList name) else none
  | _ => none

/-- Priorities by marker. -/
def priorities? : Value → Option Priorities
  | .table t => (t.entries.mapM fun e => (int32? e.2).map (e.1, ·)).map Priorities.ofList
  | _ => none

/-! ## Reading -/

/-- The value of a field that may not be stated. -/
def stated? {α : Type} (read : Value → Option α) (missing : α) : Option Value → Option α
  | none => some missing
  | some v => read v

/-- The configuration with the stated values of fields. -/
def ofFields? (value : Field → Option Value) : Option Config := do
  let missing := standard
  let placement ← stated? (choice? Placement.ofName?) missing.placement (value .placement)
  let taskCase ← stated? (choice? TaskCase.ofName?) missing.taskCase (value .taskCase)
  let prioritized ← stated? boolean? missing.prioritized (value .prioritized)
  let priorities ← stated? priorities? missing.priorities (value .priorities)
  let defaultPriority ← stated? int32? missing.defaultPriority (value .defaultPriority)
  let orderedPriority ← stated? int32? missing.orderedPriority (value .orderedPriority)
  let maxBlankLines ← stated? uint64? missing.maxBlankLines (value .maxBlankLines)
  return {
    placement, taskCase, prioritized, priorities, defaultPriority, orderedPriority,
    maxBlankLines }

/-- The configuration that a value states: a table by the names of the fields, an array by their
    places. A date or time states nothing. -/
def ofValue? : Value → Option Config
  | .table t => ofFields? fun f => t.lookup f.name
  | .array _ elements => ofFields? fun f => elements[f.place]?
  | .dateTime _ => some standard
  | _ => none

/-- The configuration that a document states. -/
def ofTable? (t : Table) : Option Config := stated? ofValue? standard (t.lookup tableName)

/-- The configuration that the text of a document states. -/
def ofText? (cs : Text) : Option Config := (Table.ofText? cs).bind ofTable?

/-- Why a configuration cannot be loaded. -/
inductive LoadError where
  /-- The file cannot be read, or is not UTF-8. -/
  | unreadable
  /-- The file is no document, or states a field in the wrong way. -/
  | malformed
deriving DecidableEq, Repr

/-- A load error in words. -/
def LoadError.message : LoadError → String
  | .unreadable => "the file cannot be read"
  | .malformed => "the file is no valid configuration"

/-- Loads a configuration from a file, if there is one. -/
def load (f : FileState) : Except LoadError (Option Config) :=
  match f with
  | .missing => .ok none
  | _ =>
    match f.text? with
    | none => .error .unreadable
    | some cs =>
      match ofText? cs with
      | none => .error .malformed
      | some c => .ok (some c)

/-! ## Writing -/

/-- The line that states a field. Priorities have a table of their own. -/
def fieldLine (c : Config) (f : Field) : Text :=
  match f with
  | .placement => entryLine f.name (basic c.placement.name.toList)
  | .taskCase => entryLine f.name (basic c.taskCase.name.toList)
  | .prioritized => entryLine f.name (booleanText c.prioritized)
  | .priorities => []
  | .defaultPriority => entryLine f.name (integerText c.defaultPriority.toInt)
  | .orderedPriority => entryLine f.name (integerText c.orderedPriority.toInt)
  | .maxBlankLines => entryLine f.name (integerText c.maxBlankLines.toNat)

/-- The table of the priorities. -/
def prioritiesText (c : Config) : Text :=
  '\n' :: headerLine [tableName, Field.priorities.name] ++
    c.priorities.entries.flatMap fun (marker, priority) =>
    entryLine marker (integerText priority.toInt)

/-- A document that states some of the fields. -/
def textOf (c : Config) (states : Field → Bool) : Text :=
  headerLine [tableName] ++ (Field.all.filter states).flatMap c.fieldLine ++
    (if states .priorities then c.prioritiesText else [])

/-- A document that states all fields. -/
def text (c : Config) : Text := c.textOf fun _ => true

end Taskdown.Config
