import Taskdown.Document.Arrange
import Taskdown.Output.Script
import Taskdown.Source.Extend

/-!
# Laying out a document

A document is laid out as a script for a writer. The text of the blocks comes from their views; only
the markers of items, the markers of tasks, and the indentation are made anew.

* Paragraphs and headings lose the indentation of their lines, which means nothing.
* All other leaf blocks keep their lines, except for the indentation of the item that they stand in.
  Code is a preformatted run.
* The items of an ordered list are numbered from its first number on.
-/

namespace Taskdown

/-! ## Leaf blocks -/

/-- The lines of a paragraph or a heading. -/
def View.textLines (v : View) : List Text := v.trim.lines.map fun line => line.trimStart.chomp.text

/-- A text without the blanks at its start that stand before column `limit`, if it starts at a given
    column. -/
def View.dropIndent (limit : Nat) : Nat → Text → Text
  | _, [] => []
  | column, c :: cs =>
    if column < limit && Text.isSpaceTab c then View.dropIndent limit (View.nextColumn column c) cs
    else c :: cs

/-- The lines of a block that is kept as it is, in an item whose content starts at column
    `indent`. -/
def View.keptLines (v : View) (indent : Nat) : List Text :=
  v.withIndent.trimEnd.lines.map fun line => View.dropIndent indent 0 line.chomp.text

/-- Writes lines of a paragraph or a heading. -/
def Script.ofTextLines (lines : List Text) : Script :=
  lines.flatMap fun line => [.append line, .line]

/-- Writes lines that are kept, the blank ones too. -/
def Script.ofKeptLines (lines : List Text) : Script :=
  lines.flatMap fun line => [.append line, .append ['\n']]

/-! ## Items -/

/-- Is a block an empty paragraph? -/
def Block.isEmpty : Block → Bool
  | .paragraph view => view.trim.isEmpty
  | _ => false

/-- The marker that an item is written with: the number of the item and its own delimiter in an
    ordered list, its own marker in any other. -/
def Item.newMarker (start : Option Nat) (ordinal : Nat) (item : Item) : Text :=
  match start with
  | some n => (toString (n + ordinal)).toList ++ [item.marker.text.getLast?.getD '.']
  | none => item.marker.text

/-- Writes an item whose content is written by `body`. -/
def Item.script (o : FormatOptions) (start : Option Nat) (ordinal : Nat) (item : Item)
    (body : Script) : Script :=
  let marker := item.newMarker start ordinal
  let first := marker ++ [' '] ++ (match o.taskMarker item with
    | some task => task ++ [' ']
    | none => [])
  if item.children.all Block.isEmpty then [.append (Text.trimEnd first), .line]
  else
    [.pushLeadFirst first (List.replicate (Text.width marker + 1) ' ')] ++ body ++ [.line, .popLead]

/-- Writes the items of a list, one after the other, from a number on; in a loose list blank lines
    separate them. -/
def Item.scriptOfList (o : FormatOptions) (start : Option Nat) (loose : Bool) :
    Nat → List (Item × Script) → Script
  | _, [] => []
  | ordinal, (item, body) :: items =>
    (if 0 < ordinal && loose then [Writer.Step.blankLine] else []) ++
      item.script o start ordinal body ++ Item.scriptOfList o start loose (ordinal + 1) items

/-! ## Blocks -/

mutual

/-- Writes a block in an item whose content starts at column `indent`. -/
def Block.script (o : FormatOptions) (indent : Nat) : Block → Except Failure Script
  | .paragraph view => return .ofTextLines view.textLines
  | .heading view => return .ofTextLines view.textLines
  | .code view => return [.openRun] ++ Script.ofKeptLines (view.keptLines indent) ++ [.closeRun]
  | .other view => return .ofKeptLines (view.keptLines indent)
  | .list _ start loose items => do
    let arranged ← o.arrangeBy Prod.fst (← Item.withBodies o loose items)
    return Item.scriptOfList o start loose 0 arranged

/-- The items of a list, each with what writes its content. -/
def Item.withBodies (o : FormatOptions) (loose : Bool) :
    List Item → Except Failure (List (Item × Script))
  | [] => return []
  | item@⟨_, _, _, column, children⟩ :: items => do
    return (item, ← Block.scriptOfBlocks o column loose false children) ::
      (← Item.withBodies o loose items)

/-- Writes blocks. If they are separated, a blank line goes before each of them but the first;
    `behind` says whether another block stands before the first of these. -/
def Block.scriptOfBlocks (o : FormatOptions) (indent : Nat) (separated behind : Bool) :
    List Block → Except Failure Script
  | [] => return []
  | block :: blocks => do
    let gap : Script := if behind && separated then [.blankLine] else []
    return gap ++ (← block.script o indent) ++
      (← Block.scriptOfBlocks o indent separated true blocks)

end

end Taskdown
