import Taskdown.Document.Block
import Taskdown.Markup.Reader
import Taskdown.Source.Coordinates
import Taskdown.Source.Extend

/-!
# From structure to document

A document is built from the forest of nodes that stands for the structure of its source. Text
directly in an item becomes a paragraph: one for every maximal run of text and inline containers.
All other blocks keep their span.

A task marker stands directly in its item, or within the first block of the item. The builder
remembers the first marker that it passes while it skips what is below a block (`left`), and an item
without a marker of its own takes the one that its first block has left behind.
-/

namespace Taskdown

/-! ## Markers of items -/

/-- The marker at the start of an item. -/
def Item.markerOf (item : View) : View :=
  let place := item.trimStart.atStart
  let digits := place.extendOver "0123456789".toList
  if digits.isEmpty then place.extendOverOne ['-', '+', '*'] else digits.extendOverOne ['.', ')']

/-- The column at which the content behind a marker starts. One to four columns of blanks separate
    the two; a wider gap belongs to the content, and so does any gap at the end of a line, and then
    the marker counts as one column wider. -/
def Item.contentColumnOf (marker : View) : Nat :=
  let source := marker.source
  let lineStart := source.lineStart marker.start
  let gapView := marker.atStop.extendOver [' ', '\t']
  let markerColumn := View.columnAfter 0 (Text.slice source.text lineStart marker.stop)
  let gap := View.columnAfter 0 (Text.slice source.text lineStart gapView.stop) - markerColumn
  let next := gapView.peekSource gapView.stop
  if gap = 0 ∨ 4 < gap ∨ next = '\x00' ∨ next = '\r' ∨ next = '\n' then markerColumn + 1
  else markerColumn + gap

/-! ## Task markers below a node -/

/-- A task marker of the structure. -/
structure TaskMark where
  span : Span
  done : Bool
deriving DecidableEq, Repr, Inhabited

mutual

/-- The first task marker at or below a node. -/
def Node.firstTask? : Node → Option TaskMark
  | .text _ => none
  | .task span done => some ⟨span, done⟩
  | .rule _ => none
  | .block _ _ children => Node.firstTaskOf? children

/-- The first task marker at or below the nodes of a list. -/
def Node.firstTaskOf? : List Node → Option TaskMark
  | [] => none
  | node :: nodes => node.firstTask?.or (Node.firstTaskOf? nodes)

end

/-! ## Building -/

/-- The view of a span of the source. -/
def View.ofSpan (source : View) (span : Span) : Except Error View := source.sub span.start span.stop

/-- The task of a marker. -/
def TaskMark.task (source : View) (mark : TaskMark) : Except Error Task := do
  return ⟨← source.ofSpan mark.span, mark.done⟩

/-- An item in the making. -/
structure ItemDraft where
  task : Option Task := none
  /-- The blocks so far, the last one first. -/
  children : List Block := []
  /-- The text since the last block. -/
  inlineSpan : Option Span := none
  /-- Has the item a paragraph that is not made from its text? -/
  hasParagraph : Bool := false
  /-- The first task marker that was skipped. -/
  left : Option TaskMark := none

namespace ItemDraft

/-- Adds a span to the text since the last block. -/
def addInline (d : ItemDraft) (span : Span) : ItemDraft :=
  { d with inlineSpan := some (match d.inlineSpan with
    | some s => s.hull span
    | none => span) }

/-- Makes a paragraph of the text since the last block. -/
def flush (source : View) (d : ItemDraft) : Except Error ItemDraft :=
  match d.inlineSpan with
  | none => .ok d
  | some span => do
    return { d with
      children := .paragraph (← source.ofSpan span) :: d.children
      inlineSpan := none }

/-- Adds a block. The first block of an item without a marker gives it the one that was skipped. -/
def addBlock (source : View) (d : ItemDraft) (block : Block) : Except Error ItemDraft := do
  let d := { d with children := block :: d.children }
  match d.task, d.children, d.left with
  | none, [_], some mark => return { d with task := some (← mark.task source), left := none }
  | _, _, _ => return d

/-- The item. A marker within the first paragraph is not part of its text. -/
def item (d : ItemDraft) (view : View) : Item :=
  let marker := Item.markerOf view
  let children := match d.task, d.children.reverse with
    | some task, .paragraph first :: rest =>
      if first.span.containsAll task.view.span then
        .paragraph (first.withSpan (first.span.after task.view.span)).trimStart :: rest
      else .paragraph first :: rest
    | _, children => children
  { view, marker, task := d.task, contentColumn := Item.contentColumnOf marker, children }

end ItemDraft

mutual

/-- The block of a node, and the first task marker that was skipped. -/
def Block.ofNode (source : View) (left : Option TaskMark) :
    Node → Except Error (Block × Option TaskMark)
  | .text span => return (.other (← source.ofSpan span), left)
  | .task span _ => return (.other (← source.ofSpan span), left)
  | .rule span => return (.other (← source.ofSpan span), left)
  | .block tag span children => do
    let view ← source.ofSpan span
    match tag with
    | .list start =>
      let (items, loose, left) ← Item.listOfNodes source left children
      return (.list view start loose items, left)
    | .paragraph => return (.paragraph view, left.or (Node.firstTaskOf? children))
    | .heading => return (.heading view, left.or (Node.firstTaskOf? children))
    | .code => return (.code view, left.or (Node.firstTaskOf? children))
    | _ => return (.other view, left.or (Node.firstTaskOf? children))

/-- The items of a list, whether one of them has paragraphs, and the first task marker that was
    skipped. -/
def Item.listOfNodes (source : View) (left : Option TaskMark) :
    List Node → Except Error (List Item × Bool × Option TaskMark)
  | [] => return ([], false, left)
  | node :: nodes => do
    match node with
    | .block .item span children =>
      let view ← source.ofSpan span
      let draft ← ItemDraft.addNodes source {} children
      let (items, loose, left) ← Item.listOfNodes source draft.left nodes
      return (draft.item view :: items, draft.hasParagraph || loose, left)
    | _ => Item.listOfNodes source left nodes

/-- Adds the nodes of an item. -/
def ItemDraft.addNodes (source : View) (d : ItemDraft) : List Node → Except Error ItemDraft
  | [] => d.flush source
  | node :: nodes => do
    match node with
    | .text span => ItemDraft.addNodes source (d.addInline span) nodes
    | .task span done =>
      let task ← TaskMark.task source ⟨span, done⟩
      ItemDraft.addNodes source { d with task := some task } nodes
    | .rule span =>
      let d ← d.flush source
      let d := { d with children := .other (← source.ofSpan span) :: d.children }
      ItemDraft.addNodes source d nodes
    | .block tag span children =>
      if tag = .inline then
        let d := d.addInline span
        ItemDraft.addNodes source { d with left := d.left.or (Node.firstTaskOf? children) } nodes
      else
        let d ← d.flush source
        let (block, left) ← Block.ofNode source d.left (.block tag span children)
        let d := { d with hasParagraph := d.hasParagraph || tag = Tag.paragraph, left }
        ItemDraft.addNodes source (← d.addBlock source block) nodes

end

/-- The blocks of nodes that stand outside of all blocks. Text and task markers there are no
    blocks. -/
def Block.listOfNodes (source : View) (left : Option TaskMark) :
    List Node → Except Error (List Block)
  | [] => return []
  | node :: nodes => do
    match node with
    | .text _ => Block.listOfNodes source left nodes
    | .task _ _ => Block.listOfNodes source left nodes
    | _ =>
      let (block, left) ← Block.ofNode source left node
      return block :: (← Block.listOfNodes source left nodes)

/-- The document in view. -/
def Block.listOfView (source : View) : Except Error (List Block) :=
  Block.listOfNodes source none (Markup.structureOf source.text)

end Taskdown
