import Taskdown.Markup.Container
import Taskdown.Markup.LinkDefinition
import Taskdown.Markup.Node
import Taskdown.Markup.Table

/-!
# Reading block structure

The structure of a text is read line by line. The reader keeps the containers that are open, the
leaf block that may go on with the next line, and what it needs to tell tight lists from loose ones.
Each line first closes what it does not belong to; what is left of it then goes on with the open
leaf block, or opens new blocks.

Inline markup is not taken apart: a paragraph holds its task marker, if any, and one stretch of
text.
-/

namespace Taskdown.Markup

/-- A container that is open. -/
structure Frame where
  container : Container
  start : Nat
  /-- The nodes below it so far, the last one first. -/
  children : List Node := []
deriving Repr, Inhabited

/-- The first number of a list, if it is ordered. -/
def listStart (mark : Char) (number : Nat) : Option Nat :=
  if isBullet mark then none else some number

/-- The node of a container. The items of a tight list have text where others have paragraphs. -/
def Frame.node (f : Frame) (stop : Nat) : Node :=
  let span := ⟨f.start, stop⟩
  let children := f.children.reverse
  match f.container with
  | .quote => .block .other span children
  | .item _ => .block .item span children
  | .list mark number tight =>
    .block (.list (listStart mark number)) span
      (if tight then children.map Node.tightItem else children)

/-- A list that is not tight. -/
def Frame.loosen (f : Frame) : Frame :=
  match f.container with
  | .list mark number _ => { f with container := .list mark number false }
  | _ => f

/-- A leaf block that may go on with the next line. -/
inductive Leaf where
  /-- A paragraph: its start, its task marker, and the text in it so far. -/
  | paragraph (start : Nat) (task : List Node) (content : Span)
  /-- Code between fences; `indent` columns are taken from each line. -/
  | fenced (start : Nat) (fence : Fence) (indent : Nat)
  /-- Indented code, up to its last line that is not blank. -/
  | indented (span : Span)
  | html (start : Nat) (stop : HtmlEnd)
  | table (start : Nat)
deriving Repr, Inhabited

/-- The node of a leaf block that ends. -/
def Leaf.node (leaf : Leaf) (stop : Nat) : Node :=
  match leaf with
  | .paragraph start task content => .block .paragraph ⟨start, stop⟩ (task ++ [.text content])
  | .fenced start _ _ => .block .code ⟨start, stop⟩ []
  | .indented span => .block .code span []
  | .html start _ => .block .other ⟨start, stop⟩ []
  | .table start => .block .other ⟨start, stop⟩ []

/-- What has been read so far. -/
structure Reader where
  /-- The open containers, the innermost first. -/
  frames : List Frame := []
  /-- The finished nodes outside of all containers, the last one first. -/
  nodes : List Node := []
  /-- The leaf block in the innermost container. -/
  leaf : Option Leaf := none
  /-- Was the line before blank, within a container that counts it? -/
  lastLineBlank : Bool := false
  /-- The end of the first line of the item that was opened last, if nothing follows its mark on
      that line. -/
  emptyItem : Option Nat := none
  /-- The number of lines to come that have been read ahead. -/
  ahead : Nat := 0
deriving Repr, Inhabited

namespace Reader

/-! ## Opening and closing -/

/-- The open containers, the outermost first. -/
def containers (r : Reader) : List Container := r.frames.reverse.map Frame.container

/-- Adds a finished node to the innermost container. -/
def emit (r : Reader) (node : Node) : Reader :=
  match r.frames with
  | [] => { r with nodes := node :: r.nodes }
  | f :: frames => { r with frames := { f with children := node :: f.children } :: frames }

/-- Opens a container. -/
def push (r : Reader) (container : Container) (start : Nat) : Reader :=
  { r with frames := ⟨container, start, []⟩ :: r.frames }

/-- Closes the innermost container. -/
def pop (r : Reader) (stop : Nat) : Reader :=
  match r.frames with
  | [] => r
  | f :: frames =>
    let closesTightList := match f.container with
      | .list _ _ tight => tight
      | _ => false
    { r with
      frames
      emptyItem := if closesTightList then none else r.emptyItem }.emit (f.node stop)

/-- Closes a number of containers. -/
def popMany (stop : Nat) : Nat → Reader → Reader
  | 0, r => r
  | n + 1, r => popMany stop n (r.pop stop)

/-- Closes the leaf block that is open. -/
def closeLeaf (r : Reader) (stop : Nat) : Reader :=
  match r.leaf with
  | none => r
  | some leaf => { r with leaf := none }.emit (leaf.node stop)

/-! ## Lists -/

/-- Is the innermost container an item? -/
def inItem (r : Reader) : Bool :=
  match r.frames with
  | ⟨.item _, _, _⟩ :: _ => true
  | _ => false

/-- Closes an item that has nothing in it but a blank line. -/
def finishEmptyItem (r : Reader) : Reader :=
  let r := match r.emptyItem with
    | some stop => if r.lastLineBlank && r.inItem then r.pop stop else r
    | none => r
  { r with emptyItem := none }

/-- Closes the list in which the next block stands, if that block is no item. A blank line before
    the block loosens the list around its item. -/
def finishList (r : Reader) (stop : Nat) : Reader :=
  let r := r.finishEmptyItem
  let r := match r.frames with
    | ⟨.list .., _, _⟩ :: _ => r.pop stop
    | _ => r
  if r.lastLineBlank then
    let frames := match r.frames with
      | item :: list :: outer => item :: list.loosen :: outer
      | frames => frames
    { r with frames, lastLineBlank := false }
  else r

/-- Goes on with the list around an item, or opens one if its items have another mark. A blank line
    before the item loosens the list. -/
def continueList (r : Reader) (start : Nat) (m : ListMark) : Reader :=
  let r := r.finishEmptyItem
  let opened := (r.finishList start).push (.list m.mark m.number true) start
  match r.frames with
  | f@⟨.list mark _ _, _, _⟩ :: frames =>
    if mark ≠ m.mark then opened
    else if r.lastLineBlank then { r with frames := f.loosen :: frames, lastLineBlank := false }
    else r
  | _ => opened

/-- Takes note of a blank line. An item that starts with two blank lines has no content at all. -/
def blankLine (r : Reader) : Reader :=
  match r.frames with
  | [] => r
  | ⟨.quote, _, _⟩ :: _ => r
  | f :: frames =>
    let f := match f.container with
      | .item _ => if r.emptyItem.isSome then { f with container := .item 0 } else f
      | _ => f
    { r with frames := f :: frames, lastLineBlank := true }

/-! ## Paragraphs -/

/-- The cursor behind the marks of the containers, if the line belongs to all of them. -/
def inside? (r : Reader) (l : SourceLine) : Option LineCursor :=
  let (n, c) := matchAll (LineCursor.atStart l) r.containers
  if n = r.frames.length then some c else none

/-- Is the text the header of a table, whose delimiter row is the next line? -/
def startsTable (r : Reader) (cs : Text) (below : List SourceLine) : Bool :=
  1 ≤ pipeCount cs &&
    ((below.head?.bind r.inside?).bind delimiterColumns?).any (· = headerColumns cs)

/-- Is the next line blank? -/
def blankBelow (below : List SourceLine) : Bool := below.head?.all fun l => isBlankLine l.body

/-- Does a line with this text interrupt a paragraph? -/
def interruptsParagraph (r : Reader) (inside : Bool) (cs : Text) (below : List SourceLine) : Bool :=
  interrupts inside false (blankBelow below) cs || (cs.head? = some '|' && r.startsTable cs below)

/-- What the next line holds if it goes on with a paragraph, its indentation left out as far as it
    cannot matter. -/
def nextLine (r : Reader) : NextLine
  | [] => none
  | l :: below =>
    let (n, c) := matchAll (LineCursor.atStart l) r.containers
    match c.skip 4 with
    | (4, d) => some (d.rest, below)
    | (_, d) =>
      if r.interruptsParagraph (n = r.frames.length) d.rest below || isUnderline d.rest then none
      else some (d.rest, below)

/-- The end of the text on a line of a paragraph. Blanks before the end do not count. -/
def textStop (l : SourceLine) : Nat :=
  l.bodyStop - (l.body.reverse.takeWhile isLineBlank).length

/-- The start of the text of a paragraph: behind a backslash that protects its first character. -/
def textStart (c : LineCursor) : Nat :=
  match c.rest with
  | '\\' :: d :: _ => if Text.isPunctuation d then c.offset + 1 else c.offset
  | _ => c.offset

/-- Opens a paragraph, or a table. A table has no task marker. -/
def openParagraph (r : Reader) (l : SourceLine) (below : List SourceLine) (c : LineCursor)
    (task : List Node) : Reader :=
  if r.startsTable c.rest below then { r with leaf := some (.table c.offset), ahead := 1 }
  else { r with leaf := some (.paragraph c.offset task ⟨textStart c, textStop l⟩) }

/-! ## Starting blocks -/

/-- Opens the containers that start on a line, of which there are at most `fuel`. The cursor behind
    their marks comes second, unless the line has been read to its end. -/
def openContainers (l : SourceLine) (below : List SourceLine) :
    Nat → Reader → LineCursor → Reader × Option LineCursor
  | 0, r, c => (r, some c)
  | fuel + 1, r, c =>
    match c.skip 4 with
    | (4, _) => (r, some c)
    | (indent, d) =>
      match itemMark? d indent with
      | some (m, e, content) =>
        let start := d.offset - indent
        let r := (r.continueList start m).push (.item content) start
        if isBlankLine e.rest then ({ r with emptyItem := some l.stop }, none)
        else
          match taskMark? e with
          | some (done, f) =>
            let task := Node.task ⟨e.offset, f.offset⟩ done
            if isBlankLine f.rest then ({ r.emit task with emptyItem := some l.stop }, none)
            else (r.openParagraph l below f.skipAll [task], none)
          | none => openContainers l below fuel r e
      | none =>
        match quoteMark? d with
        | some e => openContainers l below fuel ((r.finishList l.start).push .quote d.offset) e
        | none => (r, some c)

/-- Opens the leaf block that starts at the cursor. A list before it ends where its line starts;
    before a paragraph the list takes the indentation in as well. -/
def openLeaf (r : Reader) (l : SourceLine) (below : List SourceLine) (c : LineCursor) : Reader :=
  let outside := r.finishList l.start
  match c.skip 4 with
  | (4, d) => { outside with leaf := some (.indented ⟨d.offset, l.stop⟩) }
  | (indent, d) =>
    match html? d.rest with
    | some (.withText cs) =>
      let r := { outside with leaf := some (.html d.offset (.withText cs)) }
      if occursIn cs d.rest then r.closeLeaf l.stop else r
    | some stop => { outside with leaf := some (.html d.offset stop) }
    | none =>
      if isThematicBreak d.rest then outside.emit (.rule ⟨d.offset, l.stop⟩)
      else if isHeading d.rest then outside.emit (.block .heading ⟨d.offset, l.stop⟩ [])
      else
        match openingFence? d.rest with
        | some fence => { outside with leaf := some (.fenced d.offset fence indent) }
        | none =>
          match afterDefinition? outside.nextLine d.rest below with
          | some rest => { outside with ahead := below.length - rest.length }
          | none => (r.finishList d.offset).openParagraph l below d []

/-- Reads a line with which no leaf block goes on. -/
def startLine (r : Reader) (l : SourceLine) (below : List SourceLine) : Reader :=
  let (n, c) := matchAll (LineCursor.atStart l) r.containers
  let r := popMany l.start (r.frames.length - n) r
  match openContainers l below (l.body.length + 1) r c with
  | (r, none) => r
  | (r, some c) => if isBlankLine c.rest then r.blankLine else r.openLeaf l below c

/-! ## Going on with blocks -/

/-- Ends the leaf block at an offset, and reads the line as one that starts anew. -/
def restart (r : Reader) (stop : Nat) (l : SourceLine) (below : List SourceLine) : Reader :=
  (r.closeLeaf stop).startLine l below

/-- Reads a line after a paragraph. An underline makes the paragraph a heading. A line that belongs
    to fewer containers may still go on with the paragraph, unless it starts a block of its own. -/
def continueParagraph (r : Reader) (l : SourceLine) (below : List SourceLine) (start : Nat)
    (task : List Node) (content : Span) : Reader :=
  let (n, c) := matchAll (LineCursor.atStart l) r.containers
  let inside : Bool := n = r.frames.length
  let (indent, d) := c.skip 4
  if indent < 4 && inside && isUnderline d.rest then
    { r with leaf := none }.emit (.block .heading ⟨start, l.stop⟩ (task ++ [Node.text content]))
  else if (indent < 4 && r.interruptsParagraph inside d.rest below) || d.skipAll.atEnd then
    r.restart l.start l below
  else { r with leaf := some (.paragraph start task { content with stop := textStop l }) }

/-- Reads a line after the opening fence of a block of code. A blank line that is outside ends the
    block, but leaves the containers around it open. -/
def continueFenced (r : Reader) (l : SourceLine) (below : List SourceLine) (fence : Fence)
    (indent : Nat) : Reader :=
  match r.inside? l with
  | none => if isBlankLine l.body then r.closeLeaf l.start else r.restart l.start l below
  | some c =>
    let (n, d) := (c.skip indent).2.skip (4 - indent)
    if n < 4 - indent then
      match closingFence? fence d.rest with
      | some width => r.closeLeaf (d.offset + width)
      | none => r
    else r

/-- Reads a line after a line of indented code. -/
def continueIndented (r : Reader) (l : SourceLine) (below : List SourceLine) (span : Span) :
    Reader :=
  match r.inside? l with
  | none => r.restart l.start l below
  | some c =>
    let (n, d) := c.skip 4
    if isBlankLine d.rest && (n = 4 || d.atEnd) then r
    else if n = 4 then { r with leaf := some (.indented { span with stop := l.stop }) }
    else r.restart l.start l below

/-- Reads a line after a line of raw HTML. -/
def continueHtml (r : Reader) (l : SourceLine) (below : List SourceLine) (stop : HtmlEnd) :
    Reader :=
  match r.inside? l with
  | none => r.restart l.start l below
  | some c =>
    match stop with
    | .withText cs => if occursIn cs c.rest then r.closeLeaf l.stop else r
    | .beforeBlank =>
      if c.atEnd then r.restart l.start l below
      else if isBlankLine c.rest then r.restart c.offset l below
      else r

/-- Reads a line after a row of a table. -/
def continueTable (r : Reader) (l : SourceLine) (below : List SourceLine) : Reader :=
  match r.inside? l with
  | none => r.restart l.start l below
  | some c =>
    let row := c.skipAll.rest
    if isBlankLine row || interrupts true true (blankBelow below) row then r.restart l.start l below
    else r

/-- Reads a line. -/
def line (r : Reader) (l : SourceLine) (below : List SourceLine) : Reader :=
  if 0 < r.ahead then { r with ahead := r.ahead - 1 }
  else
    match r.leaf with
    | none => r.startLine l below
    | some (.paragraph start task content) => r.continueParagraph l below start task content
    | some (.fenced _ fence indent) => r.continueFenced l below fence indent
    | some (.indented span) => r.continueIndented l below span
    | some (.html _ stop) => r.continueHtml l below stop
    | some (.table _) => r.continueTable l below

/-- Reads lines. -/
def lines : Reader → List SourceLine → Reader
  | r, [] => r
  | r, l :: below => (r.line l below).lines below

/-- Closes everything at the end of the text. -/
def finish (r : Reader) (stop : Nat) : List Node :=
  let r := r.closeLeaf stop
  (popMany stop r.frames.length r).nodes.reverse

end Reader

/-- The structure of a text. -/
def structureOf (cs : Text) : List Node :=
  (Reader.lines {} (SourceLine.ofText cs)).finish (Text.width cs)

end Taskdown.Markup
