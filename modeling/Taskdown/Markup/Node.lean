import Taskdown.Source.Span

/-!
# Structure of a marked-up text

The structure of a text is a forest of *nodes*. A node has the span of text that it stands for; only
blocks and inline containers have nodes below them. Two nodes matter more than others to lists: the
task marker `[ ]` or `[x]` of an item, and the text directly in an item, which a *tight* list has in
place of paragraphs.
-/

namespace Taskdown

/-- What a node with nodes below it is. -/
inductive Tag where
  | paragraph
  | heading
  /-- A block of code, fenced or indented. -/
  | code
  /-- A list, with its first number if it is ordered. -/
  | list (start : Option Nat)
  /-- An item of a list. -/
  | item
  /-- Any other block: a quote, a table, raw HTML. -/
  | other
  /-- Emphasis, a link, or another container of inline text. -/
  | inline
deriving DecidableEq, Repr, Inhabited

/-- A node of the structure. -/
inductive Node where
  /-- A stretch of text within a block. -/
  | text (span : Span)
  /-- A task marker; is it checked? -/
  | task (span : Span) (done : Bool)
  /-- A thematic break. -/
  | rule (span : Span)
  /-- A node with nodes below it. -/
  | block (tag : Tag) (span : Span) (children : List Node)
deriving Repr, Inhabited

namespace Node

/-- The text that a node stands for. -/
def span : Node → Span
  | .text span => span
  | .task span _ => span
  | .rule span => span
  | .block _ span _ => span

/-- A node as it stands in a tight item: a paragraph gives way to what is in it. -/
def tight : Node → List Node
  | .block .paragraph _ children => children
  | node => [node]

/-- An item of a tight list. -/
def tightItem : Node → Node
  | .block .item span children => .block .item span (children.flatMap tight)
  | node => node

end Node

end Taskdown
