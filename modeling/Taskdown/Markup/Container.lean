import Taskdown.Markup.Html
import Taskdown.Markup.LineCursor
import Taskdown.Markup.Leaf
import Taskdown.Text.CharacterReference

/-!
# Blocks around blocks

Quotes and list items hold other blocks. A line belongs to an open quote if it starts with `>`, and
to an open item if it is indented as far as the content of the item. Lists themselves ask nothing of
a line.
-/

namespace Taskdown.Markup

/-- A block that holds blocks. -/
inductive Container where
  | quote
  /-- A list: the mark of its items (a bullet, or the delimiter behind the number), the number of
      the first one, and whether no blank line stands between its blocks. -/
  | list (mark : Char) (number : Nat) (tight : Bool)
  /-- An item, and the number of columns by which its lines are indented. -/
  | item (indent : Nat)
deriving DecidableEq, Repr, Inhabited

/-- The cursor behind the mark of a quote and the blank after it. -/
def quoteMark? (c : LineCursor) : Option LineCursor :=
  if c.rest.head? = some '>' then some ((c.forward 1).skip 1).2 else none

/-- The cursor behind what a line needs to belong to a container. -/
def Container.matches? (c : LineCursor) : Container → Option LineCursor
  | .quote => quoteMark? (c.skip 3).2
  | .list .. => some c
  | .item indent =>
    let (n, d) := c.skip indent
    if n = indent ∨ d.atEnd then some d else none

/-- Matches a line with containers, the outermost first: the number of those it belongs to, and the
    cursor behind their marks. -/
def matchAll (c : LineCursor) : List Container → Nat × LineCursor
  | [] => (0, c)
  | k :: ks =>
    match k.matches? c with
    | none => (0, c)
    | some d =>
      let (n, e) := matchAll d ks
      (n + 1, e)

/-- The mark of a list item. -/
structure ListMark where
  /-- The bullet, or the delimiter behind the number. -/
  mark : Char
  /-- The number; zero for a bullet. -/
  number : Nat
  /-- The number of characters of the mark. -/
  width : Nat
deriving DecidableEq, Repr, Inhabited

/-- Is the mark a bullet? -/
def isBullet (c : Char) : Bool := c = '-' || c = '+' || c = '*'

/-- The mark at the front of a text: a bullet, or up to nine digits and a delimiter. -/
def listMark? : Text → Option ListMark
  | [] => none
  | c :: cs =>
    if isBullet c then some ⟨c, 0, 1⟩
    else
      let digits := (c :: cs).takeWhile Text.isDigit
      match (c :: cs).drop digits.length with
      | d :: _ =>
        if 1 ≤ digits.length ∧ digits.length ≤ 9 ∧ (d = '.' ∨ d = ')') then
          some ⟨d, Text.ofDecimal digits, digits.length + 1⟩
        else none
      | [] => none

/-- The mark of a list item at the cursor, the cursor behind it and up to four blanks, and the
    number of columns by which the lines of the item are indented, if the mark itself is indented by
    `indent`. A mark is followed by a blank or by the end of the line, and a thematic break is no
    mark. -/
def itemMark? (c : LineCursor) (indent : Nat) : Option (ListMark × LineCursor × Nat) := do
  let m ← listMark? c.rest
  if isBullet m.mark ∧ isThematicBreak c.rest then none
  else
    let (n, d) := (c.forward m.width).skip 1
    if n = 0 ∧ !d.atEnd then none
    else
      let content := indent + m.width + 1
      if isBlankLine d.rest then some (m, d, content)
      else
        match d.skip 4 with
        | (4, _) => some (m, d, content)
        | (gap, e) => some (m, e, content + gap)

/-- The task marker at the cursor and the cursor behind it; is it checked? A blank or the end of the
    line follows it. -/
def taskMark? (c : LineCursor) : Option (Bool × LineCursor) :=
  let d := (c.skip 3).2
  match d.rest with
  | '[' :: x :: ']' :: cs =>
    if (isLineBlank x ∨ x = 'x' ∨ x = 'X') ∧ cs.head?.all isLineBlank then
      some (x = 'x' || x = 'X', d.forward 3)
    else none
  | _ => none

/-- Does a line with this text interrupt a paragraph or a table? `inside` tells whether the line
    belongs to all containers of the block, `blankBelow` whether the next line is blank. Within a
    paragraph, an item interrupts only if it has content, and an ordered one only if it is number
    one. -/
def interrupts (inside inTable blankBelow : Bool) (cs : Text) : Bool :=
  cs.isEmpty || isThematicBreak cs || isHeading cs || (openingFence? cs).isSome || cs.head? =
    some '>' || (interruptingHtml? cs).isSome ||
    match listMark? cs with
    | none => false
    | some m =>
      let after := cs.drop m.width
      let isItem := after.head?.all Text.isSpaceTab
      let hasContent := !(isBlankLine after && blankBelow)
      isItem && (!inside || inTable || ((isBullet m.mark || m.number = 1) && hasContent))

end Taskdown.Markup
