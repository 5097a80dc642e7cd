import Taskdown.Markup.Leaf
import Taskdown.Text.CharacterReference

/-!
# Raw HTML

A line that starts with `<` may start a block of raw HTML. What comes behind the `<` decides where
the block ends: at a line that holds a certain text, or before a blank line.
-/

namespace Taskdown.Markup

/-- Where a block of raw HTML ends. -/
inductive HtmlEnd where
  /-- With the line that holds this text. -/
  | withText (cs : Text)
  /-- Before a blank line. -/
  | beforeBlank
deriving DecidableEq, Repr, Inhabited

/-- A text in lower case, as far as ASCII letters go. -/
def lowerAscii (cs : Text) : Text := cs.map Char.toLower

/-- Does a text start with another one, whatever the case of ASCII letters? -/
def startsWithTag (tag cs : Text) : Bool := lowerAscii (cs.take tag.length) = tag

/-- The elements whose content is raw, each with the text at which it ends. -/
def rawElements : List (Text × Text) :=
  ["pre", "style", "script", "textarea"].map fun name =>
    (name.toList, ("</" ++ name ++ ">").toList)

/-- The other openings of raw HTML that has an end of its own, each with that end. -/
def rawOpenings : List (Text × Text) :=
  [("!--", "-->"), ("?", "?>"), ("![CDATA[", "]]>")].map fun (start, stop) =>
    (start.toList, stop.toList)

/-- The text at which raw HTML ends, for HTML that has an end of its own. The `<` is left out. -/
def htmlEndText? (cs : Text) : Option Text :=
  let isElement := fun (e : Text × Text) =>
    startsWithTag e.1 cs && (cs.drop e.1.length).head?.all (fun c => isLineBlank c || c = '>')
  let isOpening := fun (e : Text × Text) => e.1.isPrefixOf cs
  match rawElements.find? isElement with
  | some e => some e.2
  | none =>
    match rawOpenings.find? isOpening with
    | some e => some e.2
    | none =>
      match cs with
      | '!' :: c :: _ => if Text.isLetter c then some ['>'] else none
      | _ => none

/-- The elements that start a block wherever they stand. -/
def blockElements : List String :=
  ["address", "article", "aside", "base", "basefont", "blockquote", "body", "caption", "center",
    "col", "colgroup", "dd", "details", "dialog", "dir", "div", "dl", "dt", "fieldset",
    "figcaption", "figure", "footer", "form", "frame", "frameset", "h1", "h2", "h3", "h4", "h5",
    "h6", "head", "header", "hr", "html", "iframe", "legend", "li", "link", "main", "menu",
    "menuitem", "nav", "noframes", "ol", "optgroup", "option", "p", "param", "search", "section",
    "summary", "table", "tbody", "td", "tfoot", "th", "thead", "title", "tr", "track", "ul"]

/-- Does a block element start or end here? The `<` is left out. -/
def startsBlockElement (cs : Text) : Bool :=
  let tail := if cs.head? = some '/' then cs.drop 1 else cs
  let isNameChar := fun c => Text.isLetter c || Text.isDigit c
  let name := tail.takeWhile isNameChar
  let after := tail.dropWhile isNameChar
  blockElements.contains (String.ofList (lowerAscii name)) &&
    (after.head?.all (fun c => c = ' ' || c = '\t' || c = '>') || ['/', '>'].isPrefixOf after)

/-- A text without the blanks at its front. -/
def skipBlanks (cs : Text) : Text := cs.dropWhile isLineBlank

/-- What follows the value of an attribute. -/
def afterAttributeValue? : Text → Option Text
  | '"' :: cs =>
    match cs.dropWhile (· ≠ '"') with
    | _ :: rest => some rest
    | [] => none
  | '\'' :: cs =>
    match cs.dropWhile (· ≠ '\'') with
    | _ :: rest => some rest
    | [] => none
  | cs =>
    let isPlain := fun (c : Char) => !(isLineBlank c || "\"'=<>\x60".contains c)
    if (cs.takeWhile isPlain).isEmpty then none else some (cs.dropWhile isPlain)

/-- What follows an attribute. -/
def afterAttribute? : Text → Option Text
  | [] => none
  | c :: cs =>
    if Text.isLetter c || c = '_' || c = ':' then
      let rest := cs.dropWhile fun d =>
        Text.isLetter d || Text.isDigit d || d = '_' || d = '.' || d = ':' || d = '-'
      match skipBlanks rest with
      | '=' :: value => afterAttributeValue? (skipBlanks value)
      | _ => some rest
    else none

/-- What follows the attributes and the `>` of an opening tag. Every attribute needs a blank before
    it. At most `fuel` attributes are read. -/
def afterAttributes? : Nat → Text → Option Text
  | 0, _ => none
  | fuel + 1, cs =>
    match skipBlanks cs with
    | '>' :: rest => some rest
    | '/' :: '>' :: rest => some rest
    | rest =>
      if rest.length = cs.length then none
      else (afterAttribute? rest).bind (afterAttributes? fuel)

/-- What follows a whole tag on one line. The `<` is left out. -/
def afterTag? (cs : Text) : Option Text :=
  let closing := cs.head? = some '/'
  let tail := if closing then cs.drop 1 else cs
  if tail.head?.any Text.isLetter then
    let rest := tail.dropWhile fun c => Text.isLetter c || Text.isDigit c || c = '-'
    if closing then
      match skipBlanks rest with
      | '>' :: after => some after
      | _ => none
    else afterAttributes? (rest.length + 1) rest
  else none

/-- Does the line consist of one tag? The `<` is left out. -/
def isTagLine (cs : Text) : Bool := (afterTag? cs).any isBlankLine

/-- The end of the raw HTML that may start even within a paragraph. -/
def interruptingHtml? : Text → Option HtmlEnd
  | '<' :: cs =>
    match htmlEndText? cs with
    | some stop => some (.withText stop)
    | none => if startsBlockElement cs then some .beforeBlank else none
  | _ => none

/-- The end of the raw HTML that starts here. -/
def html? (cs : Text) : Option HtmlEnd :=
  match interruptingHtml? cs with
  | some stop => some stop
  | none =>
    match cs with
    | '<' :: rest => if isTagLine rest then some .beforeBlank else none
    | _ => none

/-- Does a text occur within another one? -/
def occursIn (needle : Text) : Text → Bool
  | [] => needle.isEmpty
  | c :: cs => needle.isPrefixOf (c :: cs) || occursIn needle cs

end Taskdown.Markup
