import Taskdown.Toml.Quoted
import Taskdown.Toml.Scalar

/-!
# Reading a TOML document

A document is a list of statements, each on a line of its own. Blank lines and comments may stand
between them.

* `Table.ofText?` is the table of a document; a text that is none has no table.
-/

namespace Taskdown.Toml

/-! ## Gaps -/

/-- A text without the blanks at its start. -/
def skipBlanks (cs : Text) : Text := cs.dropWhile Text.isSpaceTab

/-- A text without the blanks, line breaks and comments at its start. The flag says that it starts
    within a comment. -/
def skipGap? : Bool → Text → Option Text
  | _, [] => some []
  | true, c :: cs =>
    if c = '\n' then skipGap? false cs
    else if isForbidden c && !isLineBreak c cs then none
    else skipGap? true cs
  | false, c :: cs =>
    if c = '#' then skipGap? true cs
    else if Text.isSpaceTab c || isLineBreak c cs then skipGap? false cs
    else some (c :: cs)

/-- Is the rest of the line blank, or a comment? -/
def endsStatement (cs : Text) : Bool :=
  match skipBlanks cs with
  | [] => true
  | c :: rest => c = '#' || isLineBreak c rest

/-! ## Keys -/

/-- A character that may stand in a key without quotes. -/
def isBareKeyChar (c : Char) : Bool := Text.isLetter c || Text.isDigit c || c = '-' || c = '_'

/-- Reads a part of a key. -/
def simpleKey? : Text → Option (Text × Text)
  | '"' :: cs => readBasic? false .plain cs
  | '\'' :: cs => readLiteral? false cs
  | cs =>
    match cs.span isBareKeyChar with
    | ([], _) => none
    | (key, rest) => some (key, rest)

/-- Reads a key of at most `fuel` parts: its path and its last part. Blanks behind it are
    skipped. -/
def key? : Nat → Text → Option ((List Text × Text) × Text)
  | 0, _ => none
  | fuel + 1, cs => do
    let (part, rest) ← simpleKey? cs
    match skipBlanks rest with
    | '.' :: rest =>
      let ((path, last), rest) ← key? fuel (skipBlanks rest)
      return ((part :: path, last), rest)
    | rest => return (([], part), rest)

/-! ## Values -/

/-- Reads the elements of an array, of which there are fewer than `fuel`, up to its closing
    bracket. -/
def elements? (read : Text → Option (Value × Text)) : Nat → Text → Option (List Value × Text)
  | 0, _ => none
  | fuel + 1, cs => do
    match ← skipGap? false cs with
    | ']' :: rest => return ([], rest)
    | cs =>
      let (value, rest) ← read cs
      match ← skipGap? false rest with
      | ',' :: rest =>
        let (values, rest) ← elements? read fuel rest
        return (value :: values, rest)
      | ']' :: rest => return ([value], rest)
      | _ => none

/-- Reads `key = value`. -/
def keyValue? (read : Text → Option (Value × Text)) (cs : Text) :
    Option ((List Text × Text × Value) × Text) := do
  match ← key? (cs.length + 1) cs with
  | ((path, key), '=' :: rest) =>
    let (value, rest) ← read (skipBlanks rest)
    return ((path, key, value), rest)
  | _ => none

/-- Reads the entries of a table in braces, of which there are fewer than `fuel`, up to the closing
    brace. -/
def members? (read : Text → Option (Value × Text)) : Nat → Table → Text → Option (Table × Text)
  | 0, _, _ => none
  | fuel + 1, t, cs => do
    match ← skipGap? false cs with
    | '\x7d' :: rest => return (t, rest)
    | cs =>
      let ((path, key, value), rest) ← keyValue? read cs
      let t ← t.assign? path key value
      match ← skipGap? false rest with
      | ',' :: rest => members? read fuel t rest
      | '\x7d' :: rest => return (t, rest)
      | _ => none

/-- Reads a value without brackets. -/
def leaf? (cs : Text) : Option (Value × Text) :=
  match cs.head? with
  | some '"' => (quoted? cs).map fun (text, rest) => (.string text, rest)
  | some '\'' => (quoted? cs).map fun (text, rest) => (.string text, rest)
  | _ => scalar? cs

/-- Reads a value in which brackets are nested up to a depth. -/
def value? : Nat → Text → Option (Value × Text)
  | 0, cs => leaf? cs
  | depth + 1, cs =>
    match cs with
    | '[' :: cs => do
      let (values, rest) ← elements? (value? depth) (cs.length + 1) cs
      return (.array false values, rest)
    | '\x7b' :: cs => do
      let (t, rest) ← members? (value? depth) (cs.length + 1) (.empty .inline) cs
      return (.table t, rest)
    | cs => leaf? cs

/-- The greatest depth of brackets. -/
def maxDepth : Nat := 80

/-! ## Documents -/

/-- Reads a statement. -/
def statement? : Text → Option (Statement × Text)
  | '[' :: '[' :: cs => do
    match ← key? (cs.length + 1) (skipBlanks cs) with
    | ((path, key), ']' :: ']' :: rest) => return (.element path key, rest)
    | _ => none
  | '[' :: cs => do
    match ← key? (cs.length + 1) (skipBlanks cs) with
    | ((path, key), ']' :: rest) => return (.table path key, rest)
    | _ => none
  | cs => do
    let ((path, key, value), rest) ← keyValue? (value? maxDepth) cs
    return (.assign path key value, rest)

/-- Reads statements, of which there are fewer than `fuel`. -/
def statements? : Nat → Text → Option (List Statement)
  | 0, _ => none
  | fuel + 1, cs => do
    match ← skipGap? false cs with
    | [] => return []
    | cs =>
      let (s, rest) ← statement? cs
      if endsStatement rest then return s :: (← statements? fuel rest) else none

/-- A text without a byte order mark at its start. -/
def dropByteOrderMark : Text → Text
  | '\ufeff' :: cs => cs
  | cs => cs

/-- The table of a document. -/
def Table.ofText? (cs : Text) : Option Table := do
  let cs := dropByteOrderMark cs
  Table.ofStatements? (← statements? (cs.length + 1) cs)

end Taskdown.Toml
