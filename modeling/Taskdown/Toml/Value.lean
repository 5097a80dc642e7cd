import Taskdown.Text.Bytes

/-!
# Values of a TOML document

A TOML document is a *table*: keys with values, each of which may be a table again. Tables come
about in several ways, and a table remembers its *origin*, because the origin decides what may still
be added to it.

* `Table.assign?` is the effect of a line `key = value` on a table.
* `Table.ofStatements?` makes a table of a whole document. It refuses documents that say something
  twice.
-/

namespace Taskdown.Toml

/-- How a table came about. -/
inductive Origin where
  /-- By a header of its own. The whole document counts as such. -/
  | header
  /-- On the way to a table with a header. -/
  | implied
  /-- On the way of a dotted key. -/
  | dotted
  /-- As a value in braces, to which nothing can be added. -/
  | inline
deriving DecidableEq, Repr, Inhabited

mutual

/-- A value. Floating-point numbers, dates and times are kept as they are written. -/
inductive Value where
  | string (text : Text)
  | integer (value : Int)
  | boolean (value : Bool)
  | float (literal : Text)
  | dateTime (literal : Text)
  /-- An array. One that is `growing` consists of tables with headers, and each further header adds
      one. -/
  | array (growing : Bool) (elements : List Value)
  | table (table : Table)

/-- A table: keys with values, in the order in which they were added. -/
structure Table where
  origin : Origin
  entries : List (Text × Value)

end

instance : Inhabited Table := ⟨⟨.header, []⟩⟩

instance : Inhabited Value := ⟨.boolean false⟩

namespace Table

/-- A table without entries. -/
def empty (origin : Origin) : Table := ⟨origin, []⟩

/-- The value of a key. -/
def lookup (t : Table) (key : Text) : Option Value := t.entries.lookup key

/-- Gives a key, which may have a value already, another one. -/
def alterEntries? (key : Text) (change : Option Value → Option Value) :
    List (Text × Value) → Option (List (Text × Value))
  | [] => (change none).map fun v => [(key, v)]
  | (k, v) :: entries =>
    if k = key then (change (some v)).map fun v => (k, v) :: entries
    else (alterEntries? key change entries).map ((k, v) :: ·)

/-- Gives a key of the table another value. -/
def alter? (t : Table) (key : Text) (change : Option Value → Option Value) : Option Table :=
  (alterEntries? key change t.entries).map (⟨t.origin, ·⟩)

/-- Changes the table at the end of a path. Tables that are missing on the way are added. A path
    leads through the last table of a growing array, and never through a table in braces; that of a
    dotted key does not lead through tables with headers either. -/
def alterAt? (isDotted : Bool) (change : Table → Option Table) : List Text → Table → Option Table
  | [], t => change t
  | key :: path, t => t.alter? key fun
    | none =>
      (alterAt? isDotted change path (.empty (if isDotted then .dotted else .implied))).map .table
    | some (.table u) =>
      if u.origin = .inline || (isDotted && u.origin = .header) then none
      else (alterAt? isDotted change path u).map .table
    | some (.array true elements) =>
      match elements.getLast? with
      | some (.table u) =>
        (alterAt? isDotted change path u).map fun u => .array true (elements.dropLast ++ [.table u])
      | _ => none
    | some _ => none

/-- Adds a key that is new. -/
def add? (t : Table) (key : Text) (value : Value) : Option Table :=
  t.alter? key fun
    | none => some value
    | some _ => none

/-- Adds the value of a dotted key, whose last part is `key`. What a dotted key leads to must be a
    table that dotted keys have made. -/
def assign? (path : List Text) (key : Text) (value : Value) (t : Table) : Option Table :=
  alterAt? true (fun u => if path.isEmpty || u.origin = .dotted then u.add? key value else none)
    path t

/-- Opens the table of a header `[path.key]`. It may have been implied by another header. -/
def openTable? (path : List Text) (key : Text) (t : Table) : Option Table :=
  alterAt? false (fun u => u.alter? key fun
    | none => some (.table (.empty .header))
    | some (.table v) => if v.origin = .implied then some (.table ⟨.header, v.entries⟩) else none
    | some _ => none) path t

/-- Opens another table of the array of a header `[[path.key]]`. -/
def openElement? (path : List Text) (key : Text) (t : Table) : Option Table :=
  alterAt? false (fun u => u.alter? key fun
    | none => some (.array true [.table (.empty .header)])
    | some (.array true elements) => some (.array true (elements ++ [.table (.empty .header)]))
    | some _ => none) path t

end Table

/-! ## Documents -/

/-- A line of a document. Keys are given as a path and the last part. -/
inductive Statement where
  /-- A header `[path.key]`. -/
  | table (path : List Text) (key : Text)
  /-- A header `[[path.key]]`. -/
  | element (path : List Text) (key : Text)
  /-- A line `path.key = value`. -/
  | assign (path : List Text) (key : Text) (value : Value)

/-- A document in the making. -/
structure Draft where
  root : Table
  /-- The path of the table that was opened last. -/
  current : List Text

namespace Draft

/-- A document without lines. -/
def start : Draft := ⟨.empty .header, []⟩

/-- Adds a line. -/
def add? (d : Draft) : Statement → Option Draft
  | .table path key => (d.root.openTable? path key).map (⟨·, path ++ [key]⟩)
  | .element path key => (d.root.openElement? path key).map (⟨·, path ++ [key]⟩)
  | .assign path key value =>
    (d.root.alterAt? false (Table.assign? path key value) d.current).map (⟨·, d.current⟩)

end Draft

/-- The table of a document. -/
def Table.ofStatements? (statements : List Statement) : Option Table :=
  (statements.foldlM Draft.add? .start).map Draft.root

end Taskdown.Toml
