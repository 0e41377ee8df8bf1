/-!
# Configuration documents

A configuration is a TOML document: a table whose entries are scalars, arrays and further tables.
How a table came about decides what may still be added to it: a header names a table once, dotted
keys extend only tables that dotted keys made, and a table written inline is complete.
-/

namespace RegisterMachine.Toml

/-- How a table came about. -/
inductive Origin where
  | inline
  | implicit
  | dotted
  | header
  deriving DecidableEq, Repr

/-- A value without parts. -/
inductive Scalar where
  | string (text : String)
  | integer (value : Int)
  | float
  | boolean (value : Bool)
  | datetime
  deriving DecidableEq, Repr

/-- A node of a document. -/
inductive Node where
  | scalar (value : Scalar)
  | array (items : List Node)
  | tables (items : List Node)
  | table (origin : Origin) (entries : List (String × Node))

abbrev Table := List (String × Node)

def Table.set (table : Table) (key : String) (node : Node) : Table :=
  if table.any (·.1 == key) then
    table.map fun entry => if entry.1 == key then (key, node) else entry
  else table ++ [(key, node)]

/-- Changes the table at the end of a path, making the tables on the way that are missing. A path
through an array of tables goes through its last one. Dotted keys cannot pass through a table that a
header names, and nothing passes through a table written inline. -/
def modifyAt (dotted : Bool) (change : Origin → Table → Option (Origin × Table)) :
    List String → Origin → Table → Option (Origin × Table)
  | [], origin, table => change origin table
  | key :: path, origin, table =>
    match table.lookup key with
    | none => do
      let made := if dotted then Origin.dotted else Origin.implicit
      let (childOrigin, child) ← modifyAt dotted change path made []
      return (origin, table.set key (.table childOrigin child))
    | some (.table childOrigin child) =>
      if childOrigin = .inline ∨ (dotted ∧ childOrigin = .header) then none
      else do
        let (childOrigin, child) ← modifyAt dotted change path childOrigin child
        return (origin, table.set key (.table childOrigin child))
    | some (.tables items) =>
      match items.getLast? with
      | some (.table childOrigin child) => do
        let (childOrigin, child) ← modifyAt dotted change path childOrigin child
        return (origin, table.set key (.tables (items.dropLast ++ [.table childOrigin child])))
      | _ => none
    | some _ => none

/-- Adds an entry under a dotted key, which has to be new. -/
def insertEntry (path : List String) (key : String) (node : Node) (origin : Origin)
    (table : Table) : Option (Origin × Table) :=
  let change := fun (origin : Origin) (table : Table) =>
    if (origin = .dotted) ↔ path.isEmpty then none
    else if (table.lookup key).isSome then none
    else some (origin, table.set key node)
  modifyAt true change path origin table

def openTable (path : List String) (key : String) (root : Table) : Option Table :=
  let change := fun (origin : Origin) (table : Table) =>
    match table.lookup key with
    | none => some (origin, table.set key (.table .header []))
    | some (.table .implicit entries) => some (origin, table.set key (.table .header entries))
    | some _ => none
  (modifyAt false change path .header root).map (·.2)

def openTables (path : List String) (key : String) (root : Table) : Option Table :=
  let change := fun (origin : Origin) (table : Table) =>
    match table.lookup key with
    | none => some (origin, table.set key (.tables [.table .header []]))
    | some (.tables items) => some (origin, table.set key (.tables (items ++ [.table .header []])))
    | some _ => none
  (modifyAt false change path .header root).map (·.2)

/-- Adds an entry to the table that the last header named. -/
def insertUnder (current : List String) (path : List String) (key : String) (node : Node)
    (root : Table) : Option Table :=
  (modifyAt false (insertEntry path key node) current .header root).map (·.2)

end RegisterMachine.Toml
