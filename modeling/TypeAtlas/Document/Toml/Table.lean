import TypeAtlas.Document.Node

/-!
# How TOML tables grow

The tables of a document are not written in one piece: headers open tables, and
keys with dots add to tables inside of the open one.  How a table came to be
decides who may still add to it.  A table can be opened by a header once, and
only if nothing but headers of inner tables has mentioned it before; keys with
dots only add to tables that such keys have made.
-/

namespace TypeAtlas

namespace Document

namespace Toml

/-- How a table came to be. -/
inductive Origin where
  /-- It was opened by a header of its own. -/
  | header
  /-- It was mentioned in the header of an inner table. -/
  | mention
  /-- It was made by a key with dots. -/
  | dots
  deriving Repr, DecidableEq

/-- What a key stands for while a document is read. -/
inductive Item where
  | value (node : Node)
  | table (origin : Origin) (entries : List (String × Item))
  /-- A list of tables, of which the last one is open. -/
  | tables (earlier : List (List (String × Item)))
      (last : List (String × Item))

/-- The entries of a table while a document is read. -/
abbrev Entries := List (String × Item)

/-- Sets what a key stands for, given what it stood for before.  New keys come
last. -/
def alterKey (key : String) (change : Option Item → Option Item) :
    Entries → Option Entries
  | [] => (change none).map fun item => [(key, item)]
  | (name, item) :: rest =>
    if name == key then
      (change (some item)).map fun item => (name, item) :: rest
    else
      (alterKey key change rest).map fun rest => (name, item) :: rest

/-- Whether a table of an origin may be entered on the way of a path. -/
def mayEnter (isDotted : Bool) (origin : Origin) : Bool :=
  !isDotted || origin != .header

/-- The origin of a table that a path makes on its way. -/
def originOnWay (isDotted : Bool) : Origin :=
  if isDotted then .dots else .mention

/-- Changes the table that a path leads to; tables on the way that are missing
are made.  A list of tables stands for its last one. -/
def alterTable (isDotted : Bool)
    (change : Origin → Entries → Option Entries) :
    (path : List String) → Origin → Entries → Option Entries
  | [], origin, entries => change origin entries
  | key :: path, _, entries =>
    alterKey key (fun
      | none =>
        let origin := originOnWay isDotted
        (alterTable isDotted change path origin []).map (Item.table origin)
      | some (.value _) => none
      | some (.table origin inner) =>
        if mayEnter isDotted origin then
          (alterTable isDotted change path origin inner).map (Item.table origin)
        else
          none
      | some (.tables earlier last) =>
        (alterTable isDotted change path .header last).map
          (Item.tables earlier)) entries

def addKey (key : String) (item : Item) : Entries → Option Entries :=
  alterKey key fun
    | none => some item
    | some _ => none

/-- Adds a value under a key with dots before its last part. -/
def addValue (path : List String) (key : String) (node : Node)
    (entries : Entries) : Option Entries :=
  alterTable true (fun origin entries =>
    if (origin == .dots) == path.isEmpty then none
    else addKey key (.value node) entries) path .header entries

def openTable (key : String) : Entries → Option Entries :=
  alterKey key fun
    | none => some (.table .header [])
    | some (.table .mention entries) => some (.table .header entries)
    | some _ => none

def openListed (key : String) : Entries → Option Entries :=
  alterKey key fun
    | none => some (.tables [] [])
    | some (.tables earlier last) => some (.tables (earlier ++ [last]) [])
    | some _ => none

mutual

def Item.toNode : Item → Node
  | .value node => node
  | .table _ entries => .table (nodesOfEntries entries)
  | .tables earlier last =>
    .list (nodesOfTables earlier ++ [.table (nodesOfEntries last)])

def nodesOfEntries : List (String × Item) → List (Node × Node)
  | [] => []
  | (key, item) :: rest => (.text key, item.toNode) :: nodesOfEntries rest

def nodesOfTables : List (List (String × Item)) → List Node
  | [] => []
  | entries :: rest => .table (nodesOfEntries entries) :: nodesOfTables rest

end

end Toml

end Document

end TypeAtlas
