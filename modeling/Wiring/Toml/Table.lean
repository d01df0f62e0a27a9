import Wiring.Toml.Key

/-!
# Tables in settings files

A table grows with each header and each key that leads into it. What may be added depends on how the table
came to be.

* `Toml.openTable`, `Toml.addTable`: the items after a header.
* `Toml.define`: the items after a key is given a value.
-/

namespace Wiring.Toml

/-- How a table came to be. -/
inductive TableKind where
  /-- By the header of a table below it. -/
  | implied
  /-- By a header of its own. -/
  | header
  /-- By a key of several parts. -/
  | dotted
deriving DecidableEq

/-- What a name stands for. -/
inductive Item where
  | value (json : Json)
  | table (kind : TableKind) (items : List (String × Item))
  /-- The tables of one repeated header; only the last one, with the given items, can grow. -/
  | tables (earlier : List Json) (items : List (String × Item))

/-- The items of a table. -/
abbrev Items := List (String × Item)

mutual

/-- The item as JSON. -/
def Item.toJson : Item → Json
  | .value json => json
  | .table _ items => .object (itemsToJson items)
  | .tables earlier items => .array (earlier ++ [.object (itemsToJson items)])

/-- The items of a table as JSON. -/
def itemsToJson : List (String × Item) → Json.Fields
  | [] => []
  | (name, item) :: items => (name, item.toJson) :: itemsToJson items

end

/-- The items with the one of a name changed; `change` is given what the name stands for, if
anything. -/
def update (name : String) (change : Option Item → Option Item) : Items → Option Items
  | [] => (change none).map fun item => [(name, item)]
  | (n, item) :: items =>
    if n = name then (change item).map fun item => (name, item) :: items
    else (update name change items).map ((n, item) :: ·)

/-- The items with those of the table at the end of a path changed; tables that are missing on the way
are made. -/
def inTable (change : Items → Option Items) : (path : List String) → Items → Option Items
  | [], items => change items
  | name :: path, items =>
    update name (fun
      | none => (inTable change path []).map (.table .implied)
      | some (.table kind items) => (inTable change path items).map (.table kind)
      | some (.tables earlier items) => (inTable change path items).map (.tables earlier)
      | some (.value _) => none) items

/-- The items after the header of a table. -/
def openTable (key : Key) : Items → Option Items :=
  inTable (update key.name fun
    | none => some (.table .header [])
    | some (.table .implied items) => some (.table .header items)
    | some _ => none) key.tables

/-- The items after a header that may be repeated. -/
def addTable (key : Key) : Items → Option Items :=
  inTable (update key.name fun
    | none => some (.tables [] [])
    | some (.tables earlier items) => some (.tables (earlier ++ [.object (itemsToJson items)]) [])
    | some _ => none) key.tables

/-- The items after a name in the table at the end of a path is given a value. The path opens tables of its
own; it adds no value to a table that a header made. -/
def assign (json : Json) (name : String) : (path : List String) → Items → Option Items
  | [], items =>
    update name (fun
      | none => some (.value json)
      | some _ => none) items
  | table :: path, items =>
    update table (fun
      | none => (assign json name path []).map (.table .dotted)
      | some (.table .dotted items) => (assign json name path items).map (.table .dotted)
      | some (.table .implied items) =>
        if path.isEmpty then none else (assign json name path items).map (.table .implied)
      | some (.tables earlier items) =>
        if path.isEmpty then none else (assign json name path items).map (.tables earlier)
      | some _ => none) items

/-- The items after a key is given a value in the table at the end of a path. -/
def define (json : Json) (key : Key) (path : List String) : Items → Option Items :=
  inTable (assign json key.name key.tables) path

end Wiring.Toml
