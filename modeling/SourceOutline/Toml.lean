/-!
# TOML tables

The values that TOML text stands for, and the tables that are built up while such text is read. A
table can be named by a header, implied by the header of a table inside it, or made by a dotted key,
and its `Origin` decides what may still be said about it: only an implied table can be named by a
header later, and only a table made by dotted keys can be extended by them.

`Members.addValue` adds what one line says, `Members.declare` and `Members.declareItem` what a
header says, and all three refuse to say anything twice. An inline table is built in the same way
and is a value from then on, which nothing can be added to.
-/

namespace SourceOutline.Toml

/-- A TOML value. A number with a fraction or an exponent and a date or a time are kept as they are
written. -/
inductive Value where
  | string (text : String)
  | integer (value : Int)
  | float (text : String)
  | boolean (value : Bool)
  | datetime (text : String)
  | array (items : List Value)
  | table (members : List (String × Value))
  deriving Repr, Inhabited

/-- The members of a table that is known as a whole. -/
abbrev Table := List (String × Value)

/-- The value of a key. -/
def Table.find? (table : Table) (key : String) : Option Value :=
  (List.find? (fun member => member.1 == key) table).map (·.2)

/-- How a table came to be. -/
inductive Origin where
  /-- It was named by a header. -/
  | header
  /-- It was not named, but the header of a table inside it was. -/
  | implied
  /-- It was made by a dotted key. -/
  | dotted
  deriving Repr, DecidableEq

/-- What a key stands for in a table that is being read. -/
inductive Item where
  | value (value : Value)
  | table (origin : Origin) (members : List (String × Item))
  /-- An array of tables, of which the last can still be added to. -/
  | tables (earlier : List (List (String × Item))) (last : List (String × Item))
  deriving Inhabited

/-- The members of a table that is being read. -/
abbrev Members := List (String × Item)

mutual

/-- What an item is when everything is read. -/
def Item.close : Item → Value
  | .value value => value
  | .table _ members => .table (closeMembers members)
  | .tables earlier last => .array (closeTables earlier ++ [.table (closeMembers last)])

/-- What members are when everything is read. -/
def closeMembers : List (String × Item) → Table
  | [] => []
  | (key, item) :: rest => (key, item.close) :: closeMembers rest

/-- What tables are when everything is read. -/
def closeTables : List (List (String × Item)) → List Value
  | [] => []
  | members :: rest => .table (closeMembers members) :: closeTables rest

end

namespace Members

/-- The item of a key. -/
def find? (key : String) (members : Members) : Option Item :=
  (List.find? (fun member => member.1 == key) members).map (·.2)

/-- Puts an item in the place of the one with its key, or at the end. -/
def put (key : String) (item : Item) : Members → Members
  | [] => [(key, item)]
  | (k, i) :: rest => if k = key then (key, item) :: rest else (k, i) :: put key item rest

/-- Adds a value under a dotted key. The tables on the way are made by dotted keys, this one or
earlier ones, and the last part of the key must be new. -/
def addValue : (keys : List String) → Value → Members → Option Members
  | [], _, _ => none
  | [key], value, members =>
    match members.find? key with
    | none => some (members.put key (.value value))
    | some _ => none
  | key :: keys, value, members =>
    match members.find? key with
    | none => do
      let inner ← addValue keys value []
      pure (members.put key (.table .dotted inner))
    | some (.table .dotted inner) => do
      let inner ← addValue keys value inner
      pure (members.put key (.table .dotted inner))
    | some _ => none

/-- Changes the table that a header's keys lead to. An array of tables leads to its last one, and
tables that are not there are implied. -/
def within (change : Members → Option Members) : (keys : List String) → Members → Option Members
  | [], members => change members
  | key :: keys, members =>
    match members.find? key with
    | none => do
      let inner ← within change keys []
      pure (members.put key (.table .implied inner))
    | some (.value _) => none
    | some (.table origin inner) => do
      let inner ← within change keys inner
      pure (members.put key (.table origin inner))
    | some (.tables earlier last) => do
      let last ← within change keys last
      pure (members.put key (.tables earlier last))

/-- Names a table in its parent. -/
def nameTable (key : String) (members : Members) : Option Members :=
  match members.find? key with
  | none => some (members.put key (.table .header []))
  | some (.table .implied inner) => some (members.put key (.table .header inner))
  | some _ => none

/-- Starts a table of an array in the parent of that array. -/
def nameItem (key : String) (members : Members) : Option Members :=
  match members.find? key with
  | none => some (members.put key (.tables [] []))
  | some (.tables earlier last) => some (members.put key (.tables (earlier ++ [last]) []))
  | some _ => none

/-- Does what a header of a table says. -/
def declare (keys : List String) (members : Members) : Option Members :=
  match keys.getLast? with
  | none => none
  | some key => members.within (nameTable key) keys.dropLast

/-- Does what a header of an item of an array says. -/
def declareItem (keys : List String) (members : Members) : Option Members :=
  match keys.getLast? with
  | none => none
  | some key => members.within (nameItem key) keys.dropLast

end Members

end SourceOutline.Toml
