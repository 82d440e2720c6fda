/-!
# TOML values

The values of a TOML document. A table remembers how it came about, because that decides whether
later lines may add to it.
-/

namespace QueryBook.Toml

/-- How a table came about. -/
inductive Origin where
  /-- Written between braces; nothing can be added to it. -/
  | inline
  /-- Named by a header of its own. -/
  | header
  /-- Named only on the way to another header. -/
  | implied
  /-- Named by a dotted key. -/
  | dotted
  deriving DecidableEq

/-- A value. -/
inductive Value where
  | string (text : String)
  | integer (value : Int)
  | float (text : String)
  | boolean (value : Bool)
  | dateTime (text : String)
  | array (items : List Value)
  /-- The tables of headers in double brackets. -/
  | tables (items : List Value)
  | table (origin : Origin) (entries : List (String × Value))

/-- The entries of a table. -/
abbrev Entries := List (String × Value)

namespace Value

/-- The items of an array, however it is written. -/
def items? : Value → Option (List Value)
  | array items | tables items => some items
  | _ => none

/-- The text of a string. -/
def string? : Value → Option String
  | string text => some text
  | _ => none

/-- The value of a boolean. -/
def boolean? : Value → Option Bool
  | boolean value => some value
  | _ => none

/-- The entries of a table. -/
def entries? : Value → Option Entries
  | table _ entries => some entries
  | _ => none

end Value

namespace Entries

/-- The entries with the value of a key replaced, or added at the end. -/
def put (entries : Entries) (key : String) (value : Value) : Entries :=
  match entries with
  | [] => [(key, value)]
  | entry :: rest => if entry.1 = key then (key, value) :: rest else entry :: put rest key value

/-- Changes the table that a path leads to, making tables that are not there; in an array of tables
the path goes on in the last. A dotted path does not add to tables with a header of their own. -/
def changeAt (dotted : Bool) (change : Origin → Entries → Option (Origin × Entries)) :
    List String → Origin → Entries → Option (Origin × Entries)
  | [], origin, entries => change origin entries
  | key :: path, origin, entries =>
    let within (origin' : Origin) (entries' : Entries) (close : Value → Value) :
        Option (Origin × Entries) :=
      (changeAt dotted change path origin' entries').map fun (origin'', entries'') =>
        (origin, entries.put key (close (.table origin'' entries'')))
    match entries.lookup key with
    | none => within (if dotted then .dotted else .implied) [] id
    | some (.table origin' entries') =>
      if origin' = .inline || (dotted && origin' = .header) then none
      else within origin' entries' id
    | some (.tables items) =>
      match items.getLast? with
      | some (.table origin' entries') =>
        within origin' entries' fun last => .tables (items.dropLast ++ [last])
      | _ => none
    | some _ => none

/-- Adds the value of a dotted key, given as the keys before the last and the last. -/
def addDotted (path : List String) (key : String) (value : Value) :
    Origin → Entries → Option (Origin × Entries) :=
  changeAt true
    (fun origin entries =>
      if (origin = .dotted) == path.isEmpty || (entries.lookup key).isSome then none
      else some (origin, entries ++ [(key, value)]))
    path

/-- Opens the table of a header, given as the keys before the last and the last. -/
def openTable (path : List String) (key : String) (entries : Entries) : Option Entries :=
  let change (origin : Origin) (entries : Entries) : Option (Origin × Entries) :=
    match entries.lookup key with
    | none => some (origin, entries.put key (.table .header []))
    | some (.table .implied entries') => some (origin, entries.put key (.table .header entries'))
    | some _ => none
  (changeAt false change path .header entries).map (·.2)

/-- Adds a table to the array of a header in double brackets. -/
def addTable (path : List String) (key : String) (entries : Entries) : Option Entries :=
  let change (origin : Origin) (entries : Entries) : Option (Origin × Entries) :=
    match entries.lookup key with
    | none => some (origin, entries.put key (.tables [.table .header []]))
    | some (.tables items) =>
      some (origin, entries.put key (.tables (items ++ [.table .header []])))
    | some _ => none
  (changeAt false change path .header entries).map (·.2)

/-- Adds the value of a dotted key to the table that a header's path leads to. -/
def addValue (header path : List String) (key : String) (value : Value) (entries : Entries) :
    Option Entries :=
  (changeAt false (addDotted path key value) header .header entries).map (·.2)

end Entries

end QueryBook.Toml
