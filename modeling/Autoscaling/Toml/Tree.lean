import Autoscaling.Toml.Value

/-!
# Putting a document together

The lines of a document name places in a tree of tables and say what stands there.  A place may be
filled once.  How a table came about decides what may be added to it later:

* a table that a header declares, or that is an element of an array of tables, is open until the
  next header and closed after it;
* a table that is only implied by the longer path of a header may still be declared, once;
* a table that a dotted key made is open to further dotted keys of the same table, and is never
  declared by a header;
* a table or an array written as a value is closed.
-/

namespace Autoscaling

namespace Toml

/-- How a table came about. -/
inductive Origin where
  /-- by a header of its own -/
  | declared
  /-- by a header with a longer path -/
  | implied
  /-- by a dotted key -/
  | dotted
  deriving DecidableEq

/-- What stands at a place. -/
inductive Node where
  | value (v : Toml)
  | table (origin : Origin) (fields : List (String × Node))
  | tables (items : List (List (String × Node)))

namespace Node

instance : Inhabited Node := ⟨.value default⟩

/-- Put another node in the place of a name. -/
def replace (name : String) (node : Node) (fields : List (String × Node)) : List (String × Node) :=
  fields.map fun field => if field.1 == name then (name, node) else field

/-- Change the fields of the table at the end of a path.  A path leads to the last element of an
array of tables.  Tables that are not there yet are made on the way.  A dotted path does not lead
through a declared table, and no path leads through a value. -/
def change (isDotted : Bool)
    (f : Origin → List (String × Node) → Option (List (String × Node))) :
    List String → Origin → List (String × Node) → Option (List (String × Node))
  | [], origin, fields => f origin fields
  | name :: path, _, fields =>
      match fields.lookup name with
      | none => do
          let origin := if isDotted then .dotted else .implied
          let inner ← change isDotted f path origin []
          some (fields ++ [(name, .table origin inner)])
      | some (.table origin inner) =>
          if isDotted && origin = .declared then none
          else do
            let inner ← change isDotted f path origin inner
            some (replace name (.table origin inner) fields)
      | some (.tables items) => do
          let last ← items.getLast?
          let last ← change isDotted f path .declared last
          some (replace name (.tables (items.dropLast ++ [last])) fields)
      | some (.value _) => none

/-- The fields at the end of a path, if it leads to an implied table. -/
def impliedAt? : List String → List (String × Node) → Option (List (String × Node))
  | [], _ => none
  | name :: path, fields =>
      match fields.lookup name with
      | some (.table origin inner) =>
          if path.isEmpty then (if origin = .implied then some inner else none)
          else impliedAt? path inner
      | some (.tables items) => items.getLast?.bind (impliedAt? path)
      | _ => none

/-- Put a value under a key of a table.  The tables on a dotted path are made by dotted keys
only. -/
def put (path : List String) (name : String) (v : Toml) (fields : List (String × Node)) :
    Option (List (String × Node)) :=
  change true (fun origin fields =>
    if (path.isEmpty || origin = .dotted) && (fields.lookup name).isNone then
      some (fields ++ [(name, .value v)])
    else none) path .declared fields

/-- Put a table that a header declares into its place. -/
def declare (path : List String) (name : String) (inner fields : List (String × Node)) :
    Option (List (String × Node)) :=
  change false (fun _ fields =>
    match fields.lookup name with
    | none => some (fields ++ [(name, .table .declared inner)])
    | some (.table .implied _) => some (replace name (.table .declared inner) fields)
    | some _ => none) path .declared fields

/-- Put a table at the end of an array of tables. -/
def append (path : List String) (name : String) (inner fields : List (String × Node)) :
    Option (List (String × Node)) :=
  change false (fun _ fields =>
    match fields.lookup name with
    | none => some (fields ++ [(name, .tables [inner])])
    | some (.tables items) => some (replace name (.tables (items ++ [inner])) fields)
    | some _ => none) path .declared fields

mutual

/-- The value of what stands at a place. -/
def toToml : Node → Toml
  | .value v => v
  | .table _ fields => .table (fieldsToToml fields)
  | .tables items => .array (tablesToToml items)

/-- The values of the fields of a table. -/
def fieldsToToml : List (String × Node) → List (String × Toml)
  | [] => []
  | (name, node) :: rest => (name, toToml node) :: fieldsToToml rest

/-- The elements of an array of tables. -/
def tablesToToml : List (List (String × Node)) → List Toml
  | [] => []
  | fields :: rest => .table (fieldsToToml fields) :: tablesToToml rest

end

end Node

/-- A value under a key.  The key is the last name after a dotted path, which may be empty. -/
structure Pair where
  path : List String
  name : String
  value : Toml

/-- Put pairs into a table, one after the other. -/
def putAll : List Pair → List (String × Node) → Option (List (String × Node))
  | [], fields => some fields
  | pair :: rest, fields => do
      let fields ← Node.put pair.path pair.name pair.value fields
      putAll rest fields

/-- The table written as a value with these pairs. -/
def ofPairs (pairs : List Pair) : Option Toml := do
  let fields ← putAll pairs []
  some (.table (Node.fieldsToToml fields))

/-- A line of a document, blank lines and comments left out. -/
inductive Statement where
  /-- a value under a key of the current table -/
  | pair (p : Pair)
  /-- a table begins, at a path and a name -/
  | table (path : List String) (name : String)
  /-- an element of an array of tables begins, at a path and a name -/
  | element (path : List String) (name : String)

/-- The table that a header has begun. -/
inductive Section where
  | root
  | table (path : List String) (name : String)
  | element (path : List String) (name : String)

/-- A document under construction. -/
structure Draft where
  /-- the fields of the document that are in place -/
  placed : List (String × Node)
  current : Section
  /-- the fields of the current table -/
  fields : List (String × Node)

namespace Draft

def empty : Draft := ⟨[], .root, []⟩

/-- The fields of the document with those of the current table in place. -/
def close (d : Draft) : Option (List (String × Node)) :=
  match d.current with
  | .root => some d.fields
  | .table path name => Node.declare path name d.fields d.placed
  | .element path name => Node.append path name d.fields d.placed

/-- Take in a line. -/
def step (d : Draft) : Statement → Option Draft
  | .pair p => do
      let fields ← Node.put p.path p.name p.value d.fields
      some { d with fields := fields }
  | .table path name => do
      let placed ← d.close
      some ⟨placed, .table path name, (Node.impliedAt? (path ++ [name]) placed).getD []⟩
  | .element path name => do
      let placed ← d.close
      some ⟨placed, .element path name, []⟩

def steps : List Statement → Draft → Option Draft
  | [], d => some d
  | statement :: rest, d => do
      let d ← d.step statement
      steps rest d

end Draft

/-- The fields of the document with these lines. -/
def ofStatements (statements : List Statement) : Option (List (String × Toml)) := do
  let d ← Draft.steps statements .empty
  let fields ← d.close
  some (Node.fieldsToToml fields)

end Toml

end Autoscaling
