import ReplicaControl.Document

/-!
# Tables of TOML under construction

* `Toml.Node` — a part of a file that is being read: a finished value, a table, or an array of
  tables whose last one is open.  A table keeps its `Origin`, which decides what may still be
  added to it.
* `Toml.insertValue`, `openTable`, `openArray` — what a pair, a header and a double header add.
* `Toml.Node.toDocument` — the document of a part.
-/

namespace ReplicaControl.Toml

/-- How a table came about. -/
inductive Origin where
  /-- By a header, or as the table of the file. -/
  | header
  /-- By the header of a table below it. -/
  | headerBelow
  /-- By a key with points. -/
  | dottedKey
deriving DecidableEq

/-- A part of a file that is being read. -/
inductive Node where
  | value (d : Document)
  | table (origin : Origin) (fields : List (String × Node))
  /-- An array of tables, the last one first. -/
  | tables (items : List (List (String × Node)))

/-- The fields of a table. -/
abbrev Fields := List (String × Node)

/-- Puts a part under a name, in the place that the name has. -/
def setField (name : String) (n : Node) : Fields → Fields
  | [] => [(name, n)]
  | f :: rest => if f.1 = name then (name, n) :: rest else f :: setField name n rest

/-- Changes the table at the end of a path of names; tables that are missing on the way are made.
A path in a key may not lead through a table that has a header. -/
def changeAt (inKey : Bool) (change : Origin → Fields → Option Fields) :
    List String → Origin → Fields → Option Fields
  | [], origin, fields => change origin fields
  | name :: path, _, fields =>
    match fields.lookup name with
    | none =>
      let origin := if inKey then .dottedKey else .headerBelow
      (changeAt inKey change path origin []).map fun inner =>
        setField name (.table origin inner) fields
    | some (.value _) => none
    | some (.table origin inner) =>
      if inKey ∧ origin = .header then none
      else
        (changeAt inKey change path origin inner).map fun inner =>
          setField name (.table origin inner) fields
    | some (.tables []) => none
    | some (.tables (last :: earlier)) =>
      (changeAt inKey change path .header last).map fun last =>
        setField name (.tables (last :: earlier)) fields

/-- Adds a value under a key that is not there.  A key with points ends in a table that such keys
made. -/
def insertValue (key : List String) (d : Document) (origin : Origin) (fields : Fields) :
    Option Fields :=
  let path := key.dropLast
  let insertLast (origin : Origin) (fields : Fields) : Option Fields :=
    if decide (origin = .dottedKey) == path.isEmpty then none
    else
      match key.getLast? with
      | none => none
      | some name =>
        if (fields.lookup name).isSome then none else some (setField name (.value d) fields)
  changeAt true insertLast path origin fields

/-- Opens the table of a header.  One that only its parts have headers for may be opened once. -/
def openTable (path : List String) (fields : Fields) : Option Fields :=
  let openLast (_ : Origin) (fields : Fields) : Option Fields :=
    match path.getLast? with
    | none => none
    | some name =>
      match fields.lookup name with
      | none => some (setField name (.table .header []) fields)
      | some (.table .headerBelow inner) => some (setField name (.table .header inner) fields)
      | _ => none
  changeAt false openLast path.dropLast .header fields

/-- Opens one more table in the array of a double header. -/
def openArray (path : List String) (fields : Fields) : Option Fields :=
  let openLast (_ : Origin) (fields : Fields) : Option Fields :=
    match path.getLast? with
    | none => none
    | some name =>
      match fields.lookup name with
      | none => some (setField name (.tables [[]]) fields)
      | some (.tables items) => some (setField name (.tables ([] :: items)) fields)
      | _ => none
  changeAt false openLast path.dropLast .header fields

/-- Adds a value to the table of the last header. -/
def insertIn (path key : List String) (d : Document) (fields : Fields) : Option Fields :=
  changeAt false (insertValue key d) path .header fields

mutual

/-- The document of a part. -/
def Node.toDocument : Node → Document
  | .value d => d
  | .table _ fields => .table (documentsOfFields fields)
  | .tables items => .list (documentsOfTables items).reverse

/-- The documents of the fields of a table. -/
def documentsOfFields : List (String × Node) → List (String × Document)
  | [] => []
  | (name, n) :: rest => (name, n.toDocument) :: documentsOfFields rest

/-- The documents of several tables. -/
def documentsOfTables : List (List (String × Node)) → List Document
  | [] => []
  | fields :: rest => .table (documentsOfFields fields) :: documentsOfTables rest

end

end ReplicaControl.Toml
