/-!
# Documents

* `Document` — the values that files and requests are made of, whatever their notation.
* `Document.int?`, `text?`, … — what a document holds, if it is of the expected sort.
* `Document.record?` — the named parts of a record.  A record is a table, or a list that gives its
  parts in their order and may end early.
* `Document.required`, `Document.optional` — a part that has to be there, and one with a default.
  A part that is there has to decode, so `null` is no way to leave one out.
-/

namespace ReplicaControl

/-- A structured value. -/
inductive Document where
  /-- The absence of a value, where a notation can write it. -/
  | null
  | bool (b : Bool)
  | int (n : Int)
  /-- A scalar of any other sort, such as a number with a fraction or a date. -/
  | other
  | text (s : String)
  /-- Values in order. -/
  | list (items : List Document)
  /-- Values with names, in the order they were given. -/
  | table (fields : List (String × Document))
deriving Inhabited

namespace Document

/-- A named value looked up in the fields of a table. -/
abbrev Fields := List (String × Document)

/-- The whole number that a document holds, if it lies between two bounds. -/
def int? (least greatest : Int) : Document → Option Int
  | int n => if least ≤ n ∧ n ≤ greatest then some n else none
  | _ => none

/-- The number below a bound that a document holds. -/
def nat? (bound : Nat) : Document → Option Nat
  | int n => if 0 ≤ n ∧ n < bound then some n.toNat else none
  | _ => none

/-- The truth value that a document holds. -/
def bool? : Document → Option Bool
  | bool b => some b
  | _ => none

/-- The text that a document holds. -/
def text? : Document → Option String
  | text s => some s
  | _ => none

/-- The text that a document holds, which may be `null`. -/
def textOrNull? : Document → Option (Option String)
  | text s => some (some s)
  | null => some none
  | _ => none

/-- The items that a document lists, each decoded. -/
def list? {α : Type} (item : Document → Option α) : Document → Option (List α)
  | list items => items.mapM item
  | _ => none

/-- The fields of a table, each decoded. -/
def fields? {α : Type} (item : Document → Option α) : Document → Option (List (String × α))
  | table fields => fields.mapM fun f => (item f.2).map fun v => (f.1, v)
  | _ => none

/-- The choice among named alternatives that a document names; a table with the name as its only
field and `null` under it names it too. -/
def choice? {α : Type} (alternatives : List (String × α)) : Document → Option α
  | text s => alternatives.lookup s
  | table [(s, null)] => alternatives.lookup s
  | _ => none

/-- The parts of a record with the given part names. -/
def record? (names : List String) : Document → Option Fields
  | table fields => some fields
  | list items => if items.length ≤ names.length then some (names.zip items) else none
  | _ => none

/-- A part that has to be there. -/
def required {α : Type} (parts : Fields) (name : String) (decode : Document → Option α) :
    Option α :=
  match parts.lookup name with
  | some d => decode d
  | none => none

/-- A part that may be left out. -/
def optional {α : Type} (parts : Fields) (name : String) (default : α)
    (decode : Document → Option α) : Option α :=
  match parts.lookup name with
  | some d => decode d
  | none => some default

end Document

end ReplicaControl
