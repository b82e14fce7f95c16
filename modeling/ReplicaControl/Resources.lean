import ReplicaControl.Document
import ReplicaControl.Quantity.Reader
import ReplicaControl.Table

/-!
# Resource lists

* `ResourceList` — amounts by resource name.
* `ResourceList.add`, `sub` — arithmetic over the names of both sides, where a missing amount is
  zero.
* `ResourceList.restrict`, `negative` — the parts that another list names, and the ones below zero.
* `amount_add`, `amount_sub`, `amount_scale` — arithmetic on lists is arithmetic on each amount.
-/

namespace ReplicaControl

/-- Reads an amount out of a document: a number of whole units, or the text of an amount. -/
def Quantity.ofDocument? : Document → Option Quantity
  | .int n => if -9223372036854775808 ≤ n ∧ n ≤ 9223372036854775807 then some (ofUnits n) else none
  | .text s => (parse s).toOption
  | _ => none

/-- Amounts by resource name. -/
abbrev ResourceList := Table String Quantity

namespace ResourceList

/-- The amount of a name, zero if there is none. -/
def amount (a : ResourceList) (name : String) : Quantity := (a.get? name).getD 0

/-- The sum of two lists. -/
def add (a b : ResourceList) : ResourceList := a.merge (fun x y => x.getD 0 + y) b

/-- The difference of two lists. -/
def sub (a b : ResourceList) : ResourceList := a.merge (fun x y => x.getD 0 - y) b

/-- Every amount taken a number of times. -/
def scale (a : ResourceList) (n : Int) : ResourceList := a.mapValues fun _ q => q.scale n

/-- The amounts whose names are in another list. -/
def restrict (a mask : ResourceList) : ResourceList := a.filter fun name _ => mask.contains name

/-- The amounts below zero. -/
def negative (a : ResourceList) : ResourceList := a.filter fun _ q => q.isNegative

/-- Names with their amounts, separated by commas. -/
def text (a : ResourceList) : String :=
  String.intercalate "," (a.entries.map fun e => e.1 ++ "=" ++ e.2.text)

/-- Reads a list out of a table from names to amounts. -/
def ofDocument? (d : Document) : Option ResourceList :=
  (d.fields? Quantity.ofDocument?).map Table.ofList

/-- The table from names to the texts of amounts. -/
def toDocument (a : ResourceList) : Document :=
  .table (a.entries.map fun e => (e.1, .text e.2.text))

theorem amount_add (a b : ResourceList) (name : String) :
    (a.add b).amount name = a.amount name + b.amount name := by
  rw [amount, add, Table.get?_merge, amount, amount]
  cases b.get? name <;> simp

theorem amount_sub (a b : ResourceList) (name : String) :
    (a.sub b).amount name = a.amount name - b.amount name := by
  rw [amount, sub, Table.get?_merge, amount, amount]
  cases b.get? name <;> simp

theorem amount_scale (a : ResourceList) (n : Int) (name : String) :
    (a.scale n).amount name = (a.amount name).scale n := by
  rw [amount, scale, Table.get?_mapValues, amount]
  cases a.get? name <;> simp

theorem get?_restrict (a mask : ResourceList) (name : String) :
    (a.restrict mask).get? name = (a.get? name).filter fun _ => mask.contains name :=
  Table.get?_filter a _ name

theorem get?_negative (a : ResourceList) (name : String) :
    (a.negative).get? name = (a.get? name).filter (·.isNegative) :=
  Table.get?_filter a _ name

end ResourceList

end ReplicaControl
