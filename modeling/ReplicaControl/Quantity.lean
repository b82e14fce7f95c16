import ReplicaControl.Text.Digits

/-!
# Resource amounts

* `Quantity` — an amount in thousandths of a unit, in the range of a signed 64 bit word.
* `Quantity.saturate` — the amount nearest to an integer.  Addition, subtraction and multiplication
  are exact on the integers and then saturate.
* `Quantity.text` — whole units where the amount has no thousandths, else thousandths and `m`.
-/

namespace ReplicaControl

namespace Quantity

/-- The range of an amount, in thousandths. -/
def InRange (x : Int) : Prop := -9223372036854775808 ≤ x ∧ x ≤ 9223372036854775807

instance (x : Int) : Decidable (InRange x) := inferInstanceAs (Decidable (_ ∧ _))

end Quantity

/-- A resource amount in thousandths of a unit. -/
structure Quantity where
  millis : Int
  inRange : Quantity.InRange millis
deriving DecidableEq

namespace Quantity

/-- The amount nearest to a number of thousandths. -/
def saturate (x : Int) : Quantity :=
  ⟨max (-9223372036854775808) (min x 9223372036854775807), by unfold InRange; omega⟩

/-- The amount of a number of thousandths, if it is in range. -/
def ofMillis? (x : Int) : Option Quantity := if h : InRange x then some ⟨x, h⟩ else none

/-- A number of whole units. -/
def ofUnits (n : Int) : Quantity := saturate (n * 1000)

instance : Zero Quantity := ⟨⟨0, by decide⟩⟩

instance : Inhabited Quantity := ⟨0⟩

instance : Add Quantity := ⟨fun a b => saturate (a.millis + b.millis)⟩

instance : Sub Quantity := ⟨fun a b => saturate (a.millis - b.millis)⟩

instance : Ord Quantity := ⟨fun a b => compare a.millis b.millis⟩

/-- An amount taken a number of times. -/
def scale (q : Quantity) (n : Int) : Quantity := saturate (q.millis * n)

/-- Whether an amount is below zero. -/
def isNegative (q : Quantity) : Bool := q.millis < 0

/-- The text of an amount. -/
def text (q : Quantity) : String :=
  if q.millis % 1000 = 0 then Text.decimal (q.millis / 1000) else Text.decimal q.millis ++ "m"

@[ext] theorem ext {a b : Quantity} (h : a.millis = b.millis) : a = b := by
  cases a; cases b; simp_all

@[simp] theorem millis_zero : (0 : Quantity).millis = 0 := rfl

theorem millis_saturate (x : Int) :
    (saturate x).millis = max (-9223372036854775808) (min x 9223372036854775807) := rfl

theorem saturate_millis (q : Quantity) : saturate q.millis = q := by
  have := q.inRange
  ext
  unfold InRange at this
  rw [millis_saturate]
  omega

theorem millis_add (a b : Quantity) :
    (a + b).millis = (saturate (a.millis + b.millis)).millis := rfl

theorem millis_sub (a b : Quantity) :
    (a - b).millis = (saturate (a.millis - b.millis)).millis := rfl

@[simp] theorem zero_add (q : Quantity) : 0 + q = q := by
  have : 0 + q = saturate (0 + q.millis) := rfl
  rw [this, Int.zero_add, saturate_millis]

@[simp] theorem zero_scale (n : Int) : scale 0 n = 0 := by
  rw [scale, millis_zero, Int.zero_mul]
  rfl

@[simp] theorem add_zero (q : Quantity) : q + 0 = q := by
  have : q + 0 = saturate (q.millis + 0) := rfl
  rw [this, Int.add_zero, saturate_millis]

@[simp] theorem sub_zero (q : Quantity) : q - 0 = q := by
  have : q - 0 = saturate (q.millis - 0) := rfl
  rw [this, Int.sub_zero, saturate_millis]

end Quantity

end ReplicaControl
