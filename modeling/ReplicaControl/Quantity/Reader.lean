import ReplicaControl.Quantity
import ReplicaControl.Text.Blank
import ReplicaControl.Text.Quoted

/-!
# Reading resource amounts

* `Quantity.Numeral` — an optional sign, digits, and digits after a point.
* `Quantity.unitMillis?` — how many thousandths a suffix stands for.
* `Quantity.parse` — reads a numeral and a suffix, with white space around them.  Thousandths that
  are not whole round away from zero.  The arithmetic is exact, on integers that have to stay in a
  working range of 128 bits: a product or power that leaves it is an overflow, and so is an amount
  that is out of the range of a quantity.  The two sums of a fraction have no such check, and
  leaving the working range there is an error of its own.
* `Quantity.placesOf` — how many digits after the point the reader counts.  It counts in 32 bits.
-/

namespace ReplicaControl.Quantity

/-- Why a text gives no amount. -/
inductive ReadError where
  /-- The text is no numeral with a known suffix. -/
  | malformed (text : String)
  /-- The amount, or a step towards it, is too large. -/
  | overflow (text : String)
  /-- A sum left the working range. -/
  | exhausted (text : String)
deriving DecidableEq

/-- The error in words. -/
def ReadError.message : ReadError → String
  | .malformed t => "invalid quantity " ++ Text.quote t
  | .overflow t => "quantity overflow: " ++ t
  | .exhausted t => "quantity out of working range: " ++ t

/-- Thousandths per unit of each suffix. -/
def units : List (String × Int) :=
  [("", 1000), ("m", 1),
    ("k", 1000 * 1000), ("M", 1000 * 1000000), ("G", 1000 * 1000000000),
    ("T", 1000 * 1000000000000), ("P", 1000 * 1000000000000000),
    ("Ki", 1000 * 1024), ("Mi", 1000 * 1048576), ("Gi", 1000 * 1073741824),
    ("Ti", 1000 * 1099511627776), ("Pi", 1000 * 1125899906842624)]

/-- Thousandths per unit of a suffix. -/
def unitMillis? (suffix : List Char) : Option Int := units.lookup (String.ofList suffix)

/-- The characters that can stand in a numeral. -/
def isNumeralChar (c : Char) : Bool := c.isDigit || c == '.' || c == '-' || c == '+'

/-- A sign and the digits before and after the decimal point. -/
structure Numeral where
  negative : Bool
  whole : List Char
  fraction : List Char
deriving DecidableEq

/-- Parts characters into a sign and what follows it. -/
def Numeral.splitSign : List Char → Bool × List Char
  | '-' :: cs => (true, cs)
  | '+' :: cs => (false, cs)
  | cs => (false, cs)

/-- Reads a numeral: an optional sign, then digits with at most one point and at least one digit. -/
def Numeral.read? (cs : List Char) : Option Numeral :=
  let (negative, body) := splitSign cs
  let whole := body.takeWhile (· != '.')
  let fraction := (body.dropWhile (· != '.')).drop 1
  if (whole ≠ [] ∨ fraction ≠ []) ∧ whole.all Char.isDigit ∧ fraction.all Char.isDigit then
    some ⟨negative, whole, fraction⟩
  else
    none

/-- The range of the working arithmetic. -/
def InWorkingRange (x : Int) : Prop :=
  -170141183460469231731687303715884105728 ≤ x ∧ x < 170141183460469231731687303715884105728

instance (x : Int) : Decidable (InWorkingRange x) := inferInstanceAs (Decidable (_ ∧ _))

/-- The thousandths of the digits before the point. -/
def wholeMillis (text : String) (whole : List Char) (unit : Int) : Except ReadError Int :=
  let value : Int := Text.valueOfDigits whole
  if InWorkingRange value ∧ InWorkingRange (value * unit) then .ok (value * unit)
  else .error (.overflow text)

/-- How many digits stand after the point, as 32 bits count them. -/
def placesOf (fraction : List Char) : Nat := fraction.length % 4294967296

/-- The thousandths of the digits after the point, rounded up. -/
def fractionMillis (text : String) (fraction : List Char) (unit : Int) : Except ReadError Int :=
  let value : Int := Text.valueOfDigits fraction
  let scale := Int.pow 10 (placesOf fraction)
  if fraction = [] then .ok 0
  else if ¬ InWorkingRange scale ∨ ¬ InWorkingRange (value * unit) then .error (.overflow text)
  else if InWorkingRange (value * unit + scale) then .ok ((value * unit + scale - 1) / scale)
  else .error (.exhausted text)

/-- The amount that a numeral of a unit stands for. -/
def Numeral.amount (text : String) (n : Numeral) (unit : Int) : Except ReadError Quantity :=
  match wholeMillis text n.whole unit with
  | .error e => .error e
  | .ok whole =>
    match fractionMillis text n.fraction unit with
    | .error e => .error e
    | .ok fraction =>
      if InWorkingRange (whole + fraction) then
        match ofMillis? (if n.negative then -(whole + fraction) else whole + fraction) with
        | some q => .ok q
        | none => .error (.overflow text)
      else .error (.exhausted text)

/-- Reads an amount. -/
def parse (text : String) : Except ReadError Quantity :=
  let cs := Text.trimBlanks text.toList
  match unitMillis? (cs.dropWhile isNumeralChar), Numeral.read? (cs.takeWhile isNumeralChar) with
  | some unit, some numeral => numeral.amount text unit
  | _, _ => .error (.malformed text)

end ReplicaControl.Quantity
