import ReplicaControl.Document
import ReplicaControl.Toml.Lexeme

/-!
# Numbers, truth values and dates of TOML

* `Toml.integer?` — a whole number in decimal, hexadecimal, octal or binary digits, which may have
  underscores between them, in the range of a signed 64 bit word.
* `Toml.isFloat`, `isDate`, `isTime`, `isDateTime` — the other forms of scalars.
* `Toml.scalar?` — the document of a scalar without quotes.
-/

namespace ReplicaControl.Toml

/-- Whether characters are digits, with single underscores between them. -/
def isGrouped (isDigit : Char → Bool) : List Char → Bool
  | [] => false
  | [c] => isDigit c
  | c :: '_' :: cs => isDigit c && isGrouped isDigit cs
  | c :: cs => isDigit c && isGrouped isDigit cs

/-- The characters other than underscores. -/
def ungrouped (cs : List Char) : List Char := cs.filter (· != '_')

/-- Whether characters are a decimal number without needless zeros in front. -/
def isDecimal (cs : List Char) : Bool :=
  isGrouped Char.isDigit cs && (cs.length == 1 || cs.head? != some '0')

/-- The characters after an optional sign, and whether it was a minus. -/
def unsigned : List Char → Bool × List Char
  | '-' :: cs => (true, cs)
  | '+' :: cs => (false, cs)
  | cs => (false, cs)

/-- The number that digits stand for in a base. -/
def valueInBase (base : Nat) (cs : List Char) : Nat :=
  (ungrouped cs).foldl (fun n c => n * base + (hexValue? c).getD 0) 0

/-- Whether a character is a digit of a base up to sixteen. -/
def isDigitOf (base : Nat) (c : Char) : Bool := (hexValue? c).any (· < base)

/-- A number in the range of a signed 64 bit word. -/
def word? (n : Int) : Option Int :=
  if -9223372036854775808 ≤ n ∧ n ≤ 9223372036854775807 then some n else none

/-- A whole number with digits of a base. -/
def based? (base : Nat) (cs : List Char) : Option Int :=
  if isGrouped (isDigitOf base) cs then word? (valueInBase base cs) else none

/-- A whole number. -/
def integer? (cs : List Char) : Option Int :=
  match cs with
  | '0' :: 'x' :: digits => based? 16 digits
  | '0' :: 'o' :: digits => based? 8 digits
  | '0' :: 'b' :: digits => based? 2 digits
  | _ =>
    let (negative, digits) := unsigned cs
    if isDecimal digits then
      let n : Int := Text.valueOfDigits (ungrouped digits)
      word? (if negative then -n else n)
    else none

/-- Whether characters are an exponent, or nothing. -/
def isExponent : List Char → Bool
  | [] => true
  | e :: cs => (e == 'e' || e == 'E') && isGrouped Char.isDigit (unsigned cs).2

/-- Whether a character is a digit or an underscore. -/
def isDigitOrBar (c : Char) : Bool := c.isDigit || c == '_'

/-- Whether characters are a number with a fraction or an exponent, an infinity or no number. -/
def isFloat (cs : List Char) : Bool :=
  let body := (unsigned cs).2
  let whole := body.takeWhile isDigitOrBar
  body == "inf".toList || body == "nan".toList ||
    (isDecimal whole &&
      match body.dropWhile isDigitOrBar with
      | '.' :: rest =>
        isGrouped Char.isDigit (rest.takeWhile isDigitOrBar) &&
          isExponent (rest.dropWhile isDigitOrBar)
      | [] => false
      | rest => isExponent rest)

/-- The number that a row of a given count of digits stands for. -/
def digits? (count : Nat) (cs : List Char) : Option Nat :=
  if cs.length = count then Text.readNat cs else none

/-- Whether a row of two digits is a number up to a bound. -/
def isPair (greatest : Nat) (cs : List Char) : Bool := (digits? 2 cs).any (· ≤ greatest)

/-- The number of days of a month. -/
def daysOf (year month : Nat) : Nat :=
  if month = 2 then
    if year % 4 = 0 ∧ (year % 100 ≠ 0 ∨ year % 400 = 0) then 29 else 28
  else if month = 4 ∨ month = 6 ∨ month = 9 ∨ month = 11 then 30
  else 31

/-- Whether characters are a date. -/
def isDate (cs : List Char) : Bool :=
  match digits? 4 (cs.take 4), digits? 2 ((cs.drop 5).take 2), digits? 2 (cs.drop 8) with
  | some year, some month, some day =>
    cs[4]? == some '-' && cs[7]? == some '-' && 1 ≤ month && month ≤ 12 && 1 ≤ day &&
      day ≤ daysOf year month
  | _, _, _ => false

/-- Whether characters are a time of day. -/
def isTime (cs : List Char) : Bool :=
  isPair 23 (cs.take 2) && cs[2]? == some ':' && isPair 59 ((cs.drop 3).take 2) &&
    cs[5]? == some ':' && isPair 60 ((cs.drop 6).take 2) &&
    match cs.drop 8 with
    | [] => true
    | '.' :: fraction => fraction != [] && fraction.all Char.isDigit
    | _ => false

/-- Whether characters are the offset of a time. -/
def isOffset : List Char → Bool
  | [z] => z == 'Z' || z == 'z'
  | sign :: cs =>
    (sign == '+' || sign == '-') && isPair 23 (cs.take 2) && cs[2]? == some ':' &&
      isPair 59 (cs.drop 3)
  | [] => false

/-- Whether a character can stand in a time of day. -/
def isTimeChar (c : Char) : Bool := c.isDigit || c == ':' || c == '.'

/-- Whether characters are a time of day that may have an offset. -/
def isOffsetTime (cs : List Char) : Bool :=
  isTime (cs.takeWhile isTimeChar) &&
    (cs.dropWhile isTimeChar == [] || isOffset (cs.dropWhile isTimeChar))

/-- Whether characters are a date with a time. -/
def isDateTime (cs : List Char) : Bool :=
  isDate (cs.take 10) && (cs[10]? == some 'T' || cs[10]? == some 't') && isOffsetTime (cs.drop 11)

/-- The document of a scalar without quotes. -/
def scalar? (cs : List Char) : Option Document :=
  if cs = "true".toList then some (.bool true)
  else if cs = "false".toList then some (.bool false)
  else
    match integer? cs with
    | some n => some (.int n)
    | none => if isFloat cs || isDate cs || isTime cs || isDateTime cs then some .other else none

end ReplicaControl.Toml
