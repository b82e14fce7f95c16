import ReplicaControl.Text.Blank
import ReplicaControl.Text.Digits
import ReplicaControl.Text.Quoted

/-!
# Durations

* `Duration` — a length of time in whole milliseconds.
* `Duration.parse` — reads a number of milliseconds (`ms`), seconds (`s` or no unit) or minutes
  (`m`) with white space around it.  The number, and minutes in seconds, fit an unsigned 64 bit
  word.
* `Duration.text` — seconds with the fraction that is needed, or milliseconds below one second.
-/

namespace ReplicaControl

/-- A length of time. -/
structure Duration where
  millis : Nat
deriving DecidableEq, Inhabited

/-- The trimmed text that is no duration. -/
structure DurationError where
  text : String
deriving DecidableEq

/-- The error in words. -/
def DurationError.message (e : DurationError) : String := "invalid duration " ++ Text.quote e.text

namespace Duration

/-- The first number that no unsigned 64 bit word holds. -/
def wordBound : Nat := 18446744073709551616

/-- A number of seconds. -/
def ofSeconds (n : Nat) : Duration := ⟨n * 1000⟩

/-- Reads a number below the bound. -/
def readWord? (cs : List Char) : Option Nat :=
  match Text.readUnsigned cs with
  | some n => if n < wordBound then some n else none
  | none => none

/-- Reads a duration without white space around it.  The first unit that fits decides. -/
def read? (cs : List Char) : Option Duration :=
  match ['m', 's'].isSuffixOf? cs with
  | some number => (readWord? number).map fun n => ⟨n⟩
  | none =>
    match ['s'].isSuffixOf? cs with
    | some number => (readWord? number).map ofSeconds
    | none =>
      match ['m'].isSuffixOf? cs with
      | some number =>
        match readWord? number with
        | some n => if n * 60 < wordBound then some (ofSeconds (n * 60)) else none
        | none => none
      | none => (readWord? cs).map ofSeconds

/-- Reads a duration. -/
def parse (text : String) : Except DurationError Duration :=
  let cs := Text.trimBlanks text.toList
  match read? cs with
  | some d => .ok d
  | none => .error ⟨String.ofList cs⟩

/-- The three digits of a number of thousandths, without zeros at the end. -/
def fractionDigits (millis : Nat) : List Char :=
  let padded := ['0', '0', '0'] ++ Text.digits millis
  ((padded.drop (padded.length - 3)).reverse.dropWhile (· == '0')).reverse

/-- The text of a duration. -/
def text (d : Duration) : String :=
  let seconds := Text.decimal (d.millis / 1000 : Nat)
  if 1000 ≤ d.millis then
    if d.millis % 1000 = 0 then seconds ++ "s"
    else seconds ++ "." ++ String.ofList (fractionDigits (d.millis % 1000)) ++ "s"
  else if d.millis = 0 then "0ns"
  else Text.decimal d.millis ++ "ms"

end Duration

end ReplicaControl
