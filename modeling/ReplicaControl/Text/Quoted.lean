import ReplicaControl.Text.Shown

/-!
# Quoted text

* `Text.quote` — a text between double quotes, on one line and without hidden characters.  A quote
  or a backslash is written after a backslash; NUL, tab, line feed and carriage return by a letter;
  any other hidden character by its code point in lower case hexadecimal between braces.
-/

namespace ReplicaControl.Text

/-- The hexadecimal digit of a number below sixteen, in lower case. -/
def hexChar (d : Nat) : Char := if d < 10 then Char.ofNat (48 + d) else Char.ofNat (87 + d)

/-- The hexadecimal digits of a number in lower case, the most significant first. -/
def hexDigits (n : Nat) : List Char :=
  if n < 16 then [hexChar n] else hexDigits (n / 16) ++ [hexChar (n % 16)]

/-- A character as it stands inside quotes. -/
def quoteChar (c : Char) : List Char :=
  match c with
  | '\x00' => ['\\', '0']
  | '\t' => ['\\', 't']
  | '\n' => ['\\', 'n']
  | '\r' => ['\\', 'r']
  | '"' => ['\\', '"']
  | '\\' => ['\\', '\\']
  | c => if isShown c then [c] else ['\\', 'u', '\x7b'] ++ hexDigits c.toNat ++ ['\x7d']

/-- A text between double quotes, with its hidden characters written visibly. -/
def quote (s : String) : String := String.ofList (['"'] ++ s.toList.flatMap quoteChar ++ ['"'])

end ReplicaControl.Text
