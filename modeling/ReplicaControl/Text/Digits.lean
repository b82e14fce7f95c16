/-!
# Decimal numbers in text

* `Text.digits` and `Text.decimal` — the decimal text of a natural number and of an integer.
* `Text.readNat`, `Text.readUnsigned`, `Text.readSigned` — the readers: digits alone, after an
  optional `+`, and after an optional `+` or `-`.
* `readNat_digits`, `readSigned_decimal` — what was written reads back.
-/

namespace ReplicaControl.Text

/-- The digit of a number below ten. -/
def digitChar (d : Nat) : Char := Char.ofNat (48 + d)

/-- The number that a digit stands for. -/
def digitValue (c : Char) : Nat := c.toNat - 48

/-- The decimal digits of a number, the most significant first. -/
def digits (n : Nat) : List Char :=
  if n < 10 then [digitChar n] else digits (n / 10) ++ [digitChar (n % 10)]

/-- The number that a row of digits stands for. -/
def valueOfDigits (cs : List Char) : Nat := cs.foldl (fun n c => n * 10 + digitValue c) 0

/-- The decimal text of an integer. -/
def decimal (n : Int) : String :=
  String.ofList (if n < 0 then '-' :: digits n.natAbs else digits n.natAbs)

/-- Reads one or more digits. -/
def readNat (cs : List Char) : Option Nat :=
  if cs ≠ [] ∧ cs.all Char.isDigit then some (valueOfDigits cs) else none

/-- Reads one or more digits after an optional `+`. -/
def readUnsigned : List Char → Option Nat
  | '+' :: cs => readNat cs
  | cs => readNat cs

/-- Reads one or more digits after an optional sign. -/
def readSigned : List Char → Option Int
  | '-' :: cs => (readNat cs).map fun n : Nat => -(n : Int)
  | '+' :: cs => (readNat cs).map fun n : Nat => (n : Int)
  | cs => (readNat cs).map fun n : Nat => (n : Int)

theorem isDigit_digitChar {d : Nat} (h : d < 10) : (digitChar d).isDigit = true := by
  have : ∀ d, d < 10 → (digitChar d).isDigit = true := by decide
  exact this d h

theorem digitValue_digitChar {d : Nat} (h : d < 10) : digitValue (digitChar d) = d := by
  have : ∀ d, d < 10 → digitValue (digitChar d) = d := by decide
  exact this d h

theorem digits_ne_nil (n : Nat) : digits n ≠ [] := by
  rw [digits]; split <;> simp

theorem all_digits (n : Nat) : ∀ c ∈ digits n, c.isDigit = true := by
  rw [digits]
  split
  · simpa using isDigit_digitChar ‹_›
  · intro c hc
    rcases List.mem_append.1 hc with hc | hc
    · exact all_digits (n / 10) c hc
    · rw [List.mem_singleton.1 hc]
      exact isDigit_digitChar (by omega)
termination_by n

theorem valueOfDigits_digits (n : Nat) : valueOfDigits (digits n) = n := by
  rw [digits]
  split
  · simpa [valueOfDigits] using digitValue_digitChar ‹_›
  · have ih := valueOfDigits_digits (n / 10)
    simp only [valueOfDigits, List.foldl_append, List.foldl_cons, List.foldl_nil] at ih ⊢
    rw [ih, digitValue_digitChar (by omega)]
    omega
termination_by n

/-- The digits of a number read back. -/
theorem readNat_digits (n : Nat) : readNat (digits n) = some n := by
  rw [readNat, if_pos ⟨digits_ne_nil n, List.all_eq_true.2 (all_digits n)⟩, valueOfDigits_digits]

/-- A row that starts with a digit starts with no sign. -/
theorem readSigned_eq_readNat {cs : List Char} (h : ∀ c ∈ cs.head?, c.isDigit = true) :
    readSigned cs = (readNat cs).map fun n : Nat => (n : Int) := by
  unfold readSigned
  split
  · exact absurd (h '-' rfl) (by decide)
  · exact absurd (h '+' rfl) (by decide)
  · rfl

/-- The decimal text of an integer reads back. -/
theorem readSigned_decimal (n : Int) : readSigned (decimal n).toList = some n := by
  by_cases h : n < 0
  · have hn : -(n.natAbs : Int) = n := by omega
    rw [decimal, if_pos h, String.toList_ofList, readSigned, readNat_digits, Option.map_some, hn]
  · have hn : (n.natAbs : Int) = n := by omega
    have hd : ∀ c ∈ (digits n.natAbs).head?, c.isDigit = true := fun c hc =>
      all_digits _ c (List.mem_of_mem_head? hc)
    rw [decimal, if_neg h, String.toList_ofList, readSigned_eq_readNat hd, readNat_digits,
      Option.map_some, hn]

end ReplicaControl.Text
