/-!
# White space

* `Text.isBlank` — the characters with the Unicode property `White_Space`.
* `Text.trim` — a text without the white space around it.
-/

namespace ReplicaControl.Text

/-- Whether a character has the Unicode property `White_Space`. -/
def isBlank (c : Char) : Bool :=
  let n := c.toNat
  (9 ≤ n && n ≤ 13) || n == 0x20 || n == 0x85 || n == 0xa0 || n == 0x1680 ||
    (0x2000 ≤ n && n ≤ 0x200a) || n == 0x2028 || n == 0x2029 || n == 0x202f || n == 0x205f ||
    n == 0x3000

/-- Characters without the white space before and after them. -/
def trimBlanks (cs : List Char) : List Char :=
  ((cs.dropWhile isBlank).reverse.dropWhile isBlank).reverse

/-- A text without the white space before and after it. -/
def trim (s : String) : String := String.ofList (trimBlanks s.toList)

/-- Nothing is trimmed from characters that are no white space. -/
theorem trimBlanks_eq_self {cs : List Char} (h : ∀ c ∈ cs, isBlank c = false) :
    trimBlanks cs = cs := by
  have drop : ∀ l : List Char, (∀ c ∈ l, isBlank c = false) → l.dropWhile isBlank = l := by
    intro l hl
    cases l with
    | nil => rfl
    | cons c r => simp [hl c (by simp)]
  rw [trimBlanks, drop cs h, drop cs.reverse fun c hc => h c (List.mem_reverse.1 hc),
    List.reverse_reverse]

end ReplicaControl.Text
