import Mathlib.Data.List.Induction
import Mathlib.Data.List.TakeWhile
import Mathlib.Data.Nat.Digits.Defs
import ReplicaControl.Text.Blank
import ReplicaControl.Text.Digits

/-!
# How numbers are written

* `Text.Trims` — characters with white space around some others; `trims_iff`: those others are what
  trimming leaves.
* `Text.DigitsOf`, `Unsigned`, `Signed` — digits that stand for a number, alone, after an optional
  plus and after an optional sign.
* `readNat_eq_some_iff`, `readUnsigned_eq_some_iff`, `readSigned_eq_some_iff` — the readers accept
  what is written so, and nothing else.
-/

namespace ReplicaControl.Text

variable {cs core : List Char}

/-! ## White space -/

/-- Characters are some others with white space around them, which neither start nor end with white
space themselves. -/
structure Trims (cs core : List Char) : Prop where
  layout : ∃ before after, cs = before ++ (core ++ after) ∧
    ∀ c ∈ before ++ after, isBlank c = true
  first : ∀ c ∈ core.head?, isBlank c = false
  last : ∀ c ∈ core.getLast?, isBlank c = false

theorem dropWhile_isBlank_append {before rest : List Char} (hb : ∀ c ∈ before, isBlank c = true)
    (hr : ∀ c ∈ rest.head?, isBlank c = false) : (before ++ rest).dropWhile isBlank = rest := by
  rw [List.dropWhile_append_of_pos hb]
  cases rest with
  | nil => rfl
  | cons c rest => exact List.dropWhile_cons_of_neg (by simp [hr c rfl])

/-- What is dropped from the front is white space, and what is left does not start with any. -/
theorem dropWhile_isBlank_spec (cs : List Char) :
    ∃ before, cs = before ++ cs.dropWhile isBlank ∧ (∀ c ∈ before, isBlank c = true) ∧
      ∀ c ∈ (cs.dropWhile isBlank).head?, isBlank c = false := by
  refine ⟨cs.takeWhile isBlank, List.takeWhile_append_dropWhile.symm, ?_, ?_⟩
  · exact fun c hc => List.mem_takeWhile_imp hc
  · intro c hc
    have h := List.head?_dropWhile_not isBlank cs
    rwa [hc] at h

/-- **Trimming leaves the characters that the white space is around.** -/
theorem trims_iff : Trims cs core ↔ trimBlanks cs = core := by
  constructor
  · rintro ⟨⟨before, after, rfl, hblank⟩, hfirst, hlast⟩
    obtain ⟨hbefore, hafter⟩ := List.forall_mem_append.1 hblank
    cases core with
    | nil =>
      have hnil : (before ++ after).dropWhile isBlank = [] := List.dropWhile_eq_nil_iff.2 hblank
      rw [trimBlanks, List.nil_append, hnil]
      rfl
    | cons d rest =>
      have hfront : (before ++ (d :: rest ++ after)).dropWhile isBlank = d :: rest ++ after :=
        dropWhile_isBlank_append hbefore hfirst
      have hback : (after.reverse ++ (d :: rest).reverse).dropWhile isBlank = (d :: rest).reverse :=
        dropWhile_isBlank_append (fun c hc => hafter c (List.mem_reverse.1 hc)) fun c hc =>
          hlast c (by rwa [List.head?_reverse] at hc)
      rw [trimBlanks, hfront, List.reverse_append, hback, List.reverse_reverse]
  · rintro rfl
    obtain ⟨before, hcs, hbefore, hfirst⟩ := dropWhile_isBlank_spec cs
    rw [trimBlanks]
    generalize cs.dropWhile isBlank = rest at hcs hfirst ⊢
    obtain ⟨after, hrest, hafter, hlast⟩ := dropWhile_isBlank_spec rest.reverse
    generalize rest.reverse.dropWhile isBlank = core at hrest hlast ⊢
    have hparts : rest = core.reverse ++ after.reverse := by
      rw [← List.reverse_append, ← hrest, List.reverse_reverse]
    refine ⟨⟨before, after.reverse, by rw [hcs, hparts], ?_⟩, fun c hc => ?_, fun c hc => ?_⟩
    · exact List.forall_mem_append.2 ⟨hbefore, fun c hc => hafter c (List.mem_reverse.1 hc)⟩
    · -- a core that starts with a character lends it to the rest
      refine hfirst c ?_
      rw [Option.mem_def] at hc
      rw [hparts, List.head?_append, hc]
      rfl
    · exact hlast c (by rwa [List.getLast?_reverse] at hc)

/-! ## Digits -/

/-- Characters are digits, of which there is at least one, that stand for a number. -/
structure DigitsOf (n : Nat) (cs : List Char) : Prop where
  some_digit : cs ≠ []
  digits : ∀ c ∈ cs, c.isDigit = true
  value : Nat.ofDigits 10 (cs.reverse.map digitValue) = n

/-- Characters are digits that stand for a number, with or without a plus in front. -/
inductive Unsigned (n : Nat) : List Char → Prop
  | bare {cs : List Char} (h : DigitsOf n cs) : Unsigned n cs
  | plus {cs : List Char} (h : DigitsOf n cs) : Unsigned n ('+' :: cs)

/-- Characters are digits after an optional sign that stand for an integer. -/
inductive Signed : Int → List Char → Prop
  | bare {n : Nat} {cs : List Char} (h : DigitsOf n cs) : Signed n cs
  | plus {n : Nat} {cs : List Char} (h : DigitsOf n cs) : Signed n ('+' :: cs)
  | minus {n : Nat} {cs : List Char} (h : DigitsOf n cs) : Signed (-n) ('-' :: cs)

/-- The reader of digits computes their value in base ten. -/
theorem valueOfDigits_eq (cs : List Char) :
    valueOfDigits cs = Nat.ofDigits 10 (cs.reverse.map digitValue) := by
  induction cs using List.reverseRecOn with
  | nil => rfl
  | append_singleton cs c ih =>
    rw [List.reverse_append, List.reverse_singleton, List.singleton_append, List.map_cons,
      Nat.ofDigits_cons, ← ih, valueOfDigits, List.foldl_append, List.foldl_cons, List.foldl_nil,
      ← valueOfDigits]
    omega

theorem readNat_eq_some_iff {n : Nat} : readNat cs = some n ↔ DigitsOf n cs := by
  rw [readNat, valueOfDigits_eq]
  constructor
  · intro h
    split at h
    · rename_i hdigits
      exact ⟨hdigits.1, List.all_eq_true.1 hdigits.2, Option.some.inj h⟩
    · cases h
  · rintro ⟨hne, hdigits, hvalue⟩
    rw [if_pos ⟨hne, List.all_eq_true.2 hdigits⟩, hvalue]

theorem DigitsOf.head?_isDigit {n : Nat} (h : DigitsOf n cs) :
    ∀ c ∈ cs.head?, c.isDigit = true :=
  fun c hc => h.digits c (List.mem_of_mem_head? hc)

theorem readUnsigned_eq_some_iff {n : Nat} : readUnsigned cs = some n ↔ Unsigned n cs := by
  constructor
  · intro h
    unfold readUnsigned at h
    split at h
    · exact .plus (readNat_eq_some_iff.1 h)
    · exact .bare (readNat_eq_some_iff.1 h)
  · intro h
    cases h with
    | plus h => exact readNat_eq_some_iff.2 h
    | bare h =>
      unfold readUnsigned
      split
      · exact absurd (h.head?_isDigit '+' rfl) (by decide)
      · exact readNat_eq_some_iff.2 h

theorem readSigned_eq_some_iff {n : Int} : readSigned cs = some n ↔ Signed n cs := by
  constructor
  · intro h
    unfold readSigned at h
    split at h <;> obtain ⟨k, hk, rfl⟩ := Option.map_eq_some_iff.1 h
    · exact .minus (readNat_eq_some_iff.1 hk)
    · exact .plus (readNat_eq_some_iff.1 hk)
    · exact .bare (readNat_eq_some_iff.1 hk)
  · intro h
    cases h with
    | plus h => rw [readSigned, readNat_eq_some_iff.2 h, Option.map_some]
    | minus h => rw [readSigned, readNat_eq_some_iff.2 h, Option.map_some]
    | bare h => rw [readSigned_eq_readNat h.head?_isDigit, readNat_eq_some_iff.2 h, Option.map_some]

end ReplicaControl.Text
