import ReplicaControl.Proofs.RoundedAmounts

/-!
# Amounts and the working range of their arithmetic

The products and the power that lead to an amount are checked against the working range, the sums
are not.

* `stays_in_range_iff` — the arithmetic of a text leaves the working range without a check if and
  only if the checks let a sum pass that is too large.  `not_stays_in_range_nines`: they do so for
  amounts that are small.
* `fitting_accepted_iff` — an amount in range is read if and only if the digits after its point
  leave room in the working range; up to twenty digits do (`hasRoom_of_length_le`).
  `not_fitting_accepted_ones`: the same amount with more digits is an overflow.
-/

namespace ReplicaControl

namespace Text

theorem digitValue_le {c : Char} (h : c.isDigit = true) : digitValue c ≤ 9 := by
  simp only [Char.isDigit, Bool.and_eq_true, decide_eq_true_eq, UInt32.le_iff_toNat_le] at h
  have hle : c.toNat ≤ 57 := h.2
  unfold digitValue
  omega

/-- A row of digits stands for less than its power of ten. -/
theorem valueOfDigits_lt {cs : List Char} (h : ∀ c ∈ cs, c.isDigit = true) :
    valueOfDigits cs < 10 ^ cs.length := by
  induction cs with
  | nil => simp [valueOfDigits]
  | cons c cs ih =>
    have hrest := ih fun d hd => h d (List.mem_cons_of_mem c hd)
    have hdigit := digitValue_le (h c List.mem_cons_self)
    have hparts := valueOfDigits_append [c] cs
    have hfirst : valueOfDigits [c] = digitValue c := by simp [valueOfDigits]
    rw [List.singleton_append, hfirst] at hparts
    rw [hparts, List.length_cons, Nat.pow_succ']
    have := Nat.mul_le_mul_right (10 ^ cs.length) hdigit
    omega

end Text

namespace Quantity

namespace Numeral

variable {n : Numeral} {unit : Int}

/-- The digits after the point leave room in the working range: their product with the unit can be
rounded up there. -/
def HasRoom (n : Numeral) (unit : Int) : Prop :=
  n.fraction = [] ∨ InWorkingRange (n.fractionPart * unit + n.scale)

/-- The magnitude of an amount in range is far within the working range. -/
theorem magnitude_le (h : InRange (n.millis unit)) : n.magnitude unit ≤ 9223372036854775808 := by
  unfold InRange millis at h
  split at h <;> omega

section

variable (hunit : 1 ≤ unit) (h : InRange (n.millis unit)) (hshort : n.fraction.length < 2 ^ 32)

include hshort in
/-- Where all digits are counted, the reader works out the magnitude. -/
theorem reading_eq_magnitude : n.reading unit = n.magnitude unit := by
  rw [reading, power_eq_scale hshort, magnitude_eq]

include hshort in
theorem signedReading_eq_millis : n.signedReading unit = n.millis unit := by
  rw [signedReading, reading_eq_magnitude hshort, millis]

include hunit h hshort in
/-- Where the amount is in range, the whole part is not what leaves the working range. -/
theorem isChecked_iff_of_inRange : n.IsChecked unit ↔ (n.fraction ≠ [] →
    InWorkingRange n.scale ∧ InWorkingRange (n.fractionPart * unit)) := by
  rw [← power_eq_scale hshort]
  constructor
  · intro hchecked hne
    exact ⟨hchecked.power hne, hchecked.fraction hne⟩
  · intro hfraction
    refine ⟨?_, fun hne => (hfraction hne).1, fun hne => (hfraction hne).2⟩
    have hwhole := Int.mul_nonneg n.wholePart_nonneg (show 0 ≤ unit by omega)
    have hle := n.wholePart_mul_le hunit n.scale_pos
    have hmagnitude := magnitude_le h
    rw [magnitude_eq] at hmagnitude
    unfold InWorkingRange
    omega

include hunit h hshort in
/-- Where the amount is in range, rounding up its fraction is what leaves the working range. -/
theorem isExact_iff_of_inRange : n.IsExact unit ↔
    (n.fraction ≠ [] → InWorkingRange (n.fractionPart * unit + n.scale)) := by
  rw [isExact_iff hunit, power_eq_scale hshort]
  refine and_iff_left ?_
  have hnonneg : 0 ≤ n.reading unit := n.roundedSum_nonneg hunit n.power_pos
  have hmagnitude := magnitude_le h
  rw [← reading_eq_magnitude hshort] at hmagnitude
  unfold InWorkingRange
  omega

include hunit h hshort in
/-- Room for the sum is room for its two terms. -/
theorem hasRoom_iff : n.HasRoom unit ↔ n.IsChecked unit ∧ n.IsExact unit := by
  have hscale := n.scale_pos
  have hproduct := Int.mul_nonneg n.fractionPart_nonneg (show 0 ≤ unit by omega)
  rw [isChecked_iff_of_inRange hunit h hshort, isExact_iff_of_inRange hunit h hshort, HasRoom]
  unfold InWorkingRange
  constructor
  · rintro (hnil | hroom)
    · exact ⟨absurd hnil, absurd hnil⟩
    · exact ⟨fun _ => by omega, fun _ => hroom⟩
  · rintro ⟨-, hroom⟩
    by_cases hnil : n.fraction = []
    · exact .inl hnil
    · exact .inr (hroom hnil)

end

/-- **Twenty digits after the point leave room with every suffix.** -/
theorem hasRoom_of_length_le {cs : List Char} (h : Spells cs n unit)
    (hlength : n.fraction.length ≤ 20) : n.HasRoom unit := by
  obtain ⟨hunit, hlargest⟩ := h.bounds
  have hdigits : ∀ c ∈ n.fraction, c.isDigit = true := fun c hc =>
    h.digits c (List.mem_append_right _ hc)
  have hpower : n.scale ≤ 10 ^ 20 := by
    unfold scale
    exact_mod_cast Nat.pow_le_pow_right (by decide) hlength
  have hvalue : n.fractionPart ≤ 10 ^ 20 := by
    have hlt : n.fractionPart < n.scale := by
      unfold fractionPart scale
      exact_mod_cast Text.valueOfDigits_lt hdigits
    omega
  have hproduct : n.fractionPart * unit ≤ 10 ^ 20 * (1000 * 1024 ^ 5) :=
    Int.mul_le_mul hvalue hlargest (by omega) (by decide)
  have hnonneg := Int.mul_nonneg n.fractionPart_nonneg (show 0 ≤ unit by omega)
  have hscale := n.scale_pos
  refine .inr ?_
  unfold InWorkingRange
  omega

end Numeral

variable {text : String} {n : Numeral} {unit : Int}

/-- **The arithmetic that is not checked stays in the working range if and only if the checks see to
it**: a text is read, is malformed or overflows, or else its products and its power pass their
checks, and one of the sums or the change of sign after them leaves the range. -/
theorem stays_in_range_iff (text : String) :
    ((∃ q, parse text = .ok q) ∨ parse text = .error (.malformed text) ∨
      parse text = .error (.overflow text)) ↔
    ∀ n unit, Spells (Text.trimBlanks text.toList) n unit → n.IsChecked unit →
      n.IsExact unit := by
  constructor
  · intro hreads n unit h hchecked
    by_contra hexact
    rcases parse_cases h with ⟨hnot, -⟩ | ⟨-, -, hp⟩ | ⟨-, hexact', -⟩
    · exact hnot hchecked
    · simp [hp] at hreads
    · exact hexact hexact'
  · intro hexact
    by_cases hspells : ∃ n unit, Spells (Text.trimBlanks text.toList) n unit
    · obtain ⟨n, unit, h⟩ := hspells
      rcases parse_cases h with ⟨-, hp⟩ | ⟨hchecked, hnot, -⟩ | ⟨-, -, hp⟩
      · exact .inr (.inr hp)
      · exact absurd (hexact n unit h hchecked) hnot
      · rw [hp]
        split
        · exact .inl ⟨_, rfl⟩
        · exact .inr (.inr rfl)
    · exact .inr (.inl (parse_of_not_spells hspells))

/-- Thirty-eight nines after the point pass all checks, but cannot be rounded up in the working
range, although the amount is one thousandth.  A whole part close to the range leaves none for the
fraction that is added to it. -/
theorem not_stays_in_range_nines :
    let nines := "0.99999999999999999999999999999999999999m"
    let n : Numeral := ⟨false, ['0'], List.replicate 38 '9'⟩
    let large := "170141183460469231731687303715884105.9"
    (Spells (Text.trimBlanks nines.toList) n 1 ∧ n.IsChecked 1 ∧ ¬ n.IsExact 1 ∧
      n.millis 1 = 1 ∧ parse nines = .error (.exhausted nines)) ∧
    parse large = .error (.exhausted large) := by
  intro nines n large
  refine ⟨⟨?_, ⟨?_, fun _ => ?_, fun _ => ?_⟩, fun hexact => ?_, ?_, ?_⟩, ?_⟩
  · exact spells_iff.2 (by decide +kernel)
  · decide +kernel
  · decide +kernel
  · decide +kernel
  · exact absurd (hexact.rounding (by decide)) (by decide +kernel)
  · rw [Numeral.millis, Numeral.magnitude_eq]
    decide +kernel
  · decide +kernel
  · decide +kernel

/-- **An amount in range is read if and only if the digits after its point leave room** in the
working range, as up to twenty of them do.  It is an overflow if and only if their power of ten or
their product with the unit is out of that range.  (Fewer than 2³² of them, which all are
counted.) -/
theorem fitting_accepted_iff (h : Spells (Text.trimBlanks text.toList) n unit)
    (hfits : InRange (n.millis unit)) (hshort : n.fraction.length < 2 ^ 32) :
    (parse text = .ok ⟨n.millis unit, hfits⟩ ↔ n.HasRoom unit) ∧
    (parse text = .error (.overflow text) ↔ n.fraction ≠ [] ∧
      (¬ InWorkingRange n.scale ∨ ¬ InWorkingRange (n.fractionPart * unit))) ∧
    (n.fraction.length ≤ 20 → n.HasRoom unit) := by
  have hunit := h.bounds.1
  have hroom := n.hasRoom_iff hunit hfits hshort
  have hmillis : n.signedReading unit = n.millis unit := n.signedReading_eq_millis hshort
  have hoverflow : ¬ n.IsChecked unit ↔ n.fraction ≠ [] ∧
      (¬ InWorkingRange n.scale ∨ ¬ InWorkingRange (n.fractionPart * unit)) := by
    rw [n.isChecked_iff_of_inRange hunit hfits hshort, Classical.not_imp,
      Classical.not_and_iff_not_or_not]
  refine ⟨?_, ?_, n.hasRoom_of_length_le h⟩
  · rw [hroom]
    rcases parse_cases h with ⟨hnot, hp⟩ | ⟨-, hnot, hp⟩ | ⟨hchecked, hexact, hp⟩
    · simp [hp, hnot]
    · simp [hp, hnot]
    · simp [hp, hmillis, hfits, hchecked, hexact]
  · rw [← hoverflow]
    rcases parse_cases h with ⟨hnot, hp⟩ | ⟨hchecked, -, hp⟩ | ⟨hchecked, -, hp⟩
    · simp [hp, hnot]
    · simp [hp, hchecked]
    · simp [hp, hmillis, hfits, hchecked]

/-- Twenty ones after the point are 112 thousandths. -/
theorem fitting_accepted_iff_twenty_ones :
    let ones := " 0.11111111111111111111"
    let n : Numeral := ⟨false, ['0'], List.replicate 20 '1'⟩
    Spells (Text.trimBlanks ones.toList) n 1000 ∧ n.millis 1000 = 112 ∧
      ∃ hfits, parse ones = .ok ⟨n.millis 1000, hfits⟩ := by
  intro ones n
  have hspells : Spells (Text.trimBlanks ones.toList) n 1000 := spells_iff.2 (by decide +kernel)
  have hmillis : n.millis 1000 = 112 := by
    rw [Numeral.millis, Numeral.magnitude_eq]
    decide +kernel
  have hfits : InRange (n.millis 1000) := by
    rw [hmillis]
    decide
  obtain ⟨haccepted, -, hroom⟩ := fitting_accepted_iff hspells hfits (by decide)
  exact ⟨hspells, hmillis, hfits, haccepted.2 (hroom (by decide))⟩

/-- With thirty-seven ones they are an overflow. -/
theorem not_fitting_accepted_ones :
    let ones := "0.1111111111111111111111111111111111111"
    let n : Numeral := ⟨false, ['0'], List.replicate 37 '1'⟩
    Spells (Text.trimBlanks ones.toList) n 1000 ∧ n.millis 1000 = 112 ∧ InRange (n.millis 1000) ∧
      parse ones = .error (.overflow ones) := by
  intro ones n
  have hmillis : n.millis 1000 = 112 := by
    rw [Numeral.millis, Numeral.magnitude_eq]
    decide +kernel
  refine ⟨spells_iff.2 (by decide +kernel), hmillis, ?_, by decide +kernel⟩
  rw [hmillis]
  decide

end Quantity

end ReplicaControl
