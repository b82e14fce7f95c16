import Mathlib.Data.Rat.Floor
import Mathlib.Tactic.FieldSimp
import Mathlib.Tactic.Linarith
import Mathlib.Tactic.Ring
import ReplicaControl.Proofs.Spellings

/-!
# What amounts are read as

* `Numeral.value`, `magnitude`, `millis` — the decimal number of a numeral, as a rational number;
  its thousandths in a unit, rounded up; and these with the sign.  Nothing here is bounded.
* `Numeral.magnitude_eq` — the whole part and the rounded fraction add up to the magnitude.
* `Numeral.reading` — the same sum over the power of ten of the digits that the reader counts.
  `reading_eq_magnitude_iff`: it is the magnitude if and only if the digits after the point are
  fewer than 2³², or stand for no more than that power.
* `Numeral.IsChecked`, `IsExact` — the reader's arithmetic stays in the working range, where that is
  checked and where it is not.  `amount_of_not_isChecked`, `amount_of_not_isExact`,
  `amount_of_isExact`: what the reader makes of a numeral.
* `parse_exact` — which texts are malformed, what is read of the others, and when it is the exact
  amount.  `not_parse_exact_five`: with 2³² digits after the point it need not be.
-/

namespace ReplicaControl

namespace Text

theorem foldl_digitValue (cs : List Char) (n : Nat) :
    cs.foldl (fun n c => n * 10 + digitValue c) n = n * 10 ^ cs.length + valueOfDigits cs := by
  induction cs generalizing n with
  | nil => simp [valueOfDigits]
  | cons c cs ih =>
    rw [valueOfDigits, List.foldl_cons, List.foldl_cons, ih, ih (0 * 10 + digitValue c),
      List.length_cons, Nat.pow_succ']
    ring

/-- Digits in front of others stand for that many powers of ten more. -/
theorem valueOfDigits_append (cs ds : List Char) :
    valueOfDigits (cs ++ ds) = valueOfDigits cs * 10 ^ ds.length + valueOfDigits ds := by
  rw [valueOfDigits, List.foldl_append, foldl_digitValue]
  rfl

end Text

namespace Quantity

namespace Numeral

/-- The digits before the point, as a number. -/
def wholePart (n : Numeral) : Int := Text.valueOfDigits n.whole

/-- The digits after the point, as a whole number. -/
def fractionPart (n : Numeral) : Int := Text.valueOfDigits n.fraction

/-- What the digits after the point are parts of. -/
def scale (n : Numeral) : Int := 10 ^ n.fraction.length

/-- What the reader takes the digits after the point to be parts of. -/
def power (n : Numeral) : Int := 10 ^ placesOf n.fraction

/-- The thousandths before the point, and those after it as parts of `d`, rounded up. -/
def roundedSum (n : Numeral) (unit d : Int) : Int :=
  n.wholePart * unit + (n.fractionPart * unit + d - 1) / d

/-- The decimal number of a numeral, without its sign. -/
def value (n : Numeral) : ℚ :=
  Text.valueOfDigits (n.whole ++ n.fraction) / 10 ^ n.fraction.length

/-- The thousandths in a numeral of a unit, rounded up. -/
def magnitude (n : Numeral) (unit : Int) : Int := ⌈n.value * unit⌉

/-- The thousandths in a numeral of a unit, with its sign. -/
def millis (n : Numeral) (unit : Int) : Int :=
  if n.negative then -n.magnitude unit else n.magnitude unit

/-- The thousandths that the reader works out for a numeral of a unit. -/
def reading (n : Numeral) (unit : Int) : Int := n.roundedSum unit n.power

/-- These thousandths with the sign. -/
def signedReading (n : Numeral) (unit : Int) : Int :=
  if n.negative then -n.reading unit else n.reading unit

variable {n : Numeral} {unit d : Int}

theorem scale_pos (n : Numeral) : 0 < n.scale := by
  unfold scale
  positivity

theorem power_pos (n : Numeral) : 0 < n.power := by
  unfold power
  positivity

/-- Fewer than 2³² digits are all counted. -/
theorem power_eq_scale (h : n.fraction.length < 2 ^ 32) : n.power = n.scale := by
  rw [power, scale, placesOf, Nat.mod_eq_of_lt (show n.fraction.length < 4294967296 from h)]

theorem wholePart_nonneg (n : Numeral) : 0 ≤ n.wholePart := Int.natCast_nonneg _

theorem fractionPart_nonneg (n : Numeral) : 0 ≤ n.fractionPart := Int.natCast_nonneg _

theorem value_eq (n : Numeral) : n.value = n.wholePart + n.fractionPart / n.scale := by
  have hscale : (10 : ℚ) ^ n.fraction.length ≠ 0 := by positivity
  unfold value wholePart fractionPart scale
  rw [Text.valueOfDigits_append]
  push_cast
  field_simp

/-- A quotient rounded up. -/
theorem ceil_div_eq (x : Int) {d : Int} (hd : 0 < d) : ⌈(x : ℚ) / d⌉ = (x + d - 1) / d := by
  have hd' : (0 : ℚ) < d := by exact_mod_cast hd
  have hdiv := Int.mul_ediv_add_emod (x + d - 1) d
  have hmod := Int.emod_nonneg (x + d - 1) (by omega : d ≠ 0)
  have hlt := Int.emod_lt_of_pos (x + d - 1) hd
  rw [Int.ceil_eq_iff]
  constructor
  · rw [lt_div_iff₀ hd']
    have : ((x + d - 1) / d - 1) * d < x := by linarith
    exact_mod_cast this
  · rw [div_le_iff₀ hd']
    have : x ≤ (x + d - 1) / d * d := by linarith
    exact_mod_cast this

/-- A positive quotient rounds up to one if and only if it is at most one. -/
theorem ceil_div_eq_one_iff {x d : Int} (hx : 0 < x) (hd : 0 < d) :
    (x + d - 1) / d = 1 ↔ x ≤ d := by
  constructor
  · intro hone
    have hdiv := Int.mul_ediv_add_emod (x + d - 1) d
    have hlt := Int.emod_lt_of_pos (x + d - 1) hd
    rw [hone] at hdiv
    omega
  · intro hle
    exact ((Int.ediv_emod_unique hd).2 ⟨show x - 1 + d * 1 = x + d - 1 by omega, by omega⟩).1

/-- **The whole part and the rounded fraction add up to the magnitude.** -/
theorem magnitude_eq (n : Numeral) (unit : Int) :
    n.magnitude unit = n.roundedSum unit n.scale := by
  have hparts : n.value * unit =
      ((n.fractionPart * unit : Int) : ℚ) / n.scale + ((n.wholePart * unit : Int) : ℚ) := by
    rw [value_eq]
    push_cast
    ring
  rw [magnitude, hparts, Int.ceil_add_intCast, ceil_div_eq _ n.scale_pos, roundedSum]
  omega

/-- The whole part alone is not above the sum. -/
theorem wholePart_mul_le (n : Numeral) (hunit : 1 ≤ unit) (hd : 0 < d) :
    n.wholePart * unit ≤ n.roundedSum unit d := by
  have hfraction := Int.mul_nonneg n.fractionPart_nonneg (show 0 ≤ unit by omega)
  have hdiv := Int.ediv_nonneg (show 0 ≤ n.fractionPart * unit + d - 1 by omega)
    (Int.le_of_lt hd)
  unfold roundedSum
  omega

theorem roundedSum_nonneg (n : Numeral) (hunit : 1 ≤ unit) (hd : 0 < d) :
    0 ≤ n.roundedSum unit d :=
  Int.le_trans (Int.mul_nonneg n.wholePart_nonneg (show 0 ≤ unit by omega))
    (n.wholePart_mul_le hunit hd)

/-! ## The working range -/

/-- The products and the power that are checked stay in the working range. -/
structure IsChecked (n : Numeral) (unit : Int) : Prop where
  whole : InWorkingRange (n.wholePart * unit)
  power : n.fraction ≠ [] → InWorkingRange n.power
  fraction : n.fraction ≠ [] → InWorkingRange (n.fractionPart * unit)

/-- The results that are not checked stay in the working range: the sum by which a fraction is
rounded up, its sum with the whole part, and the amount with a minus. -/
structure IsExact (n : Numeral) (unit : Int) : Prop where
  rounding : n.fraction ≠ [] → InWorkingRange (n.fractionPart * unit + n.power)
  total : InWorkingRange (n.reading unit)
  negation : InWorkingRange (-n.reading unit)

/-- The sums decide, since a number in the working range that is not negative has its opposite
there. -/
theorem isExact_iff (hunit : 1 ≤ unit) : n.IsExact unit ↔
    (n.fraction ≠ [] → InWorkingRange (n.fractionPart * unit + n.power)) ∧
      InWorkingRange (n.reading unit) := by
  constructor
  · intro h
    exact ⟨h.rounding, h.total⟩
  · rintro ⟨hrounding, htotal⟩
    refine ⟨hrounding, htotal, ?_⟩
    have hnonneg : 0 ≤ n.reading unit := n.roundedSum_nonneg hunit n.power_pos
    unfold InWorkingRange at htotal ⊢
    omega

/-- **What is worked out is the magnitude if and only if** all the digits after the point are
counted, or what they stand for rounds up to no more than one thousandth over the power of those
that are. -/
theorem reading_eq_magnitude_iff (hunit : 1 ≤ unit) (hchecked : n.IsChecked unit) :
    n.reading unit = n.magnitude unit ↔
      n.fraction.length < 2 ^ 32 ∨ n.fractionPart * unit ≤ n.power := by
  rw [magnitude_eq, reading]
  by_cases hshort : n.fraction.length < 2 ^ 32
  · rw [power_eq_scale hshort]
    exact iff_of_true rfl (.inl hshort)
  · have hne : n.fraction ≠ [] := by
      intro hnil
      rw [hnil] at hshort
      exact hshort (Nat.two_pow_pos 32)
    have hproduct := hchecked.fraction hne
    -- A power of ten with so many places is out of the working range, the product is within it.
    have hscale : (10 : Int) ^ 39 ≤ n.scale :=
      pow_le_pow_right₀ (by decide) (by omega)
    have hpositive := n.power_pos
    have hnonneg := Int.mul_nonneg n.fractionPart_nonneg (show 0 ≤ unit by omega)
    rw [or_iff_right hshort, roundedSum, roundedSum, Int.add_right_inj]
    generalize n.fractionPart * unit = x at hproduct hnonneg ⊢
    unfold InWorkingRange at hproduct
    obtain rfl | hx := hnonneg.eq_or_lt
    · have hzero : ∀ {d : Int}, 0 < d → (0 + d - 1) / d = 0 := fun hd =>
        Int.ediv_eq_zero_of_lt (by omega) (by omega)
      rw [hzero hpositive, hzero n.scale_pos]
      exact iff_of_true rfl hpositive.le
    · rw [(ceil_div_eq_one_iff hx n.scale_pos).2 (by omega)]
      exact ceil_div_eq_one_iff hx hpositive

theorem fractionPart_of_nil (h : n.fraction = []) : n.fractionPart = 0 := by
  rw [fractionPart, h]
  rfl

theorem wholeMillis_eq (text : String) (hunit : 1 ≤ unit) : wholeMillis text n.whole unit =
    if InWorkingRange (n.wholePart * unit) then .ok (n.wholePart * unit)
    else .error (.overflow text) := by
  have hle := Int.mul_le_mul_of_nonneg_left hunit n.wholePart_nonneg
  have hnonneg := n.wholePart_nonneg
  have hfactor : InWorkingRange (n.wholePart * unit) → InWorkingRange n.wholePart := by
    unfold InWorkingRange
    omega
  have hvalue : (Text.valueOfDigits n.whole : Int) = n.wholePart := rfl
  simp only [wholeMillis, hvalue]
  by_cases hrange : InWorkingRange (n.wholePart * unit)
  · rw [if_pos hrange, if_pos ⟨hfactor hrange, hrange⟩]
  · rw [if_neg hrange, if_neg fun h => hrange h.2]

theorem fractionMillis_eq (text : String) (n : Numeral) (unit : Int) :
    fractionMillis text n.fraction unit =
      if n.fraction = [] then .ok 0
      else if ¬ InWorkingRange n.power ∨ ¬ InWorkingRange (n.fractionPart * unit) then
        .error (.overflow text)
      else if InWorkingRange (n.fractionPart * unit + n.power) then
        .ok ((n.fractionPart * unit + n.power - 1) / n.power)
      else .error (.exhausted text) := rfl

/-- The amount of a numeral, in terms of its two parts. -/
theorem amount_eq (text : String) (n : Numeral) (unit : Int) : n.amount text unit =
    match wholeMillis text n.whole unit, fractionMillis text n.fraction unit with
    | .error e, _ => .error e
    | .ok _, .error e => .error e
    | .ok whole, .ok fraction =>
      if InWorkingRange (whole + fraction) then
        match ofMillis? (if n.negative then -(whole + fraction) else whole + fraction) with
        | some q => .ok q
        | none => .error (.overflow text)
      else .error (.exhausted text) := by
  obtain ⟨amount, hamount⟩ : ∃ f, f = Numeral.amount := ⟨_, rfl⟩
  rw [← hamount]
  delta Numeral.amount at hamount
  rw [hamount]
  dsimp only
  cases wholeMillis text n.whole unit with
  | error e => rfl
  | ok whole => cases fractionMillis text n.fraction unit <;> rfl

/-- The fraction of a numeral whose products and power are in the working range. -/
theorem fractionMillis_of_isChecked (text : String) (h : n.IsChecked unit) :
    fractionMillis text n.fraction unit =
      if n.fraction ≠ [] → InWorkingRange (n.fractionPart * unit + n.power) then
        .ok ((n.fractionPart * unit + n.power - 1) / n.power)
      else .error (.exhausted text) := by
  rw [fractionMillis_eq]
  by_cases hnil : n.fraction = []
  · rw [if_pos hnil, if_pos (absurd hnil), fractionPart_of_nil hnil, power, placesOf, hnil]
    simp
  · have hsteps : ¬ (¬ InWorkingRange n.power ∨ ¬ InWorkingRange (n.fractionPart * unit)) := by
      simp [h.power hnil, h.fraction hnil]
    rw [if_neg hnil, if_neg hsteps]
    simp only [ne_eq, hnil, not_false_eq_true, true_imp_iff]

/-- A product or power out of the working range is an overflow. -/
theorem amount_of_not_isChecked (text : String) (hunit : 1 ≤ unit) (h : ¬ n.IsChecked unit) :
    n.amount text unit = .error (.overflow text) := by
  rw [amount_eq, wholeMillis_eq text hunit, fractionMillis_eq]
  by_cases hwhole : InWorkingRange (n.wholePart * unit)
  · have hfraction : n.fraction ≠ [] ∧
        (¬ InWorkingRange n.power ∨ ¬ InWorkingRange (n.fractionPart * unit)) := by
      by_contra hcon
      refine h ⟨hwhole, fun hne => ?_, fun hne => ?_⟩
      · by_contra hpower
        exact hcon ⟨hne, .inl hpower⟩
      · by_contra hproduct
        exact hcon ⟨hne, .inr hproduct⟩
    rw [if_pos hwhole, if_neg hfraction.1, if_pos hfraction.2]
  · rw [if_neg hwhole]

/-- Another result out of the working range exhausts the arithmetic. -/
theorem amount_of_not_isExact (text : String) (hunit : 1 ≤ unit) (h : n.IsChecked unit)
    (hexact : ¬ n.IsExact unit) : n.amount text unit = .error (.exhausted text) := by
  rw [amount_eq, wholeMillis_eq text hunit, if_pos h.whole, fractionMillis_of_isChecked text h]
  by_cases hrounding : n.fraction ≠ [] → InWorkingRange (n.fractionPart * unit + n.power)
  · have htotal : ¬ InWorkingRange (n.reading unit) := fun htotal =>
      hexact ((isExact_iff hunit).2 ⟨hrounding, htotal⟩)
    rw [if_pos hrounding]
    exact if_neg htotal
  · rw [if_neg hrounding]

/-- Where all results stay in the working range, the amount is read if it is in range. -/
theorem amount_of_isExact (text : String) (hunit : 1 ≤ unit) (h : n.IsChecked unit)
    (hexact : n.IsExact unit) : n.amount text unit =
      if hrange : InRange (n.signedReading unit) then .ok ⟨n.signedReading unit, hrange⟩
      else .error (.overflow text) := by
  have htotal := hexact.total
  rw [reading, roundedSum] at htotal
  rw [amount_eq, wholeMillis_eq text hunit, if_pos h.whole, fractionMillis_of_isChecked text h,
    if_pos hexact.rounding]
  dsimp only
  rw [if_pos htotal]
  show (match ofMillis? (n.signedReading unit) with | some q => _ | none => _) = _
  unfold ofMillis?
  by_cases hrange : InRange (n.signedReading unit)
  · rw [dif_pos hrange, dif_pos hrange]
  · rw [dif_neg hrange, dif_neg hrange]

end Numeral

/-! ## Texts -/

variable {text : String} {n : Numeral} {unit : Int}

/-- The readings of a text that is written as a numeral of a unit. -/
theorem parse_cases (h : Spells (Text.trimBlanks text.toList) n unit) :
    (¬ n.IsChecked unit ∧ parse text = .error (.overflow text)) ∨
    (n.IsChecked unit ∧ ¬ n.IsExact unit ∧ parse text = .error (.exhausted text)) ∨
    (n.IsChecked unit ∧ n.IsExact unit ∧ parse text =
      if hrange : InRange (n.signedReading unit) then .ok ⟨n.signedReading unit, hrange⟩
      else .error (.overflow text)) := by
  have hunit := h.bounds.1
  rw [parse_of_spells h]
  by_cases hchecked : n.IsChecked unit
  · by_cases hexact : n.IsExact unit
    · exact .inr (.inr ⟨hchecked, hexact, n.amount_of_isExact text hunit hchecked hexact⟩)
    · exact .inr (.inl ⟨hchecked, hexact, n.amount_of_not_isExact text hunit hchecked hexact⟩)
  · exact .inl ⟨hchecked, n.amount_of_not_isChecked text hunit hchecked⟩

theorem parse_malformed_iff {t : String} : parse text = .error (.malformed t) ↔
    t = text ∧ ¬ ∃ n unit, Spells (Text.trimBlanks text.toList) n unit := by
  by_cases hspells : ∃ n unit, Spells (Text.trimBlanks text.toList) n unit
  · obtain ⟨n, unit, h⟩ := hspells
    refine iff_of_false ?_ fun hnot => hnot.2 ⟨n, unit, h⟩
    rcases parse_cases h with ⟨-, hp⟩ | ⟨-, -, hp⟩ | ⟨-, -, hp⟩
    · simp [hp]
    · simp [hp]
    · rw [hp]
      split <;> simp
  · rw [parse_of_not_spells hspells]
    simp only [Except.error.injEq, ReadError.malformed.injEq]
    exact ⟨fun h => ⟨h.symm, hspells⟩, fun h => h.1.symm⟩

theorem parse_ok_iff {q : Quantity} : parse text = .ok q ↔
    ∃ n unit, Spells (Text.trimBlanks text.toList) n unit ∧ n.IsChecked unit ∧ n.IsExact unit ∧
      q.millis = n.signedReading unit := by
  constructor
  · intro hq
    by_cases hspells : ∃ n unit, Spells (Text.trimBlanks text.toList) n unit
    · obtain ⟨n, unit, h⟩ := hspells
      rcases parse_cases h with ⟨-, hp⟩ | ⟨-, -, hp⟩ | ⟨hchecked, hexact, hp⟩
      · simp [hp] at hq
      · simp [hp] at hq
      · rw [hp] at hq
        split at hq
        · cases hq
          exact ⟨n, unit, h, hchecked, hexact, rfl⟩
        · cases hq
    · rw [parse_of_not_spells hspells] at hq
      cases hq
  · rintro ⟨n, unit, h, hchecked, hexact, hmillis⟩
    have hrange : InRange (n.signedReading unit) := hmillis ▸ q.inRange
    rw [parse_of_spells h, n.amount_of_isExact text h.bounds.1 hchecked hexact, dif_pos hrange]
    exact congrArg Except.ok (Quantity.ext hmillis.symm)

/-- **What is read, and when it is exact.**  A text is malformed if and only if, without the white
space around it, it is not written as an optional sign, digits with at most one decimal point and at
least one digit, and one of the suffixes.  An amount is read if and only if the text is written so,
the arithmetic stays in the working range, and the amount is the sign times what is worked out.  It
is then the sign times the smallest whole number of thousandths that is not below the decimal number
times those of the unit, if and only if the digits after the point are fewer than 2³² or stand for
no more than the power of those that are counted. -/
theorem parse_exact (text : String) :
    (∀ t, parse text = .error (.malformed t) ↔
      t = text ∧ ¬ ∃ n unit, Spells (Text.trimBlanks text.toList) n unit) ∧
    (∀ q, parse text = .ok q ↔ ∃ n unit, Spells (Text.trimBlanks text.toList) n unit ∧
      n.IsChecked unit ∧ n.IsExact unit ∧
      q.millis = (if n.negative then -1 else 1) * n.reading unit) ∧
    ∀ q n unit, parse text = .ok q → Spells (Text.trimBlanks text.toList) n unit →
      (q.millis = (if n.negative then -1 else 1) * ⌈n.value * unit⌉ ↔
        n.fraction.length < 2 ^ 32 ∨ n.fractionPart * unit ≤ n.power) := by
  have hsign : ∀ (n : Numeral) (x : Int),
      (if n.negative then -1 else 1) * x = if n.negative then -x else x := by
    intro n x
    split <;> omega
  refine ⟨fun t => parse_malformed_iff, fun q => ?_, fun q n unit hq hspells => ?_⟩
  · simp only [hsign]
    exact parse_ok_iff
  · obtain ⟨n', unit', hspells', hchecked, -, hmillis⟩ := parse_ok_iff.1 hq
    obtain ⟨rfl, rfl⟩ := hspells.unique hspells'
    rw [← n'.reading_eq_magnitude_iff hspells.bounds.1 hchecked, hmillis, hsign,
      Numeral.signedReading]
    show (if n'.negative then -n'.reading unit' else n'.reading unit') =
      (if n'.negative then -n'.magnitude unit' else n'.magnitude unit') ↔ _
    split <;> omega

/-- Half a thousandth below zero is rounded away from zero. -/
theorem parse_exact_half_thousandth :
    let n : Numeral := ⟨true, ['0'], ['0', '0', '0', '5']⟩
    Spells (Text.trimBlanks "-0.0005".toList) n 1000 ∧
      ∃ q, parse "-0.0005" = .ok q ∧ q.millis = -1 * ⌈n.value * (1000 : Int)⌉ ∧ q.millis = -1 := by
  intro n
  have hspells : Spells (Text.trimBlanks "-0.0005".toList) n 1000 :=
    spells_iff.2 (by decide +kernel)
  have hread : parse "-0.0005" = .ok ⟨-1, by decide⟩ := by decide +kernel
  exact ⟨hspells, _, hread,
    ((parse_exact "-0.0005").2.2 _ n 1000 hread hspells).2 (.inl (by decide)), rfl⟩

/-! ## A fraction that is too long -/

/-- A five in the last of so many places after the point, with zeros before it. -/
def Numeral.lastFive (zeros : Nat) : Numeral := ⟨false, ['0'], List.replicate zeros '0' ++ ['5']⟩

theorem Numeral.fractionPart_lastFive (zeros : Nat) : (lastFive zeros).fractionPart = 5 := by
  have hzeros : Text.valueOfDigits (List.replicate zeros '0') = 0 := by
    induction zeros with
    | zero => rfl
    | succ zeros ih =>
      rw [List.replicate_succ', Text.valueOfDigits_append, ih]
      rfl
  rw [fractionPart, lastFive, Text.valueOfDigits_append, hzeros]
  rfl

theorem Numeral.length_lastFive (zeros : Nat) :
    (lastFive zeros).fraction.length = zeros + 1 := by
  simp [lastFive]

/-- From the fourth place on, the five is less than a thousandth. -/
theorem Numeral.magnitude_lastFive {zeros : Nat} (h : 3 ≤ zeros) :
    (lastFive zeros).magnitude 1000 = 1 := by
  have hscale : (10 : Int) ^ 4 ≤ (lastFive zeros).scale :=
    pow_le_pow_right₀ (by decide) (by rw [length_lastFive]; omega)
  have hwhole : (lastFive zeros).wholePart = 0 := rfl
  rw [magnitude_eq, roundedSum, hwhole, fractionPart_lastFive,
    (ceil_div_eq_one_iff (by decide) (scale_pos _)).2 (by omega)]
  rfl

theorem spells_lastFive (zeros : Nat) :
    let text := String.ofList (['0', '.'] ++ (Numeral.lastFive zeros).fraction)
    Spells (Text.trimBlanks text.toList) (Numeral.lastFive zeros) 1000 := by
  have hchars : ∀ c ∈ ['0', '.'] ++ (Numeral.lastFive zeros).fraction,
      c = '0' ∨ c = '.' ∨ c = '5' := by
    intro c hc
    simp only [Numeral.lastFive, List.cons_append, List.nil_append, List.mem_cons,
      List.mem_append, List.mem_replicate, List.not_mem_nil, or_false] at hc
    tauto
  have htrim : Text.trimBlanks (['0', '.'] ++ (Numeral.lastFive zeros).fraction) =
      ['0', '.'] ++ (Numeral.lastFive zeros).fraction :=
    Text.trimBlanks_eq_self fun c hc => by
      rcases hchars c hc with rfl | rfl | rfl <;> rfl
  intro text
  rw [String.toList_ofList, htrim]
  refine ⟨_, [], ⟨?_, ?_, [], ['.'], .none, .inl rfl, rfl⟩, .one, ?_⟩
  · intro c hc
    simp only [Numeral.lastFive, List.mem_append, List.mem_singleton, List.mem_replicate] at hc
    rcases hc with rfl | ⟨-, rfl⟩ | rfl <;> rfl
  · simp [Numeral.lastFive]
  · simp [Numeral.lastFive]

/-- Where the count of its places comes to nothing, the five is read as five units. -/
theorem parse_lastFive {zeros : Nat} (h : zeros + 1 = 2 ^ 32) :
    parse (String.ofList (['0', '.'] ++ (Numeral.lastFive zeros).fraction)) =
      .ok ⟨5000, by decide⟩ := by
  have hspells := spells_lastFive zeros
  have hwhole : (Numeral.lastFive zeros).wholePart = 0 := rfl
  have hfraction := Numeral.fractionPart_lastFive zeros
  have hpower : (Numeral.lastFive zeros).power = 1 := by
    rw [Numeral.power, placesOf, Numeral.length_lastFive, h]
    rfl
  have hreading : (Numeral.lastFive zeros).reading 1000 = 5000 := by
    rw [Numeral.reading, Numeral.roundedSum, hwhole, hfraction, hpower]
    rfl
  refine parse_ok_iff.2 ⟨_, 1000, hspells, ⟨?_, fun _ => ?_, fun _ => ?_⟩,
    ⟨fun _ => ?_, ?_, ?_⟩, hreading.symm⟩
  · rw [hwhole]
    decide
  · rw [hpower]
    decide
  · rw [hfraction]
    decide
  · rw [hfraction, hpower]
    decide
  · rw [hreading]
    decide
  · rw [hreading]
    decide

/-- **2³² digits after the point count as none**: a five in the last of so many places is far below
a thousandth, and is read as five units. -/
theorem not_parse_exact_five :
    let n := Numeral.lastFive 4294967295
    let text := String.ofList (['0', '.'] ++ n.fraction)
    Spells (Text.trimBlanks text.toList) n 1000 ∧ n.fraction.length = 2 ^ 32 ∧
      ⌈n.value * (1000 : Int)⌉ = 1 ∧ ∃ q, parse text = .ok q ∧ q.millis = 5000 :=
  ⟨spells_lastFive _, Numeral.length_lastFive _, Numeral.magnitude_lastFive (by decide), _,
    parse_lastFive (by decide), rfl⟩

end Quantity

end ReplicaControl
