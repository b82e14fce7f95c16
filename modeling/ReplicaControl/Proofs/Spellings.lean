import Mathlib.Algebra.Ring.Int.Defs
import Mathlib.Data.List.TakeWhile
import ReplicaControl.Quantity.Reader

/-!
# How amounts are written

* `Quantity.Spells` — characters are an optional sign, digits with at most one decimal point and at
  least one digit, and the suffix of a unit.
* `unitMillis?_eq_some_iff`, `read?_eq_some_iff` — what the table of the suffixes and the reader of
  numerals accept.  `spells_iff` — how characters are written is what the two make of them.
* `Spells.unique` — characters are written in one way at most.
* `parse_of_spells`, `parse_of_not_spells` — a text is read as the numeral and the unit that it is
  written with, and is malformed if there are none.
-/

namespace ReplicaControl.Quantity

/-- The suffixes, with the thousandths in a unit of each. -/
inductive Suffix : List Char → Int → Prop
  | one : Suffix [] 1000
  | thousandth : Suffix ['m'] 1
  | decimal {c : Char} {n : Nat}
      (h : (c, n) ∈ [('k', 1), ('M', 2), ('G', 3), ('T', 4), ('P', 5)]) :
      Suffix [c] (1000 * 1000 ^ n)
  | binary {c : Char} {n : Nat}
      (h : (c, n) ∈ [('K', 1), ('M', 2), ('G', 3), ('T', 4), ('P', 5)]) :
      Suffix [c, 'i'] (1000 * 1024 ^ n)

/-- An optional sign, and whether it is a minus. -/
inductive Sign : List Char → Bool → Prop
  | none : Sign [] false
  | plus : Sign ['+'] false
  | minus : Sign ['-'] true

/-- Characters are a numeral without a suffix: an optional sign, and digits with at most one decimal
point, of which there is at least one. -/
structure Numeral.WrittenAs (n : Numeral) (cs : List Char) : Prop where
  digits : ∀ c ∈ n.whole ++ n.fraction, c.isDigit = true
  some_digit : n.whole ++ n.fraction ≠ []
  layout : ∃ sign point, Sign sign n.negative ∧ (point = ['.'] ∨ point = [] ∧ n.fraction = []) ∧
    cs = sign ++ (n.whole ++ (point ++ n.fraction))

/-- Characters are a numeral with the suffix of a unit. -/
def Spells (cs : List Char) (n : Numeral) (unit : Int) : Prop :=
  ∃ numeral suffix, n.WrittenAs numeral ∧ Suffix suffix unit ∧ cs = numeral ++ suffix

/-! ## Suffixes -/

/-- What is looked up stands in the table. -/
theorem mem_of_lookup {suffix : String} {unit : Int} :
    ∀ {table : List (String × Int)}, table.lookup suffix = some unit → (suffix, unit) ∈ table
  | (name, value) :: table, h => by
    rw [List.lookup_cons] at h
    split at h
    · rename_i heq
      cases h
      rw [beq_iff_eq.1 heq]
      exact List.mem_cons_self
    · exact List.mem_cons_of_mem _ (mem_of_lookup h)

/-- **The table of the suffixes.** -/
theorem unitMillis?_eq_some_iff {suffix : List Char} {unit : Int} :
    unitMillis? suffix = some unit ↔ Suffix suffix unit := by
  constructor
  · intro h
    have hmem := mem_of_lookup h
    simp only [units, List.mem_cons, Prod.mk.injEq, List.not_mem_nil, or_false] at hmem
    have hchars : ∀ {t : String}, String.ofList suffix = t → suffix = t.toList := by
      intro t ht
      rw [← ht, String.toList_ofList]
    rcases hmem with ⟨ht, rfl⟩ | ⟨ht, rfl⟩ | ⟨ht, rfl⟩ | ⟨ht, rfl⟩ | ⟨ht, rfl⟩ | ⟨ht, rfl⟩ |
      ⟨ht, rfl⟩ | ⟨ht, rfl⟩ | ⟨ht, rfl⟩ | ⟨ht, rfl⟩ | ⟨ht, rfl⟩ | ⟨ht, rfl⟩ <;> rw [hchars ht]
    · exact .one
    · exact .thousandth
    · exact .decimal (c := 'k') (n := 1) (by decide)
    · exact .decimal (c := 'M') (n := 2) (by decide)
    · exact .decimal (c := 'G') (n := 3) (by decide)
    · exact .decimal (c := 'T') (n := 4) (by decide)
    · exact .decimal (c := 'P') (n := 5) (by decide)
    · exact .binary (c := 'K') (n := 1) (by decide)
    · exact .binary (c := 'M') (n := 2) (by decide)
    · exact .binary (c := 'G') (n := 3) (by decide)
    · exact .binary (c := 'T') (n := 4) (by decide)
    · exact .binary (c := 'P') (n := 5) (by decide)
  · intro h
    cases h with
    | one => rfl
    | thousandth => decide
    | decimal h =>
      simp only [List.mem_cons, Prod.mk.injEq, List.not_mem_nil, or_false] at h
      rcases h with ⟨rfl, rfl⟩ | ⟨rfl, rfl⟩ | ⟨rfl, rfl⟩ | ⟨rfl, rfl⟩ | ⟨rfl, rfl⟩ <;> decide
    | binary h =>
      simp only [List.mem_cons, Prod.mk.injEq, List.not_mem_nil, or_false] at h
      rcases h with ⟨rfl, rfl⟩ | ⟨rfl, rfl⟩ | ⟨rfl, rfl⟩ | ⟨rfl, rfl⟩ | ⟨rfl, rfl⟩ <;> decide

theorem not_isNumeralChar_of_suffix {suffix : List Char} {unit : Int} (h : Suffix suffix unit) :
    ∀ c ∈ suffix.head?, isNumeralChar c = false := by
  intro c hc
  cases h with
  | one => cases hc
  | thousandth =>
    cases hc
    rfl
  | decimal h =>
    cases hc
    simp only [List.mem_cons, Prod.mk.injEq, List.not_mem_nil, or_false] at h
    rcases h with ⟨rfl, -⟩ | ⟨rfl, -⟩ | ⟨rfl, -⟩ | ⟨rfl, -⟩ | ⟨rfl, -⟩ <;> rfl
  | binary h =>
    cases hc
    simp only [List.mem_cons, Prod.mk.injEq, List.not_mem_nil, or_false] at h
    rcases h with ⟨rfl, -⟩ | ⟨rfl, -⟩ | ⟨rfl, -⟩ | ⟨rfl, -⟩ | ⟨rfl, -⟩ <;> rfl

/-- A unit is at least one thousandth, and at most 1024 to the fifth. -/
theorem Suffix.bounds {suffix : List Char} {unit : Int} (h : Suffix suffix unit) :
    1 ≤ unit ∧ unit ≤ 1000 * 1024 ^ 5 := by
  cases h with
  | one => decide
  | thousandth => decide
  | decimal h =>
    simp only [List.mem_cons, Prod.mk.injEq, List.not_mem_nil, or_false] at h
    rcases h with ⟨-, rfl⟩ | ⟨-, rfl⟩ | ⟨-, rfl⟩ | ⟨-, rfl⟩ | ⟨-, rfl⟩ <;> decide
  | binary h =>
    simp only [List.mem_cons, Prod.mk.injEq, List.not_mem_nil, or_false] at h
    rcases h with ⟨-, rfl⟩ | ⟨-, rfl⟩ | ⟨-, rfl⟩ | ⟨-, rfl⟩ | ⟨-, rfl⟩ <;> decide

/-! ## Numerals -/

theorem ne_point_of_isDigit {c : Char} (h : c.isDigit = true) : (c != '.') = true := by
  rw [bne_iff_ne]
  rintro rfl
  cases h

/-- A sign is taken off the front. -/
theorem splitSign_spec (cs : List Char) :
    ∃ sign, Sign sign (Numeral.splitSign cs).1 ∧ cs = sign ++ (Numeral.splitSign cs).2 := by
  unfold Numeral.splitSign
  split
  · exact ⟨_, .minus, rfl⟩
  · exact ⟨_, .plus, rfl⟩
  · exact ⟨_, .none, rfl⟩

theorem splitSign_append {sign rest : List Char} {negative : Bool} (h : Sign sign negative)
    (hrest : ∀ c ∈ rest.head?, c ≠ '-' ∧ c ≠ '+') :
    Numeral.splitSign (sign ++ rest) = (negative, rest) := by
  cases h with
  | plus => rfl
  | minus => rfl
  | none =>
    unfold Numeral.splitSign
    split
    · rename_i heq
      rw [List.nil_append] at heq
      exact absurd rfl (hrest '-' (by simp [heq])).1
    · rename_i heq
      rw [List.nil_append] at heq
      exact absurd rfl (hrest '+' (by simp [heq])).2
    · rfl

/-- What the reader of numerals accepts is one. -/
theorem writtenAs_of_read? {cs : List Char} {n : Numeral} (h : Numeral.read? cs = some n) :
    n.WrittenAs cs := by
  obtain ⟨sign, hsign, hcs⟩ := splitSign_spec cs
  unfold Numeral.read? at h
  generalize Numeral.splitSign cs = parted at h hsign hcs
  obtain ⟨negative, body⟩ := parted
  dsimp only at h hsign hcs
  split at h
  · rename_i hgood
    obtain ⟨hsome, hwhole, hfraction⟩ := hgood
    cases h
    have hbody : body.takeWhile (· != '.') ++ body.dropWhile (· != '.') = body :=
      List.takeWhile_append_dropWhile
    refine ⟨?_, ?_, sign, body.dropWhile (· != '.') |>.take 1, hsign, ?_, ?_⟩
    · intro c hc
      rcases List.mem_append.1 hc with hc | hc
      · exact List.all_eq_true.1 hwhole c hc
      · exact List.all_eq_true.1 hfraction c hc
    · simpa [or_iff_not_imp_left] using hsome
    · cases hdrop : body.dropWhile (· != '.') with
      | nil => exact .inr ⟨rfl, rfl⟩
      | cons c rest =>
        have hpoint : (c != '.') = false := by
          simpa [hdrop] using List.head?_dropWhile_not (· != '.') body
        refine .inl ?_
        simpa using hpoint
    · rw [List.take_append_drop, hbody]
      exact hcs
  · cases h

namespace Numeral.WrittenAs

variable {cs : List Char} {n : Numeral}

/-- Behind its sign, a numeral starts with a digit or its point. -/
theorem not_sign_of_head? (h : n.WrittenAs cs) {point : List Char}
    (hpoint : point = ['.'] ∨ point = [] ∧ n.fraction = []) :
    ∀ c ∈ (n.whole ++ (point ++ n.fraction)).head?, c ≠ '-' ∧ c ≠ '+' := by
  intro c hc
  have hmem := List.mem_of_mem_head? hc
  have hchar : c.isDigit = true ∨ c = '.' := by
    rcases hpoint with rfl | ⟨rfl, -⟩
    · simp only [List.mem_append, List.mem_singleton] at hmem
      rcases hmem with hwhole | hpoint | hfraction
      · exact .inl (h.digits c (by simp [hwhole]))
      · exact .inr hpoint
      · exact .inl (h.digits c (by simp [hfraction]))
    · exact .inl (h.digits c (by simpa using hmem))
  constructor <;> rintro rfl <;> revert hchar <;> decide

/-- The reader of numerals accepts every one. -/
theorem read?_eq (h : n.WrittenAs cs) : Numeral.read? cs = some n := by
  obtain ⟨sign, point, hsign, hpoint, rfl⟩ := h.layout
  have hhead := h.not_sign_of_head? hpoint
  have hwhole : ∀ c ∈ n.whole, (c != '.') = true := by
    intro c hc
    exact ne_point_of_isDigit (h.digits c (List.mem_append_left _ hc))
  have hparts : (n.whole ++ (point ++ n.fraction)).takeWhile (· != '.') = n.whole ∧
      ((n.whole ++ (point ++ n.fraction)).dropWhile (· != '.')).drop 1 = n.fraction := by
    rw [List.takeWhile_append_of_pos hwhole, List.dropWhile_append_of_pos hwhole]
    rcases hpoint with rfl | ⟨rfl, hfraction⟩
    · simp
    · simp [hfraction]
  simp only [Numeral.read?, splitSign_append hsign hhead, hparts]
  rw [if_pos]
  refine ⟨?_, ?_, ?_⟩
  · simpa [or_iff_not_imp_left] using h.some_digit
  · exact List.all_eq_true.2 fun c hc => h.digits c (List.mem_append_left _ hc)
  · exact List.all_eq_true.2 fun c hc => h.digits c (List.mem_append_right _ hc)

end Numeral.WrittenAs

/-- **The reader of numerals accepts what is one**, and nothing else. -/
theorem read?_eq_some_iff {cs : List Char} {n : Numeral} :
    Numeral.read? cs = some n ↔ n.WrittenAs cs :=
  ⟨writtenAs_of_read?, Numeral.WrittenAs.read?_eq⟩

theorem Numeral.WrittenAs.isNumeralChar {cs : List Char} {n : Numeral} (h : n.WrittenAs cs) :
    ∀ c ∈ cs, isNumeralChar c = true := by
  obtain ⟨hdigits, -, sign, point, hsign, hpoint, rfl⟩ := h
  have hdigit : ∀ c ∈ n.whole ++ n.fraction, Quantity.isNumeralChar c = true := by
    intro c hc
    simp [Quantity.isNumeralChar, hdigits c hc]
  intro c hc
  simp only [List.mem_append] at hc
  rcases hc with hc | hc | hc | hc
  · generalize n.negative = negative at hsign
    cases hsign with
    | none => cases hc
    | plus => simp [Quantity.isNumeralChar, List.mem_singleton.1 hc]
    | minus => simp [Quantity.isNumeralChar, List.mem_singleton.1 hc]
  · exact hdigit c (List.mem_append_left _ hc)
  · rcases hpoint with rfl | ⟨rfl, -⟩
    · simp [Quantity.isNumeralChar, List.mem_singleton.1 hc]
    · cases hc
  · exact hdigit c (List.mem_append_right _ hc)

/-! ## Texts -/

/-- **How characters are written is what the readers make of them.** -/
theorem spells_iff {cs : List Char} {n : Numeral} {unit : Int} :
    Spells cs n unit ↔ unitMillis? (cs.dropWhile isNumeralChar) = some unit ∧
      Numeral.read? (cs.takeWhile isNumeralChar) = some n := by
  constructor
  · rintro ⟨numeral, suffix, hnumeral, hsuffix, rfl⟩
    have hchars := hnumeral.isNumeralChar
    have hdrop : suffix.dropWhile isNumeralChar = suffix := by
      cases suffix with
      | nil => rfl
      | cons c rest => simp [not_isNumeralChar_of_suffix hsuffix c rfl]
    have htake : suffix.takeWhile isNumeralChar = [] := by
      cases suffix with
      | nil => rfl
      | cons c rest => simp [not_isNumeralChar_of_suffix hsuffix c rfl]
    rw [List.dropWhile_append_of_pos hchars, List.takeWhile_append_of_pos hchars, hdrop, htake,
      List.append_nil]
    exact ⟨unitMillis?_eq_some_iff.2 hsuffix, read?_eq_some_iff.2 hnumeral⟩
  · rintro ⟨hunit, hread⟩
    exact ⟨_, _, read?_eq_some_iff.1 hread, unitMillis?_eq_some_iff.1 hunit,
      List.takeWhile_append_dropWhile.symm⟩

theorem Spells.bounds {cs : List Char} {n : Numeral} {unit : Int} (h : Spells cs n unit) :
    1 ≤ unit ∧ unit ≤ 1000 * 1024 ^ 5 := by
  obtain ⟨numeral, suffix, -, hsuffix, -⟩ := h
  exact hsuffix.bounds

theorem Spells.digits {cs : List Char} {n : Numeral} {unit : Int} (h : Spells cs n unit) :
    ∀ c ∈ n.whole ++ n.fraction, c.isDigit = true := by
  obtain ⟨numeral, suffix, hnumeral, -, -⟩ := h
  exact hnumeral.digits

/-- Characters are written in one way at most. -/
theorem Spells.unique {cs : List Char} {n n' : Numeral} {unit unit' : Int}
    (h : Spells cs n unit) (h' : Spells cs n' unit') : n' = n ∧ unit' = unit := by
  obtain ⟨hunit, hread⟩ := spells_iff.1 h
  obtain ⟨hunit', hread'⟩ := spells_iff.1 h'
  exact ⟨Option.some.inj (hread'.symm.trans hread), Option.some.inj (hunit'.symm.trans hunit)⟩

/-- A text is read as the numeral and the unit that it is written with. -/
theorem parse_of_spells {text : String} {n : Numeral} {unit : Int}
    (h : Spells (Text.trimBlanks text.toList) n unit) : parse text = n.amount text unit := by
  obtain ⟨hunit, hread⟩ := spells_iff.1 h
  simp only [parse, hunit, hread]

/-- A text that is written in no such way is malformed. -/
theorem parse_of_not_spells {text : String}
    (h : ¬ ∃ n unit, Spells (Text.trimBlanks text.toList) n unit) :
    parse text = .error (.malformed text) := by
  simp only [parse]
  split
  · rename_i unit n hunit hread
    exact absurd ⟨n, unit, spells_iff.2 ⟨hunit, hread⟩⟩ h
  · rfl

end ReplicaControl.Quantity
