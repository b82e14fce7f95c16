import Mathlib.Data.List.Infix
import ReplicaControl.Duration
import ReplicaControl.Proofs.WrittenNumbers

/-!
# How durations are written

* `Duration.Suffix`, `Spells` — the suffixes of the units, and digits after an optional plus with
  one of them.
* `read?_append` — what is read of digits and a suffix: a number never ends in a letter, so that the
  first suffix that fits is the one that was written.
* `read?_eq_some_iff` — the reader accepts what is written so, and nothing else.
* `parse_spelled` — which texts are durations, and what the error says of the others.
-/

namespace ReplicaControl.Duration

/-- The suffixes of the units, each with the milliseconds in one unit, and with the factor by which
a number of them is multiplied before it has to fit a word: minutes are counted in seconds. -/
inductive Suffix : List Char → Nat → Nat → Prop
  | millisecond : Suffix ['m', 's'] 1 1
  | second : Suffix ['s'] 1000 1
  | minute : Suffix ['m'] 60000 60
  | none : Suffix [] 1000 1

/-- Characters are digits after an optional plus, with the suffix of a unit.  The number fits an
unsigned word of 64 bits, and so do minutes in seconds. -/
def Spells (cs : List Char) (d : Duration) : Prop :=
  ∃ number suffix n millis factor, Text.Unsigned n number ∧ Suffix suffix millis factor ∧
    cs = number ++ suffix ∧ n < 2 ^ 64 ∧ n * factor < 2 ^ 64 ∧ d = ⟨n * millis⟩

variable {cs number suffix : List Char} {n millis factor : Nat} {d : Duration}

theorem wordBound_eq : wordBound = 2 ^ 64 := rfl

theorem readWord?_eq_some_iff :
    readWord? number = some n ↔ Text.Unsigned n number ∧ n < wordBound := by
  rw [← Text.readUnsigned_eq_some_iff, readWord?]
  cases Text.readUnsigned number with
  | none => simp
  | some k =>
    dsimp only
    split
    · rename_i hfits
      constructor
      · intro h
        cases h
        exact ⟨rfl, hfits⟩
      · exact fun h => h.1
    · rename_i hfits
      refine iff_of_false nofun ?_
      rintro ⟨h, hn⟩
      cases h
      exact hfits hn

/-- A number ends in a digit. -/
theorem isDigit_getLast? (h : Text.Unsigned n number) :
    ∀ c ∈ number.getLast?, c.isDigit = true := by
  intro c hc
  cases h with
  | bare h => exact h.digits c (List.mem_of_mem_getLast? hc)
  | @plus cs h =>
    cases cs with
    | nil => exact absurd rfl h.some_digit
    | cons d rest => exact h.digits c (List.mem_of_mem_getLast? hc)

theorem isSuffixOf?_eq_none (h : ∀ rest, rest ++ suffix ≠ cs) : suffix.isSuffixOf? cs = none :=
  Option.eq_none_iff_forall_ne_some.2 fun rest hrest =>
    h rest (List.isSuffixOf?_eq_some_iff_append_eq.1 hrest)

theorem isSuffixOf?_append (number suffix : List Char) :
    suffix.isSuffixOf? (number ++ suffix) = some number :=
  List.isSuffixOf?_eq_some_iff_append_eq.2 rfl

/-- A number in front of a suffix does not end in a letter. -/
theorem isSuffixOf?_of_letter (hnumber : ∀ c ∈ number.getLast?, c.isDigit = true) {c : Char}
    (hc : c.isDigit = false) (letters suffix : List Char) :
    (letters ++ [c] ++ suffix).isSuffixOf? (number ++ suffix) = none := by
  refine isSuffixOf?_eq_none fun rest heq => ?_
  rw [← List.append_assoc, List.append_cancel_right_eq] at heq
  have hdigit := hnumber c (by simp [← heq])
  rw [hc] at hdigit
  cases hdigit

/-- **What is read of a number and a suffix.** -/
theorem read?_append (hnumber : ∀ c ∈ number.getLast?, c.isDigit = true)
    (hsuffix : Suffix suffix millis factor) :
    read? (number ++ suffix) = (readWord? number).bind fun n =>
      if n * factor < wordBound then some ⟨n * millis⟩ else none := by
  have hfits : ∀ n, readWord? number = some n → n < wordBound := fun n hn =>
    (readWord?_eq_some_iff.1 hn).2
  have hletter := fun c hc letters => isSuffixOf?_of_letter hnumber (c := c) hc letters suffix
  cases hsuffix with
  | millisecond =>
    simp only [read?, isSuffixOf?_append, Option.map_eq_bind]
    exact Option.bind_congr fun n hn => by simp [hfits n hn]
  | second =>
    have hms : ['m', 's'].isSuffixOf? (number ++ ['s']) = none := hletter 'm' rfl []
    simp only [read?, hms, isSuffixOf?_append, Option.map_eq_bind]
    exact Option.bind_congr fun n hn => by simp [hfits n hn, ofSeconds]
  | minute =>
    have hms : ['m', 's'].isSuffixOf? (number ++ ['m']) = none :=
      isSuffixOf?_eq_none fun rest heq => by simpa using congrArg List.getLast? heq
    have hs : ['s'].isSuffixOf? (number ++ ['m']) = none :=
      isSuffixOf?_eq_none fun rest heq => by simpa using congrArg List.getLast? heq
    simp only [read?, hms, hs, isSuffixOf?_append]
    cases readWord? number with
    | none => rfl
    | some n => simp [ofSeconds, Nat.mul_assoc]
  | none =>
    rw [List.append_nil]
    simp only [List.append_nil] at hletter
    have hms : ['m', 's'].isSuffixOf? number = none := hletter 's' rfl ['m']
    have hs : ['s'].isSuffixOf? number = none := hletter 's' rfl []
    have hm : ['m'].isSuffixOf? number = none := hletter 'm' rfl []
    simp only [read?, hms, hs, hm, Option.map_eq_bind]
    exact Option.bind_congr fun n hn => by simp [hfits n hn, ofSeconds]

/-- What the reader accepts is a number with the suffix of a unit. -/
theorem spells_of_read? (h : read? cs = some d) : Spells cs d := by
  have hspells : ∀ {number suffix : List Char} {millis factor n : Nat},
      suffix.isSuffixOf? cs = some number → Suffix suffix millis factor →
      readWord? number = some n → n * factor < wordBound → Spells cs ⟨n * millis⟩ := by
    intro number suffix millis factor n hcs hsuffix hn hfactor
    obtain ⟨hnumber, hword⟩ := readWord?_eq_some_iff.1 hn
    exact ⟨number, suffix, n, millis, factor, hnumber, hsuffix,
      (List.isSuffixOf?_eq_some_iff_append_eq.1 hcs).symm, hword, hfactor, rfl⟩
  have hfits : ∀ {number n}, readWord? number = some n → n * 1 < wordBound := by
    intro number n hn
    rw [Nat.mul_one]
    exact (readWord?_eq_some_iff.1 hn).2
  unfold read? at h
  split at h
  · rename_i number hms
    obtain ⟨n, hn, rfl⟩ := Option.map_eq_some_iff.1 h
    simpa using hspells hms .millisecond hn (hfits hn)
  · split at h
    · rename_i number hs
      obtain ⟨n, hn, rfl⟩ := Option.map_eq_some_iff.1 h
      exact hspells hs .second hn (hfits hn)
    · split at h
      · rename_i number hm
        split at h
        · rename_i n hn
          split at h
          · cases h
            rw [ofSeconds, Nat.mul_assoc]
            exact hspells hm .minute hn ‹_›
          · cases h
        · cases h
      · obtain ⟨n, hn, rfl⟩ := Option.map_eq_some_iff.1 h
        have hnil : [].isSuffixOf? cs = some cs := by simp
        exact hspells hnil .none hn (hfits hn)

/-- **The reader accepts a number with the suffix of a unit**, and nothing else. -/
theorem read?_eq_some_iff : read? cs = some d ↔ Spells cs d := by
  refine ⟨spells_of_read?, ?_⟩
  rintro ⟨number, suffix, n, millis, factor, hnumber, hsuffix, rfl, hword, hfactor, rfl⟩
  rw [read?_append (isDigit_getLast? hnumber) hsuffix,
    readWord?_eq_some_iff.2 ⟨hnumber, hword⟩, Option.bind_some, wordBound_eq, if_pos hfactor]

/-- **Durations are parsed by their grammar.**  A text is a duration if and only if it is, with
white space around it, digits after an optional plus with the suffix of a unit, and neither the
number nor a number of minutes in seconds exceeds the largest word; then it is that many units.  The
error for every other text quotes it without the white space. -/
theorem parse_spelled (text : String) :
    (∀ d, parse text = .ok d ↔ ∃ core, Text.Trims text.toList core ∧ Spells core d) ∧
    (∀ e, parse text = .error e ↔ Text.Trims text.toList e.text.toList ∧
      ¬ ∃ d, Spells e.text.toList d) ∧
    ∀ e, parse text = .error e →
      e.message = "invalid duration " ++ Text.quote (Text.trim text) := by
  have hok : ∀ d, read? (Text.trimBlanks text.toList) = some d → parse text = .ok d := by
    intro d h
    simp only [parse, h]
  have herror : read? (Text.trimBlanks text.toList) = none →
      parse text = .error ⟨Text.trim text⟩ := by
    intro h
    simp only [parse, h, Text.trim]
  simp only [Text.trims_iff, exists_eq_left', ← read?_eq_some_iff]
  cases h : read? (Text.trimBlanks text.toList) with
  | some d =>
    rw [hok d h]
    refine ⟨fun d' => by simp, fun e => iff_of_false nofun ?_, nofun⟩
    rintro ⟨htext, hnone⟩
    rw [← htext] at hnone
    exact hnone ⟨d, h⟩
  | none =>
    rw [herror h]
    refine ⟨fun d => by simp, fun e => ?_, fun e he => ?_⟩
    · constructor
      · intro he
        cases he
        simp [Text.trim, h]
      · rintro ⟨htext, -⟩
        rw [Text.trim, htext, String.ofList_toList]
    · cases he
      rfl

/-- A plus and white space around minutes, and white space inside. -/
theorem parse_spelled_minutes :
    parse " +5m\n" = .ok ⟨300000⟩ ∧
      ∃ e, parse "5 s" = .error e ∧ e.message = "invalid duration \"5 s\"" := by
  constructor
  · refine ((parse_spelled " +5m\n").1 ⟨300000⟩).2 ⟨['+', '5', 'm'], ?_, ?_⟩
    · exact Text.trims_iff.2 (by decide +kernel)
    · refine ⟨['+', '5'], ['m'], 5, 60000, 60, .plus ⟨nofun, ?_, rfl⟩, .minute, rfl, ?_, ?_, rfl⟩
      · exact List.forall_mem_singleton.2 (by decide)
      · decide
      · decide
  · have herror : parse "5 s" = .error ⟨"5 s"⟩ := by decide +kernel
    refine ⟨⟨"5 s"⟩, herror, ((parse_spelled "5 s").2.2 _ herror).trans ?_⟩
    decide +kernel

end ReplicaControl.Duration
