import Mathlib.Data.List.Nodup
import Mathlib.Data.String.Basic
import ReplicaControl.Proofs.Annotations
import ReplicaControl.Proofs.ReadBack
import ReplicaControl.Proofs.WrittenNumbers

/-!
# Replica maps in annotations

* `Table.find?_entries_eq_some_iff`, `get?_ofList_iff`, `size_ofList` — the first entry of a table
  that passes a test, and the table of a list whose keys differ.
* `ReplicaMap.WritesCount`, `IsStateKey` — which texts are replica counts, and which keys belong to
  states.  `Spoils`: an annotation for a state whose value is no count.
* `ofAnnotations_eq_error_iff` — the annotation that spoils a map with the smallest key is reported.
* `keys_countOf?` — different annotations are for different states.
* `annotate`, `get?_annotate` — a map is written into annotations.
* `annotations_decoded` — what annotations are decoded to, and that what was written is.
-/

namespace ReplicaControl

namespace Table

variable {κ α : Type} [Ord κ] [Std.LawfulEqOrd κ] [Std.TransOrd κ]

/-- The first entry that passes a test is the one with the smallest key. -/
theorem find?_entries_eq_some_iff {t : Table κ α} {p : κ × α → Bool} {k : κ} {v : α} :
    t.entries.find? p = some (k, v) ↔ t.get? k = some v ∧ p (k, v) = true ∧
      ∀ k' v', t.get? k' = some v' → p (k', v') = true → compare k k' ≠ .gt := by
  rw [List.find?_eq_some_iff_append]
  constructor
  · rintro ⟨hp, before, after, hsplit, hbefore⟩
    have hincreasing := t.increasing
    rw [hsplit] at hincreasing
    have hmem : (k, v) ∈ t.entries := by simp [hsplit]
    refine ⟨t.mem_entries_iff.1 hmem, hp, fun k' v' hget hp' => ?_⟩
    have hmem' := t.mem_entries_iff.2 hget
    rw [hsplit] at hmem'
    rcases List.mem_append.1 hmem' with h | h
    · have hfails := hbefore _ h
      rw [hp'] at hfails
      cases hfails
    · rcases List.mem_cons.1 h with h | h
      · cases h
        simp
      · have hlt := (List.pairwise_cons.1 (List.pairwise_append.1 hincreasing).2.1).1 _ h
        rw [hlt]
        decide
  · rintro ⟨hget, hp, hleast⟩
    obtain ⟨before, after, hsplit⟩ := List.append_of_mem (t.mem_entries_iff.2 hget)
    refine ⟨hp, before, after, hsplit, fun e he => ?_⟩
    have hincreasing := t.increasing
    rw [hsplit] at hincreasing
    have hlt := (List.pairwise_append.1 hincreasing).2.2 e he (k, v) List.mem_cons_self
    have hget' : t.get? e.1 = some e.2 := t.mem_entries_iff.1 (by simp [hsplit, he])
    cases hpe : p e with
    | false => rfl
    | true => exact absurd (Std.OrientedCmp.gt_of_lt hlt) (hleast e.1 e.2 hget' hpe)

variable [DecidableEq κ] {entries : List (κ × α)}

/-- A list whose keys differ is the listing of its table, in some order. -/
theorem get?_ofList_iff (h : (entries.map (·.1)).Nodup) {k : κ} {v : α} :
    (ofList entries).get? k = some v ↔ (k, v) ∈ entries := by
  refine ⟨mem_of_get?_ofList, fun hmem => ?_⟩
  have hlisted := contains_ofList.2 (List.mem_map_of_mem (f := Prod.fst) hmem)
  obtain ⟨v', hv'⟩ := Option.isSome_iff_exists.1 hlisted
  cases List.inj_on_of_nodup_map h (mem_of_get?_ofList hv') hmem rfl
  exact hv'

theorem size_ofList (h : (entries.map (·.1)).Nodup) : (ofList entries).size = entries.length := by
  have hperm : (ofList entries).keys.Perm (entries.map (·.1)) := by
    refine (List.perm_ext_iff_of_nodup (nodup_keys _) h).2 fun k => ?_
    rw [mem_keys_iff, ← contains_ofList, contains_eq_isSome, Option.isSome_iff_exists]
  have hlength := hperm.length_eq
  rwa [keys, List.length_map, List.length_map] at hlength

end Table

namespace ReplicaMap

/-! ## Counts and keys -/

/-- A text is an optional sign and digits, with white space around them, which stand for a replica
count that is not negative. -/
def WritesCount (value : String) (n : Int) : Prop :=
  0 ≤ n ∧ n ≤ 2147483647 ∧ ∃ core, Text.Trims value.toList core ∧ Text.Signed n core

/-- A key belongs to a state with a name. -/
def IsStateKey (key : String) : Prop := ∃ name, name ≠ "" ∧ key = keyOf name

theorem isSome_stateOf?_iff {key : String} : (stateOf? key).isSome = true ↔ IsStateKey key := by
  rw [Option.isSome_iff_exists]
  refine exists_congr fun name => ?_
  rw [stateOf?_eq_some_iff, and_comm]

instance : DecidablePred IsStateKey := fun _ => decidable_of_iff _ isSome_stateOf?_iff

theorem readCount?_eq_some_iff {value : String} {n : Int} :
    readCount? value = some n ↔ WritesCount value n := by
  have hcore : (∃ core, Text.Trims value.toList core ∧ Text.Signed n core) ↔
      Text.readSigned (Text.trimBlanks value.toList) = some n := by
    simp only [Text.trims_iff, Text.readSigned_eq_some_iff, exists_eq_left']
  rw [WritesCount, hcore, readCount?]
  cases Text.readSigned (Text.trimBlanks value.toList) with
  | none => simp
  | some k =>
    dsimp only
    split
    · rw [Option.some_inj]
      constructor
      · rintro rfl
        exact ⟨by omega, by omega, rfl⟩
      · exact fun h => h.2.2
    · rename_i hrange
      refine iff_of_false nofun ?_
      rintro ⟨h₁, h₂, h⟩
      exact hrange (Option.some.inj h ▸ ⟨h₁, h₂⟩)

/-- An annotation is for a state, and its value is no count. -/
structure Spoils (annotations : Table String String) (key value : String) : Prop where
  annotated : annotations.get? key = some value
  isStateKey : IsStateKey key
  not_count : ¬ ∃ n, WritesCount value n

variable {annotations : Table String String} {m : ReplicaMap}

/-- What is reported is the annotation with the smallest key among those that spoil the map. -/
theorem firstInvalid?_eq_some_iff {key value : String} :
    firstInvalid? annotations.entries = some (key, value) ↔ Spoils annotations key value ∧
      ∀ key' value', Spoils annotations key' value' → key ≤ key' := by
  have hspoils : ∀ key value, Spoils annotations key value ↔
      annotations.get? key = some value ∧
        decide ((stateOf? key).isSome = true ∧ (readCount? value).isNone = true) = true := by
    intro key value
    rw [decide_eq_true_eq, isSome_stateOf?_iff, Option.isNone_iff_eq_none,
      Option.eq_none_iff_forall_ne_some]
    simp only [ne_eq, readCount?_eq_some_iff]
    exact ⟨fun h => ⟨h.1, h.2, fun n hn => h.3 ⟨n, hn⟩⟩,
      fun h => ⟨h.1, h.2.1, fun ⟨n, hn⟩ => h.2.2 n hn⟩⟩
  rw [firstInvalid?, relevant, List.find?_filter, Table.find?_entries_eq_some_iff, hspoils,
    and_assoc]
  simp only [hspoils, and_imp, compare_le_iff_le]

/-- **The annotation that spoils a map with the smallest key is reported**, and nothing else is. -/
theorem ofAnnotations_eq_error_iff {e : TargetError} :
    ofAnnotations annotations = .error e ↔ ∃ key value, e = .invalidCount key value ∧
      Spoils annotations key value ∧
        ∀ key' value', Spoils annotations key' value' → key ≤ key' := by
  simp only [← firstInvalid?_eq_some_iff]
  cases h : firstInvalid? annotations.entries with
  | none => simp [ofAnnotations_of_valid h]
  | some a =>
    rw [ofAnnotations_of_firstInvalid? h]
    constructor
    · intro he
      cases he
      exact ⟨a.1, a.2, rfl, rfl⟩
    · rintro ⟨key, value, rfl, hkey⟩
      cases hkey
      rfl

theorem ofAnnotations_eq_ok_iff : ofAnnotations annotations = .ok m ↔
    firstInvalid? annotations.entries = none ∧
      Table.ofList (annotations.entries.filterMap countOf?) = m := by
  cases h : firstInvalid? annotations.entries with
  | none => simp [ofAnnotations_of_valid h]
  | some a => simp [ofAnnotations_of_firstInvalid? h]

theorem firstInvalid?_eq_none_iff_forall : firstInvalid? annotations.entries = none ↔
    ∀ key value, ¬ Spoils annotations key value := by
  constructor
  · intro h key value hspoils
    have hmem : (key, value) ∈ relevant annotations.entries := List.mem_filter.2
      ⟨annotations.mem_entries_iff.2 hspoils.annotated, isSome_stateOf?_iff.2 hspoils.isStateKey⟩
    obtain ⟨n, hn⟩ := Option.isSome_iff_exists.1 (firstInvalid?_eq_none_iff.1 h _ hmem)
    exact hspoils.not_count ⟨n, readCount?_eq_some_iff.1 hn⟩
  · intro h
    refine Option.eq_none_iff_forall_ne_some.2 fun a ha => ?_
    exact h a.1 a.2 (firstInvalid?_eq_some_iff.1 ha).1

/-! ## The map of valid annotations -/

/-- The states of valid annotations are those of their keys. -/
theorem keys_countOf? (h : firstInvalid? annotations.entries = none) :
    (annotations.entries.filterMap countOf?).map (·.1) = annotations.keys.filterMap stateOf? := by
  rw [List.map_filterMap, Table.keys, List.filterMap_map]
  refine List.filterMap_congr fun a ha => ?_
  cases hs : stateOf? a.1 with
  | none => simp [countOf?, hs]
  | some state =>
    have hmem : a ∈ relevant annotations.entries := List.mem_filter.2 ⟨ha, by simp [hs]⟩
    obtain ⟨n, hn⟩ := Option.isSome_iff_exists.1 (firstInvalid?_eq_none_iff.1 h a hmem)
    simp [countOf?, hs, hn]

/-- Different keys belong to different states. -/
theorem nodup_states (annotations : Table String String) :
    (annotations.keys.filterMap stateOf?).Nodup := by
  refine annotations.nodup_keys.filterMap fun key key' state hkey hkey' => ?_
  rw [(stateOf?_eq_some_iff.1 hkey).1, (stateOf?_eq_some_iff.1 hkey').1]

/-- The map of valid annotations has one entry for each key that belongs to a state. -/
theorem size_of_ofAnnotations (h : ofAnnotations annotations = .ok m) :
    m.size = annotations.keys.countP (IsStateKey ·) := by
  obtain ⟨hvalid, rfl⟩ := ofAnnotations_eq_ok_iff.1 h
  have hkeys := keys_countOf? hvalid
  rw [Table.size_ofList (hkeys ▸ nodup_states annotations), ← List.length_map (f := (·.1)), hkeys,
    List.length_filterMap_eq_countP]
  simp only [← isSome_stateOf?_iff, Bool.decide_eq_true]

theorem get?_of_ofAnnotations (h : ofAnnotations annotations = .ok m) {name : String}
    (hne : name ≠ "") : m.get? name = (annotations.get? (keyOf name)).bind readCount? := by
  obtain ⟨-, rfl⟩ := ofAnnotations_eq_ok_iff.1 h
  exact get?_ofList_countOf? hne

theorem get?_empty_of_ofAnnotations (h : ofAnnotations annotations = .ok m) :
    m.get? "" = none := by
  obtain ⟨-, rfl⟩ := ofAnnotations_eq_ok_iff.1 h
  refine Option.eq_none_iff_forall_ne_some.2 fun n hn => ?_
  exact (mem_filterMap_countOf?.1 (Table.mem_of_get?_ofList hn)).1 rfl

/-! ## Maps in annotations -/

/-- Annotations with the counts of a map put after them. -/
def annotate (m : ReplicaMap) (others : Table String String) : Table String String :=
  .ofList (others.entries ++ m.entries.map fun e => (keyOf e.1, Text.decimal e.2))

theorem keyOf_injective : Function.Injective keyOf := by
  intro name name' h
  have hchars := congrArg String.toList h
  simp only [keyOf, String.toList_ofList, List.append_assoc, List.append_cancel_left_eq,
    List.append_cancel_right_eq] at hchars
  exact String.toList_inj.1 hchars

/-- The decimal text of a count is one of its texts. -/
theorem readCount?_decimal {n : Int} (h : 0 ≤ n ∧ n ≤ 2147483647) :
    readCount? (Text.decimal n) = some n := by
  have hblank : ∀ c ∈ (Text.decimal n).toList, Text.isBlank c = false := fun c hc =>
    Quantity.isBlank_of_isNumeralChar (Quantity.isNumeralChar_of_mem_decimal hc)
  rw [readCount?, Text.trimBlanks_eq_self hblank, Text.readSigned_decimal]
  exact if_pos h

/-- What stands in annotations that a map is written into, if no other one belongs to a state. -/
theorem get?_annotate {others : Table String String}
    (hm : ∀ name n, m.get? name = some n → name ≠ "")
    (hothers : ∀ key value, others.get? key = some value → ¬ IsStateKey key) (key value : String) :
    (annotate m others).get? key = some value ↔ others.get? key = some value ∨
      ∃ name n, m.get? name = some n ∧ key = keyOf name ∧ value = Text.decimal n := by
  have hnodup : ((others.entries ++ m.entries.map fun e => (keyOf e.1, Text.decimal e.2)).map
      (·.1)).Nodup := by
    rw [List.map_append, List.map_map]
    refine List.Nodup.append others.nodup_keys ?_ ?_
    · have hkeys : m.entries.map ((·.1) ∘ fun e => (keyOf e.1, Text.decimal e.2)) =
          m.keys.map keyOf := by
        rw [Table.keys, List.map_map]
        rfl
      rw [hkeys]
      exact m.nodup_keys.map keyOf_injective
    · intro key hother hstate
      obtain ⟨value, hvalue⟩ := Table.mem_keys_iff.1 hother
      obtain ⟨⟨name, n⟩, hmem, rfl⟩ := List.mem_map.1 hstate
      exact hothers _ value hvalue ⟨name, hm name n (m.mem_entries_iff.1 hmem), rfl⟩
  rw [annotate, Table.get?_ofList_iff hnodup, List.mem_append, others.mem_entries_iff]
  refine or_congr .rfl ?_
  simp only [List.mem_map, Prod.mk.injEq, Prod.exists, m.mem_entries_iff, eq_comm]

/-- **A map that was written into annotations reads back.** -/
theorem ofAnnotations_annotate {others : Table String String}
    (hm : ∀ name n, m.get? name = some n → name ≠ "" ∧ 0 ≤ n ∧ n ≤ 2147483647)
    (hothers : ∀ key value, others.get? key = some value → ¬ IsStateKey key) :
    ofAnnotations (annotate m others) = .ok m := by
  have hget := fun key value => get?_annotate (fun name n hn => (hm name n hn).1) hothers key value
  have hvalid : ∀ key value, ¬ Spoils (annotate m others) key value := by
    intro key value hspoils
    rcases (hget key value).1 hspoils.annotated with hother | ⟨name, n, hn, -, rfl⟩
    · exact hothers key value hother hspoils.isStateKey
    · exact hspoils.not_count ⟨n, readCount?_eq_some_iff.1 (readCount?_decimal (hm name n hn).2)⟩
  have hok := ofAnnotations_of_valid (firstInvalid?_eq_none_iff_forall.2 hvalid)
  rw [hok]
  refine congrArg Except.ok (Table.ext_get? fun name => ?_)
  by_cases hne : name = ""
  · have hnone : m.get? "" = none :=
      Option.eq_none_iff_forall_ne_some.2 fun n hn => (hm "" n hn).1 rfl
    rw [hne, get?_empty_of_ofAnnotations hok, hnone]
  · rw [get?_of_ofAnnotations hok hne]
    cases hn : m.get? name with
    | some n =>
      have hvalue := (hget (keyOf name) (Text.decimal n)).2 (.inr ⟨name, n, hn, rfl, rfl⟩)
      rw [hvalue, Option.bind_some, readCount?_decimal (hm name n hn).2]
    | none =>
      have hnone : (annotate m others).get? (keyOf name) = none := by
        refine Option.eq_none_iff_forall_ne_some.2 fun value hvalue => ?_
        rcases (hget _ _).1 hvalue with hother | ⟨name', n, hn', hkey, -⟩
        · exact hothers _ value hother ⟨name, hne, rfl⟩
        · cases keyOf_injective hkey
          cases hn.symm.trans hn'
      rw [hnone, Option.bind_none]

/-- **Annotations are decoded exactly.**  The decoding fails if and only if the value of some key
that belongs to a state is no count, and reports the first such key in the order of the keys.  Else
the map has for every state the count that stands under its key, none if there is no such key, and
one entry for each key that belongs to a state.  A map of counts that is written into annotations,
whatever others there are, is what they are decoded to. -/
theorem annotations_decoded (annotations : Table String String) :
    ((∃ e, ofAnnotations annotations = .error e) ↔ ∃ key value, Spoils annotations key value) ∧
    (∀ e, ofAnnotations annotations = .error e → ∃ key value, e = .invalidCount key value ∧
      Spoils annotations key value ∧
        ∀ key' value', Spoils annotations key' value' → key ≤ key') ∧
    (∀ m, ofAnnotations annotations = .ok m →
      (∀ name, name ≠ "" → ∀ n, m.target? name = some ⟨name, n⟩ ↔
        ∃ value, annotations.get? (keyOf name) = some value ∧ WritesCount value n) ∧
      (∀ name, name ≠ "" →
        (m.target? name = none ↔ annotations.get? (keyOf name) = none)) ∧
      m.size = annotations.keys.countP (IsStateKey ·)) ∧
    ∀ (m : ReplicaMap) (others : Table String String),
      (∀ name n, m.get? name = some n → name ≠ "" ∧ 0 ≤ n ∧ n ≤ 2147483647) →
      (∀ key value, others.get? key = some value → ¬ IsStateKey key) →
      ofAnnotations (annotate m others) = .ok m := by
  refine ⟨?_, fun e => ofAnnotations_eq_error_iff.1, fun m hm => ⟨?_, ?_, ?_⟩,
    fun m others => ofAnnotations_annotate⟩
  · constructor
    · rintro ⟨e, he⟩
      obtain ⟨key, value, -, hspoils, -⟩ := ofAnnotations_eq_error_iff.1 he
      exact ⟨key, value, hspoils⟩
    · rintro ⟨key, value, hspoils⟩
      cases h : ofAnnotations annotations with
      | error e => exact ⟨e, rfl⟩
      | ok m =>
        have hvalid := firstInvalid?_eq_none_iff_forall.1 (ofAnnotations_eq_ok_iff.1 h).1
        exact absurd hspoils (hvalid key value)
  · intro name hne n
    simp only [target?, get?_of_ofAnnotations hm hne, Option.map_eq_some_iff, Target.mk.injEq,
      true_and, exists_eq_right, Option.bind_eq_some_iff, readCount?_eq_some_iff]
  · intro name hne
    rw [target?, Option.map_eq_none_iff, get?_of_ofAnnotations hm hne]
    constructor
    · intro hnone
      refine Option.eq_none_iff_forall_ne_some.2 fun value hvalue => ?_
      -- a value that is no count would have spoilt the map
      have hvalid := firstInvalid?_eq_none_iff_forall.1 (ofAnnotations_eq_ok_iff.1 hm).1
      refine hvalid (keyOf name) value ⟨hvalue, ⟨name, hne, rfl⟩, ?_⟩
      rintro ⟨n, hn⟩
      rw [hvalue, Option.bind_some, readCount?_eq_some_iff.2 hn] at hnone
      cases hnone
    · intro hnone
      rw [hnone, Option.bind_none]
  · exact size_of_ofAnnotations hm

/-- Names with dashes that look like the end of a key, beside annotations that look like those of
states; and a map that its second annotation spoils, though the third one is no better. -/
theorem annotations_decoded_dashes :
    let m : ReplicaMap := Table.ofList [("black-friday", 12), ("-replicas", 0)]
    let others : Table String String := Table.ofList
      [("app", "web"), ("scaler/state--replicas", "3"), ("scaler/state-replicas", "none")]
    let spoilt : Table String String := Table.ofList [("scaler/state-a-replicas", " +4 "),
      ("scaler/state-b-replicas", "-2"), ("scaler/state-c-replicas", "five")]
    ofAnnotations (annotate m others) = .ok m ∧
      (∃ value, (annotate m others).get? (keyOf "black-friday") = some value ∧
        WritesCount value 12) ∧
      m.size = (annotate m others).keys.countP (IsStateKey ·) ∧
      ∃ key value, Spoils spoilt key value := by
  intro m others spoilt
  have hok : ofAnnotations (annotate m others) = .ok m := by
    refine (annotations_decoded others).2.2.2 m others (fun name n h => ?_) fun key value h => ?_
    · have hmem := Table.mem_of_get?_ofList h
      simp only [List.mem_cons, Prod.mk.injEq, List.not_mem_nil, or_false] at hmem
      rcases hmem with ⟨rfl, rfl⟩ | ⟨rfl, rfl⟩ <;> decide
    · have hmem := Table.mem_of_get?_ofList h
      simp only [List.mem_cons, Prod.mk.injEq, List.not_mem_nil, or_false] at hmem
      rcases hmem with ⟨rfl, -⟩ | ⟨rfl, -⟩ | ⟨rfl, -⟩ <;> decide +kernel
  obtain ⟨hcounts, -, hsize⟩ := (annotations_decoded (annotate m others)).2.2.1 m hok
  refine ⟨hok, ?_, hsize, (annotations_decoded spoilt).1.1 ?_⟩
  · exact (hcounts "black-friday" (by decide) 12).1 (by decide +kernel)
  · exact ⟨.invalidCount "scaler/state-b-replicas" "-2", by decide +kernel⟩

end ReplicaMap

end ReplicaControl
