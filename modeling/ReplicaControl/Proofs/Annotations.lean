import ReplicaControl.Proofs.Convergence

/-!
# What annotations say about targets

* `ReplicaMap.stateOf?_eq_some_iff` — the key of an annotation and the name of its state determine
  each other.
* `Workload.stateAnnotations`, `firstInvalid?` — the annotations that give counts to states, and the
  first of them that does not hold a count.
* `ReplicaMap.ofAnnotations_eq_error_iff`, `get?_of_ofAnnotations` — the map of valid annotations
  holds what they say.
* `Workload.HasTarget`, `LacksTarget` — a workload has a count for a state, and the reason why it
  has none although it is under control and gives counts to states.
* `Cycle.targetOf_eq_none_iff`, `targetOf_eq_some_iff`, `targetOf_eq_error_iff` — the three answers
  of a cycle's search for a target.
-/

namespace ReplicaControl

namespace ReplicaMap

theorem stateOf?_eq_some_iff {key name : String} :
    stateOf? key = some name ↔ key = keyOf name ∧ name ≠ "" := by
  have hkey : key = keyOf name ↔ key.toList = keyHead ++ name.toList ++ keyTail := by
    rw [keyOf, ← String.toList_inj, String.toList_ofList]
  rw [hkey, List.append_assoc]
  constructor
  · intro h
    unfold stateOf? at h
    split at h
    · cases h
    · rename_i rest hhead
      split at h
      · cases h
      · rename_i tail htail
        split at h
        · cases h
        · cases h
          rw [← List.isPrefixOf?_eq_some_iff_append_eq.1 hhead,
            ← List.isSuffixOf?_eq_some_iff_append_eq.1 htail, String.toList_ofList]
          exact ⟨rfl, by simpa using ‹tail ≠ []›⟩
  · rintro ⟨h, hne⟩
    have hhead := List.isPrefixOf?_eq_some_iff_append_eq.2 h.symm
    have htail : keyTail.isSuffixOf? (name.toList ++ keyTail) = some name.toList :=
      List.isSuffixOf?_eq_some_iff_append_eq.2 rfl
    simp [stateOf?, hhead, htail, hne]

/-- The state and the count that an annotation gives to it, if it does and the count is valid. -/
def countOf? (a : String × String) : Option (String × Int) :=
  (stateOf? a.1).bind fun state => (readCount? a.2).map (state, ·)

/-- The annotations of a list that give counts to states. -/
def relevant (annotations : List (String × String)) : List (String × String) :=
  annotations.filter fun a => (stateOf? a.1).isSome

/-- The first annotation of a list that gives no valid count to its state. -/
def firstInvalid? (annotations : List (String × String)) : Option (String × String) :=
  (relevant annotations).find? fun a => (readCount? a.2).isNone

theorem firstInvalid?_eq_none_iff {annotations : List (String × String)} :
    firstInvalid? annotations = none ↔
      ∀ a ∈ relevant annotations, (readCount? a.2).isSome = true := by
  rw [firstInvalid?, List.find?_eq_none]
  refine forall₂_congr fun a _ => ?_
  cases readCount? a.2 <;> simp

theorem readEntries_eq (annotations : List (String × String)) :
    readEntries annotations =
      match firstInvalid? annotations with
      | some a => .error (.invalidCount a.1 a.2)
      | none => .ok (annotations.filterMap countOf?) := by
  induction annotations with
  | nil => rfl
  | cons a rest ih =>
    obtain ⟨key, value⟩ := a
    rw [readEntries, ih]
    cases hs : stateOf? key with
    | none => simp [firstInvalid?, relevant, countOf?, hs]
    | some state =>
      cases hn : readCount? value with
      | none => simp [firstInvalid?, relevant, hs, hn]
      | some n =>
        have hrest : firstInvalid? ((key, value) :: rest) = firstInvalid? rest := by
          simp [firstInvalid?, relevant, hs, hn]
        rw [hrest]
        cases firstInvalid? rest <;> simp [countOf?, hs, hn, Except.map]

variable {annotations : Table String String}

theorem ofAnnotations_of_firstInvalid? {a : String × String}
    (h : firstInvalid? annotations.entries = some a) :
    ofAnnotations annotations = .error (.invalidCount a.1 a.2) := by
  rw [ofAnnotations, readEntries_eq, h]
  rfl

theorem ofAnnotations_of_valid (h : firstInvalid? annotations.entries = none) :
    ofAnnotations annotations = .ok (Table.ofList (annotations.entries.filterMap countOf?)) := by
  rw [ofAnnotations, readEntries_eq, h]
  rfl

theorem mem_filterMap_countOf? {name : String} {n : Int} :
    (name, n) ∈ annotations.entries.filterMap countOf? ↔
      name ≠ "" ∧ (annotations.get? (keyOf name)).bind readCount? = some n := by
  rw [List.mem_filterMap]
  constructor
  · rintro ⟨⟨key, value⟩, hmem, hentry⟩
    obtain ⟨state, hstate, hcount⟩ := Option.bind_eq_some_iff.1 hentry
    obtain ⟨n', hread, heq⟩ := Option.map_eq_some_iff.1 hcount
    cases heq
    obtain ⟨rfl, hne⟩ := stateOf?_eq_some_iff.1 hstate
    rw [(annotations.mem_entries_iff).1 hmem]
    exact ⟨hne, hread⟩
  · rintro ⟨hne, hcount⟩
    obtain ⟨value, hget, hread⟩ := Option.bind_eq_some_iff.1 hcount
    refine ⟨(keyOf name, value), (annotations.mem_entries_iff).2 hget, ?_⟩
    simp [countOf?, stateOf?_eq_some_iff.2 ⟨rfl, hne⟩, hread]

/-- The map of annotations holds for every state what its annotation says. -/
theorem get?_ofList_countOf? {name : String} (hne : name ≠ "") :
    (Table.ofList (annotations.entries.filterMap countOf?)).get? name =
      (annotations.get? (keyOf name)).bind readCount? := by
  refine Option.ext fun n => ⟨fun h => ?_, fun h => ?_⟩
  · exact (mem_filterMap_countOf?.1 (Table.mem_of_get?_ofList h)).2
  · have hlisted := List.mem_map_of_mem (f := Prod.fst) (mem_filterMap_countOf?.2 ⟨hne, h⟩)
    obtain ⟨n', hn'⟩ := Option.isSome_iff_exists.1 (Table.contains_ofList.2 hlisted)
    have h' := (mem_filterMap_countOf?.1 (Table.mem_of_get?_ofList hn')).2
    rw [hn', ← h', h]

/-- The map of valid annotations is empty if none of them gives a count to a state. -/
theorem isEmpty_ofList_countOf? (h : firstInvalid? annotations.entries = none) :
    (Table.ofList (annotations.entries.filterMap countOf?)).isEmpty = true ↔
      relevant annotations.entries = [] := by
  rw [Table.isEmpty_ofList, List.filterMap_eq_nil_iff, relevant, List.filter_eq_nil_iff]
  refine forall₂_congr fun a ha => ?_
  cases hs : stateOf? a.1 with
  | none => simp [countOf?, hs]
  | some state =>
    have hmem : a ∈ relevant annotations.entries := List.mem_filter.2 ⟨ha, by simp [hs]⟩
    obtain ⟨n, hn⟩ := Option.isSome_iff_exists.1 (firstInvalid?_eq_none_iff.1 h a hmem)
    simp [countOf?, hs, hn]

end ReplicaMap

namespace Workload

open ReplicaMap

/-- The annotations that give counts to states, in the order of their keys. -/
def stateAnnotations (x : Workload) : List (String × String) := relevant x.annotations.entries

theorem mem_stateAnnotations {x : Workload} {name value : String} (hne : name ≠ "")
    (h : x.annotations.get? (keyOf name) = some value) :
    (keyOf name, value) ∈ x.stateAnnotations :=
  List.mem_filter.2 ⟨(x.annotations.mem_entries_iff).2 h, by
    simp [stateOf?_eq_some_iff.2 ⟨rfl, hne⟩]⟩

/-- A workload is under control, all its counts are valid, and one of them is for a state. -/
structure HasTarget (x : Workload) (state : State) (n : Int) : Prop where
  optedIn : x.isOptedIn = true
  valid : ∀ a ∈ x.stateAnnotations, (readCount? a.2).isSome = true
  count : (x.annotations.get? (keyOf state.name)).bind readCount? = some n

/-- A workload under control gives counts to states, but has no target: one of the counts is
invalid, of which the first one is reported, or the one for the state is missing. -/
inductive LacksTarget (x : Workload) (state : State) : TargetError → Prop
  | invalid {key value : String} (optedIn : x.isOptedIn = true)
      (first : x.stateAnnotations.find? (fun a => (readCount? a.2).isNone) = some (key, value)) :
      LacksTarget x state (.invalidCount key value)
  | missing (optedIn : x.isOptedIn = true) (stated : x.stateAnnotations ≠ [])
      (valid : ∀ a ∈ x.stateAnnotations, (readCount? a.2).isSome = true)
      (absent : x.annotations.get? (keyOf state.name) = none) :
      LacksTarget x state (.missing state.name x.key)

end Workload

namespace Cycle

open ReplicaMap

variable {x : Workload} {state : State}

theorem targetOf_of_firstInvalid? {a : String × String} (hin : x.isOptedIn = true)
    (h : firstInvalid? x.annotations.entries = some a) :
    targetOf x state = .error (.invalidCount a.1 a.2) := by
  rw [targetOf, if_pos hin, ofAnnotations_of_firstInvalid? h]

/-- The target of a workload under control whose annotations are valid. -/
theorem targetOf_of_valid (hstate : state.name ≠ "") (hin : x.isOptedIn = true)
    (h : firstInvalid? x.annotations.entries = none) :
    targetOf x state =
      if x.stateAnnotations = [] then .ok none
      else
        match (x.annotations.get? (keyOf state.name)).bind readCount? with
        | some n => .ok (some ⟨state.name, n⟩)
        | none => .error (.missing state.name x.key) := by
  rw [targetOf, if_pos hin, Workload.targetFor, if_pos hin, ofAnnotations_of_valid h]
  simp only [isEmpty_ofList_countOf? h, target?, get?_ofList_countOf? hstate]
  refine if_congr .rfl rfl ?_
  cases (x.annotations.get? (keyOf state.name)).bind readCount? <;> rfl

theorem targetOf_eq_none_iff (hstate : state.name ≠ "") :
    targetOf x state = .ok none ↔ x.isOptedIn = false ∨ x.stateAnnotations = [] := by
  by_cases hin : x.isOptedIn = true
  · cases h : firstInvalid? x.annotations.entries with
    | some a =>
      have hne : x.stateAnnotations ≠ [] := List.ne_nil_of_mem (List.mem_of_find?_eq_some h)
      simp [targetOf_of_firstInvalid? hin h, hin, hne]
    | none =>
      rw [targetOf_of_valid hstate hin h]
      split
      · simp [*]
      · split <;> simp [*]
  · simp [targetOf, hin]

theorem targetOf_eq_some_iff (hstate : state.name ≠ "") {t : Target} :
    targetOf x state = .ok (some t) ↔ t.state = state.name ∧ x.HasTarget state t.replicas := by
  constructor
  · intro ht
    have hin : x.isOptedIn = true := (targetOf_eq_some ht).1
    cases h : firstInvalid? x.annotations.entries with
    | some a =>
      rw [targetOf_of_firstInvalid? hin h] at ht
      cases ht
    | none =>
      rw [targetOf_of_valid hstate hin h] at ht
      split at ht
      · cases ht
      · split at ht
        · cases ht
          exact ⟨rfl, hin, firstInvalid?_eq_none_iff.1 h, ‹_›⟩
        · cases ht
  · rintro ⟨hname, hin, hvalid, hcount⟩
    obtain ⟨value, hget, -⟩ := Option.bind_eq_some_iff.1 hcount
    rw [targetOf_of_valid hstate hin (firstInvalid?_eq_none_iff.2 hvalid),
      if_neg (List.ne_nil_of_mem (Workload.mem_stateAnnotations hstate hget)), hcount, ← hname]

theorem targetOf_eq_error_iff (hstate : state.name ≠ "") {e : TargetError} :
    targetOf x state = .error e ↔ x.LacksTarget state e := by
  constructor
  · intro he
    have hin : x.isOptedIn = true := by
      by_contra hout
      rw [targetOf, if_neg hout] at he
      cases he
    cases h : firstInvalid? x.annotations.entries with
    | some a =>
      rw [targetOf_of_firstInvalid? hin h] at he
      cases he
      exact .invalid hin h
    | none =>
      rw [targetOf_of_valid hstate hin h] at he
      split at he
      · cases he
      · rename_i hne
        split at he
        · cases he
        · rename_i hnone
          cases he
          have hvalid := firstInvalid?_eq_none_iff.1 h
          refine .missing hin hne hvalid (Option.eq_none_iff_forall_ne_some.2 fun value hget => ?_)
          have hread := hvalid _ (Workload.mem_stateAnnotations hstate hget)
          rw [hget, Option.bind_some] at hnone
          rw [hnone] at hread
          cases hread
  · rintro (⟨hin, hfirst⟩ | ⟨hin, hne, hvalid, hnone⟩)
    · exact targetOf_of_firstInvalid? hin hfirst
    · rw [targetOf_of_valid hstate hin (firstInvalid?_eq_none_iff.2 hvalid), if_neg hne, hnone]
      rfl

end Cycle

end ReplicaControl
