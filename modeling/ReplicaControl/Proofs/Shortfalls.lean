import Mathlib.Data.List.Forall2
import ReplicaControl.Quota

/-!
# Shortfalls

What a verdict on a need says, in terms of the amounts of each name.

* `QuotaStatus.left` — what a need leaves of a name: what is granted, less what is in use, less the
  need.  Each difference stops at the ends of the range of amounts.
* `QuotaStatus.HasRoom` — a need leaves nothing below zero under a name that is granted.
* `Quota.get?_shortfall` — the shortfall of a quota object holds its names with less than nothing
  left, with what is left.
* `judge_allowed_iff`, `judge_denied_iff` — the verdict is the shortfall of the first quota
  object without room.
* `judge_of_countsAlike` — names that no quota object grants do not matter.
* `judge_reports` — the main theorem.
-/

namespace ReplicaControl

/-- What a need leaves of a quota object under a name.  Both differences saturate. -/
def QuotaStatus.left (q : QuotaStatus) (need : ResourceList) (name : String) : Quantity :=
  .saturate
    ((Quantity.saturate ((q.hard.amount name).millis - (q.used.amount name).millis)).millis -
      (need.amount name).millis)

/-- A need leaves a quota object nothing below zero under the names that it grants. -/
def QuotaStatus.HasRoom (q : QuotaStatus) (need : ResourceList) : Prop :=
  ∀ name, q.hard.contains name = true → 0 ≤ (q.left need name).millis

/-- Two quota objects grant the same, and under the names that they grant they and two needs count
the same.  A name that is missing counts as zero. -/
structure QuotaStatus.CountsAlike (need need' : ResourceList) (q q' : QuotaStatus) : Prop where
  name : q'.name = q.name
  hard : q'.hard = q.hard
  used : ∀ name, q.hard.contains name = true → q'.used.amount name = q.used.amount name
  need : ∀ name, q.hard.contains name = true → need'.amount name = need.amount name

namespace ResourceList

theorem get?_eq_some_amount {a : ResourceList} {name : String} (h : a.contains name = true) :
    a.get? name = some (a.amount name) := by
  obtain ⟨q, hq⟩ := Option.isSome_iff_exists.1 h
  rw [amount, hq]
  rfl

/-- A difference has all names of what it is taken from. -/
theorem get?_sub {a : ResourceList} (b : ResourceList) {name : String}
    (h : a.contains name = true) : (a.sub b).get? name = some (a.amount name - b.amount name) := by
  obtain ⟨p, hp⟩ := Option.isSome_iff_exists.1 h
  rw [sub, Table.get?_merge, amount, amount, hp]
  cases b.get? name <;> simp

end ResourceList

namespace Quota

variable {need need' : ResourceList} {q q' : QuotaStatus} {qs qs' : List QuotaStatus}

theorem get?_headroom {name : String} (h : q.hard.contains name = true) :
    (headroom q).get? name = some (q.hard.amount name - q.used.amount name) := by
  rw [headroom, ResourceList.get?_restrict, ResourceList.get?_sub _ h, h]
  rfl

/-- **The shortfall of a quota object holds the names that it grants and of which less than nothing
is left, with what is left.** -/
theorem get?_shortfall (q : QuotaStatus) (need : ResourceList) (name : String) :
    (shortfall q need).get? name =
      if q.hard.contains name = true ∧ (q.left need name).millis < 0 then
        some (q.left need name)
      else none := by
  rw [shortfall, ResourceList.get?_negative, ResourceList.get?_restrict]
  by_cases hname : q.hard.contains name = true
  · have hroom := get?_headroom hname
    have hleft : ((headroom q).sub need).get? name = some (q.left need name) := by
      rw [ResourceList.get?_sub need (by simp [hroom]), ResourceList.amount, hroom]
      rfl
    rw [hleft, hname]
    by_cases hneg : (q.left need name).millis < 0 <;>
      simp [hneg, Option.filter, Quantity.isNegative]
  · rw [Bool.not_eq_true] at hname
    rw [hname]
    cases ((headroom q).sub need).get? name <;> simp [Option.filter]

/-- A quota object has room if and only if what it grants less what is in use is not below the
need, name by name. -/
theorem hasRoom_iff : q.HasRoom need ↔ ∀ name most, q.hard.get? name = some most →
    0 ≤ (most - q.used.amount name - need.amount name).millis := by
  constructor
  · intro h name most hmost
    have hleft := h name (by simp [hmost])
    rwa [QuotaStatus.left, ResourceList.amount, hmost] at hleft
  · intro h name hname
    exact h name _ (ResourceList.get?_eq_some_amount hname)

theorem isEmpty_shortfall_iff : (shortfall q need).isEmpty = true ↔ q.HasRoom need := by
  rw [Table.isEmpty_iff]
  constructor
  · intro h name hname
    have hnone := h name
    rw [get?_shortfall] at hnone
    by_contra hneg
    rw [if_pos ⟨hname, by omega⟩] at hnone
    cases hnone
  · intro h name
    rw [get?_shortfall]
    apply if_neg
    rintro ⟨hname, hneg⟩
    have hroom := h name hname
    omega

/-! ## Verdicts -/

/-- **A need is allowed if and only if every quota object has room for it.** -/
theorem judge_allowed_iff : judge need qs = .allowed ↔ ∀ q ∈ qs, q.HasRoom need := by
  induction qs with
  | nil => simp [judge]
  | cons q rest ih =>
    rw [judge, List.forall_mem_cons, ← ih, ← isEmpty_shortfall_iff]
    by_cases hempty : (shortfall q need).isEmpty = true <;> simp [hempty]

/-- **A need is refused by the first quota object that has no room for it**, which reports its
shortfall. -/
theorem judge_denied_iff {quota : String} {lack : ResourceList} :
    judge need qs = .denied quota lack ↔
      ∃ before q after, qs = before ++ q :: after ∧ (∀ p ∈ before, p.HasRoom need) ∧
        ¬ q.HasRoom need ∧ q.name = quota ∧ shortfall q need = lack := by
  induction qs with
  | nil => simp [judge]
  | cons first rest ih =>
    rw [judge]
    by_cases hempty : (shortfall first need).isEmpty = true
    · rw [if_pos hempty, ih]
      rw [isEmpty_shortfall_iff] at hempty
      constructor
      · rintro ⟨before, q, after, rfl, hbefore, hq⟩
        exact ⟨first :: before, q, after, rfl, List.forall_mem_cons.2 ⟨hempty, hbefore⟩, hq⟩
      · rintro ⟨_ | ⟨p, before⟩, q, after, hsplit, hbefore, hq⟩
        · obtain ⟨rfl, -⟩ := List.cons.inj hsplit
          exact absurd hempty hq.1
        · obtain ⟨rfl, rfl⟩ := List.cons.inj hsplit
          exact ⟨before, q, after, rfl, (List.forall_mem_cons.1 hbefore).2, hq⟩
    · rw [if_neg hempty]
      rw [isEmpty_shortfall_iff] at hempty
      constructor
      · intro h
        obtain ⟨hname, hlack⟩ := Admission.denied.inj h
        exact ⟨[], first, rest, rfl, by simp, hempty, hname, hlack⟩
      · rintro ⟨_ | ⟨p, before⟩, q, after, hsplit, hbefore, hq, hname, hlack⟩
        · obtain ⟨rfl, -⟩ := List.cons.inj hsplit
          rw [hname, hlack]
        · obtain ⟨rfl, -⟩ := List.cons.inj hsplit
          exact absurd (hbefore first List.mem_cons_self) hempty

theorem shortfall_of_countsAlike (h : q.CountsAlike need need' q') :
    shortfall q' need' = shortfall q need := by
  refine Table.ext_get? fun name => ?_
  rw [get?_shortfall, get?_shortfall, h.hard]
  by_cases hname : q.hard.contains name = true
  · have hleft : q'.left need' name = q.left need name := by
      rw [QuotaStatus.left, h.hard, h.used name hname, h.need name hname]
      rfl
    rw [hleft]
  · rw [if_neg fun h => hname h.1, if_neg fun h => hname h.1]

/-- **What is in use or needed under names that no quota object grants does not matter.** -/
theorem judge_of_countsAlike (h : List.Forall₂ (QuotaStatus.CountsAlike need need') qs qs') :
    judge need' qs' = judge need qs := by
  induction h with
  | nil => rfl
  | cons hq _ ih => rw [judge, judge, shortfall_of_countsAlike hq, hq.name, ih]

/-- **What a verdict reports.**  A need is allowed if and only if no quota object has a name that it
grants with less than nothing left.  Else the verdict names the first quota object that has one, in
the order of the source, and reports exactly its names with less than nothing left, each with what
is left.  What is in use or needed under any other name does not matter. -/
theorem judge_reports (need : ResourceList) (qs : List QuotaStatus) :
    (judge need qs = .allowed ↔
      ∀ q ∈ qs, ∀ name, q.hard.contains name = true → ¬ (q.left need name).millis < 0) ∧
    (∀ quota lack, judge need qs = .denied quota lack ↔
      ∃ before q after, qs = before ++ q :: after ∧ q.name = quota ∧
        (∀ p ∈ before, ∀ name, p.hard.contains name = true → ¬ (p.left need name).millis < 0) ∧
        (∃ name, q.hard.contains name = true ∧ (q.left need name).millis < 0) ∧
        ∀ name, lack.get? name =
          if q.hard.contains name = true ∧ (q.left need name).millis < 0 then
            some (q.left need name)
          else none) ∧
    (∀ need' qs', List.Forall₂ (QuotaStatus.CountsAlike need need') qs qs' →
      judge need' qs' = judge need qs) := by
  have hroom : ∀ q : QuotaStatus, q.HasRoom need ↔
      ∀ name, q.hard.contains name = true → ¬ (q.left need name).millis < 0 := by
    intro q
    simp only [QuotaStatus.HasRoom, Int.not_lt]
  refine ⟨?_, fun quota lack => ?_, fun need' qs' h => judge_of_countsAlike h⟩
  · simp only [judge_allowed_iff, hroom]
  · rw [judge_denied_iff]
    refine exists_congr fun before => exists_congr fun q => exists_congr fun after => ?_
    have hlack : shortfall q need = lack ↔ ∀ name, lack.get? name =
        if q.hard.contains name = true ∧ (q.left need name).millis < 0 then
          some (q.left need name)
        else none := by
      simp only [← get?_shortfall]
      exact ⟨fun h name => by rw [h], fun h => (Table.ext_get? h).symm⟩
    rw [← hlack, hroom q]
    simp only [hroom, not_forall, not_not]
    tauto

/-- The second of two quota objects refuses, with the one name of which too little is left; a name
that it does not grant may be added to what is in use and to the need. -/
theorem judge_reports_second_object :
    let roomy : QuotaStatus :=
      { name := "cpu"
        hard := Table.ofList [("limits.cpu", .ofUnits 8)]
        used := Table.ofList [("limits.cpu", .ofUnits 2)] }
    let full : QuotaStatus :=
      { name := "memory"
        hard := Table.ofList [("limits.cpu", .ofUnits 9), ("limits.memory", .ofUnits 4)]
        used := ∅ }
    let busy : QuotaStatus := { full with used := Table.ofList [("pods", .ofUnits 7)] }
    let need : ResourceList :=
      Table.ofList [("limits.cpu", .ofUnits 1), ("limits.memory", .ofUnits 6)]
    let more : ResourceList := need.add (Table.ofList [("pods", .ofUnits 1)])
    List.Forall₂ (QuotaStatus.CountsAlike need more) [roomy, full] [roomy, busy] ∧
      judge more [roomy, busy] =
        .denied "memory" (Table.ofList [("limits.memory", .ofUnits (-2))]) := by
  intro roomy full busy need more
  have hmore : ∀ name, name = "limits.cpu" ∨ name = "limits.memory" →
      more.amount name = need.amount name := by
    rintro name (rfl | rfl) <;> decide +kernel
  have hroomy : ∀ name, roomy.hard.contains name = true → name = "limits.cpu" := by
    intro name hname
    rw [Table.contains_ofList] at hname
    simpa using hname
  have hfull : ∀ name, full.hard.contains name = true →
      name = "limits.cpu" ∨ name = "limits.memory" := by
    intro name hname
    rw [Table.contains_ofList] at hname
    simpa using hname
  have halike : List.Forall₂ (QuotaStatus.CountsAlike need more) [roomy, full] [roomy, busy] := by
    refine .cons ⟨rfl, rfl, fun _ _ => rfl, fun name hname => ?_⟩
      (.cons ⟨rfl, rfl, fun name hname => ?_, fun name hname => ?_⟩ .nil)
    · exact hmore name (.inl (hroomy name hname))
    · rcases hfull name hname with rfl | rfl <;> decide +kernel
    · exact hmore name (hfull name hname)
  refine ⟨halike, ?_⟩
  rw [(judge_reports need [roomy, full]).2.2 more [roomy, busy] halike]
  decide +kernel

end Quota

end ReplicaControl
