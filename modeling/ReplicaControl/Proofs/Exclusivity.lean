import ReplicaControl.Proofs.AttemptStep
import ReplicaControl.Proofs.Plan
import ReplicaControl.Proofs.Sample

/-!
# One attempt for each key

* `Scene.Exclusive` — no two unfinished attempts have one key.
* `Scene.Marked` — the invariant behind it: besides, the registry marks the key of every unfinished
  attempt as running.
* `Registry.Marks`, `Plan.marks` — a plan marks what it launches, nothing that was marked before,
  and takes no mark away.
* `Scene.Orphans` — the one turn that breaks the invariant: a cycle for a workload that is gone
  while the attempt of its key waits.
* `exclusive_iff_not_orphans` — as long as no turn orphans an attempt there is one attempt for each
  key; and a turn keeps it so for good if and only if it orphans none.
-/

namespace ReplicaControl

/-! ## Marks -/

namespace Registry

/-- The keys of the launches are marked as running, each once and none that was marked before, and
no mark was taken away. -/
structure Marks (r : Registry) (launches : List Launch) (r' : Registry) : Prop where
  nodup : (launches.map fun l => l.1.key).Nodup
  fresh : ∀ l ∈ launches, r.isInFlight l.1.key = false
  marked : ∀ l ∈ launches, r'.isInFlight l.1.key = true
  kept : ∀ key, r.isInFlight key = true → r'.isInFlight key = true

theorem Marks.of_kept {r r' : Registry}
    (h : ∀ key, r.isInFlight key = true → r'.isInFlight key = true) : r.Marks [] r' where
  nodup := List.nodup_nil
  fresh := fun _ hl => nomatch hl
  marked := fun _ hl => nomatch hl
  kept := h

theorem Marks.insert {r : Registry} {l : Launch} {key : Key} {e : Workload} (hk : l.1.key = key)
    (h : r.isInFlight key = false) (he : e.scaling = true) : r.Marks [l] (r.insert key e) where
  nodup := by simp
  fresh := by
    intro l' hl
    obtain rfl := List.mem_singleton.1 hl
    rw [hk, h]
  marked := by
    intro l' hl
    obtain rfl := List.mem_singleton.1 hl
    rw [isInFlight_insert, if_pos hk, he]
  kept := by
    intro key hkey
    rw [isInFlight_insert]
    split
    · exact he
    · exact hkey

theorem Marks.trans {r₁ r₂ r₃ : Registry} {l₁ l₂ : List Launch} (h₁ : r₁.Marks l₁ r₂)
    (h₂ : r₂.Marks l₂ r₃) : r₁.Marks (l₁ ++ l₂) r₃ where
  nodup := by
    rw [List.map_append]
    refine List.nodup_append.2 ⟨h₁.nodup, h₂.nodup, ?_⟩
    rintro _ hk₁ _ hk₂ rfl
    obtain ⟨x, hx, hxk⟩ := List.mem_map.1 hk₁
    obtain ⟨y, hy, hyk⟩ := List.mem_map.1 hk₂
    have hm := h₁.marked x hx
    have hf := h₂.fresh y hy
    rw [hxk] at hm
    rw [hyk, hm] at hf
    cases hf
  fresh := by
    intro l hl
    rcases List.mem_append.1 hl with hl | hl
    · exact h₁.fresh l hl
    · refine Bool.eq_false_iff.2 fun hin => ?_
      have hkept := h₁.kept _ hin
      rw [h₂.fresh l hl] at hkept
      cases hkept
  marked := by
    intro l hl
    rcases List.mem_append.1 hl with hl | hl
    · exact h₂.kept _ (h₁.marked l hl)
    · exact h₂.marked l hl
  kept := fun key hkey => h₂.kept key (h₁.kept key hkey)

/-- What becomes of an entry that is not marked takes no mark away. -/
theorem kept_of_get?_of_ne {r r' : Registry} {entry : Workload}
    (he : r.get? entry.key = some entry) (hs : entry.scaling = false)
    (h : ∀ key, key ≠ entry.key → r'.get? key = r.get? key) (key : Key)
    (hkey : r.isInFlight key = true) : r'.isInFlight key = true := by
  have hne : key ≠ entry.key := by
    rintro rfl
    simp [isInFlight, he, hs] at hkey
  rw [isInFlight_of_get?_eq (h key hne)]
  exact hkey

end Registry

/-- **A plan marks what it launches.** -/
theorem Plan.marks {P : Workload → Target → Prop} {r r' : Registry} {launches : List Launch}
    (h : Plan P r launches r') : r.Marks launches r' := by
  induction h with
  | done r => exact .of_kept fun _ hkey => hkey
  | revise _ _ _ ih =>
    refine (Registry.Marks.of_kept fun key hkey => ?_).trans ih
    rw [Registry.isInFlight_retarget]
    exact hkey
  | @claim _ _ item target _ _ _ hi _ _ ih =>
    have hm := Registry.Marks.insert (l := (item, target))
      (e := Registry.started item target.replicas) rfl hi rfl
    exact hm.trans ih
  | @retry r _ entry live target _ _ he _ hs hid _ ih =>
    have hi : r.isInFlight entry.key = false := by
      rw [Registry.isInFlight, he]
      exact hs
    have hm := Registry.Marks.insert
      (l := ({ live with failure := true, failureMessage := entry.failureMessage }, target))
      (e := { entry with scaling := true, failure := true, desired := target.replicas })
      (congrArg WorkloadId.key hid) hi rfl
    exact hm.trans ih
  | note he _ hs _ ih =>
    refine (Registry.Marks.of_kept (Registry.kept_of_get?_of_ne he hs ?_)).trans ih
    intro key hne
    rw [Registry.get?_update, if_neg hne]
  | drop he _ hs _ ih =>
    refine (Registry.Marks.of_kept (Registry.kept_of_get?_of_ne he hs ?_)).trans ih
    intro key hne
    exact Table.get?_erase_of_ne _ hne

/-! ## The invariant -/

theorem Attempt.step_of_isOver (s : Settings) {a : Attempt} (w : World) (h : a.isOver = true) :
    a.step s w = (a, w) := by
  unfold Attempt.isOver at h
  unfold Attempt.step
  split at h
  · rename_i hp
    simp only [hp]
  · rename_i hp
    simp only [hp]
  · cases h

namespace Scene

variable {s : Settings} {sc : Scene}

/-- The unfinished attempts. -/
def running (sc : Scene) : List Attempt := sc.attempts.filter fun a => !a.isOver

/-- No two unfinished attempts have one key. -/
def Exclusive (sc : Scene) : Prop := (sc.running.map Attempt.key).Nodup

/-- The registry marks the key of every unfinished attempt as running, and there is one unfinished
attempt for each key. -/
structure Marked (sc : Scene) : Prop where
  filed : sc.world.registry.Filed
  marked : ∀ a ∈ sc.running, sc.world.registry.isInFlight a.key = true
  exclusive : sc.Exclusive

/-- A turn drops the mark of an unfinished attempt: it is a cycle for a workload that is gone, and
the attempt has the key of that workload. -/
def Orphans (s : Settings) (sc : Scene) (m : Move) : Prop :=
  ∃ id, m = .trigger (.item id) ∧ sc.isAtRest ∧ Cycle.Misses s sc.world id ∧
    ∃ a ∈ sc.running, a.key = id.key

/-- None of a list of turns orphans an attempt. -/
def Spares (s : Settings) (sc : Scene) : List Move → Prop
  | [] => True
  | m :: moves => ¬ sc.Orphans s m ∧ (sc.next s m).Spares s moves

theorem marked_idle (w : World) : (idle w).Marked where
  filed := Registry.filed_empty
  marked := fun _ ha => nomatch ha
  exclusive := List.nodup_nil

/-- Launched attempts are running, behind the others. -/
theorem running_launched (w : World) (as : List Attempt) (launches : List Launch) :
    running ⟨w, as ++ launches.map fun l => .launch l.1 l.2⟩ =
      running ⟨w, as⟩ ++ launches.map fun l => .launch l.1 l.2 := by
  simp only [running, List.filter_append]
  refine congrArg _ (List.filter_eq_self.2 fun a ha => ?_)
  obtain ⟨l, -, rfl⟩ := List.mem_map.1 ha
  rfl

theorem Marked.launched {w : World} {launches : List Launch} (h : sc.Marked)
    (hf : w.registry.Filed) (hm : sc.world.registry.Marks launches w.registry) :
    Marked ⟨w, sc.attempts ++ launches.map fun l => .launch l.1 l.2⟩ where
  filed := hf
  marked := by
    intro a ha
    rw [running_launched] at ha
    rcases List.mem_append.1 ha with ha | ha
    · exact hm.kept _ (h.marked a ha)
    · obtain ⟨l, hl, rfl⟩ := List.mem_map.1 ha
      exact hm.marked l hl
  exclusive := by
    unfold Exclusive
    rw [running_launched, List.map_append, List.map_map]
    refine List.nodup_append.2 ⟨h.exclusive, hm.nodup, ?_⟩
    rintro _ hk _ hk' rfl
    obtain ⟨a, ha, hak⟩ := List.mem_map.1 hk
    obtain ⟨l, hl, hlk⟩ := List.mem_map.1 hk'
    have hin : sc.world.registry.isInFlight l.1.key = true := by
      rw [show l.1.key = a.key from hlk.trans hak.symm]
      exact h.marked a ha
    rw [hm.fresh l hl] at hin
    cases hin

theorem Marked.next_trigger (h : sc.Marked) (t : Trigger) (ho : ¬ sc.Orphans s (.trigger t)) :
    (sc.next s (.trigger t)).Marked := by
  by_cases hr : sc.isAtRest
  · rw [Scene.next_trigger hr]
    rcases t.fire_plan s h.filed with hplan | ⟨id, rfl, hmiss, hl, hreg⟩
    · exact h.launched (hplan.filed h.filed) hplan.marks
    · rw [hl, List.map_nil, List.append_nil]
      refine ⟨?_, ?_, h.exclusive⟩
      · show Registry.Filed (World.registry _)
        rw [hreg]
        exact h.filed.erase id.key
      · intro a ha
        have hne : a.key ≠ id.key := fun hk => ho ⟨id, rfl, hr, hmiss, a, ha, hk⟩
        show Registry.isInFlight (World.registry _) a.key = true
        rw [hreg, Registry.isInFlight_erase, if_neg hne]
        exact h.marked a ha
  · simpa [next, hr] using h

theorem Marked.next_others (h : sc.Marked) (w : World) : (sc.next s (.others w)).Marked := by
  by_cases hr : sc.isAtRest
  · rw [Scene.next_others hr]
    exact ⟨h.filed, h.marked, h.exclusive⟩
  · simpa [next, hr] using h

theorem running_around (w : World) (before after : List Attempt) (a : Attempt) :
    running ⟨w, before ++ a :: after⟩ =
      running ⟨w, before⟩ ++ (if a.isOver then [] else [a]) ++ running ⟨w, after⟩ := by
  cases h : a.isOver <;> simp [running, h]

/-- A step of a running attempt keeps the invariant: it takes away at most the mark of its own key,
which no other unfinished attempt has, and does so only when it ends. -/
theorem Marked.stepped {a : Attempt} {i : Nat} (h : sc.Marked) (ha : sc.attempts[i]? = some a)
    (hrun : a.isOver = false) :
    Marked ⟨(a.step s sc.world).2, sc.attempts.set i (a.step s sc.world).1⟩ := by
  obtain ⟨before, after, hsplit, -, hset⟩ := exists_around ha
  have hsame : sc.running =
      running ⟨sc.world, before⟩ ++ [a] ++ running ⟨sc.world, after⟩ := by
    have hr := running_around sc.world before after a
    rw [← hsplit, hrun] at hr
    exact hr
  have hperm : (sc.running.map Attempt.key).Perm
      (a.key :: (running ⟨sc.world, before⟩ ++ running ⟨sc.world, after⟩).map Attempt.key) := by
    rw [hsame, List.append_assoc, ← List.map_cons]
    exact List.perm_middle.map _
  obtain ⟨hfresh, hnodup⟩ := List.nodup_cons.1 (hperm.nodup_iff.1 h.exclusive)
  have hrest : ∀ b ∈ running ⟨sc.world, before⟩ ++ running ⟨sc.world, after⟩,
      (a.step s sc.world).2.registry.isInFlight b.key = true := by
    intro b hb
    have hne : b.key ≠ a.key := fun hk => hfresh (hk ▸ List.mem_map_of_mem hb)
    rw [Registry.isInFlight_of_get?_eq (a.step_get?_of_ne s sc.world hne)]
    refine h.marked b ?_
    rw [hsame]
    simp only [List.mem_append] at hb ⊢
    rcases hb with hb | hb
    · exact .inl (.inl hb)
    · exact .inr hb
  have hmine : sc.world.registry.isInFlight a.key = true :=
    h.marked a (by rw [hsame]; simp)
  rw [hset]
  refine ⟨a.step_filed s h.filed, ?_, ?_⟩
  · intro b hb
    rw [running_around] at hb
    simp only [List.mem_append] at hb hrest
    rcases hb with (hb | hb) | hb
    · exact hrest b (.inl hb)
    · split at hb
      · cases hb
      · obtain rfl := List.mem_singleton.1 hb
        show Registry.isInFlight (World.registry _) _ = true
        rw [a.step_key]
        exact a.step_isInFlight s hmine (Bool.eq_false_iff.2 ‹_›)
    · exact hrest b (.inr hb)
  · unfold Exclusive
    rw [running_around]
    split
    · rw [List.append_nil]
      exact hnodup
    · rw [List.append_assoc, List.map_append, List.map_append]
      rw [List.map_append] at hfresh hnodup
      refine (List.perm_middle.nodup_iff).2 (List.nodup_cons.2 ⟨?_, hnodup⟩)
      rw [a.step_key]
      exact hfresh

theorem Marked.next_attempt (h : sc.Marked) (i : Nat) : (sc.next s (.attempt i)).Marked := by
  rcases sc.next_attempt_cases s i with ⟨a, ha, -, hn⟩ | hn
  · rw [hn]
    cases ho : a.isOver with
    | false => exact h.stepped ha ho
    | true =>
      obtain ⟨before, after, hsplit, -, hset⟩ := exists_around ha
      rw [a.step_of_isOver s sc.world ho, hset a, ← hsplit]
      exact h
  · rw [hn]
    exact h

/-- Every turn that orphans no attempt keeps the invariant. -/
theorem Marked.next (h : sc.Marked) (m : Move) (ho : ¬ sc.Orphans s m) : (sc.next s m).Marked := by
  cases m with
  | trigger t => exact h.next_trigger t ho
  | attempt i => exact h.next_attempt i
  | others w => exact h.next_others w

theorem Marked.run (h : sc.Marked) {moves : List Move} (hs : sc.Spares s moves) :
    (sc.run s moves).Marked := by
  induction moves generalizing sc with
  | nil => exact h
  | cons m moves ih => exact ih (h.next m hs.1) hs.2

end Scene

/-! ## Relaunches -/

/-- A cycle launches an attempt for a workload that is stored under control with another count than
its target, if it can read everything, no attempt is registered, and no quota counts the change. -/
theorem Cycle.ofItem_launches {s : Settings} {w : World} {x : Workload} {state : State}
    {target : Target} (hk : s.enabledKinds.contains x.kind = true)
    (hres : NamespaceState.resolve w x.key.ns = (.ok state, w))
    (hf : w.fetch x.id = (.ok x, w)) (ht : targetOf x state = .ok (some target))
    (hne : x.spec ≠ target.replicas) (hr : w.registry.get? x.key = none)
    (hq : Quota.batchNeed [(x, target.replicas)] = none) :
    launchesOf (ofItem s w x.id).1 = [(x, target)] := by
  have hi : w.registry.isInFlight x.key = false := by rw [Registry.isInFlight, hr]; rfl
  have hfail : w.registry.isFailed x.key = false := by rw [Registry.isFailed, hr]; rfl
  have hrev : revise w x target = (none, w) := by simp [revise, hi, hfail]
  have hall : assessAll w state [x] = (([], [(x, target)]), w) := by
    simp [assessAll, assess, ht, hrev, hne]
  have hclaim : w.registry.claim x target.replicas =
      (.claimed, w.registry.insert x.key (Registry.started x target.replicas)) := by
    simp [Registry.claim, hr]
  have hbatch : (settleBatch w x.key.ns [(x, target)]).1.2 = [(x, target)] := by
    simp [settleBatch, hq, World.admission, launchAll, hclaim]
  have hk' : s.enabledKinds.contains x.id.kind = true := hk
  have hres' : NamespaceState.resolve w x.id.key.ns = (.ok state, w) := hres
  simp only [ofItem, hk', hres', hf, ofWorkloads, hall, if_true]
  exact hbatch

namespace Scene

variable {s : Settings} {sc : Scene}

/-- A turn that orphans an attempt can be followed by turns that orphan none and lead to a second
attempt for its key: someone creates the workload again, and a cycle runs for it. -/
theorem exists_not_exclusive {m : Move} (h : sc.Orphans s m) :
    ∃ more, (sc.next s m).Spares s more ∧ ¬ ((sc.next s m).run s more).Exclusive := by
  obtain ⟨id, rfl, hr, hmiss, a, ha, hk⟩ := h
  have hnext : sc.next s (.trigger (.item id)) =
      { sc with world := (Trigger.item id |>.fire s sc.world).2 } := by
    rw [next_trigger hr, Trigger.fire, hmiss.ofItem.1]
    simp
  have hreg : (Trigger.item id |>.fire s sc.world).2.registry.get? id.key = none := by
    rw [Trigger.fire, hmiss.ofItem.2]
    exact Table.get?_erase_self _ id.key
  rw [hnext]
  generalize (Trigger.item id |>.fire s sc.world).2 = w at hreg ⊢
  let x := Workload.sample id "1"
  have hothers : next s { sc with world := w } (.others (.holding [x])) =
      { sc with world := w.changedTo (.holding [x]) } :=
    next_others (isAtRest_withWorld hr w) _
  have hres := w.resolve_holding [x] id.key.ns
  have hfetch : (w.changedTo (.holding [x])).fetch id = _ := w.fetch_holding x
  have hl : Cycle.launchesOf (Cycle.ofItem s (w.changedTo (.holding [x])) id).1 =
      [(x, ⟨"up", 1⟩)] :=
    Cycle.ofItem_launches (x := x) hmiss.1 hres hfetch (Workload.targetOf_sample id)
      (show (0 : Int) ≠ 1 by decide) hreg rfl
  refine ⟨[.others (.holding [x]), .trigger (.item id)], ⟨?_, ?_, trivial⟩, ?_⟩
  · rintro ⟨_, hm, -⟩
    cases hm
  · rw [hothers]
    rintro ⟨_, hm, -, ⟨-, _, _, -, hgone⟩, -⟩
    cases hm
    rw [hres, hfetch] at hgone
    cases hgone
  · rw [run_cons, run_cons, run_nil, hothers,
      next_trigger (isAtRest_withWorld hr _), Trigger.fire, hl,
      Exclusive, running_launched, List.map_append]
    intro hnodup
    have hsame : id.key ∈ ([(x, ⟨"up", 1⟩)].map fun l : Launch =>
        Attempt.launch l.1 l.2).map Attempt.key := List.mem_singleton.2 rfl
    exact (List.nodup_append.1 hnodup).2.2 a.key (List.mem_map_of_mem ha) id.key hsame hk

/-- **As long as no turn orphans an attempt, no two unfinished attempts have one key; and a turn
keeps this so, whatever follows, if and only if it orphans no attempt.** -/
theorem exclusive_iff_not_orphans (s : Settings) (w : World) (moves : List Move)
    (h : (idle w).Spares s moves) :
    ((idle w).run s moves).Exclusive ∧
      ∀ m, (∀ more, (((idle w).run s moves).next s m).Spares s more →
          ((((idle w).run s moves).next s m).run s more).Exclusive) ↔
        ¬ ((idle w).run s moves).Orphans s m := by
  have hmarked := (marked_idle w).run h
  refine ⟨hmarked.exclusive, fun m => ⟨fun hall ho => ?_, fun ho more hmore => ?_⟩⟩
  · obtain ⟨more, hspares, hnot⟩ := exists_not_exclusive ho
    exact hnot (hall more hspares)
  · exact ((hmarked.next m ho).run hmore).exclusive

/-- One attempt waits for readiness while its workload is deleted. -/
theorem exclusive_iff_not_orphans_waiting :
    let x : Workload := { Workload.sample ⟨.deployment, "shop", "api"⟩ "3" with spec := 1 }
    let moves : List Move := [.trigger (.cycle "shop"), .attempt 0, .attempt 0, .attempt 0,
      .others (.holding [])]
    (idle (.holding [x])).Spares (.standard .step) moves ∧
      ((idle (.holding [x])).run (.standard .step) moves).Exclusive := by
  intro x moves
  have hs : (idle (.holding [x])).Spares (.standard .step) moves := by
    simp [moves, Spares, Orphans]
  exact ⟨hs, (exclusive_iff_not_orphans (.standard .step) (.holding [x]) moves hs).1⟩

/-- A workload that is deleted, looked at and created again while its attempt waits for readiness
gets a second attempt. -/
theorem not_exclusive_created_again :
    let x : Workload := { Workload.sample ⟨.deployment, "shop", "api"⟩ "3" with spec := 1 }
    ¬ ((idle (.holding [x])).run (.standard .step)
      [.trigger (.cycle "shop"), .attempt 0, .attempt 0, .attempt 0, .others (.holding []),
        .trigger (.item x.id), .others (.holding [x]), .trigger (.cycle "shop")]).Exclusive := by
  unfold Exclusive
  decide +kernel

end Scene

end ReplicaControl
