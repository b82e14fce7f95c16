import ReplicaControl.Proofs.AttemptStep
import ReplicaControl.Proofs.Plan
import ReplicaControl.Proofs.ReadBack
import ReplicaControl.Proofs.Sample

/-!
# Ranges

Counts, deadlines and versions are numbers of fixed width, and stay so.

* `IsCount.oneToward` — one replica towards another count is a count.
* `World.IsTyped`, `Attempt.IsTyped` — all numbers that a world and an attempt hold are in the
  ranges of their types; `Reaction.IsTyped`: what others do after a write keeps them there.
* `Attempt.step_isTyped`, `Plan.isTyped` — what one step and one trigger compute is in range.
* `Scene.IsTyped.run` — so is everything that a run computes, if others write numbers in range only.
-/

namespace ReplicaControl

/-- One replica from a count towards another one is a count. -/
theorem IsCount.oneToward {current desired : Int} (hc : IsCount current) (hd : IsCount desired)
    (hne : current ≠ desired) : IsCount (oneToward current desired) := by
  unfold IsCount at *
  unfold ReplicaControl.oneToward
  split <;> omega

namespace ReplicaMap

/-- The counts that are read out of annotations are counts. -/
theorem isCount_of_readEntries {entries : List (String × String)} {counts : List (String × Int)}
    (h : readEntries entries = .ok counts) : ∀ c ∈ counts, IsCount c.2 := by
  induction entries generalizing counts with
  | nil =>
    cases h
    exact fun c hc => nomatch hc
  | cons entry rest ih =>
    obtain ⟨key, value⟩ := entry
    unfold readEntries at h
    split at h
    · exact ih h
    · split at h
      · cases h
      · rename_i n hn
        cases hrest : readEntries rest with
        | error e =>
          rw [hrest] at h
          cases h
        | ok counts' =>
          rw [hrest] at h
          cases h
          intro c hc
          rcases List.mem_cons.1 hc with rfl | hc
          · unfold readCount? at hn
            split at hn
            · split at hn
              · rename_i hrange
                cases hn
                unfold IsCount
                omega
              · cases hn
            · cases hn
          · exact ih hrest c hc

end ReplicaMap

/-- The targets of workloads are counts. -/
theorem Workload.isCount_of_targetFor {x : Workload} {state : State} {target : Target}
    (h : x.targetFor state = .ok target) : IsCount target.replicas := by
  unfold targetFor ReplicaMap.ofAnnotations at h
  cases hc : ReplicaMap.readEntries x.annotations.entries with
  | error e =>
    rw [hc] at h
    cases h
  | ok counts =>
    rw [hc] at h
    dsimp only [Except.map] at h
    split at h
    · rename_i t ht
      cases h
      obtain ⟨n, hn, rfl⟩ := Option.map_eq_some_iff.1 ht
      exact ReplicaMap.isCount_of_readEntries hc _ (Table.mem_of_get?_ofList hn)
    · cases h

namespace Registry

/-- Every entry holds numbers in range. -/
def IsTyped (r : Registry) : Prop := ∀ key e, r.get? key = some e → e.IsTyped

variable {r : Registry}

theorem IsTyped.insert (h : r.IsTyped) (key : Key) {e : Workload} (he : e.IsTyped) :
    IsTyped (r.insert key e) := by
  intro other x hx
  rw [Table.get?_insert] at hx
  split at hx
  · cases hx
    exact he
  · exact h other x hx

theorem IsTyped.erase (h : r.IsTyped) (key : Key) : IsTyped (r.erase key) := by
  intro other x hx
  by_cases hk : other = key
  · subst hk
    simp at hx
  · rw [Table.get?_erase_of_ne _ hk] at hx
    exact h other x hx

theorem IsTyped.adjust (h : r.IsTyped) (key : Key) {f : Workload → Workload}
    (hf : ∀ e, e.IsTyped → (f e).IsTyped) : IsTyped (r.adjust key f) := by
  intro other x hx
  rw [Table.get?_adjust] at hx
  split at hx
  · obtain ⟨e, he, rfl⟩ := Option.map_eq_some_iff.1 hx
    exact hf e (h key e he)
  · exact h other x hx

theorem IsTyped.retarget (h : r.IsTyped) (key : Key) {n : Int} (hn : IsCount n) :
    (r.retarget key n).IsTyped :=
  h.adjust key fun _ he => { he with desired := hn }

theorem IsTyped.upsert (h : r.IsTyped) {x : Workload} (hx : x.IsTyped) (failure : Bool)
    (message : String) {n : Int} (hn : IsCount n) : (r.upsert x failure message n).IsTyped :=
  h.insert x.key { hx with desired := hn }

theorem IsTyped.claim (h : r.IsTyped) {x : Workload} (hx : x.IsTyped) {n : Int} (hn : IsCount n) :
    (r.claim x n).2.IsTyped := by
  rcases r.claim_cases x n with ⟨-, hc⟩ | ⟨-, -, hc⟩ | ⟨-, -, hc⟩
  · rw [hc]
    exact h.retarget x.key hn
  · rw [hc]
    exact h.retarget x.key hn
  · rw [hc]
    exact h.insert x.key { hx with desired := hn }

theorem IsTyped.settle (h : r.IsTyped) (key : Key) (n : Int) : (r.settle key n).2.IsTyped := by
  unfold Registry.settle
  split
  · split
    · exact h.erase key
    · exact h.adjust key fun _ he => ⟨he.1, he.2, he.3, he.4, he.5⟩
  · exact h

theorem IsTyped.release (h : r.IsTyped) (key : Key) : (r.release key).IsTyped := by
  unfold Registry.release
  split
  · split
    · exact h.adjust key fun _ he => ⟨he.1, he.2, he.3, he.4, he.5⟩
    · exact h.erase key
  · exact h

end Registry

/-- The marks of a workload are no numbers. -/
theorem Workload.IsTyped.remarked {x : Workload} (h : x.IsTyped) {failure scaling : Bool}
    {message : String} :
    IsTyped { x with failure, failureMessage := message, scaling } :=
  ⟨h.spec, h.ready, h.desired, h.deadline, h.version⟩

/-! ## Worlds -/

/-- Others write numbers in range only. -/
def Reaction.IsTyped : Reaction → Prop
  | .change (.put x) => x.IsTyped
  | .change (.setReady _ ready) => IsCount ready
  | .change _ => True
  | .claimWritten desired => IsCount desired

/-- Every number in a world is in range, and stays so whatever happens after a write. -/
structure World.IsTyped (w : World) : Prop where
  inventory : ∀ id x, w.cluster.inventory.get? id = some x → x.IsTyped
  registry : w.registry.IsTyped
  rules : ∀ rule ∈ w.rules, ∀ r ∈ rule.reactions, r.IsTyped

namespace World.IsTyped

variable {w w' : World}

theorem quiet (h : w.IsTyped) (hq : w.Quiet w') : w'.IsTyped where
  inventory := hq.inventory ▸ h.inventory
  registry := hq.registry ▸ h.registry
  rules := hq.rules ▸ h.rules

theorem withRegistry (h : w.IsTyped) {r : Registry} (hr : r.IsTyped) :
    IsTyped { w with registry := r } where
  inventory := h.inventory
  registry := hr
  rules := h.rules

theorem emit (h : w.IsTyped) (e : Event) : (w.emit e).IsTyped :=
  ⟨h.inventory, h.registry, h.rules⟩

/-- A workload in range takes the place of another one. -/
theorem put (h : w.IsTyped) {x : Workload} (hx : x.IsTyped) {c : Cluster}
    (hc : c.inventory = w.cluster.inventory.put x) : IsTyped { w with cluster := c } where
  inventory id y hy := by
    rw [hc, Inventory.get?_put] at hy
    split at hy
    · cases hy
      exact hx
    · exact h.inventory id y hy
  registry := h.registry
  rules := h.rules

theorem change (h : w.IsTyped) {d : Change} (hd : (Reaction.change d).IsTyped) :
    IsTyped { w with cluster := w.cluster.apply d } := by
  have adjusted : ∀ id f keeps, (∀ x : Workload, x.IsTyped → (f x).IsTyped) →
      ∀ id' y, (w.cluster.inventory.adjust id f keeps).get? id' = some y → y.IsTyped := by
    intro id f keeps hf id' y hy
    rw [Inventory.get?_adjust] at hy
    split at hy
    · obtain ⟨x, hx, rfl⟩ := Option.map_eq_some_iff.1 hy
      exact hf x (h.inventory id x hx)
    · exact h.inventory id' y hy
  cases d with
  | put x => exact h.put hd rfl
  | delete id =>
    refine ⟨fun id' y hy => ?_, h.registry, h.rules⟩
    have hy : (w.cluster.inventory.erase id).get? id' = some y := hy
    rw [Inventory.get?_erase] at hy
    split at hy
    · cases hy
    · exact h.inventory id' y hy
  | setReady id ready =>
    refine ⟨fun id' y hy => adjusted id _ (by exact fun _ => rfl) ?_ id' y hy, h.registry, h.rules⟩
    exact fun _ hx => { hx with ready := hd }
  | setCondition id reason =>
    refine ⟨fun id' y hy => adjusted id _ (by exact fun _ => rfl) ?_ id' y hy, h.registry, h.rules⟩
    exact fun _ hx => ⟨hx.1, hx.2, hx.3, hx.4, hx.5⟩
  | optIn id value =>
    refine ⟨fun id' y hy => adjusted id _ (by exact fun _ => rfl) ?_ id' y hy, h.registry, h.rules⟩
    exact fun _ hx => ⟨hx.1, hx.2, hx.3, hx.4, hx.5⟩
  | setDefinitions => exact ⟨h.inventory, h.registry, h.rules⟩
  | setClusterStates => exact ⟨h.inventory, h.registry, h.rules⟩
  | setNamespaceStates => exact ⟨h.inventory, h.registry, h.rules⟩
  | setQuota => exact ⟨h.inventory, h.registry, h.rules⟩
  | setAutoReady => exact ⟨h.inventory, h.registry, h.rules⟩
  | injectConflicts => exact ⟨h.inventory, h.registry, h.rules⟩

theorem afterWrite (h : w.IsTyped) {x : Workload} (hx : x.IsTyped) : (w.afterWrite x).IsTyped := by
  refine (afterWrite_induction_of_mem (fun v => v.IsTyped ∧ v.rules = w.rules) ⟨h, rfl⟩ ?_).1
  rintro v rule hrule r hr ⟨hv, hrules⟩
  have hreaction := h.rules rule hrule r hr
  refine ⟨?_, ?_⟩
  · cases r with
    | change d => exact hv.change hreaction
    | claimWritten n => exact hv.withRegistry (hv.registry.claim hx hreaction)
  · cases r <;> exact hrules

/-- A write of a count leaves numbers in range, whatever comes of it. -/
theorem write (h : w.IsTyped) {live : Workload} {n : Int} {r : WriteResult} {c : Cluster}
    (hn : IsCount n) (hw : w.cluster.write { live with spec := n } = (r, c)) :
    IsTyped { w with cluster := c } ∧ ∀ new, r = .stored new → new.IsTyped := by
  have counted : ∀ {old : Workload}, old.IsTyped → (w.cluster.withCount old n).IsTyped := by
    intro old hold
    refine { hold with spec := hn, ready := ?_ }
    show IsCount (if w.cluster.autoReady then n else old.ready)
    split
    · exact hn
    · exact hold.ready
  rcases w.cluster.write_cases { live with spec := n } with
    ⟨e, k, heq⟩ | ⟨old, -, hold, -, hbound, heq⟩ | ⟨old, -, hold, -, -, heq⟩
  all_goals
    rw [hw] at heq
    cases heq
  · exact ⟨⟨h.inventory, h.registry, h.rules⟩, fun new hnew => by cases hnew⟩
  · have hnew : Workload.IsTyped { w.cluster.withCount old n with version := old.version + 1 } :=
      { counted (h.inventory _ old hold) with version := hbound }
    refine ⟨h.put hnew rfl, fun new heq => ?_⟩
    cases heq
    exact hnew
  · exact ⟨h.put (counted (h.inventory _ old hold)) rfl, fun new hnew => by cases hnew⟩

end World.IsTyped

/-- A world that refuses nothing is in range if its workloads are. -/
theorem World.isTyped_holding {xs : List Workload} (h : ∀ x ∈ xs, x.IsTyped) :
    (holding xs).IsTyped where
  inventory := by
    refine List.foldlRecOn (motive := fun inv : Inventory =>
      ∀ id x, inv.get? id = some x → x.IsTyped) xs Inventory.put (fun _ _ h => nomatch h) ?_
    intro inv hinv y hy id x hx
    rw [Inventory.get?_put] at hx
    split at hx
    · cases hx
      exact h y hy
    · exact hinv id x hx
  registry := fun _ _ h => nomatch h
  rules := fun _ h => nomatch h

/-- A trigger computes counts, for workloads in range. -/
theorem Trigger.Computes.isTyped {s : Settings} {w : World} {t : Trigger} {x : Workload}
    {target : Target} (h : t.Computes s w x target) (hw : w.IsTyped) :
    x.IsTyped ∧ IsCount target.replicas := by
  obtain ⟨hget, -, ⟨state, -, htarget⟩, -⟩ := h
  exact ⟨hw.inventory x.id x hget, Workload.isCount_of_targetFor htarget⟩

/-- **What a trigger files and launches is in range.** -/
theorem Plan.isTyped {P : Workload → Target → Prop} {r r' : Registry} {launches : List Launch}
    (h : Plan P r launches r') (hP : ∀ x t, P x t → x.IsTyped ∧ IsCount t.replicas)
    (hr : r.IsTyped) : r'.IsTyped ∧ ∀ l ∈ launches, l.1.IsTyped ∧ IsCount l.2.replicas := by
  induction h with
  | done r => exact ⟨hr, fun l hl => nomatch hl⟩
  | revise hp _ _ ih => exact ih (hr.retarget _ (hP _ _ hp).2)
  | claim hp _ _ _ _ ih =>
    obtain ⟨hitem, htarget⟩ := hP _ _ hp
    obtain ⟨hr', hl⟩ := ih (hr.insert _ { hitem with desired := htarget })
    exact ⟨hr', List.forall_mem_cons.2 ⟨⟨hitem, htarget⟩, hl⟩⟩
  | retry hp he _ _ _ _ ih =>
    obtain ⟨hlive, htarget⟩ := hP _ _ hp
    obtain ⟨hr', hl⟩ := ih (hr.upsert (hr _ _ he).remarked true _ htarget)
    exact ⟨hr', List.forall_mem_cons.2 ⟨⟨hlive.remarked, htarget⟩, hl⟩⟩
  | note _ _ _ _ ih => exact ih (hr.adjust _ fun _ he => ⟨he.1, he.2, he.3, he.4, he.5⟩)
  | drop _ _ _ _ ih => exact ih (hr.erase _)

/-! ## Attempts -/

/-- The counts that an attempt goes on with are in range. -/
def Phase.IsTyped : Phase → Prop
  | .polling wait => IsCount wait.desired ∧ IsCount wait.step
  | .waiting wait _ => IsCount wait.desired ∧ IsCount wait.step
  | .writing replicas _ => IsCount replicas
  | .backingOff replicas _ _ => IsCount replicas
  | .starting | .deciding | .ended _ | .aborted => True

/-- Every number that an attempt holds is in range. -/
structure Attempt.IsTyped (a : Attempt) : Prop where
  item : a.item.IsTyped
  target : IsCount a.target.replicas
  current : a.current.IsTyped
  phase : a.phase.IsTyped

namespace Attempt

variable {s : Settings} {a : Attempt} {w : World}

theorem launch_isTyped {x : Workload} {target : Target} (hx : x.IsTyped)
    (ht : IsCount target.replicas) : (launch x target).IsTyped where
  item := hx
  target := ht
  current := hx
  phase := trivial

namespace IsTyped

/-- The target in force is a count. -/
theorem desired (h : a.IsTyped) {r : Registry} (hr : r.IsTyped) : IsCount (a.desired r) := by
  unfold Attempt.desired
  split
  · rename_i e he
    exact (hr a.key e he).desired
  · exact h.target

theorem marked (h : a.IsTyped) {r : Registry} (hr : r.IsTyped) : (a.marked r).IsTyped := by
  unfold Attempt.marked
  split
  · exact hr.adjust a.key fun _ he => ⟨he.1, he.2, he.3, he.4, he.5⟩
  · exact hr.upsert h.item.remarked _ _ h.target

theorem recorded (h : a.IsTyped) {r : Registry} (hr : r.IsTyped) (e : Ending) :
    (a.recorded r e).IsTyped := by
  cases e with
  | done o =>
    cases o with
    | unchanged => exact hr.settle a.key a.item.spec
    | scaled n => exact hr.settle a.key n
    | quotaDenied => exact hr.release a.key
    | removed => exact hr.erase a.key
  | failed e =>
    unfold Attempt.recorded
    dsimp only
    split
    · exact hr.adjust a.key fun _ he => ⟨he.1, he.2, he.3, he.4, he.5⟩
    · exact hr.upsert h.item.remarked true _ h.target

theorem conclude (h : a.IsTyped) (hw : w.IsTyped) (e : Ending) :
    (a.conclude w e).1.IsTyped ∧ (a.conclude w e).2.IsTyped := by
  refine ⟨{ h with phase := trivial }, ?_, ?_, ?_⟩
  · rw [conclude_cluster]
    exact hw.inventory
  · rw [conclude_registry]
    exact h.recorded hw.registry e
  · rw [conclude_rules]
    exact hw.rules

theorem polls (h : a.IsTyped) {wait : Wait} (hp : a.Polls w wait) :
    IsCount wait.desired ∧ IsCount wait.step := by
  have hphase := h.phase
  rcases hp with hp | ⟨wake, hp, -⟩ <;> rw [hp] at hphase <;> exact hphase

theorem tries (h : a.IsTyped) {n : Int} {k : Nat} (hp : a.Tries w n k) : IsCount n := by
  have hphase := h.phase
  rcases hp with hp | ⟨wake, hp, -⟩ <;> rw [hp] at hphase <;> exact hphase

end IsTyped

/-- What a poll computes is in range. -/
theorem poll_isTyped (hw : w.IsTyped) {wait : Wait}
    (hwait : IsCount wait.desired ∧ IsCount wait.step) :
    (a.poll s w wait).1.phase.IsTyped := by
  rcases a.poll_phase s w wait with ⟨e, hpoll⟩ | ⟨live, hget, hpoll⟩ | ⟨ticket, wake, hpoll⟩
  · rw [hpoll]
    trivial
  · rw [hpoll]
    split
    · trivial
    · exact (hw.inventory _ _ hget).spec.oneToward hwait.1 ‹_›
  · rw [hpoll]
    exact hwait

/-- **What a step computes is in range.** -/
theorem step_isTyped (h : a.IsTyped) (hw : w.IsTyped) :
    (a.step s w).1.IsTyped ∧ (a.step s w).2.IsTyped := by
  have hmarked := hw.withRegistry (h.marked hw.registry)
  have hupdated : World.IsTyped
      { w with registry := w.registry.update a.key ({ · with scaling := true }) } :=
    hw.withRegistry (hw.registry.adjust a.key fun _ he => ⟨he.1, he.2, he.3, he.4, he.5⟩)
  have hpoll : ∀ wait, a.Polls w wait → (a.step s w).1.phase.IsTyped := by
    intro wait hp
    rw [step_of_polls hp]
    exact poll_isTyped hw (h.polls hp)
  have hc := a.step_case s w
  generalize a.step s w = r at hc hpoll ⊢
  cases hc with
  | idle => exact ⟨h, hw⟩
  | content => exact ⟨{ h with phase := trivial }, hw⟩
  | begun => exact ⟨{ h with phase := trivial }, hmarked⟩
  | unreachable => exact h.conclude hmarked _
  | decided _ hne hn =>
    have hdesired := h.desired hw.registry
    refine ⟨{ h with phase := ?_ }, hupdated⟩
    cases hn with
    | write => exact hdesired
    | wait => exact ⟨hdesired, h.current.spec.oneToward hdesired hne⟩
    | abort => trivial
  | arrived => exact h.conclude hupdated _
  | polled hp hget _ ha =>
    exact ⟨{ h with current := hw.inventory _ _ hget, phase := hpoll _ hp }, hw.quiet ha.quiet⟩
  | slept hp _ hq => exact ⟨{ h with phase := hpoll _ hp }, hw.quiet hq⟩
  | stored hp _ _ _ hwrite ha =>
    obtain ⟨hworld, hnew⟩ := hw.write (h.tries hp) hwrite
    have hnew := hnew _ rfl
    obtain ⟨faults, rfl⟩ := ha
    have hworld : World.IsTyped { w with faults, cluster := _ } :=
      ⟨hworld.inventory, hworld.registry, hworld.rules⟩
    exact ⟨{ h with current := hnew, phase := trivial }, hworld.afterWrite hnew⟩
  | retried hp hq => exact ⟨{ h with phase := h.tries hp }, hw.quiet hq⟩
  | exhausted hp _ hwrite ha =>
    obtain ⟨hworld, -⟩ := hw.write (h.tries hp) hwrite
    obtain ⟨faults, rfl⟩ := ha
    exact ⟨{ h with phase := trivial }, hworld.inventory, hworld.registry, hworld.rules⟩
  | gone _ hq => exact h.conclude (hw.quiet hq) _
  | denied _ hq => exact h.conclude ((hw.quiet hq).emit _) _
  | failed _ hq => exact h.conclude (hw.quiet hq) _

end Attempt

/-! ## Scenes -/

namespace Scene

variable {s : Settings} {sc : Scene}

/-- Every number in a scene is in range. -/
structure IsTyped (sc : Scene) : Prop where
  filed : sc.world.registry.Filed
  world : sc.world.IsTyped
  attempts : ∀ a ∈ sc.attempts, a.IsTyped

theorem isTyped_idle {w : World} (hw : w.IsTyped) : (idle w).IsTyped where
  filed := Registry.filed_empty
  world := hw.withRegistry fun _ _ h => nomatch h
  attempts := fun _ h => nomatch h

theorem IsTyped.next_trigger (h : sc.IsTyped) (t : Trigger) : (sc.next s (.trigger t)).IsTyped := by
  by_cases hr : sc.isAtRest
  · rw [Scene.next_trigger hr]
    have hbooked := t.fire_booked s sc.world
    have fired : ∀ {r : Registry}, r = (t.fire s sc.world).2.registry → r.Filed → r.IsTyped →
        (∀ l ∈ (t.fire s sc.world).1, l.1.IsTyped ∧ IsCount l.2.replicas) →
        IsTyped { world := (t.fire s sc.world).2, attempts := sc.attempts ++
          (t.fire s sc.world).1.map fun l => Attempt.launch l.1 l.2 } := by
      rintro r rfl hfiled hr hl
      obtain ⟨faults, registry, events, hw⟩ := hbooked
      refine ⟨hfiled, ?_, fun a ha => ?_⟩
      · rw [hw] at hr ⊢
        exact ⟨h.world.inventory, hr, h.world.rules⟩
      · rcases List.mem_append.1 ha with ha | ha
        · exact h.attempts a ha
        · obtain ⟨l, hmem, rfl⟩ := List.mem_map.1 ha
          exact Attempt.launch_isTyped (hl l hmem).1 (hl l hmem).2
    rcases t.fire_plan s h.filed with hplan | ⟨id, rfl, -, hnone, hreg⟩
    · obtain ⟨hr, hl⟩ := hplan.isTyped (fun _ _ hc => hc.isTyped h.world) h.world.registry
      exact fired rfl (hplan.filed h.filed) hr hl
    · refine fired hreg.symm (h.filed.erase id.key) (h.world.registry.erase id.key) ?_
      rw [hnone]
      exact fun l hl => nomatch hl
  · simpa [next, hr] using h

theorem IsTyped.next_attempt (h : sc.IsTyped) (i : Nat) : (sc.next s (.attempt i)).IsTyped := by
  rcases sc.next_attempt_cases s i with ⟨a, ha, -, hn⟩ | hn
  · rw [hn]
    obtain ⟨hstep, hworld⟩ :=
      Attempt.step_isTyped (s := s) (h.attempts a (List.mem_of_getElem? ha)) h.world
    refine ⟨a.step_filed s h.filed, hworld, fun b hb => ?_⟩
    rcases List.mem_or_eq_of_mem_set hb with hb | rfl
    · exact h.attempts b hb
    · exact hstep
  · rw [hn]
    exact h

theorem IsTyped.next_others (h : sc.IsTyped) {w : World} (hw : w.IsTyped) :
    (sc.next s (.others w)).IsTyped := by
  by_cases hr : sc.isAtRest
  · rw [Scene.next_others hr]
    exact ⟨h.filed, ⟨hw.inventory, h.world.registry, hw.rules⟩, h.attempts⟩
  · simpa [next, hr] using h

/-- **Everything that a run computes is in range**, if others write numbers in range only. -/
theorem IsTyped.run (h : sc.IsTyped) {moves : List Move}
    (hothers : ∀ w, .others w ∈ moves → w.IsTyped) : (sc.run s moves).IsTyped := by
  induction moves generalizing sc with
  | nil => exact h
  | cons m moves ih =>
    refine ih ?_ fun w hw => hothers w (List.mem_cons_of_mem m hw)
    cases m with
    | trigger t => exact h.next_trigger t
    | attempt i => exact h.next_attempt i
    | others w => exact h.next_others (hothers w List.mem_cons_self)

end Scene

end ReplicaControl
