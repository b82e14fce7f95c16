import ReplicaControl.Proofs.Exclusivity
import ReplicaControl.Proofs.Ownership

/-!
# Entries of the registry are active

An entry is active if it is marked as running or as failed.  An entry that is neither is found by no
sweep, and no attempt is at work on it.

* `Registry.Active` — every entry is active; what each operation makes of that.  Only a settlement
  at another count than the entry's target leaves an inactive entry behind.
* `Attempt.Strands` — the one step that does so: an attempt that has written nothing finds its
  workload at the target in force, but not with the count it had when the attempt was launched.
* `Scene.Tended` — every key that is marked as running has an attempt that has not ended.
* `active_iff_not_strands` — entries are active as long as no turn strands one, which in rapid mode
  no turn does; then the entries that are left over after all attempts are failed ones.
-/

namespace ReplicaControl

/-! ## Active entries -/

namespace Registry

/-- Every entry is marked as running or as failed. -/
def Active (r : Registry) : Prop :=
  ∀ key e, r.get? key = some e → e.scaling = true ∨ e.failure = true

theorem active_empty : Active ∅ := fun _ _ h => nomatch h

theorem Active.insert {r : Registry} (h : r.Active) (key : Key) {e : Workload}
    (he : e.scaling = true ∨ e.failure = true) : Active (r.insert key e) := by
  intro other x hx
  rw [Table.get?_insert] at hx
  split at hx
  · cases hx
    exact he
  · exact h other x hx

theorem Active.erase {r : Registry} (h : r.Active) (key : Key) : Active (r.erase key) := by
  intro other x hx
  by_cases hk : other = key
  · subst hk
    simp at hx
  · rw [Table.get?_erase_of_ne _ hk] at hx
    exact h other x hx

theorem Active.adjust {r : Registry} (h : r.Active) (key : Key) {f : Workload → Workload}
    (hf : ∀ e, r.get? key = some e → (f e).scaling = true ∨ (f e).failure = true) :
    Active (r.adjust key f) := by
  intro other x hx
  rw [Table.get?_adjust] at hx
  split at hx
  · obtain ⟨e, he, rfl⟩ := Option.map_eq_some_iff.1 hx
    exact hf e he
  · exact h other x hx

theorem Active.retarget {r : Registry} (h : r.Active) (key : Key) (desired : Int) :
    (r.retarget key desired).Active :=
  h.adjust key fun e he => h key e he

theorem Active.claim {r : Registry} (h : r.Active) (w : Workload) (desired : Int) :
    (r.claim w desired).2.Active := by
  rcases r.claim_cases w desired with ⟨-, hc⟩ | ⟨-, -, hc⟩ | ⟨-, -, hc⟩
  · rw [hc]
    exact h.retarget w.key desired
  · rw [hc]
    exact h.retarget w.key desired
  · rw [hc]
    exact h.insert w.key (.inl rfl)

/-- A released entry stays only if it is failed. -/
theorem Active.release {r : Registry} (h : r.Active) (key : Key) : (r.release key).Active := by
  unfold Registry.release
  split
  · rename_i e he
    split
    · rename_i hf
      refine h.adjust key fun x hx => .inr ?_
      obtain rfl := Option.some.inj (he.symm.trans hx)
      exact hf
    · exact h.erase key
  · exact h

/-- A settlement at the target of the entry, if there is one, drops the entry. -/
theorem settle_of_target? {r : Registry} {key : Key} {n : Int}
    (h : ∀ m, r.target? key = some m → m = n) : (r.settle key n).2 = r.erase key := by
  unfold settle
  unfold target? at h
  cases hg : r.get? key with
  | some e => simp [h e.desired (by rw [hg]; rfl)]
  | none =>
    refine Table.ext_get? fun other => ?_
    by_cases hk : other = key
    · subst hk
      simp [hg]
    · rw [Table.get?_erase_of_ne _ hk]

/-- A settlement at another count clears the marks of the entry. -/
theorem get?_settle_of_target? {r : Registry} {key : Key} {n m : Int}
    (h : r.target? key = some m) (hne : m ≠ n) :
    ∃ e, (r.settle key n).2.get? key = some e ∧ e.scaling = false ∧ e.failure = false := by
  obtain ⟨e, he, rfl⟩ := Option.map_eq_some_iff.1 h
  refine ⟨{ e with failure := false, failureMessage := "", scaling := false }, ?_, rfl, rfl⟩
  simp [settle, he, hne, Table.get?_adjust]

end Registry

/-- **A plan leaves active entries only.** -/
theorem Plan.active {P : Workload → Target → Prop} {r r' : Registry} {launches : List Launch}
    (h : Plan P r launches r') (hr : r.Active) : r'.Active := by
  induction h with
  | done r => exact hr
  | revise _ _ _ ih => exact ih (hr.retarget _ _)
  | claim _ _ _ _ _ ih => exact ih (hr.insert _ (.inl rfl))
  | retry _ _ _ _ _ _ ih => exact ih (hr.insert _ (.inl rfl))
  | note he hf _ _ ih =>
    refine ih (hr.adjust _ fun x hx => .inr ?_)
    obtain rfl := Option.some.inj (he.symm.trans hx)
    exact hf
  | drop _ _ _ _ ih => exact ih (hr.erase _)

/-- A key that is marked after a plan was marked before, or an attempt was launched for it. -/
theorem Plan.isInFlight {P : Workload → Target → Prop} {r r' : Registry} {launches : List Launch}
    (h : Plan P r launches r') {key : Key} (hkey : r'.isInFlight key = true) :
    r.isInFlight key = true ∨ ∃ l ∈ launches, l.1.key = key := by
  induction h with
  | done r => exact .inl hkey
  | revise _ _ _ ih =>
    rcases ih hkey with h | h
    · rw [Registry.isInFlight_retarget] at h
      exact .inl h
    · exact .inr h
  | @claim _ _ item target _ _ _ _ _ _ ih =>
    rcases ih hkey with h | ⟨l, hl, hk⟩
    · rw [Registry.isInFlight_insert] at h
      split at h
      · exact .inr ⟨_, List.mem_cons_self, Eq.symm ‹_›⟩
      · exact .inl h
    · exact .inr ⟨l, List.mem_cons_of_mem _ hl, hk⟩
  | @retry _ _ entry live target _ _ _ _ _ hid _ ih =>
    rcases ih hkey with h | ⟨l, hl, hk⟩
    · rw [Registry.isInFlight_upsert] at h
      split at h
      · exact .inr ⟨_, List.mem_cons_self,
          (congrArg WorkloadId.key hid).trans (Eq.symm ‹_›)⟩
      · exact .inl h
    · exact .inr ⟨l, List.mem_cons_of_mem _ hl, hk⟩
  | @note _ _ entry _ _ he _ hs _ ih =>
    rcases ih hkey with h | h
    · rw [Registry.isInFlight_update] at h
      split at h
      · rw [he] at h
        simp [hs] at h
      · exact .inl h
    · exact .inr h
  | drop _ _ _ _ ih =>
    rcases ih hkey with h | h
    · rw [Registry.isInFlight_erase] at h
      split at h
      · cases h
      · exact .inl h
    · exact .inr h

/-! ## Steps of attempts -/

namespace Attempt

variable {s : Settings} {a : Attempt} {w : World}

/-- The attempt has written nothing and finds its workload at the target that the registry holds,
but not with the count it had when the attempt was launched. -/
def Strands (a : Attempt) (w : World) : Prop :=
  a.phase = .deciding ∧ a.written = false ∧ w.registry.target? a.key = some a.current.spec ∧
    a.item.spec ≠ a.current.spec

instance (a : Attempt) (w : World) : Decidable (a.Strands w) :=
  inferInstanceAs (Decidable (_ ∧ _ ∧ _ ∧ _))

/-- An attempt that ends takes its mark away. -/
theorem recorded_isInFlight (a : Attempt) (r : Registry) (e : Ending) :
    (a.recorded r e).isInFlight a.key = false := by
  have settled : ∀ n, (r.settle a.key n).2.isInFlight a.key = false := by
    intro n
    unfold Registry.isInFlight
    by_cases h : ∀ m, r.target? a.key = some m → m = n
    · simp [Registry.settle_of_target? h]
    · push Not at h
      obtain ⟨m, hm, hne⟩ := h
      obtain ⟨e, he, hs, -⟩ := Registry.get?_settle_of_target? hm hne
      simp [he, hs]
  cases e with
  | done o =>
    cases o with
    | unchanged => exact settled a.item.spec
    | scaled n => exact settled n
    | quotaDenied =>
      simp only [recorded, Registry.release]
      split
      · split <;> simp [Registry.isInFlight, Table.get?_adjust, *]
      · simp [Registry.isInFlight, *]
    | removed => simp [recorded, Registry.isInFlight]
  | failed e =>
    simp only [recorded]
    split
    · rw [Registry.isInFlight_update, if_pos rfl]
      simp
    · rw [Registry.isInFlight_upsert, if_pos (show a.key = a.item.key from rfl)]

theorem step_ending?_of_some {e : Ending} (h : a.ending? = some e) : a.step s w = (a, w) := by
  refine a.step_of_isOver s w ?_
  unfold ending? at h
  unfold isOver
  split at h
  · rename_i hp
    rw [hp]
  · cases h

theorem ending?_of_ne_ended (h : ∀ e, a.phase ≠ .ended e) : a.ending? = none := by
  unfold ending?
  split
  · exact absurd ‹_› (h _)
  · rfl

/-- With the step that ends an attempt its key is no longer marked as running. -/
theorem step_unmarks (h : a.ending? = none) (he : (a.step s w).1.ending? ≠ none) :
    (a.step s w).2.registry.isInFlight a.key = false := by
  have hc := a.step_case s w
  generalize a.step s w = r at hc he ⊢
  cases hc with
  | idle => exact absurd h he
  | content _ _ hr => simp [Registry.isInFlight, hr]
  | begun => exact absurd rfl he
  | unreachable => rw [fail, conclude_registry]; exact a.recorded_isInFlight _ _
  | decided _ _ hn => cases hn <;> exact absurd rfl he
  | arrived => rw [conclude_registry]; exact a.recorded_isInFlight _ _
  | polled => exact absurd (ending?_of_ne_ended (by dsimp only; split <;> simp)) he
  | slept => exact absurd rfl he
  | stored => exact absurd rfl he
  | retried => exact absurd rfl he
  | exhausted => exact absurd rfl he
  | gone => rw [conclude_registry]; exact a.recorded_isInFlight _ _
  | denied => rw [conclude_registry]; exact a.recorded_isInFlight _ _
  | failed => rw [fail, conclude_registry]; exact a.recorded_isInFlight _ _

theorem marked_active {r : Registry} (h : r.Active) : (a.marked r).Active := by
  unfold marked
  split
  · exact h.adjust a.key fun _ _ => .inl rfl
  · exact h.insert _ (.inl rfl)

/-- A target in force that is not the registry's is the attempt's own, and there is no entry. -/
theorem target?_of_desired {r : Registry} {n : Int} (h : n = a.desired r) :
    ∀ m, r.target? a.key = some m → m = n := by
  intro m hm
  rw [h, desired_eq, hm]
  rfl

/-- An attempt whose workload is at the target in force drops the entry, unless it strands it. -/
theorem recorded_of_arrived (hp : a.phase = .deciding)
    (heq : a.current.spec = a.desired w.registry) (hs : ¬ a.Strands w) :
    a.recorded (w.registry.update a.key ({ · with scaling := true }))
        (.done (if a.written then .scaled a.current.spec else .unchanged)) =
      (w.registry.update a.key ({ · with scaling := true })).erase a.key := by
  have htarget := target?_of_desired heq
  rw [← w.registry.target?_update a.key a.key ({ · with scaling := true })] at htarget
  cases hw : a.written with
  | true => exact Registry.settle_of_target? htarget
  | false =>
    refine Registry.settle_of_target? fun m hm => ?_
    obtain rfl := htarget m hm
    rw [Registry.target?_update] at hm
    exact Decidable.not_not.1 fun hne => hs ⟨hp, hw, hm, Ne.symm hne⟩

/-- A step that strands nothing leaves active entries only. -/
theorem step_active (h : w.registry.Active) (hs : ¬ a.Strands w) :
    (a.step s w).2.registry.Active := by
  have hc := a.step_case s w
  generalize a.step s w = r at hc ⊢
  have remarked : (w.registry.update a.key ({ · with scaling := true })).Active :=
    h.adjust a.key fun _ _ => .inl rfl
  have failed : ∀ {r : Registry}, r.Active → ∀ e, (a.recorded r (.failed e)).Active := by
    intro r hr e
    simp only [recorded]
    split
    · exact hr.adjust a.key fun _ _ => .inr rfl
    · exact hr.insert _ (.inr rfl)
  cases hc with
  | idle => exact h
  | content => exact h
  | begun => exact marked_active h
  | unreachable => rw [fail, conclude_registry]; exact failed (marked_active h) _
  | decided => exact remarked
  | arrived hp heq =>
    rw [conclude_registry, recorded_of_arrived hp heq hs]
    exact remarked.erase a.key
  | polled _ _ _ ha => rw [ha.registry]; exact h
  | slept _ _ hq => rw [hq.registry]; exact h
  | stored _ _ _ _ _ ha =>
    refine World.afterWrite_induction (fun v => v.registry.Active) ?_ ?_
    · exact ha.registry ▸ h
    · intro v r hv
      cases r with
      | change d => exact hv
      | claimWritten d => exact hv.claim _ d
  | retried _ hq => rw [hq.registry]; exact h
  | exhausted _ _ _ ha => exact ha.registry ▸ h
  | gone _ hq => rw [conclude_registry, hq.registry]; exact h.erase a.key
  | denied _ hq =>
    rw [conclude_registry]
    exact Registry.Active.release (show Registry.Active (World.registry _) from hq.registry ▸ h) _
  | failed _ hq => rw [fail, conclude_registry, hq.registry]; exact failed h _

/-- **A step that strands an entry leaves it without any mark.** -/
theorem Strands.step (h : a.Strands w) :
    ∃ e, (a.step s w).2.registry.get? a.key = some e ∧ e.scaling = false ∧ e.failure = false := by
  obtain ⟨hp, hw, ht, hne⟩ := h
  have heq : a.current.spec = a.desired w.registry := by
    rw [desired_eq, ht]
    rfl
  have hstep : a.step s w =
      a.conclude { w with registry := w.registry.update a.key ({ · with scaling := true }) }
        (.done .unchanged) := by
    simp [Attempt.step, hp, decide, ← heq, hw]
  rw [hstep, conclude_registry]
  rw [← w.registry.target?_update a.key a.key ({ · with scaling := true })] at ht
  exact Registry.get?_settle_of_target? ht hne.symm

/-- An attempt that ends, and not with a failure or the refusal of a quota, leaves no entry behind
unless it strands it. -/
theorem get?_step_of_done (hn : a.ending? = none) {o : Outcome} (ho : o ≠ .quotaDenied)
    (h : (a.step s w).1.ending? = some (.done o)) (hs : ¬ a.Strands w) :
    (a.step s w).2.registry.get? a.key = none := by
  have hc := a.step_case s w
  generalize a.step s w = r at hc h ⊢
  cases hc with
  | idle => rw [hn] at h; cases h
  | content _ _ hr => exact hr
  | begun => cases h
  | unreachable => cases h
  | decided _ _ hd => cases hd <;> cases h
  | arrived hp heq =>
    rw [conclude_registry, recorded_of_arrived hp heq hs]
    exact Table.get?_erase_self _ _
  | polled =>
    rw [ending?_of_ne_ended (by dsimp only; split <;> simp)] at h
    cases h
  | slept => cases h
  | stored => cases h
  | retried => cases h
  | exhausted => cases h
  | gone =>
    rw [conclude_registry]
    exact Table.get?_erase_self _ _
  | denied => cases h; exact absurd rfl ho
  | failed => cases h

/-- An attempt that has written nothing and does not wait does not look at its workload again. -/
theorem step_current (hwaits : ¬ a.Waits) (h : a.written = false → a.current = a.item) :
    (a.step s w).1.written = false → (a.step s w).1.current = (a.step s w).1.item := by
  have hc := a.step_case s w
  generalize a.step s w = r at hc ⊢
  cases hc with
  | polled hp => exact absurd hp.waits hwaits
  | slept hp => exact absurd hp.waits hwaits
  | stored => exact nofun
  | idle | content | begun | unreachable | decided | arrived | retried | exhausted | gone | denied
  | failed => exact h

end Attempt

/-! ## Runs -/

namespace Scene

variable {s : Settings} {sc : Scene}

/-- A turn strands the entry of an attempt. -/
def Strands (sc : Scene) (m : Move) : Prop :=
  ∃ i a, m = .attempt i ∧ sc.attempts[i]? = some a ∧ sc.isFreeFor i = true ∧ a.Strands sc.world

instance (sc : Scene) (m : Move) : Decidable (sc.Strands m) :=
  match m with
  | .attempt i =>
    decidable_of_iff ((sc.attempts[i]?).any fun a => sc.isFreeFor i && decide (a.Strands sc.world))
      (by simp [Strands, Option.any_eq_true])
  | .trigger t => isFalse (by simp [Strands])
  | .others w => isFalse (by simp [Strands])

/-- None of a list of turns strands an entry. -/
def Unstranded (s : Settings) (sc : Scene) : List Move → Prop
  | [] => True
  | m :: moves => ¬ sc.Strands m ∧ (sc.next s m).Unstranded s moves

instance decidableUnstranded (s : Settings) :
    (sc : Scene) → (moves : List Move) → Decidable (sc.Unstranded s moves)
  | _, [] => isTrue trivial
  | sc, m :: moves =>
    haveI := decidableUnstranded s (sc.next s m) moves
    inferInstanceAs (Decidable (_ ∧ _))

/-- With its turn an attempt for a key ends with an outcome. -/
def Returns (s : Settings) (sc : Scene) (i : Nat) (key : Key) (o : Outcome) : Prop :=
  ∃ a b, sc.attempts[i]? = some a ∧ a.key = key ∧ a.ending? = none ∧
    (sc.next s (.attempt i)).attempts[i]? = some b ∧ b.ending? = some (.done o)

/-- Entries are filed under their keys, and every key that is marked as running has an attempt that
has not ended. -/
structure Tended (sc : Scene) : Prop where
  filed : sc.world.registry.Filed
  tended : ∀ key, sc.world.registry.isInFlight key = true →
    ∃ a ∈ sc.attempts, a.key = key ∧ a.ending? = none

theorem tended_idle (w : World) : (idle w).Tended where
  filed := Registry.filed_empty
  tended := fun _ h => nomatch h

theorem Tended.next_trigger (h : sc.Tended) (t : Trigger) : (sc.next s (.trigger t)).Tended := by
  by_cases hr : sc.isAtRest
  · rw [Scene.next_trigger hr]
    have old : ∀ key, sc.world.registry.isInFlight key = true →
        ∃ a ∈ sc.attempts ++ (t.fire s sc.world).1.map fun l => Attempt.launch l.1 l.2,
          a.key = key ∧ a.ending? = none := by
      intro key hkey
      obtain ⟨a, ha, hak⟩ := h.tended key hkey
      exact ⟨a, List.mem_append_left _ ha, hak⟩
    rcases t.fire_plan s h.filed with hplan | ⟨id, rfl, -, -, hreg⟩
    · refine ⟨hplan.filed h.filed, fun key hkey => ?_⟩
      rcases hplan.isInFlight hkey with hkey | ⟨l, hl, hk⟩
      · exact old key hkey
      · exact ⟨.launch l.1 l.2, List.mem_append_right _ (List.mem_map_of_mem hl), hk, rfl⟩
    · refine ⟨?_, fun key hkey => old key ?_⟩
      · show Registry.Filed (World.registry _)
        rw [hreg]
        exact h.filed.erase id.key
      · have hkey : Registry.isInFlight (World.registry _) key = true := hkey
        rw [hreg, Registry.isInFlight_erase] at hkey
        split at hkey
        · cases hkey
        · exact hkey
  · simpa [next, hr] using h

/-- A step takes away the mark of its own attempt when that ends, and no other mark. -/
theorem Tended.next_attempt (h : sc.Tended) (i : Nat) : (sc.next s (.attempt i)).Tended := by
  rcases sc.next_attempt_cases s i with ⟨a, ha, hfree, hn⟩ | hn
  · rw [hn]
    refine ⟨a.step_filed s h.filed, fun key hkey => ?_⟩
    obtain ⟨before, after, hsplit, -, hset⟩ := exists_around ha
    show ∃ b ∈ sc.attempts.set i _, _
    rw [hset]
    by_cases hk : key = a.key
    · cases he : (a.step s sc.world).1.ending? with
      | none => exact ⟨_, by simp, (a.step_key s sc.world).trans hk.symm, he⟩
      | some e =>
        cases ha' : a.ending? with
        | none =>
          have hun := a.step_unmarks (s := s) (w := sc.world) ha' (by simp [he])
          have hkey : Registry.isInFlight (World.registry _) key = true := hkey
          rw [hk, hun] at hkey
          cases hkey
        | some e' =>
          have hsame := Attempt.step_ending?_of_some (s := s) (w := sc.world) ha'
          have hkey : Registry.isInFlight (World.registry _) key = true := hkey
          rw [hsame] at hkey ⊢
          rw [← hsplit]
          exact h.tended key hkey
    · have hkey : Registry.isInFlight (World.registry _) key = true := hkey
      rw [Registry.isInFlight_of_get?_eq (a.step_get?_of_ne s sc.world hk)] at hkey
      obtain ⟨b, hb, hbk, hbe⟩ := h.tended key hkey
      have hne : b ≠ a := fun hba => hk (by rw [← hbk, hba])
      have hmem := mem_next_of_ne (s := s) ha hfree hb hne
      rw [hn] at hmem
      exact ⟨b, hset _ ▸ hmem, hbk, hbe⟩
  · rw [hn]
    exact h

theorem Tended.next (h : sc.Tended) (m : Move) : (sc.next s m).Tended := by
  cases m with
  | trigger t => exact h.next_trigger t
  | attempt i => exact h.next_attempt i
  | others w =>
    by_cases hr : sc.isAtRest
    · rw [next_others hr]
      exact ⟨h.filed, h.tended⟩
    · simpa [Scene.next, hr] using h

theorem Tended.run (h : sc.Tended) (moves : List Move) : (sc.run s moves).Tended := by
  induction moves generalizing sc with
  | nil => exact h
  | cons m moves ih => exact ih (h.next m)

/-- **A turn leaves active entries only if and only if it strands none.** -/
theorem active_next_iff (h : sc.world.registry.Active) (hf : sc.world.registry.Filed) (m : Move) :
    (sc.next s m).world.registry.Active ↔ ¬ sc.Strands m := by
  constructor
  · rintro hactive ⟨i, a, rfl, ha, hfree, hs⟩
    rw [next_attempt ha hfree] at hactive
    obtain ⟨e, he, hscaling, hfailure⟩ := hs.step (s := s)
    simpa [hscaling, hfailure] using hactive a.key e he
  · intro hs
    cases m with
    | trigger t =>
      by_cases hr : sc.isAtRest
      · rw [next_trigger hr]
        rcases t.fire_plan s hf with hplan | ⟨id, -, -, -, hreg⟩
        · exact hplan.active h
        · exact (hreg ▸ h.erase id.key : Registry.Active (World.registry _))
      · simpa [Scene.next, hr] using h
    | attempt i =>
      rcases sc.next_attempt_cases s i with ⟨a, ha, hfree, hn⟩ | hn
      · rw [hn]
        exact Attempt.step_active h fun hstr => hs ⟨i, a, rfl, ha, hfree, hstr⟩
      · rw [hn]
        exact h
    | others w =>
      by_cases hr : sc.isAtRest
      · rw [next_others hr]
        exact h
      · simpa [Scene.next, hr] using h

theorem active_run (h : sc.world.registry.Active) (ht : sc.Tended) {moves : List Move}
    (hs : sc.Unstranded s moves) : (sc.run s moves).world.registry.Active := by
  induction moves generalizing sc with
  | nil => exact h
  | cons m moves ih => exact ih ((active_next_iff h ht.filed m).2 hs.1) (ht.next m) hs.2

/-! ## Rapid mode -/

/-- No attempt waits, and the ones that have written nothing have not looked at their workloads
again. -/
def Direct (sc : Scene) : Prop :=
  ∀ a ∈ sc.attempts, ¬ a.Waits ∧ (a.written = false → a.current = a.item)

theorem Direct.next (hmode : s.config.mode = .rapid) (h : sc.Direct) (m : Move) :
    (sc.next s m).Direct := by
  intro a ha
  cases m with
  | trigger t =>
    by_cases hr : sc.isAtRest
    · rw [next_trigger hr] at ha
      rcases List.mem_append.1 ha with ha | ha
      · exact h a ha
      · obtain ⟨l, -, rfl⟩ := List.mem_map.1 ha
        exact ⟨by simp [Attempt.Waits, Attempt.launch], fun _ => rfl⟩
    · exact h a (by simpa [Scene.next, hr] using ha)
  | attempt i =>
    rcases sc.next_attempt_cases s i with ⟨b, hb, -, hn⟩ | hn
    · rw [hn] at ha
      rcases List.mem_or_eq_of_mem_set ha with ha | rfl
      · exact h a ha
      · obtain ⟨hwaits, hcurrent⟩ := h b (List.mem_of_getElem? hb)
        exact ⟨Attempt.step_not_waits hmode hwaits, Attempt.step_current hwaits hcurrent⟩
    · exact h a (hn ▸ ha)
  | others w =>
    by_cases hr : sc.isAtRest
    · rw [next_others hr] at ha
      exact h a ha
    · exact h a (by simpa [Scene.next, hr] using ha)

/-- Where no attempt has looked at its workload again, no turn strands an entry. -/
theorem Direct.not_strands (h : sc.Direct) (m : Move) : ¬ sc.Strands m := by
  rintro ⟨i, a, -, ha, -, -, hw, -, hne⟩
  exact hne (by rw [(h a (List.mem_of_getElem? ha)).2 hw])

theorem Direct.unstranded (hmode : s.config.mode = .rapid) (h : sc.Direct) (moves : List Move) :
    sc.Unstranded s moves := by
  induction moves generalizing sc with
  | nil => trivial
  | cons m moves ih => exact ⟨h.not_strands m, ih (h.next hmode m)⟩

/-! ## Main theorem -/

/-- **In rapid mode, and in step mode as long as no turn strands an entry, every entry of the
registry is active; the entries that are left over when all attempts have ended are failed ones
that no attempt is running for.  The next turn keeps entries active if and only if it strands none;
and an attempt that returns without a refusal of its quotas leaves no entry for its key, unless it
strands it.** -/
theorem active_iff_not_strands (s : Settings) (w : World) (moves : List Move)
    (h : s.config.mode = .rapid ∨ (idle w).Unstranded s moves) :
    let sc := (idle w).run s moves
    sc.world.registry.Active ∧
      ((∀ a ∈ sc.attempts, a.ending?.isSome = true) → ∀ e ∈ sc.world.registry.snapshot,
        e ∈ sc.world.registry.failures ∧ e.scaling = false) ∧
      (∀ m, (sc.next s m).world.registry.Active ↔ ¬ sc.Strands m) ∧
      (∀ i key o, sc.Returns s i key o → o ≠ .quotaDenied →
        ((sc.next s (.attempt i)).world.registry.get? key = none ↔ ¬ sc.Strands (.attempt i))) := by
  intro sc
  have hdirect : (idle w).Direct := fun _ ha => nomatch ha
  have hs : (idle w).Unstranded s moves := h.elim (hdirect.unstranded · moves) id
  have htended : sc.Tended := (tended_idle w).run moves
  have hactive : sc.world.registry.Active := active_run Registry.active_empty (tended_idle w) hs
  refine ⟨hactive, fun hended e he => ?_, active_next_iff hactive htended.filed, ?_⟩
  · obtain ⟨p, hp, rfl⟩ := List.mem_map.1 he
    have hget : sc.world.registry.get? p.1 = some p.2 := (Table.mem_entries_iff _).1 hp
    have hmark : p.2.scaling = false := by
      refine Bool.eq_false_iff.2 fun hscaling => ?_
      obtain ⟨a, ha, -, hnone⟩ :=
        htended.tended p.1 (Registry.isInFlight_eq_true.2 ⟨p.2, hget, hscaling⟩)
      simpa [hnone] using hended a ha
    refine ⟨List.mem_filter.2 ⟨he, ?_⟩, hmark⟩
    simpa [hmark] using hactive p.1 p.2 hget
  · rintro i key o ⟨a, b, ha, rfl, hnone, hb, hdone⟩ ho
    rcases sc.next_attempt_cases s i with ⟨a', ha', hfree, hn⟩ | hn
    · obtain rfl := Option.some.inj (ha.symm.trans ha')
      obtain ⟨hb', -, hw⟩ := next_attempt_self (s := s) ha hfree
      obtain rfl := Option.some.inj (hb.symm.trans hb')
      rw [hw]
      constructor
      · rintro hget ⟨j, c, hj, hc, -, hstrands⟩
        cases hj
        obtain rfl := Option.some.inj (ha.symm.trans hc)
        obtain ⟨e, he, -⟩ := hstrands.step (s := s)
        rw [hget] at he
        cases he
      · exact fun hs => Attempt.get?_step_of_done hnone ho hdone fun hstr =>
          hs ⟨i, a, rfl, ha, hfree, hstr⟩
    · rw [hn, ha] at hb
      obtain rfl := Option.some.inj hb
      rw [hnone] at hdone
      cases hdone

/-- One attempt waits for readiness while others are at work on its workload. -/
theorem active_iff_not_strands_waiting :
    let x : Workload := { Workload.sample ⟨.deployment, "shop", "api"⟩ "3" with spec := 1 }
    let moves : List Move :=
      [.trigger (.cycle "shop"), .attempt 0, .attempt 0, .attempt 0, .others (.holding [x])]
    (idle (.holding [x])).Unstranded (.standard .step) moves ∧
      ((idle (.holding [x])).run (.standard .step) moves).world.registry.isInFlight x.key = true ∧
      ((idle (.holding [x])).run (.standard .step) moves).world.registry.Active := by
  intro x moves
  have hs : (idle (.holding [x])).Unstranded (.standard .step) moves := by decide +kernel
  have hmark : ((idle (.holding [x])).run (.standard .step) moves).world.registry.isInFlight
      x.key = true := by decide +kernel
  exact ⟨hs, hmark, (active_iff_not_strands (.standard .step) (.holding [x]) moves (.inr hs)).1⟩

/-- A workload that others move to its target while its attempt waits for readiness is left with an
entry that has no mark. -/
theorem not_active_moved_by_others :
    let x : Workload := { Workload.sample ⟨.deployment, "shop", "api"⟩ "3" with spec := 1 }
    let moved : Workload := { x with spec := 3, ready := 3 }
    let sc := (idle (.holding [x])).run (.standard .step)
      [.trigger (.cycle "shop"), .attempt 0, .attempt 0, .attempt 0,
        .others { World.holding [moved] with now := 2000 }, .attempt 0, .attempt 0]
    sc.attempts.map (·.ending?) = [some (.done .unchanged)] ∧ ¬ sc.world.registry.Active := by
  intro x moved sc
  have hend : sc.attempts.map (·.ending?) = [some (.done .unchanged)] := by decide +kernel
  have hentry : (sc.world.registry.get? x.key).map (fun e => (e.scaling, e.failure)) =
      some (false, false) := by decide +kernel
  obtain ⟨e, he, hmarks⟩ := Option.map_eq_some_iff.1 hentry
  refine ⟨hend, fun h => ?_⟩
  simp only [Prod.mk.injEq] at hmarks
  simpa [hmarks.1, hmarks.2] using h x.key e he

end Scene

end ReplicaControl
