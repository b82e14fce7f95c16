import ReplicaControl.Proofs.Batch
import ReplicaControl.Proofs.Exclusivity

/-!
# Steps in calm worlds

* `Attempt.poll_of_calm`, `write_of_calm` — in a calm world only the stored workload and the quotas
  decide on a poll and on a write: no request fails, and no write meets a conflict.
* `World.WorkedOn`, `step_workedOn` — what a step of an attempt may change in a calm world: the
  workloads, the entry and the events of its key.
* `Attempt.stuck?` — the attempt waits for a workload that is neither ready nor past its deadline.
  As long as nobody else changes the workload only time ends the wait (`step_of_stuck`).
* `Attempt.isActive` — the attempt goes on at once.  `step_isSettled`: in a calm world an attempt is
  over, goes on or is stuck.
-/

namespace ReplicaControl

namespace Cluster

/-- A listed workload is one of the namespace. -/
theorem ns_of_mem_list {c : Cluster} {kind : Kind} {ns : String} {selector : Table String String}
    {x : Workload} (h : x ∈ c.list kind ns selector) : x.key.ns = ns := by
  have hcond := (List.mem_filter.1 h).2
  simp only [Bool.and_eq_true, beq_iff_eq] at hcond
  exact hcond.1.2

/-- A cluster after the write to a workload whose version could not be raised. -/
def overrun (c : Cluster) (x : Workload) (n : Int) : Cluster :=
  { c with inventory := c.inventory.put (c.withCount x n) }

end Cluster

namespace World

variable {w : World}

theorem IsCalm.fetch_eq (h : w.IsCalm) (id : WorkloadId) : w.fetch id = (w.cluster.read id, w) :=
  ask_of_faults h.faults _ _ _

/-- A write of a workload that is stored is taken if the version can be raised. -/
theorem IsCalm.store_eq (h : w.IsCalm) {x : Workload}
    (hget : w.cluster.inventory.get? x.id = some x) (n : Int) :
    w.store { x with spec := n } =
      if x.version + 1 < versionBound then
        (.stored (w.cluster.updated x n), { w with cluster := w.cluster.update x n })
      else (.exhausted, { w with cluster := w.cluster.overrun x n }) := by
  split
  · exact h.store hget ‹_› n
  · rename_i hv
    have hid : ({ x with spec := n } : Workload).id = x.id := rfl
    rw [World.store, storeThrough, intercept_of_faults h.faults]
    simp [Cluster.write, h.conflicts, hid, hget, hv, Cluster.overrun]

end World

namespace Attempt

variable {s : Settings} {a : Attempt} {w : World}

/-- A poll in a calm world. -/
theorem poll_of_calm (hw : w.IsCalm) (wait : Wait) :
    a.poll s w wait =
      match w.cluster.inventory.get? a.item.id with
      | none => a.conclude w (.done .removed)
      | some live =>
        if isReady wait live then
          ({ a with
            current := live
            phase := if live.spec = wait.desired then .deciding
              else .writing (oneToward live.spec wait.desired) 0 }, w)
        else if live.exceededDeadline then a.fail w (.deadlineExceeded a.key)
        else if wait.deadline ≤ w.now then a.timeOut w wait
        else a.sleepToPoll s w wait := by
  unfold poll
  rw [hw.fetch_eq, Cluster.read]
  cases w.cluster.inventory.get? a.item.id <;> rfl

/-- A try to write a count in a calm world. -/
theorem write_of_calm (hw : w.IsCalm) (n : Int) (k : Nat) :
    a.write s w n k =
      match w.cluster.inventory.get? a.item.id with
      | none => a.conclude w (.done .removed)
      | some live =>
        if live.isOptedIn then
          match w.cluster.verdict live.key.ns (Quota.itemNeed live n) with
          | .denied quota shortfall =>
            a.conclude (a.tell w (.quotaExceeded n quota shortfall)) (.done .quotaDenied)
          | .allowed =>
            if live.version + 1 < versionBound then
              ({ a with current := w.cluster.updated live n, written := true, phase := .deciding },
                { w with cluster := w.cluster.update live n })
            else ({ a with phase := .aborted }, { w with cluster := w.cluster.overrun live n })
        else a.fail w (.optedOut a.key a.target.state) := by
  unfold write
  rw [hw.fetch_eq, Cluster.read]
  cases hget : w.cluster.inventory.get? a.item.id with
  | none => rfl
  | some live =>
    dsimp only
    split
    · rw [hw.admission]
      cases w.cluster.verdict live.key.ns (Quota.itemNeed live n) with
      | denied quota shortfall => rfl
      | allowed =>
        have hself : w.cluster.inventory.get? live.id = some live := by
          rw [Inventory.id_of_get? hget]
          exact hget
        unfold store
        dsimp only
        rw [hw.store_eq hself n]
        by_cases hv : live.version + 1 < versionBound
        · rw [if_pos hv, if_pos hv]
        · rw [if_neg hv, if_neg hv]
    · rfl

end Attempt

/-! ## What a step changes -/

namespace World

/-- What attempts and cycles that are for some keys may change: the workloads, the entries and the
events of these keys, the record of writes, and the clock. -/
structure WorkedOn (p : Key → Prop) (w w' : World) : Prop where
  faults : w'.faults = w.faults
  rules : w'.rules = w.rules
  cluster : ∃ inventory writes,
    w'.cluster = { w.cluster with inventory, history := w.cluster.history ++ writes }
  workloads : ∀ id, ¬ p id.key → w'.cluster.inventory.get? id = w.cluster.inventory.get? id
  entries : ∀ key, ¬ p key → w'.registry.get? key = w.registry.get? key
  events : ∃ news, w'.events = w.events ++ news ∧ ∀ e ∈ news, p e.key

namespace WorkedOn

variable {p q : Key → Prop} {w w₁ w₂ : World}

theorem refl (p : Key → Prop) (w : World) : w.WorkedOn p w where
  faults := rfl
  rules := rfl
  cluster := ⟨_, [], by rw [List.append_nil]⟩
  workloads := fun _ _ => rfl
  entries := fun _ _ => rfl
  events := ⟨[], (List.append_nil _).symm, fun _ he => nomatch he⟩

theorem trans (h : w.WorkedOn p w₁) (h' : w₁.WorkedOn p w₂) : w.WorkedOn p w₂ where
  faults := h'.faults.trans h.faults
  rules := h'.rules.trans h.rules
  cluster := by
    obtain ⟨inv, writes, heq⟩ := h.cluster
    obtain ⟨inv', writes', heq'⟩ := h'.cluster
    exact ⟨inv', writes ++ writes', by rw [heq', heq, List.append_assoc]⟩
  workloads := fun id hid => (h'.workloads id hid).trans (h.workloads id hid)
  entries := fun key hkey => (h'.entries key hkey).trans (h.entries key hkey)
  events := by
    obtain ⟨news, heq, hnews⟩ := h.events
    obtain ⟨news', heq', hnews'⟩ := h'.events
    refine ⟨news ++ news', by rw [heq', heq, List.append_assoc], fun e he => ?_⟩
    exact (List.mem_append.1 he).elim (hnews e) (hnews' e)

theorem mono (h : w.WorkedOn p w₁) (hpq : ∀ key, p key → q key) : w.WorkedOn q w₁ where
  faults := h.faults
  rules := h.rules
  cluster := h.cluster
  workloads := fun id hid => h.workloads id fun hp => hid (hpq _ hp)
  entries := fun key hkey => h.entries key fun hp => hkey (hpq _ hp)
  events := by
    obtain ⟨news, heq, hnews⟩ := h.events
    exact ⟨news, heq, fun e he => hpq _ (hnews e he)⟩

theorem registry {r : Registry} (h : ∀ key, ¬ p key → r.get? key = w.registry.get? key) :
    w.WorkedOn p { w with registry := r } :=
  { refl p w with entries := h }

theorem emit {e : Event} (h : p e.key) : w.WorkedOn p (w.emit e) :=
  { refl p w with events := ⟨[e], rfl, fun _ he => List.mem_singleton.1 he ▸ h⟩ }

theorem clock (now tickets : Nat) : w.WorkedOn p { w with now, tickets } := { refl p w with }

/-- A workload of one of the keys is stored. -/
theorem put {x : Workload} (h : p x.key) (writes : List (WorkloadId × Int)) :
    w.WorkedOn p { w with
      cluster := { w.cluster with
        inventory := w.cluster.inventory.put x, history := w.cluster.history ++ writes } } :=
  { refl p w with
    cluster := ⟨_, writes, rfl⟩
    workloads := fun id hid => by
      show (w.cluster.inventory.put x).get? id = _
      rw [Inventory.get?_put, if_neg fun heq : id = x.id => hid (heq ▸ h)] }

theorem isCalm (h : w.WorkedOn p w₁) (hw : w.IsCalm) : w₁.IsCalm := by
  obtain ⟨inv, writes, heq⟩ := h.cluster
  exact ⟨h.faults.trans hw.faults, h.rules.trans hw.rules, by rw [heq]; exact hw.conflicts⟩

theorem history (h : w.WorkedOn p w₁) :
    ∃ writes, w₁.cluster.history = w.cluster.history ++ writes := by
  obtain ⟨inv, writes, heq⟩ := h.cluster
  exact ⟨writes, congrArg Cluster.history heq⟩

end WorkedOn

end World

namespace Cycle

variable {p : Key → Prop} {state : State}

theorem revise_workedOn (w : World) {item : Workload} (h : p item.key) (target : Target) :
    w.WorkedOn p (revise w item target).2 := by
  have hclaim : ∀ key, ¬ p key → (w.registry.claim item target.replicas).2.get? key =
      w.registry.get? key := fun key hkey =>
    w.registry.get?_claim_of_ne item _ fun heq => hkey (heq ▸ h)
  unfold revise
  split
  · split
    · rename_i r hc
      rw [hc] at hclaim
      exact .registry hclaim
    · rename_i r hc
      rw [hc] at hclaim
      exact .registry hclaim
    · rename_i r hc
      rw [hc] at hclaim
      refine .registry fun key hkey => ?_
      have hne : key ≠ item.key := fun heq => hkey (heq ▸ h)
      exact (r.get?_release_of_ne hne).trans (hclaim key hkey)
  · exact .refl p w

theorem assess_workedOn (state : State) (w : World) {item : Workload} (h : p item.key) :
    w.WorkedOn p (assess w state item).2 := by
  unfold assess
  split
  · exact .emit h
  · exact .refl p w
  · rename_i target ht
    have hrevise := revise_workedOn w h target
    generalize revise w item target = r at hrevise ⊢
    rcases r with ⟨_ | d, w₁⟩
    · dsimp only
      split <;> exact hrevise
    · exact hrevise

theorem assessAll_workedOn (state : State) {items : List Workload} (w : World)
    (h : ∀ item ∈ items, p item.key) : w.WorkedOn p (assessAll w state items).2 := by
  induction items generalizing w with
  | nil => exact .refl p w
  | cons item rest ih =>
    have hfirst := assess_workedOn state w (h item List.mem_cons_self)
    have ih := fun w => ih w fun x hx => h x (List.mem_cons_of_mem _ hx)
    unfold assessAll
    split <;> rename_i w₁ ha <;> rw [ha] at hfirst <;> exact hfirst.trans (ih w₁)

theorem launchAll_workedOn {changes : List Launch} (w : World) (h : ∀ c ∈ changes, p c.1.key) :
    w.WorkedOn p (launchAll w changes).2 := by
  induction changes generalizing w with
  | nil => exact .refl p w
  | cons change rest ih =>
    obtain ⟨item, target⟩ := change
    have hclaim : w.WorkedOn p
        { w with registry := (w.registry.claim item target.replicas).2 } :=
      .registry fun key hkey =>
        w.registry.get?_claim_of_ne item _ fun heq => hkey (heq ▸ h _ List.mem_cons_self)
    have ih := fun w => ih w fun x hx => h x (List.mem_cons_of_mem _ hx)
    unfold launchAll
    split <;> rename_i hc <;> rw [hc] at hclaim <;> exact hclaim.trans (ih _)

theorem denyAll_workedOn (quota : String) (shortfall : ResourceList) {changes : List Launch}
    (w : World) (h : ∀ c ∈ changes, p c.1.key) :
    w.WorkedOn p (denyAll w quota shortfall changes).2 := by
  induction changes generalizing w with
  | nil => exact .refl p w
  | cons change rest ih =>
    exact World.WorkedOn.trans (.emit (h _ List.mem_cons_self))
      (ih _ fun x hx => h x (List.mem_cons_of_mem _ hx))

theorem ofWorkloads_workedOn {w : World} (hw : w.IsCalm) (ns : String) {items : List Workload}
    (h : ∀ item ∈ items, p item.key) : w.WorkedOn p (ofWorkloads w ns state items).2 := by
  have hassess := assessAll_workedOn state w h
  have hchanges : ∀ c ∈ (assessAll w state items).1.2, p c.1.key := fun c hc =>
    h c.1 ((assessAll_sublist state items w).subset (List.mem_map_of_mem hc))
  have hcalm := hassess.isCalm hw
  unfold ofWorkloads
  generalize assessAll w state items = r at hassess hchanges hcalm ⊢
  dsimp only
  split
  · exact hassess
  · refine hassess.trans ?_
    unfold settleBatch
    rw [hcalm.admission]
    cases r.2.cluster.verdict ns (Quota.batchNeed (r.1.2.map fun c => (c.1, c.2.replicas))) with
    | allowed => exact launchAll_workedOn r.2 hchanges
    | denied quota shortfall => exact denyAll_workedOn quota shortfall r.2 hchanges

/-- **In a calm world a cycle for a namespace changes what belongs to the namespace only.** -/
theorem ofNamespace_workedOn (s : Settings) {w : World} (hw : w.IsCalm) (ns : String) :
    w.WorkedOn (·.ns = ns) (ofNamespace s w ns).2 := by
  have hstay := NamespaceState.resolve_of_faults hw.faults ns
  unfold ofNamespace
  generalize NamespaceState.resolve w ns = r at hstay ⊢
  rcases r with ⟨_ | state, w₁⟩
  · obtain rfl : w₁ = w := hstay
    exact .refl _ _
  · obtain rfl : w₁ = w := hstay
    dsimp only
    rw [listAll_of_faults hw.faults]
    refine ofWorkloads_workedOn hw ns fun item hitem => ?_
    obtain ⟨kind, -, hmem⟩ := List.mem_flatMap.1 hitem
    exact Cluster.ns_of_mem_list hmem

end Cycle

namespace Attempt

variable {s : Settings} {a : Attempt} {w : World}

theorem conclude_workedOn (a : Attempt) (w : World) (e : Ending) :
    w.WorkedOn (· = a.key) (a.conclude w e).2 := by
  have hreg : w.WorkedOn (· = a.key) { w with registry := a.recorded w.registry e } :=
    .registry fun other ho => a.recorded_get?_of_ne w.registry e ho
  cases e with
  | done o =>
    cases o with
    | scaled n => exact hreg.trans (.emit rfl)
    | unchanged | quotaDenied | removed => exact hreg
  | failed e => exact hreg.trans (.emit rfl)

theorem sleepToPoll_workedOn (s : Settings) (a : Attempt) (w : World) (wait : Wait) :
    w.WorkedOn (· = a.key) (a.sleepToPoll s w wait).2 := by
  unfold sleepToPoll
  dsimp only
  split
  · exact .clock _ _
  · exact .clock _ _

theorem poll_workedOn (hw : w.IsCalm) (wait : Wait) :
    w.WorkedOn (· = a.key) (a.poll s w wait).2 := by
  rw [poll_of_calm hw]
  split
  · exact a.conclude_workedOn w _
  · split
    · exact .refl _ _
    · split
      · exact a.conclude_workedOn w _
      · split
        · exact a.conclude_workedOn w _
        · exact a.sleepToPoll_workedOn s w wait

theorem write_workedOn (hw : w.IsCalm) (n : Int) (k : Nat) :
    w.WorkedOn (· = a.key) (a.write s w n k).2 := by
  rw [write_of_calm hw]
  split
  · exact a.conclude_workedOn w _
  · rename_i live hget
    have hkey : live.key = a.key := congrArg WorkloadId.key (Inventory.id_of_get? hget)
    split
    · split
      · exact World.WorkedOn.trans (.emit rfl) (a.conclude_workedOn (a.tell w _) _)
      · split
        · exact World.WorkedOn.put (x := w.cluster.updated live n) hkey [(live.id, n)]
        · have hput := World.WorkedOn.put (p := (· = a.key)) (w := w)
            (x := w.cluster.withCount live n) hkey []
          rwa [List.append_nil] at hput
    · exact a.conclude_workedOn w _

/-- **In a calm world a step changes what belongs to the key of its attempt only.** -/
theorem step_workedOn (s : Settings) (a : Attempt) (hw : w.IsCalm) :
    w.WorkedOn (· = a.key) (a.step s w).2 := by
  unfold step
  split
  · unfold begin
    split
    · exact .refl _ _
    · have hmarked : w.WorkedOn (· = a.key) { w with registry := a.marked w.registry } :=
        .registry fun other ho => a.marked_get?_of_ne w.registry ho
      dsimp only
      split
      · exact hmarked
      · exact hmarked.trans (a.conclude_workedOn _ _)
  · unfold decide
    have hmarked : w.WorkedOn (· = a.key)
        { w with registry := w.registry.update a.key ({ · with scaling := true }) } :=
      .registry fun other ho => (Registry.get?_update _ _ _ _).trans (if_neg ho)
    dsimp only
    split
    · exact hmarked.trans (a.conclude_workedOn _ _)
    · split
      · exact hmarked
      · split <;> exact hmarked
  · exact poll_workedOn hw _
  · split
    · exact poll_workedOn hw _
    · split
      · exact a.conclude_workedOn w _
      · exact .refl _ _
  · exact write_workedOn hw _ _
  · split
    · exact write_workedOn hw _ _
    · exact .refl _ _
  · exact .refl _ _
  · exact .refl _ _

/-! ## Waits that only time ends -/

/-- The wait that an attempt is in. -/
def wait? (a : Attempt) : Option Wait :=
  match a.phase with
  | .polling wait => some wait
  | .waiting wait _ => some wait
  | _ => none

/-- The wait of an attempt for a workload that is neither ready nor past its deadline. -/
def stuck? (a : Attempt) (w : World) : Option Wait :=
  a.wait?.filter fun wait => (w.cluster.inventory.get? a.item.id).any fun live =>
    !isReady wait live && !live.exceededDeadline

/-- The attempt goes on at once. -/
def isActive (a : Attempt) (w : World) : Bool :=
  match a.phase with
  | .starting => true
  | .deciding => true
  | .polling _ => (a.stuck? w).isNone
  | .writing _ _ => true
  | _ => false

/-- The attempt is over, goes on or is stuck. -/
def IsSettled (a : Attempt) (w : World) : Prop :=
  a.isOver = true ∨ a.isActive w = true ∨ (a.stuck? w).isSome = true

theorem stuck?_eq_some {wait : Wait} :
    a.stuck? w = some wait ↔ a.wait? = some wait ∧ ∃ live,
      w.cluster.inventory.get? a.item.id = some live ∧ isReady wait live = false ∧
        live.exceededDeadline = false := by
  simp [stuck?, Option.filter_eq_some_iff, Option.any_eq_true]

/-- Whether an attempt is stuck depends on its own workload. -/
theorem stuck?_congr {w' : World}
    (h : w'.cluster.inventory.get? a.item.id = w.cluster.inventory.get? a.item.id) :
    a.stuck? w' = a.stuck? w := by
  rw [stuck?, h]
  rfl

theorem isActive_congr {w' : World}
    (h : w'.cluster.inventory.get? a.item.id = w.cluster.inventory.get? a.item.id) :
    a.isActive w' = a.isActive w := by
  unfold isActive
  rw [stuck?_congr h]

theorem IsSettled.congr {w' : World} (hs : a.IsSettled w)
    (h : w'.cluster.inventory.get? a.item.id = w.cluster.inventory.get? a.item.id) :
    a.IsSettled w' := by
  unfold IsSettled
  rw [isActive_congr h, stuck?_congr h]
  exact hs

theorem isSettled_of_polling {wait : Wait} (hp : a.phase = .polling wait) : a.IsSettled w := by
  cases h : a.stuck? w with
  | none => exact .inr (.inl (by simp [isActive, hp, h]))
  | some wait' => exact .inr (.inr (by rw [h]; rfl))

/-- A poll by an attempt that is stuck ends the wait, or lets it go on. -/
theorem poll_of_stuck (hw : w.IsCalm) {wait : Wait} (h : a.stuck? w = some wait) :
    a.poll s w wait = a.timeOut w wait ∨
      ∃ phase n ticket, a.poll s w wait = ({ a with phase }, { w with tickets := n }) ∧
        wait? { a with phase } = some { wait with ticket } := by
  obtain ⟨-, live, hget, hready, hdeadline⟩ := stuck?_eq_some.1 h
  rw [poll_of_calm hw, hget]
  simp only [hready, hdeadline, Bool.false_eq_true, if_false]
  split
  · exact .inl rfl
  · refine .inr ?_
    unfold sleepToPoll
    cases hticket : wait.ticket with
    | some t => exact ⟨_, _, wait.ticket, rfl, rfl⟩
    | none => exact ⟨_, _, _, rfl, rfl⟩

/-- **Only time ends the wait of an attempt that is stuck.** -/
theorem step_of_stuck (hw : w.IsCalm) {wait : Wait} (h : a.stuck? w = some wait) :
    a.step s w = a.timeOut w wait ∨
      ∃ phase n ticket, a.step s w = ({ a with phase }, { w with tickets := n }) ∧
        wait? { a with phase } = some { wait with ticket } := by
  have hwait := (stuck?_eq_some.1 h).1
  unfold wait? at hwait
  unfold step
  split at hwait
  · rename_i hp
    obtain rfl := Option.some.inj hwait
    simp only [hp]
    exact poll_of_stuck hw h
  · rename_i wait' wake hp
    obtain rfl : wait' = wait := Option.some.inj hwait
    simp only [hp]
    split
    · exact poll_of_stuck hw h
    · split
      · exact .inl rfl
      · exact .inr ⟨a.phase, w.tickets, wait'.ticket, rfl, by simp only [wait?, hp]⟩
  · cases hwait

theorem stuck?_of_wait?_eq {phase : Phase} {n : Nat} {wait : Wait} {ticket : Option Nat}
    (h : a.stuck? w = some wait) (hp : wait? { a with phase } = some { wait with ticket }) :
    stuck? { a with phase } { w with tickets := n } = some { wait with ticket } := by
  obtain ⟨-, live, hget, hready, hdeadline⟩ := stuck?_eq_some.1 h
  exact stuck?_eq_some.2 ⟨hp, live, hget, hready, hdeadline⟩

theorem isSettled_ended {e : Ending} : IsSettled { a with phase := .ended e } w := .inl rfl

theorem begin_isSettled (s : Settings) (a : Attempt) (w : World) :
    (a.begin s w).1.IsSettled (a.begin s w).2 := by
  unfold begin
  split
  · exact isSettled_ended
  · dsimp only
    split
    · exact .inr (.inl rfl)
    · exact isSettled_ended

theorem decide_isSettled (s : Settings) (a : Attempt) (w : World) :
    (a.decide s w).1.IsSettled (a.decide s w).2 := by
  unfold decide
  dsimp only
  split
  · exact isSettled_ended
  · split
    · exact .inr (.inl rfl)
    · split
      · exact isSettled_of_polling rfl
      · exact .inl rfl

theorem write_isSettled (hw : w.IsCalm) (n : Int) (k : Nat) :
    (a.write s w n k).1.IsSettled (a.write s w n k).2 := by
  rw [write_of_calm hw]
  split
  · exact isSettled_ended
  · split
    · split
      · exact isSettled_ended
      · split
        · exact .inr (.inl rfl)
        · exact .inl rfl
    · exact isSettled_ended

/-- An attempt that polls and is not stuck ends or goes on. -/
theorem poll_isSettled (hw : w.IsCalm) {wait : Wait} (hp : a.phase = .polling wait)
    (h : a.stuck? w = none) : (a.poll s w wait).1.IsSettled (a.poll s w wait).2 := by
  rw [poll_of_calm hw]
  split
  · exact isSettled_ended
  · rename_i live hget
    split
    · refine .inr (.inl ?_)
      by_cases hspec : live.spec = wait.desired <;> simp [isActive, hspec]
    · rename_i hready
      split
      · exact isSettled_ended
      · rename_i hdeadline
        -- the workload is neither ready nor past its deadline
        have hstuck : a.stuck? w = some wait :=
          stuck?_eq_some.2 ⟨by simp [wait?, hp], live, hget, by simpa using hready,
            by simpa using hdeadline⟩
        rw [h] at hstuck
        cases hstuck

/-- **In a calm world an attempt is over, goes on or is stuck.** -/
theorem step_isSettled (hw : w.IsCalm) (h : a.IsSettled w) :
    (a.step s w).1.IsSettled (a.step s w).2 := by
  rcases h with h | h | h
  · rw [step_of_isOver s w h]
    exact .inl h
  · unfold step
    split
    · exact a.begin_isSettled s w
    · exact a.decide_isSettled s w
    · rename_i wait hp
      refine poll_isSettled hw hp ?_
      simpa [isActive, hp] using h
    · rename_i hp
      simp [isActive, hp] at h
    · exact write_isSettled hw _ _
    all_goals
      rename_i hp
      simp [isActive, hp] at h
  · obtain ⟨wait, hwait⟩ := Option.isSome_iff_exists.1 h
    rcases step_of_stuck (s := s) hw hwait with heq | ⟨phase, n, ticket, heq, hphase⟩
    · rw [heq]
      exact isSettled_ended
    · rw [heq]
      exact .inr (.inr (by rw [stuck?_of_wait?_eq hwait hphase]; rfl))

end Attempt

end ReplicaControl
