import Mathlib.Logic.Function.Basic
import ReplicaControl.Proofs.Request
import ReplicaControl.Proofs.Runs

/-!
# Writes of fetched copies

* `Cluster.mark?` — the version and the count of a workload.  `mark?_write`, `mark?_storeThrough`:
  every count that is written raises the version by one, and nothing else moves the mark.
* `storeThrough_stored_iff` — when a write is taken.
* `Clients`, `Clients.Turn`, `next`, `run` — any number of clients that fetch workloads and write
  their copies with other counts, in any order, while the cluster changes in between.
* `Clients.mark?_run` — what the turns make of a mark.
* `no_lost_update` — a copy is taken only if nothing was written since it was fetched.
-/

namespace ReplicaControl

/-- A change puts a workload, over the one that may be there, or deletes it. -/
def Change.Replaces (id : WorkloadId) : Change → Prop
  | .put w => id = w.id
  | .delete other => id = other
  | _ => False

/-- The count that a write has stored in a workload. -/
def WriteResult.count? (id : WorkloadId) : WriteResult → Option Int
  | .stored new => if id = new.id then some new.spec else none
  | _ => none

/-- A version and a count after some counts were written, each of which raises the version. -/
def markAfter (m : Nat × Int) (counts : List Int) : Nat × Int :=
  (m.1 + counts.length, counts.getLastD m.2)

theorem markAfter_append (m : Nat × Int) (counts more : List Int) :
    markAfter m (counts ++ more) = markAfter (markAfter m counts) more := by
  simp only [markAfter, List.length_append, Nat.add_assoc, List.getLastD_eq_getLast?,
    List.getLast?_append, Option.getD_or]

namespace Cluster

/-- The version and the count of a workload. -/
def mark? (c : Cluster) (id : WorkloadId) : Option (Nat × Int) :=
  (c.inventory.get? id).map fun w => (w.version, w.spec)

/-- The version of a workload can be raised. -/
def CanRaise (c : Cluster) (id : WorkloadId) : Prop :=
  ∀ w, c.inventory.get? id = some w → w.version + 1 < versionBound

theorem mark?_of_get?_eq {c c' : Cluster} {id : WorkloadId}
    (h : c'.inventory.get? id = c.inventory.get? id) : c'.mark? id = c.mark? id := by
  rw [mark?, h, mark?]

/-- Only a change that replaces a workload moves its mark. -/
theorem mark?_apply {d : Change} {id : WorkloadId} (h : ¬ d.Replaces id) (c : Cluster) :
    (c.apply d).mark? id = c.mark? id := by
  -- a change in place has to keep the version and the count
  have hadjust : ∀ (other : WorkloadId) (f : Workload → Workload) (keeps : ∀ w, (f w).id = w.id),
      (∀ w, (f w).version = w.version ∧ (f w).spec = w.spec) →
        ({ c with inventory := c.inventory.adjust other f keeps } : Cluster).mark? id =
          c.mark? id := by
    intro other f keeps hf
    rw [mark?, Inventory.get?_adjust, mark?]
    split
    · subst other
      rw [Option.map_map]
      exact congrArg (Option.map · _) (funext fun w => Prod.ext (hf w).1 (hf w).2)
    · rfl
  cases d with
  | put w => exact mark?_of_get?_eq ((c.inventory.get?_put w id).trans (if_neg h))
  | delete other => exact mark?_of_get?_eq ((c.inventory.get?_erase other id).trans (if_neg h))
  | setReady other n => exact hadjust other _ _ fun _ => ⟨rfl, rfl⟩
  | setCondition other reason => exact hadjust other _ _ fun _ => ⟨rfl, rfl⟩
  | optIn other value => exact hadjust other _ _ fun _ => ⟨rfl, rfl⟩
  | _ => rfl

/-- A write is taken if no conflict is pending and the version is the stored one, and is not the
largest. -/
theorem write_stored_iff {c : Cluster} {x : Workload} :
    (∃ new, (c.write x).1 = .stored new) ↔
      c.pendingConflicts = 0 ∧ ∃ old, c.inventory.get? x.id = some old ∧
        old.version = x.version ∧ old.version + 1 < versionBound := by
  constructor
  · rintro ⟨new, h⟩
    rcases c.write_cases x with
      ⟨e, n, heq⟩ | ⟨old, hnone, hget, hv, hbound, -⟩ | ⟨old, -, -, -, -, heq⟩
    · simp [heq] at h
    · exact ⟨hnone, old, hget, hv, hbound⟩
    · simp [heq] at h
  · rintro ⟨hnone, old, hget, hv, hbound⟩
    simp [write, hnone, hget, hv, hv ▸ hbound]

/-- A writer ends only at the largest version. -/
theorem not_canRaise_of_write_exhausted {c c' : Cluster} {x : Workload}
    (h : c.write x = (.exhausted, c')) : ¬ c.CanRaise x.id := by
  rcases c.write_cases x with
    ⟨e, n, heq⟩ | ⟨old, -, -, -, -, heq⟩ | ⟨old, -, hget, -, hbound, -⟩
  · exact absurd (heq.symm.trans h) (by simp)
  · exact absurd (heq.symm.trans h) (by simp)
  · exact fun hraise => hbound (hraise old hget)

/-- A count that is written raises the version by one, and no other write moves a mark. -/
theorem mark?_write {c c' : Cluster} {x : Workload} {r : WriteResult} {id : WorkloadId}
    (h : c.write x = (r, c')) (hraise : c.CanRaise id) :
    c'.mark? id = (c.mark? id).map (markAfter · (r.count? id).toList) := by
  by_cases hid : id = x.id
  · subst hid
    cases r with
    | stored new =>
      obtain ⟨old, hold, -, hnew, rfl⟩ := write_stored h
      have hsame : x.id = new.id := by
        rw [hnew]
        exact (Inventory.id_of_get? hold).symm
      rw [mark?, Inventory.get?_put, WriteResult.count?, if_pos hsame, if_pos hsame, mark?, hold,
        hnew]
      rfl
    | refused e =>
      rw [mark?, (write_refused h).1]
      exact Option.map_id'.symm
    | exhausted => exact absurd hraise (not_canRaise_of_write_exhausted h)
  · have hother : r.count? id = none := by
      cases r with
      | stored new =>
        obtain ⟨old, hold, -, rfl, -⟩ := write_stored h
        have hsame : old.id = x.id := Inventory.id_of_get? hold
        exact if_neg fun hnew => hid (hnew.trans hsame)
      | refused | exhausted => rfl
    rw [hother, mark?_of_get?_eq (write_get?_of_ne h hid)]
    exact Option.map_id'.symm

end Cluster

/-- No reaction to a write replaces a workload. -/
def World.Retains (w : World) (id : WorkloadId) : Prop :=
  ∀ rule ∈ w.rules, ∀ d, .change d ∈ rule.reactions → ¬ d.Replaces id

namespace World

variable {w : World} {id : WorkloadId} {kind : Kind} {x : Workload}

theorem mark?_afterWrite (h : w.Retains id) (x : Workload) :
    (w.afterWrite x).cluster.mark? id = w.cluster.mark? id := by
  refine afterWrite_induction_of_mem (fun v => v.cluster.mark? id = w.cluster.mark? id) rfl ?_
  intro v rule hrule r hr hv
  cases r with
  | change d => exact (Cluster.mark?_apply (h rule hrule d hr) v.cluster).trans hv
  | claimWritten n => exact hv

/-- A count that is written through an adapter raises the version by one, and no other write moves
a mark. -/
theorem mark?_storeThrough (h : w.Retains id) (hraise : w.cluster.CanRaise id) :
    (w.storeThrough kind x).2.cluster.mark? id =
      (w.cluster.mark? id).map (markAfter · ((w.storeThrough kind x).1.count? id).toList) := by
  rcases w.storeThrough_cases kind x with
    ⟨w₁, new, c, ⟨faults, rfl⟩, hw, heq⟩ | ⟨e, w₁, hq, heq⟩ | ⟨w₁, c, -, hw, heq⟩
  · rw [heq]
    exact (mark?_afterWrite (w := { w with faults, cluster := c }) h new).trans
      (Cluster.mark?_write hw hraise)
  · rw [heq, Cluster.mark?, hq.inventory]
    exact Option.map_id'.symm
  · rw [heq]
    exact Cluster.mark?_write hw hraise

theorem storeThrough_rules : (w.storeThrough kind x).2.rules = w.rules := by
  rcases w.storeThrough_cases kind x with
    ⟨w₁, new, c, ha, -, heq⟩ | ⟨e, w₁, hq, heq⟩ | ⟨w₁, c, ha, -, heq⟩ <;> rw [heq]
  · exact (afterWrite_rules _ new).trans ha.quiet.rules
  · exact hq.rules
  · exact ha.quiet.rules

/-- A write is taken if it meets no fault, its adapter knows the kind, and the cluster takes it. -/
theorem storeThrough_stored_iff :
    (∃ new, (w.storeThrough kind x).1 = .stored new) ↔
      (w.intercept .update).1 = none ∧ x.kind = kind ∧
        ∃ new, (w.cluster.write x).1 = .stored new := by
  have ha := w.intercept_asked .update
  unfold storeThrough
  rcases hi : w.intercept .update with ⟨_ | f, w₁⟩
  · rw [hi] at ha
    obtain ⟨faults, rfl⟩ := ha
    by_cases hk : x.kind = kind
    · rcases hw : w.cluster.write x with ⟨new | e | _, c⟩ <;> simp [hw, hk]
    · simp [hk]
  · simp

/-- A write of a workload that can be raised changes nothing unless it is taken. -/
theorem storeThrough_quiet (hraise : w.cluster.CanRaise x.id)
    (h : ∀ new, (w.storeThrough kind x).1 ≠ .stored new) : w.Quiet (w.storeThrough kind x).2 := by
  rcases w.storeThrough_cases kind x with
    ⟨w₁, new, c, -, -, heq⟩ | ⟨e, w₁, hq, heq⟩ | ⟨w₁, c, -, hw, heq⟩
  · exact absurd (congrArg Prod.fst heq) (h new)
  · rw [heq]
    exact hq
  · exact absurd hraise (Cluster.not_canRaise_of_write_exhausted hw)

end World

/-- Clients of one world, each with the copy of the workload that it fetched last. -/
structure Clients where
  world : World
  copies : Nat → Option Workload := fun _ => none

/-- A turn of a client, or a change of the cluster between turns. -/
inductive Clients.Turn where
  | fetch (client : Nat) (id : WorkloadId)
  /-- A client writes its copy with a count through the adapter of a kind. -/
  | update (client : Nat) (kind : Kind) (replicas : Int)
  | change (d : Change)

namespace Clients

/-- What a turn makes of the clients and their world.  A client without a copy does not write. -/
def next (c : Clients) : Turn → Clients
  | .fetch i id =>
    match c.world.fetch id with
    | (.ok x, world) => { world, copies := Function.update c.copies i (some x) }
    | (.error _, world) => { c with world }
  | .update i kind n =>
    match c.copies i with
    | some x => { c with world := (c.world.storeThrough kind { x with spec := n }).2 }
    | none => c
  | .change d => { c with world := { c.world with cluster := c.world.cluster.apply d } }

/-- What some turns make of the clients and their world. -/
def run (c : Clients) (turns : List Turn) : Clients := turns.foldl next c

/-- What a client is answered that writes its copy with a count. -/
def answer? (c : Clients) (i : Nat) (kind : Kind) (n : Int) : Option WriteResult :=
  (c.copies i).map fun x => (c.world.storeThrough kind { x with spec := n }).1

/-- The count that a turn stores in a workload. -/
def written? (id : WorkloadId) (c : Clients) : Turn → Option Int
  | .update i kind n => (c.answer? i kind n).bind (·.count? id)
  | _ => none

/-- The counts that some turns store in a workload, one for each update that is taken. -/
def written (id : WorkloadId) (c : Clients) : List Turn → List Int
  | [] => []
  | t :: turns => (c.written? id t).toList ++ (c.next t).written id turns

/-- No turn and no reaction to a write replaces a workload, and its version is not the largest. -/
structure Undisturbed (id : WorkloadId) (c : Clients) (t : Turn) : Prop where
  reactions : c.world.Retains id
  turn : ∀ d, t = .change d → ¬ d.Replaces id
  version : c.world.cluster.CanRaise id

/-- A client fetches another copy, and is given it. -/
def Refetches (i : Nat) (c : Clients) (t : Turn) : Prop :=
  ∃ id x, t = .fetch i id ∧ (c.world.fetch id).1 = .ok x

/-! ## Marks -/

theorem cluster_next_fetch (c : Clients) (i : Nat) (id : WorkloadId) :
    (c.next (.fetch i id)).world.cluster = c.world.cluster := by
  have ha := c.world.fetch_asked id
  rw [next]
  rcases hf : c.world.fetch id with ⟨e | x, w⟩ <;> rw [hf] at ha <;> exact ha.cluster

/-- A turn moves the mark of a workload by what it stores there. -/
theorem mark?_next {id : WorkloadId} {c : Clients} {t : Turn} (h : Undisturbed id c t) :
    (c.next t).world.cluster.mark? id =
      (c.world.cluster.mark? id).map (markAfter · (c.written? id t).toList) := by
  cases t with
  | fetch i other =>
    rw [cluster_next_fetch]
    exact Option.map_id'.symm
  | update i kind n =>
    rw [next, written?, answer?]
    cases c.copies i with
    | none => exact Option.map_id'.symm
    | some x => exact World.mark?_storeThrough h.reactions h.version
  | change d =>
    rw [next, Cluster.mark?_apply (h.turn d rfl)]
    exact Option.map_id'.symm

/-- **The turns of a run move the mark of a workload by all that they store there.** -/
theorem mark?_run {id : WorkloadId} {c : Clients} {turns : List Turn}
    (h : AtEach next (Undisturbed id) c turns) :
    (c.run turns).world.cluster.mark? id =
      (c.world.cluster.mark? id).map (markAfter · (c.written id turns)) := by
  induction turns generalizing c with
  | nil => exact Option.map_id'.symm
  | cons t turns ih =>
    rw [run, List.foldl_cons]
    refine (ih h.2).trans ?_
    rw [mark?_next h.1, Option.map_map, written]
    exact congrArg (Option.map · _) (funext fun m => (markAfter_append m _ _).symm)

theorem rules_next (c : Clients) (t : Turn) : (c.next t).world.rules = c.world.rules := by
  cases t with
  | fetch i id =>
    have ha := c.world.fetch_asked id
    rw [next]
    rcases hf : c.world.fetch id with ⟨e | x, w⟩ <;> rw [hf] at ha <;> exact ha.quiet.rules
  | update i kind n =>
    rw [next]
    cases c.copies i with
    | none => rfl
    | some x => exact World.storeThrough_rules
  | change d => rfl

/-- No run is long enough to disturb a workload whose version is far from the largest one, if
nothing replaces it. -/
theorem undisturbed_of_length {id : WorkloadId} {c : Clients} {turns : List Turn}
    (hrules : c.world.Retains id) (hturns : ∀ t ∈ turns, ∀ d, t = .change d → ¬ d.Replaces id)
    (hversion : ∀ m, c.world.cluster.mark? id = some m → m.1 + turns.length < versionBound) :
    AtEach next (Undisturbed id) c turns := by
  induction turns generalizing c with
  | nil => trivial
  | cons t turns ih =>
    have hhere : Undisturbed id c t := by
      refine ⟨hrules, hturns t List.mem_cons_self, fun w hw => ?_⟩
      have hfar := hversion (w.version, w.spec) (by rw [Cluster.mark?, hw]; rfl)
      exact Nat.lt_of_le_of_lt (by simp) hfar
    refine ⟨hhere, ih ?_ (fun t' ht' => hturns t' (List.mem_cons_of_mem t ht')) fun m hm => ?_⟩
    · rw [World.Retains, rules_next]
      exact hrules
    · rw [mark?_next hhere] at hm
      obtain ⟨m', hm', rfl⟩ := Option.map_eq_some_iff.1 hm
      have hfar := hversion m' hm'
      have hone : (c.written? id t).toList.length ≤ 1 := Option.length_toList_le
      simp only [markAfter, List.length_cons] at hfar ⊢
      omega

/-! ## Copies -/

/-- A client that fetches a workload holds the copy that it is given. -/
theorem copies_next_fetch {c : Clients} {id : WorkloadId} {x : Workload} (i : Nat)
    (h : (c.world.fetch id).1 = .ok x) : (c.next (.fetch i id)).copies i = some x := by
  rw [next]
  rcases hf : c.world.fetch id with ⟨r, w⟩
  rw [hf] at h
  subst h
  exact Function.update_self ..

theorem copies_next {i : Nat} {c : Clients} {t : Turn} (h : ¬ Refetches i c t) :
    (c.next t).copies i = c.copies i := by
  cases t with
  | fetch j id =>
    rw [next]
    rcases hf : c.world.fetch id with ⟨e | x, w⟩
    · rfl
    · have hij : i ≠ j := by
        rintro rfl
        exact h ⟨id, x, rfl, congrArg Prod.fst hf⟩
      exact Function.update_of_ne hij ..
  | update j kind n =>
    rw [next]
    cases c.copies j <;> rfl
  | change d => rfl

/-- A client keeps its copy until it is given another one. -/
theorem copies_run {i : Nat} {c : Clients} {turns : List Turn}
    (h : AtEach next (fun c t => ¬ Refetches i c t) c turns) :
    (c.run turns).copies i = c.copies i :=
  h.invariant (I := fun d => d.copies i = c.copies i)
    (fun _ _ hd ht => (copies_next ht).trans hd) rfl

/-- The update of a fetched copy is taken exactly if nothing was stored since, the adapter is the
one of its kind, and neither a conflict nor a fault intervenes. -/
theorem answer?_stored_iff {c fetched later : Clients} {id : WorkloadId} {x : Workload} {i : Nat}
    {between : List Turn} (hfetch : (c.world.fetch id).1 = .ok x)
    (hfetched : c.next (.fetch i id) = fetched) (hlater : fetched.run between = later)
    (hturns : AtEach next (Undisturbed id) fetched between)
    (hkept : AtEach next (fun c t => ¬ Refetches i c t) fetched between)
    (hraise : later.world.cluster.CanRaise id) (kind : Kind) (n : Int) :
    (∃ new, later.answer? i kind n = some (.stored new)) ↔
      fetched.written id between = [] ∧ kind = id.kind ∧
        later.world.cluster.pendingConflicts = 0 ∧ (later.world.intercept .update).1 = none := by
  have hget : c.world.cluster.inventory.get? id = some x := World.fetch_ok hfetch
  have hfiled : x.id = id := Inventory.id_of_get? hget
  have hkind : x.kind = id.kind := congrArg WorkloadId.kind hfiled
  have hid : ({ x with spec := n } : Workload).id = id := hfiled
  have hcopy : later.copies i = some x := by
    rw [← hlater, copies_run hkept, ← hfetched, copies_next_fetch i hfetch]
  -- the stored version is the one of the copy, raised once for every update since
  have hmark : later.world.cluster.mark? id =
      some (markAfter (x.version, x.spec) (fetched.written id between)) := by
    rw [← hlater, mark?_run hturns, ← hfetched, cluster_next_fetch, Cluster.mark?, hget]
    rfl
  obtain ⟨live, hlive, hmark⟩ := Option.map_eq_some_iff.1 hmark
  have hversion : live.version = x.version + (fetched.written id between).length :=
    congrArg Prod.fst hmark
  simp only [answer?, hcopy, Option.map_some, Option.some.injEq, World.storeThrough_stored_iff,
    Cluster.write_stored_iff, hid]
  constructor
  · rintro ⟨hpass, hknown, hnone, old, hold, hsame, -⟩
    obtain rfl := Option.some.inj (hlive.symm.trans hold)
    have hlength : (fetched.written id between).length = 0 :=
      Nat.add_left_cancel (hversion.symm.trans hsame)
    exact ⟨List.eq_nil_of_length_eq_zero hlength, hknown.symm.trans hkind, hnone, hpass⟩
  · rintro ⟨hnothing, hknown, hnone, hpass⟩
    rw [hnothing] at hversion
    exact ⟨hpass, hkind.trans hknown.symm, hnone, live, hlive, hversion, hraise live hlive⟩

/-- An update of a workload that can be raised changes no workload and no record unless it is
taken. -/
theorem next_update_quiet {c : Clients} {x : Workload} {i : Nat} {kind : Kind} {n : Int}
    (hcopy : c.copies i = some x) (hraise : c.world.cluster.CanRaise x.id)
    (h : ∀ new, c.answer? i kind n ≠ some (.stored new)) :
    c.world.Quiet (c.next (.update i kind n)).world := by
  simp only [answer?, hcopy, Option.map_some, ne_eq, Option.some.injEq] at h
  rw [next, hcopy]
  exact World.storeThrough_quiet hraise h

/-- **No update is lost.**  Any number of clients fetch workloads and write their copies with other
counts, in any order, while anything happens to the cluster except that a workload is replaced or
that its version is the largest one.  Then its version rises by one with every update of it that is
taken, and its count is that of the last one.  A client's update is taken exactly if none of the
workload was taken since the client fetched it, the client uses the adapter of its kind, and neither
an injected conflict nor a fault intervenes.  An update that is not taken changes no workload and
adds nothing to the record of writes. -/
theorem no_lost_update (c : Clients) {id : WorkloadId} {turns : List Turn}
    (hturns : AtEach next (Undisturbed id) c turns) :
    (∀ x, c.world.cluster.inventory.get? id = some x →
      ∃ y, (c.run turns).world.cluster.inventory.get? id = some y ∧
        y.version = x.version + (c.written id turns).length ∧
        y.spec = (c.written id turns).getLastD x.spec) ∧
    (∀ before i between kind n after,
      turns = before ++ .fetch i id :: (between ++ .update i kind n :: after) →
      (∃ y, ((c.run before).world.fetch id).1 = .ok y) →
      let fetched := (c.run before).next (.fetch i id)
      AtEach next (fun c t => ¬ Refetches i c t) fetched between →
      let later := fetched.run between
      ((∃ new, later.answer? i kind n = some (.stored new)) ↔
        fetched.written id between = [] ∧ kind = id.kind ∧
          later.world.cluster.pendingConflicts = 0 ∧ (later.world.intercept .update).1 = none)) ∧
    ∀ before i kind n after, turns = before ++ .update i kind n :: after →
      let here := c.run before
      ∀ y, here.copies i = some y → y.id = id →
        (∀ new, here.answer? i kind n ≠ some (.stored new)) →
        let later := here.next (.update i kind n)
        later.world.cluster.inventory = here.world.cluster.inventory ∧
          later.world.cluster.history = here.world.cluster.history := by
  refine ⟨?_, ?_, ?_⟩
  · intro x hstored
    have hmark := mark?_run hturns
    rw [Cluster.mark?, Cluster.mark?, hstored] at hmark
    obtain ⟨y, hy, hmark⟩ := Option.map_eq_some_iff.1 hmark
    exact ⟨y, hy, congrArg Prod.fst hmark, congrArg Prod.snd hmark⟩
  · rintro before i between kind n after rfl ⟨y, hy⟩ fetched hkept later
    obtain ⟨-, -, hturns⟩ := AtEach.append.1 hturns
    obtain ⟨hbetween, hupdate, -⟩ := AtEach.append.1 hturns
    exact answer?_stored_iff hy rfl rfl hbetween hkept hupdate.version kind n
  · rintro before i kind n after rfl here y hcopy rfl hrefused
    obtain ⟨-, hupdate, -⟩ := AtEach.append.1 hturns
    have hquiet := next_update_quiet hcopy hupdate.version hrefused
    exact ⟨hquiet.inventory, hquiet.history⟩

/-- Two clients fetch one workload, and one of them writes after the other one has.  Its update is
refused and changes nothing; it fetches again, meets an injected conflict, and then succeeds with
the same copy. -/
theorem no_lost_update_two_clients :
    let api : Workload := { key := ⟨"shop", "api"⟩, kind := .deployment, spec := 1, version := 4 }
    let c : Clients := { world := { cluster := { inventory := Inventory.put ∅ api } } }
    let stale : List Turn := [.fetch 1 api.id, .fetch 0 api.id, .update 0 .deployment 3]
    let retry : List Turn := [.update 1 .deployment 5, .fetch 1 api.id,
      .change (.injectConflicts 1), .update 1 .deployment 5, .update 1 .deployment 5]
    (∃ y, (c.run (stale ++ retry)).world.cluster.inventory.get? api.id = some y ∧
      y.version = 6 ∧ y.spec = 5) ∧
      (∀ new, (c.run stale).answer? 1 .deployment 5 ≠ some (.stored new)) ∧
      ((c.run stale).next (.update 1 .deployment 5)).world.cluster.history =
        [(api.id, 3)] := by
  intro api c stale retry
  have hstored : c.world.cluster.inventory.get? api.id = some api := Inventory.get?_put_self ∅ api
  have hturns : AtEach next (Undisturbed api.id) c (stale ++ retry) := by
    refine undisturbed_of_length nofun (by simp [stale, retry, Change.Replaces]) fun m hm => ?_
    rw [Cluster.mark?, hstored] at hm
    cases hm
    decide
  obtain ⟨hend, htaken, hrefused⟩ := no_lost_update c hturns
  have hstale : ∀ new, (c.run stale).answer? 1 .deployment 5 ≠ some (.stored new) := by
    intro new hnew
    have hothers : ∀ t ∈ ([.fetch 0 api.id, .update 0 .deployment 3] : List Turn), ∀ d,
        ¬ Refetches 1 d t := by
      simp [Refetches]
    have hiff := htaken [] 1 [.fetch 0 api.id, .update 0 .deployment 3] .deployment 5
      (retry.drop 1) rfl ⟨api, by decide +kernel⟩
      (.of_forall_mem hothers)
    simp only [run, List.foldl_nil, List.foldl_cons, stale] at hiff hnew
    exact absurd (hiff.1 ⟨new, hnew⟩).1 (by decide +kernel)
  refine ⟨?_, hstale, ?_⟩
  · obtain ⟨y, hy, hversion, hcount⟩ := hend api hstored
    have hwritten : c.written api.id (stale ++ retry) = [3, 5] := by decide +kernel
    rw [hwritten] at hversion hcount
    exact ⟨y, hy, hversion, hcount⟩
  · have hsame := hrefused stale 1 .deployment 5 (retry.drop 1) rfl api (by decide +kernel) rfl
      hstale
    rw [hsame.2]
    decide +kernel

end Clients

end ReplicaControl
