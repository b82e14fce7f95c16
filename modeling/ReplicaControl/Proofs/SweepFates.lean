import Mathlib.Data.List.TakeWhile
import ReplicaControl.Proofs.Plan

/-!
# What becomes of failed entries

* `Sweep.Fate` — what a sweep makes of a failed entry, with the reason.  `visitAll_eq`, `survey_eq`:
  a sweep finds out the fates of all failed entries, launches what they say and counts them.
* `Fate.remains`, `survey_spec` — every fate leaves behind what it says, and the entries of other
  keys are left alone.
* `Fate.Fits`, `Explains` — the reasons: what the sweep read when it came to the entry, and what it
  resolved for the first entry of the namespace.  `lookup_scan`: it keeps what it resolved.
  `explains_fatesOf`: every fate has its reason.
* `Verdict`, `Verdict.Leaves` — under what a report counts an entry in the end, and what the
  registry has for its key then.  `mem_zip_verdicts`: the verdict on an entry is the one on its
  fate, or on the ending of its attempt.
* `total_foldl_record`, `count_verdicts` — a report counts every ending and every verdict once.
-/

namespace ReplicaControl.Sweep

/-! ## Fates -/

/-- What a sweep makes of an entry. -/
inductive Fate where
  /-- An attempt is running for it. -/
  | inFlight
  /-- No state holds in its namespace. -/
  | unresolved
  /-- Workloads of its kind cannot be reached. -/
  | noAdapter
  | unread (e : AdapterError)
  | gone
  | untargeted (e : TargetError)
  | retried (l : Launch)

namespace Fate

/-- The step of a sweep. -/
def step : Fate → Step
  | gone => .removed
  | untargeted _ => .untargeted
  | retried l => .launched l
  | _ => .skipped

/-- Whether the object was gone. -/
def isGone : Fate → Bool
  | gone => true
  | _ => false

/-- Whether the entry has no target. -/
def isUntargeted : Fate → Bool
  | untargeted _ => true
  | _ => false

/-- The attempt that is launched. -/
def launch? : Fate → Option Launch
  | retried l => some l
  | _ => none

/-- The registry after an entry met its fate. -/
def file (r : Registry) (entry : Workload) : Fate → Registry
  | gone => r.erase entry.key
  | untargeted e => r.update entry.key ({ · with failureMessage := e.message })
  | retried l =>
    r.upsert { entry with scaling := true } true entry.failureMessage l.2.replicas
  | _ => r

/-- What remains of an entry. -/
def remains (entry : Workload) : Fate → Option Workload
  | gone => none
  | untargeted e => some { entry with failureMessage := e.message }
  | retried l => some { entry with scaling := true, failure := true, desired := l.2.replicas }
  | _ => some entry

theorem get?_file_of_ne {r : Registry} {entry : Workload} {key : Key} (f : Fate)
    (h : key ≠ entry.key) : (f.file r entry).get? key = r.get? key := by
  cases f with
  | gone => exact r.get?_erase_of_ne h
  | untargeted e => exact (r.get?_update _ _ _).trans (if_neg h)
  | retried l => exact (r.get?_upsert _ _ _ _ _).trans (if_neg h)
  | inFlight | unresolved | noAdapter | unread => rfl

theorem get?_file {r : Registry} {entry : Workload} (f : Fate)
    (h : r.get? entry.key = some entry) : (f.file r entry).get? entry.key = f.remains entry := by
  cases f with
  | gone => exact r.get?_erase_self _
  | untargeted e => exact (r.get?_update _ _ _).trans (by rw [if_pos rfl, h]; rfl)
  | retried l => exact (r.get?_upsert _ _ _ _ _).trans (if_pos rfl)
  | inFlight | unresolved | noAdapter | unread => exact h

end Fate

/-- Reads what is needed to retry an entry in the state that holds in its namespace. -/
def read (s : Settings) (w : World) (entry : Workload) (state : State) : Fate × World :=
  if s.adapters.contains entry.kind then
    match w.fetch entry.id with
    | (.error (.notFound _), w) => (.gone, w)
    | (.error e, w) => (.unread e, w)
    | (.ok live, w) =>
      match live.targetFor state with
      | .error e => (.untargeted e, w)
      | .ok target =>
        (.retried ({ live with failure := true, failureMessage := entry.failureMessage }, target),
          w)
  else (.noAdapter, w)

theorem visit_eq (s : Settings) (w : World) (entry : Workload) (state : State) :
    visit s w entry state = ((read s w entry state).1.step,
      { (read s w entry state).2 with
        registry := (read s w entry state).1.file (read s w entry state).2.registry entry }) := by
  by_cases hk : s.adapters.contains entry.kind
  · rcases hf : w.fetch entry.id with ⟨e | live, w₁⟩
    · cases e <;> simp only [visit, read, hk, hf, if_true] <;> rfl
    · cases ht : live.targetFor state <;>
        simp only [visit, read, retry, hk, hf, ht, if_true] <;> rfl
  · simp only [visit, read, hk]
    rfl

/-- Reading changes nothing. -/
theorem read_asked (s : Settings) (w : World) (entry : Workload) (state : State) :
    w.Asked (read s w entry state).2 := by
  have ha := w.fetch_asked entry.id
  unfold read
  split
  · split
    · rename_i hf
      rwa [hf] at ha
    · rename_i hf
      rwa [hf] at ha
    · rename_i hf
      rw [hf] at ha
      split <;> exact ha
  · exact .refl w

/-- Looks at an entry. -/
def examine (s : Settings) (w : World) (states : States) (entry : Workload) :
    Fate × States × World :=
  if entry.scaling then (.inFlight, states, w)
  else
    match stateOf w states entry.key.ns with
    | (none, states, w) => (.unresolved, states, w)
    | (some state, states, w) =>
      match read s w entry state with
      | (fate, w) => (fate, states, { w with registry := fate.file w.registry entry })

/-- The fates of entries that are looked at one after the other. -/
def fates (s : Settings) (w : World) (states : States) : List Workload → List Fate × World
  | [] => ([], w)
  | entry :: rest =>
    match examine s w states entry with
    | (fate, states, w) =>
      match fates s w states rest with
      | (more, w) => (fate :: more, w)

/-- **A sweep gives every entry its fate.** -/
theorem visitAll_eq (s : Settings) (entries : List Workload) (w : World) (states : States)
    (r : Report) (launches : List Launch) :
    visitAll s w states r launches entries =
      ((fates s w states entries).1.foldl (fun p f => f.step.note p.1 p.2) (r, launches),
        (fates s w states entries).2) := by
  induction entries generalizing w states r launches with
  | nil => rfl
  | cons entry rest ih =>
    by_cases hs : entry.scaling
    · simp only [visitAll, fates, examine, hs, if_true, ih]
      rfl
    · rcases hstate : stateOf w states entry.key.ns with ⟨_ | state, states₁, w₁⟩
      · simp only [visitAll, fates, examine, hs, hstate, ih]
        rfl
      · simp only [visitAll, fates, examine, hs, hstate, visit_eq, ih]
        rfl

/-- Looking at an entry concerns the registry's entry of its key only. -/
theorem examine_spec (s : Settings) (w : World) (states : States) {entry : Workload}
    (hget : w.registry.get? entry.key = some entry) :
    (examine s w states entry).2.2.registry.get? entry.key =
        (examine s w states entry).1.remains entry ∧
      ∀ key, key ≠ entry.key →
        (examine s w states entry).2.2.registry.get? key = w.registry.get? key := by
  unfold examine
  split
  · exact ⟨hget, fun _ _ => rfl⟩
  · have ha := stateOf_asked w states entry.key.ns
    split
    · rename_i hstate
      rw [hstate] at ha
      exact ⟨by rw [ha.registry]; exact hget, fun _ _ => by rw [ha.registry]⟩
    · rename_i state states₁ w₁ hstate
      rw [hstate] at ha
      dsimp only
      rw [(ha.trans (read_asked s w₁ entry state)).registry]
      exact ⟨Fate.get?_file _ hget, fun _ hk => Fate.get?_file_of_ne _ hk⟩

theorem examine_cluster (s : Settings) (w : World) (states : States) (entry : Workload) :
    (examine s w states entry).2.2.cluster = w.cluster := by
  unfold examine
  split
  · rfl
  · have ha := stateOf_asked w states entry.key.ns
    split
    · rename_i hstate
      rw [hstate] at ha
      exact ha.cluster
    · rename_i state states₁ w₁ hstate
      rw [hstate] at ha
      exact (ha.trans (read_asked s w₁ entry state)).cluster

/-- **Every fate leaves behind what it says**, and the entries of other keys are left alone. -/
theorem fates_spec (s : Settings) {entries : List Workload} {w : World} {states : States}
    (hkeys : (entries.map Workload.key).Nodup)
    (hentries : ∀ e ∈ entries, w.registry.get? e.key = some e) :
    (fates s w states entries).2.cluster = w.cluster ∧
      (fates s w states entries).1.length = entries.length ∧
      (∀ p ∈ entries.zip (fates s w states entries).1,
        (fates s w states entries).2.registry.get? p.1.key = p.2.remains p.1) ∧
      ∀ key, key ∉ entries.map Workload.key →
        (fates s w states entries).2.registry.get? key = w.registry.get? key := by
  induction entries generalizing w states with
  | nil => exact ⟨rfl, rfl, (fun p hp => nomatch hp), fun _ _ => rfl⟩
  | cons entry rest ih =>
    obtain ⟨hnew, hkeys⟩ := List.nodup_cons.1 hkeys
    have hcluster := examine_cluster s w states entry
    have hex := examine_spec s w states (hentries entry List.mem_cons_self)
    have hne : ∀ e ∈ rest, e.key ≠ entry.key := fun e he hk =>
      hnew (hk ▸ List.mem_map_of_mem he)
    unfold fates
    rcases hx : examine s w states entry with ⟨fate, states₁, w₁⟩
    rw [hx] at hcluster hex
    obtain ⟨hown, hothers⟩ := hex
    have hrest : ∀ e ∈ rest, w₁.registry.get? e.key = some e := fun e he =>
      (hothers e.key (hne e he)).trans (hentries e (List.mem_cons_of_mem _ he))
    obtain ⟨hcluster', hlen, hall, hkept⟩ := @ih w₁ states₁ hkeys hrest
    refine ⟨hcluster'.trans hcluster, by simp [hlen], fun p hp => ?_, fun key hkey => ?_⟩
    · rcases List.mem_cons.1 hp with rfl | hp
      · exact (hkept _ hnew).trans hown
      · exact hall p hp
    · simp only [List.map_cons, List.mem_cons, not_or] at hkey
      exact (hkept key hkey.2).trans (hothers key hkey.1)

/-! ## Reasons -/

/-- The world after a sweep looked at some entries. -/
def surveyed (s : Settings) (w : World) (entries : List Workload) : World :=
  (visitAll s w [] {} [] entries).2

/-- A sweep needs no state of a namespace for an entry: an attempt is running for the entry, or it
is of another namespace. -/
def passes (ns : String) (entry : Workload) : Bool := entry.scaling || entry.key.ns != ns

/-- What a sweep finds to be the state of a namespace for an entry behind others: it resolves the
state once, when it comes to the first entry that needs it. -/
def resolved (s : Settings) (w : World) (before : List Workload) (ns : String) :
    Except NamespaceState.Unresolved State × World :=
  NamespaceState.resolve (surveyed s w (before.takeWhile (passes ns))) ns

/-- The world in which a sweep looks at the workload of an entry behind others. -/
def reached (s : Settings) (w : World) (before : List Workload) (entry : Workload) : World :=
  if before.all (passes entry.key.ns) then (resolved s w before entry.key.ns).2
  else surveyed s w before

/-- A sweep gets as far as to the workload of an entry, in a state that holds in its namespace. -/
structure Reaches (s : Settings) (w : World) (before : List Workload) (entry : Workload)
    (state : State) : Prop where
  waiting : entry.scaling = false
  resolved : (resolved s w before entry.key.ns).1 = .ok state
  adapter : s.adapters.contains entry.kind = true

/-- The reason for the fate of an entry behind others, in a sweep that begins in a world. -/
def Fate.Fits (s : Settings) (w : World) (before : List Workload) (entry : Workload) : Fate → Prop
  | inFlight => entry.scaling = true
  | unresolved => entry.scaling = false ∧ ∃ e, (resolved s w before entry.key.ns).1 = .error e
  | noAdapter => entry.scaling = false ∧
      (∃ state, (resolved s w before entry.key.ns).1 = .ok state) ∧
      s.adapters.contains entry.kind = false
  | unread e => (∃ state, Reaches s w before entry state) ∧
      ((reached s w before entry).fetch entry.id).1 = .error e ∧ ∀ detail, e ≠ .notFound detail
  | gone => (∃ state, Reaches s w before entry state) ∧
      ∃ detail, ((reached s w before entry).fetch entry.id).1 = .error (.notFound detail)
  | untargeted e => ∃ state live, Reaches s w before entry state ∧
      ((reached s w before entry).fetch entry.id).1 = .ok live ∧ live.targetFor state = .error e
  | retried l => ∃ state live, Reaches s w before entry state ∧
      ((reached s w before entry).fetch entry.id).1 = .ok live ∧
      live.targetFor state = .ok l.2 ∧
      l.1 = { live with failure := true, failureMessage := entry.failureMessage }

/-- The states that a sweep knows after it looked at some entries, and the world then. -/
def scan (s : Settings) (w : World) (entries : List Workload) : States × World :=
  entries.foldl (fun p entry => (examine s p.2 p.1 entry).2) ([], w)

theorem fates_snd (s : Settings) (w : World) (states : States) (entries : List Workload) :
    (fates s w states entries).2 =
      (entries.foldl (fun p entry => (examine s p.2 p.1 entry).2) (states, w)).2 := by
  induction entries generalizing w states with
  | nil => rfl
  | cons entry rest ih => exact ih _ _

theorem surveyed_eq (s : Settings) (w : World) (entries : List Workload) :
    surveyed s w entries = (scan s w entries).2 := by
  rw [surveyed, visitAll_eq, fates_snd]
  rfl

/-- The fate of an entry, by what the sweep knows when it comes to it. -/
theorem getElem?_fates (s : Settings) (w : World) (before : List Workload) (entry : Workload)
    (rest : List Workload) :
    (fates s w [] (before ++ entry :: rest)).1[before.length]? =
      some (examine s (surveyed s w before) (scan s w before).1 entry).1 := by
  rw [surveyed_eq, scan]
  generalize ([] : States) = states
  induction before generalizing w states with
  | nil => rfl
  | cons e before ih => exact ih _ _

theorem scan_concat (s : Settings) (w : World) (before : List Workload) (entry : Workload) :
    scan s w (before ++ [entry]) =
      (examine s (surveyed s w before) (scan s w before).1 entry).2 := by
  rw [surveyed_eq, scan, List.foldl_append]
  rfl

theorem surveyed_cluster (s : Settings) (w : World) (entries : List Workload) :
    (surveyed s w entries).cluster = w.cluster := by
  induction entries using List.reverseRecOn with
  | nil => rfl
  | append_singleton entries entry ih =>
    rw [surveyed_eq, scan_concat]
    exact (examine_cluster ..).trans ih

section

variable {s : Settings} {w : World} {before : List Workload} {ns : String}

theorem resolved_of_all (h : before.all (passes ns) = true) :
    resolved s w before ns = NamespaceState.resolve (surveyed s w before) ns := by
  rw [resolved, List.takeWhile_eq_self_iff.2 (List.all_eq_true.1 h)]

theorem resolved_append (h : before.all (passes ns) = false) (rest : List Workload) :
    resolved s w (before ++ rest) ns = resolved s w before ns := by
  have hlen : (before.takeWhile (passes ns)).length ≠ before.length := by
    intro heq
    have hself := (List.takeWhile_prefix (passes ns)).eq_of_length heq
    rw [List.all_eq_true.2 (List.takeWhile_eq_self_iff.1 hself)] at h
    cases h
  rw [resolved, List.takeWhile_append, if_neg hlen, resolved]

theorem states_examine (s : Settings) (w : World) (states : States) (entry : Workload) :
    (examine s w states entry).2.1 =
      if entry.scaling then states else (stateOf w states entry.key.ns).2.1 := by
  unfold examine
  split
  · rfl
  · rcases stateOf w states entry.key.ns with ⟨_ | state, states₁, w₁⟩ <;> rfl

theorem lookup_stateOf (w : World) (states : States) (ns ns' : String) :
    (stateOf w states ns').2.1.lookup ns =
      if ns = ns' then some ((states.lookup ns).getD (NamespaceState.resolve w ns).1.toOption)
      else states.lookup ns := by
  unfold stateOf
  by_cases hns : ns = ns'
  · subst hns
    rw [if_pos rfl]
    cases hl : states.lookup ns with
    | some state => exact hl
    | none => simp
  · rw [if_neg hns]
    split
    · rfl
    · simp [List.lookup_cons, beq_false_of_ne hns]

/-- **A sweep knows the states that it resolved**, each by the first entry that needed it. -/
theorem lookup_scan (s : Settings) (w : World) (before : List Workload) (ns : String) :
    (scan s w before).1.lookup ns =
      if before.all (passes ns) then none else some (resolved s w before ns).1.toOption := by
  induction before using List.reverseRecOn with
  | nil => rfl
  | append_singleton before entry ih =>
    have hall : (before ++ [entry]).all (passes ns) =
        (before.all (passes ns) && passes ns entry) := by simp
    rw [scan_concat, states_examine, hall]
    cases hpasses : passes ns entry with
    | true =>
      -- the entry needs no state of the namespace
      have hlookup : (if entry.scaling then (scan s w before).1
          else (stateOf (surveyed s w before) (scan s w before).1 entry.key.ns).2.1).lookup ns =
          (scan s w before).1.lookup ns := by
        split
        · rfl
        · rename_i hs
          have hne : ns ≠ entry.key.ns := by
            rintro rfl
            simp [passes, hs] at hpasses
          rw [lookup_stateOf, if_neg hne]
      rw [hlookup, ih, Bool.and_true]
      cases hbefore : before.all (passes ns) with
      | true => rfl
      | false => rw [resolved_append hbefore]
    | false =>
      obtain ⟨hs, rfl⟩ : entry.scaling = false ∧ entry.key.ns = ns := by
        simpa [passes] using hpasses
      rw [hs, if_neg Bool.false_ne_true, lookup_stateOf, if_pos rfl, ih, Bool.and_false]
      cases hbefore : before.all (passes entry.key.ns) with
      | false => rw [resolved_append hbefore]; rfl
      | true =>
        have hresolved : resolved s w (before ++ [entry]) entry.key.ns =
            NamespaceState.resolve (surveyed s w before) entry.key.ns := by
          rw [resolved, List.takeWhile_append_of_pos (List.all_eq_true.1 hbefore),
            List.takeWhile_cons, hpasses]
          simp
        rw [hresolved]
        rfl

/-- What a sweep knows of the state of a namespace when it comes to an entry. -/
theorem stateOf_scan (s : Settings) (w : World) (before : List Workload) (entry : Workload) :
    (stateOf (surveyed s w before) (scan s w before).1 entry.key.ns).1 =
        (resolved s w before entry.key.ns).1.toOption ∧
      (stateOf (surveyed s w before) (scan s w before).1 entry.key.ns).2.2 =
        reached s w before entry := by
  have hlookup := lookup_scan s w before entry.key.ns
  unfold stateOf reached
  cases hbefore : before.all (passes entry.key.ns) with
  | true =>
    rw [hbefore, if_pos rfl] at hlookup
    rw [hlookup, resolved_of_all hbefore]
    exact ⟨rfl, rfl⟩
  | false =>
    rw [hbefore, if_neg Bool.false_ne_true] at hlookup
    rw [hlookup]
    exact ⟨rfl, rfl⟩

/-- What a sweep reads of a workload is the reason for the fate of its entry. -/
theorem read_fits {entry : Workload} {state : State} (hs : entry.scaling = false)
    (hstate : (resolved s w before entry.key.ns).1 = .ok state) :
    (read s (reached s w before entry) entry state).1.Fits s w before entry := by
  unfold read
  cases hk : s.adapters.contains entry.kind with
  | false => exact ⟨hs, ⟨state, hstate⟩, hk⟩
  | true =>
    have hreaches : Reaches s w before entry state := ⟨hs, hstate, hk⟩
    rw [if_pos rfl]
    rcases hf : (reached s w before entry).fetch entry.id with ⟨e | live, w₁⟩
    · have hanswer := congrArg Prod.fst hf
      cases e with
      | notFound detail => exact ⟨⟨state, hreaches⟩, detail, hanswer⟩
      | conflict | other => exact ⟨⟨state, hreaches⟩, hanswer, fun _ he => nomatch he⟩
    · have hanswer := congrArg Prod.fst hf
      dsimp only
      cases ht : live.targetFor state with
      | error e => exact ⟨state, live, hreaches, hanswer, ht⟩
      | ok target => exact ⟨state, live, hreaches, hanswer, ht, rfl⟩

/-- **Every fate has its reason.** -/
theorem examine_fits (s : Settings) (w : World) (before : List Workload) (entry : Workload) :
    (examine s (surveyed s w before) (scan s w before).1 entry).1.Fits s w before entry := by
  obtain ⟨hfst, hsnd⟩ := stateOf_scan s w before entry
  unfold examine
  cases hs : entry.scaling with
  | true => exact hs
  | false =>
    rw [if_neg Bool.false_ne_true]
    rcases hstate : stateOf (surveyed s w before) (scan s w before).1 entry.key.ns with
      ⟨_ | state, states₁, w₁⟩
    · rw [hstate] at hfst
      cases hr : (resolved s w before entry.key.ns).1 with
      | error e => exact ⟨hs, e, hr⟩
      | ok state =>
        rw [hr] at hfst
        cases hfst
    · rw [hstate] at hfst hsnd
      obtain rfl : w₁ = reached s w before entry := hsnd
      cases hr : (resolved s w before entry.key.ns).1 with
      | error e =>
        rw [hr] at hfst
        cases hfst
      | ok state' =>
        rw [hr] at hfst
        obtain rfl := Option.some.inj hfst
        exact read_fits hs hr

theorem reached_cluster (s : Settings) (w : World) (before : List Workload) (entry : Workload) :
    (reached s w before entry).cluster = w.cluster := by
  unfold reached
  split
  · rename_i hall
    rw [resolved_of_all hall, (NamespaceState.resolve_asked _ _).cluster, surveyed_cluster]
  · exact surveyed_cluster s w before

end

namespace Fate

variable {s : Settings} {w : World} {before : List Workload} {entry : Workload}

/-- Only a running attempt keeps a sweep from looking at an entry. -/
theorem Fits.waiting {f : Fate} (h : f.Fits s w before entry) (hf : f ≠ .inFlight) :
    entry.scaling = false := by
  cases f with
  | inFlight => exact absurd rfl hf
  | unresolved => exact h.1
  | noAdapter => exact h.1
  | unread e => exact h.1.elim fun _ hr => hr.waiting
  | gone => exact h.1.elim fun _ hr => hr.waiting
  | untargeted e => exact h.elim fun _ h => h.elim fun _ h => h.1.waiting
  | retried l => exact h.elim fun _ h => h.elim fun _ h => h.1.waiting

/-- An attempt is launched for the workload as it is stored. -/
theorem Fits.stored {l : Launch} (h : (retried l).Fits s w before entry) :
    l.1.id = entry.id ∧ ∃ live, w.cluster.inventory.get? entry.id = some live ∧
      l.1.spec = live.spec := by
  obtain ⟨state, live, -, hanswer, -, hl⟩ := h
  have hget := World.fetch_ok hanswer
  rw [reached_cluster] at hget
  rw [hl]
  exact ⟨(show live.id = _ from Inventory.id_of_get? hget), live, hget, rfl⟩

end Fate

/-! ## Verdicts -/

/-- Under what a report counts an entry; those that are skipped are not counted. -/
inductive Verdict where
  | skipped
  | succeeded
  | failed
  | removed
  | deferred
deriving DecidableEq

/-- The verdict on an entry whose attempt ended; one without an ending broke off. -/
def Verdict.ofEnding : Option Ending → Verdict
  | some (.done (.scaled _)) => succeeded
  | some (.done .unchanged) => succeeded
  | some (.done .removed) => removed
  | some (.done .quotaDenied) => deferred
  | some (.failed _) => failed
  | none => failed

/-- The verdict on an entry, given how its attempt ended if one was launched. -/
def Fate.verdict (ending : Option Ending) : Fate → Verdict
  | gone => .removed
  | untargeted _ => .failed
  | retried _ => .ofEnding ending
  | _ => .skipped

/-- The verdicts on entries, given how the attempts ended that were launched for them, in order. -/
def verdicts : List Fate → List (Option Ending) → List Verdict
  | [], _ => []
  | f :: fates, endings =>
    match f.launch? with
    | some _ => f.verdict endings.head?.join :: verdicts fates endings.tail
    | none => f.verdict none :: verdicts fates endings

/-- What a verdict says about the entry of a key, given what it was. -/
def Verdict.Leaves (old now : Option Workload) : Verdict → Prop
  | skipped => now = old
  | succeeded => now = none
  | removed => now = none
  | failed => ∃ e, now = some e ∧ e.failure = true ∧ e.scaling = false
  | deferred => ∃ e, now = some e ∧ e.failure = true ∧ e.scaling = false

/-- What remains of an entry is not marked as running, unless an attempt is launched for it. -/
theorem Fate.scaling_of_remains {f : Fate} {entry x : Workload} (hlaunch : f.launch? = none)
    (hs : entry.scaling = false) (h : f.remains entry = some x) : x.scaling = false := by
  cases f with
  | retried l => cases hlaunch
  | gone => cases h
  | untargeted | inFlight | unresolved | noAdapter | unread =>
    cases h
    exact hs

/-- The verdict on an entry without an attempt says what its fate leaves of it. -/
theorem Fate.leaves {f : Fate} {entry : Workload} (hlaunch : f.launch? = none)
    (hf : entry.failure = true) (hs : entry.scaling = false) :
    (f.verdict none).Leaves (some entry) (f.remains entry) := by
  cases f with
  | retried l => cases hlaunch
  | untargeted e => exact ⟨_, rfl, hf, hs⟩
  | inFlight | unresolved | noAdapter | unread | gone => rfl

/-- How many entries a report counts under a verdict. -/
def Report.counted (r : Report) : Verdict → Nat
  | .skipped => 0
  | .succeeded => r.succeeded
  | .failed => r.failed
  | .removed => r.removed
  | .deferred => r.deferred

/-- How many entries a report counts. -/
def Report.total (r : Report) : Nat := r.succeeded + r.failed + r.removed + r.deferred

@[simp] theorem length_verdicts (fates : List Fate) (endings : List (Option Ending)) :
    (verdicts fates endings).length = fates.length := by
  induction fates generalizing endings with
  | nil => rfl
  | cons f fates ih => cases f <;> simp [verdicts, Fate.launch?, ih]

theorem Report.counted_record (r : Report) (ending : Option Ending) (v : Verdict) :
    (r.record ending).counted v = r.counted v + if Verdict.ofEnding ending = v then 1 else 0 := by
  rcases ending with _ | ⟨o | e⟩
  · cases v <;> rfl
  · cases o <;> cases v <;> rfl
  · cases v <;> rfl

theorem Report.counted_foldl_record (r : Report) (endings : List (Option Ending)) (v : Verdict) :
    (endings.foldl Report.record r).counted v =
      r.counted v + (endings.map Verdict.ofEnding).count v := by
  induction endings generalizing r with
  | nil => rfl
  | cons ending endings ih =>
    rw [List.foldl_cons, ih, counted_record, List.map_cons, List.count_cons]
    simp only [beq_iff_eq]
    omega

theorem Report.retried_foldl_record (r : Report) (endings : List (Option Ending)) :
    (endings.foldl Report.record r).retried = r.retried := by
  induction endings generalizing r with
  | nil => rfl
  | cons ending endings ih =>
    rw [List.foldl_cons, ih]
    rcases ending with _ | ⟨o | e⟩
    · rfl
    · cases o <;> rfl
    · rfl

/-- Every ending is counted once. -/
theorem Report.total_foldl_record (r : Report) (endings : List (Option Ending)) :
    (endings.foldl Report.record r).total = r.total + endings.length := by
  induction endings generalizing r with
  | nil => rfl
  | cons ending endings ih =>
    have hone : (r.record ending).total = r.total + 1 := by
      rcases ending with _ | ⟨o | e⟩
      · simp only [record, total]
        omega
      · cases o <;> simp only [record, total] <;> omega
      · simp only [record, total]
        omega
    rw [List.foldl_cons, ih, hone, List.length_cons]
    omega

/-- What is noted about fates that were found out one after the other. -/
theorem foldl_note (fates : List Fate) (r : Report) (launches : List Launch) :
    fates.foldl (fun p f => f.step.note p.1 p.2) (r, launches) =
      ({ r with
          retried := r.retried + (fates.filterMap Fate.launch?).length
          failed := r.failed + fates.countP Fate.isUntargeted
          removed := r.removed + fates.countP Fate.isGone },
        launches ++ fates.filterMap Fate.launch?) := by
  induction fates generalizing r launches with
  | nil => simp
  | cons f fates ih =>
    rw [List.foldl_cons, ih]
    cases f <;> simp [Fate.step, Step.note, Fate.launch?, Fate.isGone, Fate.isUntargeted,
      List.filterMap_cons, List.countP_cons] <;>
      omega

/-- The fates of the failed entries of the registry. -/
def fatesOf (s : Settings) (w : World) : List Fate := (fates s w [] w.registry.failures).1

theorem survey_eq (s : Settings) (w : World) :
    survey s w =
      (({ retried := ((fatesOf s w).filterMap Fate.launch?).length
          failed := (fatesOf s w).countP Fate.isUntargeted
          removed := (fatesOf s w).countP Fate.isGone },
        (fatesOf s w).filterMap Fate.launch?), (fates s w [] w.registry.failures).2) := by
  rw [survey, visitAll_eq, foldl_note]
  simp [fatesOf]

/-- What a sweep makes of the failed entries and of the registry. -/
theorem survey_spec (s : Settings) {w : World} (h : w.registry.Filed) :
    (survey s w).2.cluster = w.cluster ∧
      (fatesOf s w).length = w.registry.failures.length ∧
      (∀ p ∈ w.registry.failures.zip (fatesOf s w),
        (survey s w).2.registry.get? p.1.key = p.2.remains p.1) ∧
      ∀ key, key ∉ w.registry.failures.map Workload.key →
        (survey s w).2.registry.get? key = w.registry.get? key := by
  obtain ⟨hkeys, hentries⟩ := failures_spec h
  rw [survey_eq]
  exact fates_spec s hkeys fun e he => (hentries e he).1

/-- The failed entries of a registry have these fates, each for its reason. -/
structure Explains (s : Settings) (w : World) (fates : List Fate) : Prop where
  length : fates.length = w.registry.failures.length
  fits : ∀ before entry after f, w.registry.failures = before ++ entry :: after →
    fates[before.length]? = some f → f.Fits s w before entry

theorem explains_fatesOf (s : Settings) {w : World} (h : w.registry.Filed) :
    Explains s w (fatesOf s w) where
  length := (survey_spec s h).2.1
  fits := by
    intro before entry after f hsplit hf
    rw [fatesOf, hsplit, getElem?_fates] at hf
    cases hf
    exact examine_fits s w before entry

theorem Explains.of_mem_zip {s : Settings} {w : World} {fates : List Fate}
    (h : Explains s w fates) {entry : Workload} {f : Fate}
    (hmem : (entry, f) ∈ w.registry.failures.zip fates) : ∃ before, f.Fits s w before entry := by
  obtain ⟨i, hi⟩ := List.getElem?_of_mem hmem
  obtain ⟨hentry, hf⟩ := List.getElem?_zip_eq_some.1 hi
  obtain ⟨hlt, hat⟩ := List.getElem?_eq_some_iff.1 hentry
  have hat : w.registry.failures[i] = entry := hat
  refine ⟨w.registry.failures.take i, h.fits _ entry (w.registry.failures.drop (i + 1)) f ?_ ?_⟩
  · rw [← hat, List.getElem_cons_drop, List.take_append_drop]
  · rw [List.length_take_of_le (Nat.le_of_lt hlt)]
    exact hf

/-- An entry that is not failed, or has a running attempt, is left alone. -/
theorem survey_get?_of_not_waiting (s : Settings) {w : World} (h : w.registry.Filed) {key : Key}
    {e : Workload} (hget : w.registry.get? key = some e)
    (hnot : e.scaling = true ∨ e.failure = false) :
    (survey s w).2.registry.get? key = some e := by
  obtain ⟨-, hlen, hfates, hothers⟩ := survey_spec s h
  by_cases hkey : key ∈ w.registry.failures.map Workload.key
  · obtain ⟨e', he', rfl⟩ := List.mem_map.1 hkey
    obtain ⟨hget', hf⟩ := (failures_spec h).2 e' he'
    obtain rfl : e' = e := Option.some.inj (hget'.symm.trans hget)
    have hs : e'.scaling = true := hnot.resolve_right (by simp [hf])
    have hfst : (w.registry.failures.zip (fatesOf s w)).map Prod.fst = w.registry.failures :=
      List.map_fst_zip (Nat.le_of_eq hlen.symm)
    rw [← hfst] at he'
    obtain ⟨⟨e, f⟩, hp, rfl⟩ := List.mem_map.1 he'
    have hafter := hfates _ hp
    obtain ⟨before, hfits⟩ := (explains_fatesOf s h).of_mem_zip hp
    cases f with
    | inFlight => exact hafter
    | retried | unresolved | noAdapter | unread | gone | untargeted =>
      exact absurd (hs.symm.trans (hfits.waiting nofun)) (by decide)
  · exact (hothers key hkey).trans hget

/-- Every attempt that a sweep launches is for an entry. -/
theorem exists_retried (s : Settings) {w : World} (h : w.registry.Filed) {l : Launch}
    (hl : l ∈ (survey s w).1.2) :
    ∃ entry, (entry, Fate.retried l) ∈ w.registry.failures.zip (fatesOf s w) := by
  rw [survey_eq] at hl
  obtain ⟨f, hf, hlaunch⟩ := List.mem_filterMap.1 hl
  have hsnd : (w.registry.failures.zip (fatesOf s w)).map Prod.snd = fatesOf s w :=
    List.map_snd_zip (Nat.le_of_eq (survey_spec s h).2.1)
  rw [← hsnd] at hf
  obtain ⟨⟨entry, f'⟩, hp, rfl⟩ := List.mem_map.1 hf
  cases f' with
  | retried l' =>
    obtain rfl := Option.some.inj hlaunch
    exact ⟨entry, hp⟩
  | inFlight | unresolved | noAdapter | unread | gone | untargeted => cases hlaunch

/-- The verdict on an entry is the one on its fate, or on the ending of the attempt that was
launched for it. -/
theorem mem_zip_verdicts {entries : List Workload} {fates : List Fate}
    {endings : List (Option Ending)} {entry : Workload} {v : Verdict}
    (h : (entry, v) ∈ entries.zip (verdicts fates endings)) :
    ∃ f, (entry, f) ∈ entries.zip fates ∧
      (f.launch? = none ∧ v = f.verdict none ∨
        ∃ (l : Launch) (j : Nat), f = .retried l ∧ (fates.filterMap Fate.launch?)[j]? = some l ∧
          v = .ofEnding endings[j]?.join) := by
  induction fates generalizing entries endings with
  | nil => simp [verdicts] at h
  | cons f fates ih =>
    cases entries with
    | nil => simp at h
    | cons e entries =>
      cases hf : f.launch? with
      | none =>
        simp only [verdicts, hf, List.zip_cons_cons, List.mem_cons] at h
        rcases h with h | h
        · cases h
          exact ⟨f, List.mem_cons_self, .inl ⟨hf, rfl⟩⟩
        · obtain ⟨f', hmem, hcase⟩ := ih h
          refine ⟨f', List.mem_cons_of_mem _ hmem, ?_⟩
          rw [List.filterMap_cons_none hf]
          exact hcase
      | some l =>
        obtain rfl : f = .retried l := by
          cases f <;> simp [Fate.launch?] at hf ⊢
          exact hf
        simp only [verdicts, hf, List.zip_cons_cons, List.mem_cons] at h
        rcases h with h | h
        · cases h
          refine ⟨.retried l, List.mem_cons_self, .inr ⟨l, 0, rfl, ?_, ?_⟩⟩
          · simp [Fate.launch?]
          · rw [Fate.verdict, List.head?_eq_getElem?]
        · obtain ⟨f', hmem, hcase⟩ := ih h
          refine ⟨f', List.mem_cons_of_mem _ hmem, hcase.imp id ?_⟩
          rintro ⟨l', j, rfl, hj, hv⟩
          refine ⟨l', j + 1, rfl, ?_, ?_⟩
          · rw [List.filterMap_cons_some hf]
            exact hj
          · rw [hv, List.getElem?_tail]

theorem count_verdicts {fates : List Fate} {endings : List (Option Ending)} {v : Verdict}
    (hv : v ≠ .skipped) (hlen : endings.length = (fates.filterMap Fate.launch?).length) :
    (verdicts fates endings).count v =
      Report.counted { failed := fates.countP Fate.isUntargeted
                       removed := fates.countP Fate.isGone } v +
        (endings.map Verdict.ofEnding).count v := by
  induction fates generalizing endings with
  | nil =>
    obtain rfl := List.eq_nil_of_length_eq_zero hlen
    cases v <;> rfl
  | cons f fates ih =>
    cases f with
    | retried l =>
      cases endings with
      | nil => simp [Fate.launch?] at hlen
      | cons ending endings =>
        have ih := @ih endings (by simpa [Fate.launch?] using hlen)
        simp only [verdicts, Fate.launch?, Fate.verdict, List.count_cons, List.map_cons,
          List.head?_cons, Option.join_some, List.tail_cons, ih]
        cases v <;> simp [Report.counted, Fate.isGone, Fate.isUntargeted] <;> omega
    | _ =>
      have ih := @ih endings (by simpa [Fate.launch?, List.filterMap_cons] using hlen)
      simp only [verdicts, Fate.launch?, Fate.verdict, List.count_cons, ih]
      cases v <;>
        simp [Report.counted, Fate.isGone, Fate.isUntargeted, List.countP_cons] at hv ⊢ <;>
        omega

end ReplicaControl.Sweep
