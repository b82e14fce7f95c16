import Mathlib.Data.List.Nodup
import Mathlib.Data.String.Basic
import ReplicaControl.Proofs.RegistryCalls

/-!
# Keys of the registry

* `Call.key?`, `Call.slot` — the key that a call is for, and what the call makes of the entry there.
* `get?_applyAll` — the entry under a key is what the calls for that key make of it.
* `answer`, `answer_congr` — what a call answers depends on the entry under its key.
* `apply_comm` — calls for different keys commute.
* `Filed.applyAll` — calls that keep keys keep every entry under its own key.
* `ListsExactly` — listings and counts are those of the entries, in the order of the keys;
  `Filed.listsExactly`: so they are if every entry is under its own key.
* `keys_independent` — all of that after any calls.
-/

namespace ReplicaControl

/-- A key is before another one by its namespace, or within a namespace by its name. -/
theorem Key.compare_eq_lt_iff {a b : Key} :
    compare a b = .lt ↔ a.ns < b.ns ∨ a.ns = b.ns ∧ a.name < b.name := by
  rw [show compare a b = (compare a.ns b.ns).then (compare a.name b.name) from rfl,
    Ordering.then_eq_lt, compare_lt_iff_lt, compare_lt_iff_lt, compare_eq_iff_eq]

namespace Registry

/-! ## Calls for single keys -/

/-- The key that a call is for; a question is for none. -/
def Call.key? : Call → Option Key
  | .upsert w _ _ _ => some w.key
  | .update key _ => some key
  | .claim w _ => some w.key
  | .settle key _ => some key
  | .release key => some key
  | .remove key => some key
  | .query => none

/-- What a call makes of the entry under its key. -/
def Call.slot : Call → Option Workload → Option Workload
  | .upsert w failure message desired, _ =>
    some { w with failure, failureMessage := message, desired }
  | .update _ f, e => e.map fun e => { f e with desired := e.desired }
  | .claim w desired, some e =>
    if e.scaling || e.failure then some { e with desired } else some (started w desired)
  | .claim w desired, none => some (started w desired)
  | .settle _ reached, some e =>
    if e.desired = reached then none
    else some { e with failure := false, failureMessage := "", scaling := false }
  | .settle _ _, none => none
  | .release _, some e => if e.failure then some { e with scaling := false } else none
  | .release _, none => none
  | .remove _, _ => none
  | .query, e => e

/-- A call leaves the entries under other keys alone. -/
theorem get?_apply_of_ne (r : Registry) {c : Call} {key : Key} (h : c.key? ≠ some key) :
    (r.apply c).get? key = r.get? key := by
  have hne : ∀ other, c.key? = some other → key ≠ other := by
    rintro other hother rfl
    exact h hother
  cases c with
  | upsert w failure message desired =>
    rw [apply, get?_upsert, if_neg (hne _ rfl)]
  | update other f => rw [apply, get?_update, if_neg (hne _ rfl)]
  | claim w desired => exact r.get?_claim_of_ne w desired (hne _ rfl)
  | settle other reached => exact r.get?_settle_of_ne reached (hne _ rfl)
  | release other => exact r.get?_release_of_ne (hne _ rfl)
  | remove other => exact r.get?_erase_of_ne (hne _ rfl)
  | query => rfl

/-- A call makes of the entry under its key what it makes of such an entry in any registry. -/
theorem get?_apply_self (r : Registry) {c : Call} {key : Key} (h : c.key? = some key) :
    (r.apply c).get? key = c.slot (r.get? key) := by
  cases c with
  | upsert w failure message desired =>
    cases h
    rw [apply, get?_upsert, if_pos rfl]
    rfl
  | update other f =>
    cases h
    rw [apply, get?_update, if_pos rfl]
    rfl
  | claim w desired =>
    cases h
    rw [apply, claim]
    cases hget : r.get? w.key with
    | none => simp [Call.slot]
    | some e => cases hs : e.scaling <;> cases hf : e.failure <;>
        simp [Call.slot, hs, hf, get?_retarget, hget]
  | settle other reached =>
    cases h
    rw [apply, settle]
    cases hget : r.get? key with
    | none => exact hget
    | some e => by_cases hd : e.desired = reached <;>
        simp [Call.slot, hd, Table.get?_adjust, hget]
  | release other =>
    cases h
    rw [apply, release]
    cases hget : r.get? key with
    | none => exact hget
    | some e => cases hf : e.failure <;> simp [Call.slot, hf, Table.get?_adjust, hget]
  | remove other =>
    cases h
    exact r.get?_erase_self key
  | query => cases h

/-- The calls for a key. -/
def callsFor (key : Key) (calls : List Call) : List Call := calls.filter (·.key? = some key)

theorem callsFor_cons (key : Key) (c : Call) (calls : List Call) :
    callsFor key (c :: calls) =
      if c.key? = some key then c :: callsFor key calls else callsFor key calls := by
  simp only [callsFor, List.filter_cons, decide_eq_true_eq]

/-- The entry under a key after any calls is what the calls for that key make of it. -/
theorem get?_applyAll (r : Registry) (calls : List Call) (key : Key) :
    (r.applyAll calls).get? key =
      (callsFor key calls).foldl (fun e c => c.slot e) (r.get? key) := by
  induction calls generalizing r with
  | nil => rfl
  | cons c calls ih =>
    rw [show r.applyAll (c :: calls) = (r.apply c).applyAll calls from rfl, ih, callsFor_cons]
    split
    · rw [List.foldl_cons, get?_apply_self r ‹_›]
    · rw [get?_apply_of_ne r ‹_›]

/-! ## Calls for different keys -/

/-- There is no key that two calls are both for. -/
def Call.Apart (c d : Call) : Prop := ∀ key, c.key? = some key → d.key? ≠ some key

/-- Calls for different keys can be made in either order. -/
theorem apply_comm (r : Registry) {c d : Call} (h : c.Apart d) :
    (r.apply c).apply d = (r.apply d).apply c := by
  refine Table.ext_get? fun key => ?_
  by_cases hc : c.key? = some key
  · have hd := h key hc
    rw [get?_apply_of_ne _ hd, get?_apply_self r hc, get?_apply_self _ hc, get?_apply_of_ne r hd]
  · rw [get?_apply_of_ne _ hc]
    by_cases hd : d.key? = some key
    · rw [get?_apply_self _ hd, get?_apply_self _ hd, get?_apply_of_ne r hc]
    · rw [get?_apply_of_ne _ hd, get?_apply_of_ne _ hd, get?_apply_of_ne r hc]

/-- What a call can answer. -/
inductive Answer where
  | claim (answer : Claim)
  /-- Whether an entry went. -/
  | settle (went : Bool)
  /-- An entry, if there is one. -/
  | entry (e : Option Workload)

/-- What a call answers that changes entries, if it answers. -/
def answer (r : Registry) : Call → Option Answer
  | .upsert .. | .release _ | .query => none
  | .update key f => some (.entry ((r.update key f).get? key))
  | .claim w desired => some (.claim (r.claim w desired).1)
  | .settle key reached => some (.settle (r.settle key reached).1)
  | .remove key => some (.entry (r.get? key))

/-- What a call answers depends on the entry under its key. -/
theorem answer_congr {r r' : Registry} {c : Call}
    (h : ∀ key, c.key? = some key → r'.get? key = r.get? key) : r'.answer c = r.answer c := by
  cases c with
  | upsert | release | query => rfl
  | update key f => simp only [answer, get?_update, h key rfl]
  | claim w desired =>
    simp only [answer, claim, h w.key rfl]
    cases r.get? w.key with
    | none => rfl
    | some e => cases hs : e.scaling <;> cases hf : e.failure <;> simp [hs, hf]
  | settle key reached =>
    simp only [answer, settle, h key rfl]
    cases r.get? key with
    | none => rfl
    | some e => by_cases hd : e.desired = reached <;> simp [hd]
  | remove key => simp only [answer, h key rfl]

/-- What a call answers does not depend on a call for another key before. -/
theorem answer_apply (r : Registry) {c d : Call} (h : c.Apart d) :
    (r.apply c).answer d = r.answer d :=
  answer_congr fun key hd => r.get?_apply_of_ne fun hc => h key hc hd

/-! ## Entries under their own keys -/

/-- Changes in place keep the namespace and the name. -/
def Call.KeepsKey : Call → Prop
  | .update _ f => ∀ e, (f e).key = e.key
  | _ => True

theorem Filed.apply {r : Registry} (h : r.Filed) {c : Call} (hc : c.KeepsKey) :
    (r.apply c).Filed := by
  cases c with
  | upsert w failure message desired => exact h.upsert w failure message desired
  | update key f => exact h.update key hc
  | claim w desired => exact h.claim w desired
  | settle key reached => exact h.settle key reached
  | release key => exact h.release key
  | remove key => exact h.erase key
  | query => exact h

theorem Filed.applyAll {r : Registry} (h : r.Filed) {calls : List Call}
    (hcalls : ∀ c ∈ calls, c.KeepsKey) : (r.applyAll calls).Filed := by
  refine List.foldlRecOn calls _ h fun r' hr' c hc => ?_
  exact hr'.apply (hcalls c hc)

/-! ## Listings -/

/-- A list has every entry once, with its key. -/
structure IsListing (r : Registry) (stored : List (Key × Workload)) : Prop where
  nodup : (stored.map Prod.fst).Nodup
  mem_iff : ∀ key e, (key, e) ∈ stored ↔ r.get? key = some e

/-- Sorts workloads by their keys; those of one key stay in their order. -/
def sortByKey (xs : List Workload) : List Workload :=
  xs.mergeSort fun a b => (compare a.key b.key).isLE

/-- The counts of all workloads, of running attempts and of failures, as a document. -/
def counts (xs : List Workload) : Document := .table [
  ("entries", .int xs.length),
  ("scaling", .int (xs.countP (·.scaling))),
  ("failed", .int (xs.countP (·.failure)))]

/-- The listings and the counts are exact. -/
structure ListsExactly (r : Registry) : Prop where
  mem_snapshot_iff : ∀ e, e ∈ r.snapshot ↔ r.get? e.key = some e
  increasing : r.snapshot.Pairwise fun a b =>
    a.key.ns < b.key.ns ∨ a.key.ns = b.key.ns ∧ a.key.name < b.key.name
  failures_eq : r.failures = r.snapshot.filter (·.failure)
  summary_eq : r.summary = counts r.snapshot
  size_eq : r.size = r.snapshot.length
  /-- In whatever order the entries are stored, sorting and counting them gives the same. -/
  of_listing : ∀ stored, r.IsListing stored →
    sortByKey (stored.map Prod.snd) = r.snapshot ∧
    sortByKey ((stored.map Prod.snd).filter (·.failure)) = r.failures ∧
    counts (stored.map Prod.snd) = r.summary ∧ stored.length = r.size

theorem summary_eq_counts (r : Registry) : r.summary = counts r.snapshot := by
  rw [summary, counts, scalingCount, failedCount, failures, List.countP_eq_length_filter,
    List.countP_eq_length_filter, snapshot, Table.values, List.length_map, Table.size]

theorem counts_of_perm {xs ys : List Workload} (h : xs.Perm ys) : counts xs = counts ys := by
  rw [counts, counts, h.length_eq, h.countP_eq, h.countP_eq]

/-- Workloads in strictly increasing order of their keys are what they are sorted to. -/
theorem sortByKey_of_perm {xs ys : List Workload} (h : xs.Perm ys)
    (hys : ys.Pairwise fun a b => compare a.key b.key = .lt) : sortByKey xs = ys := by
  have htrans : ∀ a b c : Workload, (compare a.key b.key).isLE → (compare b.key c.key).isLE →
      (compare a.key c.key).isLE := fun a b c hab hbc => Std.TransCmp.isLE_trans hab hbc
  have htotal : ∀ a b : Workload, (compare a.key b.key).isLE || (compare b.key a.key).isLE := by
    intro a b
    have hswap : compare a.key b.key = (compare b.key a.key).swap := Std.OrientedCmp.eq_swap
    rw [hswap]
    cases compare b.key a.key <;> rfl
  have hsorted := List.pairwise_mergeSort htrans htotal xs
  have hperm : (sortByKey xs).Perm ys := (List.mergeSort_perm xs _).trans h
  have hnodup : (ys.map Workload.key).Nodup :=
    List.pairwise_map.2 (hys.imp fun hlt heq => by simp [heq] at hlt)
  refine hperm.eq_of_pairwise (fun a b ha hb hab hba => ?_) hsorted
    (hys.imp fun hlt => by rw [hlt]; rfl)
  -- two keys that are not after each other are the same, and no key occurs twice
  have hkey : a.key = b.key := Std.LawfulEqOrd.eq_of_compare (Std.OrientedCmp.isLE_antisymm hab hba)
  exact List.inj_on_of_nodup_map hnodup (hperm.mem_iff.1 ha) hb hkey

namespace Filed

variable {r : Registry}

theorem increasing (h : r.Filed) :
    r.snapshot.Pairwise fun a b => compare a.key b.key = .lt := by
  refine List.pairwise_map.2 (r.increasing.imp_of_mem fun {a b} ha hb hlt => ?_)
  rwa [h a.1 a.2 (r.mem_entries_iff.1 ha), h b.1 b.2 (r.mem_entries_iff.1 hb)]

theorem mem_snapshot_iff (h : r.Filed) {e : Workload} :
    e ∈ r.snapshot ↔ r.get? e.key = some e := by
  constructor
  · intro he
    obtain ⟨⟨key, e⟩, hentry, rfl⟩ := List.mem_map.1 he
    have hget := r.mem_entries_iff.1 hentry
    rwa [h key e hget]
  · intro hget
    exact List.mem_map.2 ⟨(e.key, e), r.mem_entries_iff.2 hget, rfl⟩

end Filed

theorem isListing_iff_perm {r : Registry} {stored : List (Key × Workload)} :
    r.IsListing stored ↔ stored.Perm r.entries := by
  constructor
  · rintro ⟨hnodup, hmem⟩
    refine (List.perm_ext_iff_of_nodup hnodup.of_map r.nodup_keys.of_map).2 fun ⟨key, e⟩ => ?_
    rw [hmem, r.mem_entries_iff]
  · intro h
    refine ⟨(h.map Prod.fst).nodup_iff.2 r.nodup_keys, fun key e => ?_⟩
    rw [h.mem_iff, r.mem_entries_iff]

theorem Filed.listsExactly {r : Registry} (h : r.Filed) : r.ListsExactly where
  mem_snapshot_iff e := h.mem_snapshot_iff
  increasing := h.increasing.imp Key.compare_eq_lt_iff.1
  failures_eq := rfl
  summary_eq := r.summary_eq_counts
  size_eq := (List.length_map _).symm
  of_listing stored hstored := by
    have hentries : stored.Perm r.entries := isListing_iff_perm.1 hstored
    have hperm : (stored.map Prod.snd).Perm r.snapshot := hentries.map Prod.snd
    refine ⟨sortByKey_of_perm hperm h.increasing,
      sortByKey_of_perm (hperm.filter _) (h.increasing.filter _), ?_, hentries.length_eq⟩
    rw [counts_of_perm hperm, summary_eq_counts]

/-- **Keys are independent, and listings are exact.**  After any calls whose changes in place keep
keys, every entry is under its own key, and is what the calls for that key made of it, in their
order; so the order of calls for different keys changes neither the registry nor an answer.  The
snapshot lists every entry once in increasing order, the failures are the failed ones of it, and the
counts are those over it. -/
theorem keys_independent {calls : List Call} (hcalls : ∀ c ∈ calls, c.KeepsKey) :
    (applyAll ∅ calls).Filed ∧
    (∀ key, (applyAll ∅ calls).get? key =
      (callsFor key calls).foldl (fun e c => c.slot e) none) ∧
    (∀ calls', (∀ key, callsFor key calls' = callsFor key calls) →
      applyAll ∅ calls' = applyAll ∅ calls) ∧
    (∀ c d : Call, c.Apart d →
      ((applyAll ∅ calls).apply c).apply d = ((applyAll ∅ calls).apply d).apply c ∧
      ((applyAll ∅ calls).apply c).answer d = (applyAll ∅ calls).answer d) ∧
    (applyAll ∅ calls).ListsExactly := by
  have hfiled : (applyAll ∅ calls).Filed := filed_empty.applyAll hcalls
  refine ⟨hfiled, get?_applyAll ∅ calls, fun calls' hsame => ?_, fun c d h => ?_,
    hfiled.listsExactly⟩
  · refine Table.ext_get? fun key => ?_
    rw [get?_applyAll, get?_applyAll, hsame]
  · exact ⟨apply_comm _ h, answer_apply _ h⟩

/-- Two workloads of one name in two namespaces: a failure of the one is noted, and the other is
claimed and settled in between. -/
theorem keys_independent_two_keys :
    let api : Workload := { key := ⟨"shop", "api"⟩, kind := .deployment, spec := 1 }
    let bill : Workload := { api with key := ⟨"billing", "api"⟩ }
    let fail : Workload → Workload := ({ · with failure := true, failureMessage := "denied" })
    let calls : List Call := [.upsert api false "" 3, .claim bill 2, .update api.key fail,
      .settle bill.key 5]
    (∀ c ∈ calls, c.KeepsKey) ∧
      (applyAll ∅ calls).get? api.key = some (fail { api with desired := 3 }) ∧
      applyAll ∅ [.upsert api false "" 3, .update api.key fail, .claim bill 2,
        .settle bill.key 5] = applyAll ∅ calls ∧
      sortByKey [fail { api with desired := 3 }, { bill with desired := 2 }] =
        (applyAll ∅ calls).snapshot := by
  intro api bill fail calls
  have hcalls : ∀ c ∈ calls, c.KeepsKey := by
    simp only [calls, List.forall_mem_cons]
    exact ⟨trivial, trivial, fun _ => rfl, trivial, List.forall_mem_nil _⟩
  obtain ⟨-, hentries, horder, -, hlists⟩ := keys_independent hcalls
  have hlisting : (applyAll ∅ calls).IsListing
      [(api.key, fail { api with desired := 3 }), (bill.key, { bill with desired := 2 })] :=
    isListing_iff_perm.2 (by decide +kernel)
  refine ⟨hcalls, hentries api.key, horder _ fun key => ?_, (hlists.of_listing _ hlisting).1⟩
  by_cases hkey : api.key = key
  · have hbill : bill.key ≠ key := hkey ▸ by decide
    simp [callsFor_cons, calls, Call.key?, hkey, hbill]
  · simp [callsFor_cons, calls, Call.key?, hkey]

end Registry

end ReplicaControl
