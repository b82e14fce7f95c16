import ReplicaControl.Workload

/-!
# The registry of attempts

* `Registry` — for each key the workload whose attempt is running or has failed.  The entry's
  `desired` count is the target that the attempt chases.
* `Registry.claim` — takes the right to run an attempt.  It is given to one caller until the entry
  is given back; every other caller only revises the target.
* `Registry.settle`, `release` — give the right back after a success, and without a result.
* `Registry.upsert`, `update` — replace an entry, and change its status in place.  Only `upsert` and
  `claim` write targets.
* `get?_upsert`, `get?_update`, `get?_claim_of_claimed`, … — the entries after each operation.
-/

namespace ReplicaControl

/-- The workloads whose attempts are running or have failed. -/
abbrev Registry := Table Key Workload

/-- The answer to a claim. -/
inductive Claim where
  /-- The caller now owns the attempt. -/
  | claimed
  | inFlight
  /-- The last attempt failed, and the retry is left to the sweep. -/
  | failed
deriving DecidableEq

namespace Registry

/-- Puts an entry in place of whatever its key had. -/
def upsert (r : Registry) (w : Workload) (failure : Bool) (message : String) (desired : Int) :
    Registry :=
  r.insert w.key { w with failure, failureMessage := message, desired }

/-- Changes an entry in place, except for its target. -/
def update (r : Registry) (key : Key) (f : Workload → Workload) : Registry :=
  r.adjust key fun e => { f e with desired := e.desired }

/-- Changes only the target of an entry. -/
def retarget (r : Registry) (key : Key) (desired : Int) : Registry :=
  r.adjust key fun e => { e with desired }

/-- The entry of an attempt that starts now. -/
def started (w : Workload) (desired : Int) : Workload :=
  { w with failure := false, failureMessage := "", scaling := true, desired }

/-- Asks for the right to run the attempt of a workload. -/
def claim (r : Registry) (w : Workload) (desired : Int) : Claim × Registry :=
  match r.get? w.key with
  | some e =>
    if e.scaling then (.inFlight, r.retarget w.key desired)
    else if e.failure then (.failed, r.retarget w.key desired)
    else (.claimed, r.insert w.key (started w desired))
  | none => (.claimed, r.insert w.key (started w desired))

/-- Ends an attempt that reached a count.  The entry goes if that is its target; else it stays with
its flags cleared.  The answer is whether it went. -/
def settle (r : Registry) (key : Key) (reached : Int) : Bool × Registry :=
  match r.get? key with
  | some e =>
    if e.desired = reached then (true, r.erase key)
    else
      (false, r.adjust key fun e =>
        { e with failure := false, failureMessage := "", scaling := false })
  | none => (false, r)

/-- Ends an attempt without a result.  A failed entry stays for the sweep; another one goes. -/
def release (r : Registry) (key : Key) : Registry :=
  match r.get? key with
  | some e => if e.failure then r.adjust key fun e => { e with scaling := false } else r.erase key
  | none => r

/-- Whether an attempt is running for a key. -/
def isInFlight (r : Registry) (key : Key) : Bool := (r.get? key).any (·.scaling)

/-- Whether the last attempt for a key failed. -/
def isFailed (r : Registry) (key : Key) : Bool := (r.get? key).any (·.failure)

/-- Every entry, in the order of the keys. -/
def snapshot (r : Registry) : List Workload := r.values

/-- The failed entries, in the order of the keys. -/
def failures (r : Registry) : List Workload := r.values.filter (·.failure)

/-- The number of entries for running attempts. -/
def scalingCount (r : Registry) : Nat := (r.values.filter (·.scaling)).length

/-- The number of failed entries. -/
def failedCount (r : Registry) : Nat := r.failures.length

/-- The counts of all entries, of running attempts and of failures, as a document. -/
def summary (r : Registry) : Document := .table [
  ("entries", .int r.size),
  ("scaling", .int r.scalingCount),
  ("failed", .int r.failedCount)]

/-! ## The entries after each operation -/

theorem get?_upsert (r : Registry) (w : Workload) (failure : Bool) (message : String)
    (desired : Int) (key : Key) :
    (r.upsert w failure message desired).get? key =
      if key = w.key then some { w with failure, failureMessage := message, desired }
      else r.get? key :=
  r.get?_insert w.key key _

theorem get?_update (r : Registry) (key other : Key) (f : Workload → Workload) :
    (r.update key f).get? other =
      if other = key then (r.get? key).map fun e => { f e with desired := e.desired }
      else r.get? other :=
  r.get?_adjust key other _

theorem get?_retarget (r : Registry) (key other : Key) (desired : Int) :
    (r.retarget key desired).get? other =
      if other = key then (r.get? key).map fun e => { e with desired } else r.get? other :=
  r.get?_adjust key other _

/-- A claim concerns the entry of its own key only. -/
theorem get?_claim_of_ne (r : Registry) (w : Workload) (desired : Int) {key : Key}
    (h : key ≠ w.key) : (r.claim w desired).2.get? key = r.get? key := by
  unfold claim
  split
  · split
    · simp [get?_retarget, h]
    · split
      · simp [get?_retarget, h]
      · exact r.get?_insert_of_ne h _
  · exact r.get?_insert_of_ne h _

/-- After a granted claim the entry shows a running attempt with the target of the claim. -/
theorem get?_claim_of_claimed {r : Registry} {w : Workload} {desired : Int}
    (h : (r.claim w desired).1 = .claimed) :
    (r.claim w desired).2.get? w.key = some (started w desired) := by
  revert h
  unfold claim
  split
  · split
    · simp
    · split
      · simp
      · simp
  · simp

/-- Settling concerns the entry of its own key only. -/
theorem get?_settle_of_ne (r : Registry) {key other : Key} (reached : Int) (h : other ≠ key) :
    (r.settle key reached).2.get? other = r.get? other := by
  unfold settle
  split
  · split
    · exact r.get?_erase_of_ne h
    · simp [Table.get?_adjust, h]
  · rfl

/-- A release concerns the entry of its own key only. -/
theorem get?_release_of_ne (r : Registry) {key other : Key} (h : other ≠ key) :
    (r.release key).get? other = r.get? other := by
  unfold release
  split
  · split
    · simp [Table.get?_adjust, h]
    · exact r.get?_erase_of_ne h
  · rfl

end Registry

end ReplicaControl
