import ReplicaControl.Workload

/-!
# Quotas

* `Workload.needed` — what a number of replicas takes of each quota.
* `Workload.isExempt` — the changes that no quota refuses: holding or lowering the count of a
  workload that another controller may scale.
* `Quota.itemNeed`, `batchNeed` — the need that has to be compared with the quotas of the namespace,
  if there is one.
* `Quota.judge` — the verdict on a need: the first quota object with a name whose headroom is less
  than the need refuses it.
-/

namespace ReplicaControl

/-- The limits and the usage that a quota object reports. -/
structure QuotaStatus where
  name : String
  hard : ResourceList
  used : ResourceList
deriving DecidableEq

/-- The quotas of a namespace could not be read. -/
structure QuotaError where
  ns : String
  detail : String
deriving DecidableEq

/-- The error in words. -/
def QuotaError.message (e : QuotaError) : String :=
  "quota source error for namespace " ++ e.ns ++ ": " ++ e.detail

/-- The verdict on a need. -/
inductive Admission where
  /-- Every quota has room. -/
  | allowed
  /-- A quota has too little room, by the amounts below zero. -/
  | denied (quota : String) (shortfall : ResourceList)
deriving DecidableEq

/-- The name under which quotas count a limit. -/
def Quota.nameOfLimit? (limit : String) : Option String :=
  if limit = "cpu" then some "limits.cpu"
  else if limit = "memory" then some "limits.memory"
  else none

namespace Workload

/-- What a number of replicas takes of each quota. -/
def needed (w : Workload) (replicas : Int) : ResourceList :=
  Table.ofList (w.limits.entries.filterMap fun e =>
    (Quota.nameOfLimit? e.1).map fun name => (name, e.2.scale (max replicas 0)))

/-- Whether no quota refuses the change to a number of replicas. -/
def isExempt (w : Workload) (replicas : Int) : Bool := w.allowsAutoscaling && replicas ≤ w.spec

end Workload

namespace Quota

/-- The need of one change, unless it is exempt. -/
def itemNeed (w : Workload) (replicas : Int) : Option ResourceList :=
  if w.isExempt replicas then none else some (w.needed replicas)

/-- The summed need of the changes that are not exempt, unless it has no name. -/
def batchNeed (changes : List (Workload × Int)) : Option ResourceList :=
  let total : ResourceList := (changes.filter fun c => !c.1.isExempt c.2).foldl
    (fun sum c => ResourceList.add sum (c.1.needed c.2)) ∅
  if total.isEmpty then none else some total

/-- The room that a quota object has, for each of its names. -/
def headroom (q : QuotaStatus) : ResourceList := (q.hard.sub q.used).restrict q.hard

/-- What a quota object lacks for a need: its names with amounts below zero. -/
def shortfall (q : QuotaStatus) (needed : ResourceList) : ResourceList :=
  (((headroom q).sub needed).restrict q.hard).negative

/-- The verdict of quota objects on a need. -/
def judge (needed : ResourceList) : List QuotaStatus → Admission
  | [] => .allowed
  | q :: rest =>
    if (shortfall q needed).isEmpty then judge needed rest else .denied q.name (shortfall q needed)

/-- The verdict on a need, given the answer of the quota source in case it has to be asked. -/
def admission (need : Option ResourceList) (source : Except QuotaError (List QuotaStatus)) :
    Except QuotaError Admission :=
  match need with
  | none => .ok .allowed
  | some needed => source.map (judge needed)

end Quota

end ReplicaControl
