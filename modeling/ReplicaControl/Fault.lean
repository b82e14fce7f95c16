/-!
# Faults

* `Fault` — a number of requests of one sort that fail, after a number that pass.
* `Fault.next` — what happens to the next request: of the faults for its sort that are not used up,
  the first one decides.
-/

namespace ReplicaControl

/-- The sorts of requests that can fail. -/
inductive Request where
  | get
  | update
  | list
  | quotas
  | definitions
  | clusterStates
  | namespaceStates
deriving DecidableEq

/-- How a request to a cluster fails. -/
inductive FaultKind where
  | notFound
  | conflict
  | other
deriving DecidableEq

/-- Requests of one sort that fail. -/
structure Fault where
  request : Request
  kind : FaultKind := .other
  message : String
  /-- How many of them fail. -/
  count : Nat
  /-- How many of them pass before. -/
  skip : Nat := 0
deriving DecidableEq

/-- Whether the next request fails, and by which fault. -/
def Fault.next (request : Request) : List Fault → Option Fault × List Fault
  | [] => (none, [])
  | f :: rest =>
    if f.request = request ∧ 0 < f.count then
      if 0 < f.skip then (none, { f with skip := f.skip - 1 } :: rest)
      else (some f, { f with count := f.count - 1 } :: rest)
    else
      let (fault, rest) := Fault.next request rest
      (fault, f :: rest)

end ReplicaControl
