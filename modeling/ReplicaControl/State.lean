import ReplicaControl.Document

/-!
# Scaling states

* `State` — a named state of operation with a priority; the one with the empty name stands for none.
* `State.firstRepeated?` — the first name that a list of definitions declares a second time.
* `State.select` — the state that a cluster-wide and a namespace-wide choice of a name lead to: of
  two defined states the one with the smaller priority number, the namespace's on equal numbers.
-/

namespace ReplicaControl

/-- A named state of operation. -/
structure State where
  name : String
  /-- Smaller numbers take precedence. -/
  priority : Int
deriving DecidableEq, Inhabited

namespace State

/-- The state that stands for no state. -/
def empty : State := ⟨"", 0⟩

/-- Whether a state stands for no state. -/
def isEmpty (s : State) : Bool := s.name == ""

/-- The first name that is in `seen` or that an earlier definition has. -/
def firstRepeatedAfter? (seen : List String) : List State → Option String
  | [] => none
  | d :: ds => if d.name ∈ seen then some d.name else firstRepeatedAfter? (d.name :: seen) ds

/-- The first name that a list of definitions declares a second time. -/
def firstRepeated? (definitions : List State) : Option String := firstRepeatedAfter? [] definitions

/-- The first definition of a name, the empty state if there is none. -/
def find (definitions : List State) (name : Option String) : State :=
  (name.bind fun n => definitions.find? (·.name == n)).getD empty

/-- The state that takes precedence; the second one on equal priorities. -/
def prioritize (a b : State) : State :=
  if a.isEmpty then b else if b.isEmpty then a else if a.priority < b.priority then a else b

/-- The state that the chosen names of the cluster and of the namespace lead to. -/
def select (definitions : List State) (cluster ns : Option String) : State :=
  prioritize (find definitions cluster) (find definitions ns)

/-- Reads a state. -/
def ofDocument? (d : Document) : Option State := do
  let parts ← d.record? ["name", "priority"]
  let name ← Document.required parts "name" Document.text?
  let priority ← Document.required parts "priority" (Document.int? (-2147483648) 2147483647)
  return { name, priority }

end State

end ReplicaControl
