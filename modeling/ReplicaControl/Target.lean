import ReplicaControl.State
import ReplicaControl.Workload

/-!
# Replica targets

* `Target` — a replica count and the state it is for.
* `ReplicaMap.ofAnnotations` — the counts that the annotations `scaler/state-<name>-replicas` give
  to states.  Other annotations are ignored; one count that is no natural number spoils the map, and
  the error names the first such annotation in the order of the keys.
* `Workload.targetFor` — the target of a workload in a state.
-/

namespace ReplicaControl

/-- A replica count and the state it is for. -/
structure Target where
  state : String
  replicas : Int
deriving DecidableEq, Inhabited

/-- Why a workload has no target. -/
inductive TargetError where
  /-- The value of an annotation is no replica count. -/
  | invalidCount (key value : String)
  | missing (state : String) (item : Key)
deriving DecidableEq

/-- The error in words. -/
def TargetError.message : TargetError → String
  | .invalidCount key value =>
    "invalid replica count " ++ Text.quote value ++ " for annotation " ++ key
  | .missing state item =>
    "no replica annotation for state " ++ Text.quote state ++ " on " ++ item.text

/-- Replica counts by state name. -/
abbrev ReplicaMap := Table String Int

namespace ReplicaMap

/-- What stands before the state's name in an annotation. -/
def keyHead : List Char := "scaler/state-".toList

/-- What stands after the state's name in an annotation. -/
def keyTail : List Char := "-replicas".toList

/-- The key of the annotation that holds the count of a state. -/
def keyOf (state : String) : String := String.ofList (keyHead ++ state.toList ++ keyTail)

/-- The state whose count the annotation under a key holds. -/
def stateOf? (key : String) : Option String :=
  match keyHead.isPrefixOf? key.toList with
  | none => none
  | some rest =>
    match keyTail.isSuffixOf? rest with
    | none => none
    | some name => if name = [] then none else some (String.ofList name)

/-- Reads a replica count that is not negative, with white space around it. -/
def readCount? (value : String) : Option Int :=
  match Text.readSigned (Text.trimBlanks value.toList) with
  | some n => if 0 ≤ n ∧ n ≤ 2147483647 then some n else none
  | none => none

/-- The counts in a list of annotations, up to the first one that is invalid. -/
def readEntries : List (String × String) → Except TargetError (List (String × Int))
  | [] => .ok []
  | (key, value) :: rest =>
    match stateOf? key with
    | none => readEntries rest
    | some state =>
      match readCount? value with
      | none => .error (.invalidCount key value)
      | some n => (readEntries rest).map ((state, n) :: ·)

/-- The counts that annotations give to states. -/
def ofAnnotations (annotations : Table String String) : Except TargetError ReplicaMap :=
  (readEntries annotations.entries).map Table.ofList

/-- The target of a state. -/
def target? (m : ReplicaMap) (state : String) : Option Target :=
  (m.get? state).map fun n => ⟨state, n⟩

end ReplicaMap

/-- The state of workloads that are not under control. -/
def defaultState : String := "default"

/-- The target of a workload in a state. -/
def Workload.targetFor (w : Workload) (s : State) : Except TargetError Target :=
  let name := if w.isOptedIn then s.name else defaultState
  match ReplicaMap.ofAnnotations w.annotations with
  | .error e => .error e
  | .ok m =>
    match m.target? name with
    | some t => .ok t
    | none => .error (.missing name w.key)

end ReplicaControl
