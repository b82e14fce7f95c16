import ReplicaControl.World

/-!
# The state of a namespace

* `NamespaceState.resolve` — the state that holds in a namespace, from the declared states and from
  the selections of the cluster and of the namespace.
* `NamespaceState.Unresolved` — why there is none.  The declarations are checked before any
  selection is read, and the selection of the cluster before that of the namespace.
-/

namespace ReplicaControl

namespace NamespaceState

/-- Where a state is selected. -/
inductive Scope where
  | cluster
  | ns
deriving DecidableEq

/-- The name of a scope. -/
def Scope.text : Scope → String
  | cluster => "cluster"
  | ns => "namespace"

/-- Why no state holds in a namespace. -/
inductive Unresolved where
  /-- A source could not be read. -/
  | source (detail : String)
  | noDefinitions
  | duplicate (name : String)
  | tooMany (scope : Scope) (count : Nat)
  | nothingSelected (ns : String)
  | notDefined (ns : String)
deriving DecidableEq

/-- The error in words. -/
def Unresolved.message : Unresolved → String
  | .source detail => "state source error: " ++ detail
  | .noDefinitions => "no scaling state found: no state definitions"
  | .duplicate name => "duplicate state definition: " ++ name
  | .tooMany scope count =>
    "found " ++ Text.decimal count ++ " " ++ scope.text ++
      " scaling state objects, expected at most one"
  | .nothingSelected ns =>
    "no scaling state found: no cluster or namespace state selected for " ++ ns
  | .notDefined ns => "no scaling state found: selected states for " ++ ns ++ " are not defined"

/-- Declarations that can be used: there is one, and no name is declared twice. -/
def checkDefinitions (definitions : List State) : Except Unresolved Unit :=
  if definitions = [] then .error .noDefinitions
  else
    match State.firstRepeated? definitions with
    | some name => .error (.duplicate name)
    | none => .ok ()

/-- The one name that a scope selects, or none. -/
def atMostOne (scope : Scope) : List String → Except Unresolved (Option String)
  | [] => .ok none
  | [name] => .ok (some name)
  | names => .error (.tooMany scope names.length)

/-- The state that selections of declared states lead to. -/
def choose (definitions : List State) (ns : String) (cluster selected : Option String) :
    Except Unresolved State :=
  if cluster = none ∧ selected = none then .error (.nothingSelected ns)
  else
    let state := State.select definitions cluster selected
    if state.isEmpty then .error (.notDefined ns) else .ok state

/-- The state that holds in a namespace. -/
def resolve (w : World) (ns : String) : Except Unresolved State × World :=
  match w.fetchDefinitions with
  | (.error e, w) => (.error (.source e), w)
  | (.ok definitions, w) =>
    match checkDefinitions definitions with
    | .error e => (.error e, w)
    | .ok () =>
      match w.fetchClusterStates with
      | (.error e, w) => (.error (.source e), w)
      | (.ok names, w) =>
        match atMostOne .cluster names with
        | .error e => (.error e, w)
        | .ok cluster =>
          match w.fetchNamespaceStates ns with
          | (.error e, w) => (.error (.source e), w)
          | (.ok names, w) =>
            match atMostOne .ns names with
            | .error e => (.error e, w)
            | .ok selected => (choose definitions ns cluster selected, w)

end NamespaceState

end ReplicaControl
