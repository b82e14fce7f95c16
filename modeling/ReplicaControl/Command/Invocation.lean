import ReplicaControl.Text.Digits

/-!
# Invocations

* `Invocation` — what the command line asks for.
* `Invocation.read?` — reads the arguments: `simulate --cluster FILE [--config FILE] --cycles N`
  with its options in any order, or `check-config FILE`.  `--log-json` may stand anywhere and
  changes nothing here.
-/

namespace ReplicaControl

/-- What the command line asks for. -/
inductive Invocation where
  | simulate (cluster : String) (config : Option String) (rounds : Nat)
  | checkConfig (config : String)
deriving DecidableEq

namespace Invocation

/-- How the command is used. -/
def usage : String :=
  "usage: simulate --cluster FILE [--config FILE] --cycles N | check-config FILE"

/-- The options of a simulation, each given at most once. -/
structure Options where
  cluster : Option String := none
  config : Option String := none
  rounds : Option Nat := none
deriving DecidableEq

/-- Reads a number of rounds. -/
def readRounds? (s : String) : Option Nat :=
  (Text.readUnsigned s.toList).filter (· < 4294967296)

/-- Reads the options of a simulation. -/
def readOptions? (o : Options) : List String → Option Options
  | [] => some o
  | "--cluster" :: file :: rest =>
    if o.cluster.isSome then none else readOptions? { o with cluster := some file } rest
  | "--config" :: file :: rest =>
    if o.config.isSome then none else readOptions? { o with config := some file } rest
  | "--cycles" :: n :: rest =>
    match o.rounds, readRounds? n with
    | none, some rounds => readOptions? { o with rounds := some rounds } rest
    | _, _ => none
  | _ => none

/-- Reads the arguments of the command line. -/
def read? (arguments : List String) : Option Invocation :=
  match arguments.filter (· != "--log-json") with
  | ["check-config", file] => some (.checkConfig file)
  | "simulate" :: rest =>
    match readOptions? {} rest with
    | some { cluster := some cluster, config, rounds := some rounds } =>
      some (.simulate cluster config rounds)
    | _ => none
  | _ => none

end Invocation

end ReplicaControl
