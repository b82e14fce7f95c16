import ReplicaControl.Main
import ReplicaControl.Proofs.AttemptStep
import ReplicaControl.Proofs.Plan
import ReplicaControl.Proofs.Scene
import ReplicaControl.Proofs.Exclusivity
import ReplicaControl.Proofs.RegistryTargets
import ReplicaControl.Proofs.Ownership
import ReplicaControl.Proofs.Freshness
import ReplicaControl.Proofs.QuotaSafety
import ReplicaControl.Proofs.ScheduleScenes
import ReplicaControl.Proofs.ActiveEntries
import ReplicaControl.Proofs.UpdateFrame
import ReplicaControl.Proofs.Course
import ReplicaControl.Proofs.Batch
import ReplicaControl.Proofs.RapidBatch
import ReplicaControl.Proofs.StepBatch
import ReplicaControl.Proofs.InFlight
import ReplicaControl.Proofs.Convergence
import ReplicaControl.Proofs.SweepFates
import ReplicaControl.Proofs.Retries
import ReplicaControl.Proofs.SweepCourse
import ReplicaControl.Proofs.SweepAccount
import ReplicaControl.Proofs.SweepSchedules
import ReplicaControl.Proofs.SweepFlow
import ReplicaControl.Proofs.SweepReports
import ReplicaControl.Proofs.CalmSteps
import ReplicaControl.Proofs.Locality
import ReplicaControl.Proofs.Noninterference
import ReplicaControl.Proofs.CycleSchedules
import ReplicaControl.Proofs.IdleSweeps
import ReplicaControl.Proofs.Isolation
import ReplicaControl.Proofs.RegistryCalls
import ReplicaControl.Proofs.ClaimExclusivity
import ReplicaControl.Proofs.VersionedWrites
import ReplicaControl.Proofs.AbortedCycles
import ReplicaControl.Proofs.ReadBack
import ReplicaControl.Proofs.Spellings
import ReplicaControl.Proofs.RoundedAmounts
import ReplicaControl.Proofs.WorkingRange
import ReplicaControl.Proofs.ReadinessWait
import ReplicaControl.Proofs.Ranges
import ReplicaControl.Proofs.Overflow
import ReplicaControl.Proofs.Pursuit
import ReplicaControl.Proofs.LatestTarget
import ReplicaControl.Proofs.UnitWalk
import ReplicaControl.Proofs.AdmissionPaths
import ReplicaControl.Proofs.Endings
import ReplicaControl.Proofs.Annotations
import ReplicaControl.Proofs.Decisions
import ReplicaControl.Proofs.Exemption
import ReplicaControl.Proofs.ExactNeeds
import ReplicaControl.Proofs.FewerChanges
import ReplicaControl.Proofs.UpdateCalls
import ReplicaControl.Proofs.WriteConflicts
import ReplicaControl.Proofs.ConflictRetries
import ReplicaControl.Proofs.WrittenNumbers
import ReplicaControl.Proofs.DecodedAnnotations
import ReplicaControl.Proofs.WrittenDurations
import ReplicaControl.Proofs.Resolution
import ReplicaControl.Proofs.RegistryKeys
