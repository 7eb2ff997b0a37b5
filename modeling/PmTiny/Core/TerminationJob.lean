import Mathlib.Tactic.Basic

namespace PmTiny
set_option autoImplicit true

inductive TerminationPhase where
  | none | termRequested | forceKillRequested | treeDraining | completed
  deriving DecidableEq, Repr

inductive TerminationAction where
  | none | sendTerm | sendKill | complete
  deriving DecidableEq, Repr

def TerminationPhase.active : TerminationPhase → Bool
  | .termRequested | .forceKillRequested | .treeDraining => true
  | .none | .completed => false

/-- The termination of one generation of a program; times are in milliseconds. -/
structure TerminationJob where
  generation : Nat := 0
  phase : TerminationPhase := .none
  startedMs : Int := 0
  timeoutMs : Int := 0
  deriving DecidableEq, Repr

namespace TerminationJob

def deadlineMs (job : TerminationJob) : Int := job.startedMs + job.timeoutMs

def timeoutOf (timeoutSec : Int) : Int := if timeoutSec > 0 then timeoutSec * 1000 else 0

def request (job : TerminationJob) (generation : Nat) (nowMs timeoutSec : Int) :
    TerminationAction × TerminationJob :=
  if job.phase ≠ .none ∧ job.generation = generation then (.none, job)
  else (.sendTerm, ⟨generation, .termRequested, nowMs, timeoutOf timeoutSec⟩)

def force (job : TerminationJob) (generation : Nat) : TerminationAction × TerminationJob :=
  if job.generation ≠ generation ∨ job.phase = .completed then (.none, job)
  else (.sendKill, { job with phase := .forceKillRequested })

def markTreeDraining (job : TerminationJob) (generation : Nat) (nowMs timeoutSec : Int) :
    TerminationAction × TerminationJob :=
  let job :=
    if job.phase = .none ∨ job.generation ≠ generation then
      { job with generation := generation, startedMs := nowMs, timeoutMs := timeoutOf timeoutSec }
    else job
  if job.phase = .completed ∨ job.phase = .forceKillRequested then (.none, job)
  else (.sendTerm, { job with phase := .treeDraining })

def poll (job : TerminationJob) (generation : Nat) (nowMs : Int) (treeEmpty : Bool) :
    TerminationAction × TerminationJob :=
  if job.generation ≠ generation then (.none, job)
  else if treeEmpty then
    if job.phase = .none ∨ job.phase = .completed then (.none, job)
    else (.complete, { job with phase := .completed })
  else if (job.phase = .termRequested ∨ job.phase = .treeDraining) ∧ nowMs ≥ job.deadlineMs then
    (.sendKill, { job with phase := .forceKillRequested })
  else (.none, job)

end TerminationJob
end PmTiny
