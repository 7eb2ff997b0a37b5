import PmTiny.Core.DependencyGraph
import PmTiny.Core.LifecycleOrchestrator
import PmTiny.Core.RestartPolicy
import PmTiny.Core.TerminationJob

namespace PmTiny
set_option autoImplicit true

/-- The `PM_TINY_PROG_STATE_*` values. -/
inductive ProgState where
  | noRun | runing | startupFail | requestStop | stoped | exit | starting | waitingStart
  | requestDelete | blocked
  deriving DecidableEq, Repr

def pmStateToStr : ProgState → String
  | .noRun => "offline"
  | .runing => "online"
  | .startupFail => "failed"
  | .requestStop => "stopping"
  | .stoped => "stopped"
  | .exit => "exited"
  | .starting => "starting"
  | .waitingStart => "waiting"
  | .requestDelete => "deleting"
  | .blocked => "blocked"

/-- `REQUEST_STOP` and `REQUEST_DELETE`, the two states whose termination is polled. -/
def ProgState.terminating : ProgState → Bool
  | .requestStop | .requestDelete => true
  | _ => false

@[simp] theorem ProgState.terminating_eq_true {state : ProgState} :
    state.terminating = true ↔ state = .requestStop ∨ state = .requestDelete := by
  cases state <;> simp [terminating]

@[simp] theorem ProgState.terminating_eq_false {state : ProgState} :
    state.terminating = false ↔ state ≠ .requestStop ∧ state ≠ .requestDelete := by
  cases state <;> simp [terminating]

/-- A process tree handle with the processes that the system still counts to the tree. -/
structure ProcessTreeHandle where
  active : Bool := false
  members : List Nat := []
  deriving DecidableEq, Repr

namespace ProcessTreeHandle

def isEmpty (tree : ProcessTreeHandle) : Bool := !tree.active || tree.members.isEmpty

def contains (tree : ProcessTreeHandle) (pid : Nat) : Bool :=
  tree.active && tree.members.contains pid

/-- Members come and go, but nobody joins a tree that has become empty. -/
def observe (tree : ProcessTreeHandle) (members : List Nat) : ProcessTreeHandle :=
  if tree.members = [] then tree else { tree with members := members }

theorem observe_empty {tree : ProcessTreeHandle} (members : List Nat)
    (h : tree.isEmpty = true) : (tree.observe members).isEmpty = true := by
  unfold observe
  split
  · exact h
  · rename_i hne
    rw [isEmpty, Bool.or_eq_true] at h
    rcases h with h | h
    · rw [isEmpty, h]
      rfl
    · exact absurd (List.isEmpty_iff.1 h) hne

end ProcessTreeHandle

/-- One generation of a program; `none` is the pid `-1`. -/
structure ManagedProcessInstance where
  generation : Nat := 0
  pid : Option Nat := none
  lastPid : Option Nat := none
  tree : ProcessTreeHandle := {}
  termination : TerminationPhase := .none
  job : TerminationJob := {}
  deriving DecidableEq, Repr

namespace ManagedProcessInstance

def start (inst : ManagedProcessInstance) (newPid : Nat) : ManagedProcessInstance :=
  { generation := inst.generation + 1, pid := some newPid, lastPid := some newPid }

def resetFailedStart (inst : ManagedProcessInstance) : ManagedProcessInstance :=
  { generation := inst.generation }

end ManagedProcessInstance

inductive Task where
  | planRestart (nowMs lifeTime : Int)
  | timeoutRestart
  | stopProc (session : Nat)
  | deleteProg (session : Nat)
  | startProg (session : Nat) (showLog : Bool)
  deriving DecidableEq, Repr

structure GenerationTask where
  generation : Nat
  task : Task
  deriving DecidableEq, Repr

def GenerationTask.isFor (pending : GenerationTask) (currentGeneration : Nat) : Bool :=
  pending.generation == currentGeneration

/-- A managed program: its definition, its current generation and its restart bookkeeping. -/
structure ProgInfo where
  name : String
  workDir : String := ""
  executable : String := ""
  runAs : String := ""
  killTimeoutSec : Int := 3
  dependsOn : List String := []
  startTimeout : Int := 0
  failureAction : FailureAction := .skip
  daemon : Bool := true
  heartbeatTimeout : Int := -1
  restartConfig : RestartPolicyConfig := {}
  configSource : String := "file"
  inst : ManagedProcessInstance := {}
  state : ProgState := .noRun
  killPendingtasks : List GenerationTask := []
  restartState : RestartPolicyState := {}
  restartPending : Bool := false
  restartDueMs : Int := 0
  lastStartupMs : Int := 0
  lastDeadTimeMs : Int := 0
  lastWstatus : Nat := 0
  hasLastExit : Bool := false
  lastExitTimeUnixMs : Int := 0
  deadCount : Nat := 0
  deadCountTimer : Nat := 0
  lastTickTimepoint : Int := 0
  heartbeatActionDueMs : Int := 0
  deriving DecidableEq, Repr

namespace ProgInfo

def moniterDurationThreshold : Int := 60 * 1000

def live (p : ProgInfo) : Bool := p.inst.pid.isSome

def setState (p : ProgInfo) (state : ProgState) : ProgInfo := { p with state := state }

def observe (p : ProgInfo) (members : List Nat) : ProgInfo :=
  { p with inst := { p.inst with tree := p.inst.tree.observe members } }

def cleanup (p : ProgInfo) : ProgInfo := { p with inst := { p.inst with tree := {} } }

def setTermination (p : ProgInfo) (phase : TerminationPhase) : ProgInfo :=
  { p with inst := { p.inst with termination := phase } }

def updateCountTimer (p : ProgInfo) (nowMs : Int) : ProgInfo :=
  if nowMs - p.lastDeadTimeMs > moniterDurationThreshold then
    { p with lastDeadTimeMs := nowMs, deadCountTimer := 0 }
  else { p with deadCountTimer := p.deadCountTimer + 1 }

def planAutomaticRestart (p : ProgInfo) (nowMs runtimeMs : Int) : RestartDecision × ProgInfo :=
  let plan := PmTiny.planAutomaticRestart p.restartConfig p.restartState nowMs runtimeMs
  (plan.1, { p with
    restartState := plan.2
    restartPending := plan.1.restart
    restartDueMs := if plan.1.restart then nowMs + plan.1.delayMs else 0 })

def resetRestartPolicy (p : ProgInfo) : ProgInfo :=
  { p with restartState := p.restartState.reset, restartPending := false, restartDueMs := 0 }

def enqueueAfterTermination (p : ProgInfo) (task : Task) : ProgInfo :=
  { p with killPendingtasks := p.killPendingtasks ++ [⟨p.inst.generation, task⟩] }

def withJob (p : ProgInfo) (job : TerminationJob) : ProgInfo :=
  { p with inst := { p.inst with job := job, termination := job.phase } }

/-- `async_kill_prog` without the signal that the returned action asks for. -/
def asyncKillProg (p : ProgInfo) (nowMs : Int) : TerminationAction × ProgInfo :=
  let result := p.inst.job.request p.inst.generation nowMs p.killTimeoutSec
  (result.1, (p.withJob result.2).setState .requestStop)

def markTreeDraining (p : ProgInfo) (nowMs : Int) : TerminationAction × ProgInfo :=
  let result := p.inst.job.markTreeDraining p.inst.generation nowMs p.killTimeoutSec
  (result.1, p.withJob result.2)

def pollTermination (p : ProgInfo) (nowMs : Int) (treeEmpty : Bool) :
    TerminationAction × ProgInfo :=
  let result := p.inst.job.poll p.inst.generation nowMs treeEmpty
  (result.1, p.withJob result.2)

def asyncForceKill (p : ProgInfo) : TerminationAction × ProgInfo :=
  let result := p.inst.job.force p.inst.generation
  (result.1, if result.1 = .sendKill then p.withJob result.2 else p)

def dependencyNode (p : ProgInfo) : DependencyNodeConfig := ⟨p.name, p.dependsOn⟩

end ProgInfo
end PmTiny
