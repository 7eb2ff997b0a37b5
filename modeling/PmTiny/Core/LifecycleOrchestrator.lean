import Mathlib.Tactic.Basic

namespace PmTiny
set_option autoImplicit true

inductive FailureAction where
  | skip | restart | reboot
  deriving DecidableEq, Repr

inductive LifecycleTimeoutKind where
  | startup | heartbeat
  deriving DecidableEq, Repr

inductive LifecycleTimeoutAction where
  | acceptReady | ignore | restart | reboot
  deriving DecidableEq, Repr

structure LifecycleProcessObservation where
  processIndex : Nat := 0
  generation : Nat := 0
  hasProcess : Bool := false
  starting : Bool := false
  online : Bool := false
  terminating : Bool := false
  treeDraining : Bool := false
  restartPending : Bool := false
  restartDueMs : Int := 0
  launchTimeMs : Int := 0
  lastTickMs : Int := 0
  heartbeatActionDueMs : Int := 0
  terminationDueMs : Int := 0
  startTimeoutS : Int := 0
  heartbeatTimeoutS : Int := -1
  failureAction : FailureAction := .skip
  deriving DecidableEq, Repr

structure LifecycleTimeoutEvent where
  processIndex : Nat
  generation : Nat
  kind : LifecycleTimeoutKind
  action : LifecycleTimeoutAction
  deriving DecidableEq, Repr

structure LifecycleTickPlan where
  timeouts : List LifecycleTimeoutEvent := []
  dueRestarts : List Nat := []
  nextWaitMs : Int := 1000
  deriving DecidableEq, Repr

def decideLifecycleTimeout (kind : LifecycleTimeoutKind) : FailureAction → LifecycleTimeoutAction
  | .skip => if kind = .startup then .acceptReady else .ignore
  | .restart => .restart
  | .reboot => .reboot

/-- The timeout that applies to a live program that is not being terminated. -/
def timeoutDue (process : LifecycleProcessObservation) : Option (LifecycleTimeoutKind × Int) :=
  if process.starting ∧ process.startTimeoutS ≥ 0 then
    some (.startup, process.launchTimeMs + process.startTimeoutS * 1000)
  else if process.online ∧ process.heartbeatTimeoutS > 0 then
    some (.heartbeat, max (process.lastTickMs + process.heartbeatTimeoutS * 1000)
      process.heartbeatActionDueMs)
  else none

/-- What the planner has gathered from the observations so far. -/
structure PlanAcc where
  timeouts : List LifecycleTimeoutEvent := []
  dueRestarts : List Nat := []
  nextDueMs : Int
  draining : Bool := false

def PlanAcc.consider (acc : PlanAcc) (dueMs : Int) : PlanAcc :=
  { acc with nextDueMs := min acc.nextDueMs dueMs }

def planProcess (nowMs : Int) (acc : PlanAcc) (process : LifecycleProcessObservation) : PlanAcc :=
  if !process.hasProcess then
    if process.restartPending then
      if process.restartDueMs ≤ nowMs then
        { acc with dueRestarts := acc.dueRestarts ++ [process.processIndex] }
      else acc.consider process.restartDueMs
    else acc
  else if process.terminating then
    let acc := { acc with draining := acc.draining || process.treeDraining }
    if process.terminationDueMs > 0 then acc.consider process.terminationDueMs else acc
  else
    match timeoutDue process with
    | none => acc
    | some (kind, dueMs) =>
      if dueMs ≤ nowMs then
        { acc with timeouts := acc.timeouts ++ [⟨process.processIndex, process.generation, kind,
            decideLifecycleTimeout kind process.failureAction⟩] }
      else acc.consider dueMs

def planLifecycleTick (nowMs : Int) (processes : List LifecycleProcessObservation) (busy : Bool)
    (defaultWaitMs : Int := 1000) (drainingWaitMs : Int := 25) : LifecycleTickPlan :=
  let defaultWait := max 1 defaultWaitMs
  let acc := processes.foldl (planProcess nowMs) { nextDueMs := nowMs + defaultWait }
  { timeouts := acc.timeouts
    dueRestarts := acc.dueRestarts
    nextWaitMs :=
      if !acc.timeouts.isEmpty || !acc.dueRestarts.isEmpty then 1
      else if busy then 10
      else if acc.draining then max 1 drainingWaitMs
      else if acc.nextDueMs ≤ nowMs then 1
      else min defaultWait (acc.nextDueMs - nowMs) }

def timeoutEvents (nowMs : Int) (process : LifecycleProcessObservation) :
    List LifecycleTimeoutEvent :=
  (planProcess nowMs { nextDueMs := 0 } process).timeouts

def dueRestart (nowMs : Int) (process : LifecycleProcessObservation) : List Nat :=
  (planProcess nowMs { nextDueMs := 0 } process).dueRestarts

theorem planProcess_timeouts (nowMs : Int) (acc : PlanAcc) (process : LifecycleProcessObservation) :
    (planProcess nowMs acc process).timeouts = acc.timeouts ++ timeoutEvents nowMs process := by
  unfold timeoutEvents planProcess PlanAcc.consider
  repeat' split
  all_goals simp

theorem planProcess_dueRestarts (nowMs : Int) (acc : PlanAcc)
    (process : LifecycleProcessObservation) :
    (planProcess nowMs acc process).dueRestarts = acc.dueRestarts ++ dueRestart nowMs process := by
  unfold dueRestart planProcess PlanAcc.consider
  repeat' split
  all_goals simp

theorem foldl_planProcess (nowMs : Int) (l : List LifecycleProcessObservation) (acc : PlanAcc) :
    (l.foldl (planProcess nowMs) acc).timeouts = acc.timeouts ++ l.flatMap (timeoutEvents nowMs) ∧
      (l.foldl (planProcess nowMs) acc).dueRestarts =
        acc.dueRestarts ++ l.flatMap (dueRestart nowMs) := by
  induction l generalizing acc with
  | nil => simp
  | cons process l ih =>
    obtain ⟨ht, hd⟩ := ih (planProcess nowMs acc process)
    rw [List.foldl_cons, ht, hd, planProcess_timeouts, planProcess_dueRestarts]
    simp

theorem planLifecycleTick_timeouts (nowMs : Int) (l : List LifecycleProcessObservation)
    (busy : Bool) :
    (planLifecycleTick nowMs l busy).timeouts = l.flatMap (timeoutEvents nowMs) := by
  simp [planLifecycleTick, foldl_planProcess]

theorem timeoutEvents_of_mem (h : event ∈ timeoutEvents nowMs process) :
    event.processIndex = process.processIndex ∧ event.generation = process.generation ∧
      process.hasProcess = true ∧ process.terminating = false ∧
      (process.starting = true ∨ process.online = true) := by
  unfold timeoutEvents planProcess PlanAcc.consider timeoutDue at h
  repeat' split at h
  all_goals simp_all
  all_goals grind

theorem timeouts_indices (nowMs : Int) (l : List LifecycleProcessObservation) :
    ((l.flatMap (timeoutEvents nowMs)).map (·.processIndex)).Sublist (l.map (·.processIndex)) := by
  have hone : ∀ process, ((timeoutEvents nowMs process).map (·.processIndex)).Sublist
      [process.processIndex] := by
    intro process
    unfold timeoutEvents planProcess PlanAcc.consider
    repeat' split
    all_goals simp
  induction l with
  | nil => simp
  | cons process l ih =>
    rw [List.flatMap_cons, List.map_append, List.map_cons]
    exact (hone process).append ih

end PmTiny
