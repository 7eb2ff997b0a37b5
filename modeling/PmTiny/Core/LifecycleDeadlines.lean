import Mathlib.Data.Int.LeastGreatest
import Mathlib.Data.Int.Order.Basic
import Mathlib.Order.MinMax
import PmTiny.Core.LifecycleOrchestrator

namespace PmTiny
set_option autoImplicit true

namespace LifecycleProcessObservation

def restartDeadline (process : LifecycleProcessObservation) : Option Int :=
  if !process.hasProcess && process.restartPending then some process.restartDueMs else none

def timeoutDeadline (process : LifecycleProcessObservation) : Option (LifecycleTimeoutKind × Int) :=
  if process.hasProcess && !process.terminating then timeoutDue process else none

/-- When the process tree of a terminating program is to be killed, also once its root is gone. -/
def terminationDeadline (process : LifecycleProcessObservation) : Option Int :=
  if process.terminating && decide (process.terminationDueMs > 0) then some process.terminationDueMs
  else none

def HasDeadline (process : LifecycleProcessObservation) (dueMs : Int) : Prop :=
  process.restartDeadline = some dueMs ∨ (∃ kind, process.timeoutDeadline = some (kind, dueMs)) ∨
    process.terminationDeadline = some dueMs

def Observed (process : LifecycleProcessObservation) (dueMs : Int) : Prop :=
  process.restartDeadline = some dueMs ∨ (∃ kind, process.timeoutDeadline = some (kind, dueMs)) ∨
    (process.hasProcess = true ∧ process.terminationDeadline = some dueMs)

def restartNow (process : LifecycleProcessObservation) (nowMs : Int) : Bool :=
  process.restartDeadline.any fun dueMs => dueMs ≤ nowMs

def timeoutNow (process : LifecycleProcessObservation) (nowMs : Int) :
    Option LifecycleTimeoutEvent :=
  process.timeoutDeadline.bind fun timeout =>
    if timeout.2 ≤ nowMs then
      some ⟨process.processIndex, process.generation, timeout.1,
        decideLifecycleTimeout timeout.1 process.failureAction⟩
    else none

def liveDraining (process : LifecycleProcessObservation) : Bool :=
  process.hasProcess && process.terminating && process.treeDraining

end LifecycleProcessObservation

open LifecycleProcessObservation

/-- One observation adds its restart or its event if it is due, and its deadline if not. -/
structure PlanStep (nowMs : Int) (process : LifecycleProcessObservation) (acc acc' : PlanAcc) :
    Prop where
  timeouts : acc'.timeouts = acc.timeouts ++ (process.timeoutNow nowMs).toList
  dueRestarts : acc'.dueRestarts =
    acc.dueRestarts ++ if process.restartNow nowMs then [process.processIndex] else []
  draining : acc'.draining = (acc.draining || process.liveDraining)
  nextDueMs : ∀ bound, acc'.nextDueMs ≤ bound ↔ acc.nextDueMs ≤ bound ∨
    ∃ dueMs ≤ bound, process.Observed dueMs ∧
      (nowMs < dueMs ∨ (process.hasProcess = true ∧ process.terminating = true))

theorem PlanAcc.consider_le (acc : PlanAcc) (dueMs bound : Int) :
    (acc.consider dueMs).nextDueMs ≤ bound ↔ acc.nextDueMs ≤ bound ∨ dueMs ≤ bound := by
  rw [consider, min_le_iff]

theorem planProcess_processless {process : LifecycleProcessObservation}
    (hprocess : process.hasProcess = false) (nowMs : Int) (acc : PlanAcc) :
    PlanStep nowMs process acc (planProcess nowMs acc process) := by
  have hobserved : ∀ dueMs, process.Observed dueMs ↔
      process.restartPending = true ∧ process.restartDueMs = dueMs := by
    simp [Observed, restartDeadline, timeoutDeadline, hprocess]
  cases hpending : process.restartPending with
  | false =>
    have hplan : planProcess nowMs acc process = acc := by simp [planProcess, hprocess, hpending]
    rw [hplan]
    constructor
    all_goals simp [hobserved, timeoutNow, restartNow, timeoutDeadline, restartDeadline,
      liveDraining, hprocess, hpending]
  | true =>
    by_cases hdue : process.restartDueMs ≤ nowMs
    · have hplan : planProcess nowMs acc process =
          { acc with dueRestarts := acc.dueRestarts ++ [process.processIndex] } := by
        simp [planProcess, hprocess, hpending, hdue]
      rw [hplan]
      constructor
      case nextDueMs =>
        intro bound
        simp only [hobserved, hprocess, Bool.false_eq_true, false_and, or_false]
        refine ⟨.inl, ?_⟩
        rintro (hnext | ⟨_, -, ⟨-, rfl⟩, hlt⟩)
        · exact hnext
        · omega
      all_goals simp [timeoutNow, restartNow, timeoutDeadline, restartDeadline, liveDraining,
        hprocess, hpending, hdue]
    · have hplan : planProcess nowMs acc process = acc.consider process.restartDueMs := by
        simp [planProcess, hprocess, hpending, hdue]
      rw [hplan]
      constructor
      case nextDueMs =>
        intro bound
        rw [PlanAcc.consider_le]
        refine or_congr_right ⟨fun hle => ?_, ?_⟩
        · exact ⟨_, hle, (hobserved _).2 ⟨hpending, rfl⟩, .inl (by omega)⟩
        · rintro ⟨dueMs, hle, hobs, -⟩
          rw [((hobserved _).1 hobs).2]
          exact hle
      all_goals simp [PlanAcc.consider, timeoutNow, restartNow, timeoutDeadline, restartDeadline,
        liveDraining, hprocess, hpending, hdue]

theorem planProcess_terminating {process : LifecycleProcessObservation}
    (hprocess : process.hasProcess = true) (hterminating : process.terminating = true)
    (nowMs : Int) (acc : PlanAcc) :
    PlanStep nowMs process acc (planProcess nowMs acc process) := by
  have hobserved : ∀ dueMs, process.Observed dueMs ↔
      process.terminationDueMs > 0 ∧ process.terminationDueMs = dueMs := by
    simp [Observed, restartDeadline, timeoutDeadline, terminationDeadline, hprocess, hterminating]
  by_cases hset : process.terminationDueMs > 0
  · have hplan : planProcess nowMs acc process =
        ({ acc with draining := acc.draining || process.treeDraining } : PlanAcc).consider
          process.terminationDueMs := by
      simp [planProcess, hprocess, hterminating, hset]
    rw [hplan]
    constructor
    case nextDueMs =>
      intro bound
      rw [PlanAcc.consider_le]
      refine or_congr_right ⟨fun hle => ?_, ?_⟩
      · exact ⟨_, hle, (hobserved _).2 ⟨hset, rfl⟩, .inr ⟨hprocess, hterminating⟩⟩
      · rintro ⟨dueMs, hle, hobs, -⟩
        rw [((hobserved _).1 hobs).2]
        exact hle
    all_goals simp [PlanAcc.consider, timeoutNow, restartNow, timeoutDeadline, restartDeadline,
      liveDraining, hprocess, hterminating]
  · have hplan : planProcess nowMs acc process =
        { acc with draining := acc.draining || process.treeDraining } := by
      simp [planProcess, hprocess, hterminating, hset]
    rw [hplan]
    constructor
    all_goals simp [hobserved, hset, timeoutNow, restartNow, timeoutDeadline, restartDeadline,
      liveDraining, hprocess, hterminating]

theorem planProcess_live {process : LifecycleProcessObservation}
    (hprocess : process.hasProcess = true) (hterminating : process.terminating = false)
    (nowMs : Int) (acc : PlanAcc) :
    PlanStep nowMs process acc (planProcess nowMs acc process) := by
  have hobserved : ∀ dueMs, process.Observed dueMs ↔
      ∃ kind, timeoutDue process = some (kind, dueMs) := by
    simp [Observed, restartDeadline, timeoutDeadline, terminationDeadline, hprocess, hterminating]
  cases htimeout : timeoutDue process with
  | none =>
    have hplan : planProcess nowMs acc process = acc := by
      simp [planProcess, hprocess, hterminating, htimeout]
    rw [hplan]
    constructor
    all_goals simp [hobserved, htimeout, timeoutNow, restartNow, timeoutDeadline, restartDeadline,
      liveDraining, hprocess, hterminating]
  | some timeout =>
    obtain ⟨kind, dueMs⟩ := timeout
    by_cases hdue : dueMs ≤ nowMs
    · have hplan : planProcess nowMs acc process =
          { acc with timeouts := acc.timeouts ++ [⟨process.processIndex, process.generation, kind,
            decideLifecycleTimeout kind process.failureAction⟩] } := by
        simp [planProcess, hprocess, hterminating, htimeout, hdue]
      rw [hplan]
      constructor
      case nextDueMs =>
        intro bound
        refine ⟨.inl, ?_⟩
        rintro (hnext | ⟨dueMs', -, hobs, hlt⟩)
        · exact hnext
        · obtain ⟨kind', heq⟩ := (hobserved _).1 hobs
          cases htimeout.symm.trans heq
          rw [hterminating] at hlt
          simp only [Bool.false_eq_true, and_false, or_false] at hlt
          omega
      all_goals simp [htimeout, hdue, timeoutNow, restartNow, timeoutDeadline, restartDeadline,
        liveDraining, hprocess, hterminating]
    · have hplan : planProcess nowMs acc process = acc.consider dueMs := by
        simp [planProcess, hprocess, hterminating, htimeout, hdue]
      rw [hplan]
      constructor
      case nextDueMs =>
        intro bound
        rw [PlanAcc.consider_le]
        refine or_congr_right ⟨fun hle => ?_, ?_⟩
        · exact ⟨_, hle, (hobserved _).2 ⟨kind, htimeout⟩, .inl (by omega)⟩
        · rintro ⟨dueMs', hle, hobs, -⟩
          obtain ⟨kind', heq⟩ := (hobserved _).1 hobs
          cases htimeout.symm.trans heq
          exact hle
      all_goals simp [PlanAcc.consider, htimeout, hdue, timeoutNow, restartNow, timeoutDeadline,
        restartDeadline, liveDraining, hprocess, hterminating]

theorem planProcess_step (nowMs : Int) (acc : PlanAcc) (process : LifecycleProcessObservation) :
    PlanStep nowMs process acc (planProcess nowMs acc process) := by
  cases hprocess : process.hasProcess with
  | false => exact planProcess_processless hprocess nowMs acc
  | true =>
    cases hterminating : process.terminating with
    | true => exact planProcess_terminating hprocess hterminating nowMs acc
    | false => exact planProcess_live hprocess hterminating nowMs acc

structure PlanRun (nowMs : Int) (l : List LifecycleProcessObservation) (acc acc' : PlanAcc) :
    Prop where
  timeouts : acc'.timeouts = acc.timeouts ++ l.filterMap (·.timeoutNow nowMs)
  dueRestarts : acc'.dueRestarts =
    acc.dueRestarts ++ (l.filter (·.restartNow nowMs)).map (·.processIndex)
  draining : acc'.draining = (acc.draining || l.any (·.liveDraining))
  nextDueMs : ∀ bound, acc'.nextDueMs ≤ bound ↔ acc.nextDueMs ≤ bound ∨
    ∃ process ∈ l, ∃ dueMs ≤ bound, process.Observed dueMs ∧
      (nowMs < dueMs ∨ (process.hasProcess = true ∧ process.terminating = true))

theorem planProcess_run (nowMs : Int) (l : List LifecycleProcessObservation) (acc : PlanAcc) :
    PlanRun nowMs l acc (l.foldl (planProcess nowMs) acc) := by
  induction l generalizing acc with
  | nil => constructor <;> simp
  | cons process l ih =>
    have hstep := planProcess_step nowMs acc process
    have hrun := ih (planProcess nowMs acc process)
    rw [List.foldl_cons]
    constructor
    · rw [hrun.timeouts, hstep.timeouts, List.append_assoc]
      cases htimeout : process.timeoutNow nowMs with
      | none => simp [htimeout]
      | some event => simp [htimeout]
    · rw [hrun.dueRestarts, hstep.dueRestarts, List.append_assoc]
      cases hrestart : process.restartNow nowMs with
      | false => simp [hrestart]
      | true => simp [hrestart]
    · rw [hrun.draining, hstep.draining, List.any_cons, Bool.or_assoc]
    · intro bound
      rw [hrun.nextDueMs, hstep.nextDueMs, or_assoc]
      simp only [List.mem_cons, exists_eq_or_imp]

/-- The plan that the deadlines of the programs call for. `slack` is how much later than a deadline
the next tick may come. -/
structure Timely (nowMs : Int) (processes : List LifecycleProcessObservation)
    (slackMs : Int) (plan : LifecycleTickPlan) : Prop where
  timeouts : plan.timeouts = processes.filterMap (·.timeoutNow nowMs)
  dueRestarts : plan.dueRestarts =
    (processes.filter (·.restartNow nowMs)).map (·.processIndex)
  positive : 1 ≤ plan.nextWaitMs
  deadline : ∀ process ∈ processes, ∀ dueMs, process.HasDeadline dueMs → nowMs < dueMs →
    (∀ process' ∈ processes, ∀ dueMs', process'.HasDeadline dueMs' → nowMs < dueMs' →
      dueMs ≤ dueMs') →
    nowMs + plan.nextWaitMs ≤ dueMs + slackMs

/-- The next tick is early enough for `dueMs` without the program that has it: something is due, the
wait is a short one, or another deadline or the default wait ends it in time. -/
def WokenBefore (nowMs : Int) (processes : List LifecycleProcessObservation) (busy : Bool)
    (defaultWaitMs slackMs dueMs : Int) : Prop :=
  (∃ process ∈ processes, process.restartNow nowMs = true ∨ process.timeoutNow nowMs ≠ none) ∨
    busy = true ∨ (∃ process ∈ processes, process.liveDraining = true) ∨
    nowMs + max 1 defaultWaitMs ≤ dueMs + slackMs ∨
    ∃ process ∈ processes, ∃ dueMs', process.Observed dueMs' ∧ dueMs' ≤ dueMs + slackMs

variable {nowMs : Int} {l : List LifecycleProcessObservation} {busy : Bool}

theorem LifecycleProcessObservation.Observed.awaited {process : LifecycleProcessObservation}
    (h : process.Observed dueMs) (hrestart : process.restartNow nowMs = false)
    (htimeout : process.timeoutNow nowMs = none) :
    nowMs < dueMs ∨ (process.hasProcess = true ∧ process.terminating = true) := by
  rcases h with hdue | ⟨kind, hdue⟩ | ⟨hprocess, hdue⟩
  · rw [restartNow, hdue] at hrestart
    simp only [Option.any_some, decide_eq_false_iff_not] at hrestart
    omega
  · rw [timeoutNow, hdue] at htimeout
    simp only [Option.bind_some, ite_eq_right_iff, reduceCtorEq] at htimeout
    exact .inl (not_le.1 htimeout)
  · rw [terminationDeadline] at hdue
    split at hdue
    · rename_i hset
      exact .inr ⟨hprocess, (Bool.and_eq_true_iff.1 hset).1⟩
    · cases hdue

theorem timeouts_or_restarts_iff {acc : PlanAcc}
    (hrun : PlanRun nowMs l { nextDueMs := start } acc) :
    (!acc.timeouts.isEmpty || !acc.dueRestarts.isEmpty) = true ↔
      ∃ process ∈ l, process.restartNow nowMs = true ∨ process.timeoutNow nowMs ≠ none := by
  have htimeouts : (!(l.filterMap (·.timeoutNow nowMs)).isEmpty) = true ↔
      ∃ process ∈ l, process.timeoutNow nowMs ≠ none := by
    simp
  have hrestarts : (!((l.filter (·.restartNow nowMs)).map (·.processIndex)).isEmpty) = true ↔
      ∃ process ∈ l, process.restartNow nowMs = true := by
    simp
  rw [hrun.timeouts, hrun.dueRestarts, List.nil_append, List.nil_append, Bool.or_eq_true, htimeouts,
    hrestarts, or_comm]
  simp only [and_or_left, exists_or]

theorem nextWait_le_iff (nowMs : Int) (l : List LifecycleProcessObservation) (busy : Bool)
    (defaultWaitMs drainingWaitMs dueMs : Int) (hfuture : nowMs < dueMs) :
    nowMs + (planLifecycleTick nowMs l busy defaultWaitMs drainingWaitMs).nextWaitMs ≤
        dueMs + max 10 drainingWaitMs ↔
      WokenBefore nowMs l busy defaultWaitMs (max 10 drainingWaitMs) dueMs := by
  have hrun := planProcess_run nowMs l { nextDueMs := nowMs + max 1 defaultWaitMs }
  have hten : (10 : Int) ≤ max 10 drainingWaitMs := le_max_left _ _
  have hdrain : drainingWaitMs ≤ max 10 drainingWaitMs := le_max_right _ _
  rw [planLifecycleTick, WokenBefore]
  generalize l.foldl (planProcess nowMs) { nextDueMs := nowMs + max 1 defaultWaitMs } = acc at hrun
  simp only
  rw [← timeouts_or_restarts_iff hrun]
  have hdraining : acc.draining = true ↔ ∃ process ∈ l, process.liveDraining = true := by
    rw [hrun.draining, Bool.false_or, List.any_eq_true]
  rw [← hdraining]
  split
  · rename_i hdue
    refine iff_of_true ?_ (.inl hdue)
    omega
  · rename_i hdue
    have hnone := mt (timeouts_or_restarts_iff hrun).2 hdue
    push Not at hnone
    have hawaited : ∀ bound, acc.nextDueMs ≤ bound ↔ nowMs + max 1 defaultWaitMs ≤ bound ∨
        ∃ process ∈ l, ∃ dueMs', process.Observed dueMs' ∧ dueMs' ≤ bound := by
      intro bound
      rw [hrun.nextDueMs]
      refine or_congr_right ⟨?_, ?_⟩
      · rintro ⟨process, hmem, dueMs', hle, hobs, -⟩
        exact ⟨process, hmem, dueMs', hobs, hle⟩
      · rintro ⟨process, hmem, dueMs', hobs, hle⟩
        obtain ⟨hrestart, htimeout⟩ := hnone process hmem
        exact ⟨process, hmem, dueMs', hle, hobs,
          hobs.awaited ((Bool.not_eq_true _).mp hrestart) htimeout⟩
    rw [← hawaited]
    rw [or_iff_right hdue]
    split
    · rename_i hbusy
      refine iff_of_true ?_ (.inl hbusy)
      omega
    · rename_i hbusy
      rw [or_iff_right hbusy]
      split
      · rename_i hdraining
        refine iff_of_true ?_ (.inl hdraining)
        omega
      · rename_i hdraining
        rw [or_iff_right hdraining]
        split
        · constructor <;> intro <;> omega
        · have hle := (hawaited (nowMs + max 1 defaultWaitMs)).2 (.inl (le_refl _))
          omega

theorem one_le_nextWaitMs (nowMs : Int) (l : List LifecycleProcessObservation) (busy : Bool)
    (defaultWaitMs drainingWaitMs : Int) :
    1 ≤ (planLifecycleTick nowMs l busy defaultWaitMs drainingWaitMs).nextWaitMs := by
  rw [planLifecycleTick]
  simp only
  split
  · exact le_refl _
  · split
    · decide
    · split
      · exact le_max_left _ _
      · split
        · exact le_refl _
        · rename_i hnext
          exact le_min (le_max_left _ _) (by omega)

theorem hasDeadline_iff {process : LifecycleProcessObservation} :
    process.HasDeadline dueMs ↔ process.Observed dueMs ∨
      (process.hasProcess = false ∧ process.terminationDeadline = some dueMs) := by
  rw [HasDeadline, Observed, or_assoc, or_assoc]
  refine or_congr_right (or_congr_right ?_)
  cases process.hasProcess with
  | false => simp
  | true => simp

/-- The plan is timely exactly if the next tick is early enough for the kill of every process tree
whose root is gone: the planner leaves these deadlines out. -/
theorem planLifecycleTick_timely_iff (nowMs : Int) (l : List LifecycleProcessObservation)
    (busy : Bool) (defaultWaitMs drainingWaitMs : Int) :
    Timely nowMs l (max 10 drainingWaitMs)
        (planLifecycleTick nowMs l busy defaultWaitMs drainingWaitMs) ↔
      ∀ process ∈ l, ∀ dueMs, process.hasProcess = false →
        process.terminationDeadline = some dueMs → nowMs < dueMs →
        WokenBefore nowMs l busy defaultWaitMs (max 10 drainingWaitMs) dueMs := by
  constructor
  · intro h process hmem dueMs hprocess hdue hfuture
    rw [← nextWait_le_iff nowMs l busy defaultWaitMs drainingWaitMs dueMs hfuture]
    -- The wait is bounded by the earliest of the deadlines ahead, and so by this one.
    obtain ⟨first, ⟨⟨process', hmem', hfirst⟩, hahead⟩, hleast⟩ := Int.exists_least_of_bdd
      (P := fun dueMs' => (∃ process' ∈ l, process'.HasDeadline dueMs') ∧ nowMs < dueMs')
      ⟨nowMs, fun _ hlater => le_of_lt hlater.2⟩
      ⟨dueMs, ⟨process, hmem, hasDeadline_iff.2 (.inr ⟨hprocess, hdue⟩)⟩, hfuture⟩
    have hwait := h.deadline process' hmem' first hfirst hahead
      fun process'' hmem'' dueMs'' hdue'' hahead'' =>
        hleast dueMs'' ⟨⟨process'', hmem'', hdue''⟩, hahead''⟩
    have hle := hleast dueMs ⟨⟨process, hmem, hasDeadline_iff.2 (.inr ⟨hprocess, hdue⟩)⟩, hfuture⟩
    omega
  · intro h
    have hrun := planProcess_run nowMs l { nextDueMs := nowMs + max 1 defaultWaitMs }
    constructor
    · exact hrun.timeouts
    · exact hrun.dueRestarts
    · exact one_le_nextWaitMs nowMs l busy defaultWaitMs drainingWaitMs
    · intro process hmem dueMs hdue hfuture _
      rw [nextWait_le_iff nowMs l busy defaultWaitMs drainingWaitMs dueMs hfuture]
      rcases hasDeadline_iff.1 hdue with hobserved | ⟨hprocess, htermination⟩
      · have hslack : dueMs ≤ dueMs + max 10 drainingWaitMs := by omega
        exact .inr (.inr (.inr (.inr ⟨process, hmem, dueMs, hobserved, hslack⟩)))
      · exact h process hmem dueMs hprocess htermination hfuture

/-- The root of a terminating program is gone and its tree is to be killed in 100 ms, but the next
tick comes after a second. -/
theorem late_kill : ¬Timely 1000
    [{ terminating := true, treeDraining := true, terminationDueMs := 1100 }] (max 10 25)
    (planLifecycleTick 1000
      [{ terminating := true, treeDraining := true, terminationDueMs := 1100 }] false 1000 25) := by
  intro h
  have hwait := h.deadline _ (List.mem_singleton.2 rfl) 1100 (.inr (.inr rfl)) (by decide) (by
    intro process hmem dueMs hdue _
    rw [List.mem_singleton.1 hmem] at hdue
    rcases hdue with hdue | ⟨kind, hdue⟩ | hdue
    · cases hdue
    · cases hdue
    · cases hdue
      exact le_refl _)
  exact absurd hwait (by decide)

end PmTiny
