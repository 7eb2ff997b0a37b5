import Mathlib.Logic.Function.Basic
import PmTiny.Lib.Runs

namespace PmTiny.Signals
set_option autoImplicit true

/-- The signals that `install_signal_handlers` installs a handler for. -/
inductive Signo
  | sigterm
  | sigint
  | sigchld
  | sighup
  | sigalrm
deriving DecidableEq, Repr

inductive Flag
  | exitSignal
  | exitChldSignal
  | hupSignal
  | alarmSignal
deriving DecidableEq, Repr

/-- The variable that the handler of a signal stores to. -/
def Signo.flag : Signo → Flag
  | .sigterm => .exitSignal
  | .sigint => .exitSignal
  | .sigchld => .exitChldSignal
  | .sighup => .hupSignal
  | .sigalrm => .alarmSignal

/-- What a handler does next: the store to its variable, or `wake_event_loop`. -/
inductive HandlerStep
  | store
  | wake
deriving DecidableEq, Repr

structure Handler where
  signo : Signo
  next : HandlerStep
deriving DecidableEq, Repr

/-- The threads of the daemon; the worker is the one of `persistence_worker`. -/
inductive Thread
  | loop
  | worker
deriving DecidableEq, Repr

/-- `take_pending_signal` and `take_pending_exit_signal`: block the signals of a variable, read it,
clear it and restore the mask. -/
inductive TakeStep
  | block
  | read
  | clear (saved : Option Signo)
  | restore (saved : Option Signo)
deriving DecidableEq, Repr

/-- Where the loop stands: in `io_.run`, in the handler of `wait_signal` that empties the pipe, or
in `run_maintenance`, which takes the variables one after another. -/
inductive LoopPhase
  | wait
  | drain
  | take (flag : Flag) (next : TakeStep)
  | checkQuit
  | stopped
deriving DecidableEq, Repr

/-- `check_delayed_sigs`: the variable after this one. -/
def Flag.next : Flag → LoopPhase
  | .exitSignal => .take .exitChldSignal .block
  | .exitChldSignal => .take .hupSignal .block
  | .hupSignal => .take .alarmSignal .block
  | .alarmSignal => .checkQuit

def LoopPhase.maintenance : LoopPhase := .take .exitSignal .block

def LoopPhase.blocks : LoopPhase → Signo → Bool
  | .take _ .block, _ => false
  | .take flag _, signo => signo.flag = flag
  | _, _ => false

/-- The daemon's signals: those pending in the kernel, the variables, the bytes in the pipe, the
handlers that run on each thread, the innermost first, and what was sent and not yet acted on. -/
structure Wakeup where
  pending : List Signo := []
  flags : Flag → Option Signo := fun _ => none
  pipeBytes : Nat := 0
  phase : LoopPhase := .maintenance
  handlers : Thread → List Handler := fun _ => []
  worker : Bool := false
  unseen : Flag → Bool := fun _ => false

def pipeCapacity : Nat := 65536

inductive Event
  | send (signo : Signo)
  | deliver (thread : Thread) (signo : Signo)
  | handler (thread : Thread)
  | childWakes
  | workerStarts
  | workerEnds
  | wake
  | timer
  | loop
  | quit
deriving DecidableEq, Repr

namespace Wakeup

/-- A thread does not take a signal that its mask blocks or whose handler it runs. -/
def blocks (s : Wakeup) (thread : Thread) (signo : Signo) : Bool :=
  (match thread with
    | .loop => s.phase.blocks signo
    | .worker => !s.worker) ||
  (s.handlers thread).any (·.signo = signo)

/-- The handlers: a store, then a byte into the pipe, which is lost when the pipe is full. -/
def handle (s : Wakeup) (thread : Thread) : Option Wakeup :=
  match s.handlers thread with
  | [] => none
  | ⟨signo, .store⟩ :: outer => some { s with
      flags := Function.update s.flags signo.flag (some signo)
      handlers := Function.update s.handlers thread (⟨signo, .wake⟩ :: outer) }
  | ⟨_, .wake⟩ :: outer => some { s with
      pipeBytes := min pipeCapacity (s.pipeBytes + 1)
      handlers := Function.update s.handlers thread outer }

/-- The next step of the loop outside `io_.run`. -/
def advance (s : Wakeup) : Option Wakeup :=
  match s.phase with
  | .wait => none
  | .drain =>
    if s.pipeBytes = 0 then some { s with phase := .maintenance }
    else some { s with pipeBytes := s.pipeBytes - 64 }
  | .take flag .block => some { s with phase := .take flag .read }
  | .take flag .read => some { s with phase := .take flag (.clear (s.flags flag)) }
  | .take flag (.clear saved) => some { s with
      flags := Function.update s.flags flag none
      -- what the daemon does about the signal it does after this
      unseen := if saved.isSome then Function.update s.unseen flag false else s.unseen
      phase := .take flag (.restore saved) }
  | .take flag (.restore _) => some { s with phase := flag.next }
  | .checkQuit => some { s with phase := .wait }
  | .stopped => none

/-- One step of the kernel, of a handler or of the loop. A handler interrupts the thread it runs on;
the two threads run side by side. -/
def step (s : Wakeup) : Event → Option Wakeup
  | .send signo => some { s with
      pending := if signo ∈ s.pending then s.pending else signo :: s.pending
      unseen := Function.update s.unseen signo.flag true }
  | .deliver thread signo =>
    if signo ∈ s.pending ∧ s.blocks thread signo = false then some { s with
      pending := s.pending.erase signo
      handlers := Function.update s.handlers thread (⟨signo, .store⟩ :: s.handlers thread) }
    else none
  | .handler thread => s.handle thread
  -- a child that has not called `execve` has the handlers and the pipe, not the variables
  | .childWakes => some { s with pipeBytes := min pipeCapacity (s.pipeBytes + 1) }
  -- `submit` is called for a message, from `io_.run`
  | .workerStarts =>
    if s.phase = .wait ∧ s.handlers .loop = [] ∧ s.worker = false then
      some { s with worker := true }
    else none
  | .workerEnds =>
    if s.worker = true ∧ s.handlers .worker = [] then some { s with worker := false } else none
  | .wake =>
    if s.phase = .wait ∧ s.handlers .loop = [] ∧ 0 < s.pipeBytes then
      some { s with phase := .drain }
    else none
  | .timer =>
    if s.phase = .wait ∧ s.handlers .loop = [] then some { s with phase := .maintenance } else none
  | .loop => if s.handlers .loop = [] then s.advance else none
  | .quit =>
    if s.phase = .checkQuit ∧ s.handlers .loop = [] then some { s with phase := .stopped } else none

/-- A handler on the worker stores to the variable that the loop has read empty and is about to
clear: the mask of the loop's thread does not hold the worker back. -/
def races (s : Wakeup) : Event → Bool
  | .handler .worker =>
    match s.phase, s.handlers .worker with
    | .take flag (.clear none), ⟨signo, .store⟩ :: _ => signo.flag = flag
    | _, _ => false
  | _ => false

/-- The steps of a run without that race. -/
def calmStep (s : Wakeup) (e : Event) : Option Wakeup :=
  if s.races e then none else s.step e

theorem calmStep_eq_some {s s' : Wakeup} {e : Event} (h : s.calmStep e = some s') :
    s.races e = false ∧ s.step e = some s' := by
  rw [calmStep] at h
  split at h
  · cases h
  · rename_i hraces
    exact ⟨Bool.not_eq_true _ ▸ hraces, h⟩

theorem calmStep_of_step {s s' : Wakeup} {e : Event} (hraces : s.races e = false)
    (h : s.step e = some s') : s.calmStep e = some s' := by
  rw [calmStep, hraces]
  exact h

end Wakeup
end PmTiny.Signals
