import PmTiny.Lib.Runs
import PmTiny.Daemon.Server

namespace PmTiny.PersistenceWorker
set_option autoImplicit true

/-- The calls of the loop's thread. -/
inductive Call
  | submit
  | poll
  | busy
  | wait
deriving DecidableEq, Repr

inductive Answer
  | submit (accepted : Bool)
  | poll (result : Option Int)
  | busy (value : Bool)
  | wait
deriving DecidableEq, Repr

/-- The worker as the daemon takes it: each call at once, and tasks that end. -/
inductive Action
  | call (call : Call)
  | finish (result : Int)
deriving DecidableEq, Repr

/-- A call on the abstract worker; `wait` is not answered while a task runs. -/
def Call.ask : Call → Persistence → Option (Persistence × Answer)
  | .submit, .idle => some (.running, .submit true)
  | .submit, p => some (p, .submit false)
  | .poll, .completed result => some (.idle, .poll (some result))
  | .poll, p => some (p, .poll none)
  | .busy, p => some (p, .busy p.busy)
  | .wait, .running => none
  | .wait, p => some (p, .wait)

/-- The abstract worker, with the answers it has given and the results of the tasks that are
over. -/
structure Ledger where
  persistence : Persistence := .idle
  answers : List Answer := []
  finished : List Int := []
deriving DecidableEq, Repr

def Action.act (ledger : Ledger) : Action → Option Ledger
  | .call request => (request.ask ledger.persistence).map fun (persistence, answer) =>
    { ledger with persistence, answers := ledger.answers ++ [answer] }
  | .finish result =>
    if ledger.persistence = .running then some { ledger with
      persistence := .completed result
      finished := ledger.finished ++ [result] }
    else none

inductive Party
  | client
  | thread
deriving DecidableEq, Repr

/-- The body of the thread that `submit` starts. -/
inductive ThreadPhase
  | absent
  | task
  | lock (outcome : Int)
  | storeResult (outcome : Int)
  | clearRunning
  | setCompleted
  | unlock
  | ended
deriving DecidableEq, Repr

/-- Where the caller stands: `body` is what a call does under the mutex. -/
inductive ClientPhase
  | idle
  | lock (call : Call)
  | body (call : Call)
  | startThread
  | unlock (answer : Answer)
  | join (answer : Answer)
deriving DecidableEq, Repr

/-- `persistence_worker` with its thread and its caller, what the calls have answered, how the tasks
have ended and which results the thread has handed over. -/
structure Worker where
  mutex : Option Party := none
  running : Bool := false
  completed : Bool := false
  result : Int := -1
  joinable : Bool := false
  thread : ThreadPhase := .absent
  client : ClientPhase := .idle
  answers : List Answer := []
  outcomes : List Int := []
  finished : List Int := []
deriving DecidableEq, Repr

inductive Event
  | call (call : Call)
  | client
  | finish (outcome : Option Int)
  | thread
deriving DecidableEq, Repr

namespace Worker

/-- The call returns. -/
def answer (s : Worker) (answer : Answer) : Worker :=
  { s with client := .idle, answers := s.answers ++ [answer] }

/-- The next step of `submit`, `poll`, `busy` or `wait`. -/
def clientStep (s : Worker) : Option Worker :=
  match s.client with
  | .idle => none
  | .lock call =>
    if s.mutex = none then some { s with mutex := some .client, client := .body call } else none
  | .body .submit =>
    if s.running || s.completed || s.joinable then
      some { s with client := .unlock (.submit false) }
    else some { s with running := true, result := -1, client := .startThread }
  | .startThread =>
    some { s with joinable := true, thread := .task, client := .unlock (.submit true) }
  | .body .poll =>
    if s.completed then
      some { s with completed := false, client := .unlock (.poll (some s.result)) }
    else some { s with client := .unlock (.poll none) }
  | .body .busy => some { s with client := .unlock (.busy (s.running || s.completed)) }
  -- `wait` takes no mutex
  | .body .wait => none
  | .unlock (.poll (some result)) =>
    some { s with mutex := none, client := .join (.poll (some result)) }
  | .unlock answer => some ({ s with mutex := none }.answer answer)
  | .join answer =>
    if s.joinable then
      if s.thread = .ended then
        some ({ s with joinable := false, thread := .absent }.answer answer)
      else none
    else some (s.answer answer)

def threadStep (s : Worker) : Option Worker :=
  match s.thread with
  | .lock outcome =>
    if s.mutex = none then some { s with mutex := some .thread, thread := .storeResult outcome }
    else none
  | .storeResult outcome => some { s with result := outcome, thread := .clearRunning }
  | .clearRunning => some { s with running := false, thread := .setCompleted }
  | .setCompleted => some { s with
      completed := true
      finished := s.finished ++ [s.result]
      thread := .unlock }
  | .unlock => some { s with mutex := none, thread := .ended }
  | _ => none

/-- One step of either thread; a task that throws has the result -1. -/
def step (s : Worker) : Event → Option Worker
  | .call call =>
    if s.client = .idle then
      some { s with client := if call = .wait then .join .wait else .lock call }
    else none
  | .client => s.clientStep
  | .finish outcome =>
    if s.thread = .task then some { s with
      thread := .lock (outcome.getD (-1))
      outcomes := s.outcomes ++ [outcome.getD (-1)] }
    else none
  | .thread => s.threadStep

end Worker
end PmTiny.PersistenceWorker
