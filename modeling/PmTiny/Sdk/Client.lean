import Mathlib.Data.List.Basic

namespace PmTiny.Sdk
set_option autoImplicit true

structure ClientConfig where
  appName : String := ""
  endpoint : String := ""
  udsAbstractNamespace : Int := -1
  deriving DecidableEq

def environmentValue (getenv : String → Option String) (name : String) : String :=
  (getenv name).getD ""

def environmentFlag (getenv : String → Option String) (name : String) : Bool :=
  let value := environmentValue getenv name
  value == "1" || value == "true" || value == "TRUE" || value == "yes" || value == "Y"

/-- Explicit values win; what is missing comes from the environment the daemon sets. -/
def resolveConfig (windows : Bool) (getenv : String → Option String) (config : ClientConfig) :
    ClientConfig :=
  let config := if config.appName = "" then
    { config with appName := environmentValue getenv "PM_TINY_APP_NAME" } else config
  if windows then
    let config := if config.endpoint = "" then
      { config with endpoint := environmentValue getenv "PM_TINY_PIPE_NAME" } else config
    if config.endpoint = "" then { config with endpoint := "\\\\.\\pipe\\pm_tiny" } else config
  else
    let config := if config.endpoint = "" then
      { config with endpoint := environmentValue getenv "PM_TINY_SOCK_FILE" } else config
    if config.udsAbstractNamespace < 0 then
      { config with udsAbstractNamespace :=
          if environmentFlag getenv "PM_TINY_UDS_ABSTRACT_NAMESPACE" then 1 else 0 }
    else config

inductive EventKind where
  | ready
  | tick
  deriving DecidableEq

inductive EnqueueResult where
  | queued
  | coalesced
  | disabled
  | stopped
  deriving DecidableEq

/-- The flag and the counters of one kind of event. The 64-bit counters are taken as unbounded. -/
structure Slot where
  pending : Bool := false
  sequence : Nat := 0
  sent : Nat := 0
  coalesced : Nat := 0
  deriving DecidableEq

/-- Where the worker thread stands. It holds the mutex only in `looping`, at the head of its loop;
the critical sections of the other threads are single steps. -/
inductive Worker where
  | absent
  | starting
  | looping
  | waiting
  | sending (kind : EventKind) (sequence : Nat) (requestId : UInt32)
  | backoff
  | finished
  deriving DecidableEq

structure Client where
  config : ClientConfig
  enabled : Bool
  running : Bool := false
  stopped : Bool := false
  connected : Bool := false
  sending : Bool := false
  ready : Slot := {}
  tick : Slot := {}
  reconnectAttempts : Nat := 0
  retryDelayMs : Nat := 0
  nextRequestId : UInt32 := 1
  lastError : String := ""
  worker : Worker := .absent
  /-- The worker's own next delay. -/
  retryDelay : Nat := 200
  /-- The callers blocked in `flush`. -/
  flushing : List Nat := []
  deriving DecidableEq

namespace Client

def create (windows : Bool) (getenv : String → Option String) (config : ClientConfig) : Client :=
  let config := resolveConfig windows getenv config
  if config.appName ≠ "" ∧ config.endpoint ≠ "" then
    { config := config, enabled := true, running := true, worker := .starting }
  else
    { config := config, enabled := false }

def slot (s : Client) : EventKind → Slot
  | .ready => s.ready
  | .tick => s.tick

def setSlot (s : Client) (slot : Slot) : EventKind → Client
  | .ready => { s with ready := slot }
  | .tick => { s with tick := slot }

def enqueue (s : Client) (kind : EventKind) : EnqueueResult × Client :=
  if s.stopped then (.stopped, s)
  else if !s.enabled then (.disabled, s)
  else
    let slot := { s.slot kind with sequence := (s.slot kind).sequence + 1 }
    if slot.pending then
      (.coalesced, s.setSlot { slot with coalesced := slot.coalesced + 1 } kind)
    else
      (.queued, s.setSlot { slot with pending := true } kind)

/-- What `flush` waits for. -/
def flushed (s : Client) : Bool := !s.ready.pending && !s.tick.pending && !s.sending

/-- The result of `flush` where it does not have to wait. -/
def flush (s : Client) : Option Bool :=
  if !s.enabled then some true
  else if s.stopped then some s.flushed
  else if s.flushed then some true
  else none

/-- The result of a waiting `flush` that is woken, by a notification or by its timeout. -/
def flushWake (s : Client) (timedOut : Bool) : Option Bool :=
  if s.flushed then some true
  else if timedOut then some false
  else none

def close (s : Client) : Client :=
  if s.stopped then s
  else
    { s with
      stopped := true
      running := false
      connected := false
      ready := { s.ready with pending := false }
      tick := { s.tick with pending := false }
      retryDelayMs := 0 }

/-- The worker's side of the wait on `condition_`. -/
def wakes (s : Client) : Bool := s.stopped || s.ready.pending || s.tick.pending

def finish (s : Client) : Client :=
  { s with sending := false, running := false, worker := .finished }

/-- The worker takes over the event it sends next; ready goes first. -/
def capture (s : Client) : Client :=
  let kind := if s.ready.pending then .ready else .tick
  { s with
    nextRequestId := s.nextRequestId + 1
    sending := true
    worker := .sending kind (s.slot kind).sequence s.nextRequestId }

/-- The head of the worker's loop, up to where it gives the mutex back. -/
def loopHead (s : Client) : Client :=
  if s.stopped then s.finish
  else if s.wakes then s.capture
  else { s with worker := .waiting }

def delivered (s : Client) (kind : EventKind) (sequence : Nat) : Client :=
  let slot := { s.slot kind with sent := (s.slot kind).sent + 1 }
  let slot := if slot.sequence = sequence then { slot with pending := false } else slot
  { s.setSlot slot kind with
    connected := true
    lastError := ""
    retryDelayMs := 0
    sending := false
    retryDelay := 200
    worker := .looping }

def resume (s : Client) : Client :=
  { s with retryDelay := min (s.retryDelay * 2) 5000, worker := .looping }

/-- Connecting or writing failed. -/
def failed (s : Client) (error : String) : Client :=
  let s := { s with
    connected := false
    sending := false
    reconnectAttempts := s.reconnectAttempts + 1
    lastError := error
    retryDelayMs := s.retryDelay }
  if s.stopped then s.resume else { s with worker := .backoff }

end Client

/-- One step of a thread that uses the client, or of the worker. -/
inductive Action where
  | enqueue (kind : EventKind)
  | flush (caller : Nat)
  | flushWake (caller : Nat) (timedOut : Bool)
  | close
  | start
  | wake
  | loop
  | delivered
  | failed (error : String)
  | retry
  deriving DecidableEq

namespace Client

/-- What the worker does on its own; nothing where it does not stand at that point. -/
def workerStep (s : Client) : Action → Option Client
  | .start => if s.worker = .starting then some { s with worker := .looping } else none
  | .wake => if s.worker = .waiting ∧ s.wakes = true then
      some { s with worker := .looping } else none
  | .loop => if s.worker = .looping then some s.loopHead else none
  | .delivered =>
    match s.worker with
    | .sending kind sequence _ => some (s.delivered kind sequence)
    | _ => none
  | .failed error =>
    match s.worker with
    | .sending _ _ _ => some (s.failed error)
    | _ => none
  | .retry => if s.worker = .backoff then some s.resume else none
  | _ => none

def callerStep (s : Client) : Action → Option Client
  | .enqueue kind => some (s.enqueue kind).2
  | .flush caller =>
    if caller ∈ s.flushing then none
    else if s.flush.isSome then some s
    else some { s with flushing := caller :: s.flushing }
  | .flushWake caller timedOut =>
    if caller ∉ s.flushing then none
    else if (s.flushWake timedOut).isSome then
      some { s with flushing := s.flushing.erase caller }
    else some s
  | .close => some s.close
  | _ => none

def step (s : Client) (action : Action) : Option Client :=
  match action with
  | .start | .wake | .loop | .delivered | .failed _ | .retry => s.workerStep action
  | .enqueue _ | .flush _ | .flushWake _ _ | .close =>
    if s.worker = .looping then none else s.callerStep action

end Client

structure Transition where
  before : Client
  action : Action
  after : Client

/-- Any interleaving of the calls and the worker's steps. -/
inductive Run (start : Client) : List Transition → Client → Prop
  | start : Run start [] start
  | step : Run start h s → s.step action = some s' → Run start (h ++ [⟨s, action, s'⟩]) s'

namespace Transition

/-- What a call of `ready` or `tick` answered. -/
def result (t : Transition) (kind : EventKind) : Option EnqueueResult :=
  if t.action = .enqueue kind then some (t.before.enqueue kind).1 else none

/-- The sequence value of a call that was queued or coalesced. -/
def accepted (t : Transition) (kind : EventKind) : Option Nat :=
  if t.result kind = some .queued ∨ t.result kind = some .coalesced then
    some (t.after.slot kind).sequence
  else none

/-- The sequence value that a successful send had captured. -/
def sends (t : Transition) (kind : EventKind) : Option Nat :=
  match t.action, t.before.worker with
  | .delivered, .sending kind' sequence _ => if kind' = kind then some sequence else none
  | _, _ => none

def captures (t : Transition) (kind : EventKind) : Option Nat :=
  match t.action, t.after.worker with
  | .loop, .sending kind' sequence _ => if kind' = kind then some sequence else none
  | _, _ => none

/-- The flag of the kind goes up. -/
def raises (t : Transition) (kind : EventKind) : Bool :=
  !(t.before.slot kind).pending && (t.after.slot kind).pending

/-- What a call of `flush` by the caller returns in this step. -/
def flushReturns (t : Transition) (caller : Nat) : Option Bool :=
  match t.action with
  | .flush caller' => if caller' = caller then t.before.flush else none
  | .flushWake caller' timedOut => if caller' = caller then t.before.flushWake timedOut else none
  | _ => none

end Transition

/-- The sequence values of the accepted calls, in order. -/
def acceptedCalls (kind : EventKind) (h : List Transition) : List Nat :=
  h.filterMap (·.accepted kind)

/-- The sequence values of the successful sends, in order. -/
def sentEvents (kind : EventKind) (h : List Transition) : List Nat := h.filterMap (·.sends kind)

end PmTiny.Sdk
