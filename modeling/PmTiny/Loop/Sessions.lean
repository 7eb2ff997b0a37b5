import PmTiny.Lib.Descriptors
import PmTiny.Lib.Keyed

namespace PmTiny.Sessions
open Descriptors
set_option autoImplicit true

/-- What a descriptor of the daemon refers to: one accepted connection, or anything else. -/
inductive File where
  | socket (session : Nat)
  | other
  deriving DecidableEq, Repr

/-- The part of `session_t` that the loop reads; `fd` is `none` once the session is closed. -/
structure Session where
  id : Nat
  fd : Option Nat
  markClosed : Bool := false
  sbufEmpty : Bool := true
  writeNotifier : Bool := false
  deriving DecidableEq, Repr

/-- A `session_state` of the loop; `native` is the handle of its own duplicate of the connection. -/
structure SessionState where
  id : Nat
  session : Nat
  native : Option Nat
  fd : Nat
  readWait : Bool := false
  writeWait : Bool := false
  dispatchPosted : Bool := false
  removed : Bool := false
  deriving DecidableEq, Repr

/-- An entry of `sessions_`. -/
structure SessionEntry where
  fd : Nat
  state : Nat
  deriving DecidableEq, Repr

/-- `owned` is `server_.sessions`, `entries` is `sessions_`, `posted` the queued write
notifications. -/
structure SessionLoop where
  table : Table File := []
  objects : List Session := []
  owned : List Nat := []
  states : List SessionState := []
  entries : List SessionEntry := []
  posted : List Nat := []
  deriving DecidableEq, Repr

def maxControlSessions : Nat := 256

inductive Touch where
  | queue (session : Nat)
  | drain (session : Nat)
  | close (session : Nat)
  | markClose (session : Nat)
  deriving DecidableEq, Repr

namespace SessionLoop

def findSession (s : SessionLoop) (id : Nat) : Option Session := Keyed.find Session.id id s.objects

def findState (s : SessionLoop) (id : Nat) : Option SessionState :=
  Keyed.find SessionState.id id s.states

def updateSession (s : SessionLoop) (id : Nat) (f : Session → Session) : SessionLoop :=
  { s with objects := Keyed.update Session.id id f s.objects }

def updateState (s : SessionLoop) (id : Nat) (f : SessionState → SessionState) : SessionLoop :=
  { s with states := Keyed.update SessionState.id id f s.states }

def fdOf (s : SessionLoop) (id : Nat) : Option Nat := (s.findSession id).bind Session.fd

def isClose (s : SessionLoop) (id : Nat) : Bool := (s.fdOf id).isNone

def isMarkedClose (s : SessionLoop) (id : Nat) : Bool := (s.findSession id).any Session.markClosed

def sbufEmpty (s : SessionLoop) (id : Nat) : Bool := (s.findSession id).all Session.sbufEmpty

/-- `session_t::close` gives the number back at once. -/
def closeSession (s : SessionLoop) (id : Nat) : SessionLoop :=
  match s.fdOf id with
  | none => s
  | some fd =>
    { s.updateSession id fun x => { x with fd := none, writeNotifier := false } with
      table := s.table.close fd }

def stateAlive (s : SessionLoop) (st : SessionState) : Bool :=
  st.readWait || st.writeWait || st.dispatchPosted || s.entries.any fun e => e.state = st.id

def notified (s : SessionLoop) (session : Nat) : List Nat :=
  (s.states.filter fun st => st.session = session).map SessionState.id

def touch (s : SessionLoop) : Touch → SessionLoop
  | .queue id =>
    match s.findSession id with
    | none => s
    | some x =>
      if x.fd.isNone then s
      else
        { s.updateSession id fun x => { x with sbufEmpty := false } with
          posted := if x.writeNotifier then s.posted ++ s.notified id else s.posted }
  | .drain id => s.updateSession id fun x => { x with sbufEmpty := true }
  | .close id => s.closeSession id
  | .markClose id => s.updateSession id fun x => { x with markClosed := true }

def touchAll (s : SessionLoop) (l : List Touch) : SessionLoop := l.foldl touch s

def closeDescriptor (s : SessionLoop) (st : SessionState) : SessionLoop :=
  match st.native with
  | none => s
  | some n =>
    { s.updateState st.id fun x => { x with native := none } with table := s.table.close n }

def eraseEntry (s : SessionLoop) (st : SessionState) : SessionLoop :=
  if Keyed.find SessionEntry.fd st.fd s.entries = some ⟨st.fd, st.id⟩ then
    { s with entries := Keyed.remove SessionEntry.fd st.fd s.entries }
  else s

def removeSession (s : SessionLoop) (id : Nat) : SessionLoop :=
  match s.findState id with
  | none => s
  | some st =>
    if st.removed then s
    else
      let s₁ := s.updateState id fun x => { x with removed := true }
      let s₂ := s₁.updateSession st.session fun x => { x with writeNotifier := false }
      let s₃ := ((s₂.eraseEntry st).closeDescriptor st).closeSession st.session
      { s₃ with owned := s₃.owned.filter (· ≠ st.session) }

def armSessionWrite (s : SessionLoop) (id : Nat) : SessionLoop :=
  match s.findState id with
  | none => s
  | some st =>
    if st.removed || st.writeWait then s
    else if s.isClose st.session then s.removeSession id
    else if s.sbufEmpty st.session then
      if s.isMarkedClose st.session then s.removeSession id else s
    else s.updateState id fun x => { x with writeWait := true }

def armSessionRead (s : SessionLoop) (id : Nat) : SessionLoop :=
  match s.findState id with
  | none => s
  | some st =>
    if st.removed || st.readWait then s
    else if s.isClose st.session then s.removeSession id
    else if s.isMarkedClose st.session then
      if s.sbufEmpty st.session then s.removeSession id else s.armSessionWrite id
    else s.updateState id fun x => { x with readWait := true }

/-- `dispatch_messages`: `handled` is what the handled frames do to the sessions, `more` says that
frames are left. -/
def dispatchMessages (s : SessionLoop) (id : Nat) (handled : List Touch) (more : Bool) :
    SessionLoop :=
  match s.findState id with
  | none => s
  | some st =>
    if st.removed || s.isClose st.session then s
    else
      let s₁ := (s.touchAll handled).armSessionWrite id
      if more && !s₁.isMarkedClose st.session then
        s₁.updateState id fun x => { x with dispatchPosted := true }
      else s₁

/-- The callback of a read wait: an error, a read that fails, ends or closes the session, or
frames. -/
def readReady (s : SessionLoop) (id : Nat) (error failed : Bool) (read handled : List Touch)
    (more : Bool) : SessionLoop :=
  let s₁ := s.updateState id fun x => { x with readWait := false }
  match s₁.findState id with
  | none => s₁
  | some st =>
    if st.removed then s₁
    else if error then s₁.removeSession id
    else
      let s₂ := s₁.touchAll read
      if failed || s₂.isClose st.session then s₂.removeSession id
      else ((s₂.dispatchMessages id handled more).armSessionWrite id).armSessionRead id

/-- The callback of a write wait; `written` is what `session_t::write` does to the session. -/
def writeReady (s : SessionLoop) (id : Nat) (error : Bool) (written : List Touch) : SessionLoop :=
  let s₁ := s.updateState id fun x => { x with writeWait := false }
  match s₁.findState id with
  | none => s₁
  | some st =>
    if st.removed then s₁
    else if error then s₁.removeSession id
    else
      let s₂ := s₁.touchAll written
      if s₂.isClose st.session || (s₂.isMarkedClose st.session && s₂.sbufEmpty st.session) then
        s₂.removeSession id
      else s₂.armSessionWrite id

/-- The posted continuation of `dispatch_messages`. -/
def dispatchReady (s : SessionLoop) (id : Nat) (handled : List Touch) (more : Bool) : SessionLoop :=
  let s₁ := s.updateState id fun x => { x with dispatchPosted := false }
  match s₁.findState id with
  | none => s₁
  | some st =>
    if st.removed then s₁ else (s₁.dispatchMessages id handled more).armSessionRead id

/-- The posted call of a write notifier, which holds its state weakly. -/
def notifyReady (s : SessionLoop) (id : Nat) : SessionLoop :=
  let s₁ := { s with posted := s.posted.erase id }
  match s₁.findState id with
  | none => s₁
  | some st => if s₁.stateAlive st then s₁.armSessionWrite id else s₁

/-- One turn of the accept loop: the limit, the credentials, `dup`, and the new session. -/
def accept (s : SessionLoop) (denied dupFails : Bool) : SessionLoop :=
  let fd := s.table.free
  let t := s.table.add (.socket s.objects.length)
  if s.owned.length ≥ maxControlSessions || denied then { s with table := t.close fd }
  else if dupFails then
    { s with
      table := t.close fd
      objects := s.objects ++ [⟨s.objects.length, none, false, true, false⟩] }
  else
    armSessionRead
      { s with
        table := t.add (.socket s.objects.length)
        objects := s.objects ++ [⟨s.objects.length, some fd, false, true, true⟩]
        owned := s.owned ++ [s.objects.length]
        states := s.states ++ [⟨s.states.length, s.objects.length, some t.free, fd,
          false, false, false, false⟩]
        entries := if (Keyed.find SessionEntry.fd fd s.entries).isSome then s.entries
          else s.entries ++ [⟨fd, s.states.length⟩] }
      s.states.length

def isExpired (s : SessionLoop) (e : SessionEntry) : Bool :=
  match s.findState e.state with
  | none => false
  | some st =>
    s.isClose st.session || (s.isMarkedClose st.session && s.sbufEmpty st.session)

/-- `run_maintenance`; `ticked` is what the maintenance function does to the sessions. -/
def runMaintenance (s : SessionLoop) (ticked : List Touch) : SessionLoop :=
  let s₁ := ((s.entries.filter s.isExpired).map SessionEntry.state).foldl removeSession s
  let s₂ := { s₁ with owned := s₁.owned.filter fun id => !s₁.isClose id }
  let s₃ := s₂.entries.foldl
    (fun s e => (s.armSessionWrite e.state).armSessionRead e.state) s₂
  s₃.touchAll ticked

inductive Event where
  | accept (denied dupFails : Bool)
  | readReady (id : Nat) (error failed : Bool) (read handled : List Touch) (more : Bool)
  | writeReady (id : Nat) (error : Bool) (written : List Touch)
  | dispatchReady (id : Nat) (handled : List Touch) (more : Bool)
  | notifyReady (id : Nat)
  | runMaintenance (ticked : List Touch)
  | touched (l : List Touch)
  | openOther
  | closeOther (fd : Nat)
  deriving DecidableEq, Repr

/-- A descriptor number that belongs to no session and to no state. -/
def foreign (s : SessionLoop) (fd : Nat) : Bool :=
  (s.objects.all fun x => x.fd ≠ some fd) && s.states.all fun st => st.native ≠ some fd

def step (s : SessionLoop) : Event → Option SessionLoop
  | .accept denied dupFails => some (s.accept denied dupFails)
  | .readReady id error failed read handled more =>
    if (s.findState id).any SessionState.readWait then
      some (s.readReady id error failed read handled more)
    else none
  | .writeReady id error written =>
    if (s.findState id).any SessionState.writeWait then some (s.writeReady id error written)
    else none
  | .dispatchReady id handled more =>
    if (s.findState id).any SessionState.dispatchPosted then some (s.dispatchReady id handled more)
    else none
  | .notifyReady id => if id ∈ s.posted then some (s.notifyReady id) else none
  | .runMaintenance ticked => some (s.runMaintenance ticked)
  | .touched l => some (s.touchAll l)
  | .openOther => some { s with table := s.table.add .other }
  | .closeOther fd => if s.foreign fd then some { s with table := s.table.close fd } else none

def run (s : SessionLoop) : List Event → Option SessionLoop
  | [] => some s
  | e :: es => (s.step e).bind fun s' => s'.run es

/-- The states of the runs whose steps are all `allowed`, from any table of foreign descriptors. -/
inductive Reachable (allowed : SessionLoop → Event → Prop) : SessionLoop → Prop where
  | init (table : Table File) : Reachable allowed { table := table }
  | step {s s' : SessionLoop} : Reachable allowed s → allowed s e → s.step e = some s' →
      Reachable allowed s'

/-- Every open session of `server_.sessions` is stored in `sessions_` under its own descriptor. -/
def AllStored (s : SessionLoop) : Prop :=
  ∀ id ∈ s.owned, ∀ fd ∈ s.fdOf id, ∃ e ∈ Keyed.find SessionEntry.fd fd s.entries,
    ∃ st ∈ s.findState e.state, st.session = id

end SessionLoop

end PmTiny.Sessions
