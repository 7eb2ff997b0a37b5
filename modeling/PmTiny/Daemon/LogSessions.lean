import PmTiny.Lib.Keyed

namespace PmTiny.LogSessions
set_option autoImplicit true

/-- The part of `session_t` that log subscriptions use; `prog` is the back pointer `prog_`. -/
structure LogSession where
  id : Nat
  isOpen : Bool := true
  markClosed : Bool := false
  prog : Option Nat := none
  deriving DecidableEq, Repr

/-- The part of `prog_info_t` that log subscriptions use. -/
structure LogProg where
  id : Nat
  live : Bool := false
  restartPending : Bool := false
  sessions : List Nat := []
  pendingLogSessions : List Nat := []
  deriving DecidableEq, Repr

structure LogServer where
  sessions : List LogSession := []
  progs : List LogProg := []
  nextProg : Nat := 0
  deriving DecidableEq, Repr

namespace LogServer

def findSession (s : LogServer) (id : Nat) : Option LogSession :=
  Keyed.find LogSession.id id s.sessions

def findProg (s : LogServer) (id : Nat) : Option LogProg := Keyed.find LogProg.id id s.progs

def updateSession (s : LogServer) (id : Nat) (f : LogSession → LogSession) : LogServer :=
  { s with sessions := Keyed.update LogSession.id id f s.sessions }

def updateProg (s : LogServer) (id : Nat) (f : LogProg → LogProg) : LogServer :=
  { s with progs := Keyed.update LogProg.id id f s.progs }

def isOpen (s : LogServer) (id : Nat) : Bool := (s.findSession id).any LogSession.isOpen

def getProg (s : LogServer) (id : Nat) : Option Nat := (s.findSession id).bind LogSession.prog

/-- The sessions of a program; a program that is gone has none. -/
def subscribers (s : LogServer) (prog : Nat) : List Nat :=
  ((s.findProg prog).map LogProg.sessions).getD []

/-- `prog_info_t::remove_session` removes every occurrence. -/
def removeSession (s : LogServer) (prog session : Nat) : LogServer :=
  s.updateProg prog fun p => { p with sessions := p.sessions.filter (· ≠ session) }

def addSession (s : LogServer) (prog session : Nat) : LogServer :=
  (s.updateProg prog fun p => { p with sessions := p.sessions ++ [session] }).updateSession session
    fun x => { x with prog := some prog }

/-- `session_t::close` leaves only the program its back pointer names. -/
def closeSession (s : LogServer) (id : Nat) : LogServer :=
  if s.isOpen id then
    let s₁ := match s.getProg id with
      | none => s
      | some prog => s.removeSession prog id
    s₁.updateSession id fun x => { x with isOpen := false, prog := none }
  else s

/-- A frame is written; `closes` are the sessions whose queue overflows or whose peer is gone. -/
def writeFrame (s : LogServer) (closes : List Nat) (id : Nat) : LogServer :=
  if id ∈ closes then s.closeSession id else s

def writeFrames (s : LogServer) (closes ids : List Nat) : LogServer :=
  ids.foldl (fun s id => s.writeFrame closes id) s

/-- The answer to every waiting client that is still open; the waiting list is emptied. -/
def failPendingLogSessions (s : LogServer) (prog : Nat) (closes : List Nat) : LogServer :=
  match s.findProg prog with
  | none => s
  | some p =>
    (s.writeFrames closes (p.pendingLogSessions.filter s.isOpen)).updateProg prog fun p =>
      { p with pendingLogSessions := [] }

def detach (s : LogServer) (id : Nat) : LogServer :=
  s.updateSession id fun x => { x with markClosed := true, prog := none }

def detachSessions (s : LogServer) (prog : Nat) (closes : List Nat) : LogServer :=
  (((s.subscribers prog).foldl detach s).updateProg prog fun p =>
    { p with sessions := [] }).failPendingLogSessions prog closes

/-- One turn of the loop of `activate_pending_log_sessions`. -/
def activateSession (prog : Nat) (closes : List Nat) (s : LogServer) (id : Nat) : LogServer :=
  if s.isOpen id then (s.addSession prog id).writeFrame closes id else s

def activatePendingLogSessions (s : LogServer) (prog : Nat) (closes : List Nat) : LogServer :=
  match s.findProg prog with
  | none => s
  | some p =>
    (p.pendingLogSessions.foldl (activateSession prog closes) s).updateProg prog fun p =>
      { p with pendingLogSessions := [] }

/-- `start_prog`: the next generation runs and the waiting clients are bound to it. -/
def startProg (s : LogServer) (prog : Nat) (closes : List Nat) : LogServer :=
  (s.updateProg prog fun p => { p with live := true }).activatePendingLogSessions prog closes

/-- `spawn0` starts a program without looking at its waiting clients. -/
def spawn0 (s : LogServer) (prog : Nat) : LogServer :=
  s.updateProg prog fun p => { p with live := true }

/-- The root process is reaped: the exit event goes to the subscribers, which are then detached. -/
def closeFds (s : LogServer) (prog : Nat) (closes : List Nat) : LogServer :=
  ((s.writeFrames closes (s.subscribers prog)).detachSessions prog closes).updateProg prog fun p =>
    { p with live := false }

def handleLog (s : LogServer) (session prog : Nat) (closes : List Nat) : LogServer :=
  match s.findProg prog with
  | none => s.writeFrame closes session
  | some p =>
    if p.live then (s.addSession prog session).writeFrame closes session
    else if p.restartPending then
      s.updateProg prog fun p => { p with pendingLogSessions := p.pendingLogSessions ++ [session] }
    else s.writeFrame closes session

/-- The end of a start or restart request with a log that has an effect: `add_session`, then the
answer. -/
def progBindSession (s : LogServer) (session prog : Nat) (closes : List Nat) : LogServer :=
  match s.findProg prog with
  | none => s
  | some _ => (s.addSession prog session).writeFrame closes session

def deleteProg (s : LogServer) (prog : Nat) (closes : List Nat) : LogServer :=
  let s₁ := s.detachSessions prog closes
  { s₁ with progs := Keyed.remove LogProg.id prog s₁.progs }

inductive Event where
  | accept
  | close (session : Nat)
  | create
  | startProg (prog : Nat) (closes : List Nat)
  | spawn0 (prog : Nat)
  | planRestart (prog : Nat) (restartPending : Bool)
  | closeFds (prog : Nat) (closes : List Nat)
  | output (prog : Nat) (closes : List Nat)
  | failPending (prog : Nat) (closes : List Nat)
  | log (session prog : Nat) (closes : List Nat)
  | bind (session prog : Nat) (closes : List Nat)
  | delete (prog : Nat) (closes : List Nat)
  deriving DecidableEq, Repr

def step (s : LogServer) : Event → LogServer
  | .accept => { s with sessions := s.sessions ++ [⟨s.sessions.length, true, false, none⟩] }
  | .close session => s.closeSession session
  | .create =>
    { s with
      progs := s.progs ++ [⟨s.nextProg, false, false, [], []⟩]
      nextProg := s.nextProg + 1 }
  | .startProg prog closes => s.startProg prog closes
  | .spawn0 prog => s.spawn0 prog
  | .planRestart prog restartPending =>
    s.updateProg prog fun p => { p with restartPending := restartPending }
  | .closeFds prog closes => s.closeFds prog closes
  | .output prog closes => s.writeFrames closes (s.subscribers prog)
  | .failPending prog closes => s.failPendingLogSessions prog closes
  | .log session prog closes => s.handleLog session prog closes
  | .bind session prog closes => s.progBindSession session prog closes
  | .delete prog closes => s.deleteProg prog closes

/-- The states of the runs whose steps are all `allowed`. -/
inductive Reachable (allowed : LogServer → Event → Prop) : LogServer → Prop where
  | init : Reachable allowed {}
  | step : Reachable allowed s → allowed s e → Reachable allowed (s.step e)

/-- The lists of the programs and the back pointers of the sessions agree. -/
structure Consistent (s : LogServer) : Prop where
  nodup : ∀ p ∈ s.progs, p.sessions.Nodup
  bound : ∀ p ∈ s.progs, ∀ id ∈ p.sessions, s.isOpen id = true ∧ s.getProg id = some p.id
  listed : ∀ id, s.isOpen id = true → ∀ p ∈ s.progs, s.getProg id = some p.id → id ∈ p.sessions

end LogServer

end PmTiny.LogSessions
