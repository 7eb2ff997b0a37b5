import PmTiny.Core.ProgramLog
import PmTiny.Lib.HandleWalk
import PmTiny.Protocol.SendQueue

namespace PmTiny
set_option autoImplicit true

/-- A session as the log fan-out sees it: its sending side, and what `detach_sessions` sets. -/
structure LogClient where
  session : SendSession
  markedClose : Bool := false
  prog : Option String := none

namespace LogClient

/-- `close` makes the session forget its program; the program forgets the session in
`Visit.step`. -/
def writeStreamFrame (write : StreamFrame × Bool) (client : LogClient) : LogClient :=
  let session := client.session.writeStreamFrame write.1 write.2
  if session.isClose && !client.session.isClose then
    { client with session := session, prog := none }
  else { client with session := session }

/-- One round of the range-for over the sessions of a program. Each of them points back to the
program, so closing it removes it from the vector that the loop runs over. -/
def visit (write : StreamFrame × Bool) : Visit LogClient where
  write := writeStreamFrame write
  gone client := client.session.isClose

def detach (client : LogClient) : LogClient := { client with markedClose := true, prog := none }

end LogClient

/-- The frames of a text, each with its `MORE` flag. -/
def streamWrites (msgType : Int) (content : List UInt8) : List (StreamFrame × Bool) :=
  let frames := streamFrames msgType content
  frames.mapIdx fun i frame => (frame, msgType != 0 || i + 1 < frames.length)

def exitEventOf (wstatus : Nat) : String × Int :=
  if wstatus % 128 = 0 then ("exited", (wstatus / 256 % 256 : Nat))
  else if wstatus % 128 ≠ 127 then ("signaled", (wstatus % 128 : Nat))
  else ("unknown", 0)

/-- A program with the sessions that follow its log. -/
structure FollowedProg where
  name : String
  pid : Int := -1
  lastPid : Int := -1
  lastWstatus : Nat := 0
  logTail : BoundedLogTail := {}
  sessions : List Nat := []
  clients : Nat → LogClient

namespace FollowedProg

/-- Every frame goes to all sessions before the next one is sent. -/
def fanOut (writes : List (StreamFrame × Bool)) (p : FollowedProg) : FollowedProg :=
  writes.foldl (fun p write =>
    let written := (LogClient.visit write).rangeFor p.sessions p.clients
    { p with sessions := written.1, clients := written.2 }) p

def writeMsgToSessions (msgType : Int) (content : List UInt8) (p : FollowedProg) : FollowedProg :=
  let p := { p with logTail := p.logTail.append content }
  if p.sessions.isEmpty then p else p.fanOut (streamWrites msgType content)

def detachSessions (p : FollowedProg) : FollowedProg :=
  { p with
    clients := fun id => if id ∈ p.sessions then (p.clients id).detach else p.clients id
    sessions := [] }

def exitMessage (p : FollowedProg) : List UInt8 :=
  let progPid := if p.pid = -1 then p.lastPid else p.pid
  let exit := exitEventOf p.lastWstatus
  (formatProgramExitEvent p.name progPid exit.1 exit.2).toUTF8.data.toList

def writeProgExitMessage (p : FollowedProg) : FollowedProg :=
  let p := if p.sessions.isEmpty then p else p.fanOut (streamWrites 0 p.exitMessage)
  p.detachSessions

end FollowedProg

end PmTiny
