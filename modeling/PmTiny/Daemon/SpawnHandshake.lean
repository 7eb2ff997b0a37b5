import PmTiny.Daemon.Prog
import PmTiny.Lib.Runs

namespace PmTiny.Handshake
set_option autoImplicit true

/-- The ends of the pipes of a launch, and the master of its terminal. -/
inductive LaunchEnd where
  | stdoutRead | stdoutWrite | stderrRead | stderrWrite
  | gateRead | gateWrite | execStatusRead | execStatusWrite
  | ptyMaster
  deriving DecidableEq, Repr

/-- `child_launch_context`: the slots that hold a descriptor, what was put into them and the calls
of `close` since then, in their order, and what was handed to the program. -/
structure ChildLaunchContext where
  usePty : Bool := false
  slots : List LaunchEnd := []
  opened : List LaunchEnd := []
  closed : List LaunchEnd := []
  released : List LaunchEnd := []
  deriving DecidableEq, Repr

namespace ChildLaunchContext

def put (launch : ChildLaunchContext) (ends : List LaunchEnd) : ChildLaunchContext :=
  { launch with slots := launch.slots ++ ends, opened := launch.opened ++ ends }

/-- `close_fd` on each of the slots. -/
def closeFds (launch : ChildLaunchContext) (ends : List LaunchEnd) : ChildLaunchContext :=
  { launch with
    slots := launch.slots.filter (· ∉ ends)
    closed := launch.closed ++ launch.slots.filter (· ∈ ends) }

def closeParentEnds (launch : ChildLaunchContext) : ChildLaunchContext :=
  launch.closeFds ([LaunchEnd.gateRead, .execStatusWrite] ++
    if launch.usePty then [] else [LaunchEnd.stdoutWrite, .stderrWrite])

def closeChildEnds (launch : ChildLaunchContext) : ChildLaunchContext :=
  launch.closeFds ([LaunchEnd.gateWrite, .execStatusRead] ++
    if launch.usePty then [LaunchEnd.ptyMaster] else [.stdoutRead, .stderrRead])

/-- The slots whose descriptors go to the program. -/
def streams (usePty : Bool) : List LaunchEnd :=
  if usePty then [.ptyMaster] else [.stdoutRead, .stderrRead]

def releaseParentStreams (launch : ChildLaunchContext) : ChildLaunchContext :=
  { launch with
    slots := launch.slots.filter (· ∉ streams launch.usePty)
    released := launch.slots.filter (· ∈ streams launch.usePty) }

/-- `close_all`, which the destructor calls too. -/
def closeAll (launch : ChildLaunchContext) : ChildLaunchContext :=
  { launch with slots := [], closed := launch.closed ++ launch.slots }

/-- The calls of `prepare`; the descriptors of the terminal are set up by the calls after
`posix_openpt`. -/
inductive PrepareCall where
  | pipeStdout | pipeStderr | posixOpenpt | setUpPty | pipeGate | pipeExecStatus | setCloexec
  deriving DecidableEq, Repr

/-- One call of `prepare`. `create_pty` closes the master where it gives up, and leaves its number
in the slot. -/
def prepareCall (launch : ChildLaunchContext) (fails : PrepareCall → Bool) (call : PrepareCall) :
    Bool × ChildLaunchContext :=
  match call, fails call with
  | .pipeStdout, false => (true, launch.put [.stdoutRead, .stdoutWrite])
  | .pipeStderr, false => (true, launch.put [.stderrRead, .stderrWrite])
  | .posixOpenpt, false => (true, launch.put [.ptyMaster])
  | .pipeGate, false => (true, launch.put [.gateRead, .gateWrite])
  | .pipeExecStatus, false => (true, launch.put [.execStatusRead, .execStatusWrite])
  | .setUpPty, true => (false, { launch with closed := launch.closed ++ [LaunchEnd.ptyMaster] })
  | _, failed => (!failed, launch)

def prepareCalls (usePty : Bool) : List PrepareCall :=
  (if usePty then [PrepareCall.posixOpenpt, .setUpPty] else [.pipeStdout, .pipeStderr]) ++
    [PrepareCall.pipeGate, .pipeExecStatus, .setCloexec]

/-- The calls in their order up to the first that fails. -/
def runCalls (fails : PrepareCall → Bool) : List PrepareCall → ChildLaunchContext →
    Bool × ChildLaunchContext
  | [], launch => (true, launch)
  | call :: calls, launch =>
    let result := launch.prepareCall fails call
    if result.1 then runCalls fails calls result.2 else result

def prepare (ptyMode : Bool) (fails : PrepareCall → Bool) : Bool × ChildLaunchContext :=
  runCalls fails (prepareCalls ptyMode) { usePty := ptyMode }

/-- What is open after a `prepare` without a failure. -/
def prepared (ptyMode : Bool) : ChildLaunchContext := (prepare ptyMode fun _ => false).2

end ChildLaunchContext

/-- What `real_spawn_prog` knows when it forks. -/
structure Config where
  usePty : Bool
  /-- `geteuid() == 0` -/
  privileged : Bool
  prog : ProgInfo
  pid : Nat
  /-- The image is set-user-ID or set-group-ID or has capabilities. -/
  setuidImage : Bool := false
  deriving DecidableEq

/-- Why no program was started, with the errno where the system sets it. -/
inductive SpawnFailure where
  | attach
  | gate (errno : Nat)
  | timeout
  | status (errno : Nat)
  | child (errno : Nat)
  deriving DecidableEq, Repr

/-- `errno` where the daemon sets it before it returns: `EPERM`, `ETIMEDOUT`, or what a call left
there. After a gate that could not be written it is as the calls that undo the launch leave it. -/
def SpawnFailure.errno : SpawnFailure → Option Nat
  | .attach => some 1
  | .gate _ => none
  | .timeout => some 110
  | .status errno => some errno
  | .child errno => some errno

inductive UndoCall where
  | closeAll | closeExecStatus | kill | waitpid | cleanup | resetFailedStart
  deriving DecidableEq, Repr

def undoCalls : SpawnFailure → List UndoCall
  | .attach => [.closeAll, .kill, .waitpid, .resetFailedStart]
  | .gate _ => [.kill, .waitpid, .closeExecStatus, .cleanup, .resetFailedStart]
  | .timeout => [.kill, .waitpid, .cleanup, .resetFailedStart, .closeExecStatus]
  | .status _ => [.kill, .waitpid, .cleanup, .resetFailedStart]
  | .child _ => [.waitpid, .cleanup, .resetFailedStart]

/-- What the daemon has read from `exec_status`. -/
inductive ExecStatus where
  | executed
  | failed (failure : SpawnFailure)
  deriving DecidableEq, Repr

inductive Parent where
  | closeEnds
  | startInstance
  | attach
  | writeGate
  | closeGate (error : Option Nat)
  | poll
  | readStatus
  | closeStatus (status : ExecStatus)
  | undo (failure : SpawnFailure) (done calls : List UndoCall)
  | release
  | returned (result : Except SpawnFailure Unit)
  | gone
  deriving DecidableEq

inductive ChildCall where
  | setsid | dupStreams | openPty
  | initgroups | setresgid | setresuid
  | setPdeathsig | checkParent | chdir | execve
  deriving DecidableEq, Repr

/-- `dup2` is not looked at, and the parent is only compared. -/
def ChildCall.fallible : ChildCall → Bool
  | .dupStreams | .checkParent => false
  | _ => true

def setupCalls (usePty changeIdentity changeDir : Bool) : List ChildCall :=
  [ChildCall.setsid] ++ (if usePty then [ChildCall.openPty] else [.dupStreams]) ++
    (if changeIdentity then [ChildCall.initgroups, .setresgid, .setresuid] else []) ++
    [ChildCall.setPdeathsig, .checkParent] ++ (if changeDir then [ChildCall.chdir] else []) ++
    [ChildCall.execve]

def childCalls (config : Config) : List ChildCall :=
  setupCalls config.usePty (config.prog.runAs ≠ "" && config.privileged)
    (config.prog.workDir ≠ "")

inductive Child where
  | closeEnds
  | recordParent
  | readGate
  | closeGate
  | setup (calls : List ChildCall)
  | report (errno : Nat)
  | exit
  | running
  | zombie
  | reaped
  deriving DecidableEq

/-- The child still takes steps. -/
def Child.alive : Child → Bool
  | .zombie | .reaped => false
  | _ => true

structure Launch where
  config : Config
  parent : Parent := .closeEnds
  launch : ChildLaunchContext := ChildLaunchContext.prepared config.usePty
  prog : ProgInfo := config.prog
  child : Child := .closeEnds
  childLaunch : ChildLaunchContext := ChildLaunchContext.prepared config.usePty
  /-- The byte in the gate. -/
  gate : Bool := false
  /-- The errno in `exec_status`. -/
  execStatus : Option Nat := none
  /-- The daemon was there when the child asked for its parent. -/
  expectedParent : Bool := false
  pdeathsig : Bool := false
  /-- A signal of the daemon or of the kernel to the child. -/
  sigkill : Bool := false
  sigterm : Bool := false
  /-- The call of the child that failed. -/
  failure : Option (ChildCall × Nat) := none
  /-- The errno of that call was written to `exec_status`. -/
  reported : Bool := false
  executed : Bool := false
  deriving DecidableEq

inductive Event where
  /-- The daemon's next call, which does not fail by itself. -/
  | parent (nowMs : Int)
  | attachFails
  | writeGateFails (errno : Nat)
  | pollTimesOut
  | pollFails (errno : Nat)
  | readStatusFails (errno : Nat)
  /-- A call of the child that succeeds, or one that fails. -/
  | child
  | childFails (errno : Nat)
  /-- The signal of the daemon reaches the child. -/
  | killed
  /-- The child ends for a reason of its own. -/
  | childDies
  | daemonDies
  deriving DecidableEq

namespace Launch

def gateEof (s : Launch) : Bool :=
  !(s.launch.slots.contains .gateWrite || s.childLaunch.slots.contains .gateWrite)

def gateReader (s : Launch) : Bool :=
  s.launch.slots.contains .gateRead || s.childLaunch.slots.contains .gateRead

def statusEof (s : Launch) : Bool :=
  !(s.launch.slots.contains .execStatusWrite || s.childLaunch.slots.contains .execStatusWrite)

/-- `poll` has something to report. -/
def statusReady (s : Launch) : Bool := s.execStatus.isSome || s.statusEof

def undo (s : Launch) (failure : SpawnFailure) : Launch :=
  { s with parent := .undo failure [] (undoCalls failure) }

def dies (s : Launch) : Launch :=
  { s with child := .zombie, childLaunch := s.childLaunch.closeAll }

/-- One of the calls that undo a launch; `waitpid` waits for the child to end. -/
def undoCall (s : Launch) : UndoCall → Option Launch
  | .closeAll => some { s with launch := s.launch.closeAll }
  | .closeExecStatus => some { s with launch := s.launch.closeFds [.execStatusRead] }
  | .kill => some { s with sigkill := true }
  | .waitpid => if s.child = .zombie then some { s with child := .reaped } else none
  | .cleanup => some { s with prog := s.prog.cleanup }
  | .resetFailedStart =>
    some { s with prog := { s.prog with inst := s.prog.inst.resetFailedStart } }

/-- The daemon's next call, where nothing but the child stands against it. -/
def parentProceeds (s : Launch) (nowMs : Int) : Option Launch :=
  match s.parent with
  | .closeEnds => some { s with launch := s.launch.closeParentEnds, parent := .startInstance }
  | .startInstance =>
    some { s with
      prog := { s.prog with inst := s.prog.inst.start s.config.pid }, parent := .attach }
  | .attach =>
    let tree := { active := true, members := [s.config.pid] }
    some { s with prog := { s.prog with inst := { s.prog.inst with tree } }, parent := .writeGate }
  | .writeGate =>
    -- `EPIPE` once the child has gone
    if s.gateReader then some { s with gate := true, parent := .closeGate none }
    else some { s with parent := .closeGate (some 32) }
  | .closeGate error =>
    let s := { s with launch := s.launch.closeFds [.gateWrite] }
    match error with
    | none => some { s with parent := .poll }
    | some errno => some (s.undo (.gate errno))
  | .poll => if s.statusReady then some { s with parent := .readStatus } else none
  | .readStatus =>
    match s.execStatus with
    | some errno =>
      some { s with execStatus := none, parent := .closeStatus (.failed (.child errno)) }
    | none => if s.statusEof then some { s with parent := .closeStatus .executed } else none
  | .closeStatus status =>
    let s := { s with launch := s.launch.closeFds [.execStatusRead] }
    match status with
    | .executed => some { s with parent := .release }
    | .failed failure => some (s.undo failure)
  | .undo failure _ [] =>
    some { s with launch := s.launch.closeAll, parent := .returned (.error failure) }
  | .undo failure done (call :: calls) =>
    (s.undoCall call).map fun s => { s with parent := .undo failure (done ++ [call]) calls }
  | .release =>
    some { s with
      launch := s.launch.releaseParentStreams.closeAll
      prog := { s.prog with
        lastStartupMs := nowMs, heartbeatActionDueMs := 0, state := .starting }
      parent := .returned (.ok ()) }
  | .returned _ => none
  | .gone => none

def parentFails (s : Launch) : Event → Option Launch
  | .attachFails => if s.parent = .attach then some (s.undo .attach) else none
  | .writeGateFails errno =>
    if s.parent = .writeGate then some { s with parent := .closeGate (some errno) } else none
  | .pollTimesOut =>
    if s.parent = .poll ∧ s.statusReady = false then some (s.undo .timeout) else none
  | .pollFails errno =>
    if s.parent = .poll then some { s with parent := .closeStatus (.failed (.status errno)) }
    else none
  | .readStatusFails errno =>
    if s.parent = .readStatus then some { s with parent := .closeStatus (.failed (.status errno)) }
    else none
  | _ => none

def setupCall (s : Launch) (calls : List ChildCall) : ChildCall → Launch
  | .dupStreams =>
    { s with
      childLaunch := s.childLaunch.closeFds [.stdoutWrite, .stderrWrite], child := .setup calls }
  | .setPdeathsig => { s with pdeathsig := true, child := .setup calls }
  | .checkParent =>
    -- `EPIPE` where the daemon has gone since
    if s.expectedParent = true ∧ s.parent = .gone then
      { s with failure := some (.checkParent, 32), child := .report 32 }
    else { s with child := .setup calls }
  | .execve =>
    -- `exec_status` is closed by the call itself, and the signal is forgotten with a set-user-ID
    -- image
    { s with
      childLaunch := s.childLaunch.closeFds [.execStatusWrite]
      pdeathsig := s.pdeathsig && !s.config.setuidImage
      executed := true
      child := .running }
  | _ => { s with child := .setup calls }

def childProceeds (s : Launch) : Option Launch :=
  match s.child with
  | .closeEnds =>
    some { s with childLaunch := s.childLaunch.closeChildEnds, child := .recordParent }
  | .recordParent => some { s with expectedParent := s.parent ≠ .gone, child := .readGate }
  | .readGate =>
    -- the answer of `read` is not looked at: the end of the file opens the gate too
    if s.gate then some { s with gate := false, child := .closeGate }
    else if s.gateEof then some { s with child := .closeGate }
    else none
  | .closeGate =>
    some { s with
      childLaunch := s.childLaunch.closeFds [.gateRead], child := .setup (childCalls s.config) }
  | .setup [] => none
  | .setup (call :: calls) => some (s.setupCall calls call)
  | .report errno =>
    -- nobody gets the number once the daemon has given up its end
    if s.launch.slots.contains .execStatusRead then
      some { s with execStatus := some errno, reported := true, child := .exit }
    else some { s with child := .exit }
  | .exit => some s.dies
  | .running => none
  | .zombie => none
  | .reaped => none

def childFails (s : Launch) (errno : Nat) : Option Launch :=
  match s.child with
  | .setup (call :: _) =>
    if call.fallible then some { s with failure := some (call, errno), child := .report errno }
    else none
  | _ => none

/-- The daemon ends; the kernel closes its descriptors and sends the signal the child asked for. -/
def daemonDies (s : Launch) : Launch :=
  { s with
    parent := .gone
    launch := s.launch.closeAll
    sigterm := s.sigterm || (s.pdeathsig && s.child.alive) }

def step (s : Launch) : Event → Option Launch
  | .parent nowMs => s.parentProceeds nowMs
  | .child => s.childProceeds
  | .childFails errno => s.childFails errno
  | .killed => if s.sigkill ∧ s.child.alive then some s.dies else none
  | .childDies => if s.child.alive then some s.dies else none
  | .daemonDies => if s.parent = .gone then none else some s.daemonDies
  | event => s.parentFails event

/-- Any interleaving of the two sides from the fork on. -/
abbrev Spawned (config : Config) (events : List Event) (s : Launch) : Prop :=
  Transitions.Run step { config } events s

end Launch
end PmTiny.Handshake
