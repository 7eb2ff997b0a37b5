import PmTiny.Lib.Crash
import PmTiny.Wire.Forms

namespace PmTiny.ProcessTree
open Crash Wire
set_option autoImplicit true

inductive ProcessTreeMode where
  | autoDetect
  | cgroup
  | processGroup
  deriving DecidableEq

/-- A path, a name or a message, as bytes. -/
abbrev Text := List UInt8

def slash : UInt8 := 47

/-- `cgroup_fs` and the calls beside it, over a world that may change with every call; a call that
fails has a reason or an errno. `fork` is answered in the parent. -/
structure System (ω : Type) where
  isV2Available : Text → ω → ω × Bool
  createGroup : Text → ω → ω × Except Text Unit
  attachPid : Text → Nat → ω → ω × Except Text Unit
  collectPids : Text → ω → ω × Except Text (List Int)
  listChildGroups : Text → ω → ω × Except Text (List Text)
  removeGroup : Text → ω → ω × Except Text Unit
  signalPid : Int → Int → ω → ω × Option Int
  fork : ω → ω × Option Nat
  kill : Int → Int → ω → ω × Option Int
  waitpid : Nat → ω → ω × Unit
  getpgid : Int → ω → ω × Option Int
  strerror : ω → ω × Text
  children : ∀ group w groups, (listChildGroups group w).2 = .ok groups →
    ∀ child ∈ groups, ∃ name, child = group ++ slash :: name

inductive TreeCall where
  | isV2Available (root : Text)
  | createGroup (path : Text) (ok : Bool)
  | attachPid (group : Text) (pid : Nat) (ok : Bool)
  | collectPids (group : Text) (pids : Option (List Int))
  | listChildGroups (group : Text) (groups : Option (List Text))
  | removeGroup (path : Text)
  | signalPid (pid signo : Int)
  | fork (pid : Option Nat)
  | kill (pid signo : Int)
  | waitpid (pid : Nat)
  | getpgid (pid : Int)
  | strerror
  deriving DecidableEq

/-- The world, and the calls so far. -/
structure Traced (ω : Type) where
  world : ω
  trace : List TreeCall := []

abbrev Calls (ω α : Type) := Program (Traced ω) α

def traced (f : ω → ω × α) (call : α → TreeCall) : Calls ω α := .call fun s =>
  ({ world := (f s.world).1, trace := s.trace ++ [call (f s.world).2] }, (f s.world).2)

namespace System
variable (sys : System ω)

def available (root : Text) : Calls ω Bool :=
  traced (sys.isV2Available root) fun _ => .isV2Available root

def create (path : Text) : Calls ω (Except Text Unit) :=
  traced (sys.createGroup path) fun reply => .createGroup path reply.toBool

def attach (group : Text) (pid : Nat) : Calls ω (Except Text Unit) :=
  traced (sys.attachPid group pid) fun reply => .attachPid group pid reply.toBool

def collect (group : Text) : Calls ω (Except Text (List Int)) :=
  traced (sys.collectPids group) fun reply => .collectPids group reply.toOption

def list (group : Text) : Calls ω (Except Text (List Text)) :=
  traced (sys.listChildGroups group) fun reply => .listChildGroups group reply.toOption

def remove (path : Text) : Calls ω (Except Text Unit) :=
  traced (sys.removeGroup path) fun _ => .removeGroup path

def signal (pid signo : Int) : Calls ω (Option Int) :=
  traced (sys.signalPid pid signo) fun _ => .signalPid pid signo

def forkProbe : Calls ω (Option Nat) := traced sys.fork .fork

def killProcess (pid signo : Int) : Calls ω (Option Int) :=
  traced (sys.kill pid signo) fun _ => .kill pid signo

def wait (pid : Nat) : Calls ω Unit := traced (sys.waitpid pid) fun _ => .waitpid pid

def groupOf (pid : Int) : Calls ω (Option Int) := traced (sys.getpgid pid) fun _ => .getpgid pid

def errorText : Calls ω Text := traced sys.strerror fun _ => .strerror

end System

structure ProcessTreeHandle where
  mode : ProcessTreeMode := .processGroup
  rootPid : Int := -1
  pgid : Int := -1
  cgroupPath : Text := []
  active : Bool := false

def sigkill : Int := 9
def esrch : Int := 3
def eio : Int := 5

inductive Backend where
  | processGroup
  | cgroupV2 (root : Text)

/-- `std::to_string` -/
def decimal (n : Nat) : Text := (Nat.toDigits 10 n).map fun c => UInt8.ofNat c.toNat

def appGroup (root : Text) (pid : Nat) : Text := root ++ utf8 "/app-" ++ decimal pid

/-- `cgroup_v2_backend::attach` -/
def cgroupAttach (sys : System ω) (root : Text) (pid : Nat) :
    Calls ω (Except Text ProcessTreeHandle) := do
  let handle : ProcessTreeHandle := {
    mode := .cgroup
    rootPid := pid
    pgid := pid
    active := true
    cgroupPath := appGroup root pid }
  match ← sys.create handle.cgroupPath with
  | .error reason => return .error reason
  | .ok _ =>
    match ← sys.attach handle.cgroupPath pid with
    | .error reason =>
      let _ ← sys.remove handle.cgroupPath
      return .error reason
    | .ok _ => return .ok handle

/-- The loop of `cgroup_v2_backend::signal`: the errno to report is that of the first failure that
is not `ESRCH`. -/
def signalPids (sys : System ω) (signo : Int) : List Int → Option Int → Calls ω (Option Int)
  | [], saved => return saved
  | pid :: pids, saved => do
    let failure ← sys.signal pid signo
    signalPids sys signo pids (saved.or (failure.filter (· ≠ esrch)))

/-- `none` when the tree is not active or every process was sent the signal or is gone. -/
def cgroupSignal (sys : System ω) (handle : ProcessTreeHandle) (signo : Int) :
    Calls ω (Option Int) :=
  if !handle.active then return none
  else do
    match ← sys.collect handle.cgroupPath with
    | .error _ => return some eio
    | .ok pids => signalPids sys signo pids none

def cgroupContains (sys : System ω) (handle : ProcessTreeHandle) (pid : Int) : Calls ω Bool :=
  if !handle.active || decide (pid ≤ 0) then return false
  else do
    match ← sys.collect handle.cgroupPath with
    | .error _ => return false
    | .ok pids => return pids.contains pid

def cgroupEmpty (sys : System ω) (handle : ProcessTreeHandle) : Calls ω Bool :=
  if !handle.active then return true
  else do
    match ← sys.collect handle.cgroupPath with
    | .error _ => return false
    | .ok pids => return pids.isEmpty

def removeIfEmpty (sys : System ω) (group : Text) : Calls ω Unit := do
  match ← sys.collect group with
  | .ok [] =>
    let _ ← sys.remove group
    return
  | _ => return

def cgroupCleanup (sys : System ω) (handle : ProcessTreeHandle) : Calls ω ProcessTreeHandle :=
  if handle.cgroupPath = [] then return {}
  else do
    removeIfEmpty sys handle.cgroupPath
    return {}

/-- `process_group_backend` -/
def groupSignal (sys : System ω) (handle : ProcessTreeHandle) (signo : Int) :
    Calls ω (Option Int) :=
  if !handle.active || decide (handle.pgid ≤ 0) then return none
  else sys.killProcess (-handle.pgid) signo

def groupContains (sys : System ω) (handle : ProcessTreeHandle) (pid : Int) : Calls ω Bool :=
  if !handle.active || decide (handle.pgid ≤ 0) || decide (pid ≤ 0) then return false
  else do
    match ← sys.groupOf pid with
    | none => return false
    | some pgid => return decide (0 < pgid ∧ pgid = handle.pgid)

def groupEmpty (sys : System ω) (handle : ProcessTreeHandle) : Calls ω Bool :=
  if !handle.active || decide (handle.pgid ≤ 0) then return true
  else do
    match ← sys.killProcess (-handle.pgid) 0 with
    | none => return false
    | some errno => return decide (errno = esrch)

structure Controller where
  effectiveMode : ProcessTreeMode := .processGroup
  requestedMode : ProcessTreeMode := .autoDetect
  root : Text := []
  degradationReason : Text := []
  backend : Option Backend := none

def Controller.degraded (c : Controller) : Bool :=
  decide (c.requestedMode = .autoDetect ∧ c.effectiveMode ≠ .cgroup)

def attach (sys : System ω) (c : Controller) (pid : Nat) :
    Calls ω (Except Text ProcessTreeHandle) :=
  match c.backend with
  | none => return .error (utf8 "process tree controller is not initialized")
  | some .processGroup =>
    return .ok { mode := .processGroup, rootPid := pid, pgid := pid, active := true }
  | some (.cgroupV2 root) => cgroupAttach sys root pid

def signal (sys : System ω) (c : Controller) (handle : ProcessTreeHandle) (signo : Int) :
    Calls ω (Option Int) :=
  match c.backend with
  | none => return none
  | some .processGroup => groupSignal sys handle signo
  | some (.cgroupV2 _) => cgroupSignal sys handle signo

def contains (sys : System ω) (c : Controller) (handle : ProcessTreeHandle) (pid : Int) :
    Calls ω Bool :=
  match c.backend with
  | none => return false
  | some .processGroup => groupContains sys handle pid
  | some (.cgroupV2 _) => cgroupContains sys handle pid

def empty (sys : System ω) (c : Controller) (handle : ProcessTreeHandle) : Calls ω Bool :=
  match c.backend with
  | none => return true
  | some .processGroup => groupEmpty sys handle
  | some (.cgroupV2 _) => cgroupEmpty sys handle

def cleanup (sys : System ω) (c : Controller) (handle : ProcessTreeHandle) :
    Calls ω ProcessTreeHandle :=
  match c.backend with
  | some (.cgroupV2 _) => cgroupCleanup sys handle
  | _ => return {}

def isNameByte (c : UInt8) : Bool :=
  (97 ≤ c && c ≤ 122) || (65 ≤ c && c ≤ 90) || (48 ≤ c && c ≤ 57) || c == 95 || c == 45 || c == 46

def sanitize (value : Text) : Text :=
  let result := value.map fun c => if isNameByte c then c else 95
  (if result = [] then utf8 "app" else result).take 48

def baseName (path : Text) : Text := (path.reverse.takeWhile (· ≠ slash)).reverse

def isAppGroup (group : Text) : Bool := (utf8 "app-").isPrefixOf (baseName group)

structure Initialized where
  ok : Bool
  reason : Text
  controller : Controller

/-- There is no cgroup to be had: `cgroup` fails, `auto` makes do with process groups. -/
def fallBack (requested : ProcessTreeMode) (root reason : Text) : Initialized :=
  if requested = .cgroup then
    { ok := false
      reason := reason
      controller := { effectiveMode := .cgroup, requestedMode := .cgroup, root := root } }
  else
    { ok := true
      reason := reason
      controller := {
        effectiveMode := .processGroup
        requestedMode := requested
        degradationReason := reason
        backend := some .processGroup } }

def probeAttach (sys : System ω) (probe : Text) : Calls ω (Except Text Unit) := do
  match ← sys.forkProbe with
  | none => return .error []
  | some pid =>
    let reply ← sys.attach probe pid
    let _ ← sys.killProcess pid sigkill
    sys.wait pid
    return reply

def probeReply (sys : System ω) (probe : Text) : Calls ω (Except Text Unit) := do
  match ← sys.create probe with
  | .error reason => return .error reason
  | .ok _ => probeAttach sys probe

def probeGroup (sys : System ω) (probe : Text) : Calls ω (Except Text Unit) := do
  let reply ← probeReply sys probe
  let _ ← sys.remove probe
  return reply

def killGroup (sys : System ω) (stale : Text) : Calls ω Unit := do
  match ← sys.collect stale with
  | .error _ => return
  | .ok pids =>
    let _ ← signalPids sys sigkill pids none
    removeIfEmpty sys stale

def killStale (sys : System ω) : List Text → Calls ω Unit
  | [] => return
  | stale :: groups =>
    if isAppGroup stale then do
      killGroup sys stale
      killStale sys groups
    else killStale sys groups

def clearRoot (sys : System ω) (root : Text) : Calls ω Unit := do
  match ← sys.list root with
  | .error _ => return
  | .ok groups => killStale sys groups

def failedReason (sys : System ω) (reason : Text) : Calls ω Text :=
  if reason = [] then sys.errorText else return reason

def probePath (root : Text) : Text := root ++ utf8 "/.probe"

def initializeIn (sys : System ω) (requested : ProcessTreeMode) (root : Text) :
    Calls ω Initialized := do
  match ← sys.create root with
  | .error reason => return fallBack requested root reason
  | .ok _ =>
    match ← probeGroup sys (probePath root) with
    | .error reason =>
      let text ← failedReason sys reason
      let _ ← sys.remove root
      return fallBack requested [] (utf8 "cgroup attach probe failed: " ++ text)
    | .ok _ =>
      clearRoot sys root
      return {
        ok := true
        reason := []
        controller := {
          effectiveMode := .cgroup
          requestedMode := requested
          root := root
          backend := some (.cgroupV2 root) } }

def baseRoot (configuredRoot : Text) : Text :=
  if configuredRoot = [] then utf8 "/sys/fs/cgroup" else configuredRoot

def instanceRoot (configuredRoot instanceKey : Text) : Text :=
  baseRoot configuredRoot ++ utf8 "/pm_tiny-" ++ sanitize instanceKey

/-- `process_tree_controller::initialize` -/
def initializeTree (sys : System ω) (requested : ProcessTreeMode)
    (configuredRoot instanceKey : Text) : Calls ω Initialized :=
  if requested = .processGroup then
    return {
      ok := true
      reason := []
      controller := {
        effectiveMode := requested
        requestedMode := requested
        backend := some .processGroup } }
  else do
    if ← sys.available (baseRoot configuredRoot) then
      initializeIn sys requested (instanceRoot configuredRoot instanceKey)
    else return fallBack requested [] (utf8 "cgroup v2 cgroup.procs is unavailable")

/-- What the daemon does with the trees of the processes that it starts; a handle is named by when
it was attached. -/
inductive TreeOp where
  | attach (pid : Nat)
  | signal (index : Nat) (signo : Int)
  | contains (index : Nat) (pid : Int)
  | empty (index : Nat)
  | cleanup (index : Nat)

def perform (sys : System ω) (c : Controller) (handles : List ProcessTreeHandle) :
    TreeOp → Calls ω (List ProcessTreeHandle)
  | .attach pid => do
    match ← attach sys c pid with
    | .error _ => return handles
    | .ok handle => return handles ++ [handle]
  | .signal index signo => do
    let _ ← signal sys c (handles.getD index {}) signo
    return handles
  | .contains index pid => do
    let _ ← contains sys c (handles.getD index {}) pid
    return handles
  | .empty index => do
    let _ ← empty sys c (handles.getD index {})
    return handles
  | .cleanup index => do
    let handle ← cleanup sys c (handles.getD index {})
    return handles.set index handle

def performAll (sys : System ω) (c : Controller) :
    List TreeOp → List ProcessTreeHandle → Calls ω (List ProcessTreeHandle)
  | [], handles => return handles
  | op :: ops, handles => do
    let handles ← perform sys c handles op
    performAll sys c ops handles

/-- `init_process_tree` with what follows; the daemon gives up when it fails. -/
def daemon (sys : System ω) (requested : ProcessTreeMode) (configuredRoot instanceKey : Text)
    (ops : List TreeOp) : Calls ω (List ProcessTreeHandle) := do
  let initialized ← initializeTree sys requested configuredRoot instanceKey
  if initialized.ok then performAll sys initialized.controller ops [] else return []

end PmTiny.ProcessTree
