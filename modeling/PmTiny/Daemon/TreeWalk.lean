import PmTiny.Lib.Runs
import PmTiny.Daemon.CgroupFs
import PmTiny.Daemon.Prog

namespace PmTiny
set_option autoImplicit true

/-- A group by the names on the way up to the group of the handle, its own first. -/
abbrev GroupPath := List String

/-- A call of `collect_recursive` in its loop over the directory. -/
structure WalkFrame where
  group : GroupPath
  /-- The groups below that have been there since `opendir`. -/
  due : List String := []
  /-- What `readdir` has returned. -/
  listed : List String := []

/-- What `collect_recursive` does next. -/
inductive WalkPhase where
  | idle
  | openProcs (group : GroupPath)
  | readProcs (group : GroupPath)
  | openDir (group : GroupPath)
  | readDir
  | stat (group : GroupPath)
  | done (ok : Bool)

/-- A process tree with the calls of `empty` on it, each of which sees the tree as it is then. -/
structure TreeWalk where
  groups : List GroupPath := [[]]
  procs : List (Nat × GroupPath) := []
  phase : WalkPhase := .idle
  stack : List WalkFrame := []
  pids : List Nat := []

inductive TreeEvent where
  | fork (parent child : Nat)
  /-- The process ends, or it is moved out of the tree. -/
  | exit (pid : Nat)
  | mkdir (group : GroupPath)
  | rmdir (group : GroupPath)
  /-- The process is moved into the group, from outside or from another group of the tree. -/
  | move (pid : Nat) (group : GroupPath)
  | empty
  | openProcs (ok : Bool)
  /-- `count` pids are read. -/
  | readProcs (count : Nat)
  | openDir (ok : Bool)
  | readDir (entry : Option String)
  /-- `stat` succeeds or says `ENOENT`, or it fails. -/
  | stat (ok : Bool)

/-- A call of the walk that fails. -/
def TreeEvent.fails : TreeEvent → Bool
  | .openProcs false | .openDir false | .stat false => true
  | _ => false

/-- A group that is removed is no longer one that has been there since `opendir`. -/
def WalkFrame.forget (group : GroupPath) (frame : WalkFrame) : WalkFrame :=
  { frame with due := frame.due.filter fun name => name :: frame.group ≠ group }

/-- A group at or below one that the listing has yet to return. -/
def WalkFrame.ahead (frame : WalkFrame) (group : GroupPath) : Bool :=
  frame.due.any fun name => decide (name ∉ frame.listed ∧ name :: frame.group <:+ group)

def WalkPhase.ahead (phase : WalkPhase) (group : GroupPath) : Bool :=
  match phase with
  | .openProcs top | .readProcs top | .stat top => decide (top <:+ group)
  | .openDir top => decide (top <:+ group ∧ top ≠ group)
  | .idle | .readDir | .done _ => false

/-- No walk is under way. -/
def WalkPhase.rests : WalkPhase → Bool
  | .idle | .done _ => true
  | _ => false

/-- The steps of the walk. -/
def TreeEvent.own : TreeEvent → Bool
  | .empty | .openProcs _ | .readProcs _ | .openDir _ | .readDir _ | .stat _ => true
  | .fork _ _ | .exit _ | .mkdir _ | .rmdir _ | .move _ _ => false

namespace TreeWalk

def members (s : TreeWalk) (group : GroupPath) : List Nat :=
  (s.procs.filter fun proc => proc.2 = group).map (·.1)

def groupOf (s : TreeWalk) (pid : Nat) : Option GroupPath :=
  (s.procs.find? fun proc => proc.1 = pid).map (·.2)

def childName (group : GroupPath) : GroupPath → Option String
  | [] => none
  | name :: parent => if parent = group then some name else none

def children (s : TreeWalk) (group : GroupPath) : List String :=
  s.groups.filterMap (childName group)

/-- The calls return `false`, one after the other. -/
def fail (s : TreeWalk) : TreeWalk := { s with phase := .done false, stack := [] }

/-- A call of the walk on a group; it fails where the group is gone, and may fail elsewhere. -/
def call (s s' : TreeWalk) (group : GroupPath) (ok : Bool) : Option TreeWalk :=
  if ok then if group ∈ s.groups then some s' else none else some s.fail

def readEntry (s : TreeWalk) (frame : WalkFrame) (rest : List WalkFrame) :
    Option String → Option TreeWalk
  | none => some { s with stack := rest, phase := if rest.isEmpty then .done true else .readDir }
  | some name =>
    -- an entry may have gone since the kernel listed it
    if name ∈ frame.listed then none
    else some { s with
      stack := { frame with listed := name :: frame.listed } :: rest
      phase := if startsWithDot name then .readDir else .stat (name :: frame.group) }

def walkStep (s : TreeWalk) : TreeEvent → Option TreeWalk
  | .empty =>
    match s.phase with
    | .idle | .done _ => some { s with phase := .openProcs [], stack := [], pids := [] }
    | _ => none
  | .openProcs ok =>
    match s.phase with
    | .openProcs group => s.call { s with phase := .readProcs group } group ok
    | _ => none
  | .readProcs count =>
    match s.phase with
    | .readProcs group => some { s with
        phase := .openDir group
        pids := s.pids ++ (s.members group).take count }
    | _ => none
  | .openDir ok =>
    match s.phase with
    | .openDir group =>
      let frame : WalkFrame := { group := group, due := s.children group }
      s.call { s with phase := .readDir, stack := frame :: s.stack } group ok
    | _ => none
  | .readDir entry =>
    match s.phase, s.stack with
    | .readDir, frame :: rest => s.readEntry frame rest entry
    | _, _ => none
  | .stat ok =>
    match s.phase with
    | .stat group =>
      if ok then some { s with phase := if group ∈ s.groups then .openProcs group else .readDir }
      else some s.fail
    | _ => none
  | _ => none

def treeStep (s : TreeWalk) : TreeEvent → Option TreeWalk
  | .fork parent child =>
    match s.groupOf parent with
    | some group =>
      if child ∈ s.procs.map (·.1) then none
      else some { s with procs := (child, group) :: s.procs }
    | none => none
  | .exit pid => some { s with procs := s.procs.filter fun proc => proc.1 ≠ pid }
  | .mkdir (name :: parent) =>
    if parent ∈ s.groups ∧ name :: parent ∉ s.groups then
      some { s with groups := (name :: parent) :: s.groups }
    else none
  | .rmdir group =>
    if group ∈ s.groups ∧ s.members group = [] ∧ s.children group = [] then
      some { s with
        groups := s.groups.filter fun other => other ≠ group
        stack := s.stack.map (WalkFrame.forget group) }
    else none
  | .move pid group =>
    if group ∈ s.groups then
      some { s with procs := (pid, group) :: s.procs.filter fun proc => proc.1 ≠ pid }
    else none
  | _ => none

def step (s : TreeWalk) (e : TreeEvent) : Option TreeWalk :=
  if e.own then s.walkStep e else s.treeStep e

/-- The answer of `empty`, once the walk is over. -/
def answer (s : TreeWalk) : Option Bool :=
  match s.phase with
  | .done ok => some (ok && s.pids.isEmpty)
  | _ => none

/-- The tree as the daemon's handle stands for it. -/
def tree (s : TreeWalk) : ProcessTreeHandle := { active := true, members := s.procs.map (·.1) }

/-- The walk has yet to read the group. -/
def ahead (s : TreeWalk) (group : GroupPath) : Bool :=
  s.phase.ahead group || s.stack.any fun frame => frame.ahead group

/-- Nothing happens of what the walk does not allow for: no read and no listing ends early, no group
has a dot in front, nobody joins from outside, and nobody moves to a group that the walk is through
with. -/
def calm (s : TreeWalk) : TreeEvent → Bool
  | .move pid group =>
    s.procs.any (fun proc => proc.1 = pid) && (s.phase.rests || s.ahead group)
  | .mkdir (name :: _) => !startsWithDot name
  | .readProcs count =>
    match s.phase with
    | .readProcs group => decide ((s.members group).length ≤ count)
    | _ => true
  | .readDir none =>
    match s.stack with
    | frame :: _ => frame.due.all fun name => decide (name ∈ frame.listed)
    | [] => true
  | _ => true

def calmStep (s : TreeWalk) (e : TreeEvent) : Option TreeWalk := if s.calm e then s.step e else none

/-- Every group is in another, up to that of the handle, none has a dot in front, and the processes
are in groups that are there. -/
structure Quiet (s : TreeWalk) : Prop where
  closed : ∀ name parent, name :: parent ∈ s.groups → parent ∈ s.groups
  plain : ∀ name parent, name :: parent ∈ s.groups → startsWithDot name = false
  housed : ∀ proc ∈ s.procs, proc.2 ∈ s.groups

/-- A tree that has not been looked at. -/
structure Fresh (s : TreeWalk) : Prop extends s.Quiet where
  idle : s.phase = .idle
  unlisted : s.stack = []

end TreeWalk
end PmTiny
