import PmTiny.Lib.Descriptors
import PmTiny.Lib.Keyed
import Mathlib.Data.Fin.VecNotation
import Mathlib.Data.Fintype.Basic

namespace PmTiny.Pipes
open Descriptors
set_option autoImplicit true

/-- What a descriptor of the daemon refers to: the output of one spawned child, or anything else. -/
inductive File where
  | stream (id : Nat)
  | other
  deriving DecidableEq, Repr

/-- The part of `prog_info_t` that the pipe watch reads. `id` stands for the lifetime token. -/
structure ProgPipes where
  id : Nat
  live : Bool := false
  generation : Nat := 0
  rpipefd : Fin 2 → Option Nat := fun _ => none
  deriving DecidableEq

/-- An entry of `pipes_`: the stream descriptor kept for a pipe number. -/
structure PipeEntry where
  fd : Nat
  descriptor : Nat
  deriving DecidableEq, Repr

structure Handle where
  descriptor : Nat
  native : Nat
  deriving DecidableEq, Repr

structure PipeWait where
  program : Nat
  index : Fin 2
  fd : Nat
  generation : Nat
  descriptor : Nat
  deriving DecidableEq, Repr

structure PipeLoop where
  table : Table File := []
  progs : List ProgPipes := []
  pipes : List PipeEntry := []
  handles : List Handle := []
  waits : List PipeWait := []
  nextProg : Nat := 0
  nextStream : Nat := 0
  nextDescriptor : Nat := 0
  deriving DecidableEq

/-- The descriptors of one fork and exec. -/
structure ChildLaunchContext where
  stdoutPipe : Option (Nat × Nat)
  stderrPipe : Option (Nat × Nat)
  gate : Nat × Nat
  execStatus : Nat × Nat
  ptyMaster : Option Nat
  deriving DecidableEq, Repr

/-- `pipe`: the read end gets the lowest free number, the write end the next one. -/
def pipe (f : File) (t : Table File) : (Nat × Nat) × Table File :=
  ((t.free, (t.add f).free), (t.add f).add .other)

namespace ChildLaunchContext

/-- The calls of `prepare` when each succeeds; `stream` numbers the outputs it creates. -/
def prepare (usePty : Bool) (stream : Nat) (t : Table File) : ChildLaunchContext × Table File :=
  if usePty then
    let t₁ := t.add (.stream stream)
    let gate := pipe .other t₁
    let execStatus := pipe .other gate.2
    ({ stdoutPipe := none, stderrPipe := none, gate := gate.1, execStatus := execStatus.1,
       ptyMaster := some t.free }, execStatus.2)
  else
    let stdoutPipe := pipe (.stream stream) t
    let stderrPipe := pipe (.stream (stream + 1)) stdoutPipe.2
    let gate := pipe .other stderrPipe.2
    let execStatus := pipe .other gate.2
    ({ stdoutPipe := some stdoutPipe.1, stderrPipe := some stderrPipe.1, gate := gate.1,
       execStatus := execStatus.1, ptyMaster := none }, execStatus.2)

def parentEnds (launch : ChildLaunchContext) : List Nat :=
  [launch.gate.1, launch.execStatus.2] ++ (launch.stdoutPipe.map Prod.snd).toList ++
    (launch.stderrPipe.map Prod.snd).toList

def handshakeEnds (launch : ChildLaunchContext) : List Nat :=
  [launch.gate.2, launch.execStatus.1]

/-- The numbers handed to the program; a pty leaves the second one as it is. -/
def releaseParentStreams (launch : ChildLaunchContext) (rpipefd : Fin 2 → Option Nat) :
    Fin 2 → Option Nat :=
  match launch.ptyMaster with
  | some master => Function.update rpipefd 0 (some master)
  | none => ![launch.stdoutPipe.map Prod.fst, launch.stderrPipe.map Prod.fst]

def streamEnds (launch : ChildLaunchContext) : List Nat :=
  (launch.stderrPipe.map Prod.fst).toList ++ (launch.stdoutPipe.map Prod.fst).toList ++
    launch.ptyMaster.toList

end ChildLaunchContext

/-- How `real_spawn_prog` ends: before the fork, after it, or with a running child. -/
inductive Launch where
  | refused | failed | started
  deriving DecidableEq, Repr

namespace PipeLoop

def findProg (s : PipeLoop) (id : Nat) : Option ProgPipes := Keyed.find ProgPipes.id id s.progs

def updateProg (s : PipeLoop) (id : Nat) (f : ProgPipes → ProgPipes) : PipeLoop :=
  { s with progs := Keyed.update ProgPipes.id id f s.progs }

/-- Spawn a program that has no process. A launch that fails closes every descriptor it opened; one
refused before the fork leaves nothing behind. -/
def realSpawnProg (s : PipeLoop) (id : Nat) (usePty : Bool) : Launch → PipeLoop
  | .refused => s
  | .failed =>
    let launch := ChildLaunchContext.prepare usePty s.nextStream s.table
    { s.updateProg id fun p => { p with generation := p.generation + 1 } with
      table := launch.2.closeAll
        (launch.1.parentEnds ++ launch.1.handshakeEnds ++ launch.1.streamEnds)
      nextStream := s.nextStream + 2 }
  | .started =>
    let launch := ChildLaunchContext.prepare usePty s.nextStream s.table
    { s.updateProg id fun p =>
        { p with live := true, generation := p.generation + 1,
                 rpipefd := launch.1.releaseParentStreams p.rpipefd } with
      table := launch.2.closeAll (launch.1.parentEnds ++ launch.1.handshakeEnds)
      nextStream := s.nextStream + 2 }

/-- Close one of a program's pipes, as `read_pipe` does when nothing is left to read. -/
def closePipe (s : PipeLoop) (id : Nat) (i : Fin 2) : PipeLoop :=
  match (s.findProg id).bind (·.rpipefd i) with
  | none => s
  | some fd =>
    { s.updateProg id fun p => { p with rpipefd := Function.update p.rpipefd i none } with
      table := s.table.close fd }

/-- `read_pipe`; `empty` says that `FIONREAD` counts no byte. With `killed` it reads until then. -/
def readPipe (s : PipeLoop) (id : Nat) (i : Fin 2) (killed empty : Bool) : PipeLoop :=
  if killed || empty then s.closePipe id i else s

def closeFds (s : PipeLoop) (id : Nat) : PipeLoop :=
  ((s.readPipe id 0 true true).readPipe id 1 true true).updateProg id fun p =>
    { p with live := false }

def armPipe (s : PipeLoop) (p : ProgPipes) (i : Fin 2) (fd descriptor : Nat) : PipeLoop :=
  { s with waits := ⟨p.id, i, fd, p.generation, descriptor⟩ :: s.waits }

def closeDescriptor (s : PipeLoop) (descriptor : Nat) : PipeLoop :=
  match Keyed.find Handle.descriptor descriptor s.handles with
  | none => s
  | some h =>
    { s with
      table := s.table.close h.native
      handles := Keyed.remove Handle.descriptor descriptor s.handles }

/-- One turn of the first loop of `refresh_pipes`; `dupFails` are the numbers `dup` fails on. -/
def watchPipe (dupFails : Nat → Bool) (s : PipeLoop) (p : ProgPipes) (i : Fin 2) : PipeLoop :=
  match p.rpipefd i with
  | none => s
  | some fd =>
    match Keyed.find PipeEntry.fd fd s.pipes, s.table.file fd, dupFails fd with
    | none, some f, false =>
      armPipe { s with
        table := s.table.add f
        handles := s.handles ++ [⟨s.nextDescriptor, s.table.free⟩]
        pipes := s.pipes ++ [⟨fd, s.nextDescriptor⟩]
        nextDescriptor := s.nextDescriptor + 1 } p i fd s.nextDescriptor
    | _, _, _ => s

def watchProg (dupFails : Nat → Bool) (s : PipeLoop) (p : ProgPipes) : PipeLoop :=
  watchPipe dupFails (watchPipe dupFails s p 0) p 1

def isActive (s : PipeLoop) (fd : Nat) : Bool :=
  s.progs.any fun p => p.rpipefd 0 = some fd || p.rpipefd 1 = some fd

/-- One turn of the second loop of `refresh_pipes`. -/
def dropPipe (s : PipeLoop) (e : PipeEntry) : PipeLoop :=
  if s.isActive e.fd then s
  else
    { s with pipes := Keyed.remove PipeEntry.fd e.fd s.pipes }.closeDescriptor e.descriptor

def refreshPipes (dupFails : Nat → Bool) (s : PipeLoop) : PipeLoop :=
  let s₁ := s.progs.foldl (watchProg dupFails) s
  s₁.pipes.foldl dropPipe s₁

/-- The callback of `arm_pipe`. A wait whose descriptor was closed is either `aborted` or was
already queued and runs as if nothing had happened. -/
def pipeReady (s : PipeLoop) (w : PipeWait) (aborted empty : Bool) : PipeLoop :=
  let s₁ := { s with waits := s.waits.erase w }
  if aborted then s₁
  else
    match s₁.findProg w.program with
    | none => dropOwn s₁ w
    | some p =>
      if p.generation ≠ w.generation then dropOwn s₁ w
      else
        let s₂ :=
          if (p.rpipefd w.index).isSome then s₁.readPipe w.program w.index false empty else s₁
        rearm s₂ w
where
  dropOwn (s : PipeLoop) (w : PipeWait) : PipeLoop :=
    { s with
      pipes := if (⟨w.fd, w.descriptor⟩ : PipeEntry) ∈ s.pipes then
        Keyed.remove PipeEntry.fd w.fd s.pipes
        else s.pipes }.closeDescriptor w.descriptor
  rearm (s : PipeLoop) (w : PipeWait) : PipeLoop :=
    match s.findProg w.program with
    | none => s
    | some p =>
      if p.rpipefd w.index = some w.fd then s.armPipe p w.index w.fd w.descriptor else s

def hasHandle (s : PipeLoop) (descriptor : Nat) : Bool :=
  (Keyed.find Handle.descriptor descriptor s.handles).isSome

/-- What happens to the pipes of the daemon, in any order. -/
inductive Event where
  | create
  | remove (id : Nat)
  | spawn (id : Nat) (usePty : Bool) (launch : Launch)
  | closeFds (id : Nat)
  | pipeReady (w : PipeWait) (aborted empty : Bool)
  | refreshPipes (dupFails : Nat → Bool)
  | openOther
  | closeOther (fd : Nat)

/-- A descriptor number that belongs to no program and to no stream descriptor. -/
def foreign (s : PipeLoop) (fd : Nat) : Bool :=
  !s.isActive fd && s.handles.all fun h => h.native ≠ fd

def step (s : PipeLoop) : Event → Option PipeLoop
  | .create =>
    some { s with progs := s.progs ++
      [⟨s.nextProg, false, 0, fun _ => none⟩], nextProg := s.nextProg + 1 }
  | .remove id => some { s with progs := Keyed.remove ProgPipes.id id s.progs }
  | .spawn id usePty launch =>
    match s.findProg id with
    | none => none
    | some p => if p.live then none else some (s.realSpawnProg id usePty launch)
  | .closeFds id => some (s.closeFds id)
  | .pipeReady w aborted empty =>
    if w ∈ s.waits ∧ (aborted = true → s.hasHandle w.descriptor = false) then
      some (s.pipeReady w aborted empty)
    else none
  | .refreshPipes dupFails => some (s.refreshPipes dupFails)
  | .openOther => some { s with table := s.table.add .other }
  | .closeOther fd => if s.foreign fd then some { s with table := s.table.close fd } else none

def run (s : PipeLoop) : List Event → Option PipeLoop
  | [] => some s
  | e :: es => (s.step e).bind fun s' => s'.run es

/-- The states of the runs from any table of foreign descriptors. -/
inductive Reachable : PipeLoop → Prop where
  | init (table : Table File) : Reachable { table := table }
  | step {s s' : PipeLoop} : Reachable s → s.step e = some s' → Reachable s'

/-- A pending read wait on a duplicate of the pipe `fd`, for that program, index and generation. -/
def Watched (s : PipeLoop) (program generation : Nat) (i : Fin 2) (fd : Nat) : Prop :=
  ∃ e ∈ Keyed.find PipeEntry.fd fd s.pipes,
    ∃ h ∈ Keyed.find Handle.descriptor e.descriptor s.handles,
      ∃ f ∈ s.table.file fd, s.table.file h.native = some f ∧
        ⟨program, i, fd, generation, e.descriptor⟩ ∈ s.waits

/-- Every output pipe of every registered program is being watched. -/
def AllWatched (s : PipeLoop) : Prop :=
  ∀ p ∈ s.progs, ∀ i, ∀ fd ∈ p.rpipefd i, s.Watched p.id p.generation i fd

end PipeLoop

end PmTiny.Pipes
