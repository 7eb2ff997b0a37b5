import PmTiny.Core.RuntimeProgress
import PmTiny.Windows.LoopSteps

namespace PmTiny.Windows
set_option autoImplicit true

open Daemon

variable {s : Daemon} {ω : System} {ok : ProgramConfig → Bool} {n name : String}
  {rest failures : List String}

/-- What a series of launches depends on: the graph with its runtime, the definitions with whether
their process runs, the worklist, and the programs launched so far, the last one first. -/
structure Launching where
  graph : DependencyGraph
  dependencies : DependencyRuntime
  records : List (ProgramConfig × Bool)
  queue : List String
  launched : List String

namespace Launching

def recordName (record : ProgramConfig × Bool) : String := record.1.name

def find (a : Launching) (name : String) : Option (ProgramConfig × Bool) :=
  Keyed.find recordName name a.records

def setRunning (a : Launching) (name : String) (running : Bool) : Launching :=
  { a with records := Keyed.update recordName name (fun record => (record.1, running)) a.records }

def setDependencies (a : Launching) (rt : DependencyRuntime) : Launching :=
  { a with dependencies := rt }

def setLaunched (a : Launching) (names : List String) : Launching := { a with launched := names }

def startOperation (a : Launching) (operation : StartOperation) : Launching :=
  { a with
    dependencies := (operation.apply a.graph a.dependencies).1
    queue := a.queue ++ (operation.apply a.graph a.dependencies).2 }

def setQueue (a : Launching) (names : List String) : Launching := { a with queue := names }

/-- An attempt to launch a program; one that counts as ready at once unlocks what depends on it. -/
def launch (ok : ProgramConfig → Bool) (a : Launching) (name : String) (cfg : ProgramConfig) :
    Launching :=
  let b := (a.setLaunched (name :: a.launched)).setRunning name (ok cfg)
  if ok cfg then
    let c := b.setDependencies (b.dependencies.markStarting b.graph name)
    if cfg.startTimeout = 0 then c.startOperation (.markReady name) else c
  else b.setDependencies (b.dependencies.markFailed b.graph name).1

/-- One round: the next name of the worklist, and those after it. -/
def next (ok : ProgramConfig → Bool) (a : Launching) (name : String) (rest : List String) :
    Launching :=
  match a.find name with
  | none => a.setQueue rest
  | some (cfg, running) =>
    if running then a.setQueue rest else (a.setQueue rest).launch ok name cfg

def run (ok : ProgramConfig → Bool) (a : Launching) : Nat → Launching
  | 0 => a
  | fuel + 1 =>
    match a.queue with
    | [] => a
    | name :: rest => run ok (a.next ok name rest) fuel

def rounds (a : Launching) : Nat := a.queue.length + a.records.length * a.graph.size

def schedule (ok : ProgramConfig → Bool) (a : Launching) : Launching :=
  (a.run ok a.rounds).setQueue []

@[simp] theorem setRunning_setRunning (a : Launching) (name : String) (b c : Bool) :
    (a.setRunning name b).setRunning name c = a.setRunning name c := by
  have hname : ∀ record : ProgramConfig × Bool, recordName (record.1, b) = recordName record :=
    fun _ => rfl
  simp only [setRunning, Keyed.update_update, hname]
  congr 1
  apply Keyed.update_congr
  intro record hrecord
  rw [if_pos hrecord]

def state (a : Launching) (name : String) : DependencyRuntimeState :=
  a.dependencies.state a.graph name

theorem find_setRunning (a : Launching) (name m : String) (running : Bool) :
    (a.setRunning name running).find m =
      if m = name then (a.find name).map fun record => (record.1, running) else a.find m :=
  Keyed.find_update fun _ => rfl

/-- The launches come after those of `base`. -/
def onto (a : Launching) (base : List String) : Launching := a.setLaunched (a.launched ++ base)

theorem next_onto (a : Launching) (base : List String) (name : String) (rest : List String) :
    (a.onto base).next ok name rest = (a.next ok name rest).onto base := by
  have hfind : (a.onto base).find name = a.find name := rfl
  rw [next, next, hfind]
  cases a.find name with
  | none => rfl
  | some record =>
    obtain ⟨cfg, running⟩ := record
    simp only
    split
    · rfl
    · simp only [launch]
      split
      · split
        · rfl
        · rfl
      · rfl

theorem run_onto (fuel : Nat) (a : Launching) (base : List String) :
    (a.onto base).run ok fuel = (a.run ok fuel).onto base := by
  induction fuel generalizing a with
  | zero => rfl
  | succ fuel ih =>
    have hqueue : (a.onto base).queue = a.queue := rfl
    rw [run, run, hqueue]
    cases a.queue with
    | nil => rfl
    | cons name rest =>
      simp only
      rw [next_onto, ih]

theorem schedule_onto (a : Launching) (base : List String) :
    (a.onto base).schedule ok = (a.schedule ok).onto base := by
  have hrounds : (a.onto base).rounds = a.rounds := rfl
  rw [schedule, schedule, hrounds, run_onto]
  rfl

/-- The program is launched. -/
def started (a : Launching) (name : String) : Launching :=
  ((a.setLaunched (name :: a.launched)).setRunning name true).setDependencies
    (a.dependencies.markStarting a.graph name)

theorem next_started {a : Launching} {cfg : ProgramConfig} (h : a.find name = some (cfg, false)) :
    a.next (fun _ => true) name rest =
      if cfg.startTimeout = 0 then ((a.setQueue rest).started name).startOperation (.markReady name)
      else (a.setQueue rest).started name := by
  rw [next, h]
  rfl

theorem next_graph (a : Launching) (name : String) (rest : List String) :
    (a.next ok name rest).graph = a.graph := by
  rw [next]
  cases a.find name with
  | none => rfl
  | some record =>
    simp only [launch]
    split
    · rfl
    · split
      · split
        · rfl
        · rfl
      · rfl

theorem run_invariant {P : Launching → Prop}
    (hnext : ∀ a name rest, P a → a.queue = name :: rest → P (a.next ok name rest)) (fuel : Nat)
    {a : Launching} (h : P a) : P (a.run ok fuel) := by
  induction fuel generalizing a with
  | zero => exact h
  | succ fuel ih =>
    rw [run]
    split
    · exact h
    · rename_i hqueue
      exact ih (hnext a _ _ h hqueue)

theorem run_graph (ok : ProgramConfig → Bool) (fuel : Nat) (a : Launching) :
    (a.run ok fuel).graph = a.graph := by
  have hnext : ∀ (b : Launching) name rest, b.graph = a.graph → b.queue = name :: rest →
      (b.next ok name rest).graph = a.graph := by
    intro b name rest hgraph _
    exact (next_graph b name rest).trans hgraph
  exact run_invariant hnext fuel rfl

theorem next_find (a : Launching) (hne : n ≠ name) : (a.next ok name rest).find n = a.find n := by
  have hset : ∀ (b : Launching) (running : Bool), (b.setRunning name running).find n = b.find n :=
    fun b running => (find_setRunning b name n running).trans (if_neg hne)
  rw [next]
  cases a.find name with
  | none => rfl
  | some record =>
    simp only [launch]
    split
    · rfl
    · split
      · split
        · exact hset _ _
        · exact hset _ _
      · exact hset _ _

/-- A program is passed over: it is not launched, and its state is kept. -/
structure Passes (a : Launching) (n : String) (st : DependencyRuntimeState) : Prop where
  queue : n ∉ a.queue
  launched : n ∉ a.launched
  state : a.state n = st

theorem Passes.next {a : Launching} {st : DependencyRuntimeState} (h : a.Passes n st)
    (hst : st ≠ .pending ∧ st ≠ .blocked) (hqueue : a.queue = name :: rest) :
    (a.next (fun _ => true) name rest).Passes n st := by
  have hmem := h.queue
  rw [hqueue, List.mem_cons, not_or] at hmem
  obtain ⟨hne, hrest⟩ := hmem
  cases hfind : a.find name with
  | none =>
    rw [Launching.next, hfind]
    exact ⟨hrest, h.launched, h.state⟩
  | some record =>
    obtain ⟨cfg, running⟩ := record
    cases running with
    | true =>
      rw [Launching.next, hfind]
      exact ⟨hrest, h.launched, h.state⟩
    | false =>
      have hstarted : ((a.setQueue rest).started name).Passes n st := by
        refine ⟨hrest, ?_, (DependencyRuntime.state_markStarting hne).trans h.state⟩
        intro hlaunched
        rcases List.mem_cons.1 hlaunched with he | hold
        · exact hne he
        · exact h.launched hold
      rw [next_started hfind]
      generalize (a.setQueue rest).started name = b at *
      split
      · have hstate := hstarted.state
        rw [Launching.state] at hstate
        refine ⟨?_, hstarted.launched, ?_⟩
        · intro hunlocked
          rcases List.mem_append.1 hunlocked with hold | hnew
          · exact hstarted.queue hold
          · rcases DependencyRuntime.unlocked_markReady hne hnew with he | he
            · exact hst.1 (hstate.symm.trans he)
            · exact hst.2 (hstate.symm.trans he)
        · rw [← hstate] at hst ⊢
          exact DependencyRuntime.state_markReady hne hst
      · exact hstarted

theorem Passes.run {a : Launching} {st : DependencyRuntimeState} (h : a.Passes n st)
    (hst : st ≠ .pending ∧ st ≠ .blocked) (fuel : Nat) :
    (a.run (fun _ => true) fuel).Passes n st := by
  have hnext : ∀ (b : Launching) name rest, b.Passes n st → b.queue = name :: rest →
      (b.next (fun _ => true) name rest).Passes n st := by
    intro b name rest hb hqueue
    exact hb.next hst hqueue
  exact run_invariant hnext fuel h

theorem Passes.find {a : Launching} {st : DependencyRuntimeState} (h : a.Passes n st)
    (hst : st ≠ .pending ∧ st ≠ .blocked) (fuel : Nat) :
    (a.run (fun _ => true) fuel).find n = a.find n := by
  have hnext : ∀ (b : Launching) name rest, b.Passes n st ∧ b.find n = a.find n →
      b.queue = name :: rest → (b.next (fun _ => true) name rest).Passes n st ∧
        (b.next (fun _ => true) name rest).find n = a.find n := by
    intro b name rest hb hqueue
    have hne : n ≠ name := by
      intro he
      apply hb.1.queue
      rw [hqueue, he]
      exact List.mem_cons_self
    exact ⟨hb.1.next hst hqueue, (next_find b hne).trans hb.2⟩
  exact (run_invariant hnext fuel ⟨h, rfl⟩).2

/-- Every node of the graph has a record, and is launched unless it is on the worklist or waits. -/
structure Serves (a : Launching) : Prop where
  record : ∀ m ∈ a.graph.names, ∃ record, a.find m = some record
  running : ∀ m cfg, a.find m = some (cfg, true) → m ∈ a.launched
  queue : ∀ m ∈ a.queue, m ∈ a.graph.names
  waits : ∀ m ∈ a.graph.names, m ∈ a.queue ∨ m ∈ a.launched ∨ a.state m = .pending

theorem Serves.started {a : Launching} (h : a.Serves) (hqueue : a.queue = name :: rest) :
    ((a.setQueue rest).started name).Serves := by
  have hfind : ∀ m, ((a.setQueue rest).started name).find m =
      if m = name then (a.find name).map fun record => (record.1, true) else a.find m :=
    fun m => find_setRunning a name m true
  have hlaunched : ∀ m ∈ a.launched, m ∈ ((a.setQueue rest).started name).launched :=
    fun m hm => List.mem_cons_of_mem name hm
  have hself : name ∈ ((a.setQueue rest).started name).launched := List.mem_cons_self
  constructor
  · intro m hm
    obtain ⟨record, hrecord⟩ := h.record m hm
    rw [hfind]
    split
    · rename_i he
      rw [← he, hrecord]
      exact ⟨_, rfl⟩
    · exact ⟨record, hrecord⟩
  · intro m cfg hm
    rw [hfind] at hm
    split at hm
    · rename_i he
      rw [he]
      exact hself
    · exact hlaunched m (h.running m cfg hm)
  · intro m hm
    apply h.queue m
    rw [hqueue]
    exact List.mem_cons_of_mem name hm
  · intro m hm
    by_cases he : m = name
    · rw [he]
      exact .inr (.inl hself)
    · rcases h.waits m hm with hold | hold | hold
      · rw [hqueue, List.mem_cons] at hold
        exact .inl (hold.resolve_left he)
      · exact .inr (.inl (hlaunched m hold))
      · exact .inr (.inr ((DependencyRuntime.state_markStarting he).trans hold))

theorem Serves.unlock {a : Launching} (h : a.Serves) (hname : name ∈ a.launched) :
    (a.startOperation (.markReady name)).Serves := by
  refine ⟨h.record, h.running, fun m hm => ?_, fun m hm => ?_⟩
  · rcases List.mem_append.1 hm with hold | hnew
    · exact h.queue m hold
    · exact DependencyRuntime.names_of_markReady hnew
  · rcases h.waits m hm with hold | hold | hold
    · exact .inl (List.mem_append_left _ hold)
    · exact .inr (.inl hold)
    · by_cases he : m = name
      · rw [he]
        exact .inr (.inl hname)
      · rcases DependencyRuntime.pending_markReady he hold with hnew | hstill
        · exact .inl (List.mem_append_right _ hnew)
        · exact .inr (.inr hstill)

theorem Serves.next {a : Launching} (h : a.Serves) (hqueue : a.queue = name :: rest) :
    (a.next (fun _ => true) name rest).Serves := by
  have hname : name ∈ a.queue := by
    rw [hqueue]
    exact List.mem_cons_self
  obtain ⟨⟨cfg, running⟩, hfind⟩ := h.record name (h.queue name hname)
  cases running with
  | true =>
    rw [Launching.next, hfind]
    refine ⟨h.record, h.running, fun m hm => h.queue m ?_, fun m hm => ?_⟩
    · rw [hqueue]
      exact List.mem_cons_of_mem name hm
    · rcases h.waits m hm with hold | hold
      · rw [hqueue, List.mem_cons] at hold
        rcases hold with rfl | hold
        · exact .inr (.inl (h.running m cfg hfind))
        · exact .inl hold
      · exact .inr hold
  | false =>
    rw [next_started hfind]
    split
    · exact (h.started hqueue).unlock List.mem_cons_self
    · exact h.started hqueue

theorem Serves.run {a : Launching} (h : a.Serves) (fuel : Nat) :
    (a.run (fun _ => true) fuel).Serves := by
  have hnext : ∀ (b : Launching) name rest, b.Serves → b.queue = name :: rest →
      (b.next (fun _ => true) name rest).Serves := by
    intro b name rest hb hqueue
    exact hb.next hqueue
  exact run_invariant hnext fuel h

/-- A program is on the worklist, or runs, or is held back by a dependency. -/
structure Awaits (a : Launching) (n : String) : Prop where
  consistent : a.dependencies.Consistent
  record : ∃ record, a.find n = some record
  waits : n ∈ a.queue ∨ (∃ cfg, a.find n = some (cfg, true)) ∨ a.dependencies.Held a.graph n

theorem Awaits.started {a : Launching} (h : a.Awaits n) (hqueue : a.queue = name :: rest) :
    ((a.setQueue rest).started name).Awaits n := by
  have hfind : ((a.setQueue rest).started name).find n =
      if n = name then (a.find name).map fun record => (record.1, true) else a.find n :=
    find_setRunning a name n true
  obtain ⟨record, hrecord⟩ := h.record
  have hconsistent := h.consistent.markStarting a.graph name
  by_cases hn : n = name
  · have hlive : ((a.setQueue rest).started name).find n = some (record.1, true) := by
      rw [hfind, if_pos hn, ← hn, hrecord]
      rfl
    exact ⟨hconsistent, ⟨_, hlive⟩, .inr (.inl ⟨_, hlive⟩)⟩
  · rw [if_neg hn] at hfind
    refine ⟨hconsistent, ⟨record, hfind.trans hrecord⟩, ?_⟩
    rcases h.waits with hold | ⟨cfg, hlive⟩ | hheld
    · rw [hqueue, List.mem_cons] at hold
      exact .inl (hold.resolve_left hn)
    · exact .inr (.inl ⟨cfg, hfind.trans hlive⟩)
    · exact .inr (.inr (DependencyRuntime.held_markStarting hn hheld))

theorem Awaits.unlock {a : Launching} (h : a.Awaits n)
    (hname : ∃ cfg, a.find name = some (cfg, true)) :
    (a.startOperation (.markReady name)).Awaits n := by
  refine ⟨h.consistent.markReady a.graph name, h.record, ?_⟩
  by_cases hn : n = name
  · rw [hn]
    exact .inr (.inl hname)
  · rcases h.waits with hold | hlive | hheld
    · exact .inl (List.mem_append_left _ hold)
    · exact .inr (.inl hlive)
    · rcases DependencyRuntime.held_markReady h.consistent hn hheld with hnew | hstill
      · exact .inl (List.mem_append_right _ hnew)
      · exact .inr (.inr hstill)

theorem Awaits.next {a : Launching} (h : a.Awaits n) (hqueue : a.queue = name :: rest) :
    (a.next (fun _ => true) name rest).Awaits n := by
  have hpop : n ≠ name ∨ (∃ cfg, a.find n = some (cfg, true)) → (a.setQueue rest).Awaits n := by
    intro hname
    refine ⟨h.consistent, h.record, ?_⟩
    rcases h.waits with hold | hwaits
    · rw [hqueue, List.mem_cons] at hold
      rcases hname with hne | hlive
      · exact .inl (hold.resolve_left hne)
      · exact .inr (.inl hlive)
    · exact .inr hwaits
  cases hfind : a.find name with
  | none =>
    rw [Launching.next, hfind]
    apply hpop
    left
    rintro rfl
    obtain ⟨record, hrecord⟩ := h.record
    cases hfind.symm.trans hrecord
  | some record =>
    obtain ⟨cfg, running⟩ := record
    cases running with
    | true =>
      rw [Launching.next, hfind]
      apply hpop
      by_cases hn : n = name
      · right
        exact ⟨cfg, hn ▸ hfind⟩
      · exact .inl hn
    | false =>
      rw [next_started hfind]
      split
      · have hself : ((a.setQueue rest).started name).find name = some (cfg, true) := by
          refine (find_setRunning a name name true).trans ?_
          rw [if_pos rfl, hfind]
          rfl
        exact (h.started hqueue).unlock ⟨cfg, hself⟩
      · exact h.started hqueue

def idleCount (records : List (ProgramConfig × Bool)) : Nat :=
  records.countP fun record => !record.2

/-- A bound on the rounds that are left. -/
def capacity (a : Launching) : Nat := a.queue.length + idleCount a.records * a.graph.size

theorem idleCount_running {cfg : ProgramConfig} {records : List (ProgramConfig × Bool)}
    (h : Keyed.find recordName name records = some (cfg, false)) :
    idleCount (Keyed.update recordName name (fun record => (record.1, true)) records) + 1 ≤
      idleCount records := by
  have hle : ∀ records : List (ProgramConfig × Bool),
      idleCount (Keyed.update recordName name (fun record => (record.1, true)) records) ≤
        idleCount records := by
    intro records
    rw [idleCount, Keyed.update, List.countP_map]
    apply List.countP_mono_left
    intro record _ hidle
    simp only [Function.comp_apply] at hidle
    split at hidle
    · cases hidle
    · exact hidle
  induction records with
  | nil => cases h
  | cons record records ih =>
    rw [Keyed.find_cons] at h
    rw [Keyed.update, List.map_cons, ← Keyed.update, idleCount, idleCount, List.countP_cons,
      List.countP_cons, ← idleCount, ← idleCount]
    split at h
    · rename_i hkey
      cases h
      rw [if_pos hkey]
      have := hle records
      simpa using this
    · rename_i hkey
      rw [if_neg hkey]
      have := ih h
      omega

theorem capacity_next {a : Launching} (hqueue : a.queue = name :: rest) :
    (a.next (fun _ => true) name rest).capacity < a.capacity := by
  have hpop : (a.setQueue rest).capacity < a.capacity := by
    rw [capacity, capacity, hqueue, List.length_cons]
    exact Nat.add_lt_add_right (Nat.lt_succ_self _) _
  cases hfind : a.find name with
  | none =>
    rw [next, hfind]
    exact hpop
  | some record =>
    obtain ⟨cfg, running⟩ := record
    cases running with
    | true =>
      rw [next, hfind]
      exact hpop
    | false =>
      -- the launched program runs from now on, which pays for what it unlocks
      have hcount := Nat.mul_le_mul_right a.graph.size (idleCount_running hfind)
      rw [Nat.add_mul, Nat.one_mul] at hcount
      rw [next_started hfind]
      split
      · have hunlocked := DependencyRuntime.length_markReady a.graph
          (a.dependencies.markStarting a.graph name) name
        have hlength :
          (((a.setQueue rest).started name).startOperation (.markReady name)).capacity =
            (rest ++ (DependencyRuntime.markReady a.graph
              (a.dependencies.markStarting a.graph name) name).2).length +
              idleCount (Keyed.update recordName name (fun record => (record.1, true)) a.records) *
                a.graph.size := rfl
        rw [hlength, capacity, hqueue, List.length_append, List.length_cons]
        omega
      · have hlength : ((a.setQueue rest).started name).capacity = rest.length +
            idleCount (Keyed.update recordName name (fun record => (record.1, true)) a.records) *
              a.graph.size := rfl
        rw [hlength, capacity, hqueue, List.length_cons]
        omega

theorem run_queue {a : Launching} {fuel : Nat} (h : a.capacity ≤ fuel) :
    (a.run (fun _ => true) fuel).queue = [] := by
  induction fuel generalizing a with
  | zero =>
    have hlength : a.queue.length = 0 := by
      rw [capacity] at h
      omega
    exact List.eq_nil_of_length_eq_zero hlength
  | succ fuel ih =>
    rw [run]
    split
    · rename_i hqueue
      exact hqueue
    · rename_i hqueue
      apply ih
      have := capacity_next hqueue
      omega

theorem capacity_le_rounds (a : Launching) : a.capacity ≤ a.rounds := by
  have hcount : idleCount a.records ≤ a.records.length := List.countP_le_length
  exact Nat.add_le_add_left (Nat.mul_le_mul_right _ hcount) _

theorem Serves.schedule {a : Launching} (h : a.Serves) (hn : n ∈ a.graph.names) :
    n ∈ (a.schedule fun _ => true).launched ∨ (a.schedule fun _ => true).state n = .pending := by
  have hgraph := run_graph (fun _ => true) a.rounds a
  rcases (h.run a.rounds).waits n (by rwa [hgraph]) with hqueue | hdone
  · rw [run_queue a.capacity_le_rounds] at hqueue
    cases hqueue
  · exact hdone

theorem Awaits.schedule {a : Launching} (h : a.Awaits n) :
    (∃ cfg, (a.schedule fun _ => true).find n = some (cfg, true)) ∨
      (a.schedule fun _ => true).dependencies.Held (a.schedule fun _ => true).graph n := by
  have hnext : ∀ (b : Launching) name rest, b.Awaits n → b.queue = name :: rest →
      (b.next (fun _ => true) name rest).Awaits n := by
    intro b name rest hb hqueue
    exact hb.next hqueue
  rcases (run_invariant hnext a.rounds h).waits with hqueue | hdone
  · rw [run_queue a.capacity_le_rounds] at hqueue
    cases hqueue
  · exact hdone

theorem Passes.schedule {a : Launching} {st : DependencyRuntimeState} (h : a.Passes n st)
    (hst : st ≠ .pending ∧ st ≠ .blocked) :
    n ∉ (a.schedule fun _ => true).launched ∧ (a.schedule fun _ => true).state n = st := by
  have hrun := h.run hst a.rounds
  exact ⟨hrun.launched, hrun.state⟩

end Launching

def ProcessHandle.running (p : ProcessHandle) : ProgramConfig × Bool := (p.config, p.hasProcess)

def Call.launchName : Call → Option String
  | .launchProgram name _ _ => some name
  | _ => none

/-- The programs handed to `launch_program`, the last one first. -/
def launchedNames (history : List Event) : List String :=
  history.filterMap fun e => e.call.launchName

namespace Daemon

def launching (s : Daemon) : Launching where
  graph := s.graph
  dependencies := s.dependencies
  records := s.processes.map ProcessHandle.running
  queue := s.launchQueue
  launched := launchedNames s.history

theorem launching_find (s : Daemon) (name : String) :
    s.launching.find name = (s.find name).map ProcessHandle.running := by
  rw [Launching.find, launching, Keyed.find, List.find?_map]
  rfl

theorem launching_record {call : Call} (h : call.launchName = none) (s : Daemon) :
    (s.record call).launching = s.launching := by
  simp [launching, record, launchedNames, h]

theorem launching_setProcess {f : ProcessHandle → ProcessHandle} {b : Bool}
    (hconfig : ∀ p, (f p).config = p.config) (hprocess : ∀ p, (f p).hasProcess = b) (s : Daemon)
    (name : String) : (s.setProcess name f).launching = s.launching.setRunning name b := by
  simp only [launching, setProcess, Launching.setRunning, Keyed.update, List.map_map]
  congr 1
  apply List.map_congr_left
  intro p _
  by_cases hp : p.name = name
  · have hp' : Launching.recordName p.running = name := hp
    simp only [Function.comp_apply, if_pos hp, if_pos hp']
    exact Prod.ext (hconfig p) (hprocess p)
  · have hp' : Launching.recordName p.running ≠ name := hp
    simp only [Function.comp_apply, if_neg hp, if_neg hp']

theorem launching_edit {f : ProcessHandle → ProcessHandle}
    (h : ∀ p, (f p).running = p.running) (s : Daemon) (name : String) :
    (s.setProcess name f).launching = s.launching := by
  simp only [launching, setProcess, Keyed.update, List.map_map]
  congr 1
  apply List.map_congr_left
  intro p _
  simp only [Function.comp_apply]
  split
  · exact h p
  · rfl

theorem launching_startOperation (s : Daemon) (operation : StartOperation) :
    (s.startOperation operation).launching = s.launching.startOperation operation := by
  simp only [launching, Daemon.startOperation, record, launchedNames, List.filterMap_cons,
    Call.launchName]
  rfl

theorem launching_pollProgramLog (ω : System) (s : Daemon) (name : String) :
    (s.pollProgramLog ω name).launching = s.launching := by
  rw [pollProgramLog]
  cases s.find name with
  | none => rfl
  | some p =>
    have hpoll : ∀ (p : ProcessHandle) (i : Nat) (read : List (List UInt8) × Bool),
        (p.pollStream i read).running = p.running := by
      intro p i read
      rw [ProcessHandle.pollStream]
      split
      · rfl
      · rfl
    simp only
    rw [launching_edit fun p => (hpoll _ _ _).trans (hpoll _ _ _)]
    split
    · rfl
    · exact launching_record rfl s

theorem launching_prepared (call : Call) (hcall : call.launchName = some name) (s : Daemon)
    (site : LaunchSite) :
    (((s.record call).setProcess name (·.prepared site)).setProcess name (·.reset)).launching =
      (s.launching.setLaunched (name :: s.launching.launched)).setRunning name false := by
  have hprepared : ∀ p : ProcessHandle, (p.prepared site).running = p.running := by
    intro p
    cases site with
    | dependency => rfl
    | due nowMs => rfl
  rw [launching_setProcess (f := ProcessHandle.reset) (b := false) (fun _ => rfl) fun _ => rfl,
    launching_edit hprepared]
  simp only [launching, record, launchedNames, List.filterMap_cons, hcall, Launching.setLaunched]

theorem launching_launchNext (s : Daemon) (name : String) (rest failures : List String)
    (hok : ∀ p, s.find name = some p → p.hasProcess = false →
      (ω.launch s.ticks p.config).isOk = ok p.config) :
    (s.launchNext ω name rest failures).1.launching = s.launching.next ok name rest := by
  rw [launchNext, Launching.next, launching_find]
  cases hp : s.find name with
  | none => rfl
  | some p =>
    simp only [Option.map_some, ProcessHandle.running]
    cases hrunning : p.hasProcess with
    | true => rfl
    | false =>
      obtain ⟨p', hp', hk⟩ := pollProgramLog_find (ω := ω) hp
      have hpolled : ({ s.pollProgramLog ω name with launchQueue := rest } : Daemon).launching =
          s.launching.setQueue rest := by
        rw [← launching_pollProgramLog ω s name]
        rfl
      have hp'' : ({ s.pollProgramLog ω name with launchQueue := rest } : Daemon).find name =
          some p' := hp'
      have hticks : ({ s.pollProgramLog ω name with launchQueue := rest } : Daemon).ticks =
          s.ticks := pollProgramLog_ticks ω s name
      simp only [Bool.false_eq_true, if_false]
      rw [← hpolled, Launching.launch]
      generalize ({ s.pollProgramLog ω name with launchQueue := rest } : Daemon) = s₁ at *
      have hconfig : p'.config = p.config := hk.config
      have houtcome := hok p hp hrunning
      rw [← hticks, ← hconfig] at houtcome
      cases hlaunch : ω.launch s₁.ticks p'.config with
      | error error =>
        have hfailed : ok p.config = false := by
          rw [← hconfig, ← houtcome, hlaunch]
          rfl
        rw [attemptLaunch_error hp'' hlaunch, hfailed,
          ← launching_prepared (.launchProgram name .dependency (.error error)) rfl s₁
            .dependency]
        rfl
      | ok pid =>
        have hstarted : ok p.config = true := by
          rw [← hconfig, ← houtcome, hlaunch]
          rfl
        rw [attemptLaunch_ok hp'' hlaunch, hstarted, ← Launching.setRunning_setRunning _ name false,
          ← launching_prepared (.launchProgram name .dependency (.ok pid)) rfl s₁
            .dependency]
        generalize (((s₁.record (.launchProgram name .dependency (.ok pid))).setProcess name
          (·.prepared .dependency)).setProcess name (·.reset)) = s₂
        have hlaunched := launching_setProcess
          (f := (·.launched pid s₁.nextGeneration (ω.clock s₁.ticks))) (b := true) (fun _ => rfl)
          (fun _ => rfl) s₂ name
        rw [← hlaunched]
        simp only [if_true]
        by_cases hzero : p.config.startTimeout = 0
        · rw [if_pos hzero, if_pos hzero, launching_startOperation,
            launching_edit (f := fun p => { p with ready := true }) fun _ => rfl]
          rfl
        · rw [if_neg hzero, if_neg hzero]
          rfl

theorem launching_launchAll (hok : ∀ t cfg, (ω.launch t cfg).isOk = ok cfg) (fuel : Nat)
    (s : Daemon) (failures : List String) :
    (s.launchAll ω fuel failures).1.launching = s.launching.run ok fuel := by
  induction fuel generalizing s failures with
  | zero => rfl
  | succ fuel ih =>
    have hqueue : s.launching.queue = s.launchQueue := rfl
    rw [launchAll, Launching.run, hqueue]
    cases s.launchQueue with
    | nil => rfl
    | cons name rest =>
      simp only
      rw [ih, launching_launchNext _ _ _ _ fun p _ _ => hok s.ticks p.config]

theorem launching_schedule (hok : ∀ t cfg, (ω.launch t cfg).isOk = ok cfg) (s : Daemon) :
    (s.scheduleDependencyLaunch ω).1.launching = s.launching.schedule ok := by
  have hrounds : s.launchRounds = s.launching.rounds := by
    rw [launchRounds, Launching.rounds, launching, List.length_map]
  rw [Launching.schedule, ← hrounds, ← launching_launchAll hok _ _ []]
  rfl

/-- The failures of a round come after those before it; without a new one the launch of the round,
if there is one, has succeeded. -/
theorem launchNext_failures (ω : System) (s : Daemon) (name : String)
    (rest failures : List String) :
    failures <+: (s.launchNext ω name rest failures).2 ∧
      ((s.launchNext ω name rest failures).2 = failures → ∀ p, s.find name = some p →
        p.hasProcess = false → (ω.launch s.ticks p.config).isOk = true) := by
  rw [launchNext]
  cases hp : s.find name with
  | none => exact ⟨List.prefix_refl _, fun _ p h => by cases h⟩
  | some p =>
    simp only
    cases hrunning : p.hasProcess with
    | true =>
      refine ⟨List.prefix_refl _, fun _ p' h hidle => ?_⟩
      cases h
      cases hrunning.symm.trans hidle
    | false =>
      obtain ⟨p', hp', hk⟩ := pollProgramLog_find (ω := ω) hp
      have hp'' : ({ s.pollProgramLog ω name with launchQueue := rest } : Daemon).find name =
          some p' := hp'
      have hticks : ({ s.pollProgramLog ω name with launchQueue := rest } : Daemon).ticks =
          s.ticks := pollProgramLog_ticks ω s name
      have hconfig : p'.config = p.config := hk.config
      simp only [Bool.false_eq_true, if_false]
      generalize ({ s.pollProgramLog ω name with launchQueue := rest } : Daemon) = s₁ at *
      rw [← hticks]
      cases hlaunch : ω.launch s₁.ticks p'.config with
      | error error =>
        rw [attemptLaunch_error hp'' hlaunch]
        exact ⟨List.prefix_append _ _, fun h => by simp at h⟩
      | ok pid =>
        have hsame : ∀ q, some p = some q → q.hasProcess = false →
            (ω.launch s₁.ticks q.config).isOk = true := by
          intro q h _
          cases h
          rw [← hconfig, hlaunch]
          rfl
        rw [attemptLaunch_ok hp'' hlaunch]
        simp only
        split
        · exact ⟨List.prefix_refl _, fun _ => hsame⟩
        · exact ⟨List.prefix_refl _, fun _ => hsame⟩

theorem launchAll_failures (ω : System) (fuel : Nat) (s : Daemon) (failures : List String) :
    failures <+: (s.launchAll ω fuel failures).2 := by
  induction fuel generalizing s failures with
  | zero => exact List.prefix_refl _
  | succ fuel ih =>
    rw [launchAll]
    split
    · exact List.prefix_refl _
    · exact (launchNext_failures ω s _ _ failures).1.trans (ih _ _)

theorem launching_clean (fuel : Nat) (s : Daemon) (failures : List String)
    (h : (s.launchAll ω fuel failures).2 = failures) :
    (s.launchAll ω fuel failures).1.launching = s.launching.run (fun _ => true) fuel := by
  induction fuel generalizing s with
  | zero => rfl
  | succ fuel ih =>
    have hqueue : s.launching.queue = s.launchQueue := rfl
    rw [launchAll] at h ⊢
    rw [Launching.run, hqueue]
    cases hnames : s.launchQueue with
    | nil => rfl
    | cons name rest =>
      rw [hnames] at h
      simp only at h ⊢
      obtain ⟨hgrows, hok⟩ := launchNext_failures ω s name rest failures
      have hlater := launchAll_failures ω fuel (s.launchNext ω name rest failures).1
        (s.launchNext ω name rest failures).2
      rw [h] at hlater
      have hsame : (s.launchNext ω name rest failures).2 = failures :=
        hlater.eq_of_length_le hgrows.length_le
      have hnext : (s.launchNext ω name rest failures).1.launching =
          s.launching.next (fun _ => true) name rest :=
        launching_launchNext s name rest failures (hok hsame)
      rw [hsame] at h ⊢
      rw [ih _ h, hnext]

theorem launching_schedule_clean (h : (s.scheduleDependencyLaunch ω).2 = []) :
    (s.scheduleDependencyLaunch ω).1.launching = s.launching.schedule fun _ => true := by
  have hrounds : s.launchRounds = s.launching.rounds := by
    rw [launchRounds, Launching.rounds, launching, List.length_map]
  rw [Launching.schedule, ← hrounds, ← launching_clean s.launchRounds s [] h]
  rfl

end Daemon
end PmTiny.Windows
