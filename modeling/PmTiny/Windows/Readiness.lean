import PmTiny.Windows.Invariants

namespace PmTiny.Windows
set_option autoImplicit true

variable {s s' : Daemon} {ω : System} {n m : String}

open DependencyRuntime

namespace Daemon

def leavesReady (c : Core) (p : ProcessHandle) (nowMs : Int) : Bool :=
  match p.completionAction with
  | .remove => true
  | .deleteConfig => false
  | .restart => !shouldRestart c p && !p.ready
  | .failureRestart => shouldRestart c p || !p.ready
  | .automatic => if shouldRestart c p then (restartDecision p nowMs).1.restart else !p.ready

end Daemon

open Daemon

/-- The completion of a program that counts as ready takes it out of ready, and no definition is put
over a running one that makes it count as not started. -/
def Event.keepsReady (e : Event) : Bool :=
  match e.call with
  | .complete n nowMs => e.core.dependencyState n ≠ .ready ||
      (e.core.find n).all fun p => leavesReady e.core p nowMs
  | .ensure cfg => e.core.dependencyState cfg.name ≠ .ready ||
      (e.core.find cfg.name).all fun p => ({ p with config := cfg } : ProcessHandle).up
  | _ => true

def Core.Up (c : Core) (n : String) : Prop := ∃ p, c.find n = some p ∧ p.up = true

/-- The program has a process. -/
def Core.Runs (c : Core) (n : String) : Prop := ∃ p, c.find n = some p ∧ p.hasProcess = true

theorem Core.Up.runs {c : Core} (h : c.Up n) : c.Runs n := by
  obtain ⟨p, hp, hup⟩ := h
  rw [ProcessHandle.up, Bool.and_eq_true] at hup
  exact ⟨p, hp, hup.1⟩

theorem Kept.up {p q : ProcessHandle} (h : Kept p q) : q.up = p.up := by
  rw [ProcessHandle.up, h.hasProcess, h.ready, h.config, ProcessHandle.up]

namespace Daemon

def ReadyUp (s : Daemon) : Prop := ∀ m, s.dependencyState m = .ready → s.Up m

theorem Puts.up {ps : List ProcessHandle} {p : ProcessHandle} {r : Option ProcessHandle}
    (hps : s.Puts ps n r) (hp : s.find n = some p)
    (hup : p.up = true → ∃ q, r = some q ∧ q.up = true) (hm : s.Up m) :
    ∃ q, lookup ps m = some q ∧ q.up = true := by
  obtain ⟨p', hp', hup'⟩ := hm
  rcases hps.find m with ⟨rfl, hfind⟩ | ⟨hne, hfind⟩
  · obtain rfl := Option.some.inj (hp.symm.trans hp')
    obtain ⟨q, hq, hqup⟩ := hup hup'
    exact ⟨q, hfind.trans hq, hqup⟩
  · exact ⟨p', hfind.trans hp', hup'⟩

theorem Puts.idle {ps : List ProcessHandle} {p : ProcessHandle} {r : Option ProcessHandle}
    (hps : s.Puts ps n r) (hp : s.find n = some p) (hidle : p.hasProcess = false) (hm : s.Up m) :
    ∃ q, lookup ps m = some q ∧ q.up = true :=
  hps.up hp (fun hup => by
    rw [ProcessHandle.up, hidle] at hup
    cases hup) hm

theorem Puts.up_ne {ps : List ProcessHandle} {r : Option ProcessHandle}
    (hps : s.Puts ps n r) (hne : m ≠ n) (hm : s.Up m) :
    ∃ q, lookup ps m = some q ∧ q.up = true := by
  obtain ⟨p', hp', hup'⟩ := hm
  rcases hps.find m with ⟨he, -⟩ | ⟨-, hfind⟩
  · exact absurd he hne
  · exact ⟨p', hfind.trans hp', hup'⟩

theorem completed_ready {c : Core} {p : ProcessHandle} {nowMs : Int} {q? : Option ProcessHandle}
    {rt : DependencyRuntime} {configs : List ProgramConfig}
    (hc : Completed c p nowMs q? rt configs)
    (hleaves : c.dependencyState p.name ≠ .ready ∨ leavesReady c p nowMs = true)
    (hm : rt.state c.graph m = .ready) : c.dependencyState m = .ready ∧ m ≠ p.name := by
  have hsame : c.dependencyState m = .ready → leavesReady c p nowMs = false →
      c.dependencyState m = .ready ∧ m ≠ p.name := by
    intro hready hstays
    refine ⟨hready, ?_⟩
    rintro rfl
    rcases hleaves with h | h
    · exact h hready
    · exact absurd (hstays.symm.trans h) (by decide)
  cases hc with
  | restart h ha =>
    refine hsame hm ?_
    simp [leavesReady, ha, h]
  | suppressed h ha hd =>
    split at hm
    · exact ready_markFailed_iff.1 hm
    · rename_i hfailure
      refine hsame hm ?_
      have hauto : p.completionAction = .automatic := by
        simp only [shouldRestart, automaticRestart, Bool.and_eq_true, Bool.or_eq_true,
          decide_eq_true_iff] at h
        grind
      simp [leavesReady, hauto, h, hd]
  | remove h ha => exact ready_markIdle.1 hm
  | deleteConfig h ha =>
    refine hsame hm ?_
    simp [leavesReady, ha]
  | ended h ha =>
    split at hm
    · rename_i hready
      refine hsame hm ?_
      unfold leavesReady
      cases haction : p.completionAction with
      | automatic => simp [h, hready]
      | remove => exact absurd haction ha.1
      | restart => simp [hready]
      | failureRestart => simp [h, hready]
      | deleteConfig => rfl
    · exact ready_markFailed_iff.1 hm

theorem ready_startOperation {operation : StartOperation}
    (h : (s.startOperation operation).dependencyState m = .ready) :
    s.dependencyState m = .ready ∨ operation = .markReady m := by
  cases operation with
  | requestAll => exact .inl (ready_requestAll.1 h)
  | requestClosure name =>
    exact .inl ((requestClosure_advances s.graph s.dependencies name).ready m |>.1 h)
  | markReady name =>
    rcases ready_markReady.1 h with h | ⟨rfl, -⟩
    · exact .inl h
    · exact .inr rfl

theorem readyUp_move (hs : s.ReadyUp) (hm : Move s s')
    (hK : ∀ e ∈ s'.history, e.keepsReady = true) :
    s'.ReadyUp := by
  have hrebuilt : ∀ {graph : DependencyGraph} {rt : DependencyRuntime}, Rebuilt s.toCore graph rt →
      ∀ m, rt.state graph m = .ready → s.Up m := by
    intro graph rt hrt m hready
    rcases hrt.ready m hready with h | h
    · exact hs m h
    · exact h
  intro m hready
  cases hm with
  | outside hcore hstreams hnext hhistory hclosed =>
    rw [hcore] at hready ⊢
    exact hs m hready
  | note call h hreply => exact hs m hready
  | stream h =>
    rw [h.core] at hready ⊢
    exact hs m hready
  | edit hp hk hps => exact hps.up hp (fun hup => ⟨_, rfl, hk.up.trans hup⟩) (hs m hready)
  | append hp hk chunks hps => exact hps.up hp (fun hup => ⟨_, rfl, hk.up.trans hup⟩) (hs m hready)
  | exit hp hk code hps => exact hps.up hp (fun hup => ⟨_, rfl, hk.up.trans hup⟩) (hs m hready)
  | terminate hp hlive hr hk job hjob hps =>
    exact hps.up hp (fun hup => ⟨_, rfl, hk.up.trans hup⟩) (hs m hready)
  | setReady hp hlive hk hps =>
    refine hps.up hp (fun _ => ⟨_, rfl, ?_⟩) (hs m hready)
    simp [ProcessHandle.up, hk.hasProcess, hlive]
  | manual hp hnames hk hps =>
    exact hps.up hp (fun hup => ⟨_, rfl, hk.up.trans hup⟩) (hs m (ready_markIdle.1 hready).1)
  | started hp hidle hsite hps => exact hps.idle hp hidle (hs m (ready_markStarting.1 hready).1)
  | refused hp hidle hsite hps => exact hps.idle hp hidle (hs m (ready_markFailed_iff.1 hready).1)
  | start operation hstarted hnamed =>
    rcases ready_startOperation hready with h | h
    · exact hs m h
    · obtain ⟨p, hp, hlive, hup⟩ := hstarted m h
      exact ⟨p, hp, by rw [ProcessHandle.up, hlive, hup]; rfl⟩
  | dequeue queue h => exact hs m hready
  | complete hqueue hp hlive hc hps =>
    have hkeeps := hK _ List.mem_cons_self
    simp only [Event.keepsReady, hp, Option.all_some, Bool.or_eq_true, decide_eq_true_iff] at hkeeps
    obtain rfl := find_name hp
    obtain ⟨hold, hne⟩ := completed_ready hc hkeeps hready
    exact hps.up_ne hne (hs m hold)
  | grant hqueue hp hlive hrestart ha hd hps =>
    obtain ⟨hold, hne⟩ := ready_markPending.1 hready
    exact hps.up_ne hne (hs m hold)
  | define hqueue cfg hn hnew hrt hgraph hsource => exact hrebuilt hrt m hready
  | commitDelete hqueue hrequest hp hend hrt hgraph => exact hrebuilt hrt m hready
  | rollback hqueue hn hrt hgraph => exact hrebuilt hrt m hready
  | dropRecord hnames hp hidle hps => exact hps.idle hp hidle (hs m hready)
  | ensure cfg hcfg hps =>
    have hup := hs m hready
    rcases hps.find m with ⟨rfl, hfind⟩ | ⟨hne, hfind⟩
    · obtain ⟨p, hp, -⟩ := hup
      have hkeeps := hK _ List.mem_cons_self
      simp only [Event.keepsReady, hp, Option.all_some, Bool.or_eq_true,
        decide_eq_true_iff] at hkeeps
      rw [hp] at hfind
      rcases hkeeps with h | h
      · exact absurd hready h
      · exact ⟨_, hfind, h⟩
    · obtain ⟨p, hp, hup⟩ := hup
      exact ⟨p, hfind.trans hp, hup⟩
  | swap hqueue hidle hrt hconfigs =>
    obtain ⟨p, hp, hlive⟩ := (hrebuilt hrt m hready).runs
    exact absurd (hlive.symm.trans (hidle m p hp)) (by decide)
  | flags reloadPending reloadPrograms shouldStop shutdownScheduled hprograms => exact hs m hready
  | request req hqueue ht => exact hs m hready
  | answered hqueue => exact hs m hready
  | plan l hrequest h => exact hs m hready
  | created cfg hcfg hcwd hp hpc => exact hs m hready

theorem runs_move (hm : Move s s') (hqueue : s'.launchQueue ≠ []) (h : s.Runs n) : s'.Runs n := by
  obtain ⟨p, hp, hlive⟩ := h
  have hfound : ∀ {p' : ProcessHandle}, s.find n = some p' → p'.hasProcess = true := by
    intro p' hp'
    obtain rfl := Option.some.inj (hp.symm.trans hp')
    exact hlive
  cases hm.record n with
  | same h hh => exact ⟨p, h.trans hp, hlive⟩
  | edited hp hk h hh => exact ⟨_, h, hk.hasProcess.trans (hfound hp)⟩
  | appended hp hk chunks h hh => exact ⟨_, h, hk.hasProcess.trans (hfound hp)⟩
  | exited hp hk code h hh => exact ⟨_, h, hk.hasProcess.trans (hfound hp)⟩
  | terminated hp hlive hr hk job hjob h hh => exact ⟨_, h, hk.hasProcess.trans (hfound hp)⟩
  | readied hp hlive hk h hh => exact ⟨_, h, hk.hasProcess.trans (hfound hp)⟩
  | cleared hp hn hk h hh => exact ⟨_, h, hk.hasProcess.trans (hfound hp)⟩
  | started hp hidle hsite h hh => exact ⟨_, h, rfl⟩
  | refused hp hidle hsite h hh => exact absurd (hidle.symm.trans (hfound hp)) (by decide)
  | completed hq hp' hlive' hc h hh => exact ⟨p, (hm.find_of_queue hq hqueue n).trans hp, hlive⟩
  | granted hq hp' hlive' hrestart ha hd h hh =>
    exact ⟨p, (hm.find_of_queue hq hqueue n).trans hp, hlive⟩
  | dropped hn hp hidle h hh => exact absurd (hidle.symm.trans (hfound hp)) (by decide)
  | ensured cfg hname hcfg h hh =>
    rw [hp] at h
    exact ⟨_, h, hlive⟩
  | swapped hq hidle h hh => exact absurd ((hidle n p hp).symm.trans hlive) (by decide)

def DependenciesRun (c : Core) (n : String) : Prop := ∀ d ∈ c.graph.dependencyNames n, c.Runs d

theorem handedOut_run {operation : StartOperation} (hs : (s.startOperation operation).ReadyUp)
    (hn : n ∈ s.handedOut operation) : DependenciesRun s.toCore n := by
  have hhanded : Handed s.graph (operation.apply s.graph s.dependencies).1 n := by
    cases operation with
    | requestAll => exact requestAll_handed hn
    | requestClosure name => exact requestClosure_handed hn
    | markReady name => exact markReady_handed hn
  exact fun d hd => (hs d (hhanded.2.2 d hd)).runs

/-- The ready programs run; those on the worklist have running dependencies, as had those that were
launched from it. -/
structure Running (s : Daemon) : Prop where
  ready : s.ReadyUp
  queue : ∀ n ∈ s.launchQueue, DependenciesRun s.toCore n
  launched : ∀ e ∈ s.history, ∀ n outcome, e.call = .launchProgram n .dependency outcome →
    DependenciesRun e.core n

theorem running_move (hs : s.Running) (hm : Move s s')
    (hK : ∀ e ∈ s'.history, e.keepsReady = true) : s'.Running := by
  have hready := readyUp_move hs.ready hm hK
  refine ⟨hready, fun n hn d hd => ?_, fun e he n outcome hcall => ?_⟩
  · have hne : s'.launchQueue ≠ [] := List.ne_nil_of_mem hn
    rcases hm.queue with hempty | ⟨hsub, -, hgraph⟩ | ⟨operation, rfl⟩
    · exact absurd hempty hne
    · rw [hgraph] at hd
      exact runs_move hm hne (hs.queue n (hsub n hn) d hd)
    · rcases List.mem_append.1 hn with hold | hnew
      · exact hs.queue n hold d hd
      · exact handedOut_run hready hnew d hd
  · rcases (hm.record n).launch he hcall with hold | ⟨p, rest, hp, -, hsite, hcore⟩
    · exact hs.launched e hold n outcome hcall
    · rw [hcore]
      refine hs.queue n ?_
      rw [hsite, find_name hp]
      exact List.mem_cons_self

/-- As long as completions take their programs out of ready, a ready program has a process that
counts as started, and no program is launched by the scheduler while a direct dependency has no
process. -/
theorem ready_programs_run (h : Reachable ω s) (hK : ∀ e ∈ s.history, e.keepsReady = true) :
    (∀ n, s.dependencyState n = .ready → ∃ p, s.find n = some p ∧ p.hasProcess = true ∧
      (p.ready = true ∨ p.config.startTimeout = 0)) ∧
    ∀ e ∈ s.history, ∀ n outcome, e.call = .launchProgram n .dependency outcome →
      ∀ d ∈ e.core.graph.dependencyNames n, ∃ p, e.core.find d = some p ∧ p.hasProcess = true := by
  have hrunning : s.Running := by
    refine h.judged hK (fun hs => ⟨fun m hm => ?_, fun n hn => ?_, fun e he => ?_⟩) running_move
    · cases (hs.dependencies m).symm.trans hm
    · rw [hs.idle.launchQueue] at hn
      cases hn
    · rw [hs.history] at he
      cases he
  refine ⟨fun n hn => ?_, hrunning.launched⟩
  obtain ⟨p, hp, hup⟩ := hrunning.ready n hn
  rw [ProcessHandle.up, Bool.and_eq_true, Bool.or_eq_true, decide_eq_true_iff] at hup
  exact ⟨p, hp, hup⟩

/-- A program that is not restarted when it ends by itself. -/
def oneShot (name : String) (dependsOn : List String) : ProgramConfig :=
  { name := name, cwd := ".", executable := "x", dependsOn := dependsOn, daemon := false }

/-- The system on which the tree of the first generation is empty from the start. -/
def exitingSystem (programs : List ProgramConfig) : System :=
  simpleSystem programs fun generation => if generation = 1 then some 0 else none

def exits (name : String) (generation : Nat) : List Input :=
  [.callback (.processExit name generation 0), .callback (.processLogEof name generation 0),
    .callback (.processLogEof name generation 1)]

theorem ready_programs_run_boot :
    ∃ s, Reachable (exitingSystem [oneShot "a" [], oneShot "b" ["a"]]) s ∧
    (s.dependencyState "a" = .ready ∧ ∀ e ∈ s.history, e.keepsReady = true) ∧
    ((∀ n, s.dependencyState n = .ready → ∃ p, s.find n = some p ∧ p.hasProcess = true ∧
      (p.ready = true ∨ p.config.startTimeout = 0)) ∧
    ∀ e ∈ s.history, ∀ n outcome, e.call = .launchProgram n .dependency outcome →
      ∀ d ∈ e.core.graph.dependencyNames n, ∃ p, e.core.find d = some p ∧ p.hasProcess = true) := by
  obtain ⟨s, hs, htest⟩ := run_any (ω := exitingSystem [oneShot "a" [], oneShot "b" ["a"]]) []
    (fun s => s.dependencyState "a" = .ready && s.history.all Event.keepsReady) (by decide +kernel)
  rw [Bool.and_eq_true, decide_eq_true_iff, List.all_eq_true] at htest
  exact ⟨s, hs, htest, ready_programs_run hs htest.2⟩

/-- The event launches the program from the worklist while the other one has no process. -/
def launchesWithout (n d : String) (e : Event) : Bool :=
  match e.call with
  | .launchProgram name .dependency _ => name = n && d ∈ e.core.graph.dependencyNames n &&
      (e.core.find d).all fun p => !p.hasProcess
  | _ => false

/-- A program that ends by itself and is not restarted stays ready, and what depends on it is
started without it. -/
theorem ready_without_process : ∃ s, Reachable (exitingSystem [oneShot "a" []]) s ∧
    s.dependencyState "a" = .ready ∧ ¬s.Runs "a" ∧
    ∃ e ∈ s.history, ∃ outcome, e.call = .launchProgram "b" .dependency outcome ∧
      "a" ∈ e.core.graph.dependencyNames "b" ∧ ¬e.core.Runs "a" := by
  have hruns : ∀ {c : Core}, ((c.find "a").all fun p => !p.hasProcess) = true → ¬c.Runs "a" := by
    rintro c hall ⟨p, hp, hlive⟩
    rw [hp, Option.all_some, hlive] at hall
    cases hall
  obtain ⟨s, hs, htest⟩ := run_any (ω := exitingSystem [oneShot "a" []])
    ([Input.tick, .wake] ++ exits "a" 1 ++ [Input.tick, .wake,
      .callback (.requests 1 [(1, .start ⟨.create, "b", oneShot "b" ["a"], [], false⟩)])])
    (fun s => s.dependencyState "a" = .ready && ((s.find "a").all fun p => !p.hasProcess) &&
      s.history.any (launchesWithout "b" "a")) (by decide +kernel)
  simp only [Bool.and_eq_true, decide_eq_true_iff, List.any_eq_true] at htest
  obtain ⟨⟨hready, hidle⟩, e, he, hlaunch⟩ := htest
  refine ⟨s, hs, hready, hruns hidle, e, he, ?_⟩
  rw [launchesWithout] at hlaunch
  split at hlaunch
  · rename_i name outcome hcall
    simp only [Bool.and_eq_true, decide_eq_true_iff] at hlaunch
    obtain ⟨⟨rfl, hdep⟩, hidle⟩ := hlaunch
    exact ⟨outcome, hcall, hdep, hruns hidle⟩
  · cases hlaunch

end Daemon
end PmTiny.Windows
