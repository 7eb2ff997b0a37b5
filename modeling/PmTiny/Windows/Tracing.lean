import PmTiny.Windows.Moves

namespace PmTiny.Windows
set_option autoImplicit true

variable {s s' s'' : Daemon} {ω : System} {n name : String} {p q : ProcessHandle}
  {f : ProcessHandle → ProcessHandle}

theorem Kept.refl (p : ProcessHandle) : Kept p p :=
  ⟨rfl, rfl, rfl, rfl, rfl, rfl, rfl, rfl, rfl, .rfl, rfl, rfl, rfl⟩

theorem name_eq (hf : ∀ p, (f p).config = p.config) (p : ProcessHandle) : (f p).name = p.name := by
  rw [ProcessHandle.name, hf, ProcessHandle.name]

theorem lookup_update {ps : List ProcessHandle} (hf : ∀ p, (f p).config = p.config)
    (hp : lookup ps n = some p) :
    lookup (Keyed.update ProcessHandle.name n f ps) = Function.update (lookup ps) n
      (some (f p)) := by
  funext m
  rw [lookup, Keyed.find_update (name_eq hf)]
  by_cases hm : m = n
  · subst hm
    rw [if_pos rfl, Function.update_self, ← lookup, hp]
    rfl
  · rw [if_neg hm, Function.update_of_ne hm, lookup]

theorem find_name (hp : s.find n = some p) : p.name = n := Keyed.key_of_find hp

namespace Daemon

def Distinct (s : Daemon) : Prop := (s.processes.map ProcessHandle.name).Nodup

theorem Distinct.find (h : s.Distinct) (hp : p ∈ s.processes) : s.find p.name = some p :=
  Keyed.find_of_mem h hp

theorem setProcess_none (hn : s.find n = none) (f : ProcessHandle → ProcessHandle) :
    s.setProcess n f = s := by
  have hne := Keyed.find_eq_none.1 hn
  have hmap : Keyed.update ProcessHandle.name n f s.processes = s.processes := by
    rw [Keyed.update]
    conv_rhs => rw [← List.map_id s.processes]
    apply List.map_congr_left
    intro p hp
    rw [if_neg (hne p hp), id]
  rw [setProcess, hmap]

theorem puts_setProcess (hp : s.find n = some p) (hf : ∀ p, (f p).config = p.config) :
    s.Puts (s.setProcess n f).processes n (some (f p)) := lookup_update hf hp

theorem find_setProcess (hp : s.find n = some p) (hf : ∀ p, (f p).config = p.config) :
    (s.setProcess n f).find = Function.update s.find n (some (f p)) := lookup_update hf hp

theorem find_setProcess_self (hp : s.find n = some p) (hf : ∀ p, (f p).config = p.config) :
    (s.setProcess n f).find n = some (f p) := by
  rw [find_setProcess hp hf, Function.update_self]

theorem Distinct.setProcess (h : s.Distinct) (hf : ∀ p, (f p).config = p.config) :
    (s.setProcess n f).Distinct := by
  rw [Distinct]
  exact (Keyed.map_key_update (name_eq hf)).symm ▸ h

/-- The way from one state to another is a sequence of moves, and keeps the names distinct. -/
def Goes (s s' : Daemon) : Prop := s.Distinct → Moves s s' ∧ s'.Distinct

theorem Goes.refl (s : Daemon) : Goes s s := fun h => ⟨.refl s, h⟩

theorem Goes.trans (h : Goes s s') (h' : Goes s' s'') : Goes s s'' := by
  intro hd
  obtain ⟨hm, hd⟩ := h hd
  obtain ⟨hm', hd⟩ := h' hd
  exact ⟨hm.trans hm', hd⟩

theorem Goes.move (h : Move s s') (hd : s'.processes = s.processes) : Goes s s' := by
  intro hdistinct
  refine ⟨h.moves, ?_⟩
  rw [Distinct, hd]
  exact hdistinct

theorem Goes.outside (hcore : s'.toCore = s.toCore) (hstreams : s'.logStreams = s.logStreams)
    (hnext : s'.nextStream = s.nextStream) (hhistory : s'.history = s.history)
    (hclosed : ∀ id ∈ s.closed, id ∈ s'.closed) : Goes s s' :=
  .move (.outside hcore hstreams hnext hhistory hclosed) (by rw [hcore])

theorem goes_tick (s : Daemon) : Goes s s.tick := .outside rfl rfl rfl rfl fun _ h => h

theorem Goes.setProcess (hf : ∀ p, (f p).config = p.config)
    (h : ∀ p, s.find n = some p → Move s (s.setProcess n f)) : Goes s (s.setProcess n f) := by
  intro hd
  refine ⟨?_, hd.setProcess hf⟩
  cases hp : s.find n with
  | none =>
    rw [setProcess_none hp]
    exact .refl s
  | some p => exact (h p hp).moves

theorem goes_edit (hf : ∀ p, (f p).config = p.config)
    (hk : ∀ p, s.find n = some p → Kept p (f p)) : Goes s (s.setProcess n f) :=
  .setProcess hf fun p hp => .edit hp (hk p hp) (puts_setProcess hp hf)

/-- What scheduling and reading logs leave alone. -/
structure Within (s s' : Daemon) : Prop where
  graph : s'.graph = s.graph
  configMap : s'.configMap = s.configMap
  reloadPending : s'.reloadPending = s.reloadPending
  reloadPrograms : s'.reloadPrograms = s.reloadPrograms
  shutdownScheduled : s'.shutdownScheduled = s.shutdownScheduled
  request : s'.request = s.request
  timeouts : s'.timeouts = s.timeouts
  history : Adds (fun e => e.call.creates = false) s s'
  config : ∀ n, (s'.find n).map (·.config) = (s.find n).map (·.config)
  deleting : ∀ n p, s'.find n = some p → p.completionAction = .deleteConfig →
    ∃ p', s.find n = some p' ∧ p'.completionAction = .deleteConfig
  live : ∀ n p, s.find n = some p → p.hasProcess = true →
    ∃ p', s'.find n = some p' ∧ p'.hasProcess = true

theorem Within.refl (s : Daemon) : Within s s :=
  ⟨rfl, rfl, rfl, rfl, rfl, rfl, rfl, .none rfl, fun _ => rfl, fun _ p hp h => ⟨p, hp, h⟩,
    fun _ p hp h => ⟨p, hp, h⟩⟩

theorem Within.trans (h : Within s s') (h' : Within s' s'') : Within s s'' where
  graph := h'.graph.trans h.graph
  configMap := h'.configMap.trans h.configMap
  reloadPending := h'.reloadPending.trans h.reloadPending
  reloadPrograms := h'.reloadPrograms.trans h.reloadPrograms
  shutdownScheduled := h'.shutdownScheduled.trans h.shutdownScheduled
  request := h'.request.trans h.request
  timeouts := h'.timeouts.trans h.timeouts
  history := h.history.trans h'.history
  config := fun n => (h'.config n).trans (h.config n)
  deleting := fun n p hp ha => by
    obtain ⟨p', hp', ha'⟩ := h'.deleting n p hp ha
    exact h.deleting n p' hp' ha'
  live := fun n p hp hlive => by
    obtain ⟨p', hp', hlive'⟩ := h.live n p hp hlive
    exact h'.live n p' hp' hlive'

theorem Within.of_same (hgraph : s'.graph = s.graph) (hconfigMap : s'.configMap = s.configMap)
    (hpending : s'.reloadPending = s.reloadPending)
    (hprograms : s'.reloadPrograms = s.reloadPrograms)
    (hshutdown : s'.shutdownScheduled = s.shutdownScheduled) (hrequest : s'.request = s.request)
    (htimeouts : s'.timeouts = s.timeouts) (hhistory : Adds (fun e => e.call.creates = false) s s')
    (hprocesses : s'.processes = s.processes) : Within s s' := by
  have hfind : s'.find = s.find := by
    funext n
    rw [Core.find, hprocesses, Core.find]
  refine ⟨hgraph, hconfigMap, hpending, hprograms, hshutdown, hrequest, htimeouts, hhistory, ?_, ?_,
    ?_⟩
  · intro n
    rw [hfind]
  · intro n p hp ha
    rw [hfind] at hp
    exact ⟨p, hp, ha⟩
  · intro n p hp hlive
    rw [hfind]
    exact ⟨p, hp, hlive⟩

theorem within_record {call : Call} (h : call.creates = false) (s : Daemon) :
    Within s (s.record call) :=
  .of_same rfl rfl rfl rfl rfl rfl rfl (.one rfl h) rfl

/-- One record changes, but neither its definition nor into one that is being deleted. -/
theorem Within.of_puts (hp : s.find n = some p) (hputs : s.Puts s'.processes n (some q))
    (hconfig : q.config = p.config)
    (hend : q.completionAction = .deleteConfig → p.completionAction = .deleteConfig)
    (hlive : p.hasProcess = true → q.hasProcess = true) (hgraph : s'.graph = s.graph)
    (hconfigMap : s'.configMap = s.configMap)
    (hpending : s'.reloadPending = s.reloadPending)
    (hprograms : s'.reloadPrograms = s.reloadPrograms)
    (hshutdown : s'.shutdownScheduled = s.shutdownScheduled) (hrequest : s'.request = s.request)
    (htimeouts : s'.timeouts = s.timeouts)
    (hhistory : Adds (fun e => e.call.creates = false) s s') :
    Within s s' := by
  have hfind : s'.find = Function.update s.find n (some q) := hputs
  refine ⟨hgraph, hconfigMap, hpending, hprograms, hshutdown, hrequest, htimeouts, hhistory,
    fun m => ?_, fun m p' hp' ha => ?_, fun m p' hp' hlive' => ?_⟩
  · rw [hfind]
    by_cases hm : m = n
    · subst hm
      rw [Function.update_self, hp, Option.map_some, Option.map_some, hconfig]
    · rw [Function.update_of_ne hm]
  · rw [hfind] at hp'
    by_cases hm : m = n
    · subst hm
      rw [Function.update_self] at hp'
      obtain rfl := Option.some.inj hp'
      exact ⟨p, hp, hend ha⟩
    · rw [Function.update_of_ne hm] at hp'
      exact ⟨p', hp', ha⟩
  · rw [hfind]
    by_cases hm : m = n
    · subst hm
      obtain rfl := Option.some.inj (hp.symm.trans hp')
      exact ⟨q, Function.update_self _ _ _, hlive hlive'⟩
    · exact ⟨p', by rw [Function.update_of_ne hm, hp'], hlive'⟩

theorem Within.setProcess (hf : ∀ p, (f p).config = p.config)
    (hend : ∀ p, s.find n = some p → (f p).completionAction = .deleteConfig →
      p.completionAction = .deleteConfig)
    (hlive : ∀ p, s.find n = some p → p.hasProcess = true → (f p).hasProcess = true) :
    Within s (s.setProcess n f) := by
  cases hp : s.find n with
  | none =>
    rw [setProcess_none hp]
    exact .refl s
  | some p =>
    exact .of_puts hp (puts_setProcess hp hf) (hf p) (hend p hp)
      (hlive p hp) rfl rfl rfl rfl rfl rfl
      rfl (.none rfl)

def Ranges (s s' : Daemon) : Prop := Goes s s' ∧ Within s s'

theorem Ranges.refl (s : Daemon) : Ranges s s := ⟨.refl s, .refl s⟩

theorem Ranges.trans (h : Ranges s s') (h' : Ranges s' s'') : Ranges s s'' :=
  ⟨h.1.trans h'.1, h.2.trans h'.2⟩

theorem ranges_tick (s : Daemon) : Ranges s s.tick :=
  ⟨goes_tick s, .of_same rfl rfl rfl rfl rfl rfl rfl (.none rfl) rfl⟩

theorem ranges_edit (hf : ∀ p, (f p).config = p.config)
    (hk : ∀ p, s.find n = some p → Kept p (f p)) : Ranges s (s.setProcess n f) :=
  ⟨goes_edit hf hk, .setProcess hf (fun p hp ha => (hk p hp).completionAction ▸ ha)
    fun p hp hlive => (hk p hp).hasProcess.trans hlive⟩

end Daemon

namespace ProcessHandle

variable {i : Nat} {read : List (List UInt8) × Bool}

theorem pollStream_logTail (p : ProcessHandle) (i : Nat) (read : List (List UInt8) × Bool) :
    (p.pollStream i read).logTail =
    (p.polledChunks i read).foldl BoundedLogTail.append p.logTail := by
  rw [pollStream, polledChunks]
  split
  · rfl
  · rfl

theorem pollStream_kept (p : ProcessHandle) (i : Nat) (read : List (List UInt8) × Bool)
    (tail : BoundedLogTail) :
    Kept { p with logTail := tail } { p.pollStream i read with logTail := tail } := by
  rw [pollStream]
  split
  · exact ⟨rfl, rfl, rfl, rfl, rfl, rfl, rfl, rfl, rfl, .rfl, rfl, rfl, rfl⟩
  · exact .refl _

theorem polledChunks_pollStream (p : ProcessHandle) {j : Nat} (hij : i ≠ j)
    (read read' : List (List UInt8) × Bool) :
    (p.pollStream i read).polledChunks j read' = p.polledChunks j read' := by
  rw [pollStream]
  split
  · rw [polledChunks, polledChunks]
    simp only [Function.update_of_ne hij.symm]
  · rfl

theorem pollStream_config (p : ProcessHandle) (i : Nat) (read : List (List UInt8) × Bool) :
    (p.pollStream i read).config = p.config := (pollStream_kept p i read {}).config

end ProcessHandle

theorem Kept.trans (h : Kept p q) (h' : Kept q r) : Kept p r where
  config := h'.config.trans h.config
  hasProcess := h'.hasProcess.trans h.hasProcess
  ready := h'.ready.trans h.ready
  generation := h'.generation.trans h.generation
  lastPid := h'.lastPid.trans h.lastPid
  logTail := h'.logTail.trans h.logTail
  hasLastExit := h'.hasLastExit.trans h.hasLastExit
  lastExitCode := h'.lastExitCode.trans h.lastExitCode
  completionAction := h'.completionAction.trans h.completionAction
  terminating := h'.terminating.trans h.terminating
  restartPending := h'.restartPending.trans h.restartPending
  restartDueMs := h'.restartDueMs.trans h.restartDueMs
  restartState := h'.restartState.trans h.restartState

namespace Daemon

theorem ranges_pollProgramLog (ω : System) (s : Daemon) (name : String) :
    Ranges s (s.pollProgramLog ω name) := by
  rw [pollProgramLog]
  cases hp : s.find name with
  | none => exact .refl s
  | some p =>
    simp only
    generalize ω.readPipe s.ticks name = read
    have hconfig : ∀ p : ProcessHandle,
        ((p.pollStream 0 (read 0)).pollStream 1 (read 1)).config = p.config := by
      intro p
      rw [ProcessHandle.pollStream_config, ProcessHandle.pollStream_config]
    have hkept : Kept p
        { (p.pollStream 0 (read 0)).pollStream 1 (read 1) with logTail := p.logTail } :=
      (p.pollStream_kept 0 (read 0) p.logTail).trans
        ((p.pollStream 0 (read 0)).pollStream_kept 1 (read 1) p.logTail)
    have htail : ((p.pollStream 0 (read 0)).pollStream 1 (read 1)).logTail =
        (p.polledChunks 0 (read 0) ++ p.polledChunks 1 (read 1)).foldl BoundedLogTail.append
          p.logTail := by
      rw [ProcessHandle.pollStream_logTail, ProcessHandle.pollStream_logTail,
        ProcessHandle.polledChunks_pollStream p (by decide), List.foldl_append]
    generalize p.polledChunks 0 (read 0) ++ p.polledChunks 1 (read 1) = chunks at htail
    have hdeleting : ((p.pollStream 0 (read 0)).pollStream 1 (read 1)).completionAction =
        p.completionAction := hkept.completionAction
    split
    · rename_i hempty
      rw [List.isEmpty_iff.1 hempty] at htail
      refine ranges_edit hconfig fun p' hp' => ?_
      obtain rfl := Option.some.inj (hp.symm.trans hp')
      rw [List.foldl_nil] at htail
      rw [← htail] at hkept
      exact hkept
    · have hwithin : Within (s.record (.appended name p.generation chunks.flatten))
          ((s.record (.appended name p.generation chunks.flatten)).setProcess name fun p =>
            (p.pollStream 0 (read 0)).pollStream 1 (read 1)) :=
        .setProcess hconfig
          (fun p' hp' ha => by
            obtain rfl := Option.some.inj (hp.symm.trans hp')
            exact hdeleting ▸ ha)
          fun p' hp' hlive => by
            obtain rfl := Option.some.inj (hp.symm.trans hp')
            exact hkept.hasProcess.trans hlive
      refine ⟨fun hd => ⟨?_, Distinct.setProcess (s := s.record _) hd hconfig⟩,
        (within_record rfl s).trans hwithin⟩
      refine (Move.append hp hkept chunks ?_).moves
      have hputs : s.Puts _ name _ := puts_setProcess hp hconfig
      simp only at hputs ⊢
      rw [← htail]
      exact hputs

theorem pollProgramLog_queue (ω : System) (s : Daemon) (name : String) :
    (s.pollProgramLog ω name).launchQueue = s.launchQueue := by
  rw [pollProgramLog]
  cases s.find name with
  | none => rfl
  | some p =>
    simp only
    split
    · rfl
    · rfl

theorem pollProgramLog_ticks (ω : System) (s : Daemon) (name : String) :
    (s.pollProgramLog ω name).ticks = s.ticks := by
  rw [pollProgramLog]
  cases s.find name with
  | none => rfl
  | some p =>
    simp only
    split
    · rfl
    · rfl

theorem pollProgramLog_find (hp : s.find name = some p) :
    ∃ p', (s.pollProgramLog ω name).find name = some p' ∧
      Kept p { p' with logTail := p.logTail } := by
  rw [pollProgramLog, hp]
  simp only
  generalize ω.readPipe s.ticks name = read
  have hconfig : ∀ p : ProcessHandle,
      ((p.pollStream 0 (read 0)).pollStream 1 (read 1)).config = p.config := by
    intro p
    rw [ProcessHandle.pollStream_config, ProcessHandle.pollStream_config]
  refine ⟨(p.pollStream 0 (read 0)).pollStream 1 (read 1), ?_,
    (p.pollStream_kept 0 (read 0) p.logTail).trans
      ((p.pollStream 0 (read 0)).pollStream_kept 1 (read 1) p.logTail)⟩
  split
  · exact find_setProcess_self hp hconfig
  · exact find_setProcess_self (s := s.record _) hp hconfig

theorem puts_twice {g : ProcessHandle → ProcessHandle} (hp : s.find n = some p)
    (hf : ∀ p, (f p).config = p.config) (hg : ∀ p, (g p).config = p.config) :
    s.Puts ((s.setProcess n f).setProcess n g).processes n (some (g (f p))) := by
  have hputs := puts_setProcess (find_setProcess_self hp hf) hg
  rw [Puts, find_setProcess hp hf, Function.update_idem] at hputs
  exact hputs

theorem puts_thrice {g h : ProcessHandle → ProcessHandle} (hp : s.find n = some p)
    (hf : ∀ p, (f p).config = p.config) (hg : ∀ p, (g p).config = p.config)
    (hh : ∀ p, (h p).config = p.config) :
    s.Puts (((s.setProcess n f).setProcess n g).setProcess n h).processes n
      (some (h (g (f p)))) := by
  have hputs := puts_twice (find_setProcess_self hp hf) hg hh
  rw [Puts, find_setProcess hp hf, Function.update_idem] at hputs
  exact hputs

theorem config_prepared (site : LaunchSite) (p : ProcessHandle) :
    (p.prepared site).config = p.config := by
  cases site with
  | dependency => rfl
  | due nowMs => rfl

theorem launchProgram_error (hp : s.find n = some p)
    (h : ω.launch s.ticks p.config = .error error) :
    s.launchProgram ω n = (.error error, (s.setProcess n (·.reset)).tick) := by
  rw [launchProgram, hp]
  simp only [h]

theorem launchProgram_ok (hp : s.find n = some p) (h : ω.launch s.ticks p.config = .ok pid) :
    s.launchProgram ω n = (.ok (), { ((s.setProcess n (·.reset)).tick).setProcess n
      (·.launched pid s.nextGeneration (ω.clock s.ticks)) with
        nextGeneration := s.nextGeneration + 1 }) := by
  rw [launchProgram, hp]
  simp only [h]

theorem attemptLaunch_error {site : LaunchSite} (hp : s.find n = some p)
    (h : ω.launch s.ticks p.config = .error error) :
    s.attemptLaunch ω n site = (.error error, ((((s.record (.launchProgram n site
      (.error error))).setProcess n (·.prepared site)).setProcess n (·.reset)).tick).markFailed
        n) := by
  have hfind : ((s.record (.launchProgram n site (.error error))).setProcess n
      (·.prepared site)).find n = some (p.prepared site) :=
    find_setProcess_self (s := s.record _) hp (config_prepared site)
  rw [attemptLaunch, hp]
  simp only [h]
  rw [launchProgram_error hfind (by rw [config_prepared]; exact h)]

theorem attemptLaunch_ok {site : LaunchSite} (hp : s.find n = some p)
    (h : ω.launch s.ticks p.config = .ok pid) :
    s.attemptLaunch ω n site = (.ok (), Daemon.markStarting { (((((s.record (.launchProgram n site
      (.ok pid))).setProcess n (·.prepared site)).setProcess n (·.reset)).tick).setProcess n
        (·.launched pid s.nextGeneration (ω.clock s.ticks))) with
          nextGeneration := s.nextGeneration + 1 } n) := by
  have hfind : ((s.record (.launchProgram n site (.ok pid))).setProcess n
      (·.prepared site)).find n = some (p.prepared site) :=
    find_setProcess_self (s := s.record _) hp (config_prepared site)
  rw [attemptLaunch, hp]
  simp only [h]
  rw [launchProgram_ok hfind (by rw [config_prepared]; exact h)]
  rfl

/-- A started program has its process, and its definition as before. -/
def Launched (s : Daemon) (n : String) (p : ProcessHandle) : Prop :=
  ∃ p', s.find n = some p' ∧ p'.config = p.config ∧ p'.hasProcess = true

theorem ranges_attemptLaunch {site : LaunchSite} {rest : List String} (hp : s.find name = some p)
    (hidle : p.hasProcess = false) (hsite : site.Admits s.toCore p rest) :
    Ranges s ({ s with launchQueue := rest }.attemptLaunch ω name site).2 ∧
      ((({ s with launchQueue := rest } : Daemon).attemptLaunch ω name site).1 = .ok () →
        ({ s with launchQueue := rest }.attemptLaunch ω name site).2.Launched name p) := by
  have hp' : ({ s with launchQueue := rest } : Daemon).find name = some p := hp
  have hconfig := config_prepared site
  have hreset : ∀ p : ProcessHandle, p.reset.config = p.config := fun _ => rfl
  cases houtcome : ω.launch s.ticks p.config with
  | error error =>
    rw [attemptLaunch_error hp' houtcome]
    have hputs : s.Puts _ name _ := puts_twice hp hconfig hreset
    refine ⟨⟨fun hd => ⟨?_, ?_⟩, ?_⟩, fun h => by cases h⟩
    · exact (Move.refused (e := error) hp hidle hsite hputs).moves.tail
        (.outside rfl rfl rfl rfl fun _ h => h)
    · exact (hd.setProcess (n := name) hconfig).setProcess (n := name) hreset
    · exact .of_puts hp hputs (hconfig p) (fun h => by cases h)
        (fun hlive => absurd (hidle.symm.trans hlive) (by decide)) rfl rfl rfl rfl rfl rfl rfl
        (.one rfl rfl)
  | ok pid =>
    rw [attemptLaunch_ok hp' houtcome]
    have hlaunched : ∀ p : ProcessHandle,
        (p.launched pid s.nextGeneration (ω.clock s.ticks)).config = p.config := fun _ => rfl
    have hputs : s.Puts _ name _ := puts_thrice hp hconfig hreset hlaunched
    refine ⟨⟨fun hd => ⟨?_, ?_⟩, ?_⟩, fun _ => ?_⟩
    · exact (Move.started hp hidle hsite hputs).moves.tail (.outside rfl rfl rfl rfl fun _ h => h)
    · exact ((hd.setProcess (n := name) hconfig).setProcess (n := name) hreset).setProcess
        (n := name) hlaunched
    · exact .of_puts hp hputs (hconfig p) (fun h => by cases h) (fun _ => rfl) rfl rfl rfl rfl rfl
        rfl rfl (.one rfl rfl)
    · have hfind := congrFun hputs name
      rw [Function.update_self] at hfind
      exact ⟨_, hfind, hconfig p, rfl⟩

theorem ranges_markReady (hp : s.find name = some p) (hlive : p.hasProcess = true)
    (hf : ∀ p, (f p).config = p.config) (hk : ∀ p, Kept p { f p with ready := p.ready })
    (hready : ∀ p, (f p).ready = true) :
    Ranges s ((s.setProcess name f).startOperation (.markReady name)) := by
  have hputs := puts_setProcess hp hf
  have hfind := find_setProcess_self hp hf
  have hset : ({ { f p with ready := p.ready } with ready := true } : ProcessHandle) = f p := by
    rw [← hready p]
  have hmove : Move s (s.setProcess name f) := .setReady hp hlive (hk p) (hset ▸ hputs)
  have hstart :
    Move (s.setProcess name f) ((s.setProcess name f).startOperation (.markReady name)) := by
    refine .start _ (fun n hn => ?_) (fun n hn => by cases hn)
    cases hn
    exact ⟨f p, hfind, (hk p).hasProcess.trans hlive, hready p⟩
  refine ⟨fun hd => ⟨hmove.moves.tail hstart, hd.setProcess hf⟩, ?_⟩
  have hwithin : Within s (s.setProcess name f) := .setProcess hf
    (fun p _ ha => (hk p).completionAction.symm.trans ha)
    fun p _ hlive => (hk p).hasProcess.trans hlive
  exact hwithin.trans (.of_same rfl rfl rfl rfl rfl rfl rfl (.one rfl rfl) rfl)

theorem ranges_launchNext (hqueue : s.launchQueue = name :: rest) (failures : List String) :
    Ranges s (s.launchNext ω name rest failures).1 := by
  have hskip : Ranges s { s with launchQueue := rest } := by
    refine ⟨.move (.dequeue rest fun n hn => ?_) rfl,
      .of_same rfl rfl rfl rfl rfl rfl rfl (.none rfl) rfl⟩
    rw [hqueue]
    exact List.mem_cons_of_mem _ hn
  rw [launchNext]
  cases hp : s.find name with
  | none => exact hskip
  | some p =>
    simp only
    cases hlive : p.hasProcess with
    | true => exact hskip
    | false =>
      simp only [Bool.false_eq_true, if_false]
      obtain ⟨p', hp', hk⟩ := pollProgramLog_find (ω := ω) hp
      have hadmits : LaunchSite.dependency.Admits (s.pollProgramLog ω name).toCore p' rest := by
        rw [LaunchSite.Admits, pollProgramLog_queue, hqueue, find_name hp']
      obtain ⟨hranges, hlaunched⟩ :=
        ranges_attemptLaunch (ω := ω) hp' (hk.hasProcess.trans hlive) hadmits
      have hall := (ranges_pollProgramLog ω s name).trans hranges
      generalize Daemon.attemptLaunch ω { s.pollProgramLog ω name with launchQueue := rest } name
        .dependency = result at hall hlaunched ⊢
      obtain ⟨outcome, s₁⟩ := result
      cases outcome with
      | error error => exact hall
      | ok =>
        simp only at hall hlaunched ⊢
        split
        · obtain ⟨q, hq, -, hqlive⟩ := hlaunched trivial
          exact hall.trans
            (ranges_markReady hq hqlive (fun _ => rfl) (fun p => .refl p) fun _ => rfl)
        · exact hall

theorem ranges_launchAll (ω : System) (fuel : Nat) (s : Daemon) (failures : List String) :
    Ranges s (s.launchAll ω fuel failures).1 := by
  induction fuel generalizing s failures with
  | zero => exact .refl s
  | succ fuel ih =>
    rw [launchAll]
    cases hqueue : s.launchQueue with
    | nil => exact .refl s
    | cons name rest => exact (ranges_launchNext hqueue failures).trans (ih _ _)

theorem ranges_schedule (ω : System) (s : Daemon) :
    Ranges s (s.scheduleDependencyLaunch ω).1 ∧
      (s.scheduleDependencyLaunch ω).1.launchQueue = [] := by
  refine ⟨(ranges_launchAll ω _ s []).trans ⟨.move (.dequeue [] fun n hn => ?_) rfl,
    .of_same rfl rfl rfl rfl rfl rfl rfl (.none rfl) rfl⟩, rfl⟩
  exact absurd hn List.not_mem_nil

end Daemon

namespace TerminationJob

theorem request_phase (job : TerminationJob) (generation : Nat) (nowMs timeoutSec : Int) :
    (job.request generation nowMs timeoutSec).2.phase ≠ .none := by
  rw [TerminationJob.request]
  split
  · rename_i h
    exact h.1
  · simp

theorem force_phase (job : TerminationJob) (generation : Nat) (h : job.phase ≠ .none) :
    (job.force generation).2.phase ≠ .none := by
  rw [TerminationJob.force]
  split
  · exact h
  · simp

theorem poll_phase (job : TerminationJob) (generation : Nat) (nowMs : Int) (treeEmpty : Bool) :
    (job.poll generation nowMs treeEmpty).2.phase = .none ↔ job.phase = .none := by
  rw [TerminationJob.poll]
  repeat' split
  all_goals grind

end TerminationJob

namespace Daemon

/-- Nothing of the programs changes but their records. -/
structure Records (s s' : Daemon) : Prop where
  core : ∃ ps, s'.toCore = { s.toCore with processes := ps }
  history : Adds (fun e => e.call.creates = false) s s'

theorem Records.refl (s : Daemon) : Records s s := ⟨⟨s.processes, rfl⟩, .none rfl⟩

theorem Records.trans (h : Records s s') (h' : Records s' s'') : Records s s'' := by
  obtain ⟨⟨ps, hps⟩, hh⟩ := h
  obtain ⟨⟨ps', hps'⟩, hh'⟩ := h'
  refine ⟨⟨ps', ?_⟩, hh.trans hh'⟩
  rw [hps', hps]

theorem records_setProcess (s : Daemon) (n : String) (f : ProcessHandle → ProcessHandle) :
    Records s (s.setProcess n f) := ⟨⟨_, rfl⟩, .none rfl⟩

theorem records_record {call : Call} (h : call.creates = false) (s : Daemon) :
    Records s (s.record call) := ⟨⟨s.processes, rfl⟩, .one rfl h⟩

theorem records_tick (s : Daemon) : Records s s.tick := ⟨⟨s.processes, rfl⟩, .none rfl⟩

def Ending (s : Daemon) (n : String) (action : CompletionAction) : Prop :=
  ∃ p, s.find n = some p ∧ p.hasProcess = true ∧ p.completionAction = action ∧
    p.termination.phase ≠ .none

theorem requestProgramTermination_spec (action : CompletionAction) (code : Nat)
    (hr : ∀ p, s.find n = some p → TerminateReason s.toCore p action) :
    Goes s (s.requestProgramTermination ω n action code).2 ∧
      Records s (s.requestProgramTermination ω n action code).2 ∧
      ((s.find n).any (·.hasProcess) = true →
        (s.requestProgramTermination ω n action code).2.Ending n action) := by
  rw [requestProgramTermination]
  cases hp : s.find n with
  | none => exact ⟨.refl s, .refl s, fun h => by cases h⟩
  | some p =>
    simp only
    cases hlive : p.hasProcess with
    | false => exact ⟨.refl s, .refl s, fun h => by simp [hlive] at h⟩
    | true =>
      simp only [Bool.not_true, Bool.false_eq_true, if_false]
      have hphase := TerminationJob.request_phase p.termination p.generation (ω.clock s.ticks)
        p.config.killTimeoutS.toInt
      generalize p.termination.request p.generation (ω.clock s.ticks) p.config.killTimeoutS.toInt =
        answer at hphase ⊢
      obtain ⟨toSend, job⟩ := answer
      simp only at hphase ⊢
      have hconfig : ∀ p : ProcessHandle, ({ p with
          completionAction := action, terminationExitCode := code, termination := job } :
            ProcessHandle).config = p.config := fun _ => rfl
      have hputs := puts_setProcess hp hconfig
      have hfind := find_setProcess_self hp hconfig
      have hkept : Kept p { p with terminationExitCode := code } :=
        ⟨rfl, rfl, rfl, rfl, rfl, rfl, rfl, rfl, rfl, .rfl, rfl, rfl, rfl⟩
      have hgoes : Goes s ((s.record (.terminate n action)).setProcess n fun p => { p with
          completionAction := action, terminationExitCode := code, termination :=
            job }) := fun hd =>
        ⟨(Move.terminate hp hlive (hr p hp) hkept job hphase hputs).moves, hd.setProcess hconfig⟩
      have hrecords : Records s ((s.record (.terminate n action)).setProcess n fun p => { p with
          completionAction := action, terminationExitCode := code, termination := job }) :=
        (records_record rfl s).trans (records_setProcess _ n _)
      have hend : ((s.record (.terminate n action)).setProcess n fun p => { p with
          completionAction := action, terminationExitCode := code, termination := job }).Ending n
            action := ⟨_, hfind, hlive, rfl, hphase⟩
      generalize (s.record (.terminate n action)).setProcess n (fun p => { p with
          completionAction := action, terminationExitCode := code, termination := job }) =
        requested at hgoes hrecords hend ⊢
      have hticked : Goes s requested.tick ∧ Records s requested.tick ∧
          (Option.any (·.hasProcess) (some p) = true → requested.tick.Ending n action) :=
        ⟨hgoes.trans (goes_tick _), hrecords.trans (records_tick _), fun _ => hend⟩
      split
      · exact hticked
      · cases ω.ctrlBreak s.ticks p.processId with
        | ok => exact hticked
        | error error =>
          obtain ⟨q, hq, hqlive, hqaction, hqphase⟩ := hend
          have hforce : ∀ p : ProcessHandle, ({ p with
              termination := (p.termination.force p.generation).2 } : ProcessHandle).config =
                p.config := fun _ => rfl
          have hforced : Goes requested (requested.setProcess n fun p => { p with
              termination := (p.termination.force p.generation).2 }) := by
            refine goes_edit hforce fun p' hp' => ?_
            obtain rfl := Option.some.inj (hq.symm.trans hp')
            exact ⟨rfl, rfl, rfl, rfl, rfl, rfl, rfl, rfl, rfl,
              ⟨fun h => absurd h (TerminationJob.force_phase _ _ hqphase), fun h =>
                absurd h hqphase⟩,
              rfl, rfl, rfl⟩
          have hall : Goes s (requested.setProcess n fun p => { p with
              termination := (p.termination.force p.generation).2 }).tick.tick ∧
              Records s (requested.setProcess n fun p => { p with
                termination := (p.termination.force p.generation).2 }).tick.tick ∧
              (Option.any (·.hasProcess) (some p) = true → (requested.setProcess n fun p => { p with
                termination := (p.termination.force p.generation).2 }).tick.tick.Ending n action) :=
            ⟨((hgoes.trans hforced).trans (goes_tick _)).trans (goes_tick _),
              ((hrecords.trans (records_setProcess _ n _)).trans (records_tick _)).trans
                (records_tick _), fun _ => ⟨_, find_setProcess_self hq hforce, hqlive, hqaction,
                  TerminationJob.force_phase _ _ hqphase⟩⟩
          simp only
          split
          · exact hall
          · exact hall

theorem pollProgramTermination_spec (ω : System) (s : Daemon) (n : String) (nowMs : Int) :
    Ranges s (s.pollProgramTermination ω n nowMs).2 ∧
      Records s (s.pollProgramTermination ω n nowMs).2 ∧
      ∀ p, s.find n = some p → ∃ p', (s.pollProgramTermination ω n nowMs).2.find n = some p' ∧
        Kept p p' := by
  rw [pollProgramTermination]
  cases hp : s.find n with
  | none => exact ⟨.refl s, .refl s, fun p hp' => by cases hp'⟩
  | some p =>
    simp only
    cases ω.activeProcesses s.ticks n p.generation with
    | error error =>
      refine ⟨ranges_tick s, records_tick s, fun p' hp' => ?_⟩
      obtain rfl := Option.some.inj hp'
      exact ⟨p, hp, .refl p⟩
    | ok active =>
      simp only
      have hphase := TerminationJob.poll_phase p.termination p.generation nowMs (active = 0)
      generalize p.termination.poll p.generation nowMs (active = 0) = answer at hphase ⊢
      obtain ⟨toSend, job⟩ := answer
      simp only at hphase ⊢
      have hconfig : ∀ p : ProcessHandle,
          ({ p with termination := job } : ProcessHandle).config = p.config := fun _ => rfl
      have hkept : Kept p { p with termination := job } :=
        ⟨rfl, rfl, rfl, rfl, rfl, rfl, rfl, rfl, rfl, hphase, rfl, rfl, rfl⟩
      have hranges : Ranges s (s.setProcess n fun p => { p with termination := job }).tick := by
        refine (ranges_edit hconfig fun p' hp' => ?_).trans (ranges_tick _)
        obtain rfl := Option.some.inj (hp.symm.trans hp')
        exact hkept
      have hrecords : Records s (s.setProcess n fun p => { p with termination := job }).tick :=
        (records_setProcess s n _).trans (records_tick _)
      have hfind : ∀ p', some p = some p' → ∃ p'',
          (s.setProcess n fun p => { p with termination := job }).tick.find n = some p'' ∧
            Kept p' p'' := by
        intro p' hp'
        obtain rfl := Option.some.inj hp'
        exact ⟨_, find_setProcess_self hp hconfig, hkept⟩
      split
      · exact ⟨hranges, hrecords, hfind⟩
      · have hlater : Ranges s (s.setProcess n fun p => { p with termination := job }).tick.tick ∧
            Records s (s.setProcess n fun p => { p with termination := job }).tick.tick ∧ _ :=
          ⟨hranges.trans (ranges_tick _), hrecords.trans (records_tick _), hfind⟩
        split
        · exact hlater
        · exact hlater

end Daemon
end PmTiny.Windows
