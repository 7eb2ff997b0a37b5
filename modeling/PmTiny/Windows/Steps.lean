import PmTiny.Windows.Tracing

namespace PmTiny.Windows
set_option autoImplicit true

variable {s s' s'' : Daemon} {ω : System} {n name : String} {p q : ProcessHandle} {m : Message}
  {f : ProcessHandle → ProcessHandle}

theorem findConfig_insert (m : String) (cfg : ProgramConfig) (l : List ProgramConfig) :
    findConfig m (insertConfig cfg l) = if m = cfg.name then some cfg else findConfig m l := by
  induction l with
  | nil =>
    rw [insertConfig, findConfig, Keyed.find_cons]
    by_cases h : m = cfg.name
    · rw [if_pos h.symm, if_pos h]
    · rw [if_neg fun he => h he.symm, if_neg h, findConfig]
  | cons entry entries ih =>
    rw [findConfig] at ih
    rw [insertConfig, findConfig, findConfig]
    split
    · rename_i he
      rw [Keyed.find_cons, Keyed.find_cons, ← he]
      by_cases h : m = cfg.name
      · rw [if_pos h.symm, if_pos h]
      · rw [if_neg fun he => h he.symm, if_neg h, if_neg fun he => h he.symm]
    · rename_i hne
      split
      · rw [Keyed.find_cons]
        by_cases h : m = cfg.name
        · rw [if_pos h.symm, if_pos h]
        · rw [if_neg fun he => h he.symm, if_neg h]
      · rw [Keyed.find_cons, ih, Keyed.find_cons]
        by_cases h : m = cfg.name
        · rw [if_pos h, if_pos h, if_neg fun he => hne (he.trans h).symm]
        · rw [if_neg h, if_neg h, findConfig]

theorem findConfig_erase (m n : String) (l : List ProgramConfig) :
    findConfig m (eraseConfig n l) = if m = n then none else findConfig m l := by
  split
  · rename_i h
    rw [h]
    exact Keyed.find_remove_self
  · rename_i h
    exact Keyed.find_remove_ne h

theorem findConfig_isSome (m : String) (l : List ProgramConfig) :
    (findConfig m l).isSome = true ↔ m ∈ l.map Persist.ProgCfg.name := by
  rw [Option.isSome_iff_exists]
  exact Keyed.find_isSome

theorem build_ok {configs : List ProgramConfig} {graph : DependencyGraph}
    (h : buildDependencies configs = .ok graph) :
    graph.names = configs.map Persist.ProgCfg.name ∧ (configs.map Persist.ProgCfg.name).Nodup := by
  rw [buildDependencies] at h
  cases hb : DependencyGraph.build (configs.map Persist.ProgCfg.dependencyNode) with
  | error e =>
    rw [hb] at h
    cases h
  | ok g =>
    rw [hb] at h
    obtain rfl : g = graph := by cases h; rfl
    have hnames := DependencyGraph.build_names hb
    rw [List.map_map] at hnames
    exact ⟨hnames, hnames ▸ g.names_nodup⟩

theorem refreshReady_ready {graph : DependencyGraph} {rt : DependencyRuntime} {m : String}
    {ps : List ProcessHandle} (h : (refreshReady graph ps rt).state graph m = .ready) :
    rt.state graph m = .ready ∨ ∃ p ∈ ps, p.name = m ∧ p.up = true := by
  induction ps generalizing rt with
  | nil => exact .inl h
  | cons p ps ih =>
    rw [refreshReady, List.foldl_cons, ← refreshReady] at h
    rcases ih h with h | ⟨p', hp', hm, hup⟩
    · split at h
      · rename_i hup
        rcases DependencyRuntime.ready_markReady.1 h with h | ⟨hm, -⟩
        · exact .inl h
        · exact .inr ⟨p, List.mem_cons_self, hm.symm, hup⟩
      · exact .inl h
    · exact .inr ⟨p', List.mem_cons_of_mem _ hp', hm, hup⟩

theorem consistent_refreshReady {rt : DependencyRuntime} (hc : rt.Consistent)
    (graph : DependencyGraph) (ps : List ProcessHandle) :
    (refreshReady graph ps rt).Consistent := by
  induction ps generalizing rt with
  | nil => exact hc
  | cons p ps ih =>
    rw [refreshReady, List.foldl_cons, ← refreshReady]
    apply ih
    split
    · exact hc.markReady graph p.name
    · exact hc

namespace Daemon

theorem rebuilt_migrate (s : Daemon) (graph : DependencyGraph) : Rebuilt s.toCore graph
    (.migrate graph (s.dependencies.snapshot s.graph)) := by
  refine ⟨fun m hm => ?_, fun hc => hc.migrate s.graph graph⟩
  rw [DependencyRuntime.state_migrate] at hm
  split at hm
  · exact .inl hm
  · cases hm

theorem Rebuilt.refresh {graph : DependencyGraph} {rt : DependencyRuntime}
    (h : Rebuilt s.toCore graph rt) (hd : s.Distinct) :
    Rebuilt s.toCore graph (refreshReady graph s.processes rt) := by
  refine ⟨fun m hm => ?_, fun hc => consistent_refreshReady (h.consistent hc) graph s.processes⟩
  rcases refreshReady_ready hm with hm | ⟨p, hp, rfl, hup⟩
  · exact h.ready m hm
  · exact .inr ⟨p, hd.find hp, hup⟩

theorem rebuilt_refl (s : Daemon) : Rebuilt s.toCore s.graph s.dependencies :=
  ⟨fun _ h => .inl h, fun hc => hc⟩

/-- A sequence of moves from and to a state with an empty worklist; the request that is being
handled and the planned timeouts stay. -/
def Passes (s s' : Daemon) : Prop :=
  s.launchQueue = [] → Goes s s' ∧ s'.launchQueue = [] ∧ s'.request = s.request ∧
    s'.timeouts = s.timeouts

theorem Passes.refl (s : Daemon) : Passes s s := fun hq => ⟨.refl s, hq, rfl, rfl⟩

theorem Passes.trans (h : Passes s s') (h' : Passes s' s'') : Passes s s'' := by
  intro hq
  obtain ⟨hg, hq, hr, ht⟩ := h hq
  obtain ⟨hg', hq, hr', ht'⟩ := h' hq
  exact ⟨hg.trans hg', hq, hr'.trans hr, ht'.trans ht⟩

theorem Passes.foldl {α : Type} {g : Daemon → α → Daemon} (h : ∀ s a, Passes s (g s a)) (l : List α)
    (s : Daemon) : Passes s (l.foldl g s) := by
  induction l generalizing s with
  | nil => exact .refl s
  | cons a l ih => exact (h s a).trans (ih _)

theorem Passes.records (hg : Goes s s') (h : Records s s') : Passes s s' := by
  intro hq
  obtain ⟨⟨ps, hps⟩, -⟩ := h
  refine ⟨hg, ?_, ?_, ?_⟩
  · rw [hps]
    exact hq
  · rw [hps]
  · rw [hps]

theorem Ranges.passes (h : Ranges s s') (hq : s'.launchQueue = s.launchQueue) : Passes s s' :=
  fun hqueue => ⟨h.1, hq.trans hqueue, h.2.request, h.2.timeouts⟩

theorem Passes.same (hg : Goes s s') (hcore : s'.toCore = s.toCore) : Passes s s' := by
  intro hq
  rw [hcore]
  exact ⟨hg, hq, rfl, rfl⟩

theorem passes_outside (hcore : s'.toCore = s.toCore) (hstreams : s'.logStreams = s.logStreams)
    (hnext : s'.nextStream = s.nextStream) (hhistory : s'.history = s.history)
    (hclosed : ∀ id ∈ s.closed, id ∈ s'.closed) : Passes s s' :=
  .same (.outside hcore hstreams hnext hhistory hclosed) hcore

theorem passes_tick (s : Daemon) : Passes s s.tick := passes_outside rfl rfl rfl rfl fun _ h => h

theorem passes_edit (hf : ∀ p, (f p).config = p.config)
    (hk : ∀ p, s.find n = some p → Kept p (f p)) : Passes s (s.setProcess n f) :=
  .records (goes_edit hf hk) (records_setProcess s n f)

theorem send_core (ω : System) (s : Daemon) (session : Nat) (call : Call) :
    (s.send ω session call).toCore = s.toCore := by
  rw [send]
  split
  · rfl
  · split
    · rfl
    · rfl

theorem send_streams (ω : System) (s : Daemon) (session : Nat) (call : Call) :
    (s.send ω session call).logStreams = s.logStreams ∧
      (s.send ω session call).nextStream = s.nextStream := by
  rw [send]
  split
  · exact ⟨rfl, rfl⟩
  · split
    · exact ⟨rfl, rfl⟩
    · exact ⟨rfl, rfl⟩

theorem passes_send {call : Call} (hsilent : call.silent = true) (hreply : call.stream? = none)
    (ω : System) (s : Daemon) (session : Nat) : Passes s (s.send ω session call) := by
  refine .same ?_ (send_core ω s session call)
  rw [send]
  split
  · exact .refl s
  · split
    · exact .outside rfl rfl rfl rfl fun _ h => List.mem_cons_of_mem _ h
    · exact (goes_tick s).trans (.move (.note call hsilent hreply) rfl)

theorem passes_reply (ω : System) (s : Daemon) (m : Message) (status : Int) (message : String)
    (body : ReplyBody) : Passes s (s.reply ω m status message body) := passes_send rfl rfl ω s _

theorem passes_fail (ω : System) (s : Daemon) (m : Message) (error : String) :
    Passes s (s.fail ω m error) := passes_reply ω s m _ _ _

theorem passes_stream (h : StreamMove s s') (hcore : s'.toCore = s.toCore) : Passes s s' :=
  .same (.move (.stream h) (by rw [hcore])) hcore

theorem passes_beginLogStream (ω : System) (s : Daemon) (m : Message) (name : String)
    (followProcess : Bool) (mode : LogRequestMode) :
    Passes s (s.beginLogStream ω m name followProcess mode) := by
  rw [beginLogStream]
  split
  · exact passes_fail ω s m _
  · exact passes_fail ω s m _
  · rename_i p _ hp
    split
    · exact passes_fail ω s m _
    · split
      · exact passes_fail ω s m _
      · split
        · exact passes_fail ω s m _
        · simp only
          generalize hanswered :
            (if m.request.isLog = true ∧ (mode = .history ∨ p.hasProcess = true) then
            s.reply ω m 0 "OK" (.log (logResponse p mode)) else s) = answered
          have hpasses : Passes s answered := by
            rw [← hanswered]
            split
            · exact passes_reply ω s m _ _ _
            · exact .refl s
          have hstreams :
            answered.logStreams = s.logStreams ∧ answered.nextStream = s.nextStream := by
            rw [← hanswered]
            split
            · exact send_streams ω s _ _
            · exact ⟨rfl, rfl⟩
          have hcore : answered.toCore = s.toCore := by
            rw [← hanswered]
            split
            · exact send_core ω s _ _
            · rfl
          rw [← hstreams.1, ← hstreams.2]
          refine hpasses.trans (passes_stream (.opened _ rfl fun _ => ⟨p, ?_, rfl, ?_⟩) rfl)
          · rw [hcore]
            exact hp
          · simp only
            split
            · exact Nat.le_refl _
            · exact Nat.zero_le _

theorem findStream_setStream {st st' : LogStream} (h : s.findStream st.key = some st)
    (hkey : st'.key = st.key) :
    (s.setStream st.key fun _ => st').findStream st'.key = some st' := by
  rw [findStream, setStream, hkey, Keyed.find_update_self fun _ _ => hkey, ← findStream, h]
  rfl

theorem serveStream_core (ω : System) (s : Daemon) (st : LogStream) :
    (s.serveStream ω st).toCore = s.toCore := by
  rw [serveStream]
  split
  · exact send_core ω s _ _
  · simp only
    split
    · exact send_core ω s _ _
    · split
      · rfl
      · exact send_core ω s _ _

theorem find_key {st : LogStream} {key : Nat} (h : s.findStream key = some st) : st.key = key :=
  Keyed.key_of_find h

theorem passes_served (ω : System) {st : LogStream} (hst : s.findStream st.key = some st)
    (h : st.waitingForGeneration = false) :
    Passes s ((s.record (.pollStream st.key st.offset)).serveStream ω st) :=
  passes_stream (.served ω st hst h) (serveStream_core ω _ st)

theorem findStream_congr {key : Nat} (h : s'.logStreams = s.logStreams) :
    s'.findStream key = s.findStream key := by
  rw [findStream, h, findStream]

theorem passes_pollLogStream (ω : System) (s : Daemon) (key : Nat) :
    Passes s (s.pollLogStream ω key) := by
  rw [pollLogStream]
  cases hst : s.findStream key with
  | none => exact .refl s
  | some st =>
    obtain rfl := find_key hst
    simp only
    split
    · rename_i hclosed
      exact passes_stream (.dropped st hst (.inl (by simpa using hclosed))) rfl
    · split
      · rename_i hwaiting
        -- A wait that ends without a new generation is answered and forgotten.
        have hforget : ∀ error, Passes s ((s.fail ω ⟨st.session, st.requestId, st.request⟩
            error).eraseStream st.key) := by
          intro error
          refine (passes_fail ω s _ error).trans
            (passes_stream (.dropped st ?_ (.inr hwaiting)) rfl)
          rw [fail, reply, findStream_congr (send_streams ω s _ _).1]
          exact hst
        split
        · rename_i p hp
          split
          · generalize hanswered : (if st.request.isLog = true then
              s.reply ω ⟨st.session, st.requestId, st.request⟩ 0 "OK" (.log (liveLogResponse p))
              else s) = answered
            have hpasses : Passes s answered := by
              rw [← hanswered]
              split
              · exact passes_reply ω s _ _ _ _
              · exact .refl s
            have hfind : answered.findStream st.key = some st := by
              rw [← hanswered]
              split
              · rw [reply, findStream_congr (send_streams ω s _ _).1]
                exact hst
              · exact hst
            have hcore : answered.toCore = s.toCore := by
              rw [← hanswered]
              split
              · exact send_core ω s _ _
              · rfl
            have hbound : Passes answered (((answered.setStream st.key fun _ => st.bind p).record
                (.pollStream st.key (st.bind p).offset)).serveStream ω (st.bind p)) := by
              refine passes_stream (.bound ω st hfind hwaiting ?_) (serveStream_core ω _ _)
              rw [hcore]
              exact hp
            exact hpasses.trans hbound
          · split
            · exact hforget _
            · exact .refl s
        · split
          · exact hforget _
          · exact .refl s
      · rename_i hwaiting
        exact passes_served ω hst (by simpa using hwaiting)

theorem passes_pollLogStreams (ω : System) (s : Daemon) : Passes s (s.pollLogStreams ω) :=
  .foldl (passes_pollLogStream ω) _ s

theorem passes_pollPendingResponse (ω : System) (saveResult : Option Int) (s : Daemon)
    (r : PendingResponse) : Passes s (s.pollPendingResponse ω saveResult r) := by
  rw [pollPendingResponse]
  split
  · exact .refl s
  · split
    · split
      · exact (passes_reply ω s _ _ _ _).trans (passes_beginLogStream ω _ _ _ _ _)
      · exact passes_reply ω s _ _ _ _
    · split
      · exact passes_fail ω s _ _
      · exact passes_outside rfl rfl rfl rfl fun _ h => h

theorem passes_pollPendingResponses (ω : System) (s : Daemon) :
    Passes s (s.pollPendingResponses ω) := by
  have hpoll : Passes s { s.pollPersistence.2 with pendingResponses := [] } := by
    rw [pollPersistence]
    split
    · exact passes_outside rfl rfl rfl rfl fun _ h => h
    · exact passes_outside rfl rfl rfl rfl fun _ h => h
  exact hpoll.trans (.foldl (passes_pollPendingResponse ω _) _ _)

def Deleting (s s' : Daemon) : Prop := ∀ n p, s'.find n = some p →
  p.completionAction = .deleteConfig → ∃ p', s.find n = some p' ∧
    p'.completionAction = .deleteConfig

theorem Deleting.trans (h : Deleting s s') (h' : Deleting s' s'') : Deleting s s'' := by
  intro n p hp ha
  obtain ⟨p', hp', ha'⟩ := h' n p hp ha
  exact h n p' hp' ha'

/-- What `ensure_process_records` puts in place of a record. -/
def ensured (cfg : ProgramConfig) (record : Option ProcessHandle) : ProcessHandle :=
  record.elim { config := cfg } fun p => { p with config := cfg }

/-- The replacement of a definition, as a change that keeps every name. -/
def redefined (cfg : ProgramConfig) (p : ProcessHandle) : ProcessHandle :=
  if p.name = cfg.name then { p with config := cfg } else p

theorem redefined_name (cfg : ProgramConfig) (p : ProcessHandle) :
    (redefined cfg p).name = p.name := by
  rw [redefined]
  split
  · rename_i h
    exact h.symm
  · rfl

theorem ensureProcessRecord_some {cfg : ProgramConfig} (hp : s.find cfg.name = some p) :
    s.ensureProcessRecord cfg = (s.record (.ensure cfg)).setProcess cfg.name (redefined cfg) := by
  have hcongr : Keyed.update ProcessHandle.name cfg.name (fun p => { p with config := cfg })
      s.processes = Keyed.update ProcessHandle.name cfg.name (redefined cfg) s.processes :=
    Keyed.update_congr fun p hp => (if_pos hp).symm
  rw [ensureProcessRecord, hp]
  simp only [setProcess, record]
  rw [hcongr]

theorem puts_ensureProcessRecord (s : Daemon) (cfg : ProgramConfig) :
    s.Puts (s.ensureProcessRecord cfg).processes cfg.name
      (some (ensured cfg (s.find cfg.name))) := by
  cases hp : s.find cfg.name with
  | none =>
    have hnone : Keyed.find ProcessHandle.name (ProcessHandle.name { config := cfg }) s.processes =
      none := hp
    rw [ensureProcessRecord, hp]
    funext m
    rw [lookup, Keyed.find_append_singleton hnone]
    by_cases hm : m = cfg.name
    · subst hm
      rw [Function.update_self]
      exact if_pos rfl
    · rw [Function.update_of_ne hm]
      exact if_neg fun he => hm he.symm
  | some p =>
    rw [ensureProcessRecord_some hp]
    funext m
    rw [lookup, setProcess, Keyed.find_update (redefined_name cfg)]
    by_cases hm : m = cfg.name
    · subst hm
      rw [if_pos rfl, Function.update_self]
      change (s.find cfg.name).map _ = _
      rw [hp, Option.map_some, redefined, if_pos (find_name hp)]
      rfl
    · rw [if_neg hm, Function.update_of_ne hm]
      rfl

theorem distinct_ensureProcessRecord (cfg : ProgramConfig) (hd : s.Distinct) :
    (s.ensureProcessRecord cfg).Distinct := by
  cases hp : s.find cfg.name with
  | none =>
    have hnone := Keyed.find_eq_none.1 hp
    rw [ensureProcessRecord, hp, Distinct, List.map_append, List.nodup_append]
    refine ⟨hd, List.nodup_singleton _, ?_⟩
    intro a ha b hb
    obtain ⟨p, hp, rfl⟩ := List.mem_map.1 ha
    rw [List.map_singleton, List.mem_singleton] at hb
    rw [hb]
    exact hnone p hp
  | some p =>
    rw [ensureProcessRecord_some hp, Distinct, setProcess,
      Keyed.map_key_update (redefined_name cfg)]
    exact hd

theorem records_ensureProcessRecord (s : Daemon) (cfg : ProgramConfig) :
    Records s (s.ensureProcessRecord cfg) := by
  have hrecord : Records s (s.record (.ensure cfg)) := records_record rfl s
  rw [ensureProcessRecord]
  split
  · exact ⟨⟨_, rfl⟩, hrecord.history⟩
  · exact hrecord.trans (records_setProcess _ _ _)

theorem goes_ensureProcessRecord {cfg : ProgramConfig}
    (hcfg : findConfig cfg.name s.configMap = some cfg) : Goes s (s.ensureProcessRecord cfg) := by
  intro hd
  refine ⟨?_, distinct_ensureProcessRecord cfg hd⟩
  have hmove := Move.ensure cfg hcfg (puts_ensureProcessRecord s cfg)
  rw [ensureProcessRecord] at hmove ⊢
  split at hmove
  · exact hmove.moves
  · exact hmove.moves

theorem deleting_ensureProcessRecord (s : Daemon) (cfg : ProgramConfig) :
    Deleting s (s.ensureProcessRecord cfg) := by
  intro n p hp ha
  have hfind : (s.ensureProcessRecord cfg).find = _ := puts_ensureProcessRecord s cfg
  rw [hfind] at hp
  by_cases hn : n = cfg.name
  · subst hn
    rw [Function.update_self] at hp
    obtain rfl := Option.some.inj hp
    cases hold : s.find cfg.name with
    | none =>
      rw [hold] at ha
      cases ha
    | some p' =>
      rw [hold] at ha
      exact ⟨p', rfl, ha⟩
  · rw [Function.update_of_ne hn] at hp
    exact ⟨p, hp, ha⟩

theorem ensureProcessRecords_spec (configs : List ProgramConfig)
    (h : ∀ cfg ∈ configs, findConfig cfg.name s.configMap = some cfg) :
    Goes s (s.ensureProcessRecords configs) ∧ Records s (s.ensureProcessRecords configs) ∧
      Deleting s (s.ensureProcessRecords configs) := by
  induction configs generalizing s with
  | nil => exact ⟨.refl s, .refl s, fun n p hp ha => ⟨p, hp, ha⟩⟩
  | cons cfg configs ih =>
    have hrecords := records_ensureProcessRecord s cfg
    obtain ⟨ps, hps⟩ := hrecords.core
    obtain ⟨hgoes, hrest, hdeleting⟩ := @ih (s.ensureProcessRecord cfg) (by
      intro cfg' hcfg'
      rw [hps]
      exact h cfg' (List.mem_cons_of_mem _ hcfg'))
    exact ⟨(goes_ensureProcessRecord (h cfg List.mem_cons_self)).trans hgoes, hrecords.trans hrest,
      (deleting_ensureProcessRecord s cfg).trans hdeleting⟩

theorem ensureProcessRecords_last (s : Daemon) (configs : List ProgramConfig)
    (cfg : ProgramConfig) :
    ∃ p, (s.ensureProcessRecords (configs ++ [cfg])).find cfg.name = some p ∧ p.config = cfg := by
  rw [ensureProcessRecords, List.foldl_append]
  have hfind :=
    congrFun (puts_ensureProcessRecord (configs.foldl ensureProcessRecord s) cfg) cfg.name
  rw [Function.update_self] at hfind
  refine ⟨_, hfind, ?_⟩
  rw [ensured]
  cases (configs.foldl ensureProcessRecord s).find cfg.name with
  | none => rfl
  | some p => rfl

theorem ranges_scheduled (ω : System) (operation : StartOperation)
    (hready : ∀ n, operation = .markReady n →
      ∃ p, s.find n = some p ∧ p.hasProcess = true ∧ p.ready = true)
    (hnamed : ∀ n, operation = .requestClosure n → s.Names n) :
    Ranges s ((s.startOperation operation).scheduleDependencyLaunch ω).1 ∧
      ((s.startOperation operation).scheduleDependencyLaunch ω).1.launchQueue = [] := by
  obtain ⟨hranges, hqueue⟩ := ranges_schedule ω (s.startOperation operation)
  have hstart : Ranges s (s.startOperation operation) :=
    ⟨.move (.start operation hready hnamed) rfl,
      .of_same rfl rfl rfl rfl rfl rfl rfl (.one rfl rfl) rfl⟩
  exact ⟨hstart.trans hranges, hqueue⟩

theorem ranges_closure (ω : System) (hn : s.Names n) :
    Ranges s ((s.startOperation (.requestClosure n)).scheduleDependencyLaunch ω).1 ∧
      ((s.startOperation (.requestClosure n)).scheduleDependencyLaunch ω).1.launchQueue = [] := by
  refine ranges_scheduled ω _ (fun m hm => by cases hm) fun m hm => ?_
  cases hm
  exact hn

theorem passes_ready (ω : System) (hp : s.find name = some p) (hlive : p.hasProcess = true)
    (hf : ∀ p, (f p).config = p.config) (hk : ∀ p, Kept p { f p with ready := p.ready })
    (hready : ∀ p, (f p).ready = true) :
    Passes s (((s.setProcess name f).startOperation
      (.markReady name)).scheduleDependencyLaunch ω).1 := by
  intro _
  obtain ⟨hranges, hqueue⟩ :=
    ranges_schedule ω ((s.setProcess name f).startOperation (.markReady name))
  have hall := (ranges_markReady hp hlive hf hk hready).trans hranges
  exact ⟨hall.1, hqueue, hall.2.request, hall.2.timeouts⟩

theorem findConfig_configs {cfg : ProgramConfig} {configMap : List ProgramConfig}
    (hnodup : ((eraseConfig cfg.name configMap ++ [cfg]).map Persist.ProgCfg.name).Nodup) :
    ∀ c ∈ eraseConfig cfg.name configMap ++ [cfg],
      findConfig c.name (insertConfig cfg configMap) = some c := by
  intro c hc
  rw [findConfig_insert]
  rcases List.mem_append.1 hc with hc | hc
  · have hne : c.name ≠ cfg.name := by simpa using (List.mem_filter.1 hc).2
    rw [if_neg hne, ← Keyed.find_of_mem (List.Nodup.of_append_left (List.map_append ▸ hnodup)) hc]
    exact (Keyed.find_remove_ne hne).symm
  · rw [List.mem_singleton] at hc
    rw [hc, if_pos rfl]

theorem mem_configs {cfg : ProgramConfig} {configMap : List ProgramConfig} (m : String) :
    m ∈ (eraseConfig cfg.name configMap ++ [cfg]).map Persist.ProgCfg.name ↔
      (findConfig m (insertConfig cfg configMap)).isSome = true := by
  rw [findConfig_insert, List.map_append, List.mem_append, ← findConfig_isSome, findConfig_erase]
  by_cases hm : m = cfg.name
  · simp [hm]
  · simp [hm]

def Defined (s : Daemon) (cfg : ProgramConfig) : Prop :=
  findConfig cfg.name s.configMap = some cfg ∧ ∃ p, s.find cfg.name = some p ∧ p.config = cfg

theorem Defined.within {cfg : ProgramConfig} (h : s.Defined cfg) (hw : Within s s') :
    s'.Defined cfg := by
  obtain ⟨hcfg, p, hp, hpc⟩ := h
  refine ⟨by rw [hw.configMap]; exact hcfg, ?_⟩
  have hconfig := hw.config cfg.name
  rw [hp, Option.map_some, hpc] at hconfig
  obtain ⟨p', hp', hpc'⟩ := Option.map_eq_some_iff.1 hconfig
  exact ⟨p', hp', hpc'⟩

theorem puts_removeProcess (s : Daemon) (n : String) :
    s.Puts (s.removeProcess n).processes n none := by
  funext m
  by_cases hm : m = n
  · subst hm
    rw [Function.update_self]
    exact Keyed.find_remove_self
  · rw [Function.update_of_ne hm]
    exact Keyed.find_remove_ne hm

theorem Distinct.removeProcess (hd : s.Distinct) (n : String) : (s.removeProcess n).Distinct := by
  rw [Distinct, Daemon.removeProcess, Keyed.map_key_remove]
  exact hd.filter _

theorem passes_removeProcess (hn : s.Names n) (hp : s.find n = some p)
    (hidle : p.hasProcess = false) (hgone : findConfig n s.configMap = none ∨ s.Defining n) :
    Passes s (s.removeProcess n) :=
  fun hq => ⟨fun hd => ⟨(Move.dropRecord hn hp hidle (puts_removeProcess s n) hgone).moves,
    hd.removeProcess n⟩, hq, rfl, rfl⟩

theorem passes_rollback {n : String} (hn : s.Names n) (hdefining : s.Defining n) :
    Passes s (s.rollback n) := by
  intro hq
  -- The record goes first, if it has no process; then the definition and the graph.
  obtain ⟨s₁, hs₁, hgoes, hcore, hhistory⟩ : ∃ s₁ : Daemon,
      (if (s.find n).any fun p => !p.hasProcess then s.removeProcess n else s) = s₁ ∧ Goes s s₁ ∧
        (∃ ps, s₁ = { s with processes := ps }) ∧ s₁.history = s.history := by
    refine ⟨_, rfl, ?_⟩
    split
    · rename_i hidle
      obtain ⟨p, hp, hlive⟩ := (Option.any_eq_true _ _).1 hidle
      exact ⟨(passes_removeProcess hn hp (by simpa using hlive) (.inr hdefining) hq).1,
        ⟨_, rfl⟩, rfl⟩
    · exact ⟨.refl s, ⟨s.processes, rfl⟩, rfl⟩
  have hrolled : ∀ graph, buildDependencies (eraseConfig n s₁.configMap) = .ok graph →
      s.rollback n = Daemon.refresh (Daemon.replaceDependencies
        { s₁ with configMap := eraseConfig n s₁.configMap } graph) := by
    intro graph hbuild
    rw [rollback]
    simp only [hs₁, hbuild]
  have hkept : ∀ error, buildDependencies (eraseConfig n s₁.configMap) = .error error →
      s.rollback n = Daemon.refresh { s₁ with configMap := eraseConfig n s₁.configMap } := by
    intro error hbuild
    rw [rollback]
    simp only [hs₁, hbuild]
  obtain ⟨ps, hps⟩ := hcore
  have hn₁ : s₁.Names n := by
    rw [hps]
    exact hn
  have hq₁ : s₁.launchQueue = [] := by
    rw [hps]
    exact hq
  have hdefining₁ : s₁.Defining n := by
    rw [Defining, hhistory]
    exact hdefining
  cases hbuild : buildDependencies (eraseConfig n s₁.configMap) with
  | ok graph =>
    rw [hrolled graph hbuild]
    refine ⟨hgoes.trans fun hd => ⟨?_, hd⟩, ?_, ?_, ?_⟩
    · have hrt := Rebuilt.refresh (rebuilt_migrate s₁ graph) hd
      refine (Move.rollback hq₁ hn₁ hrt (.inl fun m => ?_) hdefining₁).moves
      rw [(build_ok hbuild).1, findConfig_isSome]
    · exact hq₁
    · rw [hps]
      rfl
    · rw [hps]
      rfl
  | error error =>
    rw [hkept error hbuild]
    refine ⟨hgoes.trans fun hd => ⟨?_, hd⟩, ?_, ?_, ?_⟩
    · exact (Move.rollback hq₁ hn₁ (Rebuilt.refresh (rebuilt_refl s₁) hd) (.inr rfl)
        hdefining₁).moves
    · exact hq₁
    · rw [hps]
      rfl
    · rw [hps]
      rfl

theorem passes_startDefined {cfg : ProgramConfig} {graph : DependencyGraph} (ω : System)
    (mode : StartMode) (hn : s.Names cfg.name)
    (hnew : ∀ c, findConfig cfg.name s.configMap = some c → c.cwd ≠ "" → cfg = c)
    (hsource : findConfig cfg.name s.configMap = none →
      ∃ r, s.request = some (.start r) ∧ r.mode = .create ∧ r.name = cfg.name)
    (hcwd : cfg.cwd ≠ "") (hfree : mode = .create → findConfig cfg.name s.configMap = none)
    (hbuild : buildDependencies (eraseConfig cfg.name s.configMap ++ [cfg]) = .ok graph) :
    Passes s (s.startDefined ω mode cfg graph).2 := by
  intro hq
  obtain ⟨hnames, hnodup⟩ := build_ok hbuild
  rw [startDefined]
  generalize hs₁ : ({ ((s.record (.define cfg)).replaceDependencies graph).refresh with
    configMap :=
      insertConfig cfg ((s.record (.define cfg)).replaceDependencies graph).refresh.configMap } :
      Daemon) = s₁
  have hprocesses : s₁.processes = s.processes := by rw [← hs₁]; rfl
  have hconfigMap : s₁.configMap = insertConfig cfg s.configMap := by rw [← hs₁]; rfl
  have hhistory : s₁.history = ⟨.define cfg, s.toCore⟩ :: s.history := by rw [← hs₁]; rfl
  have hgoes₁ : Goes s s₁ := by
    intro hd
    refine ⟨?_, by rw [Distinct, hprocesses]; exact hd⟩
    have hmove := Move.define hq cfg hn hnew (Rebuilt.refresh (rebuilt_migrate s graph) hd)
      (fun m => by rw [hnames, mem_configs]) hsource
    rw [← hs₁]
    exact hmove.moves
  have hfield₁ : s₁.launchQueue = [] ∧ s₁.request = s.request ∧ s₁.timeouts = s.timeouts := by
    rw [← hs₁]
    exact ⟨hq, rfl, rfl⟩
  obtain ⟨hgoes₂, hrecords₂, hdeleting₂⟩ := ensureProcessRecords_spec (s := s₁)
    (eraseConfig cfg.name s.configMap ++ [cfg])
    (by rw [hconfigMap]; exact findConfig_configs hnodup)
  obtain ⟨p₂, hp₂, hpc₂⟩ := ensureProcessRecords_last s₁ (eraseConfig cfg.name s.configMap) cfg
  generalize s₁.ensureProcessRecords (eraseConfig cfg.name s.configMap ++ [cfg]) = s₂ at *
  have hdefined₂ : s₂.Defined cfg := by
    obtain ⟨ps, hps⟩ := hrecords₂.core
    refine ⟨?_, p₂, hp₂, hpc₂⟩
    rw [hps]
    change findConfig cfg.name s₁.configMap = some cfg
    rw [hconfigMap, findConfig_insert, if_pos rfl]
  generalize hs₃ : (if mode = .create then
    s₂.setProcess cfg.name fun p => { p with configSource := .runtime } else s₂) = s₃
  have hranges₃ : Ranges s₂ s₃ ∧ s₃.launchQueue = s₂.launchQueue := by
    rw [← hs₃]
    split
    · exact ⟨ranges_edit (fun _ => rfl) fun _ _ =>
        ⟨rfl, rfl, rfl, rfl, rfl, rfl, rfl, rfl, rfl, .rfl, rfl, rfl, rfl⟩, rfl⟩
    · exact ⟨.refl s₂, rfl⟩
  have hfield₂ : s₂.request = s.request ∧ s₂.timeouts = s.timeouts := by
    obtain ⟨ps, hps⟩ := hrecords₂.core
    rw [hps]
    exact hfield₁.2
  have hn₃ : s₃.Names cfg.name := by
    obtain ⟨request, hrequest, hname⟩ := hn
    exact ⟨request, by rw [hranges₃.1.2.request, hfield₂.1, hrequest], hname⟩
  obtain ⟨hranges₄, hqueue₄⟩ := ranges_closure ω hn₃
  have hall :
    Goes s ((s₃.startOperation (.requestClosure cfg.name)).scheduleDependencyLaunch ω).1 :=
    ((hgoes₁.trans hgoes₂).trans hranges₃.1.1).trans hranges₄.1
  have hwithin := hranges₃.1.2.trans hranges₄.2
  have hdefined₄ := hdefined₂.within hwithin
  generalize (s₃.startOperation (.requestClosure cfg.name)).scheduleDependencyLaunch ω = result at *
  obtain ⟨s₄, failures⟩ := result
  simp only at *
  have hbase :
    Goes s s₄ ∧ s₄.launchQueue = [] ∧ s₄.request = s.request ∧ s₄.timeouts = s.timeouts :=
    ⟨hall, hqueue₄, hwithin.request.trans hfield₂.1, hwithin.timeouts.trans hfield₂.2⟩
  obtain ⟨l, hl, hquiet⟩ := hrecords₂.history.trans hwithin.history
  rw [hhistory] at hl
  have hend₄ : ∀ p, s₄.find cfg.name = some p → p.completionAction = .deleteConfig →
      ∃ p', s.find cfg.name = some p' ∧ p'.completionAction = .deleteConfig := by
    intro p hp ha
    obtain ⟨p', hp', ha'⟩ := hdeleting₂.trans hwithin.deleting cfg.name p hp ha
    rw [Core.find, hprocesses] at hp'
    exact ⟨p', hp', ha'⟩
  have hrecorded : (⟨.define cfg, s.toCore⟩ : Event) ∈ s₄.history := by
    rw [hl]
    exact List.mem_append_right l List.mem_cons_self
  cases failures with
  | nil =>
    simp only
    split
    · rename_i hmode
      obtain ⟨hcfg, p₄, hp₄, hpc₄⟩ := hdefined₄
      refine ⟨hall.trans (.move (.created cfg hcfg hcwd hp₄ hpc₄ fun ha => ?_) rfl), hbase.2⟩
      obtain ⟨p', hp', ha'⟩ := hend₄ p₄ hp₄ ha
      exact ⟨_, hrecorded, cfg, p', rfl, rfl, hfree hmode, hp', ha'⟩
    · exact hbase
  | cons failure failures =>
    simp only
    split
    · rename_i hmode
      have hn₄ : s₄.Names cfg.name := by
        obtain ⟨request, hrequest, hname⟩ := hn
        exact ⟨request, hbase.2.2.1.trans hrequest, hname⟩
      obtain ⟨hgoes₅, hq₅, hr₅, ht₅⟩ := passes_rollback hn₄
        ⟨l, _, _, cfg, hl, hquiet, rfl, rfl, hfree hmode⟩ hqueue₄
      exact ⟨hall.trans hgoes₅, hq₅, hr₅.trans hbase.2.2.1, ht₅.trans hbase.2.2.2⟩
    · exact hbase

theorem passes_manual (hf : ∀ p, (f p).config = p.config)
    (hk : ∀ p, ∃ q, Kept p q ∧ f p = q.clearRestart) (hp : s.find n = some p) (hn : s.Names n) :
    Passes s ((s.setProcess n f).markIdle n) := by
  intro hq
  obtain ⟨q, hkq, hq'⟩ := hk p
  have hputs := puts_setProcess hp hf
  rw [hq'] at hputs
  exact ⟨fun hd => ⟨(Move.manual hp hn hkq hputs).moves, hd.setProcess hf⟩, hq, rfl, rfl⟩

theorem passes_handleStart (ω : System) (r : StartRequest) (hr : s.request = some (.start r)) :
    Passes s (s.handleStart ω r).2 := by
  rw [handleStart]
  have hn : s.Names r.name := ⟨_, hr, rfl⟩
  split
  · exact .refl s
  · split
    · exact .refl s
    · rename_i base hbase
      have hname : base.name = r.name := by
        split at hbase
        all_goals cases hbase
        all_goals rfl
      have hentry :
        ∀ c, findConfig r.name s.configMap = some c → r.mode = .existing ∧ base = c := by
        intro c hc
        split at hbase
        · rename_i hnone
          cases hnone.symm.trans hc
        · cases hbase
        · rename_i hmode hsome
          cases hsome.symm.trans hc
          cases hbase
          refine ⟨hmode, ?_⟩
          rw [← Keyed.key_of_find hc]
        · rename_i hnone
          cases hnone.symm.trans hc
      have hcreated : findConfig r.name s.configMap = none → r.mode = .create := by
        intro hnone
        split at hbase
        · cases hbase
        · cases hbase
        · rename_i hsome
          cases hsome.symm.trans hnone
        · assumption
      split
      · exact .refl s
      · split
        · exact .refl s
        · split
          · exact .refl s
          · generalize hs₁ : (if r.mode = .existing ∧ (s.find r.name).isSome = true then
              (s.setProcess r.name (·.clearRestart)).markIdle r.name else s) = s₁
            have hmanual : Passes s s₁ := by
              rw [← hs₁]
              split
              · rename_i hfound
                obtain ⟨p, hp⟩ := Option.isSome_iff_exists.1 hfound.2
                exact passes_manual (fun _ => rfl) (fun p => ⟨p, .refl p, rfl⟩) hp hn
              · exact .refl s
            have hfield₁ : s₁.request = s.request ∧ s₁.configMap = s.configMap := by
              rw [← hs₁]
              split
              · exact ⟨rfl, rfl⟩
              · exact ⟨rfl, rfl⟩
            simp only
            generalize hcfg : (if (if r.mode = .create then { base with envs := r.inheritedEnv }
              else base).cwd = "" then _ else _) = cfg
            have hcname : cfg.name = r.name := by
              rw [← hcfg]
              split_ifs
              all_goals exact hname
            have hcwd : cfg.cwd ≠ "" := by
              have hdot : "." ≠ "" := by decide
              rw [← hcfg]
              split_ifs
              · exact hdot
              · assumption
              · exact hdot
              · assumption
            have hnew : ∀ c, findConfig cfg.name s₁.configMap = some c → c.cwd ≠ "" → cfg = c := by
              intro c hc hset
              rw [hcname, hfield₁.2] at hc
              obtain ⟨hmode, rfl⟩ := hentry c hc
              have hcreate : r.mode ≠ .create := by rw [hmode]; decide
              rw [← hcfg]
              simp only [if_neg hcreate, if_neg hset]
            have hsource : findConfig cfg.name s₁.configMap = none →
                ∃ r, s₁.request = some (.start r) ∧ r.mode = .create ∧ r.name = cfg.name := by
              intro hnone
              rw [hcname, hfield₁.2] at hnone
              exact ⟨r, hfield₁.1.trans hr, hcreated hnone, hcname.symm⟩
            have hfree : r.mode = .create → findConfig cfg.name s₁.configMap = none := by
              intro hmode
              rw [hcname, hfield₁.2]
              cases hfound : findConfig r.name s.configMap with
              | none => rfl
              | some c =>
                have hexisting := (hentry c hfound).1
                rw [hmode] at hexisting
                cases hexisting
            split
            · exact hmanual
            · rename_i graph hbuild
              refine hmanual.trans (passes_startDefined ω r.mode ?_ hnew hsource hcwd hfree hbuild)
              exact ⟨_, hfield₁.1.trans hr, by rw [hcname]; rfl⟩

theorem passes_handleAppSignal (ω : System) (s : Daemon) (name : String) (readySignal : Bool) :
    Passes s (s.handleAppSignal ω name readySignal).2 := by
  rw [handleAppSignal]
  cases hp : s.find name with
  | none => exact .refl s
  | some p =>
    simp only
    cases hlive : p.hasProcess with
    | false => exact .refl s
    | true =>
      simp only [Bool.not_true, Bool.false_eq_true, if_false]
      have hedit : Passes s (s.setProcess name fun p =>
          { p with lastTickMs := ω.clock s.ticks, heartbeatActionDueMs := 0 }) :=
        passes_edit (fun _ => rfl) fun _ _ =>
          ⟨rfl, rfl, rfl, rfl, rfl, rfl, rfl, rfl, rfl, .rfl, rfl, rfl, rfl⟩
      have htick := hedit.trans (passes_tick _)
      have hfind : (s.setProcess name fun p =>
          { p with lastTickMs := ω.clock s.ticks, heartbeatActionDueMs := 0 }).tick.find name =
            some { p with lastTickMs := ω.clock s.ticks, heartbeatActionDueMs := 0 } :=
        find_setProcess_self hp fun _ => rfl
      cases readySignal with
      | false => exact htick
      | true =>
        have hready :=
          htick.trans (passes_ready (f := fun p => { p with ready := true }) ω hfind hlive
          (fun _ => rfl) (fun p => .refl p) fun _ => rfl)
        simp only [Bool.not_true, Bool.false_eq_true, if_false]
        split
        · rename_i hscheduled
          rw [hscheduled] at hready
          exact hready
        · rename_i hscheduled
          rw [hscheduled] at hready
          exact hready

theorem passes_flags (s : Daemon) (reloadPending : Bool) {reloadPrograms : List ProgramConfig}
    (shouldStop shutdownScheduled : Bool)
    (hprograms : reloadPrograms = s.reloadPrograms ∨ reloadPrograms = [] ∨
      ∃ ω t, loadProgramConfigs ω t = .ok reloadPrograms) : Passes s { s with
      reloadPending := reloadPending
      reloadPrograms := reloadPrograms
      shouldStop := shouldStop
      shutdownScheduled := shutdownScheduled } :=
  fun hq => ⟨.move (.flags _ _ _ _ hprograms) rfl, hq, rfl, rfl⟩

theorem passes_handleMessage (ω : System) (request : Request) (hr : s.request = some request) :
    Passes s (s.handleMessage ω request).2 := by
  unfold handleMessage
  split
  · exact passes_handleStart ω _ hr
  · exact passes_handleAppSignal ω s _ _
  · exact passes_handleAppSignal ω s _ _
  · exact passes_flags s _ _ _ (.inl rfl)
  · split
    · exact .refl s
    · exact .refl s
  · exact .refl s

theorem passes_stopAll (ω : System) (s : Daemon) : Passes s (s.stopAll ω) := by
  have hfold : ∀ (l : List String) (s : Daemon), (∀ n ∈ l, n ∈ s.graph.names) →
      Passes s (l.foldl (fun s name => if (s.find name).any (·.hasProcess) then
        ((s.setProcess name fun p => { p with disableRestart := true }).requestProgramTermination ω
          name .remove 0).2 else s) s) := by
    intro l
    induction l with
    | nil => exact fun s _ => .refl s
    | cons name l ih =>
      intro s hl
      rw [List.foldl_cons]
      split
      · have hedit : Passes s (s.setProcess name fun p => { p with disableRestart := true }) :=
          passes_edit (fun _ => rfl) fun _ _ =>
            ⟨rfl, rfl, rfl, rfl, rfl, rfl, rfl, rfl, rfl, .rfl, rfl, rfl, rfl⟩
        have hmem := hl name List.mem_cons_self
        obtain ⟨hgoes, hrecords, -⟩ := requestProgramTermination_spec (ω := ω)
          (s := s.setProcess name fun p => { p with disableRestart := true }) (n := name)
          .remove 0 fun p hp => .stopAll (by rw [find_name hp]; exact hmem)
        refine (hedit.trans (.records hgoes hrecords)).trans (ih _ fun n hn => ?_)
        obtain ⟨ps, hps⟩ := hrecords.core
        rw [hps]
        exact hl n (List.mem_cons_of_mem _ hn)
      · exact ih s fun n hn => hl n (List.mem_cons_of_mem _ hn)
  refine hfold _ s fun n hn => ?_
  obtain ⟨id, hid, rfl⟩ := List.mem_map.1 hn
  rw [DependencyGraph.reverseTopologicalOrder, List.mem_reverse, DependencyGraph.mem_order] at hid
  exact DependencyGraph.find_isSome.1 ⟨id, DependencyGraph.find_name hid⟩

theorem passes_pending (s : Daemon) (l : List PendingResponse) :
    Passes s { s with pendingResponses := l } := passes_outside rfl rfl rfl rfl fun _ h => h

theorem passes_handleReload (ω : System) (s : Daemon) (m : Message) :
    Passes s (s.handleReload ω m) := by
  rw [handleReload]
  split
  · exact passes_fail ω s m _
  · split
    · exact (passes_tick s).trans (passes_fail ω _ m _)
    · split
      · exact (passes_tick s).trans (passes_fail ω _ m _)
      · rename_i programs hload _
        exact (((passes_tick s).trans
          (passes_flags _ true _ _ (.inr (.inr ⟨ω, s.ticks, hload⟩)))).trans
          (passes_stopAll ω _)).trans (passes_pending _ _)

theorem passes_handleSave (ω : System) (s : Daemon) (m : Message) :
    Passes s (s.handleSave ω m) := by
  rw [handleSave]
  split
  · exact passes_fail ω s m _
  · exact passes_outside rfl rfl rfl rfl fun _ h => h

theorem passes_answerStopped (ω : System) (s : Daemon) (m : Message) (hn : s.Names name)
    (operation : ControlOperationType) (showLog : Bool) (generation : Nat)
    (hp : s.find name = some p) (hidle : p.hasProcess = false)
    (hgone : operation = .remove → findConfig name s.configMap = none) :
    Passes s (s.answerStopped ω m name operation showLog generation) := by
  unfold answerStopped
  cases operation with
  | stop => exact passes_reply ω s m _ _ _
  | remove =>
    exact (passes_removeProcess hn hp hidle (.inl (hgone rfl))).trans (passes_reply ω _ m _ _ _)
  | restart =>
    obtain ⟨hranges, hqueue⟩ := ranges_closure ω hn
    have hpasses :
      Passes s ((s.startOperation (.requestClosure name)).scheduleDependencyLaunch ω).1 :=
      fun _ => ⟨hranges.1, hqueue, hranges.2.request, hranges.2.timeouts⟩
    simp only
    split
    · rename_i hscheduled
      rw [hscheduled] at hpasses
      exact hpasses.trans (passes_fail ω _ m _)
    · rename_i hscheduled
      rw [hscheduled] at hpasses
      split
      · exact hpasses.trans (passes_pending _ _)
      · exact hpasses.trans (passes_reply ω _ m _ _ _)

end Daemon
end PmTiny.Windows
