import Mathlib.Algebra.Order.BigOperators.Group.List
import Mathlib.Algebra.Order.Ring.Nat
import PmTiny.Daemon.Payloads
import PmTiny.Trace.Sessions

namespace PmTiny
set_option autoImplicit true

section Blockers

variable {graph : DependencyGraph}

theorem sum_le_of_nodup (f : Nat → Nat) {ids : List Nat} (hn : ids.Nodup)
    (hlt : ∀ i ∈ ids, i < n) : (ids.map f).sum ≤ ((List.range n).map f).sum := by
  have hsub : ids ⊆ List.range n := fun i hi => List.mem_range.2 (hlt i hi)
  obtain ⟨l, hperm, hsublist⟩ := List.subperm_of_subset hn hsub
  rw [← (hperm.map f).sum_nat]
  exact (hsublist.map f).sum_le_sum fun _ _ => Nat.zero_le _

theorem textsSize_sortedNames {ids : List Nat} (hn : ids.Nodup) (hlt : ∀ i ∈ ids, i < graph.size) :
    textsSize (DependencyRuntime.sortedNames graph ids) ≤ textsSize graph.names := by
  have hsorted :=
    ((List.perm_insertionSort (· ≤ ·) ids).map fun i => textSize (graph.name i)).sum_nat
  have hnames : graph.names = (List.range graph.size).map graph.name := by
    apply List.ext_getElem
    · rw [List.length_map, List.length_range]
      rfl
    · intro i hi _
      rw [List.getElem_map, List.getElem_range, DependencyGraph.name, List.getD_eq_getElem _ _ hi]
  have hsum := sum_le_of_nodup (fun i => textSize (graph.name i)) hn hlt
  rw [textsSize, textsSize, DependencyRuntime.sortedNames, List.map_map]
  rw [hnames, List.map_map]
  simp only [Function.comp_def] at hsorted ⊢
  omega

theorem textsSize_blockedBy (graph : DependencyGraph) (rt : DependencyRuntime) (name : String) :
    textsSize (rt.blockedBy graph name) ≤ textsSize graph.names := by
  rw [DependencyRuntime.blockedBy]
  split
  · exact Nat.le_add_right 4 _
  · obtain ⟨hn, hlt⟩ := DependencyRuntime.walk_nodup graph (fun i => rt.states i = .blocked)
      (graph.size + 1) [] _ List.nodup_nil (by simp)
    exact textsSize_sortedNames (hn.filter _) fun i hi => hlt i (List.mem_filter.1 hi).1

theorem textsSize_waitingFor (graph : DependencyGraph) (rt : DependencyRuntime) (name : String) :
    textsSize (rt.waitingFor graph name) ≤ textsSize graph.names := by
  rw [DependencyRuntime.waitingFor]
  split
  · exact Nat.le_add_right 4 _
  · obtain ⟨hn, hlt⟩ := DependencyRuntime.walk_nodup graph (fun _ => true)
      (graph.size + 1) [] _ List.nodup_nil (by simp)
    exact textsSize_sortedNames (hn.filter _) fun i hi => hlt i (List.mem_filter.1 hi).1

end Blockers

/-- What the C library has to say about errors and users is short. -/
structure Terse (ω : System) : Prop where
  strerror (errno : Nat) : (ω.strerror errno).utf8ByteSize ≤ 1024
  user {t uid : Nat} {user : Passwd} :
    ω.userFromUid t uid = .ok user → user.name.utf8ByteSize ≤ 1024

section Texts

variable {before middle after : String}

theorem size_quoted (text : String) (h : before.utf8ByteSize + after.utf8ByteSize = n) :
    (before ++ text ++ after).utf8ByteSize = n + text.utf8ByteSize := by
  rw [String.utf8ByteSize_append, String.utf8ByteSize_append]
  omega

theorem size_quoted_pair (text text' : String)
    (h : before.utf8ByteSize + middle.utf8ByteSize + after.utf8ByteSize = n) :
    (before ++ text ++ middle ++ text' ++ after).utf8ByteSize =
      n + text.utf8ByteSize + text'.utf8ByteSize := by
  rw [String.utf8ByteSize_append, String.utf8ByteSize_append, String.utf8ByteSize_append,
    String.utf8ByteSize_append]
  omega

theorem size_quoted_triple (text text' text'' : String)
    (h : before.utf8ByteSize + middle.utf8ByteSize + after.utf8ByteSize + last.utf8ByteSize = n) :
    (before ++ text ++ middle ++ text' ++ after ++ text'' ++ last).utf8ByteSize =
      n + text.utf8ByteSize + text'.utf8ByteSize + text''.utf8ByteSize := by
  rw [String.utf8ByteSize_append, String.utf8ByteSize_append, size_quoted_pair _ _ rfl]
  omega

theorem size_msgNotFound (name : String) :
    (msgNotFound name).utf8ByteSize = 12 + name.utf8ByteSize := size_quoted name (by decide)

theorem size_msgCmdNotCompleted (name : String) :
    (msgCmdNotCompleted name).utf8ByteSize = 60 + name.utf8ByteSize := size_quoted name (by decide)

theorem size_exitReason (reason : ExitReason) : reason.name.utf8ByteSize ≤ 8 := by
  cases reason <;> decide

theorem size_pmStateToStr (state : ProgState) : (pmStateToStr state).utf8ByteSize ≤ 8 := by
  cases state <;> decide

end Texts

variable {d : Details} {r : Registry} {ω : System} {s : Server} {id : Nat} {request : Request}

theorem sendable_text_iff {status : Int} {type requestId : Nat} {message : String} :
    Frame.Sendable d r ⟨id, type, requestId, request, { status := status, message := message }⟩ ↔
      8 + message.utf8ByteSize ≤ protocolV3MaxPayload := by
  rw [sendable_iff]
  simp [bodyFields]

theorem sendable_text {status : Int} {message : String}
    (h : 8 + message.utf8ByteSize ≤ protocolV3MaxPayload) (type requestId : Nat) :
    Frame.Sendable d r ⟨id, type, requestId, request, { status := status, message := message }⟩ :=
  sendable_text_iff.2 h

theorem sendable_brief {frame : Frame} (h : frame.reply.Brief) : frame.Sendable d r := by
  obtain ⟨hmessage, hsnapshot, hstart⟩ := h
  have hmax : 200 ≤ protocolV3MaxPayload := by decide
  rw [sendable_iff]
  cases hbody : frame.reply.body with
  | none =>
    refine ⟨checksPass_nil, ?_⟩
    rw [bodyFields, frameSize_nil]
    omega
  | snapshot => exact absurd hbody hsnapshot
  | start response => exact absurd hbody (hstart response)
  | pid pid =>
    refine ⟨by simp [bodyFields], ?_⟩
    simp only [bodyFields, frameSize_cons, frameSize_nil, Field.size]
    omega
  | log response =>
    refine ⟨by simp [bodyFields, appendProgramLogResponse], ?_⟩
    have hreason : ((response.lastWstatus.map exitOf).elim "" fun exit =>
        exit.1.name).utf8ByteSize ≤ 8 := by
      cases response.lastWstatus.map exitOf with
      | none => decide
      | some exit => exact size_exitReason exit.1
    simp only [bodyFields, appendProgramLogResponse, frameSize_cons, frameSize_nil, Field.size]
    omega

theorem Terse.admits (hω : Terse ω) : Admits ω fun r frame => frame.Sendable d r where
  brief h := sendable_brief h
  error errno hmessage hbody := by
    have hmax : 1032 ≤ protocolV3MaxPayload := by decide
    have hlength := hω.strerror errno
    rw [sendable_iff, hmessage, hbody]
    refine ⟨checksPass_nil, ?_⟩
    rw [bodyFields, frameSize_nil]
    omega

section Start

structure StartRoomy (ω : System) (s : Server) (id : Nat) (request : StartRequest) : Prop where
  texts : 4096 + request.name.utf8ByteSize + request.config.runAs.utf8ByteSize +
    request.config.executable.utf8ByteSize ≤ protocolV3MaxPayload
  uid : (toString ω.euid).utf8ByteSize ≤ 20
  peer : ∀ peer, (s.findSession id).bind (·.peer) = some peer →
    (toString peer.uid).utf8ByteSize ≤ 20
  known : 128 + textsSize s.dependencyGraph.names ≤ protocolV3MaxPayload
  created : 128 + textsSize (s.pmTinyProgs.map (·.name) ++ [request.config.name]) ≤
    protocolV3MaxPayload
  ordered : ∀ message, validateAndOrderProgCfgs (s.pmTinyProgs.map ProgInfo.dependencyNode ++
    [⟨request.config.name, request.config.dependsOn⟩]) = some message →
      8 + message.utf8ByteSize ≤ protocolV3MaxPayload

theorem sendable_start {response : StartResponse} (hstate : response.state.utf8ByteSize ≤ 8)
    (hblocked : 128 + textsSize response.blockedBy ≤ protocolV3MaxPayload) (type requestId : Nat) :
    Frame.Sendable d r
      ⟨id, type, requestId, request, { Server.success with body := .start response }⟩ := by
  have hsuccess : Server.success.message.utf8ByteSize = 7 := by decide
  have hempty : "".utf8ByteSize = 0 := by decide
  have hlist := checksPass_of_small startListTooLarge response.blockedBy (by omega)
  rw [checksPass_appendStrings] at hlist
  rw [sendable_iff]
  refine ⟨by simp [bodyFields, appendStartResponse, hlist], ?_⟩
  simp only [bodyFields, appendStartResponse, List.flatten_cons, List.flatten_nil,
    frameSize_append, frameSize_cons, frameSize_nil, frameSize_appendStrings, Field.size]
  omega

theorem sendable_startReply (h : 128 + textsSize s.dependencyGraph.names ≤ protocolV3MaxPayload)
    (name : String) (type requestId : Nat) :
    Frame.Sendable d r ⟨id, type, requestId, request, s.startReply name⟩ := by
  have hstate : ((s.findProg name).elim "" fun p => pmStateToStr p.state).utf8ByteSize ≤ 8 := by
    cases s.findProg name with
    | none => decide
    | some p => exact size_pmStateToStr p.state
  have hblocked : 128 + textsSize (s.dependencyRuntime.blockedBy s.dependencyGraph name) ≤
      protocolV3MaxPayload := by
    have := textsSize_blockedBy s.dependencyGraph s.dependencyRuntime name
    omega
  have hwaiting : 128 + textsSize (s.dependencyRuntime.waitingFor s.dependencyGraph name) ≤
      protocolV3MaxPayload := by
    have := textsSize_waitingFor s.dependencyGraph s.dependencyRuntime name
    omega
  have hnone : 128 + textsSize [] ≤ protocolV3MaxPayload := by decide
  rw [Server.startReply]
  apply sendable_start
  · split
    · exact hstate
    · split <;> exact hstate
  · split
    · exact hblocked
    · split
      · exact hwaiting
      · exact hnone

namespace Server

theorem spawn0_graph (ω : System) (s : Server) (names : List String) :
    (s.spawn0 ω names).2.dependencyGraph = s.dependencyGraph := by
  have h : ∀ acc : List String × Server,
      (names.foldl (spawnOne ω) acc).2.dependencyGraph = acc.2.dependencyGraph := by
    induction names with
    | nil => exact fun _ => rfl
    | cons name names ih =>
      intro acc
      rw [List.foldl_cons, ih]
      have hends := spawnOne_ends ω acc name
      generalize spawnOne ω acc name = result at hends ⊢
      cases hends with
      | skipped => rfl
      | spawned => exact realSpawnProg_runtime.2
      | failed => exact flagStartupFail_graph.trans realSpawnProg_runtime.2
  exact h _

theorem markRunning_graph (s : Server) : s.markRunning.dependencyGraph = s.dependencyGraph := by
  have h : ∀ (progs : List ProgInfo) (s : Server), (progs.foldl (fun s existing =>
      if existing.state = .runing then (s.markReady existing.name).2 else s) s).dependencyGraph =
        s.dependencyGraph := by
    intro progs
    induction progs with
    | nil => exact fun _ => rfl
    | cons existing progs ih =>
      intro s
      rw [List.foldl_cons, ih]
      split <;> rfl
  exact h s.pmTinyProgs s

theorem requestStart_graph (ω : System) (s : Server) (name : String) :
    (s.requestStart ω name).2.dependencyGraph = s.dependencyGraph := by
  rw [requestStart]
  simp only
  rw [spawn0_graph, markWaiting_graph]
  exact s.markRunning_graph

theorem startAndAddProg_names (ω : System) (s : Server) (prog : ProgInfo)
    (h : (s.startAndAddProg ω prog).1 = true) :
    (s.startAndAddProg ω prog).2.dependencyGraph.names =
      s.pmTinyProgs.map (·.name) ++ [prog.name] := by
  rw [startAndAddProg] at h ⊢
  cases hbuild :
    buildProgDependencyGraph ((s.record (.create prog.name prog.dependsOn)).pmTinyProgs ++
      [prog]) with
  | error e => simp [hbuild] at h
  | ok graph =>
    simp only [hbuild] at h ⊢
    split at h
    · rename_i hstarted
      rw [if_pos hstarted]
      simp only
      rw [spawn0_graph, markWaiting_graph]
      have hnames := DependencyGraph.build_names hbuild
      simp only [List.map_append, List.map_map, List.map_cons, List.map_nil] at hnames
      exact hnames
    · cases h

theorem sendable_handleStartExisting {request : StartRequest} (hω : Terse ω)
    (h : StartRoomy ω s id request) (type requestId : Nat) :
    Frame.Sendable d r
      ⟨id, type, requestId, .start request, (s.handleStartExisting ω id request).1⟩ := by
  have htexts := h.texts
  rw [handleStartExisting]
  cases s.findProg request.name with
  | none =>
    apply sendable_text
    rw [size_quoted request.name (n := 21) (by decide)]
    omega
  | some p =>
    simp only
    split
    · apply sendable_text
      rw [size_quoted request.name (n := 18) (by decide)]
      omega
    · split
      · apply sendable_startReply
        rw [requestStart_graph]
        exact h.known
      · apply sendable_text
        have hfailed : "start failed: ".utf8ByteSize = 14 := by decide
        have hstrerror := hω.strerror ((s.setProg request.name
          (·.resetRestartPolicy)).requestStart ω request.name).2.errno
        rw [String.utf8ByteSize_append]
        omega

/-- The identity checks of a create request answer with short texts, or keep the name of the user
short. -/
theorem targetUser_roomy {request : StartRequest} (hω : Terse ω) (h : StartRoomy ω s id request) :
    (∃ message, targetUser ω id request s = .error { status := -3, message := message } ∧
      8 + message.utf8ByteSize ≤ protocolV3MaxPayload) ∨
    ∃ cfg, targetUser ω id request s = .ok cfg ∧ cfg.name = request.config.name ∧
      cfg.dependsOn = request.config.dependsOn ∧
      cfg.runAs.utf8ByteSize ≤ 1024 + request.config.runAs.utf8ByteSize := by
  have htexts := h.texts
  rw [targetUser]
  simp only
  split
  · exact .inl ⟨_, rfl, by decide⟩
  · cases hpeer : (s.findSession id).bind (·.peer) with
    | none => exact .inl ⟨_, rfl, by decide⟩
    | some peer =>
      have huid := h.peer peer hpeer
      simp only
      cases huser : ω.userFromUid s.ticks peer.uid with
      | error errno =>
        have hstrerror := hω.strerror errno
        have hunknown : "cannot resolve peer uid ".utf8ByteSize = 24 := by decide
        have hcolon : ": ".utf8ByteSize = 2 := by decide
        refine .inl ⟨_, rfl, ?_⟩
        rw [String.utf8ByteSize_append, String.utf8ByteSize_append, String.utf8ByteSize_append]
        omega
      | ok peerUser =>
        have hname := hω.user huser
        have hrunAs : (if request.config.runAs = "" then peerUser.name
            else request.config.runAs).utf8ByteSize ≤ 1024 + request.config.runAs.utf8ByteSize := by
          split <;> omega
        simp only
        generalize (if request.config.runAs = "" then Except.ok peerUser
          else ω.uidFromUsername s.ticks request.config.runAs) = target
        cases target with
        | error errno =>
          have hstrerror := hω.strerror errno
          refine .inl ⟨_, rfl, ?_⟩
          rw [String.utf8ByteSize_append, size_quoted request.config.runAs (n := 31) (by decide)]
          omega
        | ok user =>
          simp only
          split
          · have huid := h.uid
            refine .inl ⟨_, rfl, ?_⟩
            rw [size_quoted_triple _ _ _ (n := 39) (by decide)]
            omega
          · split
            · refine .inl ⟨_, rfl, ?_⟩
              rw [size_quoted request.config.executable (n := 55) (by decide)]
              omega
            · exact .inr ⟨_, rfl, rfl, rfl, hrunAs⟩

theorem createProg_node {cfg : ProgCfg} {source : String} {prog : ProgInfo}
    (h : createProg cfg source = some prog) :
    prog.name = cfg.name ∧ prog.dependencyNode = ⟨cfg.name, cfg.dependsOn⟩ := by
  rw [createProg] at h
  split at h
  · cases h
  · split at h
    · cases h
    · cases h
      exact ⟨rfl, rfl⟩

theorem sendable_handleStartCreate {request : StartRequest} (hω : Terse ω)
    (h : StartRoomy ω s id request) (type requestId : Nat) :
    Frame.Sendable d r
      ⟨id, type, requestId, .start request, (s.handleStartCreate ω id request).1⟩ := by
  have htexts := h.texts
  rw [handleStartCreate]
  cases s.findProg request.name with
  | some p =>
    apply sendable_text
    rw [size_quoted request.name (n := 26) (by decide)]
    omega
  | none =>
    simp only
    obtain ⟨message, htarget, hmessage⟩ | ⟨cfg, htarget, hname, hdeps, hrunAs⟩ :=
      targetUser_roomy hω h
    · rw [htarget]
      exact sendable_text hmessage type requestId
    · rw [htarget]
      simp only
      cases hprog : createProg cfg "runtime" with
      | none =>
        apply sendable_text
        rw [size_quoted request.name (n := 16) (by decide)]
        omega
      | some prog =>
        obtain ⟨hpname, hnode⟩ := createProg_node hprog
        simp only [List.map_append, List.map_cons, List.map_nil, hnode, hname, hdeps]
        cases hvalid : validateAndOrderProgCfgs (s.pmTinyProgs.map ProgInfo.dependencyNode ++
            [⟨request.config.name, request.config.dependsOn⟩]) with
        | some message => exact sendable_text (h.ordered message hvalid) type requestId
        | none =>
          simp only
          split
          · rename_i hstarted
            apply sendable_startReply
            rw [startAndAddProg_names ω s.tick prog hstarted, hpname, hname]
            exact h.created
          · apply sendable_text
            have hstrerror := hω.strerror (if (s.tick.startAndAddProg ω prog).2.errno = 0 then eio
              else (s.tick.startAndAddProg ω prog).2.errno)
            rw [String.utf8ByteSize_append, size_quoted_pair _ _ (n := 28) (by decide)]
            omega

theorem sendable_handleCmdStart {request : StartRequest} (hω : Terse ω)
    (h : StartRoomy ω s id request) (type requestId : Nat) :
    Frame.Sendable d r
      ⟨id, type, requestId, .start request, (s.handleCmdStart ω id request).1⟩ := by
  rw [handleCmdStart]
  cases request.mode with
  | existing => exact sendable_handleStartExisting hω h type requestId
  | create => exact sendable_handleStartCreate hω h type requestId

end Server

end Start

end PmTiny
