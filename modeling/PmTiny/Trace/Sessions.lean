import PmTiny.Trace.Tasks
import PmTiny.Daemon.Loop

namespace PmTiny
set_option autoImplicit true

def Reply.Brief (reply : Reply) : Prop :=
  reply.message.utf8ByteSize ≤ 64 ∧ reply.body ≠ .snapshot ∧
    ∀ response, reply.body ≠ .start response

/-- Answers that may be given in any state, besides those that a request asks for. -/
class Admits (ω : System) (K : Registry → Frame → Prop) : Prop where
  brief {r : Registry} {frame : Frame} : frame.reply.Brief → K r frame
  error {r : Registry} {frame : Frame} (errno : Nat) :
    frame.reply.message = ω.strerror errno → frame.reply.body = .none → K r frame

/-- The body of a success response, for each request. -/
inductive SuccessBody (r : Registry) : Request → ReplyBody → Prop where
  | list : SuccessBody r .list .snapshot
  | info : SuccessBody r .info .snapshot
  | version : SuccessBody r .version .snapshot
  | inspect (hp : r.findProg name = some p) : SuccessBody r (.inspect name) .snapshot
  | start : SuccessBody r (.start request) (.start response)
  | quit : SuccessBody r .quit (.pid pid)
  | save : SuccessBody r .save .none
  | reload : SuccessBody r .reload .none
  | stop : SuccessBody r (.stop name) .none
  | remove : SuccessBody r (.remove name) .none
  | restart : SuccessBody r (.restart name false) .none
  | restartLog (hp : r.findProg name = some p) (hlive : p.live = true) :
      SuccessBody r (.restart name true) (Server.liveLogResponse p)
  | live (hp : r.findProg name = some p) (hlive : p.live = true) (hmode : response.mode = .live)
      (hgeneration : response.generation = p.inst.generation) :
      SuccessBody r (.log name .live) (.log response)
  | history (hmode : response.mode = .history) (hgeneration : response.generation ≠ 0)
      (htime : 0 < response.lastExitTimeUnixMs) (hexit : response.lastWstatus = some wstatus) :
      SuccessBody r (.log name .history) (.log response)

/-- The status is one of the daemon's own, and a success has the body that its request asks for. -/
structure Reply.Suits (r : Registry) (request : Request) (reply : Reply) : Prop where
  status : -3 ≤ reply.status ∧ reply.status ≤ 2
  body : reply.status = 0 → SuccessBody r request reply.body

/-- Answers that may be given in any state to the request that they suit. -/
class Replies (ω : System) (K : Registry → Frame → Prop) : Prop where
  brief {r : Registry} {frame : Frame} :
    frame.reply.Brief → frame.reply.Suits r frame.request → K r frame
  error {r : Registry} {frame : Frame} (errno : Nat) : frame.reply.message = ω.strerror errno →
    frame.reply.body = .none → frame.reply.status = -1 → K r frame

instance {K : Registry → Frame → Prop} [Admits ω K] : Replies ω K where
  brief h _ := Admits.brief ω h
  error errno hm hb _ := Admits.error errno hm hb

theorem Reply.suits_text {status : Int} (h : -3 ≤ status ∧ status ≤ 2 ∧ status ≠ 0)
    (message : String) : Reply.Suits r request { status := status, message := message } :=
  ⟨⟨h.1, h.2.1⟩, fun hzero => absurd hzero h.2.2⟩

theorem Reply.suits_success {body : ReplyBody} (h : SuccessBody r request body) :
    Reply.Suits r request { Server.success with body := body } :=
  ⟨show -3 ≤ (0 : Int) ∧ (0 : Int) ≤ 2 by decide, fun _ => h⟩

/-- A call other than the run of a restart's task and the spawn that the task asks for; an answer is
one of `K`. -/
def Event.Plain (K : Registry → Frame → Prop) (e : Event) : Prop :=
  match e.call with
  | .realSpawnProg _ .task => False
  | .runTask _ (.startProg _ _) _ => False
  | .answer frame => K e.reg frame
  | _ => True

def Event.RunsRestart (e : Event) (name : String) (id : Nat) (showLog : Bool) : Prop :=
  ∃ site, e.call = .runTask name (.startProg id showLog) site

/-- The server is not being stopped and the program has no process. -/
def Registry.CanStart (r : Registry) (name : String) : Prop :=
  r.serverExit = false ∧ (r.findProg name).any (·.live) = false

/-- Recorded calls, newest first: the run of a restart's task is directly followed by the spawn of
its program when its session may still be open (`P`), and nothing follows when the session may be
gone (`Q`) or the program cannot be started. -/
inductive Blocks (K : Registry → Frame → Prop) (P Q : Nat → Prop) : List Event → Prop where
  | nil : Blocks K P Q []
  | plain {e : Event} : e.Plain K → Blocks K P Q l → Blocks K P Q (e :: l)
  | started {e run : Event} {id : Nat} : e.call = .realSpawnProg name .task →
      run.RunsRestart name id showLog → P id → run.reg.CanStart name → Blocks K P Q l →
      Blocks K P Q (e :: run :: l)
  | idle {run : Event} {id : Nat} : run.RunsRestart name id showLog →
      (Q id ∨ ¬ run.reg.CanStart name) → Blocks K P Q l → Blocks K P Q (run :: l)

theorem Blocks.mono {K : Registry → Frame → Prop} {P P' Q Q' : Nat → Prop} (h : Blocks K P Q l)
    (hP : ∀ id, P id → P' id)
    (hQ : ∀ id, Q id → Q' id) : Blocks K P' Q' l := by
  induction h with
  | nil => exact .nil
  | plain he _ ih => exact .plain he ih
  | started he hr hp hc _ ih => exact .started he hr (hP _ hp) hc ih
  | idle hr hq _ ih => exact .idle hr (hq.imp_left (hQ _)) ih

theorem Blocks.answers {K : Registry → Frame → Prop} {P Q : Nat → Prop} {e : Event} {frame : Frame}
    (h : Blocks K P Q l) (he : e ∈ l) (hcall : e.call = .answer frame) : K e.reg frame := by
  induction h with
  | nil => cases he
  | plain hplain _ ih =>
    rcases List.mem_cons.1 he with rfl | he
    · rw [Event.Plain, hcall] at hplain
      exact hplain
    · exact ih he
  | started hspawn hrun _ _ _ ih =>
    rcases List.mem_cons.1 he with rfl | he
    · rw [hspawn] at hcall
      cases hcall
    · rcases List.mem_cons.1 he with rfl | he
      · obtain ⟨site, hrun⟩ := hrun
        rw [hrun] at hcall
        cases hcall
      · exact ih he
  | idle hrun _ _ ih =>
    rcases List.mem_cons.1 he with rfl | he
    · obtain ⟨site, hrun⟩ := hrun
      rw [hrun] at hcall
      cases hcall
    · exact ih he

theorem Blocks.append {K : Registry → Frame → Prop} {P Q : Nat → Prop} (h : Blocks K P Q l)
    (h' : Blocks K P Q l') :
    Blocks K P Q (l ++ l') := by
  induction h with
  | nil => exact h'
  | plain he _ ih => exact .plain he ih
  | started he hr hp hc _ ih => exact .started he hr hp hc ih
  | idle hr hq _ ih => exact .idle hr hq ih

namespace Server

variable {s s' s'' : Server} {ω : System} {id : Nat} {name : String} {K : Registry → Frame → Prop}

def Shut (s : Server) (id : Nat) : Prop := ∃ x, s.findSession id = some x ∧ x.closed = true

def Known (s : Server) (id : Nat) : Prop := ∃ x, s.findSession id = some x

/-- Sessions stay known and stay closed, and the calls recorded on the way fit together. -/
structure Follows (K : Registry → Frame → Prop) (s s' : Server) : Prop where
  known : ∀ id, s.Known id → s'.Known id
  shut : ∀ id, s.Shut id → s'.Shut id
  events : ∃ new, s'.history = new ++ s.history ∧
    Blocks K (fun id => ¬ s.Shut id) (fun id => s'.Shut id ∨ ¬ s.Known id) new

theorem Follows.of_same (hs : s'.sessions = s.sessions) (hh : s'.history = s.history) :
    Follows K s s' := by
  have hf : ∀ id, s'.findSession id = s.findSession id := by
    intro id
    rw [findSession, hs, findSession]
  refine ⟨?_, ?_, [], hh, .nil⟩
  · intro id h
    rw [Known, hf]
    exact h
  · intro id h
    rw [Shut, hf]
    exact h

theorem Follows.refl (s : Server) : Follows K s s := .of_same rfl rfl

theorem Follows.trans (h : Follows K s s') (h' : Follows K s' s'') : Follows K s s'' := by
  obtain ⟨new, hn, hb⟩ := h.events
  obtain ⟨new', hn', hb'⟩ := h'.events
  refine ⟨fun id hk => h'.known id (h.known id hk), fun id hs => h'.shut id (h.shut id hs),
    new' ++ new, ?_, ?_⟩
  · rw [hn', hn, List.append_assoc]
  · apply Blocks.append
    · exact hb'.mono (fun id hns hs => hns (h.shut id hs))
        fun id hq => hq.imp_right fun hk hk' => hk (h.known id hk')
    · exact hb.mono (fun _ hp => hp) fun id hq => hq.imp_left (h'.shut id)

/-- The calls recorded since an earlier state, newest first. -/
def since (s s' : Server) : List Event := s'.history.take (s'.history.length - s.history.length)

theorem since_eq {new : List Event} (h : s'.history = new ++ s.history) : s.since s' = new := by
  rw [since, h, List.length_append, Nat.add_sub_cancel, List.take_left]

theorem Follows.blocks (h : Follows K s s') :
    Blocks K (fun id => ¬ s.Shut id) (fun id => s'.Shut id ∨ ¬ s.Known id) (s.since s') := by
  obtain ⟨new, hn, hb⟩ := h.events
  rw [since_eq hn]
  exact hb

theorem Follows.since_append (h : Follows K s s') (h' : Follows K s' s'') :
    s.since s'' = s'.since s'' ++ s.since s' := by
  obtain ⟨new, hn, -⟩ := h.events
  obtain ⟨new', hn', -⟩ := h'.events
  rw [since_eq hn, since_eq hn']
  apply since_eq
  rw [hn', hn, List.append_assoc]

theorem follows_foldl (f : Server → α → Server) (hf : ∀ s a, Follows K s (f s a)) (l : List α)
    (s : Server) : Follows K s (l.foldl f s) := by
  induction l generalizing s with
  | nil => exact Follows.refl s
  | cons a l ih => exact (hf s a).trans (ih (f s a))

theorem follows_foldl_snd {β : Type} (f : β × Server → α → β × Server)
    (hf : ∀ acc a, Follows K acc.2 (f acc a).2) (l : List α) (acc : β × Server) :
    Follows K acc.2 (l.foldl f acc).2 := by
  induction l generalizing acc with
  | nil => exact Follows.refl acc.2
  | cons a l ih => exact (hf acc a).trans (ih (f acc a))

theorem follows_record (s : Server) (call : Call) (hc : Event.Plain K ⟨call, s.toRegistry⟩) :
    Follows K s (s.record call) :=
  ⟨fun _ h => h, fun _ h => h, [⟨call, s.toRegistry⟩], rfl, .plain hc .nil⟩

theorem findSession_setSession (s : Server) (id : Nat) (hf : ∀ x : Session, (f x).id = x.id) :
    (s.setSession id f).findSession id = (s.findSession id).map f := by
  exact Keyed.find_update_self fun x hx => (hf x).trans (Keyed.key_of_find hx)

theorem follows_setSession (s : Server) (id : Nat) (hid : ∀ x, (f x).id = x.id)
    (hc : ∀ x, x.closed = true → (f x).closed = true) : Follows K s (s.setSession id f) := by
  have hf : ∀ k, (s.setSession id f).findSession k =
      if k = id then (s.findSession id).map f else s.findSession k := fun k => Keyed.find_update hid
  refine ⟨?_, ?_, [], rfl, .nil⟩
  · rintro k ⟨x, hx⟩
    rw [Known, hf]
    split
    · rename_i hk
      exact ⟨f x, by rw [← hk, hx]; rfl⟩
    · exact ⟨x, hx⟩
  · rintro k ⟨x, hx, hcl⟩
    rw [Shut, hf]
    split
    · rename_i hk
      exact ⟨f x, by rw [← hk, hx]; rfl, hc x hcl⟩
    · exact ⟨x, hx, hcl⟩

theorem follows_closeSession (s : Server) (id : Nat) : Follows K s (s.closeSession id) := by
  rw [closeSession]
  cases s.findSession id with
  | none => exact Follows.refl s
  | some x =>
    simp only
    split
    · exact Follows.refl s
    · cases x.prog with
      | none => exact follows_setSession s id (fun _ => rfl) fun _ _ => rfl
      | some n =>
        have h : Follows K s { s with logSessions := s.logSessions.filter (· ≠ (n, id)) } :=
          .of_same rfl rfl
        exact h.trans (follows_setSession _ id (fun _ => rfl) fun _ _ => rfl)

theorem closeSession_history (s : Server) (id : Nat) : (s.closeSession id).history = s.history := by
  rw [closeSession]
  cases s.findSession id with
  | none => rfl
  | some x =>
    simp only
    split
    · rfl
    · cases x.prog <;> rfl

theorem follows_tick (s : Server) : Follows K s s.tick := .of_same rfl rfl

theorem follows_writeFrame (ω : System) (s : Server) (id : Nat) (request : Request) (reply : Reply)
    (h : ∀ type requestId, K s.toRegistry ⟨id, type, requestId, request, reply⟩) :
    Follows K s (s.writeFrame ω id request reply) := by
  rw [writeFrame]
  cases s.findSession id with
  | none => exact Follows.refl s
  | some x =>
    simp only
    split
    · exact Follows.refl s
    · apply Follows.trans (follows_record s (.answer _) (h _ _))
      split
      · exact follows_tick _
      · exact (follows_tick _).trans (follows_closeSession _ id)

theorem follows_brief (ω : System) [Replies ω K] (s : Server) (id : Nat) (request : Request)
    {reply : Reply} (h : reply.Brief) (hs : reply.Suits s.toRegistry request) :
    Follows K s (s.writeFrame ω id request reply) :=
  follows_writeFrame ω s id request reply fun _ _ => Replies.brief ω h hs

theorem follows_refusal (ω : System) [Replies ω K] (s : Server) (id : Nat) (request : Request)
    {status : Int} {m : String} (hm : m.utf8ByteSize ≤ 64)
    (hstatus : -3 ≤ status ∧ status ≤ 2 ∧ status ≠ 0) :
    Follows K s (s.writeFrame ω id request { status := status, message := m }) :=
  follows_brief ω s id request ⟨hm, by simp, by simp⟩ (Reply.suits_text hstatus m)

theorem brief_text (status : Int) {m : String} (h : m.utf8ByteSize ≤ 64) :
    Reply.Brief { status := status, message := m } := ⟨h, by simp, by simp⟩

theorem brief_success : success.Brief := brief_text 0 (by decide)

theorem brief_liveLog (p : Option ProgInfo) :
    Reply.Brief { success with body := p.elim .none liveLogResponse } := by
  have hmessage : success.message.utf8ByteSize ≤ 64 := by decide
  refine ⟨hmessage, ?_, ?_⟩ <;> cases p <;> simp [liveLogResponse]

theorem follows_addSession (s : Server) (name : String) (id : Nat) :
    Follows K s (s.addSession name id) := by
  have h : Follows K s { s with logSessions := s.logSessions ++ [(name, id)] } := .of_same rfl rfl
  exact h.trans (follows_setSession _ id (fun _ => rfl) fun _ h => h)

theorem follows_failPending (ω : System) [Replies ω K] (s : Server) (name message : String)
    (hm : message.utf8ByteSize ≤ 64) :
    Follows K s (s.failPendingLogSessions ω name message) := by
  rw [failPendingLogSessions]
  apply Follows.trans (follows_foldl _ _ (sessionsOf s.pendingLogSessions name) s)
  · exact .of_same rfl rfl
  · intro s id
    exact follows_refusal ω s id _ hm (by decide)

theorem suits_liveLog (hp : r.findProg name = some p) (hlive : p.live = true) :
    Reply.Suits r (.log name .live) { success with body := liveLogResponse p } :=
  Reply.suits_success (.live hp hlive rfl rfl)

theorem follows_activatePending (ω : System) [Replies ω K] (s : Server)
    (hp : s.findProg name = some p) (hlive : p.live = true) :
    Follows K s (s.activatePendingLogSessions ω name) := by
  rw [activatePendingLogSessions, hp]
  suffices hjoin : ∀ (ids : List Nat) (t : Server), t.findProg name = some p →
      Follows K t (ids.foldl (fun s id => if s.isOpen id then
        (s.addSession name id).writeFrame ω id (.log name .live)
          { success with body := liveLogResponse p } else s) t) from
    (hjoin _ s hp).trans (.of_same rfl rfl)
  intro ids
  induction ids with
  | nil => exact fun t _ => Follows.refl t
  | cons id ids ih =>
    intro t ht
    have hbrief := brief_liveLog (some p)
    rw [List.foldl_cons]
    split
    · have hnext : ((t.addSession name id).writeFrame ω id (.log name .live)
          { success with body := liveLogResponse p }).findProg name = some p := by
        rw [toRegistry_writeFrame]
        exact ht
      apply Follows.trans _ (ih _ hnext)
      exact (follows_addSession t name id).trans
        (follows_brief ω _ id _ hbrief (suits_liveLog ht hlive))
    · exact ih t ht

theorem follows_detachSessions (ω : System) [Replies ω K] (s : Server) (name : String) :
    Follows K s (s.detachSessions ω name) := by
  rw [detachSessions]
  apply Follows.trans _ (follows_failPending ω _ name _ (by decide))
  apply Follows.trans (follows_foldl _ _ (sessionsOf s.logSessions name) s)
  · exact .of_same rfl rfl
  · intro s id
    exact follows_setSession s id (fun _ => rfl) fun _ h => h

theorem follows_setProg (s : Server) (name : String) (f : ProgInfo → ProgInfo) :
    Follows K s (s.setProg name f) := .of_same rfl rfl

theorem follows_observe (ω : System) (s : Server) (name : String) :
    Follows K s (s.observe ω name) :=
  .of_same rfl rfl

theorem follows_isTreeEmpty (ω : System) (s : Server) (name : String) :
    Follows K s (s.isTreeEmpty ω name).2 := follows_observe ω s name

theorem follows_signalTree (s : Server) (name : String) (signal : Signal) :
    Follows K s (s.signalTree name signal) := follows_record s _ trivial

theorem follows_spawned (ω : System) (s : Server) (name : String) (site : SpawnSite) :
    Follows K (s.record (.realSpawnProg name site)) (s.realSpawnProg ω name site).2 := by
  have hends := realSpawnProg_ends ω s name site
  generalize s.realSpawnProg ω name site = result at hends ⊢
  cases hends <;> exact .of_same rfl rfl

theorem follows_realSpawnProg (ω : System) (s : Server) (name : String) (hsite : site ≠ .task) :
    Follows K s (s.realSpawnProg ω name site).2 := by
  have hplain : Event.Plain K ⟨.realSpawnProg name site, s.toRegistry⟩ := by
    cases site <;> trivial
  exact (follows_record s _ hplain).trans (follows_spawned ω s name site)

theorem findProg_update_self (hname : ∀ p, (f p).name = p.name) (hp : s.findProg name = some p) :
    (s.setProg name f).findProg name = some (f p) := by
  have h : (s.setProg name f).findProg name = (s.findProg name).map f :=
    Keyed.find_update_self fun p hp => (hname p).trans (Keyed.key_of_find hp)
  rw [h, hp]
  rfl

theorem live_realSpawnProg (hstarted : (s.realSpawnProg ω name site).1 = true) :
    ∃ p, (s.realSpawnProg ω name site).2.findProg name = some p ∧ p.live = true := by
  have hends := realSpawnProg_ends ω s name site
  generalize s.realSpawnProg ω name site = result at hstarted hends ⊢
  cases hends with
  | unknown => cases hstarted
  | refused => cases hstarted
  | aborted => cases hstarted
  | started p pid hp =>
    exact ⟨_, findProg_update_self (fun p => (keeps_spawnStarted pid _ p).1) hp, rfl⟩

theorem follows_blockProg (s : Server) (name : String) : Follows K s (s.blockProg name) := by
  rw [blockProg]
  cases s.findProg name with
  | none => exact Follows.refl s
  | some p => exact (follows_record s (.blocked name) trivial).trans (follows_setProg _ _ _)

theorem follows_flagStartupFail (s : Server) (name : String) :
    Follows K s (s.flagStartupFail name) := by
  rw [flagStartupFail]
  apply Follows.trans _ (follows_foldl _ follows_blockProg _ _)
  exact .of_same rfl rfl

theorem follows_spawnOne (ω : System) (acc : List String × Server) (name : String) :
    Follows K acc.2 (spawnOne ω acc name).2 := by
  have hspawn := follows_realSpawnProg (K := K) ω acc.2 name (by simp : SpawnSite.runtime ≠ .task)
  have hends := spawnOne_ends ω acc name
  generalize spawnOne ω acc name = result at hends ⊢
  cases hends with
  | skipped => exact Follows.refl _
  | spawned => exact hspawn
  | failed => exact hspawn.trans (follows_flagStartupFail _ name)

theorem follows_spawn0 (ω : System) (s : Server) (names : List String) :
    Follows K s (s.spawn0 ω names).2 :=
  (follows_record s (.spawn0 names) trivial).trans
    (follows_foldl_snd _ (follows_spawnOne ω) names ([], s.record (.spawn0 names)))

theorem follows_markReady (s : Server) (name : String) : Follows K s (s.markReady name).2 :=
  .of_same rfl rfl

theorem follows_spawn1 (ω : System) (s : Server) (names : List String) (site : ReadySite) :
    Follows K s (s.spawn1 ω names site) := by
  have h₁ := follows_record (K := K) s (.spawn1 names site) trivial
  have h₂ := follows_foldl_snd (K := K) (fun (acc : List String × Server) name =>
    (acc.1 ++ (acc.2.markReady name).1, (acc.2.markReady name).2))
    (fun acc name => follows_markReady acc.2 name) names ([], s.record (.spawn1 names site))
  rw [spawn1]
  apply (h₁.trans h₂).trans
  split
  · exact Follows.refl _
  · exact follows_spawn0 ω _ _

theorem follows_spawn (ω : System) (s : Server) : Follows K s (s.spawn ω) := by
  rw [spawn]
  apply Follows.trans _ (follows_spawn0 ω _ _)
  exact .of_same rfl rfl

theorem follows_startProg (ω : System) [Replies ω K] (s : Server) (name : String)
    (hsite : site ≠ .task) :
    Follows K s (s.startProg ω name site).2 := by
  rw [startProg]
  split
  · exact Follows.refl s
  · have h := follows_realSpawnProg (K := K) ω s name hsite
    simp only
    split
    · rename_i hstarted
      obtain ⟨p, hp, hlive⟩ := live_realSpawnProg hstarted
      exact h.trans (follows_activatePending ω _ hp hlive)
    · exact h

theorem follows_markWaiting (s : Server) : Follows K s s.markWaiting := by
  rw [markWaiting]
  apply follows_foldl
  intro s n
  split
  · exact (follows_record s (.waitingStart n) trivial).trans (follows_setProg _ _ _)
  · exact Follows.refl s

theorem follows_requestClosure (s : Server) (name : String) :
    Follows K s (s.requestClosure name).2 :=
  (follows_record s (.requestClosure name) trivial).trans (.of_same rfl rfl)

theorem follows_markRunning (s : Server) : Follows K s s.markRunning := by
  rw [markRunning]
  apply follows_foldl
  intro s p
  split
  · exact follows_markReady s p.name
  · exact Follows.refl s

theorem follows_requestStart (ω : System) (s : Server) (name : String) :
    Follows K s (s.requestStart ω name).2 := by
  rw [requestStart]
  exact (((follows_markRunning s).trans (follows_requestClosure _ name)).trans
    (follows_markWaiting _)).trans (follows_spawn0 ω _ _)

theorem follows_triggerDAG (s : Server) (name : String) :
    Follows K s (s.triggerDAGTraversalNextNode name) := by
  rw [triggerDAGTraversalNextNode]
  split
  · exact .of_same rfl rfl
  · exact Follows.refl s

theorem follows_rebuild (s : Server) : Follows K s s.rebuildDependencyGraph := by
  rw [rebuildDependencyGraph]
  cases buildProgDependencyGraph s.pmTinyProgs with
  | error e => exact Follows.refl s
  | ok graph =>
    have h : Follows K s { s with dependencyGraph := graph, dependencyRuntime := .reset } :=
      .of_same rfl rfl
    exact h.trans (follows_markRunning _)

theorem follows_removeProg (ω : System) [Replies ω K] (s : Server) (name : String) :
    Follows K s (s.removeProg ω name) := by
  have h : Follows K s { s with pmTinyProgs := Keyed.remove ProgInfo.name name s.pmTinyProgs } :=
    .of_same rfl rfl
  exact (h.trans (follows_detachSessions ω _ name)).trans (follows_rebuild _)

theorem follows_startAndAddProg (ω : System) (s : Server) (prog : ProgInfo) :
    Follows K s (s.startAndAddProg ω prog).2 := by
  have hcreate := follows_record (K := K) s (.create prog.name prog.dependsOn) trivial
  rw [startAndAddProg]
  apply hcreate.trans
  cases buildProgDependencyGraph ((s.record (.create prog.name prog.dependsOn)).pmTinyProgs ++
      [prog]) with
  | error e => exact Follows.refl _
  | ok graph =>
    simp only
    have hadd : Follows K (s.record (.create prog.name prog.dependsOn))
        { s.record (.create prog.name prog.dependsOn) with
          pmTinyProgs := s.pmTinyProgs ++ [prog]
          dependencyGraph := graph
          dependencyRuntime := .migrate graph (s.dependencyRuntime.snapshot s.dependencyGraph) } :=
      .of_same rfl rfl
    apply ((hadd.trans (follows_requestClosure _ prog.name)).trans (follows_markWaiting _)).trans
    apply (follows_spawn0 ω _ _).trans
    split
    · exact Follows.refl _
    · split <;> exact .of_same rfl rfl

section Tasks

theorem follows_serverExiting (ω : System) [Replies ω K] (s : Server) (id : Nat)
    (request : Request) :
    Follows K s (s.serverExiting ω id request).2 := by
  rw [serverExiting]
  split
  · exact follows_refusal ω s id _ (by decide) (by decide)
  · split
    · exact follows_refusal ω s id _ (by decide) (by decide)
    · exact Follows.refl s

theorem follows_asyncKillProg (ω : System) (s : Server) (name : String) :
    Follows K s (s.asyncKillProg ω name) := by
  rw [asyncKillProg]
  cases s.findProg name with
  | none => exact Follows.refl s
  | some p =>
    have h : Follows K s (s.setProg name fun q => (q.asyncKillProg (ω.clock s.ticks)).2).tick :=
      .of_same rfl rfl
    simp only
    split
    · exact h.trans (follows_signalTree _ name _)
    · exact h

theorem follows_timeoutRestart (ω : System) (s : Server) (name : String) :
    Follows K s (s.timeoutRestart ω name) := by
  rw [timeoutRestart]
  simp only
  split
  · exact .of_same rfl rfl
  · apply Follows.trans _ (follows_flagStartupFail _ name)
    exact .of_same rfl rfl

theorem follows_success (ω : System) [Replies ω K] (s : Server) (id : Nat) {request : Request}
    (h : SuccessBody s.toRegistry request .none) :
    Follows K s (s.writeFrame ω id request success) :=
  follows_brief ω s id request brief_success (Reply.suits_success h)

theorem follows_answerSuccess (ω : System) [Replies ω K] (s : Server) (id : Nat) {request : Request}
    (h : ∀ r, SuccessBody r request .none) : Follows K s (s.answerSuccess ω id request) := by
  rw [answerSuccess]
  split
  · simp only
    split
    · exact follows_serverExiting ω s id request
    · exact (follows_serverExiting ω s id request).trans (follows_success ω _ id (h _))
  · exact Follows.refl s

theorem live_startProg (hstarted : ¬(s.startProg ω name site).1 = some false) :
    ∃ p, (s.startProg ω name site).2.findProg name = some p ∧ p.live = true := by
  rw [startProg] at hstarted ⊢
  cases hlive : (s.findProg name).any (·.live) with
  | true =>
    rw [if_pos rfl]
    exact (Option.any_eq_true _ _).1 hlive
  | false =>
    rw [hlive, if_neg Bool.false_ne_true] at hstarted
    rw [if_neg Bool.false_ne_true]
    cases hresult : (s.realSpawnProg ω name site).1 with
    | false => exact absurd (congrArg some hresult) hstarted
    | true =>
      simp only [hresult, if_true]
      rw [talks_activatePendingLogSessions.reg]
      exact live_realSpawnProg hresult

theorem follows_startProgTask_rest (ω : System) [Replies ω K] (s : Server) (name : String)
    (id : Nat) (showLog : Bool) (site : SpawnSite) (ho : s.isOpen id = true)
    (hexit : (s.serverExiting ω id (.restart name showLog)).1 = false) :
    Follows K ((s.serverExiting ω id (.restart name showLog)).2.startProg ω name site).2
      (s.startProgTask ω name id showLog site) := by
  rw [startProgTask, if_pos ho]
  simp only [hexit, Bool.false_eq_true, if_false]
  split
  · exact follows_writeFrame ω _ id _ _ fun _ _ => Replies.error (ω := ω) _ rfl rfl rfl
  · rename_i hstarted
    obtain ⟨p, hp, hlive⟩ := live_startProg hstarted
    have h : ∀ s : Server, Follows K s
        (s.setProg name fun p => { p with deadCount := p.deadCount + 1 }) :=
      fun s => follows_setProg s name _
    cases showLog with
    | true =>
      have hfound := findProg_update_self (f := fun p => { p with deadCount := p.deadCount + 1 })
        (fun _ => rfl) hp
      simp only [if_true, hfound, Option.elim_some]
      exact (h _).trans ((follows_addSession _ name id).trans (follows_brief ω _ id _
        (brief_liveLog (some _)) (Reply.suits_success (.restartLog hfound hlive))))
    | false => exact (h _).trans (follows_success ω _ id .restart)

theorem startProgTask_of_exiting (ω : System) (s : Server) (name : String) (id : Nat)
    (showLog : Bool) (site : SpawnSite) (ho : s.isOpen id = true)
    (hexit : (s.serverExiting ω id (.restart name showLog)).1 = true) :
    s.startProgTask ω name id showLog site = (s.serverExiting ω id (.restart name showLog)).2 := by
  rw [startProgTask, if_pos ho]
  simp only [hexit, if_true]

theorem startProgTask_of_closed (ω : System) (s : Server) (name : String) (id : Nat)
    (showLog : Bool) (site : SpawnSite) (ho : s.isOpen id = false) :
    s.startProgTask ω name id showLog site = s := by
  rw [startProgTask, if_neg (by simp [ho])]

theorem follows_startProgTask (ω : System) [Replies ω K] (s : Server) (name : String) (id : Nat)
    (showLog : Bool) (hsite : site ≠ .task) :
    Follows K s (s.startProgTask ω name id showLog site) := by
  cases ho : s.isOpen id with
  | false =>
    rw [startProgTask_of_closed ω s name id showLog site ho]
    exact Follows.refl s
  | true =>
    cases hexit : (s.serverExiting ω id (.restart name showLog)).1 with
    | true =>
      rw [startProgTask_of_exiting ω s name id showLog site ho hexit]
      exact follows_serverExiting ω s id _
    | false =>
      exact ((follows_serverExiting ω s id _).trans (follows_startProg ω _ name hsite)).trans
        (follows_startProgTask_rest ω s name id showLog site ho hexit)

theorem not_shut_of_open (ho : s.isOpen id = true) : ¬ s.Shut id := by
  rintro ⟨x, hx, hc⟩
  rw [isOpen, hx] at ho
  simp [hc] at ho

theorem gone_of_closed (ho : s.isOpen id = false) : s.Shut id ∨ ¬ s.Known id := by
  cases hx : s.findSession id with
  | none =>
    right
    rintro ⟨x, hk⟩
    rw [hx] at hk
    cases hk
  | some x =>
    left
    refine ⟨x, hx, ?_⟩
    rw [isOpen, hx] at ho
    simpa using ho

theorem follows_idleRestart (s : Server) (name : String) (id : Nat) (showLog : Bool)
    (site : TaskSite) (h : s.isOpen id = false ∨ ¬ s.toRegistry.CanStart name) :
    Follows K s (s.record (.runTask name (.startProg id showLog) site)) := by
  refine ⟨fun _ h => h, fun _ h => h, [⟨_, s.toRegistry⟩], rfl, .idle ⟨site, rfl⟩ ?_ .nil⟩
  exact h.imp_left gone_of_closed

/-- The task of a restart spawns its program exactly when its session is open, the server is not
being stopped and the program has no process. -/
theorem follows_restartTask (ω : System) [Replies ω K] (s : Server) (name : String) (id : Nat)
    (showLog : Bool) (site : TaskSite) :
    Follows K s ((s.record (.runTask name (.startProg id showLog) site)).startProgTask
      ω name id showLog .task) := by
  set run := s.record (.runTask name (.startProg id showLog) site) with hrun
  cases ho : s.isOpen id with
  | false =>
    rw [startProgTask_of_closed ω run name id showLog .task ho]
    exact follows_idleRestart s name id showLog site (.inl ho)
  | true =>
    cases hexit : s.serverExit with
    | true =>
      rw [startProgTask_of_exiting ω run name id showLog .task ho
        (serverExiting_fst.trans hexit)]
      apply Follows.trans _ (follows_serverExiting ω run id _)
      apply follows_idleRestart s name id showLog site
      right
      intro hc
      rw [hc.1] at hexit
      cases hexit
    | false =>
      have hrest := follows_startProgTask_rest (K := K) ω run name id showLog .task ho
        (serverExiting_fst.trans hexit)
      rw [serverExiting_of_running (s := run) hexit] at hrest
      apply Follows.trans _ hrest
      rw [startProg]
      cases hlive : (s.findProg name).any (·.live) with
      | true =>
        have hlive' : (run.findProg name).any (·.live) = true := hlive
        rw [if_pos hlive']
        apply follows_idleRestart s name id showLog site
        right
        intro hc
        rw [hc.2] at hlive
        cases hlive
      | false =>
        have hlive' : (run.findProg name).any (·.live) = false := hlive
        rw [if_neg (by rw [hlive']; simp)]
        have hblock : Follows K s (run.record (.realSpawnProg name .task)) :=
          ⟨fun _ h => h, fun _ h => h, [⟨.realSpawnProg name .task, s.toRegistry⟩,
            ⟨.runTask name (.startProg id showLog) site, s.toRegistry⟩], rfl,
            .started rfl ⟨site, rfl⟩ (not_shut_of_open ho) ⟨hexit, hlive⟩ .nil⟩
        have hspawn := hblock.trans (follows_spawned (K := K) ω run name .task)
        simp only
        split
        · rename_i hstarted
          obtain ⟨p, hp, hp'⟩ := live_realSpawnProg hstarted
          exact hspawn.trans (follows_activatePending ω _ hp hp')
        · exact hspawn

theorem follows_runPending (ω : System) [Replies ω K] (s : Server) (name : String) (site : TaskSite)
    (completedGeneration : Nat) (pending : GenerationTask) :
    Follows K s (s.runPending ω name site completedGeneration pending) := by
  rw [runPending]
  split
  · cases pending.task with
    | planRestart nowMs lifeTime =>
      exact (follows_record s (.runTask name (.planRestart nowMs lifeTime) site) trivial).trans
        (follows_setProg _ name _)
    | timeoutRestart =>
      exact (follows_record s (.runTask name .timeoutRestart site) trivial).trans
        (follows_timeoutRestart ω _ name)
    | stopProc id =>
      exact (follows_record s (.runTask name (.stopProc id) site) trivial).trans
        (follows_answerSuccess ω _ id fun _ => .stop)
    | deleteProg id =>
      exact (follows_record s (.runTask name (.deleteProg id) site) trivial).trans
        (follows_answerSuccess ω _ id fun _ => .remove)
    | startProg id showLog => exact follows_restartTask ω s name id showLog site
  · exact Follows.refl s

theorem follows_executePenddingtasks (ω : System) [Replies ω K] (s : Server) (name : String)
    (site : TaskSite) :
    Follows K s (s.executePenddingtasks ω name site) := by
  rw [executePenddingtasks]
  cases s.findProg name with
  | none => exact Follows.refl s
  | some p =>
    simp only
    split
    · exact Follows.refl s
    · apply Follows.trans (follows_foldl _ (fun s pending =>
        follows_runPending ω s name site p.inst.generation pending) p.killPendingtasks s)
      exact follows_setProg _ name _

theorem follows_quitProg (ω : System) [Replies ω K] (s : Server) (name : String) :
    Follows K s (s.quitProg ω name) := by
  have hreset := follows_setProg (K := K) s name (·.resetRestartPolicy)
  rw [quitProg]
  have hkill : Follows K s
      (if ((s.setProg name (·.resetRestartPolicy)).findProg name).any (·.live) then
        ((s.setProg name (·.resetRestartPolicy)).asyncKillProg ω name).executePenddingtasks
          ω name .quit
      else s.setProg name (·.resetRestartPolicy)) := by
    split
    · exact (hreset.trans (follows_asyncKillProg ω _ name)).trans
        (follows_executePenddingtasks ω _ name _)
    · exact hreset
  have hsettle : ∀ s : Server, Follows K s (if (s.findProg name).any (·.state = .waitingStart) then
      s.setProg name (·.setState .noRun) else s) := by
    intro s
    split
    · exact follows_setProg s name _
    · exact Follows.refl s
  exact hkill.trans (hsettle _)

theorem follows_requestQuit (ω : System) [Replies ω K] (s : Server) :
    Follows K s (s.requestQuit ω) := by
  rw [requestQuit]
  split
  · exact Follows.refl s
  · have hexit : Follows K s { s with serverExit := true } := .of_same rfl rfl
    exact (hexit.trans (follows_record _ .requestQuit trivial)).trans
      (follows_foldl _ (follows_quitProg ω) _ _)

end Tasks

section Handlers

/-- The answers that a request can get at once, each in the states in which it is given. -/
def Allows (K : Registry → Frame → Prop) (ω : System) (s : Server) (id : Nat) (request : Request) :
    Prop :=
  let texts (status : Int) (message : String) : Prop :=
    ∀ r type requestId, K r ⟨id, type, requestId, request, { status := status, message := message }⟩
  let snapshot : Prop :=
    ∀ type requestId,
      K s.toRegistry ⟨id, type, requestId, request, { success with body := .snapshot }⟩
  match request with
  | .malformed error => texts (-1) error
  | .list | .info | .version => snapshot
  | .stop name =>
    (s.findProg name = none → texts (-1) (msgNotFound name)) ∧
      ∀ p, s.findProg name = some p → p.killPendingtasks ≠ [] →
        texts (-3) (msgCmdNotCompleted name)
  | .start request =>
    s.serverExit = false → ∀ r type requestId,
      K r ⟨id, type, requestId, .start request, (s.handleCmdStart ω id request).1⟩
  | .remove name =>
    (s.findProg name = none → texts 1 (msgNotFound name)) ∧
      ∀ p, s.findProg name = some p →
        (s.dependencyDependents name ≠ [] → texts (-3) ("cannot delete `" ++ name ++
          "`; required by: " ++ ",".intercalate (s.dependencyDependents name))) ∧
        (s.dependencyDependents name = [] → p.killPendingtasks ≠ [] →
          texts (-3) (msgCmdNotCompleted name))
  | .restart name _ =>
    (s.findProg name = none → texts (-1) (msgNotFound name)) ∧
      ∀ p, s.findProg name = some p → p.killPendingtasks ≠ [] →
        texts (-3) (msgCmdNotCompleted name)
  | .log name mode =>
    (s.findProg name = none → texts 1 (msgNotFound name)) ∧
      ∀ p, s.findProg name = some p →
        (mode = .live → p.live = false → p.restartPending = false → texts 2 ("`" ++ name ++
          "` is not running; use `pm log " ++ name ++
            " --history` to show the last completed generation")) ∧
        (mode = .history → p.live = true → texts 2 ("`" ++ name ++
          "` is running; use `pm log " ++ name ++ "`")) ∧
        (mode = .history → p.live = false →
          p.inst.generation = 0 ∨ p.hasLastExit = false ∨ p.lastExitTimeUnixMs ≤ 0 →
          texts 2 ("no completed log generation available for `" ++ name ++ "`"))
  | .inspect name =>
    (s.findProg name = none → texts 1 (msgNotFound name)) ∧
      (s.findProg name ≠ none → snapshot)
  | .reload =>
    s.serverExit = false → s.persistence.busy = false →
      (parseCfg2 (ω.loadProgCfg s.ticks)).valid = false →
      texts (-1) (if (parseCfg2 (ω.loadProgCfg s.ticks)).errorMessage = "" then
        "invalid configuration" else (parseCfg2 (ω.loadProgCfg s.ticks)).errorMessage)
  | .save | .quit | .appReady _ | .appTick _ => True

theorem follows_heartbeatPeerMatches (ω : System) (s : Server) (id : Nat) (p : ProgInfo) :
    Follows K s (s.heartbeatPeerMatches ω id p).2 := by
  have h : Follows K s (s.setProg p.name fun q => q.observe (ω.members s.ticks p.name)).tick :=
    .of_same rfl rfl
  rw [heartbeatPeerMatches]
  simp only
  split
  · exact h
  · exact h.trans (follows_closeSession _ id)

theorem follows_finishStart (s : Server) (id : Nat) (request : StartRequest) :
    Follows K s (s.finishStart id request).2 := by
  rw [finishStart]
  split
  · exact follows_addSession s request.name id
  · exact Follows.refl s

theorem follows_handleStartExisting (ω : System) (s : Server) (id : Nat) (request : StartRequest) :
    Follows K s (s.handleStartExisting ω id request).2 := by
  rw [handleStartExisting]
  cases s.findProg request.name with
  | none => exact Follows.refl s
  | some p =>
    simp only
    split
    · exact Follows.refl s
    · have h := (follows_setProg (K := K) s request.name (·.resetRestartPolicy)).trans
        (follows_requestStart ω _ request.name)
      split
      · exact h.trans (follows_finishStart _ id request)
      · exact h

theorem follows_handleStartCreate (ω : System) (s : Server) (id : Nat) (request : StartRequest) :
    Follows K s (s.handleStartCreate ω id request).2 := by
  rw [handleStartCreate]
  cases s.findProg request.name with
  | some p => exact Follows.refl s
  | none =>
    simp only
    cases targetUser ω id request s with
    | error reply => exact follows_tick s
    | ok cfg =>
      simp only
      cases createProg cfg "runtime" with
      | none => exact follows_tick s
      | some prog =>
        simp only
        split
        · exact follows_tick s
        · have h := (follows_tick (K := K) s).trans (follows_startAndAddProg ω s.tick prog)
          split
          · exact h.trans (follows_finishStart _ id request)
          · exact h

theorem follows_handleCmdStart (ω : System) (s : Server) (id : Nat) (request : StartRequest) :
    Follows K s (s.handleCmdStart ω id request).2 := by
  rw [handleCmdStart]
  cases request.mode with
  | existing => exact follows_handleStartExisting ω s id request
  | create => exact follows_handleStartCreate ω s id request

theorem follows_handleStop (ω : System) [Replies ω K] (s : Server) (id : Nat) (name : String)
    (h : Allows K ω s id (.stop name)) : Follows K s (s.handleStop ω id name) := by
  rw [handleStop]
  cases hp : s.findProg name with
  | none => exact follows_writeFrame ω s id _ _ (h.1 hp _)
  | some p =>
    simp only
    split
    · rename_i htasks
      exact follows_writeFrame ω s id _ _ (h.2 p hp htasks _)
    · have hexit := follows_serverExiting (K := K) ω s id (.stop name)
      split
      · exact hexit
      · have h := (hexit.trans (follows_setProg (K := K) _ name (·.resetRestartPolicy))).trans
          (follows_failPending ω _ name "log wait canceled by stop" (by decide))
        split
        · exact (h.trans (follows_asyncKillProg ω _ name)).trans (follows_setProg _ name _)
        · apply h.trans
          apply (follows_record _ (.stopIdle name) trivial).trans
          have hstopped : ∀ s : Server,
              Follows K s ((s.setProg name (·.setState .stoped)).markDependencyStopped name) :=
            fun _ => .of_same rfl rfl
          exact (hstopped _).trans (follows_success ω _ id .stop)

theorem follows_handleRemove (ω : System) [Replies ω K] (s : Server) (id : Nat) (name : String)
    (h : Allows K ω s id (.remove name)) : Follows K s (s.handleRemove ω id name) := by
  rw [handleRemove]
  cases hp : s.findProg name with
  | none => exact follows_writeFrame ω s id _ _ (h.1 hp _)
  | some p =>
    simp only
    split
    · rename_i hdependents
      exact follows_writeFrame ω s id _ _ ((h.2 p hp).1 hdependents _)
    · rename_i hdependents
      split
      · rename_i htasks
        exact follows_writeFrame ω s id _ _ ((h.2 p hp).2 (not_not.1 hdependents) htasks _)
      · have hexit := follows_serverExiting (K := K) ω s id (.remove name)
        split
        · exact hexit
        · split
          · exact ((hexit.trans (follows_asyncKillProg ω _ name)).trans
              (follows_setProg _ name _)).trans (follows_setProg _ name _)
          · apply hexit.trans
            apply (follows_record _ (.removeIdle name) trivial).trans
            exact ((follows_triggerDAG _ name).trans
              (follows_answerSuccess ω _ id fun _ => .remove)).trans
              (follows_removeProg ω _ name)

theorem follows_handleRestart (ω : System) [Replies ω K] (s : Server) (id : Nat) (name : String)
    (showLog : Bool) (h : Allows K ω s id (.restart name showLog)) :
    Follows K s (s.handleRestart ω id name showLog) := by
  rw [handleRestart]
  cases hp : s.findProg name with
  | none => exact follows_writeFrame ω s id _ _ (h.1 hp _)
  | some p =>
    have hreset := follows_setProg (K := K) s name (·.resetRestartPolicy)
    simp only
    split
    · rename_i htasks
      exact hreset.trans (follows_writeFrame ω _ id _ _ (h.2 p hp htasks _))
    · split
      · exact (hreset.trans (follows_asyncKillProg ω _ name)).trans (follows_setProg _ name _)
      · apply hreset.trans
        apply (follows_record _ (.restartIdle name) trivial).trans
        exact follows_startProgTask ω _ name id showLog (by simp)

theorem follows_handleSave (ω : System) [Replies ω K] (s : Server) (id : Nat) :
    Follows K s (s.handleSave ω id) := by
  rw [handleSave]
  split
  · exact follows_refusal ω s id _ (by decide) (by decide)
  · exact .of_same rfl rfl

theorem brief_log (response : ProgramLogResponse) :
    Reply.Brief { success with body := .log response } := by
  have hmessage : success.message.utf8ByteSize ≤ 64 := by decide
  exact ⟨hmessage, by simp, by simp⟩

theorem follows_handleLog (ω : System) [Replies ω K] (s : Server) (id : Nat) (name : String)
    (mode : LogRequestMode) (h : Allows K ω s id (.log name mode)) :
    Follows K s (s.handleLog ω id name mode) := by
  rw [handleLog]
  cases hp : s.findProg name with
  | none => exact follows_writeFrame ω s id _ _ (h.1 hp _)
  | some p =>
    obtain ⟨hidle, hlive, hempty⟩ := h.2 p hp
    simp only
    split
    · rename_i hmode
      split
      · exact .of_same rfl rfl
      · rename_i hpending
        exact follows_writeFrame ω s id _ _
          (hidle hmode.1 (by simpa using hmode.2) (by simpa using hpending) _)
    · split
      · rename_i hmode
        exact follows_writeFrame ω s id _ _ (hlive hmode.1 hmode.2 _)
      · split
        · rename_i hrun hmode
          apply follows_writeFrame ω s id _ _
          refine hempty hmode.1 ?_ (by simpa using hmode.2) _
          simpa [hmode.1] using hrun
        · rename_i hrun hrunning hnone
          cases mode with
          | live =>
            have hp' : p.live = true := by simpa using hrun
            rw [if_pos rfl]
            exact (follows_addSession s name id).trans (follows_brief ω _ id _ (brief_log _)
              (Reply.suits_success (.live hp hp' rfl rfl)))
          | history =>
            obtain ⟨hgeneration, hexit, htime⟩ : p.inst.generation ≠ 0 ∧ p.hasLastExit = true ∧
                0 < p.lastExitTimeUnixMs := by simpa using hnone
            rw [if_neg (show ¬LogRequestMode.history = .live by decide), if_pos hexit]
            exact follows_brief ω _ id _ (brief_log _)
              (Reply.suits_success (.history rfl hgeneration htime rfl))

theorem follows_handleAppReady (ω : System) (s : Server) (id : Nat) (name : String) :
    Follows K s (s.handleAppReady ω id name) := by
  rw [handleAppReady]
  cases s.findProg name with
  | none => exact follows_closeSession s id
  | some p =>
    have hpeer := follows_heartbeatPeerMatches (K := K) ω s id p
    simp only
    split
    · exact hpeer
    · split
      · apply hpeer.trans
        apply Follows.trans _ (follows_spawn1 ω _ [name] .appReady)
        exact .of_same rfl rfl
      · exact hpeer

theorem follows_handleAppTick (ω : System) (s : Server) (id : Nat) (name : String) :
    Follows K s (s.handleAppTick ω id name) := by
  rw [handleAppTick]
  cases s.findProg name with
  | none => exact follows_closeSession s id
  | some p =>
    have hpeer := follows_heartbeatPeerMatches (K := K) ω s id p
    simp only
    split
    · exact hpeer.trans (.of_same rfl rfl)
    · exact hpeer

theorem follows_handleInspect (ω : System) (s : Server) (id : Nat) (name : String)
    (h : Allows K ω s id (.inspect name)) : Follows K s (s.handleInspect ω id name) := by
  rw [handleInspect]
  cases hp : s.findProg name with
  | none => exact follows_writeFrame ω s id _ _ (h.1 hp _)
  | some p => exact follows_writeFrame ω s id _ _ (h.2 (by simp [hp]))

theorem follows_handleQuit (ω : System) [Replies ω K] (s : Server) (id : Nat) :
    Follows K s (s.handleQuit ω id) := by
  have hpid : Reply.Brief { success with body := .pid ω.pid } := by
    have hmessage : success.message.utf8ByteSize ≤ 64 := by decide
    exact ⟨hmessage, by simp, by simp⟩
  exact (follows_brief ω s id _ hpid (Reply.suits_success .quit)).trans (follows_requestQuit ω _)

theorem follows_handleReload (ω : System) [Replies ω K] (s : Server) (id : Nat)
    (h : Allows K ω s id .reload) : Follows K s (s.handleReload ω id) := by
  rw [handleReload]
  cases hexit : s.serverExit with
  | true =>
    simp only [serverExiting_fst, hexit, if_true]
    exact follows_serverExiting ω s id .reload
  | false =>
    simp only [serverExiting_of_running hexit, Bool.false_eq_true, if_false]
    split
    · exact follows_refusal ω s id _ (by decide) (by decide)
    · rename_i hbusy
      split
      · rename_i hvalid
        have hreply := h hexit (by simpa using hbusy) (by simpa using hvalid)
        exact (follows_tick s).trans (follows_writeFrame ω _ id _ _ (hreply _))
      · have hquit : ∀ s config,
            Follows K s ({ s with reloadConfig := some config }.requestQuit ω) := by
          intro s config
          apply Follows.trans _ (follows_requestQuit ω _)
          exact .of_same rfl rfl
        exact ((follows_tick s).trans (hquit _ _)).trans (.of_same rfl rfl)

theorem follows_handleFrame (ω : System) [Replies ω K] (s : Server) (id : Nat) (request : Request)
    (h : Allows K ω s id request) : Follows K s (s.handleFrame ω id request) := by
  cases request with
  | malformed error => exact follows_writeFrame ω s id _ _ (h _)
  | list => exact follows_writeFrame ω s id _ _ h
  | info => exact follows_writeFrame ω s id _ _ h
  | version => exact follows_writeFrame ω s id _ _ h
  | stop name => exact follows_handleStop ω s id name h
  | start request =>
    simp only [handleFrame]
    cases hexit : s.serverExit with
    | true =>
      simp only [serverExiting_fst, hexit, if_true]
      exact follows_serverExiting ω s id (.start request)
    | false =>
      simp only [serverExiting_of_running hexit, Bool.false_eq_true, if_false]
      exact (follows_handleCmdStart ω s id request).trans
        (follows_writeFrame ω _ id _ _ (h hexit _))
  | save => exact follows_handleSave ω s id
  | remove name => exact follows_handleRemove ω s id name h
  | restart name showLog => exact follows_handleRestart ω s id name showLog h
  | log name mode => exact follows_handleLog ω s id name mode h
  | appReady name => exact follows_handleAppReady ω s id name
  | appTick name => exact follows_handleAppTick ω s id name
  | inspect name => exact follows_handleInspect ω s id name h
  | quit => exact follows_handleQuit ω s id
  | reload => exact follows_handleReload ω s id h

def AnyAnswer (_ : Registry) (_ : Frame) : Prop := True

instance : Admits ω AnyAnswer where
  brief _ := trivial
  error _ _ _ := trivial

theorem allows_any (ω : System) (s : Server) (id : Nat) (request : Request) :
    Allows AnyAnswer ω s id request := by
  cases request <;> simp [Allows, AnyAnswer]

end Handlers

section Loop

theorem follows_reapProg (ω : System) [Replies ω K] (acc : Reaped × Server) (p : ProgInfo)
    (wstatus : Nat) :
    Follows K acc.2 (reapProg ω acc p wstatus).2 := by
  have hexit : ∀ nowMs unixMs, Follows K acc.2 ((acc.2.markDependencyStopped p.name).setProg p.name
      fun q => q.noteExit nowMs unixMs wstatus).tick := fun _ _ => .of_same rfl rfl
  have htree := fun nowMs unixMs => ((hexit nowMs unixMs).trans
    (follows_detachSessions ω _ p.name)).trans (follows_isTreeEmpty ω _ p.name)
  have hset : ∀ (s : Server) f, Follows K s (s.setProg p.name f).tick := fun _ _ => .of_same rfl rfl
  rw [reapProg]
  simp only
  split
  · split
    · exact ((htree _ _).trans (hset _ _)).trans (follows_signalTree _ p.name _)
    · exact (htree _ _).trans (hset _ _)
  · exact (htree _ _).trans (follows_setProg _ p.name _)

theorem follows_reapChild (ω : System) [Replies ω K] (acc : Reaped × Server) (child : Nat × Nat) :
    Follows K acc.2 (reapChild ω acc child).2 := by
  rw [reapChild]
  cases acc.2.pmTinyProgs.find? fun p => p.inst.pid = some child.1 with
  | none => exact Follows.refl _
  | some p => exact follows_reapProg ω acc p child.2

theorem follows_reapAll (ω : System) [Replies ω K] (children : List (Nat × Nat)) (s : Server) :
    Follows K s (s.reapAll ω children) := by
  rw [reapAll]
  apply Follows.trans _ (follows_foldl _ (follows_removeProg ω) _ _)
  apply Follows.trans _
    (follows_foldl _ (fun s name => follows_executePenddingtasks ω s name _) _ _)
  have h := follows_foldl_snd (K := K) (reapChild ω) (follows_reapChild (K := K) ω) children ({}, s)
  split
  · exact h
  · exact h.trans (follows_spawn1 ω _ _ _)

theorem follows_scheduledRestart (ω : System) [Replies ω K] (nowMs : Int) (s : Server)
    (name : String) :
    Follows K s (s.scheduledRestart ω nowMs name) := by
  rw [scheduledRestart]
  cases s.findProg name with
  | none => exact Follows.refl s
  | some p =>
    simp only
    split
    · exact Follows.refl s
    · have htree := follows_isTreeEmpty (K := K) ω s name
      split
      · exact htree
      · have h := (htree.trans (follows_startProg ω _ name
          (by simp : SpawnSite.scheduled ≠ .task))).trans
          (follows_setProg _ name fun p => { p with restartPending := false, restartDueMs := 0 })
        split
        · exact (h.trans (follows_failPending ω _ name _ (by decide))).trans
            (follows_flagStartupFail _ name)
        · exact h

theorem follows_dueRestarts (ω : System) [Replies ω K] (nowMs : Int) (ordered : List String)
    (due : List Nat) (s : Server) : Follows K s (s.dueRestarts ω nowMs ordered due) := by
  rw [dueRestarts]
  apply follows_foldl
  intro s index
  cases ordered[index]? with
  | none => exact Follows.refl s
  | some name => exact follows_scheduledRestart ω nowMs s name

theorem follows_handleTimeouts (ω : System) [Replies ω K] (nowMs : Int) (ordered : List String)
    (events : List LifecycleTimeoutEvent) (startingProg : List String) (s : Server) :
    Follows K s (handleTimeouts ω nowMs ordered events startingProg s).2.2 := by
  induction events generalizing startingProg s with
  | nil => exact Follows.refl s
  | cons event events ih =>
    rw [handleTimeouts]
    split
    · exact ih startingProg s
    · rename_i p _
      split
      · exact ih startingProg s
      · cases event.action with
        | acceptReady => exact (follows_setProg s p.name _).trans (ih _ _)
        | ignore => exact (follows_setProg s p.name _).trans (ih _ _)
        | restart =>
          exact ((follows_asyncKillProg ω s p.name).trans (follows_setProg _ p.name _)).trans
            (ih _ _)
        | reboot => exact Follows.refl s

theorem follows_pollProg (ω : System) [Replies ω K] (s : Server) (name : String) :
    Follows K s (s.pollProg ω name) := by
  rw [pollProg]
  cases s.findProg name with
  | none => exact Follows.refl s
  | some p =>
    simp only
    split
    · exact Follows.refl s
    · have hpoll : Follows K s ((s.isTreeEmpty ω name).2.setProg name fun p =>
          (p.pollTermination (ω.clock s.ticks) (s.isTreeEmpty ω name).1).2) :=
        (follows_isTreeEmpty ω s name).trans (follows_setProg _ name _)
      have hgone : ∀ s : Server,
          Follows K s (if p.live then (false, s) else s.isTreeEmpty ω name).2 := by
        intro s
        split
        · exact Follows.refl s
        · exact follows_isTreeEmpty ω s name
      have h := hpoll.trans (hgone _)
      generalize (if p.live then _ else _) = gone at h ⊢
      split
      · exact (h.trans (follows_setProg _ name _)).trans (follows_executePenddingtasks ω _ name _)
      · split
        · split
          · exact (h.trans (follows_setProg _ name _)).trans (follows_signalTree _ name _)
          · exact h.trans (follows_setProg _ name _)
        · exact h

theorem follows_checkDelayedChldSig (ω : System) [Replies ω K]
    (children : Option (List (Nat × Nat)))
    (s : Server) : Follows K s (s.checkDelayedChldSig ω children) := by
  have hreap : Follows K s (children.elim s fun children => s.reapAll ω children).tick := by
    cases children with
    | none => exact follows_tick s
    | some children => exact (follows_reapAll ω children s).trans (follows_tick _)
  have hdue : ∀ (s : Server) nowMs ordered due, Follows K s
      (if s.serverExit then s else s.dueRestarts ω nowMs ordered due) := by
    intro s nowMs ordered due
    split
    · exact Follows.refl s
    · exact follows_dueRestarts ω nowMs ordered due s
  have hready : ∀ (c : Prop) [Decidable c] (s : Server) names,
      Follows K s (if c then s.spawn1 ω names .timeout else s) := by
    intro c _ s names
    split
    · exact follows_spawn1 ω s names _
    · exact Follows.refl s
  rw [checkDelayedChldSig]
  exact (((hreap.trans (hdue _ _ _ _)).trans (follows_handleTimeouts ω _ _ _ [] _)).trans
    (follows_foldl _ (follows_pollProg ω) _ _)).trans (hready _ _ _)

theorem follows_answerAll (ω : System) [Replies ω K] {request : Request} {reply : Reply}
    (h : reply.Brief) (hs : ∀ r, reply.Suits r request) (ids : List Nat) (s : Server) :
    Follows K s (s.answerAll ω request reply ids) :=
  follows_foldl _ (fun s id => follows_brief ω s id request h (hs _)) ids s

theorem brief_if {c : Prop} [Decidable c] {reply reply' : Reply} (h : reply.Brief)
    (h' : reply'.Brief) : (if c then reply else reply').Brief := by
  split
  · exact h
  · exact h'

theorem suits_if {c : Prop} [Decidable c] {reply reply' : Reply} (h : reply.Suits r request)
    (h' : reply'.Suits r request) : (if c then reply else reply').Suits r request := by
  split
  · exact h
  · exact h'

theorem follows_pollSaveProcToCfg (ω : System) [Replies ω K] (s : Server) :
    Follows K s (s.pollSaveProcToCfg ω) := by
  rw [pollSaveProcToCfg]
  split
  · have hidle : Follows K s { s with persistence := .idle } := .of_same rfl rfl
    have hreply : ∀ result : Int, Reply.Brief (if result = 0 then
        { status := 0, message := "save success" } else { status := 1, message := "save fail" }) :=
      fun _ => brief_if (brief_text 0 (by decide)) (brief_text 1 (by decide))
    have hsuits : ∀ (result : Int) (r : Registry), Reply.Suits r .save (if result = 0 then
        { status := 0, message := "save success" } else { status := 1, message := "save fail" }) :=
      fun _ _ => suits_if ⟨by decide, fun _ => .save⟩ (Reply.suits_text (by decide) _)
    exact (hidle.trans (follows_answerAll ω (hreply _) (hsuits _) _ _)).trans (.of_same rfl rfl)
  · exact Follows.refl s

theorem follows_anyLiving (ω : System) (s : Server) : Follows K s (s.anyLiving ω).2 := by
  rw [anyLiving]
  refine follows_foldl_snd _ ?_ _ (false, s)
  intro acc name
  simp only
  split
  · exact Follows.refl acc.2
  · exact follows_isTreeEmpty ω acc.2 name

theorem follows_checkQuitOrReload (ω : System) [Replies ω K] (s : Server) :
    Follows K s (s.checkQuitOrReload ω) := by
  have h := (follows_pollSaveProcToCfg (K := K) ω s).trans (follows_anyLiving (K := K) ω _)
  rw [checkQuitOrReload]
  simp only
  split
  · exact h
  · apply h.trans
    generalize ((s.pollSaveProcToCfg ω).anyLiving ω).2 = s
    split
    · exact (follows_record s .loopExit trivial).trans (.of_same rfl rfl)
    · rename_i config _
      have hanswer : ∀ reply : Reply, reply.Brief → (∀ r, reply.Suits r .reload) →
          Follows K s { ({ s with serverExit := false }.answerAll ω .reload reply
            s.waitReloadSessions) with waitReloadSessions := [] } := by
        intro reply hb hs
        have hcont : Follows K s { s with serverExit := false } := .of_same rfl rfl
        exact (hcont.trans (follows_answerAll ω hb hs _ _)).trans (.of_same rfl rfl)
      have hreply : Reply.Brief (if config.valid then success
          else { status := -1, message := "invalid configuration" }) :=
        brief_if brief_success (brief_text (-1) (by decide))
      have hsuits : ∀ r : Registry, Reply.Suits r .reload (if config.valid then success
          else { status := -1, message := "invalid configuration" }) :=
        fun _ => suits_if (Reply.suits_success .reload) (Reply.suits_text (by decide) _)
      split
      · exact (hanswer _ hreply hsuits).trans (.of_same rfl rfl)
      · have hswap : ∀ s : Server, Follows K s (s.swapReloadConfig config) := fun s =>
          (follows_record s .swapReloadConfig trivial).trans (.of_same rfl rfl)
        exact (((hanswer _ hreply hsuits).trans (hswap _)).trans
          (follows_foldl _ (follows_detachSessions ω) _ _)).trans (follows_spawn ω _)

theorem follows_maintenance (ω : System) [Replies ω K] (exitSignal : Bool)
    (children : Option (List (Nat × Nat))) (s : Server) :
    Follows K s (s.maintenance ω exitSignal children) := by
  have hexit : Follows K s (s.checkDelayedExitSig ω exitSignal) := by
    rw [checkDelayedExitSig]
    split
    · exact (follows_record s .exitSignal trivial).trans (follows_requestQuit ω _)
    · exact Follows.refl s
  exact (hexit.trans (follows_checkDelayedChldSig ω children _)).trans
    (follows_checkQuitOrReload ω _)

theorem follows_acceptSession (s : Server) (id : Nat) (peer : Option Peer) :
    Follows K s (s.acceptSession id peer) := by
  rw [acceptSession]
  split
  · exact Follows.refl s
  · have hkeep : ∀ k x, s.findSession k = some x →
        Server.findSession { s with sessions := s.sessions ++ [{ id := id, peer := peer }] } k =
          some x := by
      intro k x hx
      rw [findSession, Keyed.find, List.find?_append]
      rw [findSession, Keyed.find] at hx
      rw [hx]
      rfl
    refine ⟨?_, ?_, [], rfl, .nil⟩
    · rintro k ⟨x, hx⟩
      exact ⟨x, hkeep k x hx⟩
    · rintro k ⟨x, hx, hc⟩
      exact ⟨x, hkeep k x hx, hc⟩

theorem follows_dispatchMessage (ω : System) [Replies ω K] (id messageType requestId : Nat)
    (request : Request) (s : Server)
    (h : Allows K ω (s.setSession id fun session => { session with
      currentMessageType := messageType, currentRequestId := requestId }) id request) :
    Follows K s (s.dispatchMessage ω id messageType requestId request) := by
  rw [dispatchMessage]
  split
  · apply Follows.trans _ (follows_handleFrame ω _ id request h)
    exact follows_setSession s id (fun _ => rfl) fun _ h => h
  · exact Follows.refl s

theorem follows_allowed (ω : System) [Replies ω K]
    (h : ∀ s id request, Allows K ω s id request) (s : Server) (input : Input) :
    Follows K s (s.step ω input) := by
  unfold step
  split
  · exact Follows.refl s
  · cases input with
    | connect id peer => exact follows_acceptSession s id peer
    | request id messageType requestId request =>
      exact follows_dispatchMessage ω id messageType requestId request s
        (h _ id request)
    | disconnect id => exact follows_closeSession s id
    | maintenance exitSignal children => exact follows_maintenance ω exitSignal children s
    | treeChange name => exact follows_observe ω s name
    | saveDone result =>
      simp only
      split
      · exact .of_same rfl rfl
      · exact Follows.refl s

theorem follows_step (ω : System) (s : Server) (input : Input) :
    Follows AnyAnswer s (s.step ω input) := follows_allowed ω (allows_any ω) s input

theorem follows_run (ω : System) (s : Server) (inputs : List Input) :
    Follows AnyAnswer s (s.run ω inputs) := follows_foldl _ (follows_step ω) inputs s

end Loop

end Server

end PmTiny
