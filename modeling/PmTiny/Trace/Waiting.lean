import PmTiny.Trace.Sessions

namespace PmTiny
set_option autoImplicit true

/-- The program has no process and waits for its scheduled restart. -/
def Registry.BackingOff (r : Registry) (name : String) : Prop :=
  ∃ p, r.findProg name = some p ∧ p.restartPending = true ∧ p.live = false

namespace Event

/-- An answer that ends a log wait: an error, or the live stream of the new generation. -/
def Resolves (e : Event) (name : String) (id : Nat) : Prop :=
  ∃ frame, e.call = .answer frame ∧ frame.session = id ∧ frame.request = .log name .live ∧
    (frame.reply.status = -1 ∨ frame.reply.status = 0 ∧ ∃ p, e.reg.findProg name = some p ∧
      p.live = true ∧ frame.reply.body = Server.liveLogResponse p)

/-- A call that starts the next generation of a program, or cancels its restart, and tells the
waiting log clients nothing. `t` counts the system calls before the step. -/
def Strands (ω : System) (t : Nat) (name : String) (e : Event) : Prop :=
  match e.call with
  -- A spawn that the system never grants leaves the program backing off.
  | .realSpawnProg n .runtime => n = name ∧
      ∃ p tick pid, e.reg.findProg name = some p ∧ ω.spawn tick p = .started pid
  | .requestClosure n => n = name
  | .requestQuit => True
  -- `handle_cmd_restart` has reset the policy before it finds that it cannot start the program.
  | .restartIdle n => n = name ∧ (e.reg.serverExit = true ∨
      ∀ p pid, e.reg.findProg name = some p → ω.spawn t p ≠ .started pid)
  | .answer frame => (∃ showLog, frame.request = .restart name showLog) ∧ frame.reply.status = -3
  | .runTask n (.planRestart nowMs lifeTime) _ => n = name ∧
      ∃ p, e.reg.findProg name = some p ∧ (p.planAutomaticRestart nowMs lifeTime).1.restart = false
  | .runTask n .timeoutRestart _ => n = name ∧ ∃ p tick, e.reg.findProg name = some p ∧
      (p.planAutomaticRestart (ω.clock tick) (ω.clock tick - p.lastStartupMs)).1.restart = false
  | _ => False

end Event

/-- The update leaves a program that waits for its restart as it is. -/
def Harmless (f : ProgInfo → ProgInfo) : Prop :=
  ∀ p, (f p).name = p.name ∧ (f p).restartPending = p.restartPending ∧ (f p).live = p.live

namespace Server

variable {s s' s'' : Server} {ω : System} {id t : Nat} {name : String} {X Y : String → Prop}

def Unawaited (s : Server) (name : String) : Prop := ∀ id, (name, id) ∉ s.pendingLogSessions

def Told (s s' : Server) (name : String) (id : Nat) : Prop :=
  s'.Shut id ∨ ¬s.Known id ∨ ∃ e ∈ s.since s', e.Resolves name id

/-- Waiting clients are not forgotten on the way from one state to another: a client that waits no
more was told, and a program that backed off still does or is awaited no more, unless a call
stranded its clients. Nothing is said about the programs in `X`. -/
structure Serves (ω : System) (t : Nat) (X : String → Prop) (s s' : Server) : Prop where
  known : ∀ id, s.Known id → s'.Known id
  shut : ∀ id, s.Shut id → s'.Shut id
  waits : ∀ e ∈ s'.pendingLogSessions, e ∈ s.pendingLogSessions
  extends_history : ∃ new, s'.history = new ++ s.history
  kept : ∀ n, ¬X n → (∀ e ∈ s.since s', ¬e.Strands ω t n) → s.BackingOff n →
    s'.BackingOff n ∨ s'.Unawaited n
  told : ∀ n id, (n, id) ∈ s.pendingLogSessions →
    (n, id) ∈ s'.pendingLogSessions ∨ Told s s' n id

theorem since_append (h : ∃ new, s'.history = new ++ s.history)
    (h' : ∃ new, s''.history = new ++ s'.history) :
    s.since s'' = s'.since s'' ++ s.since s' := by
  obtain ⟨new, hnew⟩ := h
  obtain ⟨new', hnew'⟩ := h'
  rw [since_eq hnew, since_eq hnew']
  apply since_eq
  rw [hnew', hnew, List.append_assoc]

theorem Unawaited.serves (h : s.Unawaited name) (hs : Serves ω t X s s') : s'.Unawaited name :=
  fun id hid => h id (hs.waits _ hid)

theorem Told.earlier (h : Told s' s'' name id) (hs : Serves ω t X s s')
    (hs' : Serves ω t X s' s'') : Told s s'' name id := by
  rcases h with h | h | ⟨e, he, hresolves⟩
  · exact .inl h
  · exact .inr (.inl fun hk => h (hs.known id hk))
  · refine .inr (.inr ⟨e, ?_, hresolves⟩)
    rw [since_append hs.extends_history hs'.extends_history]
    exact List.mem_append_left _ he

theorem Told.later (h : Told s s' name id) (hs : Serves ω t X s s')
    (hs' : Serves ω t X s' s'') : Told s s'' name id := by
  rcases h with h | h | ⟨e, he, hresolves⟩
  · exact .inl (hs'.shut id h)
  · exact .inr (.inl h)
  · refine .inr (.inr ⟨e, ?_, hresolves⟩)
    rw [since_append hs.extends_history hs'.extends_history]
    exact List.mem_append_right _ he

namespace Serves

theorem of_same (hs : s'.sessions = s.sessions) (hw : s'.pendingLogSessions = s.pendingLogSessions)
    (hh : s'.history = s.history) (h : ∀ n, ¬X n → s.BackingOff n → s'.BackingOff n) :
    Serves ω t X s s' := by
  have hf : ∀ id, s'.findSession id = s.findSession id := by
    intro id
    rw [findSession, hs, findSession]
  constructor
  · intro id hk
    rw [Known, hf]
    exact hk
  · intro id hk
    rw [Shut, hf]
    exact hk
  · intro e he
    rw [← hw]
    exact he
  · exact ⟨[], hh⟩
  · intro n hn _ hb
    exact .inl (h n hn hb)
  · intro n id hid
    rw [hw]
    exact .inl hid

theorem refl (s : Server) : Serves ω t X s s := of_same rfl rfl rfl fun _ _ h => h

theorem trans (h : Serves ω t X s s') (h' : Serves ω t X s' s'') : Serves ω t X s s'' := by
  have hsince := since_append h.extends_history h'.extends_history
  constructor
  · intro id hk
    exact h'.known id (h.known id hk)
  · intro id hk
    exact h'.shut id (h.shut id hk)
  · intro e he
    exact h.waits e (h'.waits e he)
  · obtain ⟨new, hnew⟩ := h.extends_history
    obtain ⟨new', hnew'⟩ := h'.extends_history
    exact ⟨new' ++ new, by rw [hnew', hnew, List.append_assoc]⟩
  · intro n hn hstrands hb
    rw [hsince] at hstrands
    rcases h.kept n hn (fun e he => hstrands e (List.mem_append_right _ he)) hb with hb | hnone
    · exact h'.kept n hn (fun e he => hstrands e (List.mem_append_left _ he)) hb
    · exact .inr (hnone.serves h')
  · intro n id hid
    rcases h.told n id hid with hid | htold
    · exact (h'.told n id hid).imp_right (·.earlier h h')
    · exact .inr (htold.later h h')

theorem settle (h : Serves ω t Y s s') (hY : ∀ n, Y n → ¬X n →
    (∀ e ∈ s.since s', ¬e.Strands ω t n) → s.BackingOff n → s'.BackingOff n ∨ s'.Unawaited n) :
    Serves ω t X s s' :=
  { h with
    kept := fun n hn hstrands hb => by
      by_cases hy : Y n
      · exact hY n hy hn hstrands hb
      · exact h.kept n hy hstrands hb }

theorem foldl (f : Server → α → Server) (hf : ∀ s a, Serves ω t X s (f s a)) (l : List α)
    (s : Server) : Serves ω t X s (l.foldl f s) := by
  induction l generalizing s with
  | nil => exact refl s
  | cons a l ih => exact (hf s a).trans (ih (f s a))

theorem foldl_snd {β : Type} (f : β × Server → α → β × Server)
    (hf : ∀ acc a, Serves ω t X acc.2 (f acc a).2) (l : List α) (acc : β × Server) :
    Serves ω t X acc.2 (l.foldl f acc).2 := by
  induction l generalizing acc with
  | nil => exact refl acc.2
  | cons a l ih => exact (hf acc a).trans (ih (f acc a))

end Serves

theorem since_record (s : Server) (call : Call) :
    s.since (s.record call) = [⟨call, s.toRegistry⟩] :=
  since_eq rfl

theorem serves_record (s : Server) (call : Call) : Serves ω t X s (s.record call) :=
  ⟨fun _ h => h, fun _ h => h, fun _ h => h, ⟨[_], rfl⟩, fun _ _ _ h => .inl h,
    fun _ _ h => .inl h⟩

theorem serves_setSession (s : Server) (id : Nat) (hid : ∀ x, (f x).id = x.id)
    (hc : ∀ x, x.closed = true → (f x).closed = true) : Serves ω t X s (s.setSession id f) := by
  have h := follows_setSession (K := AnyAnswer) s id hid hc
  exact ⟨h.known, h.shut, fun _ h => h, ⟨[], rfl⟩, fun _ _ _ h => .inl h, fun _ _ h => .inl h⟩

theorem serves_closeSession (s : Server) (id : Nat) : Serves ω t X s (s.closeSession id) := by
  rw [closeSession]
  cases s.findSession id with
  | none => exact .refl s
  | some x =>
    simp only
    split
    · exact .refl s
    · cases x.prog with
      | none => exact serves_setSession s id (fun _ => rfl) fun _ _ => rfl
      | some n =>
        have h : Serves ω t X s { s with logSessions := s.logSessions.filter (· ≠ (n, id)) } :=
          .of_same rfl rfl rfl fun _ _ h => h
        exact h.trans (serves_setSession _ id (fun _ => rfl) fun _ _ => rfl)

theorem serves_tick (s : Server) : Serves ω t X s s.tick := .of_same rfl rfl rfl fun _ _ h => h

theorem serves_writeFrame (ω : System) (s : Server) (id : Nat) (request : Request) (reply : Reply) :
    Serves ω t X s (s.writeFrame ω id request reply) := by
  rw [writeFrame]
  cases s.findSession id with
  | none => exact .refl s
  | some x =>
    simp only
    split
    · exact .refl s
    · apply (serves_record s (.answer _)).trans
      split
      · exact serves_tick _
      · exact (serves_tick _).trans (serves_closeSession _ id)

theorem open_of_known (hk : s.Known id) (hopen : ¬s.Shut id) : s.isOpen id = true := by
  obtain ⟨x, hx⟩ := hk
  cases hc : x.closed with
  | true => exact absurd ⟨x, hx, hc⟩ hopen
  | false =>
    rw [isOpen, hx, Option.any_some, hc]
    rfl

theorem history_writeFrame (ω : System) (hopen : s.isOpen id = true) (request : Request)
    (reply : Reply) : ∃ frame, (s.writeFrame ω id request reply).history =
      ⟨.answer frame, s.toRegistry⟩ :: s.history ∧ frame.session = id ∧
        frame.request = request ∧ frame.reply = reply := by
  rw [isOpen, Option.any_eq_true] at hopen
  obtain ⟨x, hx, hclosed⟩ := hopen
  refine ⟨⟨id, x.currentMessageType, x.currentRequestId, request, reply⟩, ?_, rfl, rfl, rfl⟩
  rw [writeFrame, hx]
  simp only [Bool.not_eq_true'] at hclosed
  simp only [hclosed, Bool.false_eq_true, if_false]
  split
  · rfl
  · exact closeSession_history _ id

theorem answered_writeFrame (ω : System) (hopen : s.isOpen id = true) (request : Request)
    (reply : Reply) : ∃ e ∈ s.since (s.writeFrame ω id request reply), e.reg = s.toRegistry ∧
      ∃ frame, e.call = .answer frame ∧ frame.session = id ∧ frame.request = request ∧
        frame.reply = reply := by
  obtain ⟨frame, hhistory, hfields⟩ := history_writeFrame ω hopen request reply
  have hsince : s.since (s.writeFrame ω id request reply) = [⟨.answer frame, s.toRegistry⟩] :=
    since_eq hhistory
  rw [hsince]
  exact ⟨_, List.mem_singleton_self _, rfl, frame, rfl, hfields⟩

theorem serves_addSession (s : Server) (name : String) (id : Nat) :
    Serves ω t X s (s.addSession name id) := by
  have h : Serves ω t X s { s with logSessions := s.logSessions ++ [(name, id)] } :=
    .of_same rfl rfl rfl fun _ _ h => h
  exact h.trans (serves_setSession _ id (fun _ => rfl) fun _ h => h)

theorem isOpen_setSession (hopen : s.isOpen id = true) (hid : ∀ x, (f x).id = x.id)
    (hc : ∀ x, (f x).closed = x.closed) : (s.setSession id f).isOpen id = true := by
  obtain ⟨x, hx, hclosed⟩ := (Option.any_eq_true _ _).1 hopen
  rw [isOpen, findSession_setSession s id hid, hx, Option.map_some, Option.any_some, hc]
  exact hclosed

theorem isOpen_addSession (hopen : s.isOpen id = true) :
    (s.addSession name id).isOpen id = true := by
  have hopen' : isOpen { s with logSessions := s.logSessions ++ [(name, id)] } id = true := hopen
  exact isOpen_setSession hopen' (fun _ => rfl) fun _ => rfl

theorem told_foldl (f : Server → Nat → Server) (I : Server → Prop)
    (hf : ∀ s id, Serves ω t X s (f s id))
    (hI : ∀ s id, I s → I (f s id)) (htold : ∀ s id, I s → Told s (f s id) name id)
    (ids : List Nat) (hid : id ∈ ids) (s : Server) (hs : I s) :
    Told s (ids.foldl f s) name id := by
  induction ids generalizing s with
  | nil => cases hid
  | cons k ids ih =>
    have hrest := Serves.foldl f hf ids (f s k)
    rcases List.mem_cons.1 hid with rfl | hid
    · exact (htold s id hs).later (hf s id) hrest
    · exact (ih hid (f s k) (hI s k hs)).earlier (hf s k) hrest

theorem serves_resolve (f : Server → Nat → Server) (I : Server → Prop)
    (hf : ∀ s id, Serves ω t X s (f s id)) (hI : ∀ s id, I s → I (f s id))
    (htold : ∀ s id, I s → Told s (f s id) name id) (s : Server) (hs : I s) :
    Serves ω t X s
      { ((sessionsOf s.pendingLogSessions name).foldl f s) with
        pendingLogSessions :=
          ((sessionsOf s.pendingLogSessions name).foldl f s).pendingLogSessions.filter
          fun e => e.1 ≠ name } := by
  have hfold := Serves.foldl f hf (sessionsOf s.pendingLogSessions name) s
  refine ⟨hfold.known, hfold.shut, fun e he => hfold.waits e (List.mem_filter.1 he).1,
    hfold.extends_history, ?_, ?_⟩
  · intro n hn hstrands hb
    rcases hfold.kept n hn hstrands hb with hb | hnone
    · exact .inl hb
    · exact .inr fun id hid => hnone id (List.mem_filter.1 hid).1
  · intro n id hid
    by_cases hn : n = name
    · subst hn
      right
      apply told_foldl f I hf hI htold _ _ s hs
      rw [sessionsOf, List.mem_map]
      exact ⟨(n, id), List.mem_filter.2 ⟨hid, by simp⟩, rfl⟩
    · rcases hfold.told n id hid with hid | htold
      · exact .inl (List.mem_filter.2 ⟨hid, by simpa using hn⟩)
      · exact .inr htold

theorem serves_failPending (ω : System) (s : Server) (name message : String) :
    Serves ω t X s (s.failPendingLogSessions ω name message) := by
  rw [failPendingLogSessions]
  apply serves_resolve _ (fun _ => True) (fun s id => serves_writeFrame ω s id _ _)
    (fun _ _ _ => trivial) _ s trivial
  intro s id _
  by_cases hk : s.Known id
  · by_cases hs : s.Shut id
    · exact .inl ((serves_writeFrame (X := fun _ => True) (t := 0) ω s id _ _).shut id hs)
    · obtain ⟨e, he, -, frame, hcall, hid, hrequest, hreply⟩ := answered_writeFrame ω
        (open_of_known hk hs) (.log name .live) { status := -1, message := message }
      exact .inr (.inr ⟨e, he, frame, hcall, hid, hrequest, .inl (by rw [hreply])⟩)
  · exact .inr (.inl hk)

theorem unawaited_failPending (ω : System) (s : Server) (name message : String) :
    (s.failPendingLogSessions ω name message).Unawaited name := by
  intro id hid
  rw [failPendingLogSessions] at hid
  simp at hid

theorem serves_activatePending (ω : System) (hp : s.findProg name = some p)
    (hlive : p.live = true) :
    Serves ω t X s (s.activatePendingLogSessions ω name) := by
  have hf : ∀ (body : ReplyBody) (s : Server) (id : Nat), Serves ω t X s
      (if s.isOpen id then (s.addSession name id).writeFrame ω id (.log name .live)
        { status := 0, message := "success", body := body } else s) := by
    intro body s id
    split
    · exact (serves_addSession s name id).trans (serves_writeFrame ω _ id _ _)
    · exact .refl s
  have hreg : ∀ (body : ReplyBody) (s : Server) (id : Nat),
      (if s.isOpen id then (s.addSession name id).writeFrame ω id (.log name .live)
        { status := 0, message := "success", body := body } else s).toRegistry = s.toRegistry := by
    intro body s id
    split
    · exact toRegistry_writeFrame
    · rfl
  rw [activatePendingLogSessions]
  apply serves_resolve _ (fun s => s.findProg name = some p) (hf _) _ _ s hp
  · intro s id hs
    rw [hreg]
    exact hs
  · intro s' id hs
    cases hopen : s'.isOpen id with
    | false =>
      rw [if_neg Bool.false_ne_true]
      exact (gone_of_closed hopen).imp_right .inl
    | true =>
      rw [if_pos rfl, hp]
      obtain ⟨e, he, hereg, frame, hcall, hid, hrequest, hreply⟩ := answered_writeFrame ω
        (isOpen_addSession hopen)
        (.log name .live) { status := 0, message := "success", body := liveLogResponse p }
      refine .inr (.inr ⟨e, ?_, frame, hcall, hid, hrequest, .inr ?_⟩)
      · have h := serves_addSession (ω := ω) (t := t) (X := X) s' name id
        rw [since_append h.extends_history
          (serves_writeFrame (t := t) (X := X) ω _ id _ _).extends_history]
        exact List.mem_append_left _ he
      · rw [hreply]
        refine ⟨rfl, p, ?_, hlive, rfl⟩
        rw [hereg]
        exact hs

theorem unawaited_activatePending (ω : System) (s : Server) (name : String) :
    (s.activatePendingLogSessions ω name).Unawaited name := by
  intro id hid
  rw [activatePendingLogSessions] at hid
  simp at hid

theorem serves_detachSessions (ω : System) (s : Server) (name : String) :
    Serves ω t X s (s.detachSessions ω name) := by
  rw [detachSessions]
  apply Serves.trans _ (serves_failPending ω _ name _)
  apply Serves.trans (Serves.foldl _ _ (sessionsOf s.logSessions name) s)
  · exact .of_same rfl rfl rfl fun _ _ h => h
  · intro s id
    exact serves_setSession s id (fun _ => rfl) fun _ h => h

theorem unawaited_detachSessions (ω : System) (s : Server) (name : String) :
    (s.detachSessions ω name).Unawaited name := unawaited_failPending ω _ name _

section Programs

theorem findProg_update_ne (hname : ∀ p, (f p).name = p.name) (hn : n ≠ name) :
    (s.setProg name f).findProg n = s.findProg n := Keyed.find_update_ne hn hname

theorem serves_setProg (s : Server) (hX : X name) (hname : ∀ p, (f p).name = p.name) :
    Serves ω t X s (s.setProg name f) := by
  refine .of_same rfl rfl rfl ?_
  rintro n hn ⟨p, hp, hb⟩
  have hne : n ≠ name := fun h => hn (h ▸ hX)
  exact ⟨p, (findProg_update_ne hname hne).trans hp, hb⟩

theorem backingOff_setProg (h : s.BackingOff n) (hf : Harmless f) :
    (s.setProg name f).BackingOff n := by
  obtain ⟨p, hp, hpending, hlive⟩ := h
  by_cases hn : n = name
  · subst hn
    exact ⟨f p, findProg_update_self (fun p => (hf p).1) hp, (hf p).2.1.trans hpending,
      (hf p).2.2.trans hlive⟩
  · exact ⟨p, (findProg_update_ne (fun p => (hf p).1) hn).trans hp, hpending, hlive⟩

theorem serves_harmless (s : Server) (name : String) (hf : Harmless f) :
    Serves ω t X s (s.setProg name f) :=
  .of_same rfl rfl rfl fun _ _ h => backingOff_setProg h hf

theorem serves_setState (s : Server) (name : String) (state : ProgState) :
    Serves ω t X s (s.setProg name (·.setState state)) :=
  serves_harmless s name fun _ => ⟨rfl, rfl, rfl⟩

theorem serves_setRuntime (s : Server) (rt : DependencyRuntime) :
    Serves ω t X s (s.setRuntime rt) :=
  .of_same rfl rfl rfl fun _ _ h => h

theorem serves_observe (ω : System) (s : Server) (name : String) :
    Serves ω t X s (s.observe ω name) := by
  apply Serves.trans _ (serves_tick _)
  exact serves_harmless s name fun _ => ⟨rfl, rfl, rfl⟩

theorem serves_isTreeEmpty (ω : System) (s : Server) (name : String) :
    Serves ω t X s (s.isTreeEmpty ω name).2 := serves_observe ω s name

theorem serves_signalTree (s : Server) (name : String) (signal : Signal) :
    Serves ω t X s (s.signalTree name signal) := serves_record s _

theorem serves_realSpawnProg (ω : System) (s : Server) (hX : X name) (site : SpawnSite) :
    Serves ω t X s (s.realSpawnProg ω name site).2 := by
  apply (serves_record s (.realSpawnProg name site)).trans
  have hends := realSpawnProg_ends ω s name site
  generalize s.realSpawnProg ω name site = result at hends ⊢
  cases hends with
  | unknown => exact .refl _
  | refused p errno => exact .of_same rfl rfl rfl fun _ _ h => h
  | aborted p pid errno =>
    have herrno : ∀ s : Server, Serves ω t X s (s.setErrno errno).tick :=
      fun s => .of_same rfl rfl rfl fun _ _ h => h
    apply Serves.trans _ (herrno _)
    exact serves_setProg _ hX fun p => (keeps_spawnAborted pid p).1
  | started p pid =>
    apply Serves.trans _ (serves_tick _)
    exact serves_setProg _ hX fun p => (keeps_spawnStarted pid _ p).1

theorem backingOff_realSpawnProg (hfailed : (s.realSpawnProg ω name site).1 = false)
    (h : s.BackingOff n) : (s.realSpawnProg ω name site).2.BackingOff n := by
  have hrecord : (s.record (.realSpawnProg name site)).BackingOff n := h
  have hends := realSpawnProg_ends ω s name site
  generalize s.realSpawnProg ω name site = result at hfailed hends ⊢
  cases hends with
  | unknown => exact hrecord
  | refused => exact hrecord
  | aborted p pid errno =>
    obtain ⟨q, hq, hpending, hlive⟩ := hrecord
    by_cases hn : n = name
    · subst hn
      exact ⟨_, findProg_update_self (fun p => (keeps_spawnAborted pid p).1) hq, hpending, rfl⟩
    · exact ⟨q, (findProg_update_ne (fun p => (keeps_spawnAborted pid p).1) hn).trans hq, hpending,
        hlive⟩
  | started => cases hfailed

theorem serves_failedSpawn (ω : System) (s : Server) (name : String) (site : SpawnSite)
    (hfailed : (s.realSpawnProg ω name site).1 = false) :
    Serves ω t X s (s.realSpawnProg ω name site).2 := by
  apply Serves.settle (serves_realSpawnProg (X := (· = name)) ω s rfl site)
  intro n _ _ _ hb
  exact .inl (backingOff_realSpawnProg hfailed hb)

theorem Serves.settle_stranded (h : Serves ω t (· = name) s s')
    (hcall : ∃ e ∈ s.since s', e.Strands ω t name) : Serves ω t X s s' := by
  apply h.settle
  rintro n rfl - hstrands -
  obtain ⟨e, he, hstrand⟩ := hcall
  exact absurd hstrand (hstrands e he)

theorem started_of_realSpawnProg (h : (s.realSpawnProg ω name site).1 = true) :
    ∃ p pid, s.findProg name = some p ∧ ω.spawn s.ticks p = .started pid := by
  have hfind : (s.record (.realSpawnProg name site)).findProg name = s.findProg name := rfl
  have hticks : (s.record (.realSpawnProg name site)).ticks = s.ticks := rfl
  rw [realSpawnProg, hfind] at h
  cases hp : s.findProg name with
  | none =>
    rw [hp] at h
    cases h
  | some p =>
    rw [hp] at h
    simp only [hticks] at h
    cases hspawn : ω.spawn s.ticks p with
    | started pid => exact ⟨p, pid, rfl, hspawn⟩
    | refused errno =>
      simp only [hspawn] at h
      cases h
    | aborted pid errno =>
      simp only [hspawn] at h
      cases h

theorem serves_runtimeSpawn (ω : System) (s : Server) (name : String) :
    Serves ω t X s (s.realSpawnProg ω name .runtime).2 := by
  cases hresult : (s.realSpawnProg ω name .runtime).1 with
  | false => exact serves_failedSpawn ω s name .runtime hresult
  | true =>
    obtain ⟨p, pid, hp, hspawn⟩ := started_of_realSpawnProg hresult
    have h := serves_realSpawnProg (X := (· = name)) (t := t) ω s rfl .runtime
    apply h.settle_stranded
    refine ⟨⟨.realSpawnProg name .runtime, s.toRegistry⟩, ?_, rfl, p, s.ticks, pid, hp, hspawn⟩
    have hrest : ∃ new, (s.realSpawnProg ω name .runtime).2.history =
        new ++ (s.record (.realSpawnProg name .runtime)).history :=
      (follows_spawned (K := AnyAnswer) ω s name .runtime).events.imp fun _ h => h.1
    rw [since_append ⟨[_], rfl⟩ hrest, since_record]
    exact List.mem_append_right _ (List.mem_singleton_self _)

theorem serves_blockProg (s : Server) (name : String) : Serves ω t X s (s.blockProg name) := by
  rw [blockProg]
  cases s.findProg name with
  | none => exact .refl s
  | some p => exact (serves_record s (.blocked name)).trans (serves_setState _ name _)

theorem serves_flagStartupFail (s : Server) (name : String) :
    Serves ω t X s (s.flagStartupFail name) := by
  rw [flagStartupFail]
  exact ((serves_setRuntime s _).trans (serves_setState _ name _)).trans
    (Serves.foldl _ serves_blockProg _ _)

theorem serves_spawnOne (ω : System) (acc : List String × Server) (name : String) :
    Serves ω t X acc.2 (spawnOne ω acc name).2 := by
  have hspawn := serves_runtimeSpawn (t := t) (X := X) ω acc.2 name
  have hends := spawnOne_ends ω acc name
  generalize spawnOne ω acc name = result at hends ⊢
  cases hends with
  | skipped => exact .refl _
  | spawned => exact hspawn
  | failed => exact hspawn.trans (serves_flagStartupFail _ name)

theorem serves_spawn0 (ω : System) (s : Server) (names : List String) :
    Serves ω t X s (s.spawn0 ω names).2 :=
  (serves_record s (.spawn0 names)).trans
    (Serves.foldl_snd _ (serves_spawnOne ω) names ([], s.record (.spawn0 names)))

theorem serves_markReady (s : Server) (name : String) : Serves ω t X s (s.markReady name).2 :=
  serves_setRuntime s _

theorem serves_spawn1 (ω : System) (s : Server) (names : List String) (site : ReadySite) :
    Serves ω t X s (s.spawn1 ω names site) := by
  have hready := Serves.foldl_snd (ω := ω) (t := t) (X := X)
    (fun (acc : List String × Server) name =>
      (acc.1 ++ (acc.2.markReady name).1, (acc.2.markReady name).2))
    (fun acc name => serves_markReady acc.2 name) names ([], s.record (.spawn1 names site))
  rw [spawn1]
  apply ((serves_record s (.spawn1 names site)).trans hready).trans
  split
  · exact .refl _
  · exact serves_spawn0 ω _ _

theorem startProg_started (ω : System) (site : SpawnSite)
    (hlive : (s.findProg name).any (·.live) = false)
    (hstarted : (s.realSpawnProg ω name site).1 = true) :
    s.startProg ω name site =
      (some true, (s.realSpawnProg ω name site).2.activatePendingLogSessions ω name) := by
  rw [startProg, if_neg (by rw [hlive]; exact Bool.false_ne_true)]
  simp only [hstarted, if_true]

theorem startProg_failed (ω : System) (site : SpawnSite)
    (hlive : (s.findProg name).any (·.live) = false)
    (hfailed : (s.realSpawnProg ω name site).1 = false) :
    s.startProg ω name site = (some false, (s.realSpawnProg ω name site).2) := by
  rw [startProg, if_neg (by rw [hlive]; exact Bool.false_ne_true)]
  simp only [hfailed, Bool.false_eq_true, if_false]

theorem serves_startProg (ω : System) (s : Server) (name : String) (site : SpawnSite) :
    Serves ω t X s (s.startProg ω name site).2 := by
  cases hlive : (s.findProg name).any (·.live) with
  | true =>
    rw [startProg, if_pos hlive]
    exact .refl s
  | false =>
    cases hresult : (s.realSpawnProg ω name site).1 with
    | false =>
      rw [startProg_failed ω site hlive hresult]
      exact serves_failedSpawn ω s name site hresult
    | true =>
      rw [startProg_started ω site hlive hresult]
      obtain ⟨p, hp, hp'⟩ := live_realSpawnProg hresult
      have h := (serves_realSpawnProg (X := (· = name)) (t := t) ω s rfl site).trans
        (serves_activatePending ω hp hp')
      apply h.settle
      rintro n rfl - - -
      exact .inr (unawaited_activatePending ω _ n)

theorem serves_markWaiting (s : Server) : Serves ω t X s s.markWaiting := by
  rw [markWaiting]
  apply Serves.foldl
  intro s n
  split
  · exact (serves_record s (.waitingStart n)).trans (serves_setState _ n _)
  · exact .refl s

theorem serves_requestClosure (s : Server) (name : String) :
    Serves ω t X s (s.requestClosure name).2 :=
  (serves_record s (.requestClosure name)).trans (serves_setRuntime _ _)

theorem serves_markRunning (s : Server) : Serves ω t X s s.markRunning := by
  rw [markRunning]
  apply Serves.foldl
  intro s p
  split
  · exact serves_markReady s p.name
  · exact .refl s

theorem mem_since (h : Serves ω t X s s') (h' : Serves ω t X s' s'') (he : e ∈ s.since s') :
    e ∈ s.since s'' := by
  rw [since_append h.extends_history h'.extends_history]
  exact List.mem_append_right _ he

theorem mem_since_later (h : Serves ω t X s s') (h' : Serves ω t X s' s'') (he : e ∈ s'.since s'') :
    e ∈ s.since s'' := by
  rw [since_append h.extends_history h'.extends_history]
  exact List.mem_append_left _ he

theorem serves_closure (h : Serves ω t (· = name) s s')
    (h' : Serves ω t (· = name) (s'.requestClosure name).2 s'') : Serves ω t X s s'' := by
  have hclosure := serves_requestClosure (ω := ω) (t := t) (X := (· = name)) s' name
  apply ((h.trans hclosure).trans h').settle_stranded
  refine ⟨⟨.requestClosure name, s'.toRegistry⟩, ?_, rfl⟩
  apply mem_since (h.trans hclosure) h'
  apply mem_since_later h hclosure
  have hsince : s'.since (s'.requestClosure name).2 = [⟨.requestClosure name, s'.toRegistry⟩] :=
    since_eq rfl
  rw [hsince]
  exact List.mem_singleton_self _

theorem serves_triggerDAG (s : Server) (name : String) :
    Serves ω t X s (s.triggerDAGTraversalNextNode name) := by
  rw [triggerDAGTraversalNextNode]
  split
  · exact serves_setRuntime s _
  · exact .refl s

theorem serves_rebuild (s : Server) : Serves ω t X s s.rebuildDependencyGraph := by
  rw [rebuildDependencyGraph]
  cases buildProgDependencyGraph s.pmTinyProgs with
  | error e => exact .refl s
  | ok graph =>
    have h : Serves ω t X s { s with dependencyGraph := graph, dependencyRuntime := .reset } :=
      .of_same rfl rfl rfl fun _ _ h => h
    exact h.trans (serves_markRunning _)

theorem findProg_remove_ne (hn : n ≠ name) :
    ({ s with pmTinyProgs := Keyed.remove ProgInfo.name name s.pmTinyProgs } : Server).findProg n =
      s.findProg n := Keyed.find_remove_ne hn

theorem serves_remove (s : Server) (hX : X name) : Serves ω t X s
    { s with pmTinyProgs := Keyed.remove ProgInfo.name name s.pmTinyProgs } := by
  refine .of_same rfl rfl rfl ?_
  rintro n hn ⟨p, hp, hb⟩
  have hne : n ≠ name := fun h => hn (h ▸ hX)
  exact ⟨p, (findProg_remove_ne hne).trans hp, hb⟩

theorem serves_removeProg (ω : System) (s : Server) (name : String) :
    Serves ω t X s (s.removeProg ω name) := by
  have hremove := serves_remove (ω := ω) (t := t) (X := (· = name)) s rfl
  have hrest := serves_rebuild (ω := ω) (t := t) (X := (· = name))
    (detachSessions ω name { s with pmTinyProgs := Keyed.remove ProgInfo.name name s.pmTinyProgs })
  apply ((hremove.trans (serves_detachSessions ω _ name)).trans hrest).settle
  rintro n rfl - - -
  exact .inr ((unawaited_detachSessions ω _ n).serves hrest)

end Programs

section Starting

theorem serves_spawn (ω : System) (s : Server) (h : ∀ n, ¬X n → s.Unawaited n) :
    Serves ω t X s (s.spawn ω) := by
  rw [spawn]
  apply Serves.trans _ (serves_spawn0 ω _ _)
  have hset : Serves ω t (fun _ => True) s ({ s with
      pmTinyProgs := s.pmTinyProgs.map fun p : ProgInfo => p.setState .waitingStart }.setRuntime
        (DependencyRuntime.requestAll s.dependencyGraph .reset).1) :=
    .of_same rfl rfl rfl fun _ h => absurd trivial h
  apply hset.settle
  intro n _ hn _ _
  exact .inr ((h n hn).serves hset)

theorem serves_requestStart (ω : System) (h : Serves ω t (· = name) s s') :
    Serves ω t X s (s'.requestStart ω name).2 := by
  rw [requestStart]
  exact serves_closure (h.trans (serves_markRunning _))
    ((serves_markWaiting _).trans (serves_spawn0 ω _ _))

theorem findProg_add (s : Server) (prog : ProgInfo) (hp : s.findProg n = some p) (graph rt) :
    ({ s with pmTinyProgs := s.pmTinyProgs ++ [prog], dependencyGraph := graph,
              dependencyRuntime := rt } : Server).findProg n = some p := by
  rw [Registry.findProg, Keyed.find, List.find?_append]
  rw [Registry.findProg, Keyed.find] at hp
  rw [hp]
  rfl

theorem serves_add (s : Server) (prog : ProgInfo) (graph : DependencyGraph)
    (rt : DependencyRuntime) :
    Serves ω t X s { s with
      pmTinyProgs := s.pmTinyProgs ++ [prog], dependencyGraph :=
        graph, dependencyRuntime := rt } := by
  refine .of_same rfl rfl rfl ?_
  rintro n - ⟨p, hp, hb⟩
  exact ⟨p, findProg_add s prog hp graph rt, hb⟩

theorem serves_startAndAddProg (ω : System) (s : Server) (prog : ProgInfo) :
    Serves ω t X s (s.startAndAddProg ω prog).2 := by
  have hcreate := serves_record (ω := ω) (t := t) (X := (· = prog.name)) s
    (.create prog.name prog.dependsOn)
  rw [startAndAddProg]
  cases buildProgDependencyGraph ((s.record (.create prog.name prog.dependsOn)).pmTinyProgs ++
      [prog]) with
  | error e => exact serves_record s _
  | ok graph =>
    simp only
    split
    · exact serves_closure (hcreate.trans (serves_add _ prog graph _))
        ((serves_markWaiting _).trans (serves_spawn0 ω _ _))
    · apply serves_closure (hcreate.trans (serves_add _ prog graph _))
      apply ((serves_markWaiting _).trans (serves_spawn0 ω _ _)).trans
      apply (serves_remove (X := (· = prog.name)) _ rfl).trans
      split <;> exact .of_same rfl rfl rfl fun _ _ h => h

end Starting

section Tasks

theorem serves_serverExiting (ω : System) (s : Server) (id : Nat) (request : Request) :
    Serves ω t X s (s.serverExiting ω id request).2 := by
  rw [serverExiting]
  split
  · exact serves_writeFrame ω s id _ _
  · split
    · exact serves_writeFrame ω s id _ _
    · exact .refl s

theorem serves_asyncKillProg (ω : System) (s : Server) (name : String) :
    Serves ω t X s (s.asyncKillProg ω name) := by
  rw [asyncKillProg]
  cases s.findProg name with
  | none => exact .refl s
  | some p =>
    have h : Serves ω t X s (s.setProg name fun q =>
      (q.asyncKillProg (ω.clock s.ticks)).2).tick := by
      apply Serves.trans _ (serves_tick _)
      exact serves_harmless s name fun _ => ⟨rfl, rfl, rfl⟩
    simp only
    split
    · exact h.trans (serves_signalTree _ name _)
    · exact h

theorem serves_enqueue (s : Server) (name : String) (task : Task) :
    Serves ω t X s (s.setProg name (·.enqueueAfterTermination task)) :=
  serves_harmless s name fun _ => ⟨rfl, rfl, rfl⟩

theorem serves_answerSuccess (ω : System) (s : Server) (id : Nat) (request : Request) :
    Serves ω t X s (s.answerSuccess ω id request) := by
  rw [answerSuccess]
  split
  · simp only
    split
    · exact serves_serverExiting ω s id request
    · exact (serves_serverExiting ω s id request).trans (serves_writeFrame ω _ id _ _)
  · exact .refl s

theorem serves_startProgTask_rest (ω : System) (s : Server) (name : String) (id : Nat)
    (showLog : Bool) (site : SpawnSite) (ho : s.isOpen id = true)
    (hexit : (s.serverExiting ω id (.restart name showLog)).1 = false) :
    Serves ω t X ((s.serverExiting ω id (.restart name showLog)).2.startProg ω name site).2
      (s.startProgTask ω name id showLog site) := by
  rw [startProgTask, if_pos ho]
  simp only [hexit, Bool.false_eq_true, if_false]
  split
  · exact serves_writeFrame ω _ id _ _
  · have h : ∀ s : Server, Serves ω t X s
        (s.setProg name fun p => { p with deadCount := p.deadCount + 1 }) :=
      fun s => serves_harmless s name fun _ => ⟨rfl, rfl, rfl⟩
    split
    · exact (h _).trans ((serves_addSession _ name id).trans (serves_writeFrame ω _ id _ _))
    · exact (h _).trans (serves_writeFrame ω _ id _ _)

theorem serves_startProgTask (ω : System) (s : Server) (name : String) (id : Nat) (showLog : Bool)
    (site : SpawnSite) : Serves ω t X s (s.startProgTask ω name id showLog site) := by
  cases ho : s.isOpen id with
  | false =>
    rw [startProgTask_of_closed ω s name id showLog site ho]
    exact .refl s
  | true =>
    cases hexit : (s.serverExiting ω id (.restart name showLog)).1 with
    | true =>
      rw [startProgTask_of_exiting ω s name id showLog site ho hexit]
      exact serves_serverExiting ω s id _
    | false =>
      exact ((serves_serverExiting ω s id _).trans (serves_startProg ω _ name site)).trans
        (serves_startProgTask_rest ω s name id showLog site ho hexit)

theorem serves_plan (s : Server) (call : Call) (hname : ∀ p, (f p).name = p.name)
    (hgranted : ∀ p, s.findProg name = some p → ¬Event.Strands ω t name ⟨call, s.toRegistry⟩ →
      (f p).restartPending = true ∧ (f p).live = p.live) :
    Serves ω t X s ((s.record call).setProg name f) := by
  have hrecord := serves_record (ω := ω) (t := t) (X := (· = name)) s call
  have hset := serves_setProg (ω := ω) (t := t) (X := (· = name)) (s.record call) rfl hname
  apply (hrecord.trans hset).settle
  rintro n rfl - hstrands ⟨p, hp, -, hlive⟩
  left
  have hcall := mem_since hrecord hset (by rw [since_record]; exact List.mem_singleton_self _)
  obtain ⟨hpending, hsame⟩ := hgranted p hp (hstrands _ hcall)
  exact ⟨f p, findProg_update_self hname hp, hpending, hsame.trans hlive⟩

theorem serves_planRestart (s : Server) (name : String) (nowMs lifeTime : Int) (site : TaskSite) :
    Serves ω t X s
      ((s.record (.runTask name (.planRestart nowMs lifeTime) site)).planRestart name nowMs
        lifeTime) := by
  apply serves_plan s (.runTask name (.planRestart nowMs lifeTime) site)
  · intro p
    rfl
  · intro p hp hstrands
    refine ⟨?_, rfl⟩
    by_contra hno
    exact hstrands ⟨rfl, p, hp, Bool.not_eq_true _ ▸ hno⟩

theorem serves_planOrFail (c : Prop) [Decidable c] (h : Serves ω t X s s') :
    Serves ω t X s (if c then s'.tick else s'.tick.flagStartupFail name) := by
  split
  · exact h.trans (serves_tick _)
  · exact (h.trans (serves_tick _)).trans (serves_flagStartupFail _ name)

theorem serves_timeoutRestart (ω : System) (s : Server) (name : String) (site : TaskSite) :
    Serves ω t X s ((s.record (.runTask name .timeoutRestart site)).timeoutRestart ω name) := by
  apply serves_planOrFail
  apply serves_plan s (.runTask name .timeoutRestart site)
  · intro p
    split <;> rfl
  · intro p hp hstrands
    split
    · rename_i hgranted
      exact ⟨hgranted, rfl⟩
    · rename_i hno
      exact absurd ⟨rfl, p, s.ticks, hp, Bool.not_eq_true _ ▸ hno⟩ hstrands

theorem serves_runPending (ω : System) (s : Server) (name : String) (site : TaskSite)
    (completedGeneration : Nat) (pending : GenerationTask) :
    Serves ω t X s (s.runPending ω name site completedGeneration pending) := by
  rw [runPending]
  split
  · cases pending.task with
    | planRestart nowMs lifeTime => exact serves_planRestart s name nowMs lifeTime site
    | timeoutRestart => exact serves_timeoutRestart ω s name site
    | stopProc id => exact (serves_record s _).trans (serves_answerSuccess ω _ id _)
    | deleteProg id => exact (serves_record s _).trans (serves_answerSuccess ω _ id _)
    | startProg id showLog =>
      exact (serves_record s _).trans (serves_startProgTask ω _ name id showLog .task)
  · exact .refl s

theorem serves_executePenddingtasks (ω : System) (s : Server) (name : String) (site : TaskSite) :
    Serves ω t X s (s.executePenddingtasks ω name site) := by
  rw [executePenddingtasks]
  cases s.findProg name with
  | none => exact .refl s
  | some p =>
    simp only
    split
    · exact .refl s
    · apply Serves.trans (Serves.foldl _ (fun s pending =>
        serves_runPending ω s name site p.inst.generation pending) p.killPendingtasks s)
      exact serves_harmless _ name fun _ => ⟨rfl, rfl, rfl⟩

theorem serves_reset (s : Server) (hX : X name) :
    Serves ω t X s (s.setProg name (·.resetRestartPolicy)) := serves_setProg s hX fun _ => rfl

theorem serves_quitProg (ω : System) (s : Server) (name : String) :
    Serves ω t (fun _ => True) s (s.quitProg ω name) := by
  have hreset : Serves ω t (fun _ => True) s (s.setProg name (·.resetRestartPolicy)) :=
    serves_reset s trivial
  have hkill : Serves ω t (fun _ => True) s
      (if ((s.setProg name (·.resetRestartPolicy)).findProg name).any (·.live) then
        ((s.setProg name (·.resetRestartPolicy)).asyncKillProg ω
          name).executePenddingtasks ω name .quit
      else s.setProg name (·.resetRestartPolicy)) := by
    split
    · exact (hreset.trans (serves_asyncKillProg ω _ name)).trans
        (serves_executePenddingtasks ω _ name _)
    · exact hreset
  have hsettle : ∀ s : Server, Serves ω t (fun _ => True) s
      (if (s.findProg name).any (·.state = .waitingStart) then s.setProg name (·.setState .noRun)
      else s) := by
    intro s
    split
    · exact serves_setState s name _
    · exact .refl s
  rw [quitProg]
  exact hkill.trans (hsettle _)

theorem serves_requestQuit (ω : System) (s : Server) : Serves ω t X s (s.requestQuit ω) := by
  rw [requestQuit]
  split
  · exact .refl s
  · have hexit : Serves ω t (fun _ => True) s { s with serverExit := true } :=
      .of_same rfl rfl rfl fun _ _ h => h
    have hrecord :=
      serves_record (ω := ω) (t := t) (X := fun _ => True) { s with serverExit := true }
      .requestQuit
    have hquit := Serves.foldl (quitProg ω) (serves_quitProg (t := t) ω)
      ({ s with serverExit := true }.record .requestQuit).stopOrder
      ({ s with serverExit := true }.record .requestQuit)
    apply ((hexit.trans hrecord).trans hquit).settle
    intro n _ _ hstrands _
    exfalso
    have hcall := mem_since (hexit.trans hrecord) hquit (mem_since_later hexit hrecord
      (by rw [since_record]; exact List.mem_singleton_self _))
    exact hstrands _ hcall trivial

end Tasks

section Handlers

theorem serves_heartbeatPeerMatches (ω : System) (s : Server) (id : Nat) (p : ProgInfo) :
    Serves ω t X s (s.heartbeatPeerMatches ω id p).2 := by
  have h : Serves ω t X s
    (s.setProg p.name fun q => q.observe (ω.members s.ticks p.name)).tick := by
    apply Serves.trans _ (serves_tick _)
    exact serves_harmless s p.name fun _ => ⟨rfl, rfl, rfl⟩
  rw [heartbeatPeerMatches]
  simp only
  split
  · exact h
  · exact h.trans (serves_closeSession _ id)

theorem serves_finishStart (s : Server) (id : Nat) (request : StartRequest) :
    Serves ω t X s (s.finishStart id request).2 := by
  rw [finishStart]
  split
  · exact serves_addSession s request.name id
  · exact .refl s

theorem serves_handleStartExisting (ω : System) (s : Server) (id : Nat) (request : StartRequest) :
    Serves ω t X s (s.handleStartExisting ω id request).2 := by
  rw [handleStartExisting]
  cases s.findProg request.name with
  | none => exact .refl s
  | some p =>
    simp only
    split
    · exact .refl s
    · have h := serves_requestStart (X := X) ω
        (serves_reset (ω := ω) (t := t) (X := (· = request.name)) s rfl)
      split
      · exact h.trans (serves_finishStart _ id request)
      · exact h

theorem serves_handleStartCreate (ω : System) (s : Server) (id : Nat) (request : StartRequest) :
    Serves ω t X s (s.handleStartCreate ω id request).2 := by
  rw [handleStartCreate]
  cases s.findProg request.name with
  | some p => exact .refl s
  | none =>
    simp only
    cases targetUser ω id request s with
    | error reply => exact serves_tick s
    | ok cfg =>
      simp only
      cases createProg cfg "runtime" with
      | none => exact serves_tick s
      | some prog =>
        simp only
        split
        · exact serves_tick s
        · have h := (serves_tick (ω := ω) (t := t) (X := X) s).trans
            (serves_startAndAddProg ω s.tick prog)
          split
          · exact h.trans (serves_finishStart _ id request)
          · exact h

theorem serves_handleCmdStart (ω : System) (s : Server) (id : Nat) (request : StartRequest) :
    Serves ω t X s (s.handleCmdStart ω id request).2 := by
  rw [handleCmdStart]
  cases request.mode with
  | existing => exact serves_handleStartExisting ω s id request
  | create => exact serves_handleStartCreate ω s id request

theorem serves_handleStop (ω : System) (s : Server) (id : Nat) (name : String) :
    Serves ω t X s (s.handleStop ω id name) := by
  rw [handleStop]
  cases s.findProg name with
  | none => exact serves_writeFrame ω s id _ _
  | some p =>
    simp only
    split
    · exact serves_writeFrame ω s id _ _
    · split
      · exact serves_serverExiting ω s id _
      · have hreset := ((serves_serverExiting (t := t) (X := (· = name)) ω s id (.stop name)).trans
          (serves_reset _ rfl)).trans (serves_failPending ω _ name "log wait canceled by stop")
        have hfail : Serves ω t X s _ := hreset.settle fun n hn _ _ _ =>
          .inr (hn ▸ unawaited_failPending ω _ name "log wait canceled by stop")
        split
        · exact (hfail.trans (serves_asyncKillProg ω _ name)).trans (serves_enqueue _ name _)
        · exact (((hfail.trans (serves_record _ (.stopIdle name))).trans
            (serves_setState _ name _)).trans (serves_setRuntime _ _)).trans
            (serves_writeFrame ω _ id _ _)

theorem serves_handleRemove (ω : System) (s : Server) (id : Nat) (name : String) :
    Serves ω t X s (s.handleRemove ω id name) := by
  rw [handleRemove]
  cases s.findProg name with
  | none => exact serves_writeFrame ω s id _ _
  | some p =>
    simp only
    split
    · exact serves_writeFrame ω s id _ _
    · split
      · exact serves_writeFrame ω s id _ _
      · have hexit := serves_serverExiting (t := t) (X := X) ω s id (.remove name)
        split
        · exact hexit
        · split
          · exact ((hexit.trans (serves_asyncKillProg ω _ name)).trans
              (serves_setState _ name _)).trans (serves_enqueue _ name _)
          · exact (((hexit.trans (serves_record _ (.removeIdle name))).trans
              (serves_triggerDAG _ name)).trans (serves_answerSuccess ω _ id _)).trans
              (serves_removeProg ω _ name)

theorem realSpawnProg_of_started (hp : s.findProg name = some p)
    (hspawn : ω.spawn s.ticks p = .started pid) : (s.realSpawnProg ω name site).1 = true := by
  have hp' : (s.record (.realSpawnProg name site)).findProg name = some p := hp
  have hspawn' : ω.spawn (s.record (.realSpawnProg name site)).ticks p = .started pid := hspawn
  rw [realSpawnProg, hp']
  simp only [hspawn']

theorem unawaited_startProgTask (hopen : s.isOpen id = true) (hexit : s.serverExit = false)
    (hp : s.findProg name = some p) (hlive : p.live = false)
    (hspawn : ω.spawn s.ticks p = .started pid) (showLog : Bool) (site : SpawnSite) :
    (s.startProgTask ω name id showLog site).Unawaited name := by
  have hrest := serves_startProgTask_rest (t := 0) (X := fun _ => True) ω s name id showLog site
    hopen (serverExiting_fst.trans hexit)
  rw [serverExiting_of_running hexit, startProg_started ω site (by rw [hp]; exact hlive)
    (realSpawnProg_of_started hp hspawn)] at hrest
  exact (unawaited_activatePending ω _ name).serves hrest

theorem serves_handleRestart (ω : System) (s : Server) (name : String) (showLog : Bool)
    (hopen : s.isOpen id = true) : Serves ω s.ticks X s (s.handleRestart ω id name showLog) := by
  rw [handleRestart]
  cases hp : s.findProg name with
  | none => exact serves_writeFrame ω s id _ _
  | some p =>
    have hreset := serves_reset (ω := ω) (t := s.ticks) (X := (· = name)) s rfl
    simp only
    split
    · -- The policy is reset although the request is refused.
      have hwrite := serves_writeFrame (t := s.ticks) (X := (· = name)) ω
        (s.setProg name (·.resetRestartPolicy)) id (.restart name showLog)
        { status := -3, message := msgCmdNotCompleted name }
      apply (hreset.trans hwrite).settle_stranded
      have hopen' : (s.setProg name (·.resetRestartPolicy)).isOpen id = true := hopen
      obtain ⟨e, he, -, frame, hcall, -, hrequest, hreply⟩ := answered_writeFrame ω hopen'
        (.restart name showLog) { status := -3, message := msgCmdNotCompleted name }
      refine ⟨e, mem_since_later hreset hwrite he, ?_⟩
      rw [Event.Strands, hcall]
      exact ⟨⟨showLog, hrequest⟩, by rw [hreply]⟩
    · split
      · rename_i hlive
        have h := (hreset.trans (serves_asyncKillProg ω _ name)).trans
          (serves_enqueue _ name (.startProg id showLog))
        apply h.settle
        rintro n rfl - - ⟨q, hq, -, hidle⟩
        rw [hp] at hq
        obtain rfl := Option.some.inj hq
        rw [hidle] at hlive
        cases hlive
      · rename_i hlive
        have hrecord := serves_record (ω := ω) (t := s.ticks) (X := (· = name))
          (s.setProg name (·.resetRestartPolicy)) (.restartIdle name)
        have htask := serves_startProgTask (t := s.ticks) (X := (· = name)) ω
          ((s.setProg name (·.resetRestartPolicy)).record (.restartIdle name)) name id
            showLog .restart
        apply ((hreset.trans hrecord).trans htask).settle
        rintro n rfl - hstrands -
        right
        have hfind : (s.setProg n (·.resetRestartPolicy)).findProg n = some p.resetRestartPolicy :=
          findProg_update_self (fun _ => rfl) hp
        have hgranted := hstrands _ (mem_since (hreset.trans hrecord) htask
          (mem_since_later hreset hrecord (by rw [since_record]; exact List.mem_singleton_self _)))
        rw [Event.Strands] at hgranted
        simp only [true_and, not_or, not_forall, not_not, Bool.not_eq_true] at hgranted
        obtain ⟨hexit, q, pid, hq, hspawn⟩ := hgranted
        rw [hfind] at hq
        obtain rfl := Option.some.inj hq
        have hopen' :
          ((s.setProg n (·.resetRestartPolicy)).record (.restartIdle n)).isOpen id = true :=
          hopen
        exact unawaited_startProgTask hopen' hexit hfind (Bool.not_eq_true _ ▸ hlive) hspawn
          showLog .restart

theorem serves_handleSave (ω : System) (s : Server) (id : Nat) :
    Serves ω t X s (s.handleSave ω id) := by
  rw [handleSave]
  split
  · exact serves_writeFrame ω s id _ _
  · exact .of_same rfl rfl rfl fun _ _ h => h

theorem handleLog_cases (ω : System) (s : Server) (id : Nat) (name : String)
    (mode : LogRequestMode) :
    Serves ω t X s (s.handleLog ω id name mode) ∨ s.BackingOff name ∧
      s.handleLog ω id name mode =
        { s with pendingLogSessions := s.pendingLogSessions ++ [(name, id)] } := by
  rw [handleLog]
  cases hp : s.findProg name with
  | none => exact .inl (serves_writeFrame ω s id _ _)
  | some p =>
    simp only
    split
    · rename_i hmode
      split
      · rename_i hpending
        exact .inr ⟨⟨p, hp, hpending, by simpa using hmode.2⟩, rfl⟩
      · exact .inl (serves_writeFrame ω s id _ _)
    · split
      · exact .inl (serves_writeFrame ω s id _ _)
      · split
        · exact .inl (serves_writeFrame ω s id _ _)
        · left
          apply Serves.trans _ (serves_writeFrame ω _ id _ _)
          split
          · exact serves_addSession s name id
          · exact .refl s

theorem serves_handleAppReady (ω : System) (s : Server) (id : Nat) (name : String) :
    Serves ω t X s (s.handleAppReady ω id name) := by
  rw [handleAppReady]
  cases s.findProg name with
  | none => exact serves_closeSession s id
  | some p =>
    have hpeer := serves_heartbeatPeerMatches (t := t) (X := X) ω s id p
    simp only
    split
    · exact hpeer
    · split
      · apply hpeer.trans
        apply Serves.trans _ (serves_spawn1 ω _ [name] .appReady)
        apply Serves.trans _ (serves_tick _)
        exact serves_harmless _ name fun _ => ⟨rfl, rfl, rfl⟩
      · exact hpeer

theorem serves_handleAppTick (ω : System) (s : Server) (id : Nat) (name : String) :
    Serves ω t X s (s.handleAppTick ω id name) := by
  rw [handleAppTick]
  cases s.findProg name with
  | none => exact serves_closeSession s id
  | some p =>
    have hpeer := serves_heartbeatPeerMatches (t := t) (X := X) ω s id p
    simp only
    split
    · apply hpeer.trans
      apply Serves.trans _ (serves_tick _)
      exact serves_harmless _ name fun _ => ⟨rfl, rfl, rfl⟩
    · exact hpeer

theorem serves_handleInspect (ω : System) (s : Server) (id : Nat) (name : String) :
    Serves ω t X s (s.handleInspect ω id name) := by
  rw [handleInspect]
  cases s.findProg name <;> exact serves_writeFrame ω s id _ _

theorem serves_handleReload (ω : System) (s : Server) (id : Nat) :
    Serves ω t X s (s.handleReload ω id) := by
  rw [handleReload]
  cases hexit : s.serverExit with
  | true =>
    simp only [serverExiting_fst, hexit, if_true]
    exact serves_serverExiting ω s id .reload
  | false =>
    simp only [serverExiting_of_running hexit, Bool.false_eq_true, if_false]
    split
    · exact serves_writeFrame ω s id _ _
    · split
      · exact (serves_tick s).trans (serves_writeFrame ω _ id _ _)
      · have hquit :
          ∀ s config, Serves ω t X s ({ s with reloadConfig := some config }.requestQuit ω) := by
          intro s config
          apply Serves.trans _ (serves_requestQuit ω _)
          exact .of_same rfl rfl rfl fun _ _ h => h
        exact ((serves_tick s).trans (hquit _ _)).trans (.of_same rfl rfl rfl fun _ _ h => h)

theorem handleFrame_cases (ω : System) (s : Server) (request : Request)
    (hopen : s.isOpen id = true) :
    Serves ω s.ticks X s (s.handleFrame ω id request) ∨ ∃ name, s.BackingOff name ∧
      s.handleFrame ω id request =
        { s with pendingLogSessions := s.pendingLogSessions ++ [(name, id)] } := by
  cases request with
  | malformed error => exact .inl (serves_writeFrame ω s id _ _)
  | list => exact .inl (serves_writeFrame ω s id _ _)
  | info => exact .inl (serves_writeFrame ω s id _ _)
  | version => exact .inl (serves_writeFrame ω s id _ _)
  | stop name => exact .inl (serves_handleStop ω s id name)
  | start request =>
    left
    simp only [handleFrame]
    cases hexit : s.serverExit with
    | true =>
      simp only [serverExiting_fst, hexit, if_true]
      exact serves_serverExiting ω s id (.start request)
    | false =>
      simp only [serverExiting_of_running hexit, Bool.false_eq_true, if_false]
      exact (serves_handleCmdStart ω s id request).trans (serves_writeFrame ω _ id _ _)
  | save => exact .inl (serves_handleSave ω s id)
  | remove name => exact .inl (serves_handleRemove ω s id name)
  | restart name showLog => exact .inl (serves_handleRestart ω s name showLog hopen)
  | log name mode =>
    exact (handleLog_cases ω s id name mode).imp_right fun h => ⟨name, h⟩
  | appReady name => exact .inl (serves_handleAppReady ω s id name)
  | appTick name => exact .inl (serves_handleAppTick ω s id name)
  | inspect name => exact .inl (serves_handleInspect ω s id name)
  | quit => exact .inl ((serves_writeFrame ω s id _ _).trans (serves_requestQuit ω _))
  | reload => exact .inl (serves_handleReload ω s id)

end Handlers

section Loop

theorem name_noteExit (p : ProgInfo) (nowMs unixMs : Int) (wstatus : Nat) :
    (p.noteExit nowMs unixMs wstatus).name = p.name := by
  rw [ProgInfo.noteExit, ProgInfo.updateCountTimer]
  split <;> rfl

theorem name_reapDraining (p : ProgInfo) (nowMs lifeTime drainMs : Int) :
    (p.reapDraining nowMs lifeTime drainMs).2.name = p.name := by
  simp only [ProgInfo.reapDraining, ProgInfo.setState, ProgInfo.setTermination,
    ProgInfo.markTreeDraining, ProgInfo.withJob]
  split <;> rfl

theorem name_reapExited (p : ProgInfo) (nowMs lifeTime : Int) :
    (p.reapExited nowMs lifeTime).name = p.name := by
  simp only [ProgInfo.reapExited]
  split
  · rfl
  · split <;> rfl

theorem Serves.detached (h : Serves ω t (· = name) s s')
    (h' : Serves ω t (· = name) (s'.detachSessions ω name) s'') : Serves ω t X s s'' := by
  apply ((h.trans (serves_detachSessions ω s' name)).trans h').settle
  rintro n rfl - - -
  exact .inr ((unawaited_detachSessions ω s' n).serves h')

theorem serves_reapProg (ω : System) (acc : Reaped × Server) (p : ProgInfo) (wstatus : Nat) :
    Serves ω t X acc.2 (reapProg ω acc p wstatus).2 := by
  have hset : ∀ (s : Server) (f : ProgInfo → ProgInfo), (∀ q, (f q).name = q.name) →
      Serves ω t (· = p.name) s (s.setProg p.name f).tick := by
    intro s f hf
    apply Serves.trans _ (serves_tick _)
    exact serves_setProg s rfl hf
  have hexit : Serves ω t (· = p.name) acc.2 ((acc.2.markDependencyStopped p.name).setProg p.name
      fun q => q.noteExit (ω.clock acc.2.ticks) (ω.unixTime acc.2.ticks) wstatus).tick :=
    (serves_setRuntime acc.2 _).trans (hset _ _ fun q => name_noteExit q _ _ _)
  rw [reapProg]
  simp only
  split
  · apply hexit.detached
    apply (serves_isTreeEmpty ω _ p.name).trans
    split
    · exact (hset _ _ fun q => name_reapDraining q _ _ _).trans (serves_signalTree _ p.name _)
    · exact hset _ _ fun q => name_reapDraining q _ _ _
  · apply hexit.detached
    apply (serves_isTreeEmpty ω _ p.name).trans
    exact serves_setProg _ rfl fun q => name_reapExited q _ _

theorem serves_reapChild (ω : System) (acc : Reaped × Server) (child : Nat × Nat) :
    Serves ω t X acc.2 (reapChild ω acc child).2 := by
  rw [reapChild]
  cases acc.2.pmTinyProgs.find? fun p => p.inst.pid = some child.1 with
  | none => exact .refl _
  | some p => exact serves_reapProg ω acc p child.2

theorem serves_reapAll (ω : System) (children : List (Nat × Nat)) (s : Server) :
    Serves ω t X s (s.reapAll ω children) := by
  rw [reapAll]
  apply Serves.trans _ (Serves.foldl _ (serves_removeProg ω) _ _)
  apply Serves.trans _ (Serves.foldl _ (fun s name => serves_executePenddingtasks ω s name _) _ _)
  have h := Serves.foldl_snd (reapChild ω) (serves_reapChild (t := t) (X := X) ω) children ({}, s)
  split
  · exact h
  · exact h.trans (serves_spawn1 ω _ _ _)

theorem serves_scheduledRestart (ω : System) (nowMs : Int) (s : Server) (name : String) :
    Serves ω t X s (s.scheduledRestart ω nowMs name) := by
  rw [scheduledRestart]
  cases hp : s.findProg name with
  | none => exact .refl s
  | some p =>
    simp only
    split
    · exact .refl s
    · rename_i hidle
      have htree := serves_isTreeEmpty (t := t) (X := (· = name)) ω s name
      split
      · exact serves_isTreeEmpty ω s name
      · have hlive : ((s.isTreeEmpty ω name).2.findProg name).any (·.live) = false := by
          have hfind : (s.isTreeEmpty ω name).2.findProg name =
              some (p.observe (ω.members s.ticks name)) := findProg_update_self (fun _ => rfl) hp
          rw [hfind, Option.any_some]
          simp only [Bool.or_eq_true, not_or, Bool.not_eq_true] at hidle
          exact hidle.2
        have hstart := serves_startProg (t := t) (X := (· = name)) ω (s.isTreeEmpty ω name).2 name
          .scheduled
        have hset : ∀ s : Server, Serves ω t (· = name) s (s.unschedule name) :=
          fun s => serves_setProg s rfl fun _ => rfl
        have h := (htree.trans hstart).trans (hset _)
        cases hresult : ((s.isTreeEmpty ω name).2.realSpawnProg ω name .scheduled).1 with
        | true =>
          rw [startProg_started ω .scheduled hlive hresult] at h ⊢
          rw [if_neg (by simp)]
          apply h.settle
          rintro n rfl - - -
          exact .inr ((unawaited_activatePending ω _ n).serves (hset _))
        | false =>
          rw [startProg_failed ω .scheduled hlive hresult] at h ⊢
          rw [if_pos rfl]
          apply Serves.trans _ (serves_flagStartupFail _ name)
          apply (h.trans (serves_failPending ω _ name "failed to start the next generation")).settle
          rintro n rfl - - -
          exact .inr (unawaited_failPending ω _ n _)

theorem serves_dueRestarts (ω : System) (nowMs : Int) (ordered : List String) (due : List Nat)
    (s : Server) : Serves ω t X s (s.dueRestarts ω nowMs ordered due) := by
  rw [dueRestarts]
  apply Serves.foldl
  intro s index
  cases ordered[index]? with
  | none => exact .refl s
  | some name => exact serves_scheduledRestart ω nowMs s name

theorem serves_handleTimeouts (ω : System) (nowMs : Int) (ordered : List String)
    (events : List LifecycleTimeoutEvent) (startingProg : List String) (s : Server) :
    Serves ω t X s (handleTimeouts ω nowMs ordered events startingProg s).2.2 := by
  induction events generalizing startingProg s with
  | nil => exact .refl s
  | cons event events ih =>
    rw [handleTimeouts]
    split
    · exact ih startingProg s
    · rename_i p _
      split
      · exact ih startingProg s
      · cases event.action with
        | acceptReady =>
          apply Serves.trans _ (ih _ _)
          exact serves_harmless s p.name fun _ => ⟨rfl, rfl, rfl⟩
        | ignore =>
          apply Serves.trans _ (ih _ _)
          exact serves_harmless s p.name fun _ => ⟨rfl, rfl, rfl⟩
        | restart =>
          exact ((serves_asyncKillProg ω s p.name).trans (serves_enqueue _ p.name _)).trans (ih _ _)
        | reboot => exact .refl s

theorem serves_pollProg (ω : System) (s : Server) (name : String) :
    Serves ω t X s (s.pollProg ω name) := by
  rw [pollProg]
  cases s.findProg name with
  | none => exact .refl s
  | some p =>
    simp only
    split
    · exact .refl s
    · have hpoll : Serves ω t X s ((s.isTreeEmpty ω name).2.setProg name fun p =>
          (p.pollTermination (ω.clock s.ticks) (s.isTreeEmpty ω name).1).2) := by
        apply (serves_isTreeEmpty ω s name).trans
        exact serves_harmless _ name fun _ => ⟨rfl, rfl, rfl⟩
      have hgone : ∀ s : Server,
          Serves ω t X s (if p.live then (false, s) else s.isTreeEmpty ω name).2 := by
        intro s
        split
        · exact .refl s
        · exact serves_isTreeEmpty ω s name
      have hforce : Harmless fun p => p.asyncForceKill.2 := by
        intro p
        simp only [ProgInfo.asyncForceKill]
        split <;> exact ⟨rfl, rfl, rfl⟩
      have h := hpoll.trans (hgone _)
      generalize (if p.live then _ else _) = gone at h ⊢
      split
      · apply Serves.trans _ (serves_executePenddingtasks ω _ name _)
        apply h.trans
        exact serves_harmless _ name fun _ => ⟨rfl, rfl, rfl⟩
      · split
        · have hkill := h.trans (serves_harmless _ name hforce)
          split
          · exact hkill.trans (serves_signalTree _ name _)
          · exact hkill
        · exact h

theorem serves_checkDelayedChldSig (ω : System) (children : Option (List (Nat × Nat)))
    (s : Server) : Serves ω t X s (s.checkDelayedChldSig ω children) := by
  have hreap : Serves ω t X s (children.elim s fun children => s.reapAll ω children).tick := by
    cases children with
    | none => exact serves_tick s
    | some children => exact (serves_reapAll ω children s).trans (serves_tick _)
  have hdue : ∀ (s : Server) nowMs ordered due, Serves ω t X s
      (if s.serverExit then s else s.dueRestarts ω nowMs ordered due) := by
    intro s nowMs ordered due
    split
    · exact .refl s
    · exact serves_dueRestarts ω nowMs ordered due s
  have hready : ∀ (c : Prop) [Decidable c] (s : Server) names,
      Serves ω t X s (if c then s.spawn1 ω names .timeout else s) := by
    intro c _ s names
    split
    · exact serves_spawn1 ω s names _
    · exact .refl s
  rw [checkDelayedChldSig]
  exact (((hreap.trans (hdue _ _ _ _)).trans (serves_handleTimeouts ω _ _ _ [] _)).trans
    (Serves.foldl _ (serves_pollProg ω) _ _)).trans (hready _ _ _)

theorem serves_answerAll (ω : System) (request : Request) (reply : Reply) (ids : List Nat)
    (s : Server) : Serves ω t X s (s.answerAll ω request reply ids) :=
  Serves.foldl _ (fun s id => serves_writeFrame ω s id request reply) ids s

theorem serves_pollSaveProcToCfg (ω : System) (s : Server) :
    Serves ω t X s (s.pollSaveProcToCfg ω) := by
  rw [pollSaveProcToCfg]
  split
  · have hidle : Serves ω t X s { s with persistence := .idle } :=
      .of_same rfl rfl rfl fun _ _ h => h
    exact (hidle.trans (serves_answerAll ω _ _ _ _)).trans (.of_same rfl rfl rfl fun _ _ h => h)
  · exact .refl s

theorem serves_anyLiving (ω : System) (s : Server) : Serves ω t X s (s.anyLiving ω).2 := by
  rw [anyLiving]
  refine Serves.foldl_snd _ ?_ _ (false, s)
  intro acc name
  simp only
  split
  · exact .refl acc.2
  · exact serves_isTreeEmpty ω acc.2 name

theorem unawaited_detachAll (ω : System) (names : List String) (hn : n ∈ names) (s : Server) :
    (names.foldl (fun s name => s.detachSessions ω name) s).Unawaited n := by
  induction names generalizing s with
  | nil => cases hn
  | cons name names ih =>
    rcases List.mem_cons.1 hn with rfl | hn
    · exact (unawaited_detachSessions ω s n).serves
        (Serves.foldl (t := 0) (X := fun _ => True) _ (serves_detachSessions ω) names _)
    · exact ih hn _

theorem serves_swap (ω : System) (config : ReloadConfig) {names : List String}
    (h : Serves ω t (fun _ => True) s s')
    (hnames : ∀ n, s.BackingOff n → n ∈ names) : Serves ω t X s
      ((names.foldl (fun s name => s.detachSessions ω name)
        (s'.swapReloadConfig config)).spawn ω) := by
  have hswap : Serves ω t (fun _ => True) s' (s'.swapReloadConfig config) :=
    (serves_record s' .swapReloadConfig).trans (.of_same rfl rfl rfl fun _ h => absurd trivial h)
  have hdetach := Serves.foldl (t := t) (X := fun _ => True) _ (serves_detachSessions ω) names
    (s'.swapReloadConfig config)
  have hspawn := serves_spawn (t := t) (X := fun _ => True) ω (names.foldl
    (fun s name => s.detachSessions ω name) (s'.swapReloadConfig config)) fun _ h =>
      absurd trivial h
  apply (((h.trans hswap).trans hdetach).trans hspawn).settle
  intro n _ _ _ hb
  exact .inr ((unawaited_detachAll ω names (hnames n hb) _).serves hspawn)

theorem serves_checkQuitOrReload (ω : System) (s : Server) :
    Serves ω t X s (s.checkQuitOrReload ω) := by
  have h := (serves_pollSaveProcToCfg (t := t) (X := X) ω s).trans (serves_anyLiving ω _)
  rw [checkQuitOrReload]
  simp only
  split
  · exact h
  · apply h.trans
    generalize ((s.pollSaveProcToCfg ω).anyLiving ω).2 = s
    split
    · exact (serves_record s .loopExit).trans (.of_same rfl rfl rfl fun _ _ h => h)
    · have hanswer : ∀ (reply : Reply) (Y : String → Prop),
          Serves ω t Y s { ({ s with serverExit := false }.answerAll ω .reload reply
            s.waitReloadSessions) with waitReloadSessions := [] } := by
        intro reply Y
        have hcont : Serves ω t Y s { s with serverExit := false } :=
          .of_same rfl rfl rfl fun _ _ h => h
        exact (hcont.trans (serves_answerAll ω _ _ _ _)).trans (.of_same rfl rfl rfl fun _ _ h => h)
      split
      · exact (hanswer _ X).trans (.of_same rfl rfl rfl fun _ _ h => h)
      · apply serves_swap ω _ (hanswer _ _)
        rintro n ⟨p, hp, -⟩
        rw [← Keyed.key_of_find hp]
        exact List.mem_map_of_mem (Keyed.mem_of_find hp)

theorem serves_maintenance (ω : System) (exitSignal : Bool)
    (children : Option (List (Nat × Nat))) (s : Server) :
    Serves ω t X s (s.maintenance ω exitSignal children) := by
  have hexit : Serves ω t X s (s.checkDelayedExitSig ω exitSignal) := by
    rw [checkDelayedExitSig]
    split
    · exact (serves_record s .exitSignal).trans (serves_requestQuit ω _)
    · exact .refl s
  exact (hexit.trans (serves_checkDelayedChldSig ω children _)).trans (serves_checkQuitOrReload ω _)

theorem serves_acceptSession (s : Server) (id : Nat) (peer : Option Peer) :
    Serves ω t X s (s.acceptSession id peer) := by
  have h := follows_acceptSession (K := AnyAnswer) s id peer
  have hsame : (s.acceptSession id peer).pendingLogSessions = s.pendingLogSessions ∧
      (s.acceptSession id peer).history = s.history ∧
        (s.acceptSession id peer).toRegistry = s.toRegistry := by
    rw [acceptSession]
    split <;> exact ⟨rfl, rfl, rfl⟩
  refine ⟨h.known, h.shut, fun e he => hsame.1 ▸ he, ⟨[], hsame.2.1⟩, fun n _ _ hb => .inl ?_,
    fun n id hid => .inl (hsame.1 ▸ hid)⟩
  rw [hsame.2.2]
  exact hb

/-- One event: the waiting clients are served, or one more client waits for a program that backs
off. -/
theorem step_serves (ω : System) (s : Server) (input : Input) :
    Serves ω s.ticks X s (s.step ω input) ∨ ∃ name id, s.BackingOff name ∧ s.Known id ∧
      ∃ s', Serves ω s.ticks X s s' ∧ s'.toRegistry = s.toRegistry ∧
        s'.pendingLogSessions = s.pendingLogSessions ∧ s'.history = s.history ∧ s.step ω input =
          { s' with pendingLogSessions := s.pendingLogSessions ++ [(name, id)] } := by
  unfold step
  split
  · exact .inl (.refl s)
  · cases input with
    | connect id peer => exact .inl (serves_acceptSession s id peer)
    | request id messageType requestId request =>
      simp only [dispatchMessage]
      split
      · rename_i hopen
        obtain ⟨x, hx, hclosed⟩ := (Option.any_eq_true _ _).1 hopen
        rw [Bool.and_eq_true] at hclosed
        have hlocked : s.isOpen id = true := by
          rw [isOpen, hx]
          exact hclosed.1
        generalize hset : (s.setSession id fun session => { session with
          currentMessageType := messageType, currentRequestId := requestId }) = s'
        have hs : Serves ω s.ticks X s s' := by
          rw [← hset]
          exact serves_setSession s id (fun _ => rfl) fun _ h => h
        have hopen' : s'.isOpen id = true := by
          rw [← hset]
          exact isOpen_setSession hlocked (fun _ => rfl) fun _ => rfl
        have hsame : s'.toRegistry = s.toRegistry ∧ s'.ticks = s.ticks ∧
            s'.pendingLogSessions = s.pendingLogSessions ∧ s'.history = s.history := by
          rw [← hset]
          exact ⟨rfl, rfl, rfl, rfl⟩
        rcases handleFrame_cases (X := X) ω s' request hopen' with h | ⟨name, hb, heq⟩
        · rw [hsame.2.1] at h
          exact .inl (hs.trans h)
        · rw [hsame.1] at hb
          rw [hsame.2.2.1] at heq
          exact .inr ⟨name, id, hb, ⟨x, hx⟩, s', hs, hsame.1, hsame.2.2.1, hsame.2.2.2, heq⟩
      · exact .inl (.refl s)
    | disconnect id => exact .inl (serves_closeSession s id)
    | maintenance exitSignal children => exact .inl (serves_maintenance ω exitSignal children s)
    | treeChange name => exact .inl (serves_observe ω s name)
    | saveDone result =>
      simp only
      split
      · exact .inl (.of_same rfl rfl rfl fun _ _ h => h)
      · exact .inl (.refl s)

end Loop

end Server

end PmTiny
