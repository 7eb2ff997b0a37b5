import PmTiny.Windows.LoopSteps

namespace PmTiny.Windows
set_option autoImplicit true

variable {s s' s'' : Daemon} {ω : System} {n : String}

namespace Daemon

theorem adds_send {P : Event → Prop} {call : Call} (hcall : ∀ core, P ⟨call, core⟩) (ω : System)
    (s : Daemon) (session : Nat) : Adds P s (s.send ω session call) := by
  rw [send]
  split
  · exact .none rfl
  · split
    · exact .none rfl
    · exact .one rfl (hcall _)

theorem adds_served (ω : System) (s : Daemon) (st : LogStream) :
    Adds (fun e => e.call.silent = true ∧ e.call.stream? = some st.key) s
      ((s.record (.pollStream st.key st.offset)).serveStream ω st) := by
  have hpoll : Adds (fun e => e.call.silent = true ∧ e.call.stream? = some st.key) s
      (s.record (.pollStream st.key st.offset)) := .one rfl ⟨rfl, rfl⟩
  apply hpoll.trans
  rw [serveStream]
  split
  · exact adds_send (fun _ => ⟨rfl, rfl⟩) ω _ _
  · simp only
    split
    · exact adds_send (fun _ => ⟨rfl, rfl⟩) ω _ _
    · split
      · exact .none rfl
      · exact adds_send (fun _ => ⟨rfl, rfl⟩) ω _ _

end Daemon

open Daemon

theorem StreamMove.core (h : StreamMove s s') : s'.toCore = s.toCore := by
  cases h with
  | opened st h hbound => rfl
  | dropped st hst h => rfl
  | bound ω st hst h hp => exact serveStream_core ω _ _
  | served ω st hst h => exact serveStream_core ω _ st

theorem StreamMove.adds (h : StreamMove s s') : Adds (fun e => e.call.silent = true) s s' := by
  cases h with
  | opened st h hbound => exact .none rfl
  | dropped st hst h => exact .none rfl
  | bound ω st hst h hp => exact (adds_served ω _ (st.bind _)).mono fun e he => he.1
  | served ω st hst h => exact (adds_served ω s st).mono fun e he => he.1

def Call.about (n : String) : Call → Bool
  | .launchProgram m _ _ | .terminate m _ | .complete m _ | .granted m | .processExit m _ _
  | .appended m _ _ => m = n
  | .ensure cfg => cfg.name = n
  | .swapReload => true
  | .request _ | .startOperation _ | .define _ | .created _ | .deleted _ | .reply _ _ _
  | .pollStream _ _ | .chunk _ _ | .final _ _ => false

theorem Call.about_silent {call : Call} (h : call.silent = true) (n : String) :
    call.about n = false := by
  cases call with
  | reply | pollStream | chunk | final => rfl
  | _ => cases h

inductive RecordMove (s s' : Daemon) (n : String) : Prop
  | same (h : s'.find n = s.find n) (hh : Adds (fun e => e.call.about n = false) s s')
  | edited (hp : s.find n = some p) (hk : Kept p q) (h : s'.find n = some q)
      (hh : s'.history = s.history)
  | appended (hp : s.find n = some p) (hk : Kept p q) (chunks : List (List UInt8))
      (h : s'.find n = some { q with logTail := chunks.foldl BoundedLogTail.append q.logTail })
      (hh : s'.history = ⟨.appended n p.generation chunks.flatten, s.toCore⟩ :: s.history)
  | exited (hp : s.find n = some p) (hk : Kept p q) (code : Nat)
      (h : s'.find n = some { q with hasLastExit := true, lastExitCode := code })
      (hh : s'.history = ⟨.processExit n p.generation code, s.toCore⟩ :: s.history)
  | terminated (hp : s.find n = some p) (hlive : p.hasProcess = true)
      (hr : TerminateReason s.toCore p action) (hk : Kept p q) (job : TerminationJob)
      (hjob : job.phase ≠ .none)
      (h : s'.find n = some { q with completionAction := action, termination := job })
      (hh : s'.history = ⟨.terminate n action, s.toCore⟩ :: s.history)
  | readied (hp : s.find n = some p) (hlive : p.hasProcess = true) (hk : Kept p q)
      (h : s'.find n = some { q with ready := true }) (hh : s'.history = s.history)
  | cleared (hp : s.find n = some p) (hn : s.Names n) (hk : Kept p q)
      (h : s'.find n = some q.clearRestart) (hh : s'.history = s.history)
  | started (hp : s.find n = some p) (hidle : p.hasProcess = false)
      (hsite : site.Admits s.toCore p rest)
      (h : s'.find n = some ((p.prepared site).reset.launched pid s.nextGeneration nowMs))
      (hh : s'.history = ⟨.launchProgram n site (.ok pid), { s.toCore with launchQueue := rest }⟩ ::
        s.history)
      (hnext : s'.nextGeneration = s.nextGeneration + 1)
  | refused (hp : s.find n = some p) (hidle : p.hasProcess = false)
      (hsite : site.Admits s.toCore p rest) (h : s'.find n = some (p.prepared site).reset)
      (hh : s'.history = ⟨.launchProgram n site (.error e),
        { s.toCore with launchQueue := rest }⟩ ::
        s.history)
  | completed (hqueue : s.launchQueue = []) (hp : s.find n = some p) (hlive : p.hasProcess = true)
      (hc : Completed s.toCore p nowMs q? rt configs) (h : s'.find n = q?)
      (hh : s'.history = ⟨.complete n nowMs, s.toCore⟩ :: s.history)
  | granted (hqueue : s.launchQueue = []) (hp : s.find n = some p) (hlive : p.hasProcess = true)
      (hrestart : Daemon.shouldRestart s.toCore p = true) (ha : p.completionAction ≠ .restart)
      (hd : (Daemon.restartDecision p nowMs).1.restart = true)
      (h : s'.find n = some { p.reset with
        restartState := (Daemon.restartDecision p nowMs).2
        restartPending := true
        restartDueMs := nowMs + (Daemon.restartDecision p nowMs).1.delayMs })
      (hh : s'.history = ⟨.granted n, s.toCore⟩ :: ⟨.complete n nowMs, s.toCore⟩ :: s.history)
  | dropped (hn : s.Names n) (hp : s.find n = some p) (hidle : p.hasProcess = false)
      (h : s'.find n = none) (hh : s'.history = s.history)
      (hgone : findConfig n s.configMap = none ∨ s.Defining n)
  | ensured (cfg : ProgramConfig) (hname : cfg.name = n)
      (hcfg : findConfig n s.configMap = some cfg)
      (h : s'.find n = some ((s.find n).elim { config := cfg } fun p => { p with config := cfg }))
      (hh : s'.history = ⟨.ensure cfg, s.toCore⟩ :: s.history)
  | swapped (hqueue : s.launchQueue = []) (hidle : ∀ n p, s.find n = some p → p.hasProcess = false)
      (h : s'.find n = none)
      (hh : s'.history = ⟨.swapReload, s.toCore⟩ :: s.history)

theorem Daemon.Puts.find {ps : List ProcessHandle} {m : String} {r : Option ProcessHandle}
    (h : s.Puts ps m r) (n : String) :
    n = m ∧ lookup ps n = r ∨ n ≠ m ∧ lookup ps n = s.find n := by
  by_cases hn : n = m
  · exact .inl ⟨hn, by rw [h, hn, Function.update_self]⟩
  · exact .inr ⟨hn, by rw [h, Function.update_of_ne hn]⟩

theorem Move.record (h : Move s s') (n : String) : RecordMove s s' n := by
  have habout : ∀ {m : String}, n ≠ m → (decide (m = n)) = false := fun hn =>
    decide_eq_false fun he => hn he.symm
  cases h with
  | outside hcore hstreams hnext hhistory hclosed => exact .same (by rw [hcore]) (.none hhistory)
  | note call h hreply => exact .same rfl (.one rfl (Call.about_silent h n))
  | stream h => exact .same (by rw [h.core]) (h.adds.mono fun e he => Call.about_silent he n)
  | edit hp hk hps =>
    rcases hps.find n with ⟨rfl, hfind⟩ | ⟨hn, hfind⟩
    · exact .edited hp hk hfind rfl
    · exact .same hfind (.none rfl)
  | append hp hk chunks hps =>
    rcases hps.find n with ⟨rfl, hfind⟩ | ⟨hn, hfind⟩
    · exact .appended hp hk chunks hfind rfl
    · exact .same hfind (.one rfl (habout hn))
  | exit hp hk code hps =>
    rcases hps.find n with ⟨rfl, hfind⟩ | ⟨hn, hfind⟩
    · exact .exited hp hk code hfind rfl
    · exact .same hfind (.one rfl (habout hn))
  | terminate hp hlive hr hk job hjob hps =>
    rcases hps.find n with ⟨rfl, hfind⟩ | ⟨hn, hfind⟩
    · exact .terminated hp hlive hr hk job hjob hfind rfl
    · exact .same hfind (.one rfl (habout hn))
  | setReady hp hlive hk hps =>
    rcases hps.find n with ⟨rfl, hfind⟩ | ⟨hn, hfind⟩
    · exact .readied hp hlive hk hfind rfl
    · exact .same hfind (.none rfl)
  | manual hp hnames hk hps =>
    rcases hps.find n with ⟨rfl, hfind⟩ | ⟨hn, hfind⟩
    · exact .cleared hp hnames hk hfind rfl
    · exact .same hfind (.none rfl)
  | started hp hidle hsite hps =>
    rcases hps.find n with ⟨rfl, hfind⟩ | ⟨hn, hfind⟩
    · exact .started hp hidle hsite hfind rfl rfl
    · exact .same hfind (.one rfl (habout hn))
  | refused hp hidle hsite hps =>
    rcases hps.find n with ⟨rfl, hfind⟩ | ⟨hn, hfind⟩
    · exact .refused hp hidle hsite hfind rfl
    · exact .same hfind (.one rfl (habout hn))
  | start operation hready hnamed => exact .same rfl (.one rfl rfl)
  | dequeue queue h => exact .same rfl (.none rfl)
  | complete hqueue hp hlive hc hps =>
    rcases hps.find n with ⟨rfl, hfind⟩ | ⟨hn, hfind⟩
    · exact .completed hqueue hp hlive hc hfind rfl
    · exact .same hfind (.one rfl (habout hn))
  | grant hqueue hp hlive hrestart ha hd hps =>
    rcases hps.find n with ⟨rfl, hfind⟩ | ⟨hn, hfind⟩
    · exact .granted hqueue hp hlive hrestart ha hd hfind rfl
    · exact .same hfind (.two rfl (habout hn) (habout hn))
  | define hqueue cfg hn hnew hrt hgraph hsource => exact .same rfl (.one rfl rfl)
  | commitDelete hqueue hrequest hp hend hrt hgraph => exact .same rfl (.one rfl rfl)
  | rollback hqueue hn hrt hgraph => exact .same rfl (.none rfl)
  | dropRecord hnames hp hidle hps hgone =>
    rcases hps.find n with ⟨rfl, hfind⟩ | ⟨hn, hfind⟩
    · exact .dropped hnames hp hidle hfind rfl hgone
    · exact .same hfind (.none rfl)
  | ensure cfg hcfg hps =>
    rcases hps.find n with ⟨rfl, hfind⟩ | ⟨hn, hfind⟩
    · exact .ensured cfg rfl hcfg hfind rfl
    · exact .same hfind (.one rfl (habout hn))
  | swap hqueue hidle hrt hconfigs => exact .swapped hqueue hidle rfl rfl
  | flags reloadPending reloadPrograms shouldStop shutdownScheduled hprograms =>
    exact .same rfl (.none rfl)
  | request req hqueue ht => exact .same rfl (.one rfl rfl)
  | answered hqueue => exact .same rfl (.none rfl)
  | plan l hrequest h => exact .same rfl (.none rfl)
  | created cfg hcfg hcwd hp hpc => exact .same rfl (.one rfl rfl)

theorem RecordMove.adds (h : RecordMove s s' n) : Adds (fun _ => True) s s' := by
  cases h with
  | same h hh => exact hh.mono fun _ _ => trivial
  | edited hp hk h hh => exact .none hh
  | appended hp hk chunks h hh => exact .one hh trivial
  | exited hp hk code h hh => exact .one hh trivial
  | terminated hp hlive hr hk job hjob h hh => exact .one hh trivial
  | readied hp hlive hk h hh => exact .none hh
  | cleared hp hn hk h hh => exact .none hh
  | started hp hidle hsite h hh => exact .one hh trivial
  | refused hp hidle hsite h hh => exact .one hh trivial
  | completed hqueue hp hlive hc h hh => exact .one hh trivial
  | granted hqueue hp hlive hrestart ha hd h hh => exact .two hh trivial trivial
  | dropped hn hp hidle h hh => exact .none hh
  | ensured cfg hname hcfg h hh => exact .one hh trivial
  | swapped hqueue hidle h hh => exact .one hh trivial

theorem RecordMove.launches (h : RecordMove s s' n) :
    Adds (fun e => ∀ site outcome, e.call = .launchProgram n site outcome →
      ∃ p rest, s.find n = some p ∧ p.hasProcess = false ∧ LaunchSite.Admits site s.toCore p rest ∧
        e.core = { s.toCore with launchQueue := rest }) s s' := by
  cases h with
  | same h hh =>
    refine hh.mono fun e habout site outcome hcall => ?_
    rw [hcall, Call.about, decide_eq_false_iff_not] at habout
    exact absurd rfl habout
  | edited hp hk h hh => exact .none hh
  | appended hp hk chunks h hh => exact .one hh fun _ _ hcall => by cases hcall
  | exited hp hk code h hh => exact .one hh fun _ _ hcall => by cases hcall
  | terminated hp hlive hr hk job hjob h hh => exact .one hh fun _ _ hcall => by cases hcall
  | readied hp hlive hk h hh => exact .none hh
  | cleared hp hn hk h hh => exact .none hh
  | started hp hidle hsite h hh =>
    refine .one hh fun site outcome hcall => ?_
    cases hcall
    exact ⟨_, _, hp, hidle, hsite, rfl⟩
  | refused hp hidle hsite h hh =>
    refine .one hh fun site outcome hcall => ?_
    cases hcall
    exact ⟨_, _, hp, hidle, hsite, rfl⟩
  | completed hqueue hp hlive hc h hh => exact .one hh fun _ _ hcall => by cases hcall
  | granted hqueue hp hlive hrestart ha hd h hh =>
    exact .two hh (fun _ _ hcall => by cases hcall) fun _ _ hcall => by cases hcall
  | dropped hn hp hidle h hh => exact .none hh
  | ensured cfg hname hcfg h hh => exact .one hh fun _ _ hcall => by cases hcall
  | swapped hqueue hidle h hh => exact .one hh fun _ _ hcall => by cases hcall

theorem RecordMove.launch {e : Event} {site : LaunchSite} {outcome : Except String Nat}
    (h : RecordMove s s' n) (he : e ∈ s'.history) (hcall : e.call = .launchProgram n site outcome) :
    e ∈ s.history ∨ ∃ p rest, s.find n = some p ∧ p.hasProcess = false ∧
      site.Admits s.toCore p rest ∧ e.core = { s.toCore with launchQueue := rest } := by
  rcases h.launches.cases e he with hold | hnew
  · exact .inl hold
  · exact .inr (hnew site outcome hcall)

theorem Move.adds (h : Move s s') : Adds (fun _ => True) s s' := (h.record "").adds

theorem Moves.adds (h : Moves s s') : Adds (fun _ => True) s s' := by
  induction h with
  | refl => exact .none rfl
  | tail _ hm ih => exact ih.trans hm.adds

theorem since_eq {l : List Event} (h : s'.history = l ++ s.history) : since s s' = l := by
  rw [since, h, List.length_append, Nat.add_sub_cancel, List.take_left]

/-- What holds of the recorded events holds of those since the earlier state. -/
theorem Daemon.Adds.since {P : Event → Prop} {e : Event} (h : Adds P s s')
    (he : e ∈ Daemon.since s s') : P e := by
  obtain ⟨l, hl, hp⟩ := h
  rw [since_eq hl] at he
  exact hp e he

theorem Moves.history (h : Moves s s') : s'.history = since s s' ++ s.history := by
  obtain ⟨l, hl, -⟩ := h.adds
  rw [since_eq hl, hl]

theorem mem_since (h : Moves s s') {e : Event} (he : e ∈ since s s') : e ∈ s'.history := by
  rw [h.history]
  exact List.mem_append_left _ he

theorem since_one {e : Event} (h : s'.history = e :: s.history) : e ∈ since s s' := by
  rw [since_eq (l := [e]) h]
  exact List.mem_cons_self

theorem Move.moves_history (h : Move s s') : s'.history = since s s' ++ s.history := h.moves.history

theorem since_trans (h : Moves s s') (h' : Moves s' s'') :
    since s s'' = since s' s'' ++ since s s' := by
  have hall := (h.trans h').history
  rw [h'.history, h.history, ← List.append_assoc] at hall
  exact (List.append_cancel_right hall).symm

theorem since_tail (h : Moves s s') (hm : Move s' s'') : since s s'' = since s' s'' ++ since s s' :=
  since_trans h hm.moves

theorem Moves.judged_since {K : Event → Prop} {I : Daemon → Prop} (h : Moves s s')
    (hK : ∀ e ∈ since s s', K e) (hs : I s)
    (hmove : ∀ {x x'}, Moves s x → I x → Move x x' → (∀ e ∈ since x x', K e) → I x') :
    I s' := by
  induction h with
  | refl => exact hs
  | tail h hm ih =>
    rw [since_tail h hm] at hK
    refine hmove h (ih fun e he => hK e (List.mem_append_right _ he)) hm fun e he => ?_
    exact hK e (List.mem_append_left _ he)

/-- What every move keeps, as long as the recorded events meet a condition, holds after a sequence
of moves. -/
theorem Moves.judged {K : Event → Prop} {I : Daemon → Prop} (h : Moves s s')
    (hK : ∀ e ∈ s'.history, K e) (hs : I s)
    (hmove : ∀ {s s'}, I s → Move s s' → (∀ e ∈ s'.history, K e) → I s') : I s' := by
  induction h with
  | refl => exact hs
  | tail _ hm ih => exact hmove (ih fun e he => hK e (hm.adds.mem e he)) hm hK

namespace Daemon

theorem Reachable.run_moves (h : Reachable ω s) (inputs : List Input) :
    Moves s (s.run ω inputs) := by
  induction inputs generalizing s with
  | nil => exact .refl s
  | cons input inputs ih =>
    obtain ⟨-, -, -, hidle, hdistinct⟩ := h.moves
    exact ((rests_step ω s input hidle).1 hdistinct).1.trans (ih (h.step input))

theorem Reachable.judged {K : Event → Prop} {I : Daemon → Prop} (h : Reachable ω s)
    (hK : ∀ e ∈ s.history, K e) (hfresh : ∀ {s}, Fresh s → I s)
    (hmove : ∀ {s s'}, I s → Move s s' → (∀ e ∈ s'.history, K e) → I s') : I s := by
  obtain ⟨s₀, hs₀, hmoves, -⟩ := h.moves
  exact hmoves.judged hK (hfresh hs₀) hmove

theorem Reachable.invariant {I : Daemon → Prop} (h : Reachable ω s)
    (hfresh : ∀ {s}, Fresh s → I s) (hmove : ∀ {s s'}, I s → Move s s' → I s') : I s :=
  h.judged (K := fun _ => True) (fun _ _ => trivial) hfresh fun hs hm _ => hmove hs hm

theorem Fresh.find (h : s.Fresh) (n : String) : s.find n = none := by
  rw [Core.find, h.processes]
  rfl

end Daemon

/-- The worklist grows by start operations only; while it is not empty, the request and the graph
stay. -/
theorem Move.queue (h : Move s s') : s'.launchQueue = [] ∨
    ((∀ n ∈ s'.launchQueue, n ∈ s.launchQueue) ∧ s'.request = s.request ∧ s'.graph = s.graph) ∨
    ∃ operation, s' = s.startOperation operation := by
  have hsame : ∀ {s' : Daemon}, s'.launchQueue = s.launchQueue → s'.request = s.request →
      s'.graph = s.graph → s'.launchQueue = [] ∨ ((∀ n ∈ s'.launchQueue, n ∈ s.launchQueue) ∧
        s'.request = s.request ∧ s'.graph = s.graph) ∨
          ∃ operation, s' = s.startOperation operation :=
    fun hq hr hg => .inr (.inl ⟨fun n hn => hq ▸ hn, hr, hg⟩)
  have hadmits : ∀ {site : LaunchSite} {p : ProcessHandle} {rest : List String},
      site.Admits s.toCore p rest → ∀ n ∈ rest, n ∈ s.launchQueue := by
    intro site p rest hsite n hn
    cases site with
    | dependency =>
      rw [hsite]
      exact List.mem_cons_of_mem _ hn
    | due nowMs =>
      rw [hsite.2.1] at hn
      cases hn
  cases h with
  | outside hcore hstreams hnext hhistory hclosed =>
    exact hsame (by rw [hcore]) (by rw [hcore]) (by rw [hcore])
  | note call h hreply => exact hsame rfl rfl rfl
  | stream h => exact hsame (by rw [h.core]) (by rw [h.core]) (by rw [h.core])
  | edit hp hk hps => exact hsame rfl rfl rfl
  | append hp hk chunks hps => exact hsame rfl rfl rfl
  | exit hp hk code hps => exact hsame rfl rfl rfl
  | terminate hp hlive hr hk job hjob hps => exact hsame rfl rfl rfl
  | setReady hp hlive hk hps => exact hsame rfl rfl rfl
  | manual hp hnames hk hps => exact hsame rfl rfl rfl
  | started hp hidle hsite hps => exact .inr (.inl ⟨hadmits hsite, rfl, rfl⟩)
  | refused hp hidle hsite hps => exact .inr (.inl ⟨hadmits hsite, rfl, rfl⟩)
  | start operation hready hnamed => exact .inr (.inr ⟨operation, rfl⟩)
  | dequeue queue h => exact .inr (.inl ⟨h, rfl, rfl⟩)
  | complete hqueue hp hlive hc hps => exact .inl hqueue
  | grant hqueue hp hlive hrestart ha hd hps => exact .inl hqueue
  | define hqueue cfg hn hnew hrt hgraph hsource => exact .inl hqueue
  | commitDelete hqueue hrequest hp hend hrt hgraph => exact .inl hqueue
  | rollback hqueue hn hrt hgraph => exact .inl hqueue
  | dropRecord hnames hp hidle hps => exact hsame rfl rfl rfl
  | ensure cfg hcfg hps => exact hsame rfl rfl rfl
  | swap hqueue hidle hrt hconfigs => exact .inl hqueue
  | flags reloadPending reloadPrograms shouldStop shutdownScheduled hprograms =>
    exact hsame rfl rfl rfl
  | request req hqueue ht => exact .inl hqueue
  | answered hqueue => exact .inl hqueue
  | plan l hrequest h => exact hsame rfl rfl rfl
  | created cfg hcfg hcwd hp hpc => exact hsame rfl rfl rfl

theorem Move.find_of_queue (hm : Move s s') (hempty : s.launchQueue = [])
    (hqueue : s'.launchQueue ≠ []) (n : String) : s'.find n = s.find n := by
  rcases hm.queue with h | ⟨h, -⟩ | ⟨operation, rfl⟩
  · exact absurd h hqueue
  · rw [hempty] at h
    exact absurd (List.eq_nil_iff_forall_not_mem.2 fun a ha =>
      absurd (h a ha) List.not_mem_nil) hqueue
  · rfl

theorem Move.request_eq (h : Move s s') : s'.request = s.request ∨ s'.request = none ∨
    ∃ request, s'.request = some request ∧ ⟨.request request, s.toCore⟩ ∈ since s s' := by
  cases h with
  | outside hcore hstreams hnext hhistory hclosed => exact .inl (by rw [hcore])
  | stream h => exact .inl (by rw [h.core])
  | request req hqueue ht =>
    exact .inr (.inr ⟨req, rfl, since_one rfl⟩)
  | answered hqueue => exact .inr (.inl rfl)
  | note | edit | append | exit | terminate | setReady | manual | started | refused | start
  | dequeue | complete | grant | define | commitDelete | rollback | dropRecord | ensure | swap
  | flags | plan | created => exact .inl rfl

def Daemon.PendingIdle (s : Daemon) : Prop :=
  ∀ n p, s.find n = some p → p.restartPending = true → p.hasProcess = false

theorem Daemon.PendingIdle.move (hs : s.PendingIdle) (hm : Move s s') : s'.PendingIdle := by
  intro n p' hp' hpending
  have hkept : ∀ {p q : ProcessHandle}, s.find n = some p → Kept p q → q.restartPending = true →
      q.hasProcess = false := by
    intro p q hp hk hq
    rw [hk.hasProcess]
    exact hs n p hp (hk.restartPending.symm.trans hq)
  have hfound : ∀ {p : ProcessHandle}, s'.find n = some p → p = p' := fun h =>
    Option.some.inj (h.symm.trans hp')
  cases hm.record n with
  | same h hh => exact hs n p' (h.symm.trans hp') hpending
  | edited hp hk h hh =>
    obtain rfl := hfound h
    have hidle := hkept hp hk hpending
    exact hidle
  | appended hp hk chunks h hh =>
    obtain rfl := hfound h
    have hidle := hkept hp hk hpending
    exact hidle
  | exited hp hk code h hh =>
    obtain rfl := hfound h
    have hidle := hkept hp hk hpending
    exact hidle
  | terminated hp hlive hr hk job hjob h hh =>
    obtain rfl := hfound h
    have hidle := hkept hp hk hpending
    exact hidle
  | readied hp hlive hk h hh =>
    obtain rfl := hfound h
    have hidle := hkept hp hk hpending
    exact hidle
  | cleared hp hn hk h hh =>
    obtain rfl := hfound h
    cases hpending
  | started hp hidle hsite h hh =>
    obtain rfl := hfound h
    cases hpending
  | refused hp hidle hsite h hh =>
    obtain rfl := hfound h
    rfl
  | completed hqueue hp hlive hc h hh =>
    cases hc with
    | restart hr ha =>
      obtain rfl := hfound h
      rfl
    | suppressed hr ha hd =>
      obtain rfl := hfound h
      rfl
    | remove hr ha =>
      obtain rfl := hfound h
      rfl
    | deleteConfig hr ha => cases h.symm.trans hp'
    | ended hr ha =>
      obtain rfl := hfound h
      rfl
  | granted hqueue hp hlive hrestart ha hd h hh =>
    obtain rfl := hfound h
    rfl
  | dropped hn hp hidle h hh => cases h.symm.trans hp'
  | ensured cfg hname hcfg h hh =>
    obtain rfl := hfound h
    cases hp : s.find n with
    | none => rfl
    | some p =>
      rw [hp] at hpending
      exact hs n p hp hpending
  | swapped hqueue hidle h hh => cases h.symm.trans hp'

theorem Daemon.Fresh.pendingIdle (hs : s.Fresh) : s.PendingIdle := by
  intro n p hp
  rw [hs.find] at hp
  cases hp

theorem Daemon.Reachable.pendingIdle (h : Reachable ω s) : s.PendingIdle :=
  h.invariant Fresh.pendingIdle PendingIdle.move

end PmTiny.Windows
