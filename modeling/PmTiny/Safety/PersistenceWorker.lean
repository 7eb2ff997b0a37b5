import PmTiny.Daemon.PersistenceWorker

namespace PmTiny.PersistenceWorker
set_option autoImplicit true

def ThreadPhase.holds : ThreadPhase → Bool
  | .storeResult _ => true
  | .clearRunning => true
  | .setCompleted => true
  | .unlock => true
  | _ => false

/-- Phases in which `running_` is set. -/
def ThreadPhase.active : ThreadPhase → Bool
  | .task => true
  | .lock _ => true
  | .storeResult _ => true
  | .clearRunning => true
  | _ => false

/-- Phases after the store to `completed_`. -/
def ThreadPhase.over : ThreadPhase → Bool
  | .absent => true
  | .unlock => true
  | .ended => true
  | _ => false

def ClientPhase.holds : ClientPhase → Bool
  | .body _ => true
  | .startThread => true
  | .unlock _ => true
  | _ => false

def ClientPhase.settled : ClientPhase → List Answer
  | .startThread => [.submit true]
  | .unlock answer => [answer]
  | .join .wait => []
  | .join answer => [answer]
  | _ => []

/-- `poll` has taken the result and not yet joined the thread. -/
def ClientPhase.joining : ClientPhase → Bool
  | .unlock (.poll (some _)) => true
  | .join (.poll (some _)) => true
  | _ => false

/-- What a phase of the caller may be: `wait` takes no mutex, and only `wait` and a `poll` with a
result join the thread. -/
def ClientPhase.Proper : ClientPhase → Prop
  | .lock call => call ≠ .wait
  | .body call => call ≠ .wait
  | .unlock answer => answer ≠ .wait
  | .join answer => answer = .wait ∨ ∃ result, answer = .poll (some result)
  | _ => True

namespace Worker
variable {s s' : Worker}

/-- The abstract worker: a task runs from the moment it is accepted until its thread has set
`completed_`. -/
def persistence (s : Worker) : Persistence :=
  if s.client = .startThread then .running
  else if s.thread.over then if s.completed then .completed s.result else .idle
  else .running

def view (s : Worker) : Ledger where
  persistence := s.persistence
  answers := s.answers ++ s.client.settled
  finished := s.finished

structure Inv (s : Worker) : Prop where
  clientHolds : s.mutex = some .client ↔ s.client.holds = true
  threadHolds : s.mutex = some .thread ↔ s.thread.holds = true
  running : s.running = true ↔ s.thread.active = true ∨ s.client = .startThread
  completed : s.completed = true → s.thread.over = true
  joinable : s.joinable = true ↔ s.thread ≠ .absent
  starting : s.client = .startThread → s.thread = .absent ∧ s.completed = false
  polled : s.thread.over = true → s.thread ≠ .absent → s.completed = true ∨ s.client.joining = true
  joining : s.client.joining = true →
    (s.thread = .ended ∨ s.thread = .absent) ∧ s.completed = false
  proper : s.client.Proper

theorem start_inv : ({} : Worker).Inv where
  clientHolds := by decide
  threadHolds := by decide
  running := by decide
  completed := by decide
  joinable := by decide
  starting := by decide
  polled := by decide
  joining := by decide
  proper := trivial

attribute [local simp] ThreadPhase.holds ThreadPhase.active ThreadPhase.over ClientPhase.holds
  ClientPhase.joining ClientPhase.Proper

attribute [local grind] ThreadPhase.holds ThreadPhase.active ThreadPhase.over ClientPhase.holds
  ClientPhase.settled ClientPhase.joining ClientPhase.Proper

theorem Inv.turn {mutex : Option Party} {client : ClientPhase} {answers : List Answer} (h : s.Inv)
    (hbefore : s.client ≠ .startThread) (hafter : client ≠ .startThread)
    (hjoining : client.joining = s.client.joining) (hproper : client.Proper)
    (hclient : mutex = some .client ↔ client.holds = true)
    (hthread : mutex = some .thread ↔ s.mutex = some .thread) :
    Inv { s with mutex := mutex, client := client, answers := answers } :=
  { h with
    clientHolds := hclient
    threadHolds := hthread.trans h.threadHolds
    running := h.running.trans (or_congr_right ⟨fun heq => absurd heq hbefore,
      fun heq => absurd heq hafter⟩)
    starting := fun heq => absurd heq hafter
    polled := fun hover hpresent => hjoining ▸ h.polled hover hpresent
    joining := fun htrue => h.joining (hjoining ▸ htrue)
    proper := hproper }

theorem call_inv (h : s.Inv) (hs : s.step (.call call) = some s') : s'.Inv := by
  rw [step] at hs
  split at hs
  · rename_i hidle
    cases hs
    have hfree : s.mutex = some .client ↔ s.client.holds = true := h.clientHolds
    rw [hidle] at hfree
    cases call <;>
      exact h.turn (by rw [hidle]; decide) (fun heq => by cases heq) (by rw [hidle]; rfl)
        (by simp) hfree Iff.rfl
  · cases hs

/-- A thread that has set `completed_` is over once it has let go of the mutex. -/
theorem ended_of_over {phase : ThreadPhase} (hover : phase.over = true)
    (hholds : phase.holds = false) : phase = .ended ∨ phase = .absent := by
  cases phase <;> simp_all

theorem Inv.threadWaits (h : s.Inv) (hclient : s.client.holds = true) : s.thread.holds = false := by
  rw [← Bool.not_eq_true, ← h.threadHolds, h.clientHolds.2 hclient]
  decide

theorem body_inv (h : s.Inv) (hclient : s.client = .body call) (hs : s.clientStep = some s') :
    s'.Inv := by
  have hmutex : s.mutex = some .client := h.clientHolds.2 (by rw [hclient]; rfl)
  have hbefore : s.client ≠ .startThread := by
    rw [hclient]
    rintro ⟨⟩
  rw [clientStep, hclient] at hs
  cases call with
  | submit =>
    dsimp only at hs
    split at hs
    · cases hs
      exact h.turn hbefore (fun heq => by cases heq) (by rw [hclient]; rfl) (by simp)
        ⟨fun _ => rfl, fun _ => hmutex⟩ Iff.rfl
    · rename_i hrefused
      cases hs
      obtain ⟨hclientHolds, hthreadHolds, hrunning, hcompleted, hjoinable, hstarting, hpolled,
        hjoining, hproper⟩ := h
      constructor <;> simp_all
  | poll =>
    dsimp only at hs
    split at hs
    · rename_i hset
      cases hs
      have hended := ended_of_over (h.completed hset) (h.threadWaits (by rw [hclient]; rfl))
      exact { h with
        clientHolds := ⟨fun _ => rfl, fun _ => hmutex⟩
        running := h.running.trans (or_congr_right
          ⟨fun heq => absurd heq hbefore, fun heq => by cases heq⟩)
        completed := fun hfalse => by cases hfalse
        starting := fun heq => by cases heq
        polled := fun _ _ => .inr rfl
        joining := fun _ => ⟨hended, rfl⟩
        proper := by simp }
    · cases hs
      exact h.turn hbefore (fun heq => by cases heq) (by rw [hclient]; rfl) (by simp)
        ⟨fun _ => rfl, fun _ => hmutex⟩ Iff.rfl
  | busy =>
    cases hs
    exact h.turn hbefore (fun heq => by cases heq) (by rw [hclient]; rfl) (by simp)
      ⟨fun _ => rfl, fun _ => hmutex⟩ Iff.rfl
  | wait => cases hs

theorem unlock_inv {reply : Answer} (h : s.Inv) (hclient : s.client = .unlock reply)
    (hs : s.clientStep = some s') : s'.Inv := by
  have hmutex : s.mutex = some .client := h.clientHolds.2 (by rw [hclient]; rfl)
  have hbefore : s.client ≠ .startThread := by
    rw [hclient]
    rintro ⟨⟩
  have hthread : (none : Option Party) = some .thread ↔ s.mutex = some .thread := by
    rw [hmutex]
    decide
  have hclear {client : ClientPhase} (hfree : client.holds = false) :
      (none : Option Party) = some .client ↔ client.holds = true := by
    rw [hfree]
    decide
  rw [clientStep, hclient] at hs
  cases reply with
  | poll result =>
    cases result with
    | none =>
      cases hs
      exact h.turn hbefore (fun heq => by cases heq) (by rw [hclient]; rfl) trivial
        (hclear rfl) hthread
    | some value =>
      cases hs
      exact h.turn hbefore (fun heq => by cases heq) (by rw [hclient]; rfl)
        (.inr ⟨value, rfl⟩) (hclear rfl) hthread
  | submit accepted =>
    cases hs
    exact h.turn hbefore (fun heq => by cases heq) (by rw [hclient]; rfl) trivial
      (hclear rfl) hthread
  | busy value =>
    cases hs
    exact h.turn hbefore (fun heq => by cases heq) (by rw [hclient]; rfl) trivial
      (hclear rfl) hthread
  | wait => exact absurd rfl (hclient ▸ h.proper)

theorem startThread_inv (h : s.Inv) (hclient : s.client = .startThread)
    (hs : s.clientStep = some s') : s'.Inv := by
  obtain ⟨habsent, hempty⟩ := h.starting hclient
  rw [clientStep, hclient] at hs
  cases hs
  exact
    { clientHolds := ⟨fun _ => rfl, fun _ => h.clientHolds.2 (by rw [hclient]; rfl)⟩
      threadHolds := h.threadHolds.trans (by rw [habsent]; rfl)
      running := ⟨fun _ => .inl rfl, fun _ => h.running.2 (.inr hclient)⟩
      completed := fun hset => by cases hempty.symm.trans hset
      joinable := ⟨fun _ => by rintro ⟨⟩, fun _ => rfl⟩
      starting := fun heq => by cases heq
      polled := fun hover => by cases hover
      joining := fun hfalse => by cases hfalse
      proper := by simp }

theorem join_inv {reply : Answer} (h : s.Inv) (hclient : s.client = .join reply)
    (hs : s.clientStep = some s') : s'.Inv := by
  have hbefore : s.client ≠ .startThread := by
    rw [hclient]
    rintro ⟨⟩
  have hfree : s.mutex = some .client ↔ ClientPhase.idle.holds = true := by
    rw [h.clientHolds, hclient]
    rfl
  have hidle : s.client = .startThread ↔ ClientPhase.idle = .startThread :=
    ⟨fun heq => absurd heq hbefore, fun heq => by cases heq⟩
  rw [clientStep, hclient] at hs
  dsimp only at hs
  split at hs
  · split at hs
    · rename_i hended
      cases hs
      exact
        { clientHolds := hfree
          threadHolds := h.threadHolds.trans (by rw [hended]; rfl)
          running := h.running.trans (or_congr (by rw [hended]; rfl) hidle)
          completed := fun _ => rfl
          joinable := ⟨fun hfalse => (by cases hfalse), fun hpresent => absurd rfl hpresent⟩
          starting := fun heq => by cases heq
          polled := fun _ hpresent => absurd rfl hpresent
          joining := fun hfalse => by cases hfalse
          proper := trivial }
    · cases hs
  · rename_i hgone
    cases hs
    exact { h with
      clientHolds := hfree
      running := h.running.trans (or_congr_right hidle)
      starting := fun heq => by cases heq
      polled := fun _ hpresent => absurd (h.joinable.2 hpresent) hgone
      joining := fun hfalse => by cases hfalse
      proper := trivial }

theorem clientStep_inv (h : s.Inv) (hs : s.clientStep = some s') : s'.Inv := by
  cases hclient : s.client with
  | idle =>
    rw [clientStep, hclient] at hs
    cases hs
  | lock call =>
    rw [clientStep, hclient] at hs
    dsimp only at hs
    split at hs
    · rename_i hfree
      cases hs
      have hproper := h.proper
      rw [hclient] at hproper
      refine h.turn (by rw [hclient]; rintro ⟨⟩) (fun heq => by cases heq)
        (by rw [hclient]; rfl) hproper ⟨fun _ => rfl, fun _ => rfl⟩ ?_
      rw [hfree]
      decide
    · cases hs
  | body call => exact body_inv h hclient hs
  | startThread => exact startThread_inv h hclient hs
  | unlock answer => exact unlock_inv h hclient hs
  | join answer => exact join_inv h hclient hs

theorem finish_inv (h : s.Inv) (hs : s.step (.finish outcome) = some s') : s'.Inv := by
  obtain ⟨hclientHolds, hthreadHolds, hrunning, hcompleted, hjoinable, hstarting, hpolled, hjoining,
    hproper⟩ := h
  rw [step] at hs
  split at hs
  · cases hs
    constructor <;> simp_all
  · cases hs

/-- While its thread is at work, the caller neither starts one nor has a result to join for. -/
theorem Inv.threadTurn {mutex : Option Party} {thread : ThreadPhase} {running completed : Bool}
    {result : Int} {finished : List Int} (h : s.Inv) (hpresent : s.thread ≠ .absent)
    (hended : s.thread ≠ .ended) (hthread : thread ≠ .absent)
    (hclient : mutex = some .client ↔ s.mutex = some .client)
    (hholds : mutex = some .thread ↔ thread.holds = true)
    (hrunning : running = true ↔ thread.active = true)
    (hcompleted : completed = true ↔ thread.over = true) :
    Inv { s with mutex := mutex, thread := thread, running := running, completed := completed,
                 result := result, finished := finished } := by
  have hstart : s.client ≠ .startThread := fun heq => hpresent (h.starting heq).1
  have hjoins : s.client.joining = true → False := fun hjoining =>
    (h.joining hjoining).1.elim hended hpresent
  exact
    { clientHolds := hclient.trans h.clientHolds
      threadHolds := hholds
      running := hrunning.trans (or_iff_left hstart).symm
      completed := hcompleted.1
      joinable := ⟨fun _ => hthread, fun _ => h.joinable.2 hpresent⟩
      starting := fun heq => absurd heq hstart
      polled := fun hover _ => .inl (hcompleted.2 hover)
      joining := fun hjoining => (hjoins hjoining).elim
      proper := h.proper }

theorem threadStep_inv (h : s.Inv) (hs : s.threadStep = some s') : s'.Inv := by
  have hstart : s.thread ≠ .absent → s.client ≠ .startThread := fun hpresent heq =>
    hpresent (h.starting heq).1
  have hactive : s.thread ≠ .absent → (s.running = true ↔ s.thread.active = true) := fun hpresent =>
    h.running.trans (or_iff_left (hstart hpresent))
  have hcompleted := h.completed
  have hholds := h.threadHolds
  cases hthread : s.thread with
  | absent =>
    rw [threadStep, hthread] at hs
    cases hs
  | task =>
    rw [threadStep, hthread] at hs
    cases hs
  | lock outcome =>
    rw [threadStep, hthread] at hs
    rw [hthread] at hactive hcompleted
    dsimp only at hs
    split at hs
    · rename_i hfree
      cases hs
      refine h.threadTurn (by rw [hthread]; rintro ⟨⟩) (by rw [hthread]; rintro ⟨⟩) (by rintro ⟨⟩)
        ?_ ⟨fun _ => rfl, fun _ => rfl⟩ (hactive (by rintro ⟨⟩))
        ⟨fun hset => hcompleted hset, fun hover => by cases hover⟩
      rw [hfree]
      decide
    · cases hs
  | storeResult outcome =>
    rw [threadStep, hthread] at hs
    rw [hthread] at hactive hcompleted hholds
    cases hs
    exact h.threadTurn (by rw [hthread]; rintro ⟨⟩) (by rw [hthread]; rintro ⟨⟩) (by rintro ⟨⟩)
      Iff.rfl hholds (hactive (by rintro ⟨⟩))
      ⟨fun hset => hcompleted hset, fun hover => by cases hover⟩
  | clearRunning =>
    rw [threadStep, hthread] at hs
    rw [hthread] at hcompleted hholds
    cases hs
    exact h.threadTurn (by rw [hthread]; rintro ⟨⟩) (by rw [hthread]; rintro ⟨⟩) (by rintro ⟨⟩)
      Iff.rfl hholds ⟨fun hfalse => (by cases hfalse), fun hfalse => (by cases hfalse)⟩
      ⟨fun hset => hcompleted hset, fun hover => by cases hover⟩
  | setCompleted =>
    rw [threadStep, hthread] at hs
    rw [hthread] at hactive hholds
    cases hs
    exact h.threadTurn (by rw [hthread]; rintro ⟨⟩) (by rw [hthread]; rintro ⟨⟩) (by rintro ⟨⟩)
      Iff.rfl hholds (hactive (by rintro ⟨⟩)) ⟨fun _ => rfl, fun _ => rfl⟩
  | unlock =>
    have hset : s.completed = true := by
      refine (h.polled (by rw [hthread]; rfl) (by rw [hthread]; rintro ⟨⟩)).resolve_right ?_
      intro hjoining
      rcases (h.joining hjoining).1 with heq | heq <;> cases hthread.symm.trans heq
    have hmutex : s.mutex = some .thread := h.threadHolds.2 (by rw [hthread]; rfl)
    rw [threadStep, hthread] at hs
    rw [hthread] at hactive
    cases hs
    refine h.threadTurn (by rw [hthread]; rintro ⟨⟩) (by rw [hthread]; rintro ⟨⟩) (by rintro ⟨⟩)
      ?_ ⟨fun hfalse => (by cases hfalse), fun hfalse => (by cases hfalse)⟩ (hactive (by rintro ⟨⟩))
      ⟨fun _ => rfl, fun _ => hset⟩
    rw [hmutex]
    decide
  | ended =>
    rw [threadStep, hthread] at hs
    cases hs

theorem step_inv (h : s.Inv) (hs : s.step e = some s') : s'.Inv := by
  cases e with
  | call call => exact call_inv h hs
  | client => exact clientStep_inv h hs
  | finish outcome => exact finish_inv h hs
  | thread => exact threadStep_inv h hs

theorem unseen (hpersistence : s'.persistence = s.persistence)
    (hanswers : s'.answers ++ s'.client.settled = s.answers ++ s.client.settled)
    (hfinished : s'.finished = s.finished) :
    ∃ actions, Transitions.Run Action.act s.view actions s'.view := by
  have hview : s'.view = s.view := by rw [view, view, hpersistence, hanswers, hfinished]
  exact ⟨[], hview ▸ .nil⟩

/-- What the caller does outside `start_thread_locked` leaves the abstract worker as it is. -/
theorem unseen_turn {mutex : Option Party} {client : ClientPhase} {answers : List Answer}
    (hbefore : s.client ≠ .startThread) (hafter : client ≠ .startThread)
    (hanswers : answers ++ client.settled = s.answers ++ s.client.settled) :
    ∃ actions, Transitions.Run Action.act s.view actions
      ({ s with mutex := mutex, client := client, answers := answers } : Worker).view := by
  refine unseen ?_ hanswers rfl
  rw [persistence, persistence, if_neg hbefore, if_neg hafter]

theorem asked (call : Call) (answer : Answer)
    (hask : call.ask s.persistence = some (s'.persistence, answer))
    (hanswers : s'.answers ++ s'.client.settled = s.answers ++ s.client.settled ++ [answer])
    (hfinished : s'.finished = s.finished) :
    ∃ actions, Transitions.Run Action.act s.view actions s'.view := by
  refine ⟨[.call call], .single ?_⟩
  rw [view, view, hanswers, hfinished, Action.act, hask]
  rfl

theorem body_view (h : s.Inv) (hclient : s.client = .body call) (hs : s.clientStep = some s') :
    ∃ actions, Transitions.Run Action.act s.view actions s'.view := by
  obtain ⟨hclientHolds, hthreadHolds, hrunning, hcompleted, hjoinable, hstarting, hpolled, hjoining,
    hproper⟩ := h
  -- the mutex keeps the thread out of its stores
  have hthread : s.thread.holds = false := by grind
  have hnone : s.answers ++ s.client.settled = s.answers := by
    rw [hclient]
    exact List.append_nil _
  rw [clientStep, hclient] at hs
  cases call with
  | submit =>
    dsimp only at hs
    split at hs
    · cases hs
      exact asked .submit (.submit false) (by grind [persistence, Call.ask]) (by rw [hnone]; rfl)
        rfl
    · cases hs
      exact asked .submit (.submit true) (by grind [persistence, Call.ask]) (by rw [hnone]; rfl)
        rfl
  | poll =>
    dsimp only at hs
    split at hs
    · cases hs
      exact asked .poll (.poll (some s.result)) (by grind [persistence, Call.ask])
        (by rw [hnone]; rfl) rfl
    · cases hs
      exact asked .poll (.poll none) (by grind [persistence, Call.ask]) (by rw [hnone]; rfl) rfl
  | busy =>
    cases hs
    have hbusy : s.persistence.busy = (s.running || s.completed) := by
      cases hphase : s.thread <;> grind [persistence, Persistence.busy]
    exact asked .busy (.busy (s.running || s.completed)) (by grind [persistence, Call.ask])
      (by rw [hnone]; rfl) rfl
  | wait => cases hs

theorem unlock_view {reply : Answer} (h : s.Inv) (hclient : s.client = .unlock reply)
    (hs : s.clientStep = some s') :
    ∃ actions, Transitions.Run Action.act s.view actions s'.view := by
  have hbefore : s.client ≠ .startThread := by
    rw [hclient]
    rintro ⟨⟩
  have hreturned : s.answers ++ [reply] ++ ClientPhase.idle.settled =
      s.answers ++ s.client.settled := by
    rw [hclient]
    exact List.append_nil _
  rw [clientStep, hclient] at hs
  cases reply with
  | poll result =>
    cases result with
    | none =>
      cases hs
      exact unseen_turn hbefore (fun heq => by cases heq) hreturned
    | some value =>
      cases hs
      exact unseen_turn hbefore (fun heq => by cases heq) (by rw [hclient]; rfl)
  | submit accepted =>
    cases hs
    exact unseen_turn hbefore (fun heq => by cases heq) hreturned
  | busy value =>
    cases hs
    exact unseen_turn hbefore (fun heq => by cases heq) hreturned
  | wait => exact absurd rfl (hclient ▸ h.proper)

theorem join_view {reply : Answer} (h : s.Inv) (hclient : s.client = .join reply)
    (hs : s.clientStep = some s') :
    ∃ actions, Transitions.Run Action.act s.view actions s'.view := by
  have hjoined : s'.persistence = s.persistence ∧ s'.client = .idle ∧
      s'.answers = s.answers ++ [reply] ∧ s'.finished = s.finished ∧
      s.persistence ≠ .running := by
    obtain ⟨hclientHolds, hthreadHolds, hrunning, hcompleted, hjoinable, hstarting, hpolled,
      hjoining, hproper⟩ := h
    rw [clientStep, hclient] at hs
    dsimp only at hs
    split at hs
    · split at hs
      · cases hs
        grind [persistence, Worker.answer]
      · cases hs
    · cases hs
      grind [persistence, Worker.answer]
  obtain ⟨hsame, hidle, hanswers, hfinished, hover⟩ := hjoined
  rcases (hclient ▸ h.proper : ClientPhase.Proper (.join reply)) with rfl | ⟨result, rfl⟩
  · refine asked .wait .wait (by grind [Call.ask]) ?_ hfinished
    rw [hanswers, hidle, hclient]
    simp [ClientPhase.settled]
  · refine unseen hsame ?_ hfinished
    rw [hanswers, hidle, hclient]
    exact List.append_nil _

theorem clientStep_view (h : s.Inv) (hs : s.clientStep = some s') :
    ∃ actions, Transitions.Run Action.act s.view actions s'.view := by
  cases hclient : s.client with
  | idle =>
    rw [clientStep, hclient] at hs
    cases hs
  | lock call =>
    rw [clientStep, hclient] at hs
    dsimp only at hs
    split at hs
    · cases hs
      exact unseen_turn (by rw [hclient]; rintro ⟨⟩) (fun heq => by cases heq)
        (by rw [hclient]; rfl)
    · cases hs
  | body call => exact body_view h hclient hs
  | startThread =>
    obtain ⟨habsent, -⟩ := h.starting hclient
    rw [clientStep, hclient] at hs
    cases hs
    refine unseen ?_ (by rw [hclient]; rfl) rfl
    rw [persistence, persistence, if_pos hclient]
    rfl
  | unlock reply => exact unlock_view h hclient hs
  | join reply => exact join_view h hclient hs

theorem threadStep_view (h : s.Inv) (hs : s.threadStep = some s') :
    ∃ actions, Transitions.Run Action.act s.view actions s'.view := by
  obtain ⟨hclientHolds, hthreadHolds, hrunning, hcompleted, hjoinable, hstarting, hpolled, hjoining,
    hproper⟩ := h
  rw [threadStep] at hs
  cases hthread : s.thread with
  | absent =>
    rw [hthread] at hs
    cases hs
  | task =>
    rw [hthread] at hs
    cases hs
  | lock outcome =>
    rw [hthread] at hs
    dsimp only at hs
    split at hs
    · cases hs
      exact unseen (by grind [persistence]) rfl rfl
    · cases hs
  | storeResult outcome =>
    rw [hthread] at hs
    cases hs
    exact unseen (by grind [persistence]) rfl rfl
  | clearRunning =>
    rw [hthread] at hs
    cases hs
    exact unseen (by grind [persistence]) rfl rfl
  | setCompleted =>
    rw [hthread] at hs
    cases hs
    refine ⟨[.finish s.result], .single ?_⟩
    have hbefore : s.persistence = .running := by grind [persistence]
    rw [view, hbefore, Action.act, if_pos rfl, view]
    grind [persistence]
  | unlock =>
    rw [hthread] at hs
    cases hs
    exact unseen (by grind [persistence]) rfl rfl
  | ended =>
    rw [hthread] at hs
    cases hs

theorem step_view (h : s.Inv) (hs : s.step e = some s') :
    ∃ actions, Transitions.Run Action.act s.view actions s'.view := by
  cases e with
  | call call =>
    rw [step] at hs
    split at hs
    · cases hs
      exact unseen (by grind [persistence]) (by grind) rfl
    · cases hs
  | client => exact clientStep_view h hs
  | finish outcome =>
    have hstarting := h.starting
    rw [step] at hs
    split at hs
    · cases hs
      exact unseen (by grind [persistence]) rfl rfl
    · cases hs
  | thread => exact threadStep_view h hs

/-- The result that is on its way from the task to `completed_`. -/
def inFlight (s : Worker) : List Int :=
  match s.thread with
  | .lock outcome => [outcome]
  | .storeResult outcome => [outcome]
  | .clearRunning => [s.result]
  | .setCompleted => [s.result]
  | _ => []

theorem clientStep_inFlight (h : s.Inv) (hs : s.clientStep = some s') :
    s'.inFlight = s.inFlight ∧ s'.outcomes = s.outcomes ∧ s'.finished = s.finished := by
  have hjoinable := h.joinable
  have hstarting := h.starting
  have hclientHolds := h.clientHolds
  have hthreadHolds := h.threadHolds
  rw [clientStep] at hs
  split at hs
  all_goals try split at hs
  all_goals try split at hs
  all_goals cases hs
  all_goals grind [inFlight, Worker.answer]

theorem step_outcomes (h : s.Inv) (hs : s.step e = some s')
    (houtcomes : s.finished ++ s.inFlight = s.outcomes) :
    s'.finished ++ s'.inFlight = s'.outcomes := by
  cases e with
  | call call =>
    rw [step] at hs
    split at hs
    · cases hs
      exact houtcomes
    · cases hs
  | client =>
    obtain ⟨hsame, hall, hfinished⟩ := clientStep_inFlight h hs
    rw [hsame, hall, hfinished, houtcomes]
  | finish outcome =>
    rw [step] at hs
    split at hs
    · cases hs
      grind [inFlight]
    · cases hs
  | thread =>
    rw [step, threadStep] at hs
    cases hthread : s.thread with
    | absent =>
      rw [hthread] at hs
      cases hs
    | task =>
      rw [hthread] at hs
      cases hs
    | lock outcome =>
      rw [hthread] at hs
      dsimp only at hs
      split at hs
      · cases hs
        grind [inFlight]
      · cases hs
    | storeResult outcome =>
      rw [hthread] at hs
      cases hs
      grind [inFlight]
    | clearRunning =>
      rw [hthread] at hs
      cases hs
      grind [inFlight]
    | setCompleted =>
      rw [hthread] at hs
      cases hs
      grind [inFlight]
    | unlock =>
      rw [hthread] at hs
      cases hs
      grind [inFlight]
    | ended =>
      rw [hthread] at hs
      cases hs

end Worker

/-- The result that an answer hands over. -/
def Answer.taken : Answer → Option Int
  | .poll result => result
  | _ => none

def Answer.accepts : Answer → Bool
  | .submit accepted => accepted
  | _ => false

namespace Ledger

/-- The result that waits to be polled. -/
def untaken (ledger : Ledger) : List Int :=
  match ledger.persistence with
  | .completed result => [result]
  | _ => []

/-- The task that runs. -/
def unfinished (ledger : Ledger) : Nat :=
  if ledger.persistence = .running then 1 else 0

structure Balanced (ledger : Ledger) : Prop where
  taken : ledger.answers.filterMap (·.taken) ++ ledger.untaken = ledger.finished
  accepted : ledger.answers.countP (·.accepts) = ledger.finished.length + ledger.unfinished

theorem act_balanced {ledger ledger' : Ledger} {action : Action} (h : ledger.Balanced)
    (hact : action.act ledger = some ledger') : ledger'.Balanced := by
  obtain ⟨htaken, haccepted⟩ := h
  cases action with
  | call request =>
    rw [Action.act] at hact
    cases request <;> cases hp : ledger.persistence <;> rw [hp] at hact <;> cases hact <;>
      constructor <;> simp_all [untaken, unfinished, Answer.taken, Answer.accepts]
  | finish result =>
    rw [Action.act] at hact
    split at hact
    · cases hact
      constructor <;> simp_all [untaken, unfinished]
    · cases hact

end Ledger

namespace Worker
variable {s s' : Worker}

/-- In every interleaving of the caller and the thread the calls answer as the abstract worker of
the daemon does, which takes each call at once; every result of a task is handed over once and in
order, and as many tasks have been accepted as are over, and one more while one runs. -/
theorem worker_refines {events : List Event} (h : Transitions.Run step {} events s) :
    (∃ actions, Transitions.Run Action.act {} actions s.view) ∧
    s.view.answers.filterMap (·.taken) ++ s.view.untaken ++ s.inFlight = s.outcomes ∧
    s.view.answers.countP (·.accepts) = s.finished.length + s.view.unfinished := by
  have hkept : s.Inv ∧ s.finished ++ s.inFlight = s.outcomes :=
    h.invariant (fun t => t.Inv ∧ t.finished ++ t.inFlight = t.outcomes)
      (fun _ _ _ hi hs => ⟨step_inv hi.1 hs, step_outcomes hi.1 hs hi.2⟩) ⟨start_inv, rfl⟩
  obtain ⟨-, actions, hactions⟩ :=
    h.refines view (fun _ _ _ hi hs => ⟨step_inv hi hs, step_view hi hs⟩) start_inv
  have hbalanced : s.view.Balanced :=
    hactions.invariant Ledger.Balanced (fun _ _ _ hi ha => Ledger.act_balanced hi ha) ⟨rfl, rfl⟩
  refine ⟨⟨actions, hactions⟩, ?_, hbalanced.accepted⟩
  rw [hbalanced.taken]
  exact hkept.2

/-- A save that ends while the caller looks at it: the first `poll` comes too early. -/
def earlyPoll : List Event :=
  [.call .submit, .client, .client, .client, .client, .call .poll, .client, .finish (some 0),
    .client, .client, .thread, .thread, .thread, .thread, .thread, .call .poll, .client, .client,
    .client, .client]

theorem worker_refines_early : ∃ s, Transitions.Run step {} earlyPoll s ∧
    s.answers = [.submit true, .poll none, .poll (some 0)] ∧
    ((∃ actions, Transitions.Run Action.act {} actions s.view) ∧
    s.view.answers.filterMap (·.taken) ++ s.view.untaken ++ s.inFlight = s.outcomes ∧
    s.view.answers.countP (·.accepts) = s.finished.length + s.view.unfinished) :=
  have hrun : Transitions.Run step {} earlyPoll _ := .of_after rfl
  ⟨_, hrun, rfl, worker_refines hrun⟩

end Worker

def ClientPhase.rank : ClientPhase → Nat
  | .lock _ => 5
  | .body _ => 4
  | .startThread => 3
  | .unlock _ => 2
  | .join _ => 1
  | .idle => 0

def ThreadPhase.rank : ThreadPhase → Nat
  | .task => 6
  | .lock _ => 5
  | .storeResult _ => 4
  | .clearRunning => 3
  | .setCompleted => 2
  | .unlock => 1
  | _ => 0

namespace Worker
variable {s s' : Worker}

def rank (s : Worker) : Nat := 10 * s.client.rank + s.thread.rank

theorem rank_of_thread (n : Nat) (hclient : s'.client = s.client) (hrank : s.thread.rank = n + 1)
    (hrank' : s'.thread.rank = n) : s'.rank < s.rank := by
  rw [rank, rank, hclient, hrank, hrank']
  omega

theorem rank_of_client (m n : Nat) (hless : n < m) (hthread : s'.thread.rank = s.thread.rank)
    (hrank : s.client.rank = m) (hrank' : s'.client.rank = n) : s'.rank < s.rank := by
  rw [rank, rank, hthread, hrank, hrank']
  omega

theorem thread_progress (habsent : s.thread ≠ .absent) (hended : s.thread ≠ .ended)
    (htask : s.thread ≠ .task) (hfree : s.thread.holds = false → s.mutex = none) :
    ∃ s', s.threadStep = some s' ∧ s'.client = s.client ∧ s'.rank < s.rank := by
  rw [threadStep]
  cases hphase : s.thread with
  | absent => exact absurd hphase habsent
  | ended => exact absurd hphase hended
  | task => exact absurd hphase htask
  | lock outcome =>
    have hmutex := hfree (by rw [hphase]; rfl)
    exact ⟨_, if_pos hmutex, rfl, rank_of_thread 4 rfl (by rw [hphase]; rfl) rfl⟩
  | storeResult outcome => exact ⟨_, rfl, rfl, rank_of_thread 3 rfl (by rw [hphase]; rfl) rfl⟩
  | clearRunning => exact ⟨_, rfl, rfl, rank_of_thread 2 rfl (by rw [hphase]; rfl) rfl⟩
  | setCompleted => exact ⟨_, rfl, rfl, rank_of_thread 1 rfl (by rw [hphase]; rfl) rfl⟩
  | unlock => exact ⟨_, rfl, rfl, rank_of_thread 0 rfl (by rw [hphase]; rfl) rfl⟩

theorem client_progress (h : s.Inv) (hholds : s.client.holds = true) :
    ∃ s', s.clientStep = some s' ∧ s'.client ≠ .join .wait ∧ s'.rank < s.rank := by
  have hproper := h.proper
  have hstarting := h.starting
  rw [clientStep]
  cases hclient : s.client with
  | idle => rw [hclient] at hholds; cases hholds
  | lock call => rw [hclient] at hholds; cases hholds
  | join answer => rw [hclient] at hholds; cases hholds
  | startThread =>
    have hrank : s.rank = 30 := by rw [rank, hclient, (hstarting hclient).1]; rfl
    refine ⟨_, rfl, fun heq => (by cases heq), ?_⟩
    rw [hrank]
    exact (by decide : 26 < 30)
  | body call =>
    rw [hclient] at hproper
    have hrank : s.client.rank = 4 := by rw [hclient]; rfl
    cases call with
    | submit =>
      dsimp only
      split
      · exact ⟨_, rfl, fun heq => (by cases heq), rank_of_client 4 2 (by decide) rfl hrank rfl⟩
      · exact ⟨_, rfl, fun heq => (by cases heq), rank_of_client 4 3 (by decide) rfl hrank rfl⟩
    | poll =>
      dsimp only
      split
      · exact ⟨_, rfl, fun heq => (by cases heq), rank_of_client 4 2 (by decide) rfl hrank rfl⟩
      · exact ⟨_, rfl, fun heq => (by cases heq), rank_of_client 4 2 (by decide) rfl hrank rfl⟩
    | busy =>
      exact ⟨_, rfl, fun heq => (by cases heq), rank_of_client 4 2 (by decide) rfl hrank rfl⟩
    | wait => exact absurd rfl hproper
  | unlock answer =>
    have hrank : s.client.rank = 2 := by rw [hclient]; rfl
    cases answer with
    | poll result =>
      cases result with
      | none =>
        exact ⟨_, rfl, fun heq => (by cases heq), rank_of_client 2 0 (by decide) rfl hrank rfl⟩
      | some value =>
        exact ⟨_, rfl, fun heq => (by cases heq), rank_of_client 2 1 (by decide) rfl hrank rfl⟩
    | submit accepted =>
      exact ⟨_, rfl, fun heq => (by cases heq), rank_of_client 2 0 (by decide) rfl hrank rfl⟩
    | busy value =>
      exact ⟨_, rfl, fun heq => (by cases heq), rank_of_client 2 0 (by decide) rfl hrank rfl⟩
    | wait =>
      exact ⟨_, rfl, fun heq => (by cases heq), rank_of_client 2 0 (by decide) rfl hrank rfl⟩

/-- While a call has not returned one of the two threads can go on, and only `wait` needs the task
to end. -/
theorem progress (h : s.Inv) (hclient : s.client ≠ .idle) :
    ∃ e s', (e = .client ∨ e = .thread ∨ s.client = .join .wait ∧ e = .finish none) ∧
      s.step e = some s' ∧ (s'.client = .join .wait → s.client = .join .wait) ∧
      s'.rank < s.rank := by
  have hclientHolds := h.clientHolds
  have hthreadHolds := h.threadHolds
  by_cases hholds : s.client.holds = true
  · obtain ⟨s', hs, hwait, hless⟩ := client_progress h hholds
    exact ⟨.client, s', .inl rfl, hs, fun heq => absurd heq hwait, hless⟩
  · have hfree : s.thread.holds = false → s.mutex = none := by
      intro hthread
      cases hmutex : s.mutex with
      | none => rfl
      | some party => cases party <;> grind
    cases hphase : s.client with
    | idle => exact absurd hphase hclient
    | body call => rw [hphase] at hholds; exact absurd rfl hholds
    | startThread => rw [hphase] at hholds; exact absurd rfl hholds
    | unlock answer => rw [hphase] at hholds; exact absurd rfl hholds
    | lock call =>
      by_cases hmutex : s.mutex = none
      · refine ⟨.client, { s with mutex := some .client, client := .body call }, .inl rfl, ?_,
          fun heq => (by cases heq), ?_⟩
        · rw [step, clientStep, hphase]
          exact if_pos hmutex
        · exact rank_of_client 5 4 (by decide) rfl (by rw [hphase]; rfl) rfl
      · have hthread : s.thread.holds = true := by
          by_contra hnot
          exact hmutex (hfree (Bool.not_eq_true _ ▸ hnot))
        have hne : ∀ phase, phase.holds = false → s.thread ≠ phase := by
          rintro phase hnot rfl
          cases hthread.symm.trans hnot
        obtain ⟨s', hs, hsame, hless⟩ :=
          thread_progress (hne _ rfl) (hne _ rfl) (hne _ rfl) hfree
        exact ⟨.thread, s', .inr (.inl rfl), hs,
          fun heq => (by rw [hsame, hphase] at heq; cases heq), hless⟩
    | join answer =>
      by_cases hend : s.thread = .ended ∨ s.thread = .absent
      · have hjoin : ∃ s', s.clientStep = some s' ∧ s'.client = .idle ∧
            s'.thread.rank = s.thread.rank := by
          have hjoinable := h.joinable
          rw [clientStep, hphase]
          rcases hend with hend | hend
          · have hset : s.joinable = true := hjoinable.2 (by rw [hend]; decide)
            exact ⟨_, by dsimp only; rw [if_pos hset, if_pos hend], rfl, by rw [hend]; rfl⟩
          · have hset : ¬s.joinable = true := fun hset => hjoinable.1 hset hend
            exact ⟨s.answer answer, if_neg hset, rfl, rfl⟩
        obtain ⟨s', hs, hidle, hsame⟩ := hjoin
        refine ⟨.client, s', .inl rfl, hs, fun heq => (by rw [hidle] at heq; cases heq), ?_⟩
        exact rank_of_client 1 0 (by decide) hsame (by rw [hphase]; rfl) (by rw [hidle]; rfl)
      · by_cases htask : s.thread = .task
        · have hwait : answer = .wait := by
            have hproper := h.proper
            have hjoining := h.joining
            rw [hphase] at hproper hjoining
            rcases hproper with hwait | ⟨result, rfl⟩
            · exact hwait
            · exact absurd (hjoining rfl).1 hend
          refine ⟨.finish none, _, .inr (.inr ⟨by rw [hwait], rfl⟩), if_pos htask,
            fun _ => by rw [hwait], ?_⟩
          exact rank_of_thread 5 rfl (by rw [htask]; rfl) rfl
        · obtain ⟨s', hs, hsame, hless⟩ := thread_progress (fun heq => hend (.inr heq))
            (fun heq => hend (.inl heq)) htask hfree
          exact ⟨.thread, s', .inr (.inl rfl), hs, fun heq => (by rw [← hphase, ← hsame, heq]),
            hless⟩

/-- No call is left waiting: from every state the caller and the thread can go on until the call has
returned, and `submit`, `poll` and `busy` do so without the end of a task that runs. -/
theorem call_returns {events : List Event} (h : Transitions.Run step {} events s) :
    ∃ more s', Transitions.Run step s more s' ∧ s'.client = .idle ∧
      ∀ e ∈ more, e = .client ∨ e = .thread ∨ s.client = .join .wait ∧ e = .finish none := by
  have hinv : s.Inv := h.invariant Inv (fun _ _ _ hi hs => step_inv hi hs) start_inv
  have hgood : ∀ t : Worker, t.Inv ∧ (t.client = .join .wait → s.client = .join .wait) →
      ¬t.client = .idle → ∃ e t',
        (e = .client ∨ e = .thread ∨ s.client = .join .wait ∧ e = .finish none) ∧
        t.step e = some t' ∧ (t'.Inv ∧ (t'.client = .join .wait → s.client = .join .wait)) ∧
        t'.rank < t.rank := by
    rintro t ⟨hi, hwait⟩ hclient
    obtain ⟨e, t', he, ht, hwait', hless⟩ := progress hi hclient
    refine ⟨e, t', ?_, ht, ⟨step_inv hi ht, fun heq => hwait (hwait' heq)⟩, hless⟩
    rcases he with he | he | ⟨hjoin, he⟩
    · exact .inl he
    · exact .inr (.inl he)
    · exact .inr (.inr ⟨hwait hjoin, he⟩)
  obtain ⟨more, s', hrun, hmore, -, hidle⟩ := Transitions.Run.reaches rank hgood ⟨hinv, id⟩
  exact ⟨more, s', hrun, hidle, hmore⟩

theorem call_returns_wait :
    ∃ s, Transitions.Run step {} (earlyPoll.take 5 ++ [Event.call .wait]) s ∧
      s.client = .join .wait ∧ ∃ more s', Transitions.Run step s more s' ∧ s'.client = .idle ∧
      ∀ e ∈ more, e = .client ∨ e = .thread ∨ s.client = .join .wait ∧ e = .finish none :=
  have hrun : Transitions.Run step {} (earlyPoll.take 5 ++ [Event.call .wait]) _ := .of_after rfl
  ⟨_, hrun, rfl, call_returns hrun⟩

end Worker
end PmTiny.PersistenceWorker
