import PmTiny.Windows.Readiness

namespace PmTiny.Windows
set_option autoImplicit true

variable {s s' : Daemon} {ω : System} {n : String}

open Daemon

/-- The request that is being handled names the program. -/
def Core.names (c : Core) (n : String) : Bool := c.request.bind Request.name? = some n

theorem Core.names_iff {c : Core} : c.names n = true ↔ c.Names n := by
  rw [Core.names, decide_eq_true_iff, Option.bind_eq_some_iff]
  rfl

/-- A start operation hands out no program whose restart is pending, unless the request that is
being handled names it. -/
def Event.respectsBackoff (e : Event) : Bool :=
  match e.call with
  | .startOperation operation => (e.core.handedOut operation).all fun n =>
      !(e.core.find n).any (·.restartPending) || e.core.names n
  | _ => true

/-- A client request that names the program, or the reload that replaces every record. -/
def Call.addresses (n : String) : Call → Bool
  | .request r => r.name? = some n
  | .swapReload => true
  | _ => false

/-- The pending restart and the attempts that led to it are as they were. -/
structure SameBackoff (p q : ProcessHandle) : Prop where
  restartPending : q.restartPending = true
  restartDueMs : q.restartDueMs = p.restartDueMs
  restartState : q.restartState = p.restartState

theorem SameBackoff.kept {p q r : ProcessHandle} (h : SameBackoff p q) (hk : Kept q r) :
    SameBackoff p r :=
  ⟨hk.restartPending.trans h.restartPending, hk.restartDueMs.trans h.restartDueMs,
    hk.restartState.trans h.restartState⟩

namespace Daemon

/-- Programs on the worklist have no pending restart, unless the request names them. -/
def QueueBackoff (s : Daemon) : Prop :=
  ∀ n ∈ s.launchQueue, ∀ p, s.find n = some p → p.restartPending = true → s.Names n

theorem pending_move {p' : ProcessHandle} (hm : Move s s') (hqueue : s'.launchQueue ≠ [])
    (hp' : s'.find n = some p') (hpending : p'.restartPending = true) :
    ∃ p, s.find n = some p ∧ p.restartPending = true := by
  have hfound : ∀ {p : ProcessHandle}, s'.find n = some p → p.restartPending = true := by
    intro p hp
    obtain rfl := Option.some.inj (hp'.symm.trans hp)
    exact hpending
  cases hm.record n with
  | same h hh => exact ⟨p', h.symm.trans hp', hpending⟩
  | edited hp hk h hh => exact ⟨_, hp, hk.restartPending.symm.trans (hfound h)⟩
  | appended hp hk chunks h hh =>
    have hq := hfound h
    exact ⟨_, hp, hk.restartPending.symm.trans hq⟩
  | exited hp hk code h hh =>
    have hq := hfound h
    exact ⟨_, hp, hk.restartPending.symm.trans hq⟩
  | terminated hp hlive hr hk job hjob h hh =>
    have hq := hfound h
    exact ⟨_, hp, hk.restartPending.symm.trans hq⟩
  | readied hp hlive hk h hh =>
    have hq := hfound h
    exact ⟨_, hp, hk.restartPending.symm.trans hq⟩
  | cleared hp hn hk h hh => cases hfound h
  | started hp hidle hsite h hh => cases hfound h
  | @refused p site rest e hp hidle hsite h hh =>
    cases site with
    | dependency => cases hfound h
    | due nowMs =>
      have hq := hfound h
      exact ⟨p, hp, hq⟩
  | completed hq hp hlive hc h hh =>
    exact ⟨p', (hm.find_of_queue hq hqueue n).symm.trans hp', hpending⟩
  | granted hq hp hlive hrestart ha hd h hh =>
    exact ⟨p', (hm.find_of_queue hq hqueue n).symm.trans hp', hpending⟩
  | dropped hn hp hidle h hh => cases h.symm.trans hp'
  | ensured cfg hname hcfg h hh =>
    have hq := hfound h
    cases hp : s.find n with
    | none =>
      rw [hp] at hq
      cases hq
    | some p =>
      rw [hp] at hq
      exact ⟨p, rfl, hq⟩
  | swapped hq hidle h hh => cases h.symm.trans hp'

theorem QueueBackoff.move (hs : s.QueueBackoff) (hm : Move s s')
    (hK : ∀ e ∈ since s s', e.respectsBackoff = true) : s'.QueueBackoff := by
  intro n hn p' hp' hpending
  have hne : s'.launchQueue ≠ [] := List.ne_nil_of_mem hn
  obtain ⟨p, hp, hold⟩ := pending_move hm hne hp' hpending
  rcases hm.queue with hempty | ⟨hsub, hrequest, -⟩ | ⟨operation, rfl⟩
  · exact absurd hempty hne
  · obtain ⟨request, hr, hname⟩ := hs n (hsub n hn) p hp hold
    exact ⟨request, hrequest.trans hr, hname⟩
  · rcases List.mem_append.1 hn with hq | hq
    · exact hs n hq p hp hold
    · have hrespects := hK _ (since_one rfl)
      simp only [Event.respectsBackoff, List.all_eq_true] at hrespects
      have hnamed := hrespects n hq
      rw [hp, Option.any_some, hold] at hnamed
      exact Core.names_iff.1 hnamed

/-- What is launched while its restart is pending is due, or named by the request. -/
def LaunchBackoff (s : Daemon) : Prop :=
  ∀ e ∈ s.history, ∀ n site outcome p, e.call = .launchProgram n site outcome →
    e.core.find n = some p → p.restartPending = true →
      (∃ nowMs, site = .due nowMs ∧ p.restartDueMs ≤ nowMs) ∨ e.core.Names n

theorem LaunchBackoff.move (hs : s.LaunchBackoff) (hq : s.QueueBackoff) (hm : Move s s') :
    s'.LaunchBackoff := by
  intro e he n site outcome p hcall hp hpending
  rcases (hm.record n).launch he hcall with hold | ⟨p', rest, hp', -, hsite, hcore⟩
  · exact hs e hold n site outcome p hcall hp hpending
  · rw [hcore] at hp ⊢
    obtain rfl := Option.some.inj (hp'.symm.trans hp)
    cases site with
    | dependency =>
      refine .inr (hq n ?_ p' hp' hpending)
      rw [hsite, find_name hp']
      exact List.mem_cons_self
    | due nowMs => exact .inl ⟨nowMs, rfl, hsite.2.2.2⟩

/-- Where the pending restart of a program is: still to come, or taken at its due time. -/
def Waits (s : Daemon) (n : String) (p : ProcessHandle) (x : Daemon) : Prop :=
  (∃ q, x.find n = some q ∧ SameBackoff p q) ∨
    ∃ e ∈ since s x, ∃ nowMs outcome q, e.call = .launchProgram n (.due nowMs) outcome ∧
      e.core.find n = some q ∧ SameBackoff p q ∧ p.restartDueMs ≤ nowMs

theorem waits_move {x x' : Daemon} {p q : ProcessHandle} (hq : x.QueueBackoff) (hi : x.PendingIdle)
    (hnames : ¬x.Names n) (hm : Move x x')
    (haddressed : ∀ e ∈ since x x', e.call.addresses n = false)
    (hfind : x.find n = some q) (hsame : SameBackoff p q) : Waits x n p x' := by
  have hfound : ∀ {q' : ProcessHandle}, x.find n = some q' → SameBackoff p q' := by
    intro q' hq'
    obtain rfl := Option.some.inj (hfind.symm.trans hq')
    exact hsame
  have hlaunch : ∀ {site : LaunchSite} {rest : List String} {outcome : Except String Nat}
      {q' : ProcessHandle}, x.find n = some q' → site.Admits x.toCore q' rest →
      x'.history =
        ⟨.launchProgram n site outcome, { x.toCore with launchQueue := rest }⟩ :: x.history →
      Waits x n p x' := by
    intro site rest outcome q' hq' hsite hh
    have hmem := since_one hh
    cases site with
    | dependency =>
      refine absurd (hq n ?_ q' hq' (hfound hq').restartPending) hnames
      rw [hsite, find_name hq']
      exact List.mem_cons_self
    | due nowMs =>
      refine .inr ⟨_, hmem, nowMs, outcome, q', rfl, hq', hfound hq', ?_⟩
      rw [← (hfound hq').restartDueMs]
      exact hsite.2.2.2
  have hbusy : ∀ {q' : ProcessHandle}, x.find n = some q' → q'.hasProcess = true → False := by
    intro q' hq' hlive
    exact absurd ((hi n q' hq' (hfound hq').restartPending).symm.trans hlive) (by decide)
  cases hm.record n with
  | same h hh => exact .inl ⟨q, h.trans hfind, hsame⟩
  | edited hp hk h hh => exact .inl ⟨_, h, (hfound hp).kept hk⟩
  | appended hp hk chunks h hh =>
    obtain ⟨h₁, h₂, h₃⟩ := (hfound hp).kept hk
    exact .inl ⟨_, h, h₁, h₂, h₃⟩
  | exited hp hk code h hh =>
    obtain ⟨h₁, h₂, h₃⟩ := (hfound hp).kept hk
    exact .inl ⟨_, h, h₁, h₂, h₃⟩
  | terminated hp hlive hr hk job hjob h hh => exact (hbusy hp hlive).elim
  | readied hp hlive hk h hh => exact (hbusy hp hlive).elim
  | cleared hp hn hk h hh => exact absurd hn hnames
  | started hp hidle hsite h hh => exact hlaunch hp hsite hh
  | refused hp hidle hsite h hh => exact hlaunch hp hsite hh
  | completed hqueue hp hlive hc h hh => exact (hbusy hp hlive).elim
  | granted hqueue hp hlive hrestart ha hd h hh => exact (hbusy hp hlive).elim
  | dropped hn hp hidle h hh => exact absurd hn hnames
  | ensured cfg hname hcfg h hh =>
    rw [hfind] at h
    exact .inl ⟨_, h, hsame.1, hsame.2, hsame.3⟩
  | swapped hqueue hidle h hh =>
    cases haddressed _ (since_one hh)

theorem names_move (hs : ¬s.Names n) (hm : Move s s')
    (haddressed : ∀ e ∈ since s s', e.call.addresses n = false) : ¬s'.Names n := by
  rintro ⟨request, hr, hname⟩
  rcases hm.request_eq with h | h | ⟨request', h, hmem⟩
  · exact hs ⟨request, h.symm.trans hr, hname⟩
  · cases h.symm.trans hr
  · cases h.symm.trans hr
    have hnot := haddressed _ hmem
    rw [Call.addresses, decide_eq_false_iff_not] at hnot
    exact hnot hname

theorem Waits.tail {x x' : Daemon} {p : ProcessHandle} (h : Moves s x) (hm : Move x x')
    (hw : Waits x n p x') : Waits s n p x' := by
  rcases hw with hw | ⟨e, he, hrest⟩
  · exact .inl hw
  · refine .inr ⟨e, ?_, hrest⟩
    rw [since_tail h hm]
    exact List.mem_append_left _ he

/-- As long as no start operation hands out a program whose restart is pending, a pending restart is
taken at its due time or by a request that names the program; until then the attempts that led to it
are kept. -/
theorem backoff_respected (h : Reachable ω s) (inputs : List Input)
    (hK : ∀ e ∈ (s.run ω inputs).history, e.respectsBackoff = true) :
    (∀ e ∈ (s.run ω inputs).history, ∀ n site outcome p, e.call = .launchProgram n site outcome →
      e.core.find n = some p → p.restartPending = true →
        (∃ nowMs, site = .due nowMs ∧ p.restartDueMs ≤ nowMs) ∨ e.core.Names n) ∧
    ∀ n p, s.find n = some p → p.restartPending = true →
      (∀ e ∈ since s (s.run ω inputs), e.call.addresses n = false) →
        Waits s n p (s.run ω inputs) := by
  have hqueue : ∀ {x : Daemon}, Reachable ω x → (∀ e ∈ x.history, e.respectsBackoff = true) →
      x.QueueBackoff ∧ x.LaunchBackoff := by
    intro x hx hK
    refine hx.judged (I := fun x => x.QueueBackoff ∧ x.LaunchBackoff) hK ?_ ?_
    · intro s hs
      refine ⟨fun n hn => ?_, fun e he => ?_⟩
      · rw [hs.idle.launchQueue] at hn
        cases hn
      · rw [hs.history] at he
        cases he
    · intro s s' hs hm hK
      exact ⟨hs.1.move hm fun e he => hK e (mem_since hm.moves he), hs.2.move hs.1 hm⟩
  have hmoves := h.run_moves inputs
  refine ⟨(hqueue (h.run inputs) hK).2, fun n p hp hpending haddressed => ?_⟩
  have hstart : s.QueueBackoff := (hqueue h fun e he => hK e (hmoves.adds.mem e he)).1
  obtain ⟨-, -, -, hidle, -⟩ := h.moves
  -- Once the restart is taken, nothing more is said about the record.
  refine (hmoves.judged_since (K := fun e => e.respectsBackoff = true ∧ e.call.addresses n = false)
    (I := fun x => x.QueueBackoff ∧ x.PendingIdle ∧ ¬x.Names n ∧ Waits s n p x)
    (fun e he => ⟨hK e (mem_since hmoves he), haddressed e he⟩) ?_ ?_).2.2.2
  · refine ⟨hstart, h.pendingIdle, ?_, .inl ⟨p, hp, hpending, rfl, rfl⟩⟩
    rintro ⟨request, hr, -⟩
    cases hidle.request.symm.trans hr
  · rintro x x' hx ⟨hq, hi, hnames, hw⟩ hm hK
    have haddressed' := fun e he => (hK e he).2
    refine ⟨hq.move hm fun e he => (hK e he).1, hi.move hm, names_move hnames hm haddressed', ?_⟩
    rcases hw with ⟨q, hq', hsame⟩ | ⟨e, he, hrest⟩
    · exact (waits_move hq hi hnames hm haddressed' hq' hsame).tail hx hm
    · refine .inr ⟨e, ?_, hrest⟩
      rw [since_tail hx hm]
      exact List.mem_append_right _ he

/-- A program that is restarted when it ends, and one that has to report that it is ready. -/
def crashing : List ProgramConfig :=
  [{ name := "b", cwd := ".", executable := "x" },
    { name := "c", cwd := ".", executable := "x", startTimeout := 10 }]

def crashed : List Input := [Input.tick, .wake] ++ exits "b" 1 ++ [Input.tick]

theorem backoff_respected_waiting : ∃ s, Reachable (exitingSystem crashing) s ∧
    (∃ p, s.find "b" = some p ∧ p.restartPending = true ∧
      Waits s "b" p (s.run (exitingSystem crashing) [.wake])) ∧
    ∀ e ∈ (s.run (exitingSystem crashing) [.wake]).history, e.respectsBackoff = true := by
  obtain ⟨s, hs, htest⟩ := run_any (ω := exitingSystem crashing) crashed
    (fun s => ((s.run (exitingSystem crashing) [.wake]).history.all Event.respectsBackoff) &&
      ((s.find "b").any (·.restartPending)) &&
      (since s (s.run (exitingSystem crashing) [.wake])).all fun e => !e.call.addresses "b")
    (by decide +kernel)
  simp only [Bool.and_eq_true, List.all_eq_true, Bool.not_eq_true'] at htest
  obtain ⟨⟨hK, hpending⟩, haddressed⟩ := htest
  obtain ⟨p, hp, hpending⟩ := (Option.any_eq_true _ _).1 hpending
  exact ⟨s, hs,
    ⟨p, hp, hpending, (backoff_respected hs [.wake] hK).2 "b" p hp hpending haddressed⟩, hK⟩

/-- The event launches the program from the worklist while its restart is pending and not yet
due. -/
def launchesEarly (nowMs : Int) (n : String) (e : Event) : Bool :=
  match e.call with
  | .launchProgram name .dependency _ => name = n && !e.core.names n &&
      (e.core.find n).any fun p => p.restartPending && nowMs < p.restartDueMs &&
        p.restartState.attemptsMs ≠ []
  | _ => false

/-- A report that another program is ready launches a program whose restart is pending, before its
due time, and forgets the attempts that led to it. -/
theorem pending_restart_launched_early : ∃ s, Reachable (exitingSystem crashing) s ∧
    (∃ e ∈ s.history, ∃ outcome p, e.call = .launchProgram "b" .dependency outcome ∧
      ¬e.core.Names "b" ∧ e.core.find "b" = some p ∧ p.restartPending = true ∧
      (exitingSystem crashing).clock s.ticks < p.restartDueMs ∧ p.restartState.attemptsMs ≠ []) ∧
    (∀ e ∈ s.history, e.call.addresses "b" = false) ∧
    ∃ p, s.find "b" = some p ∧ p.restartState = {} := by
  obtain ⟨s, hs, htest⟩ := run_any (ω := exitingSystem crashing)
    (crashed ++ [Input.wake, .callback (.requests 1 [(1, .appReady "c")])])
    (fun s => (s.history.any (launchesEarly ((exitingSystem crashing).clock s.ticks) "b")) &&
      (s.history.all fun e => !e.call.addresses "b") &&
      (s.find "b").any fun p => p.restartState = {}) (by decide +kernel)
  simp only [Bool.and_eq_true, List.any_eq_true, List.all_eq_true, Bool.not_eq_true'] at htest
  obtain ⟨⟨⟨e, he, hlaunch⟩, haddressed⟩, hstate⟩ := htest
  obtain ⟨p', hp', hstate⟩ := (Option.any_eq_true _ _).1 hstate
  refine ⟨s, hs, ⟨e, he, ?_⟩, haddressed, p', hp', of_decide_eq_true hstate⟩
  rw [launchesEarly] at hlaunch
  split at hlaunch
  · rename_i name outcome hcall
    simp only [Bool.and_eq_true, decide_eq_true_iff, Bool.not_eq_true'] at hlaunch
    obtain ⟨⟨rfl, hnames⟩, hrecord⟩ := hlaunch
    obtain ⟨p, hp, hrecord⟩ := (Option.any_eq_true _ _).1 hrecord
    simp only [Bool.and_eq_true, decide_eq_true_iff] at hrecord
    refine ⟨outcome, p, hcall, fun hn => ?_, hp, hrecord.1.1, hrecord.1.2, hrecord.2⟩
    exact absurd (hnames.symm.trans (Core.names_iff.2 hn)) (by decide)
  · cases hlaunch

end Daemon
end PmTiny.Windows
