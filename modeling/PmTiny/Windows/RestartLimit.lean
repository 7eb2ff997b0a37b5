import PmTiny.Windows.Backoff

namespace PmTiny.Windows
set_option autoImplicit true

variable {s s' : Daemon} {ω : System} {n : String}

open Daemon

def Call.launches (n : String) : Call → Bool
  | .launchProgram m _ _ => m = n
  | _ => false

def Call.grants (n : String) : Call → Bool
  | .granted m => m = n
  | _ => false

theorem Call.about_launches {call : Call} (h : call.about n = false) : call.launches n = false := by
  cases call with
  | launchProgram m site outcome => exact h
  | _ => rfl

theorem Call.about_grants {call : Call} (h : call.about n = false) : call.grants n = false := by
  cases call with
  | granted m => exact h
  | _ => rfl

/-- The `launch_program` calls for a program. -/
def launchesOf (n : String) (history : List Event) : Nat :=
  history.countP fun e => e.call.launches n

/-- The restarts that `plan_automatic_restart` has granted to a program. -/
def grantsOf (n : String) (history : List Event) : Nat := history.countP fun e => e.call.grants n

/-- A launch uses up the pending restart of its program: there is one, and a launch at its due time
does not fail. -/
def Event.takesGrant (n : String) (e : Event) : Bool :=
  match e.call with
  | .launchProgram m site outcome => m ≠ n || (e.core.find n).any (·.restartPending) &&
      (site = .dependency || outcome.isOk)
  | _ => true

/-- Every launch of the program but the first uses up a pending restart. -/
def TakesGrants (n : String) (history : List Event) : Prop :=
  ∀ e l, e :: l <:+ history → e.takesGrant n = true ∨ launchesOf n l = 0

theorem TakesGrants.suffix {l l' : List Event} (h : TakesGrants n l') (hl : l <:+ l') :
    TakesGrants n l := fun e r hr => h e r (hr.trans hl)

theorem launchesOf_cons (n : String) (e : Event) (l : List Event) :
    launchesOf n (e :: l) = launchesOf n l + if e.call.launches n then 1 else 0 := List.countP_cons

theorem grantsOf_cons (n : String) (e : Event) (l : List Event) :
    grantsOf n (e :: l) = grantsOf n l + if e.call.grants n then 1 else 0 := List.countP_cons

theorem Daemon.Adds.counts (h : Adds (fun e => e.call.about n = false) s s') :
    launchesOf n s'.history = launchesOf n s.history ∧
      grantsOf n s'.history = grantsOf n s.history := by
  obtain ⟨l, hl, hp⟩ := h
  have hlaunches : l.countP (fun e => e.call.launches n) = 0 :=
    List.countP_eq_zero.2 fun e he => by simp [Call.about_launches (hp e he)]
  have hgrants : l.countP (fun e => e.call.grants n) = 0 :=
    List.countP_eq_zero.2 fun e he => by simp [Call.about_grants (hp e he)]
  rw [launchesOf, grantsOf, hl, List.countP_append, List.countP_append, hlaunches,
    hgrants, Nat.zero_add,
    Nat.zero_add]
  exact ⟨rfl, rfl⟩

def ProcessHandle.waiting (p : ProcessHandle) : Nat := if p.restartPending then 1 else 0

namespace Daemon

/-- What ties the launches of a program to the granted restarts. A program that was never launched
has no process, and no client has asked for a restart. -/
structure Granted (s : Daemon) (n : String) : Prop where
  names : ¬s.Names n
  bound : launchesOf n s.history ≤ grantsOf n s.history + 1
  waiting : ∀ p, s.find n = some p →
    launchesOf n s.history + p.waiting ≤ grantsOf n s.history + 1
  idle : launchesOf n s.history = 0 → ∀ p, s.find n = some p →
    p.hasProcess = false ∧ p.restartPending = false
  action : ∀ p, s.find n = some p → p.completionAction ≠ .restart

theorem Granted.kept {p q : ProcessHandle} (hs : s.Granted n) (hnames : ¬s'.Names n)
    (hlaunches : launchesOf n s'.history = launchesOf n s.history)
    (hgrants : grantsOf n s'.history = grantsOf n s.history) (hp : s.find n = some p)
    (h : s'.find n = some q) (hprocess : q.hasProcess = p.hasProcess)
    (hpending : q.restartPending = p.restartPending) (haction : q.completionAction ≠ .restart) :
    s'.Granted n := by
  have hfound : ∀ {q' : ProcessHandle}, s'.find n = some q' → q' = q := fun h' =>
    Option.some.inj (h'.symm.trans h)
  refine ⟨hnames, ?_, fun q' hq' => ?_, fun hzero q' hq' => ?_, fun q' hq' => ?_⟩
  · rw [hlaunches, hgrants]
    exact hs.bound
  · rw [hlaunches, hgrants, hfound hq', ProcessHandle.waiting, hpending]
    exact hs.waiting p hp
  · rw [hlaunches] at hzero
    rw [hfound hq', hprocess, hpending]
    exact hs.idle hzero p hp
  · rw [hfound hq']
    exact haction

theorem Granted.fresh (hs : s.Granted n) (hnames : ¬s'.Names n)
    (hlaunches : launchesOf n s'.history = launchesOf n s.history)
    (hgrants : grantsOf n s'.history = grantsOf n s.history)
    (h : ∀ q, s'.find n = some q → q.hasProcess = false ∧ q.restartPending = false ∧
      q.completionAction ≠ .restart) : s'.Granted n := by
  refine ⟨hnames, ?_, fun q hq => ?_, fun _ q hq => ?_, fun q hq => (h q hq).2.2⟩
  · rw [hlaunches, hgrants]
    exact hs.bound
  · rw [hlaunches, hgrants, ProcessHandle.waiting, (h q hq).2.1]
    exact hs.bound
  · exact ⟨(h q hq).1, (h q hq).2.1⟩

theorem Granted.launch {p q : ProcessHandle} {site : LaunchSite} {outcome : Except String Nat}
    {c : Core} (hs : s.Granted n) (hnames : ¬s'.Names n)
    (hh : s'.history = ⟨.launchProgram n site outcome, c⟩ :: s.history)
    (hp : s.find n = some p) (h : s'.find n = some q) (hpending : q.restartPending = false)
    (haction : q.completionAction ≠ .restart)
    (htaken : launchesOf n s.history = 0 ∨ p.restartPending = true) : s'.Granted n := by
  have hlaunches : launchesOf n s'.history = launchesOf n s.history + 1 := by
    rw [hh, launchesOf_cons]
    simp [Call.launches]
  have hgrants : grantsOf n s'.history = grantsOf n s.history := by
    rw [hh, grantsOf_cons]
    rfl
  have hbound : launchesOf n s'.history ≤ grantsOf n s'.history + 1 := by
    rw [hlaunches, hgrants]
    rcases htaken with hzero | htaken
    · omega
    · have hwaiting := hs.waiting p hp
      rw [ProcessHandle.waiting, htaken] at hwaiting
      exact hwaiting
  refine ⟨hnames, hbound, fun q' hq' => ?_, fun hzero => ?_, fun q' hq' => ?_⟩
  · obtain rfl := Option.some.inj (h.symm.trans hq')
    rw [ProcessHandle.waiting, hpending]
    exact hbound
  · rw [hlaunches] at hzero
    omega
  · obtain rfl := Option.some.inj (h.symm.trans hq')
    exact haction

theorem Granted.grant {p q : ProcessHandle} (hs : s.Granted n) (hnames : ¬s'.Names n)
    (hlaunches : launchesOf n s'.history = launchesOf n s.history)
    (hgrants : grantsOf n s'.history = grantsOf n s.history + 1) (hp : s.find n = some p)
    (hlive : p.hasProcess = true) (h : s'.find n = some q) (hpending : q.restartPending = true)
    (haction : q.completionAction ≠ .restart) : s'.Granted n := by
  have hbound := hs.bound
  refine ⟨hnames, by omega, fun q' hq' => ?_, fun hzero => ?_, fun q' hq' => ?_⟩
  · obtain rfl := Option.some.inj (h.symm.trans hq')
    rw [hlaunches, hgrants, ProcessHandle.waiting, hpending, if_pos rfl]
    omega
  · rw [hlaunches] at hzero
    exact absurd ((hs.idle hzero p hp).1.symm.trans hlive) (by decide)
  · obtain rfl := Option.some.inj (h.symm.trans hq')
    exact haction

theorem TerminateReason.not_restart {c : Core} {p : ProcessHandle} {action : CompletionAction}
    (hr : TerminateReason c p action) (hnames : ¬c.Names p.name) : action ≠ .restart := by
  cases hr with
  | restarted h => exact absurd ⟨_, h, rfl⟩ hnames
  | stopped | deleted | stopAll | timeout | drained => decide

theorem counts_same (hh : s'.history = s.history) :
    launchesOf n s'.history = launchesOf n s.history ∧
      grantsOf n s'.history = grantsOf n s.history := by
  rw [hh]
  exact ⟨rfl, rfl⟩

theorem counts_other {e : Event} (hh : s'.history = e :: s.history)
    (hlaunch : e.call.launches n = false) (hgrant : e.call.grants n = false) :
    launchesOf n s'.history = launchesOf n s.history ∧
      grantsOf n s'.history = grantsOf n s.history := by
  rw [hh, launchesOf_cons, grantsOf_cons, hlaunch, hgrant]
  exact ⟨rfl, rfl⟩

theorem latest_launch {site : LaunchSite} {outcome : Except String Nat} {rest : List String}
    {p : ProcessHandle} (htakes : TakesGrants n s'.history) (hp : s.find n = some p)
    (hh : s'.history =
      ⟨.launchProgram n site outcome, { s.toCore with launchQueue := rest }⟩ :: s.history) :
    launchesOf n s.history = 0 ∨ p.restartPending = true ∧
      (site = .dependency ∨ outcome.isOk = true) := by
  rw [hh] at htakes
  rcases htakes _ _ List.suffix_rfl with htake | hzero
  · have hp' : ({ s.toCore with launchQueue := rest } : Core).find n = some p := hp
    simp only [Event.takesGrant, hp', Option.any_some, ne_eq, not_true_eq_false, decide_false,
      Bool.false_or, Bool.and_eq_true, Bool.or_eq_true, decide_eq_true_iff] at htake
    exact .inr htake
  · exact .inl hzero

theorem PendingIdle.of_live {p : ProcessHandle} (hi : s.PendingIdle) (hp : s.find n = some p)
    (hlive : p.hasProcess = true) : p.restartPending = false := by
  cases hpending : p.restartPending with
  | false => rfl
  | true => exact absurd ((hi n p hp hpending).symm.trans hlive) (by decide)

theorem granted_move (hs : s.Granted n) (hi : s.PendingIdle) (hm : Move s s')
    (haddressed : ∀ e ∈ since s s', e.call.addresses n = false)
    (htakes : TakesGrants n s'.history) : s'.Granted n := by
  have hnames := names_move hs.names hm haddressed
  cases hm.record n with
  | same h hh =>
    obtain ⟨hlaunches, hgrants⟩ := hh.counts
    refine ⟨hnames, ?_, ?_, ?_, ?_⟩
    · rw [hlaunches, hgrants]
      exact hs.bound
    · rw [hlaunches, hgrants, h]
      exact hs.waiting
    · rw [hlaunches, h]
      exact hs.idle
    · rw [h]
      exact hs.action
  | edited hp hk h hh =>
    obtain ⟨hlaunches, hgrants⟩ := counts_same hh
    exact hs.kept hnames hlaunches hgrants hp h hk.hasProcess hk.restartPending
      (hk.completionAction ▸ hs.action _ hp)
  | appended hp hk chunks h hh =>
    obtain ⟨hlaunches, hgrants⟩ := counts_other hh rfl rfl
    exact hs.kept hnames hlaunches hgrants hp h hk.hasProcess hk.restartPending
      (hk.completionAction ▸ hs.action _ hp)
  | exited hp hk code h hh =>
    obtain ⟨hlaunches, hgrants⟩ := counts_other hh rfl rfl
    exact hs.kept hnames hlaunches hgrants hp h hk.hasProcess hk.restartPending
      (hk.completionAction ▸ hs.action _ hp)
  | terminated hp hlive hr hk job hjob h hh =>
    obtain ⟨hlaunches, hgrants⟩ := counts_other hh rfl rfl
    exact hs.kept hnames hlaunches hgrants hp h hk.hasProcess hk.restartPending
      (TerminateReason.not_restart hr (by rw [find_name hp]; exact hs.names))
  | readied hp hlive hk h hh =>
    obtain ⟨hlaunches, hgrants⟩ := counts_same hh
    exact hs.kept hnames hlaunches hgrants hp h hk.hasProcess hk.restartPending
      (hk.completionAction ▸ hs.action _ hp)
  | cleared hp hn hk h hh => exact absurd hn hs.names
  | started hp hidle hsite h hh =>
    refine hs.launch hnames hh hp h rfl (fun ha => by cases ha) ?_
    rcases latest_launch htakes hp hh with hzero | ⟨hpending, -⟩
    · exact .inl hzero
    · exact .inr hpending
  | @refused p site rest e hp hidle hsite h hh =>
    cases site with
    | dependency =>
      refine hs.launch hnames hh hp h rfl (fun ha => by cases ha) ?_
      rcases latest_launch htakes hp hh with hzero | ⟨hpending, -⟩
      · exact .inl hzero
      · exact .inr hpending
    | due nowMs =>
      -- A program that was never launched has no due restart, and a later launch does not fail.
      rcases latest_launch htakes hp hh with hzero | ⟨-, hsite' | hok⟩
      · exact absurd ((hs.idle hzero p hp).2.symm.trans hsite.2.2.1) (by decide)
      · cases hsite'
      · cases hok
  | completed hqueue hp hlive hc h hh =>
    obtain ⟨hlaunches, hgrants⟩ := counts_other hh rfl rfl
    have hpending := hi.of_live hp hlive
    refine hs.fresh hnames hlaunches hgrants fun q hq => ?_
    have hq' := h.symm.trans hq
    cases hc with
    | restart hr ha => exact absurd ha (hs.action _ hp)
    | suppressed hr ha hd =>
      cases hq'
      exact ⟨rfl, rfl, fun ha => by cases ha⟩
    | remove hr ha =>
      cases hq'
      exact ⟨rfl, hpending, fun ha => by cases ha⟩
    | deleteConfig hr ha => cases hq'
    | ended hr ha =>
      cases hq'
      exact ⟨rfl, hpending, fun ha => by cases ha⟩
  | granted hqueue hp hlive hrestart ha hd h hh =>
    have hlaunches : launchesOf n s'.history = launchesOf n s.history := by
      rw [hh, launchesOf_cons, launchesOf_cons]
      rfl
    have hgrants : grantsOf n s'.history = grantsOf n s.history + 1 := by
      rw [hh, grantsOf_cons, grantsOf_cons]
      simp [Call.grants]
    exact hs.grant hnames hlaunches hgrants hp hlive h rfl fun ha => by cases ha
  | dropped hn hp hidle h hh => exact absurd hn hs.names
  | ensured cfg hname hcfg h hh =>
    obtain ⟨hlaunches, hgrants⟩ := counts_other hh rfl rfl
    cases hp : s.find n with
    | none =>
      rw [hp] at h
      refine hs.fresh hnames hlaunches hgrants fun q hq => ?_
      obtain rfl := Option.some.inj (h.symm.trans hq)
      exact ⟨rfl, rfl, fun ha => by cases ha⟩
    | some p =>
      rw [hp] at h
      exact hs.kept hnames hlaunches hgrants hp h rfl rfl (hs.action p hp)
  | swapped hqueue hidle h hh =>
    obtain ⟨hlaunches, hgrants⟩ := counts_other hh rfl rfl
    refine hs.fresh hnames hlaunches hgrants fun q hq => ?_
    cases h.symm.trans hq

/-- As long as every launch of a program but the first uses up a pending restart, and no client asks
for the program, the launches after the first one are at most the granted restarts. -/
theorem launches_within_grants (h : Reachable ω s) (n : String)
    (hrequests : ∀ e ∈ s.history, e.call.addresses n = false)
    (htakes : TakesGrants n s.history) :
    launchesOf n s.history - 1 ≤ grantsOf n s.history := by
  have hgranted : s.PendingIdle ∧ s.Granted n := by
    refine h.invariant (I := fun s => (∀ e ∈ s.history, e.call.addresses n = false) →
      TakesGrants n s.history → s.PendingIdle ∧ s.Granted n) ?_ ?_ hrequests htakes
    · intro s hs _ _
      have hnone : ∀ {p : ProcessHandle}, s.find n ≠ some p := by
        intro p hp
        cases (hs.find n).symm.trans hp
      refine ⟨hs.pendingIdle, ?_, ?_, fun p hp => absurd hp hnone, fun _ p hp => absurd hp hnone,
        fun p hp => absurd hp hnone⟩
      · rintro ⟨request, hr, -⟩
        cases hs.idle.request.symm.trans hr
      · rw [hs.history]
        exact Nat.zero_le _
    · intro s s' hs hm hrequests htakes
      have hhistory := hm.moves.history
      obtain ⟨hi, hgranted⟩ := hs (fun e he => hrequests e (hm.adds.mem e he))
        (htakes.suffix (hhistory ▸ List.suffix_append _ _))
      exact ⟨hi.move hm, granted_move hgranted hi hm
        (fun e he => hrequests e (mem_since hm.moves he)) htakes⟩
  have hbound := hgranted.2.bound
  omega

def takesGrants (n : String) : List Event → Bool
  | [] => true
  | e :: l => (e.takesGrant n || launchesOf n l = 0) && takesGrants n l

theorem takesGrants_sound {l : List Event} (h : takesGrants n l = true) : TakesGrants n l := by
  induction l with
  | nil =>
    intro e l hl
    cases List.suffix_nil.1 hl
  | cons e' l' ih =>
    rw [takesGrants, Bool.and_eq_true, Bool.or_eq_true, decide_eq_true_iff] at h
    intro e l hl
    rcases List.suffix_cons_iff.1 hl with heq | hsuffix
    · cases heq
      exact h.1
    · exact ih h.2 e l hsuffix

/-- A program that is restarted at once when it ends. -/
def restarting : List ProgramConfig :=
  [{ name := "b", cwd := ".", executable := "x", restartDelayMs := 0 }]

theorem launches_within_grants_restarted : ∃ s, Reachable (exitingSystem restarting) s ∧
    (launchesOf "b" s.history = 2 ∧ grantsOf "b" s.history = 1) ∧
    launchesOf "b" s.history - 1 ≤ grantsOf "b" s.history := by
  obtain ⟨s, hs, htest⟩ := run_any (ω := exitingSystem restarting) (crashed ++ [Input.wake, .tick])
    (fun s => (launchesOf "b" s.history = 2 && grantsOf "b" s.history = 1) &&
      ((s.history.all fun e => !e.call.addresses "b") && takesGrants "b" s.history))
    (by decide +kernel)
  simp only [Bool.and_eq_true, decide_eq_true_iff, List.all_eq_true, Bool.not_eq_true'] at htest
  exact ⟨s, hs, htest.1, launches_within_grants hs "b" htest.2.1 (takesGrants_sound htest.2.2)⟩

/-- The first launch succeeds and every later one fails. -/
def failingSystem : System :=
  { exitingSystem restarting with
    launch := fun t _ => if t ≤ 1 then .ok 100 else .error "no memory" }

/-- A restart that cannot be launched is tried again without another grant. -/
theorem failed_restart_launched_again : ∃ s, Reachable failingSystem s ∧
    (∀ e ∈ s.history, e.call.addresses "b" = false) ∧
    ¬launchesOf "b" s.history - 1 ≤ grantsOf "b" s.history := by
  obtain ⟨s, hs, htest⟩ := run_any (ω := failingSystem)
    (crashed ++ [Input.wake, .tick, .wake, .tick])
    (fun s => (s.history.all fun e => !e.call.addresses "b") &&
      !decide (launchesOf "b" s.history - 1 ≤ grantsOf "b" s.history)) (by decide +kernel)
  simp only [Bool.and_eq_true, List.all_eq_true, Bool.not_eq_true',
    decide_eq_false_iff_not] at htest
  exact ⟨s, hs, htest⟩

end Daemon
end PmTiny.Windows
