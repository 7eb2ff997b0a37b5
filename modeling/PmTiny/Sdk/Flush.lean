import PmTiny.Sdk.Delivery

namespace PmTiny.Sdk
set_option autoImplicit true

variable {s s' : Client} {action : Action} {t : Transition} {h : List Transition}
  {kind : EventKind} {q : Nat} {r : UInt32} {windows : Bool} {getenv : String → Option String}
  {config : ClientConfig}

def Worker.inFlight : Worker → Bool
  | .sending _ _ _ => true
  | _ => false

inductive WorkerMove (t : Transition) : Prop
  | kept (hworker : t.after.worker = t.before.worker)
      (hsending : t.after.sending = t.before.sending)
  | idle (hbefore : t.before.worker.inFlight = false)
      (hafter : t.after.worker.inFlight = true → t.after.sending = true)
  | ended (haction : t.action = .delivered ∨ ∃ error, t.action = .failed error)
      (hafter : t.after.worker.inFlight = false)

theorem WorkerMove.unsent (hbefore : t.before.worker.inFlight = false)
    (hafter : t.after.worker.inFlight = false) : WorkerMove t :=
  .idle hbefore fun h => absurd (hafter.symm.trans h) (by decide)

theorem Client.enabled_of_step (hstep : s.step action = some s') :
    s'.enabled = s.enabled ∧ WorkerMove ⟨s, action, s'⟩ := by
  cases action with
  | enqueue kind =>
    obtain ⟨-, rfl⟩ := Option.ite_none_left_eq_some.1 hstep |>.imp_right Option.some.inj
    rcases s.enqueue_cases kind with ⟨hcall, -⟩ | ⟨-, -, hcall⟩ | ⟨-, -, hcall⟩
    all_goals
      rw [hcall]
      exact ⟨by simp, .kept (by simp) (by simp)⟩
  | flush caller =>
    replace hstep := (Option.ite_none_left_eq_some.1 hstep).2
    simp only [callerStep] at hstep
    split_ifs at hstep <;> obtain rfl := Option.some.inj hstep <;> exact ⟨rfl, .kept rfl rfl⟩
  | flushWake caller timedOut =>
    replace hstep := (Option.ite_none_left_eq_some.1 hstep).2
    simp only [callerStep] at hstep
    split_ifs at hstep <;> obtain rfl := Option.some.inj hstep <;> exact ⟨rfl, .kept rfl rfl⟩
  | close =>
    obtain ⟨-, rfl⟩ := Option.ite_none_left_eq_some.1 hstep |>.imp_right Option.some.inj
    unfold close
    split_ifs <;> exact ⟨rfl, .kept rfl rfl⟩
  | start =>
    obtain ⟨hworker, rfl⟩ := Option.ite_none_right_eq_some.1 hstep |>.imp_right Option.some.inj
    exact ⟨rfl, .unsent (by rw [hworker]; rfl) rfl⟩
  | wake =>
    obtain ⟨hworker, rfl⟩ := Option.ite_none_right_eq_some.1 hstep |>.imp_right Option.some.inj
    exact ⟨rfl, .unsent (by rw [hworker.1]; rfl) rfl⟩
  | loop =>
    obtain ⟨hworker, rfl⟩ := Option.ite_none_right_eq_some.1 hstep |>.imp_right Option.some.inj
    have hidle : s.worker.inFlight = false := by rw [hworker]; rfl
    unfold loopHead
    split_ifs
    · exact ⟨rfl, .unsent hidle rfl⟩
    · exact ⟨rfl, .idle hidle fun _ => rfl⟩
    · exact ⟨rfl, .unsent hidle rfl⟩
  | delivered =>
    cases hworker : s.worker with
    | sending kind q r =>
      obtain rfl : s.delivered kind q = s' := by simpa [step, workerStep, hworker] using hstep
      exact ⟨by cases kind <;> rfl, .ended (.inl rfl) rfl⟩
    | _ => simp [step, workerStep, hworker] at hstep
  | failed error =>
    cases hworker : s.worker with
    | sending kind q r =>
      obtain rfl : s.failed error = s' := by simpa [step, workerStep, hworker] using hstep
      unfold failed
      dsimp only
      split_ifs <;> exact ⟨rfl, .ended (.inr ⟨error, rfl⟩) rfl⟩
    | _ => simp [step, workerStep, hworker] at hstep
  | retry =>
    obtain ⟨hworker, rfl⟩ := Option.ite_none_right_eq_some.1 hstep |>.imp_right Option.some.inj
    exact ⟨rfl, .unsent (by rw [hworker]; rfl) rfl⟩

theorem Run.sending (hrun : Run (.create windows getenv config) h s)
    (hworker : s.worker.inFlight = true) : s.sending = true := by
  induction hrun with
  | start =>
    cases hw : (Client.create windows getenv config).worker with
    | sending kind q r => exact absurd hw (Client.create_worker _ _ _)
    | _ => simp [hw, Worker.inFlight] at hworker
  | step _ hstep ih =>
    cases (Client.enabled_of_step hstep).2 with
    | kept hsame hsending => exact hsending.trans (ih (hsame ▸ hworker))
    | idle _ hafter => exact hafter hworker
    | ended _ hafter => exact absurd (hafter.symm.trans hworker) (by decide)

theorem Run.enabled (hrun : Run (.create windows getenv config) h s) :
    s.enabled = (Client.create windows getenv config).enabled := by
  induction hrun with
  | start => rfl
  | step _ hstep ih => exact (Client.enabled_of_step hstep).1.trans ih

def Worker.carries (worker : Worker) (kind : EventKind) (sequence : Nat) : Bool :=
  match worker with
  | .sending kind' sequence' _ => decide (kind' = kind ∧ sequence' = sequence)
  | _ => false

theorem Worker.sending_of_carries {worker : Worker} (h : worker.carries kind q = true) :
    ∃ r, worker = .sending kind q r := by
  cases worker with
  | sending kind' q' r =>
    obtain ⟨rfl, rfl⟩ := of_decide_eq_true h
    exact ⟨r, rfl⟩
  | _ => cases h

/-- A close discards nothing but the newest event in flight, and no send fails after it. -/
def Transition.keepsEvents (t : Transition) : Bool :=
  match t.action with
  | .close => [EventKind.ready, .tick].all fun kind => !(t.before.slot kind).pending ||
      t.before.worker.carries kind (t.before.slot kind).sequence
  | .failed _ => !t.before.stopped
  | _ => true

theorem Transition.carries_of_close (haction : t.action = .close) (hkeeps : t.keepsEvents = true)
    (hpending : (t.before.slot kind).pending = true) :
    ∃ r, t.before.worker = .sending kind (t.before.slot kind).sequence r := by
  simp only [keepsEvents, haction, List.all_eq_true] at hkeeps
  have hkind := hkeeps kind (by cases kind <;> simp)
  rw [hpending] at hkind
  exact Worker.sending_of_carries hkind

/-- After a close, the last call of the kind was sent or is in flight. -/
def Covered (kind : EventKind) (h : List Transition) (s : Client) : Prop :=
  s.stopped = true → (s.slot kind).sequence = 0 ∨ (s.slot kind).sequence ∈ sentEvents kind h ∨
    ∃ r, s.worker = .sending kind (s.slot kind).sequence r

theorem sent_of_settled (htracks : Tracks kind h s) (hrunning : s.stopped = false)
    (hpending : (s.slot kind).pending = false) :
    (s.slot kind).sequence = 0 ∨ (s.slot kind).sequence ∈ sentEvents kind h :=
  (htracks.settled hrunning hpending).imp_right List.mem_of_getLast?

theorem mem_sentEvents_snoc (hq : q ∈ sentEvents kind h) : q ∈ sentEvents kind (h ++ [t]) := by
  rw [sentEvents_snoc]
  exact List.mem_append_left _ hq

theorem Covered.move (hs : Covered kind h t.before) (htracks : Tracks kind h t.before)
    (hm : Move kind t) (hworker : WorkerMove t) (hkeeps : t.keepsEvents = true) :
    Covered kind (h ++ [t]) t.after := by
  intro hafter
  cases hm with
  | quiet hslot hstopped _ _ hsends =>
    rw [hslot]
    have hclosed : t.before.stopped = true := hstopped.symm.trans hafter
    rcases hs hclosed with hzero | hsent | ⟨r, hflight⟩
    · exact .inl hzero
    · exact .inr (.inl (mem_sentEvents_snoc hsent))
    cases hworker with
    | kept hsame _ => exact .inr (.inr ⟨r, hsame.trans hflight⟩)
    | idle hidle _ =>
      rw [hflight] at hidle
      cases hidle
    | ended haction _ =>
      rcases haction with haction | ⟨error, haction⟩
      · simp [Transition.sends, haction, hflight] at hsends
      · simp [Transition.keepsEvents, haction, hclosed] at hkeeps
  | coalesced hrunning _ _ hstopped _ _ _ =>
    exact absurd (hstopped.symm.trans hafter) (by simp [hrunning])
  | queued hrunning _ _ hstopped _ _ _ =>
    exact absurd (hstopped.symm.trans hafter) (by simp [hrunning])
  | captured _ hrunning _ _ hstopped _ _ =>
    exact absurd (hstopped.symm.trans hafter) (by simp [hrunning])
  | closed hrunning hslot _ hsame haction =>
    rw [hslot]
    cases hpending : (t.before.slot kind).pending with
    | false =>
      rcases sent_of_settled htracks hrunning hpending with hzero | hsent
      · exact .inl hzero
      · exact .inr (.inl (mem_sentEvents_snoc hsent))
    | true =>
      obtain ⟨r, hflight⟩ := t.carries_of_close haction hkeeps hpending
      exact .inr (.inr ⟨r, hsame.trans hflight⟩)
  | delivered q r hflight hslot hstopped _ haction =>
    rw [hslot]
    rcases hs (hstopped.symm.trans hafter) with hzero | hsent | ⟨r', hflight'⟩
    · exact .inl hzero
    · exact .inr (.inl (mem_sentEvents_snoc hsent))
    · obtain ⟨-, rfl, -⟩ := Worker.sending.inj (hflight.symm.trans hflight')
      refine .inr (.inl ?_)
      simp [sentEvents_snoc, Transition.sends, haction, hflight]

theorem Run.covered (hrun : Run (.create windows getenv config) h s)
    (hkeeps : ∀ t ∈ h, t.keepsEvents = true) (kind : EventKind) : Covered kind h s := by
  induction hrun with
  | start =>
    intro _
    rw [Client.create_slot]
    exact .inl rfl
  | step hrun hstep ih =>
    exact (ih fun t ht => hkeeps t (List.mem_append_left _ ht)).move (hrun.tracks kind)
      (Client.move_of_step hstep kind) (Client.enabled_of_step hstep).2 (hkeeps _ (by simp))

theorem Run.flushed_covers (hrun : Run (.create windows getenv config) h s)
    (hkeeps : ∀ t ∈ h, t.keepsEvents = true) (hflushed : s.flushed = true) (kind : EventKind) :
    (s.slot kind).sequence = 0 ∨ (s.slot kind).sequence ∈ sentEvents kind h := by
  obtain ⟨⟨hready, htick⟩, hsending⟩ : (s.ready.pending = false ∧ s.tick.pending = false) ∧
      s.sending = false := by simpa [Client.flushed] using hflushed
  have hpending : (s.slot kind).pending = false := by
    cases kind with
    | ready => exact hready
    | tick => exact htick
  cases hstopped : s.stopped with
  | false => exact sent_of_settled (hrun.tracks kind) hstopped hpending
  | true =>
    rcases hrun.covered hkeeps kind hstopped with hzero | hsent | ⟨r, hflight⟩
    · exact .inl hzero
    · exact .inr hsent
    · have hup := hrun.sending (by rw [hflight]; rfl)
      rw [hsending] at hup
      cases hup

theorem Transition.flushed_of_returns {caller : Nat} (henabled : t.before.enabled = true)
    (hreturns : t.flushReturns caller = some true) : t.before.flushed = true := by
  unfold flushReturns at hreturns
  split at hreturns
  · split_ifs at hreturns
    unfold Client.flush at hreturns
    split_ifs at hreturns with hdisabled _ hflushed
    · simp [henabled] at hdisabled
    · exact Option.some.inj hreturns
    · exact hflushed
  · split_ifs at hreturns
    unfold Client.flushWake at hreturns
    split_ifs at hreturns with hflushed
    · exact hflushed
    · simp at hreturns
  · cases hreturns

/-- On an enabled client, in a run in which a close finds nothing pending but the newest event in
flight and no send fails after it, a `flush` that returns true covers every call accepted before
it: a successful send of that kind had captured the call's sequence value or a later one. -/
theorem flush_covers (hrun : Run (.create windows getenv config) h s)
    (henabled : (Client.create windows getenv config).enabled = true)
    (hkeeps : ∀ t ∈ h, t.keepsEvents = true) (caller : Nat) (earlier later : List Transition)
    (call returned : Transition) (hsplit : h = earlier ++ call :: later)
    (_ : call.action = .flush caller) (hlast : (call :: later).getLast? = some returned)
    (hreturns : returned.flushReturns caller = some true) :
    ∀ t ∈ earlier, ∀ kind q, t.accepted kind = some q →
      ∃ u ∈ h, ∃ q', u.sends kind = some q' ∧ q ≤ q' := by
  intro t ht kind q hq
  obtain ⟨between, hbetween⟩ := List.getLast?_eq_some_iff.1 hlast
  have hh : h = (earlier ++ between) ++ returned :: [] := by rw [hsplit, hbetween]; simp
  obtain ⟨hupto, -⟩ := (hh ▸ hrun).upto
  have hkept : ∀ t ∈ earlier ++ between, t.keepsEvents = true := fun t ht =>
    hkeeps t (hh ▸ List.mem_append_left _ ht)
  have hflushed := Transition.flushed_of_returns (hupto.enabled.trans henabled) hreturns
  have hmem : q ∈ acceptedCalls kind (earlier ++ between) :=
    List.mem_filterMap.2 ⟨t, List.mem_append_left _ ht, hq⟩
  rw [(hupto.tracks kind).calls, List.mem_range'_1] at hmem
  rcases hupto.flushed_covers hkept hflushed kind with hzero | hsent
  · omega
  · obtain ⟨u, hu, hsends⟩ := List.mem_filterMap.1 hsent
    exact ⟨u, hh ▸ List.mem_append_left _ hu, _, hsends, by omega⟩

/-- The event in flight at the close is still written. -/
theorem flush_covers_in_flight : ∃ h s earlier call,
    Run (.create false (fun _ => none) { appName := "app", endpoint := "sock" }) h s ∧
    h = earlier ++ [call] ∧ call.flushReturns 0 = some true ∧
    ∀ t ∈ earlier, ∀ kind q, t.accepted kind = some q →
      ∃ u ∈ h, ∃ q', u.sends kind = some q' ∧ q ≤ q' := by
  obtain ⟨p, hplay, call, hcall, hreturns, hlast, hkeeps⟩ : ∃ p,
      (Client.create false (fun _ => none) { appName := "app", endpoint := "sock" }).play []
        [.enqueue .ready, .start, .loop, .close, .delivered, .loop, .flush 0] = some p ∧
      ∃ call, call.action = .flush 0 ∧ call.flushReturns 0 = some true ∧
        p.1 = p.1.take 6 ++ [call] ∧ p.1.all (·.keepsEvents) = true :=
    ⟨_, rfl, _, rfl, rfl, rfl, rfl⟩
  have hrun := Run.play .start hplay
  exact ⟨p.1, p.2, p.1.take 6, call, hrun, hlast, hreturns,
    flush_covers hrun rfl (List.all_eq_true.1 hkeeps) 0 (p.1.take 6) [] call call hlast hcall rfl
      hreturns⟩

/-- `ready`, `close` and then `flush`: the flush returns true, and the event was never sent. -/
theorem flush_after_close : ∃ h s earlier call,
    Run (.create false (fun _ => none) { appName := "app", endpoint := "sock" }) h s ∧
    s.enabled = true ∧ h = earlier ++ [call] ∧ call.action = .flush 0 ∧
    call.flushReturns 0 = some true ∧
    ∃ t ∈ earlier, t.accepted .ready = some 1 ∧
      ¬∃ u ∈ h, ∃ q', u.sends .ready = some q' ∧ 1 ≤ q' := by
  obtain ⟨p, hplay, call, t, henabled, hcall, hreturns, hlast, hfirst, haccepted, hsent⟩ : ∃ p,
      (Client.create false (fun _ => none) { appName := "app", endpoint := "sock" }).play []
        [.enqueue .ready, .close, .flush 0] = some p ∧
      ∃ call t, p.2.enabled = true ∧ call.action = .flush 0 ∧ call.flushReturns 0 = some true ∧
        p.1 = p.1.take 2 ++ [call] ∧ (p.1.take 2).head? = some t ∧ t.accepted .ready = some 1 ∧
        sentEvents .ready p.1 = [] :=
    ⟨_, rfl, _, _, rfl, rfl, rfl, rfl, rfl, rfl, rfl⟩
  refine ⟨p.1, p.2, p.1.take 2, call, Run.play .start hplay, henabled, hlast, hcall, hreturns, t,
    List.mem_of_mem_head? hfirst, haccepted, ?_⟩
  rintro ⟨u, hu, q', hsends, -⟩
  have hmem : q' ∈ sentEvents .ready p.1 := List.mem_filterMap.2 ⟨u, hu, hsends⟩
  rw [hsent] at hmem
  cases hmem

end PmTiny.Sdk
