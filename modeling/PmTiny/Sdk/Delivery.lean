import Mathlib.Data.List.Perm.Subperm
import PmTiny.Sdk.Client

namespace PmTiny.Sdk
set_option autoImplicit true

variable {s s' start : Client} {action : Action} {t : Transition} {h : List Transition}
  {kind : EventKind} {q : Nat} {r : UInt32}

namespace Client

@[simp] theorem slot_setSlot (s : Client) (slot : Slot) (kind : EventKind) :
    (s.setSlot slot kind).slot kind = slot := by
  cases kind <;> rfl

theorem slot_setSlot_ne (s : Client) (slot : Slot) {kind kind' : EventKind} (h : kind ≠ kind') :
    (s.setSlot slot kind').slot kind = s.slot kind := by
  cases kind <;> cases kind' <;> first | rfl | exact absurd rfl h

@[simp] theorem stopped_setSlot (s : Client) (slot : Slot) (kind : EventKind) :
    (s.setSlot slot kind).stopped = s.stopped := by
  cases kind <;> rfl

@[simp] theorem sending_setSlot (s : Client) (slot : Slot) (kind : EventKind) :
    (s.setSlot slot kind).sending = s.sending := by
  cases kind <;> rfl

@[simp] theorem enabled_setSlot (s : Client) (slot : Slot) (kind : EventKind) :
    (s.setSlot slot kind).enabled = s.enabled := by
  cases kind <;> rfl

@[simp] theorem worker_setSlot (s : Client) (slot : Slot) (kind : EventKind) :
    (s.setSlot slot kind).worker = s.worker := by
  cases kind <;> rfl

theorem slot_congr (hready : s'.ready = s.ready) (htick : s'.tick = s.tick) (kind : EventKind) :
    s'.slot kind = s.slot kind := by
  cases kind with
  | ready => exact hready
  | tick => exact htick

theorem enqueue_cases (s : Client) (kind : EventKind) :
    ((s.enqueue kind).2 = s ∧ (s.enqueue kind).1 ≠ .coalesced ∧ (s.enqueue kind).1 ≠ .queued) ∨
    (s.stopped = false ∧ (s.slot kind).pending = true ∧
      s.enqueue kind = (.coalesced, s.setSlot { s.slot kind with
        sequence := (s.slot kind).sequence + 1, coalesced := (s.slot kind).coalesced + 1 } kind)) ∨
    (s.stopped = false ∧ (s.slot kind).pending = false ∧
      s.enqueue kind = (.queued, s.setSlot { s.slot kind with
        sequence := (s.slot kind).sequence + 1, pending := true } kind)) := by
  cases hstopped : s.stopped with
  | true => simp [enqueue, hstopped]
  | false =>
    cases henabled : s.enabled with
    | false => simp [enqueue, hstopped, henabled]
    | true =>
      cases hpending : (s.slot kind).pending <;>
        simp [enqueue, hstopped, henabled, hpending]

end Client

inductive Move (kind : EventKind) (t : Transition) : Prop
  | quiet (hslot : t.after.slot kind = t.before.slot kind)
      (hstopped : t.after.stopped = t.before.stopped)
      (hworker : ∀ q r, t.after.worker = .sending kind q r → t.before.worker = .sending kind q r)
      (hresult : t.result kind ≠ some .coalesced ∧ t.result kind ≠ some .queued)
      (hsends : t.sends kind = none)
  | coalesced (hrunning : t.before.stopped = false) (hpending : (t.before.slot kind).pending = true)
      (hslot : t.after.slot kind = { t.before.slot kind with
        sequence := (t.before.slot kind).sequence + 1
        coalesced := (t.before.slot kind).coalesced + 1 })
      (hstopped : t.after.stopped = t.before.stopped) (hworker : t.after.worker = t.before.worker)
      (hresult : t.result kind = some .coalesced) (hsends : t.sends kind = none)
  | queued (hrunning : t.before.stopped = false) (hpending : (t.before.slot kind).pending = false)
      (hslot : t.after.slot kind = { t.before.slot kind with
        sequence := (t.before.slot kind).sequence + 1, pending := true })
      (hstopped : t.after.stopped = t.before.stopped) (hworker : t.after.worker = t.before.worker)
      (hresult : t.result kind = some .queued) (hsends : t.sends kind = none)
  | closed (hrunning : t.before.stopped = false)
      (hslot : t.after.slot kind = { t.before.slot kind with pending := false })
      (hstopped : t.after.stopped = true) (hworker : t.after.worker = t.before.worker)
      (haction : t.action = .close)
  | captured (r : UInt32) (hrunning : t.before.stopped = false)
      (hpending : (t.before.slot kind).pending = true)
      (hslot : t.after.slot kind = t.before.slot kind)
      (hstopped : t.after.stopped = t.before.stopped)
      (hworker : t.after.worker = .sending kind (t.before.slot kind).sequence r)
      (haction : t.action = .loop)
  | delivered (q : Nat) (r : UInt32) (hworker : t.before.worker = .sending kind q r)
      (hslot : t.after.slot kind = { t.before.slot kind with
        sent := (t.before.slot kind).sent + 1
        pending := (t.before.slot kind).pending && decide ((t.before.slot kind).sequence ≠ q) })
      (hstopped : t.after.stopped = t.before.stopped) (hafter : t.after.worker = .looping)
      (haction : t.action = .delivered)

namespace Move

theorem of_same (hslot : s'.slot kind = s.slot kind) (hstopped : s'.stopped = s.stopped)
    (hworker : ∀ q r, s'.worker = .sending kind q r → s.worker = .sending kind q r)
    (hcall : action ≠ .enqueue kind) (hsends : (⟨s, action, s'⟩ : Transition).sends kind = none) :
    Move kind ⟨s, action, s'⟩ := by
  have hresult : (⟨s, action, s'⟩ : Transition).result kind = none := if_neg hcall
  refine .quiet hslot hstopped hworker ?_ hsends
  rw [hresult]
  exact ⟨nofun, nofun⟩

theorem enqueue (s : Client) (kind kind' : EventKind) :
    Move kind ⟨s, .enqueue kind', (s.enqueue kind').2⟩ := by
  have hresult : (⟨s, .enqueue kind', (s.enqueue kind').2⟩ : Transition).result kind' =
      some (s.enqueue kind').1 := if_pos rfl
  rcases s.enqueue_cases kind' with ⟨hsame, hne⟩ | ⟨hrunning, hpending, hcall⟩ |
    ⟨hrunning, hpending, hcall⟩
  · rw [hsame] at hresult ⊢
    by_cases hkind : kind' = kind
    · subst hkind
      exact .quiet rfl rfl (fun _ _ h => h) (by simpa [hresult] using hne) rfl
    · exact of_same rfl rfl (fun _ _ h => h) (fun h => hkind (Action.enqueue.inj h)) rfl
  · rw [hcall] at hresult ⊢
    by_cases hkind : kind' = kind
    · subst hkind
      exact .coalesced hrunning hpending (by simp) (by simp) (by simp) hresult rfl
    · exact of_same (Client.slot_setSlot_ne s _ fun h => hkind h.symm) (by simp) (by simp)
        (fun h => hkind (Action.enqueue.inj h)) rfl
  · rw [hcall] at hresult ⊢
    by_cases hkind : kind' = kind
    · subst hkind
      exact .queued hrunning hpending (by simp) (by simp) (by simp) hresult rfl
    · exact of_same (Client.slot_setSlot_ne s _ fun h => hkind h.symm) (by simp) (by simp)
        (fun h => hkind (Action.enqueue.inj h)) rfl

theorem close (s : Client) (kind : EventKind) : Move kind ⟨s, .close, s.close⟩ := by
  cases hstopped : s.stopped with
  | true =>
    have hclose : s.close = s := if_pos hstopped
    rw [hclose]
    exact of_same rfl rfl (fun _ _ h => h) nofun rfl
  | false =>
    refine .closed hstopped ?_ ?_ ?_ rfl
    · cases kind <;> simp [Client.close, hstopped, Client.slot]
    · simp [Client.close, hstopped]
    · simp [Client.close, hstopped]

theorem loop (s : Client) (kind : EventKind) :
    Move kind ⟨s, .loop, s.loopHead⟩ := by
  cases hstopped : s.stopped with
  | true =>
    have hloop : s.loopHead = s.finish := if_pos hstopped
    rw [hloop]
    exact of_same (Client.slot_congr rfl rfl kind) rfl nofun nofun rfl
  | false =>
    cases hwakes : s.wakes with
    | false =>
      have hloop : s.loopHead = { s with worker := .waiting } := by
        simp [Client.loopHead, hstopped, hwakes]
      rw [hloop]
      exact of_same (Client.slot_congr rfl rfl kind) rfl nofun nofun rfl
    | true =>
      have hloop : s.loopHead = s.capture := by simp [Client.loopHead, hstopped, hwakes]
      rw [hloop]
      cases hready : s.ready.pending with
      | true =>
        cases kind with
        | ready =>
          refine .captured s.nextRequestId hstopped hready rfl rfl ?_ rfl
          simp [Client.capture, hready]
        | tick =>
          refine of_same rfl rfl ?_ nofun rfl
          intro q r hq
          simp [Client.capture, hready] at hq
      | false =>
        cases kind with
        | ready =>
          refine of_same rfl rfl ?_ nofun rfl
          intro q r hq
          simp [Client.capture, hready] at hq
        | tick =>
          have htick : s.tick.pending = true := by
            simpa [Client.wakes, hstopped, hready] using hwakes
          refine .captured s.nextRequestId hstopped htick rfl rfl ?_ rfl
          simp [Client.capture, hready]

theorem deliver {kind' : EventKind} (hworker : s.worker = .sending kind' q r) (kind : EventKind) :
    Move kind ⟨s, .delivered, s.delivered kind' q⟩ := by
  by_cases hkind : kind' = kind
  · subst hkind
    refine .delivered q r hworker ?_ ?_ rfl rfl
    · by_cases hseq : (s.slot kind').sequence = q
      · cases kind' <;> simp_all [Client.delivered, Client.slot, Client.setSlot]
      · cases kind' <;> simp_all [Client.delivered, Client.slot, Client.setSlot]
    · cases kind' <;> rfl
  · refine of_same ?_ ?_ nofun nofun ?_
    · cases kind <;> cases kind' <;> first | rfl | exact absurd rfl hkind
    · cases kind' <;> rfl
    · simp [Transition.sends, hworker, hkind]

theorem fail (s : Client) (error : String) (kind : EventKind) :
    Move kind ⟨s, .failed error, s.failed error⟩ := by
  have hslot : (s.failed error).slot kind = s.slot kind := by
    unfold Client.failed
    cases kind <;> (dsimp only; split_ifs <;> rfl)
  refine of_same hslot ?_ ?_ nofun rfl
  · unfold Client.failed
    simp only []
    split_ifs <;> rfl
  · intro q' r' hq
    unfold Client.failed at hq
    simp only [] at hq
    split_ifs at hq
    all_goals cases hq

end Move

theorem Client.move_of_step (hstep : s.step action = some s') (kind : EventKind) :
    Move kind ⟨s, action, s'⟩ := by
  cases action with
  | enqueue kind' =>
    obtain ⟨-, rfl⟩ := Option.ite_none_left_eq_some.1 hstep |>.imp_right Option.some.inj
    exact .enqueue s kind kind'
  | flush caller =>
    replace hstep := (Option.ite_none_left_eq_some.1 hstep).2
    simp only [callerStep] at hstep
    split_ifs at hstep <;> obtain rfl := Option.some.inj hstep
    · exact .of_same rfl rfl (fun _ _ h => h) nofun rfl
    · exact .of_same (slot_congr rfl rfl kind) rfl (fun _ _ h => h) nofun rfl
  | flushWake caller timedOut =>
    replace hstep := (Option.ite_none_left_eq_some.1 hstep).2
    simp only [callerStep] at hstep
    split_ifs at hstep <;> obtain rfl := Option.some.inj hstep
    · exact .of_same (slot_congr rfl rfl kind) rfl (fun _ _ h => h) nofun rfl
    · exact .of_same rfl rfl (fun _ _ h => h) nofun rfl
  | close =>
    obtain ⟨-, rfl⟩ := Option.ite_none_left_eq_some.1 hstep |>.imp_right Option.some.inj
    exact .close s kind
  | start =>
    obtain ⟨-, rfl⟩ := Option.ite_none_right_eq_some.1 hstep |>.imp_right Option.some.inj
    exact .of_same (slot_congr rfl rfl kind) rfl nofun nofun rfl
  | wake =>
    obtain ⟨-, rfl⟩ := Option.ite_none_right_eq_some.1 hstep |>.imp_right Option.some.inj
    exact .of_same (slot_congr rfl rfl kind) rfl nofun nofun rfl
  | loop =>
    obtain ⟨-, rfl⟩ := Option.ite_none_right_eq_some.1 hstep |>.imp_right Option.some.inj
    exact .loop s kind
  | delivered =>
    cases hworker : s.worker with
    | sending kind' q r =>
      obtain rfl : s.delivered kind' q = s' := by simpa [step, workerStep, hworker] using hstep
      exact .deliver hworker kind
    | _ => simp [step, workerStep, hworker] at hstep
  | failed error =>
    cases hworker : s.worker with
    | sending kind' q r =>
      obtain rfl : s.failed error = s' := by simpa [step, workerStep, hworker] using hstep
      exact .fail s error kind
    | _ => simp [step, workerStep, hworker] at hstep
  | retry =>
    obtain ⟨-, rfl⟩ := Option.ite_none_right_eq_some.1 hstep |>.imp_right Option.some.inj
    exact .of_same (slot_congr rfl rfl kind) rfl nofun nofun rfl

theorem acceptedCalls_snoc (kind : EventKind) (h : List Transition) (t : Transition) :
    acceptedCalls kind (h ++ [t]) = acceptedCalls kind h ++ (t.accepted kind).toList := by
  rw [acceptedCalls, List.filterMap_append]
  cases ht : t.accepted kind <;> simp [acceptedCalls, ht]

theorem sentEvents_snoc (kind : EventKind) (h : List Transition) (t : Transition) :
    sentEvents kind (h ++ [t]) = sentEvents kind h ++ (t.sends kind).toList := by
  rw [sentEvents, List.filterMap_append]
  cases ht : t.sends kind <;> simp [sentEvents, ht]

theorem Transition.accepted_none
    (h : t.result kind ≠ some .coalesced ∧ t.result kind ≠ some .queued) :
    t.accepted kind = none :=
  if_neg fun hresult => hresult.elim h.2 h.1

/-- What the worker has sent of the kind, against the calls so far. -/
structure Tracks (kind : EventKind) (h : List Transition) (s : Client) : Prop where
  calls : acceptedCalls kind h = List.range' 1 (s.slot kind).sequence
  increasing : (sentEvents kind h).Pairwise (· < ·)
  sent : ∀ q ∈ sentEvents kind h, 1 ≤ q ∧ q ≤ (s.slot kind).sequence
  behind : (s.slot kind).pending = true →
    1 ≤ (s.slot kind).sequence ∧ ∀ q ∈ sentEvents kind h, q < (s.slot kind).sequence
  flying : ∀ q r, s.worker = .sending kind q r →
    1 ≤ q ∧ q ≤ (s.slot kind).sequence ∧ ∀ q' ∈ sentEvents kind h, q' < q
  raised : ∀ q r, s.worker = .sending kind q r → s.stopped = false → (s.slot kind).pending = true
  settled : s.stopped = false → (s.slot kind).pending = false →
    (s.slot kind).sequence = 0 ∨ (sentEvents kind h).getLast? = some (s.slot kind).sequence

namespace Tracks

theorem initial (hslot : s.slot kind = {}) (hworker : ∀ q r, s.worker ≠ .sending kind q r) :
    Tracks kind [] s where
  calls := by simp [hslot, acceptedCalls]
  increasing := List.Pairwise.nil
  sent := nofun
  behind := by simp [hslot]
  flying q r h := absurd h (hworker q r)
  raised q r h := absurd h (hworker q r)
  settled _ _ := .inl (by rw [hslot])

theorem quiet (hs : Tracks kind h t.before) (hslot : t.after.slot kind = t.before.slot kind)
    (hstopped : t.after.stopped = t.before.stopped)
    (hworker : ∀ q r, t.after.worker = .sending kind q r → t.before.worker = .sending kind q r)
    (haccepted : t.accepted kind = none) (hsends : t.sends kind = none) :
    Tracks kind (h ++ [t]) t.after := by
  have hsent : sentEvents kind (h ++ [t]) = sentEvents kind h := by simp [sentEvents_snoc, hsends]
  exact {
    calls := by simp [acceptedCalls_snoc, haccepted, hs.calls, hslot]
    increasing := by rw [hsent]; exact hs.increasing
    sent := by rw [hsent, hslot]; exact hs.sent
    behind := by rw [hsent, hslot]; exact hs.behind
    flying := by
      intro q r hq
      rw [hsent, hslot]
      exact hs.flying q r (hworker q r hq)
    raised := by
      intro q r hq hrunning
      rw [hslot]
      exact hs.raised q r (hworker q r hq) (hstopped.symm.trans hrunning)
    settled := by
      rw [hsent, hslot, hstopped]
      exact hs.settled }

theorem called (hs : Tracks kind h t.before)
    (hsequence : (t.after.slot kind).sequence = (t.before.slot kind).sequence + 1)
    (hpending : (t.after.slot kind).pending = true) (hworker : t.after.worker = t.before.worker)
    (haccepted : t.accepted kind = some (t.after.slot kind).sequence)
    (hsends : t.sends kind = none) : Tracks kind (h ++ [t]) t.after := by
  have hsent : sentEvents kind (h ++ [t]) = sentEvents kind h := by simp [sentEvents_snoc, hsends]
  exact {
    calls := by
      rw [acceptedCalls_snoc, haccepted, hs.calls, hsequence, List.range'_1_concat]
      simp [Nat.add_comm]
    increasing := by rw [hsent]; exact hs.increasing
    sent := by
      intro q hq
      rw [hsent] at hq
      rw [hsequence]
      exact ⟨(hs.sent q hq).1, Nat.le_succ_of_le (hs.sent q hq).2⟩
    behind := by
      intro _
      rw [hsent, hsequence]
      exact ⟨by omega, fun q hq => Nat.lt_succ_of_le (hs.sent q hq).2⟩
    flying := by
      intro q r hq
      rw [hsent, hsequence]
      obtain ⟨hpos, hle, hlater⟩ := hs.flying q r (hworker.symm.trans hq)
      exact ⟨hpos, Nat.le_succ_of_le hle, hlater⟩
    raised := fun _ _ _ _ => hpending
    settled := by
      intro _ hnot
      rw [hpending] at hnot
      cases hnot }

theorem closed (hs : Tracks kind h t.before)
    (hslot : t.after.slot kind = { t.before.slot kind with pending := false })
    (hstopped : t.after.stopped = true) (hworker : t.after.worker = t.before.worker)
    (haction : t.action = .close) : Tracks kind (h ++ [t]) t.after := by
  have hsent : sentEvents kind (h ++ [t]) = sentEvents kind h := by
    simp [sentEvents_snoc, Transition.sends, haction]
  have haccepted : t.accepted kind = none := by
    simp [Transition.accepted, Transition.result, haction]
  exact {
    calls := by simp [acceptedCalls_snoc, haccepted, hs.calls, hslot]
    increasing := by rw [hsent]; exact hs.increasing
    sent := by rw [hsent, hslot]; exact hs.sent
    behind := by
      intro hpending
      rw [hslot] at hpending
      cases hpending
    flying := by
      intro q r hq
      rw [hsent, hslot]
      exact hs.flying q r (hworker.symm.trans hq)
    raised := by
      intro _ _ _ hrunning
      rw [hstopped] at hrunning
      cases hrunning
    settled := by
      intro hrunning
      rw [hstopped] at hrunning
      cases hrunning }

theorem captured (hs : Tracks kind h t.before) (hpending : (t.before.slot kind).pending = true)
    (hslot : t.after.slot kind = t.before.slot kind)
    (hworker : t.after.worker = .sending kind (t.before.slot kind).sequence r)
    (haction : t.action = .loop) : Tracks kind (h ++ [t]) t.after := by
  have hsent : sentEvents kind (h ++ [t]) = sentEvents kind h := by
    simp [sentEvents_snoc, Transition.sends, haction]
  have haccepted : t.accepted kind = none := by
    simp [Transition.accepted, Transition.result, haction]
  exact {
    calls := by simp [acceptedCalls_snoc, haccepted, hs.calls, hslot]
    increasing := by rw [hsent]; exact hs.increasing
    sent := by rw [hsent, hslot]; exact hs.sent
    behind := by rw [hsent, hslot]; exact hs.behind
    flying := by
      intro q r' hq
      rw [hworker] at hq
      obtain ⟨-, rfl, -⟩ := Worker.sending.inj hq
      rw [hsent, hslot]
      exact ⟨(hs.behind hpending).1, Nat.le_refl _, (hs.behind hpending).2⟩
    raised := by
      intro _ _ _ _
      rw [hslot]
      exact hpending
    settled := by
      intro _ hnot
      rw [hslot, hpending] at hnot
      cases hnot }

theorem delivered (hs : Tracks kind h t.before) (hworker : t.before.worker = .sending kind q r)
    (hslot : t.after.slot kind = { t.before.slot kind with
      sent := (t.before.slot kind).sent + 1
      pending := (t.before.slot kind).pending && decide ((t.before.slot kind).sequence ≠ q) })
    (hstopped : t.after.stopped = t.before.stopped) (hafter : t.after.worker = .looping)
    (haction : t.action = .delivered) : Tracks kind (h ++ [t]) t.after := by
  obtain ⟨hpos, hle, hlater⟩ := hs.flying q r hworker
  have hsent : sentEvents kind (h ++ [t]) = sentEvents kind h ++ [q] := by
    simp [sentEvents_snoc, Transition.sends, haction, hworker]
  have haccepted : t.accepted kind = none := by
    simp [Transition.accepted, Transition.result, haction]
  have hsequence : (t.after.slot kind).sequence = (t.before.slot kind).sequence := by rw [hslot]
  exact {
    calls := by simp [acceptedCalls_snoc, haccepted, hs.calls, hsequence]
    increasing := by
      rw [hsent, List.pairwise_append]
      exact ⟨hs.increasing, List.pairwise_singleton _ _, by simpa using hlater⟩
    sent := by
      intro q' hq'
      rw [hsequence]
      rcases List.mem_append.1 (hsent ▸ hq') with hq' | hq'
      · exact hs.sent q' hq'
      · obtain rfl := List.mem_singleton.1 hq'
        exact ⟨hpos, hle⟩
    behind := by
      intro hpending
      rw [hslot] at hpending
      obtain ⟨hpending, hne⟩ := Bool.and_eq_true_iff.1 hpending
      have hlt : q < (t.before.slot kind).sequence :=
        Nat.lt_of_le_of_ne hle fun h => of_decide_eq_true hne h.symm
      refine ⟨hsequence ▸ (hs.behind hpending).1, ?_⟩
      intro q' hq'
      rw [hsequence]
      rcases List.mem_append.1 (hsent ▸ hq') with hq' | hq'
      · exact (hs.behind hpending).2 q' hq'
      · exact List.mem_singleton.1 hq' ▸ hlt
    flying := by
      intro _ _ hq
      rw [hafter] at hq
      cases hq
    raised := by
      intro _ _ hq
      rw [hafter] at hq
      cases hq
    settled := by
      intro hrunning hnot
      have hpending := hs.raised q r hworker (hstopped.symm.trans hrunning)
      rw [hslot] at hnot
      have hq : (t.before.slot kind).sequence = q := by simpa [hpending] using hnot
      rw [hsent, hsequence, hq, List.getLast?_append]
      exact .inr rfl }

theorem move (hs : Tracks kind h t.before) (hm : Move kind t) : Tracks kind (h ++ [t]) t.after := by
  cases hm with
  | quiet hslot hstopped hworker hresult hsends =>
    exact hs.quiet hslot hstopped hworker (Transition.accepted_none hresult) hsends
  | coalesced _ hpending hslot _ hworker hresult hsends =>
    exact hs.called (by rw [hslot]) (by rw [hslot]; exact hpending) hworker
      (if_pos (.inr hresult)) hsends
  | queued _ _ hslot _ hworker hresult hsends =>
    exact hs.called (by rw [hslot]) (by rw [hslot]) hworker (if_pos (.inl hresult)) hsends
  | closed _ hslot hstopped hworker haction => exact hs.closed hslot hstopped hworker haction
  | captured r _ hpending hslot _ hworker haction =>
    exact hs.captured hpending hslot hworker haction
  | delivered q r hworker hslot hstopped hafter haction =>
    exact hs.delivered hworker hslot hstopped hafter haction

theorem length_le (hs : Tracks kind h s) :
    (sentEvents kind h).length ≤ (acceptedCalls kind h).length := by
  have hnodup : (sentEvents kind h).Nodup := hs.increasing.imp fun hlt => Nat.ne_of_lt hlt
  have hsub : sentEvents kind h ⊆ acceptedCalls kind h := by
    intro q hq
    obtain ⟨hpos, hle⟩ := hs.sent q hq
    rw [hs.calls, List.mem_range'_1]
    omega
  exact (List.subperm_of_subset hnodup hsub).length_le

theorem last_sent (hs : Tracks kind h s) (hrunning : s.stopped = false)
    (hpending : (s.slot kind).pending = false) (hcalls : acceptedCalls kind h ≠ []) :
    (sentEvents kind h).getLast? = (acceptedCalls kind h).getLast? := by
  rw [hs.calls] at hcalls ⊢
  rcases hs.settled hrunning hpending with hzero | hlast
  · exact absurd (by rw [hzero]; rfl) hcalls
  · rw [hlast, List.getLast?_range']
    have hne : (s.slot kind).sequence ≠ 0 := fun hzero => hcalls (by rw [hzero]; rfl)
    simp [hne]

end Tracks

structure Counts (kind : EventKind) (h : List Transition) (s : Client) : Prop where
  coalesced : h.countP (fun t => t.result kind = some .coalesced) = (s.slot kind).coalesced
  queued : h.countP (fun t => t.result kind = some .queued) = h.countP (·.raises kind)

theorem Counts.step (hs : Counts kind h t.before)
    (hcoalesced : (t.after.slot kind).coalesced =
      (t.before.slot kind).coalesced + if t.result kind = some .coalesced then 1 else 0)
    (hqueued : t.result kind = some .queued ↔ t.raises kind = true) :
    Counts kind (h ++ [t]) t.after where
  coalesced := by
    rw [List.countP_append, hs.coalesced, hcoalesced, List.countP_singleton]
    simp
  queued := by
    rw [List.countP_append, List.countP_append, hs.queued, List.countP_singleton,
      List.countP_singleton]
    simp [hqueued]

theorem Counts.move (hs : Counts kind h t.before) (hm : Move kind t) :
    Counts kind (h ++ [t]) t.after := by
  cases hm with
  | quiet hslot _ _ hresult _ =>
    exact hs.step (by simp [hslot, hresult.1]) (by simp [hresult.2, Transition.raises, hslot])
  | coalesced _ hpending hslot _ _ hresult _ =>
    exact hs.step (by simp [hslot, hresult]) (by simp [hresult, Transition.raises, hpending])
  | queued _ hpending hslot _ _ hresult _ =>
    exact hs.step (by simp [hslot, hresult]) (by simp [hresult, Transition.raises, hpending, hslot])
  | closed _ hslot _ _ haction =>
    exact hs.step (by simp [hslot, Transition.result, haction])
      (by simp [Transition.result, haction, Transition.raises, hslot])
  | captured _ _ _ hslot _ _ haction =>
    exact hs.step (by simp [hslot, Transition.result, haction])
      (by simp [Transition.result, haction, Transition.raises, hslot])
  | delivered _ _ _ hslot _ _ haction =>
    refine hs.step (by simp [hslot, Transition.result, haction]) ?_
    cases hpending : (t.before.slot kind).pending <;>
      simp [Transition.result, haction, Transition.raises, hslot, hpending]

/-- The worker took the event over in a recorded step and has had it in flight since; a tick only
where no ready was pending. -/
def TakenOver (kind : EventKind) (q : Nat) (h : List Transition) (worker : Worker) : Prop :=
  ∃ before u between, h = before ++ u :: between ∧ u.captures kind = some q ∧
    (kind = .tick → u.before.ready.pending = false) ∧ u.after.worker = worker ∧
    ∀ v ∈ between, v.after.worker = worker

theorem Transition.captures_sending (haction : t.action = .loop)
    (hworker : t.after.worker = .sending kind q r) : t.captures kind = some q := by
  rw [captures, haction, hworker]
  exact if_pos rfl

theorem TakenOver.snoc (ht : TakenOver kind q h t.before.worker)
    (hworker : t.after.worker = t.before.worker) : TakenOver kind q (h ++ [t]) t.after.worker := by
  obtain ⟨before, u, between, rfl, hcaptures, hready, hu, hbetween⟩ := ht
  refine ⟨before, u, between ++ [t], by simp, hcaptures, hready, hu.trans hworker.symm, ?_⟩
  intro v hv
  rcases List.mem_append.1 hv with hv | hv
  · exact (hbetween v hv).trans hworker.symm
  · rw [List.mem_singleton.1 hv]

theorem Client.loopHead_ready (hrunning : s.stopped = false)
    (hworker : s.loopHead.worker = .sending .tick q r) : s.ready.pending = false := by
  cases hready : s.ready.pending with
  | false => rfl
  | true => simp [loopHead, hrunning, wakes, hready, capture] at hworker

theorem Move.taken (hm : Move kind t) (hstep : t.before.step t.action = some t.after)
    (hbefore : ∀ q r, t.before.worker = .sending kind q r → TakenOver kind q h t.before.worker)
    (hq : t.after.worker = .sending kind q r) : TakenOver kind q (h ++ [t]) t.after.worker := by
  have hsame (hworker : t.before.worker = .sending kind q r) :
      TakenOver kind q (h ++ [t]) t.after.worker :=
    (hbefore q r hworker).snoc (hq.trans hworker.symm)
  cases hm with
  | quiet _ _ hworker _ _ => exact hsame (hworker q r hq)
  | coalesced _ _ _ _ hworker _ _ => exact hsame (hworker.symm.trans hq)
  | queued _ _ _ _ hworker _ _ => exact hsame (hworker.symm.trans hq)
  | closed _ _ _ hworker _ => exact hsame (hworker.symm.trans hq)
  | captured r' hrunning _ _ _ hworker haction =>
    refine ⟨h, t, [], rfl, Transition.captures_sending haction hq, ?_, rfl, by simp⟩
    rintro rfl
    rw [haction] at hstep
    obtain ⟨-, hloop⟩ := Option.ite_none_right_eq_some.1 hstep
    exact Client.loopHead_ready hrunning ((congrArg Client.worker (Option.some.inj hloop)).trans hq)
  | delivered _ _ _ _ _ hafter _ =>
    rw [hafter] at hq
    cases hq

theorem Client.create_slot (windows : Bool) (getenv : String → Option String)
    (config : ClientConfig)
    (kind : EventKind) : (create windows getenv config).slot kind = {} := by
  unfold create
  cases kind <;> (dsimp only; split_ifs <;> rfl)

theorem Client.create_worker (windows : Bool) (getenv : String → Option String)
    (config : ClientConfig) : (create windows getenv config).worker ≠ .sending kind q r := by
  unfold create
  dsimp only
  split_ifs <;> exact nofun

theorem Run.upto {start : Client} {later earlier : List Transition}
    (hrun : Run start (earlier ++ t :: later) s) :
    Run start earlier t.before ∧ t.before.step t.action = some t.after := by
  generalize hh : earlier ++ t :: later = h at hrun
  induction hrun generalizing later with
  | start => exact absurd hh (by simp)
  | @step h s action s' hrun hstep ih =>
    rcases List.eq_nil_or_concat later with rfl | ⟨later, last, rfl⟩
    · obtain ⟨rfl, ht⟩ := List.append_inj' hh rfl
      obtain rfl := (List.cons.inj ht).1
      exact ⟨hrun, hstep⟩
    · have hsplit : (earlier ++ t :: later) ++ [last] = h ++ [⟨s, action, s'⟩] := by simpa using hh
      exact ih (List.append_inj' hsplit rfl).1

def Client.play (s : Client) (h : List Transition) : List Action → Option (List Transition × Client)
  | [] => some (h, s)
  | action :: rest => (s.step action).bind fun s' => s'.play (h ++ [⟨s, action, s'⟩]) rest

theorem Run.play {start : Client} {actions : List Action} {p : List Transition × Client}
    (hrun : Run start h s) (hplay : s.play h actions = some p) : Run start p.1 p.2 := by
  induction actions generalizing s h with
  | nil =>
    obtain rfl := Option.some.inj hplay
    exact hrun
  | cons action rest ih =>
    obtain ⟨s', hstep, hplay⟩ := Option.bind_eq_some_iff.1 hplay
    exact ih (.step hrun hstep) hplay

variable {windows : Bool} {getenv : String → Option String} {config : ClientConfig}

theorem Run.tracks (hrun : Run (.create windows getenv config) h s) (kind : EventKind) :
    Tracks kind h s := by
  induction hrun with
  | start => exact .initial (Client.create_slot ..) (fun _ _ => Client.create_worker _ _ _)
  | step _ hstep ih => exact ih.move (Client.move_of_step hstep kind)

theorem Run.counts (hrun : Run (.create windows getenv config) h s) (kind : EventKind) :
    Counts kind h s := by
  induction hrun with
  | start => exact ⟨by rw [Client.create_slot]; rfl, rfl⟩
  | step _ hstep ih => exact ih.move (Client.move_of_step hstep kind)

theorem Run.takenOver (hrun : Run (.create windows getenv config) h s)
    (hworker : s.worker = .sending kind q r) : TakenOver kind q h s.worker := by
  induction hrun generalizing q r with
  | start => exact absurd hworker (Client.create_worker _ _ _)
  | step _ hstep ih => exact (Client.move_of_step hstep kind).taken hstep (fun _ _ => ih) hworker

theorem Transition.worker_of_sends (ht : t.sends kind = some q) :
    ∃ r, t.before.worker = .sending kind q r := by
  unfold sends at ht
  split at ht
  · rename_i kind' q' r _ hworker
    split_ifs at ht with hkind
    exact ⟨r, by rw [hworker, hkind, Option.some.inj ht]⟩
  · cases ht

/-- Along every interleaving of calls and worker steps, no accepted event is lost or sent from
nowhere: successful sends of a kind carry increasing sequence values and never outnumber the
accepted calls, a lowered flag means that the last call was sent, the results of the calls match
the counter and the flag, and a sent tick was taken over when no ready was pending. -/
theorem events_delivered (hrun : Run (.create windows getenv config) h s) (kind : EventKind) :
    (sentEvents kind h).Pairwise (· < ·) ∧
    (sentEvents kind h).length ≤ (acceptedCalls kind h).length ∧
    (s.stopped = false → (s.slot kind).pending = false → acceptedCalls kind h ≠ [] →
      (sentEvents kind h).getLast? = (acceptedCalls kind h).getLast?) ∧
    h.countP (fun t => t.result kind = some .coalesced) = (s.slot kind).coalesced ∧
    h.countP (fun t => t.result kind = some .queued) = h.countP (·.raises kind) ∧
    ∀ earlier t later q, h = earlier ++ t :: later → t.sends kind = some q →
      TakenOver kind q earlier t.before.worker := by
  refine ⟨(hrun.tracks kind).increasing, (hrun.tracks kind).length_le, (hrun.tracks kind).last_sent,
    (hrun.counts kind).coalesced, (hrun.counts kind).queued, ?_⟩
  intro earlier t later q hsplit ht
  obtain ⟨r, hworker⟩ := Transition.worker_of_sends ht
  rw [hsplit] at hrun
  exact hrun.upto.1.takenOver hworker

/-- A second call while the first one is being sent: both are sent, under their own values. -/
theorem events_delivered_twice : ∃ h s,
    Run (.create false (fun _ => none) { appName := "app", endpoint := "sock" }) h s ∧
    sentEvents .ready h = [1, 2] ∧ (sentEvents .ready h).Pairwise (· < ·) := by
  obtain ⟨p, hplay, hsent⟩ : ∃ p, (Client.create false (fun _ => none)
      { appName := "app", endpoint := "sock" }).play [] [.enqueue .ready, .start, .loop,
        .enqueue .ready, .delivered, .loop, .delivered] = some p ∧ sentEvents .ready p.1 = [1, 2] :=
    ⟨_, rfl, rfl⟩
  have hrun := Run.play .start hplay
  exact ⟨p.1, p.2, hrun, hsent, (events_delivered hrun .ready).1⟩

end PmTiny.Sdk
