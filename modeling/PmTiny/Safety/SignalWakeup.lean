import Mathlib.Algebra.Ring.Nat
import PmTiny.Daemon.SignalWakeup

namespace PmTiny.Signals
set_option autoImplicit true

/-- The place of a variable in `check_delayed_sigs`. -/
def Flag.place : Flag → Nat
  | .exitSignal => 0
  | .exitChldSignal => 1
  | .hupSignal => 2
  | .alarmSignal => 3

theorem Flag.place_inj {flag flag' : Flag} (h : flag.place = flag'.place) : flag = flag' := by
  cases flag <;> cases flag' <;> first | rfl | cases h

/-- What the loop has still to read, or has read and found set. -/
def TakeStep.fresh : TakeStep → Bool
  | .block => true
  | .read => true
  | .clear saved => saved.isSome
  | .restore _ => false

def LoopPhase.Ahead (flag : Flag) : LoopPhase → Prop
  | .drain => True
  | .take current next => current.place < flag.place ∨ current = flag ∧ next.fresh = true
  | _ => False

theorem LoopPhase.ahead_maintenance (flag : Flag) : LoopPhase.maintenance.Ahead flag := by
  cases flag with
  | exitSignal => exact .inr ⟨rfl, rfl⟩
  | exitChldSignal => exact .inl (by decide)
  | hupSignal => exact .inl (by decide)
  | alarmSignal => exact .inl (by decide)

theorem Flag.ahead_next {current flag : Flag} (h : current.place < flag.place) :
    current.next.Ahead flag := by
  cases current <;> cases flag <;>
    first
    | exact .inr ⟨rfl, rfl⟩
    | exact .inl (by decide)
    | exact absurd h (by decide)

namespace Wakeup
variable {s s' : Wakeup} {flag : Flag}

/-- A signal of the variable is pending, its handler has not stored it yet, or it is stored. -/
def Visible (s : Wakeup) (flag : Flag) : Prop :=
  (∃ signo ∈ s.pending, signo.flag = flag) ∨
  (∃ thread, ∃ handler ∈ s.handlers thread, handler.next = .store ∧ handler.signo.flag = flag) ∨
  (s.flags flag).isSome = true

/-- The pipe is readable, or a handler is about to write to it. -/
def Waking (s : Wakeup) : Prop :=
  0 < s.pipeBytes ∨ ∃ thread, ∃ handler ∈ s.handlers thread, handler.next = .wake

structure Inv (s : Wakeup) : Prop where
  visible : ∀ flag, s.unseen flag = true → s.Visible flag
  emptied : ∀ flag, s.phase = .take flag (.clear none) → s.flags flag = none
  woken : ∀ flag, (s.flags flag).isSome = true → s.Waking ∨ s.phase.Ahead flag
  masked : ∀ handler ∈ s.handlers .loop, s.phase.blocks handler.signo = false

theorem start_inv : ({} : Wakeup).Inv where
  visible := fun _ h => by cases h
  emptied := fun _ h => by cases h
  woken := fun _ h => by cases h
  masked := fun _ h => by cases h

theorem Visible.mono (h : s.Visible flag) (hpending : ∀ signo ∈ s.pending, signo ∈ s'.pending)
    (hhandlers : ∀ thread, ∀ handler ∈ s.handlers thread, handler ∈ s'.handlers thread)
    (hflags : s'.flags flag = s.flags flag) : s'.Visible flag := by
  rcases h with ⟨signo, hmem, hflag⟩ | ⟨thread, handler, hmem, hnext⟩ | hset
  · exact .inl ⟨signo, hpending signo hmem, hflag⟩
  · exact .inr (.inl ⟨thread, handler, hhandlers thread handler hmem, hnext⟩)
  · exact .inr (.inr (hflags ▸ hset))

theorem Waking.mono (h : s.Waking) (hbytes : s.pipeBytes ≤ s'.pipeBytes)
    (hhandlers : ∀ thread, ∀ handler ∈ s.handlers thread, handler ∈ s'.handlers thread) :
    s'.Waking := by
  rcases h with hbytes' | ⟨thread, handler, hmem, hnext⟩
  · exact .inl (by omega)
  · exact .inr ⟨thread, handler, hhandlers thread handler hmem, hnext⟩

theorem mem_update {handlers : Thread → List Handler} {thread other : Thread} {l : List Handler}
    {handler : Handler} (hmem : handler ∈ handlers other)
    (hsame : handler ∈ handlers thread → handler ∈ l) :
    handler ∈ Function.update handlers thread l other := by
  by_cases hother : other = thread
  · subst hother
    rw [Function.update_self]
    exact hsame hmem
  · rwa [Function.update_of_ne hother]

theorem mem_of_update {handlers : Thread → List Handler} {thread : Thread} {l : List Handler}
    {handler : Handler} (hmem : handler ∈ Function.update handlers thread l .loop) :
    handler ∈ handlers .loop ∨ thread = .loop ∧ handler ∈ l := by
  cases thread with
  | loop =>
    rw [Function.update_self] at hmem
    exact .inr ⟨rfl, hmem⟩
  | worker =>
    rw [Function.update_of_ne (by decide)] at hmem
    exact .inl hmem

theorem pipe_readable (n : Nat) : 0 < min pipeCapacity (n + 1) := by
  rw [pipeCapacity]
  omega

theorem send_inv (h : s.Inv) (hs : s.step (.send signo) = some s') : s'.Inv := by
  cases hs
  have hpending : ∀ signo' ∈ s.pending,
      signo' ∈ (if signo ∈ s.pending then s.pending else signo :: s.pending) := by
    intro signo' hmem
    split
    · exact hmem
    · exact List.mem_cons_of_mem _ hmem
  have hsent : signo ∈ (if signo ∈ s.pending then s.pending else signo :: s.pending) := by
    split
    · assumption
    · exact List.mem_cons_self
  exact {
    visible := fun flag hunseen => by
      by_cases hflag : signo.flag = flag
      · exact .inl ⟨signo, hsent, hflag⟩
      · have hbefore : s.unseen flag = true := by
          dsimp only at hunseen
          rwa [Function.update_of_ne (Ne.symm hflag)] at hunseen
        exact (h.visible flag hbefore).mono hpending (fun _ _ hmem => hmem) rfl
    emptied := h.emptied
    woken := fun flag hset => (h.woken flag hset).imp_left
      fun hwaking => hwaking.mono (Nat.le_refl _) fun _ _ hmem => hmem
    masked := h.masked }

theorem deliver_inv (h : s.Inv) (hs : s.step (.deliver thread signo) = some s') : s'.Inv := by
  rw [step] at hs
  split at hs
  · rename_i hdeliver
    obtain ⟨-, hblocks⟩ := hdeliver
    cases hs
    have hhandlers : ∀ other, ∀ handler ∈ s.handlers other, handler ∈
        Function.update s.handlers thread (⟨signo, .store⟩ :: s.handlers thread) other :=
      fun _ _ hmem => mem_update hmem (List.mem_cons_of_mem _)
    exact {
      visible := fun flag hunseen => by
        rcases h.visible flag hunseen with ⟨other, hmem, hflag⟩ | hhandler | hset
        · by_cases hother : other = signo
          · subst hother
            refine .inr (.inl ⟨thread, ⟨other, .store⟩, ?_, rfl, hflag⟩)
            dsimp only
            rw [Function.update_self]
            exact List.mem_cons_self
          · exact .inl ⟨other, (List.mem_erase_of_ne hother).2 hmem, hflag⟩
        · obtain ⟨other, handler, hmem, hnext⟩ := hhandler
          exact .inr (.inl ⟨other, handler, hhandlers other handler hmem, hnext⟩)
        · exact .inr (.inr hset)
      emptied := h.emptied
      woken := fun flag hset => (h.woken flag hset).imp_left
        fun hwaking => hwaking.mono (Nat.le_refl _) hhandlers
      masked := fun handler hmem => by
        rcases mem_of_update hmem with hbefore | ⟨rfl, hmem⟩
        · exact h.masked handler hbefore
        · rcases List.mem_cons.1 hmem with rfl | hbefore
          · exact (Bool.or_eq_false_iff.1 hblocks).1
          · exact h.masked handler hbefore }
  · cases hs

theorem handle_cases (hs : s.handle thread = some s') :
    (∃ signo outer, s.handlers thread = ⟨signo, .store⟩ :: outer ∧ s' = { s with
      flags := Function.update s.flags signo.flag (some signo)
      handlers := Function.update s.handlers thread (⟨signo, .wake⟩ :: outer) }) ∨
    (∃ signo outer, s.handlers thread = ⟨signo, .wake⟩ :: outer ∧ s' = { s with
      pipeBytes := min pipeCapacity (s.pipeBytes + 1)
      handlers := Function.update s.handlers thread outer }) := by
  rw [handle] at hs
  split at hs
  · cases hs
  · rename_i signo outer houter
    cases hs
    exact .inl ⟨signo, outer, houter, rfl⟩
  · rename_i signo outer houter
    cases hs
    exact .inr ⟨signo, outer, houter, rfl⟩

/-- Neither the mask of the loop nor the absence of a race lets a handler store to a variable that
the loop is about to clear unread. -/
theorem not_cleared (h : s.Inv) (hraces : s.races (.handler thread) = false)
    (houter : s.handlers thread = ⟨signo, .store⟩ :: outer) :
    s.phase ≠ .take signo.flag (.clear none) := by
  intro hphase
  cases thread with
  | loop =>
    have hmasked := h.masked ⟨signo, .store⟩ (houter ▸ List.mem_cons_self)
    rw [hphase] at hmasked
    exact absurd hmasked (by simp [LoopPhase.blocks])
  | worker =>
    rw [races, hphase, houter] at hraces
    exact absurd hraces (by simp)

theorem handler_inv (h : s.Inv) (hraces : s.races (.handler thread) = false)
    (hs : s.step (.handler thread) = some s') : s'.Inv := by
  rcases handle_cases hs with ⟨signo, outer, houter, rfl⟩ | ⟨signo, outer, houter, rfl⟩
  · have hclear := not_cleared h hraces houter
    exact {
      visible := fun flag hunseen => by
        by_cases hflag : flag = signo.flag
        · refine .inr (.inr ?_)
          dsimp only
          rw [hflag, Function.update_self]
          rfl
        · rcases h.visible flag hunseen with hpending | ⟨other, handler, hmem, hnext⟩ | hset
          · exact .inl hpending
          · refine .inr (.inl ⟨other, handler, mem_update hmem fun hmem' => ?_, hnext⟩)
            rw [houter] at hmem'
            rcases List.mem_cons.1 hmem' with rfl | hmem'
            · exact absurd hnext.2.symm hflag
            · exact List.mem_cons_of_mem _ hmem'
          · refine .inr (.inr ?_)
            dsimp only
            rwa [Function.update_of_ne hflag]
      emptied := fun flag hphase => by
        have hflag : flag ≠ signo.flag := fun hflag => hclear (hflag ▸ hphase)
        dsimp only
        rw [Function.update_of_ne hflag]
        exact h.emptied flag hphase
      woken := fun flag _ => by
        refine .inl (.inr ⟨thread, ⟨signo, .wake⟩, ?_, rfl⟩)
        dsimp only
        rw [Function.update_self]
        exact List.mem_cons_self
      masked := fun handler hmem => by
        rcases mem_of_update hmem with hbefore | ⟨rfl, hmem⟩
        · exact h.masked handler hbefore
        · rcases List.mem_cons.1 hmem with rfl | hbefore
          · exact h.masked ⟨signo, .store⟩ (houter ▸ List.mem_cons_self)
          · exact h.masked handler (houter ▸ List.mem_cons_of_mem _ hbefore) }
  · exact {
      visible := fun flag hunseen => by
        rcases h.visible flag hunseen with hpending | ⟨other, handler, hmem, hnext⟩ | hset
        · exact .inl hpending
        · refine .inr (.inl ⟨other, handler, mem_update hmem fun hmem' => ?_, hnext⟩)
          rw [houter] at hmem'
          rcases List.mem_cons.1 hmem' with rfl | hmem'
          · cases hnext.1
          · exact hmem'
        · exact .inr (.inr hset)
      emptied := h.emptied
      woken := fun _ _ => .inl (.inl (pipe_readable _))
      masked := fun handler hmem => by
        rcases mem_of_update hmem with hbefore | ⟨rfl, hmem⟩
        · exact h.masked handler hbefore
        · exact h.masked handler (houter ▸ List.mem_cons_of_mem _ hmem) }

theorem Inv.moves (h : s.Inv) (hidle : s.handlers .loop = []) (phase : LoopPhase)
    (hemptied : ∀ flag, phase = .take flag (.clear none) → s.flags flag = none)
    (hwoken : ∀ flag, (s.flags flag).isSome = true → s.phase.Ahead flag → phase.Ahead flag) :
    ({ s with phase } : Wakeup).Inv where
  visible := fun flag hunseen => h.visible flag hunseen
  emptied := hemptied
  woken := fun flag hset => (h.woken flag hset).imp_right (hwoken flag hset)
  masked := fun handler hmem => by
    have hnone : handler ∈ ([] : List Handler) := hidle ▸ hmem
    cases hnone

theorem advance_inv (h : s.Inv) (hidle : s.handlers .loop = []) (hs : s.advance = some s') :
    s'.Inv := by
  rw [advance] at hs
  cases hphase : s.phase with
  | wait =>
    rw [hphase] at hs
    cases hs
  | drain =>
    rw [hphase] at hs
    dsimp only at hs
    split at hs
    · cases hs
      exact h.moves hidle _ (fun _ heq => by cases heq) fun flag _ _ =>
        LoopPhase.ahead_maintenance flag
    · cases hs
      exact {
        visible := h.visible
        emptied := fun flag heq => by cases heq
        woken := fun flag _ => .inr trivial
        masked := fun handler _ => rfl }
  | take current next =>
    rw [hphase] at hs
    cases next with
    | block =>
      cases hs
      exact h.moves hidle _ (fun _ heq => by cases heq) fun flag _ hahead => by
        rw [hphase] at hahead
        exact hahead.imp_right fun hsame => ⟨hsame.1, rfl⟩
    | read =>
      cases hs
      refine h.moves hidle _ (fun flag heq => ?_) fun flag hset hahead => ?_
      · injection heq with hflag hsaved
        injection hsaved with hsaved
        exact hflag ▸ hsaved
      · rw [hphase] at hahead
        rcases hahead with hlater | ⟨rfl, -⟩
        · exact .inl hlater
        · exact .inr ⟨rfl, hset⟩
    | clear saved =>
      cases hs
      exact {
        visible := fun flag hunseen => by
          have hseen : s.unseen flag = true ∧ (saved.isSome = true → flag ≠ current) := by
            cases saved with
            | none => exact ⟨hunseen, fun hnone => by cases hnone⟩
            | some signo =>
              have hne : flag ≠ current := by
                rintro rfl
                have hfalse : Function.update s.unseen flag false flag = true := hunseen
                rw [Function.update_self] at hfalse
                cases hfalse
              have hbefore : Function.update s.unseen current false flag = true := hunseen
              rw [Function.update_of_ne hne] at hbefore
              exact ⟨hbefore, fun _ => hne⟩
          rcases h.visible flag hseen.1 with hpending | hhandler | hset
          · exact .inl hpending
          · exact .inr (.inl hhandler)
          · have hne : flag ≠ current := by
              cases saved with
              | none =>
                rintro rfl
                rw [h.emptied flag hphase] at hset
                cases hset
              | some signo => exact hseen.2 rfl
            refine .inr (.inr ?_)
            dsimp only
            rwa [Function.update_of_ne hne]
        emptied := fun flag heq => by cases heq
        woken := fun flag hset => by
          have hne : flag ≠ current := by
            rintro rfl
            have hnone : (Function.update s.flags flag none flag).isSome = true := hset
            rw [Function.update_self] at hnone
            cases hnone
          have hbefore : (Function.update s.flags current none flag).isSome = true := hset
          rw [Function.update_of_ne hne] at hbefore
          refine (h.woken flag hbefore).imp_right fun hahead => ?_
          rw [hphase] at hahead
          exact hahead.imp_right fun hsame => absurd hsame.1.symm hne
        masked := fun handler hmem => by
          have hnone : handler ∈ ([] : List Handler) := hidle ▸ hmem
          cases hnone }
    | restore saved =>
      cases hs
      refine h.moves hidle _ (fun flag heq => ?_) fun flag _ hahead => ?_
      · cases current <;> cases heq
      · rw [hphase] at hahead
        rcases hahead with hlater | ⟨-, hfresh⟩
        · exact Flag.ahead_next hlater
        · cases hfresh
  | checkQuit =>
    rw [hphase] at hs
    cases hs
    exact h.moves hidle _ (fun _ heq => by cases heq) fun flag _ hahead => by
      rw [hphase] at hahead
      exact hahead.elim
  | stopped =>
    rw [hphase] at hs
    cases hs

theorem calmStep_inv (h : s.Inv) (hs : s.calmStep e = some s') : s'.Inv := by
  obtain ⟨hraces, hs⟩ := calmStep_eq_some hs
  cases e with
  | send signo => exact send_inv h hs
  | deliver thread signo => exact deliver_inv h hs
  | handler thread => exact handler_inv h hraces hs
  | childWakes =>
    cases hs
    exact {
      visible := h.visible
      emptied := h.emptied
      woken := fun _ _ => .inl (.inl (pipe_readable _))
      masked := h.masked }
  | workerStarts =>
    rw [step] at hs
    split at hs
    · cases hs
      exact ⟨h.visible, h.emptied, h.woken, h.masked⟩
    · cases hs
  | workerEnds =>
    rw [step] at hs
    split at hs
    · cases hs
      exact ⟨h.visible, h.emptied, h.woken, h.masked⟩
    · cases hs
  | wake =>
    rw [step] at hs
    split at hs
    · rename_i hwake
      cases hs
      exact h.moves hwake.2.1 _ (fun _ heq => by cases heq) fun _ _ _ => trivial
    · cases hs
  | timer =>
    rw [step] at hs
    split at hs
    · rename_i htimer
      cases hs
      exact h.moves htimer.2 _ (fun _ heq => by cases heq) fun flag _ _ =>
        LoopPhase.ahead_maintenance flag
    · cases hs
  | loop =>
    rw [step] at hs
    split at hs
    · rename_i hidle
      exact advance_inv h hidle hs
    · cases hs
  | quit =>
    rw [step] at hs
    split at hs
    · rename_i hquit
      cases hs
      exact h.moves hquit.2 _ (fun _ heq => by cases heq) fun flag _ hahead => by
        rw [hquit.1] at hahead
        exact hahead.elim
    · cases hs

end Wakeup

def HandlerStep.load : HandlerStep → Nat
  | .store => 2
  | .wake => 1

def TakeStep.place : TakeStep → Nat
  | .block => 0
  | .read => 1
  | .clear _ => 2
  | .restore _ => 3

def LoopPhase.place : LoopPhase → Nat
  | .wait => 0
  | .drain => 1
  | .take flag next => 2 + 4 * flag.place + next.place
  | .checkQuit => 18
  | .stopped => 19

def LoopPhase.toWait (phase : LoopPhase) : Nat :=
  if phase.place = 0 then 0 else 19 - phase.place

def LoopPhase.toTake (flag : Flag) (phase : LoopPhase) : Nat :=
  if phase.place ≤ 4 + 4 * flag.place then 4 + 4 * flag.place - phase.place
  else 4 + 4 * flag.place + 19 - phase.place

theorem Flag.place_lt (flag : Flag) : flag.place < 4 := by
  cases flag <;> decide

theorem LoopPhase.toTake_le (flag : Flag) (phase : LoopPhase) : phase.toTake flag ≤ 35 := by
  have hflag := flag.place_lt
  rw [toTake]
  split <;> omega

theorem LoopPhase.toWait_le (phase : LoopPhase) : phase.toWait ≤ 18 := by
  rw [toWait]
  split <;> omega

theorem Flag.next_place (flag : Flag) : flag.next.place = 6 + 4 * flag.place := by
  cases flag <;> rfl

/-- The steps that take no new signal and wait for no timer. -/
def Event.Own : Event → Prop
  | .deliver _ _ => True
  | .handler _ => True
  | .wake => True
  | .loop => True
  | _ => False

namespace Wakeup
variable {s s' : Wakeup} {flag : Flag}

/-- What the kernel and the handlers have still to do. -/
def load (s : Wakeup) : Nat :=
  3 * s.pending.length + ((s.handlers .loop).map (·.next.load)).sum +
    ((s.handlers .worker).map (·.next.load)).sum

def distance (flag : Flag) (s : Wakeup) : Nat :=
  if s.unseen flag = true then
    200 * s.load + (if s.load = 0 then s.phase.toTake flag else s.phase.toWait) + s.pipeBytes + 1
  else 0

theorem distance_lt_of_load (hunseen : s.unseen flag = true) (hload : s'.load < s.load)
    (hbytes : s'.pipeBytes ≤ s.pipeBytes + 1) : s'.distance flag < s.distance flag := by
  have htake := s'.phase.toTake_le flag
  have hwait := s'.phase.toWait_le
  unfold distance
  rw [if_pos hunseen]
  split
  · split <;> omega
  · omega

theorem handle_load (hs : s.handle thread = some s') :
    s'.load < s.load ∧ s'.pipeBytes ≤ s.pipeBytes + 1 ∧ s'.phase = s.phase ∧
      s'.unseen = s.unseen := by
  rcases handle_cases hs with ⟨signo, outer, houter, rfl⟩ | ⟨signo, outer, houter, rfl⟩
  · refine ⟨?_, Nat.le_succ _, rfl, rfl⟩
    cases thread with
    | loop => simp [load, houter, HandlerStep.load]
    | worker => simp [load, houter, HandlerStep.load]
  · refine ⟨?_, Nat.min_le_right _ _, rfl, rfl⟩
    cases thread with
    | loop => simp [load, houter, HandlerStep.load]
    | worker => simp [load, houter, HandlerStep.load]

theorem exists_handle (hhandlers : s.handlers thread = handler :: outer) :
    ∃ s', s.handle thread = some s' := by
  obtain ⟨signo, next⟩ := handler
  rw [handle, hhandlers]
  cases next with
  | store => exact ⟨_, rfl⟩
  | wake => exact ⟨_, rfl⟩

theorem advance_load (hs : s.advance = some s') : s'.load = s.load := by
  rw [advance] at hs
  split at hs
  case h_2 => split at hs <;> cases hs <;> rfl
  all_goals first | cases hs; rfl | cases hs

theorem advance_place (hs : s.advance = some s') :
    (s.phase = .drain ∧ s'.phase = .drain ∧ s'.pipeBytes < s.pipeBytes) ∨
    s'.pipeBytes = s.pipeBytes ∧ 0 < s.phase.place ∧
      (s.phase.place < 18 ∧ s'.phase.place = s.phase.place + 1 ∨
        s.phase.place = 18 ∧ s'.phase.place = 0) := by
  rw [advance] at hs
  cases hphase : s.phase with
  | wait =>
    rw [hphase] at hs
    cases hs
  | drain =>
    rw [hphase] at hs
    dsimp only at hs
    split at hs
    · cases hs
      exact .inr ⟨rfl, by decide, .inl ⟨by decide, rfl⟩⟩
    · cases hs
      refine .inl ⟨rfl, rfl, ?_⟩
      dsimp only
      omega
  | take current next =>
    rw [hphase] at hs
    have hplace := current.place_lt
    have hnext := current.next_place
    refine .inr ?_
    cases next with
    | block =>
      cases hs
      dsimp only [LoopPhase.place, TakeStep.place]
      omega
    | read =>
      cases hs
      dsimp only [LoopPhase.place, TakeStep.place]
      omega
    | clear saved =>
      cases hs
      dsimp only [LoopPhase.place, TakeStep.place]
      omega
    | restore saved =>
      cases hs
      have hrestore : (LoopPhase.take current (.restore saved)).place = 5 + 4 * current.place := by
        dsimp only [LoopPhase.place, TakeStep.place]
        omega
      dsimp only
      rw [hrestore, hnext]
      omega
  | checkQuit =>
    rw [hphase] at hs
    cases hs
    exact .inr ⟨rfl, by decide, .inr ⟨rfl, rfl⟩⟩
  | stopped =>
    rw [hphase] at hs
    cases hs

theorem toWait_advance (hs : s.advance = some s') :
    s'.phase.toWait + s'.pipeBytes < s.phase.toWait + s.pipeBytes := by
  rcases advance_place hs with ⟨hdrain, hdrain', hbytes⟩ | ⟨hbytes, hplace, hnext⟩
  · rw [hdrain, hdrain']
    omega
  · rw [LoopPhase.toWait, LoopPhase.toWait, hbytes]
    split <;> split <;> omega

theorem clear_of_place {phase : LoopPhase} (h : phase.place = 4 + 4 * flag.place) :
    ∃ saved, phase = .take flag (.clear saved) := by
  have hflag := flag.place_lt
  cases phase with
  | wait => simp only [LoopPhase.place] at h; omega
  | drain => simp only [LoopPhase.place] at h; omega
  | checkQuit => simp only [LoopPhase.place] at h; omega
  | stopped => simp only [LoopPhase.place] at h; omega
  | take current next =>
    cases next with
    | block => simp only [LoopPhase.place, TakeStep.place] at h; omega
    | read => simp only [LoopPhase.place, TakeStep.place] at h; omega
    | restore saved => simp only [LoopPhase.place, TakeStep.place] at h; omega
    | clear saved =>
      have hplace : current.place = flag.place := by
        simp only [LoopPhase.place, TakeStep.place] at h
        omega
      exact ⟨saved, Flag.place_inj hplace ▸ rfl⟩

/-- Each step but the clearing itself takes the loop nearer to the clearing of a variable. -/
theorem toTake_advance (hs : s.advance = some s')
    (hclear : ∀ saved, s.phase ≠ .take flag (.clear saved)) :
    s'.phase.toTake flag + s'.pipeBytes < s.phase.toTake flag + s.pipeBytes := by
  have hflag := flag.place_lt
  have hplace : s.phase.place ≠ 4 + 4 * flag.place := fun heq =>
    (clear_of_place heq).elim hclear
  rcases advance_place hs with ⟨hdrain, hdrain', hbytes⟩ | ⟨hbytes, hpositive, hnext⟩
  · rw [hdrain, hdrain']
    omega
  · rw [LoopPhase.toTake, LoopPhase.toTake, hbytes]
    split <;> split <;> omega

theorem exists_advance (hwait : s.phase ≠ .wait) (hstopped : s.phase ≠ .stopped) :
    ∃ s', s.advance = some s' ∧ s'.phase ≠ .stopped := by
  rw [advance]
  cases hphase : s.phase with
  | wait => exact absurd hphase hwait
  | drain =>
    dsimp only
    split
    · exact ⟨_, rfl, fun heq => by cases heq⟩
    · exact ⟨_, rfl, fun heq => by cases heq⟩
  | take current next =>
    cases next with
    | block => exact ⟨_, rfl, fun heq => by cases heq⟩
    | read => exact ⟨_, rfl, fun heq => by cases heq⟩
    | clear saved => exact ⟨_, rfl, fun heq => by cases heq⟩
    | restore saved => exact ⟨_, rfl, fun heq => by cases current <;> cases heq⟩
  | checkQuit => exact ⟨_, rfl, fun heq => by cases heq⟩
  | stopped => exact absurd hphase hstopped

theorem eq_nil_of_load (hload : s.load = 0) :
    s.pending = [] ∧ ∀ thread, s.handlers thread = [] := by
  rw [load] at hload
  have hempty : ∀ l : List Handler, (l.map (·.next.load)).sum = 0 → l = [] := by
    intro l hsum
    cases l with
    | nil => rfl
    | cons handler l =>
      obtain ⟨signo, next⟩ := handler
      rw [List.map_cons, List.sum_cons] at hsum
      cases next with
      | store => simp [HandlerStep.load] at hsum
      | wake => simp [HandlerStep.load] at hsum
  refine ⟨List.eq_nil_of_length_eq_zero (by omega), fun thread => ?_⟩
  cases thread with
  | loop => exact hempty _ (by omega)
  | worker => exact hempty _ (by omega)

theorem Inv.stored (h : s.Inv) (hload : s.load = 0) (hunseen : s.unseen flag = true) :
    (s.flags flag).isSome = true ∧ (0 < s.pipeBytes ∨ s.phase.Ahead flag) := by
  obtain ⟨hpending, hhandlers⟩ := eq_nil_of_load hload
  have hset : (s.flags flag).isSome = true := by
    rcases h.visible flag hunseen with ⟨signo, hmem, -⟩ | ⟨thread, handler, hmem, -⟩ | hset
    · rw [hpending] at hmem
      cases hmem
    · rw [hhandlers thread] at hmem
      cases hmem
    · exact hset
  refine ⟨hset, (h.woken flag hset).imp_left fun hwaking => ?_⟩
  rcases hwaking with hbytes | ⟨thread, handler, hmem, -⟩
  · exact hbytes
  · rw [hhandlers thread] at hmem
    cases hmem

theorem advance_distance (h : s.Inv) (hunseen : s.unseen flag = true)
    (hs : s.advance = some s') : s'.distance flag < s.distance flag := by
  have hload := advance_load hs
  unfold distance
  rw [if_pos hunseen, hload]
  by_cases hquiet : s.load = 0
  · rw [if_pos hquiet, if_pos hquiet]
    by_cases hclear : ∃ saved, s.phase = .take flag (.clear saved)
    · obtain ⟨saved, hphase⟩ := hclear
      have hset := (h.stored hquiet hunseen).1
      cases saved with
      | none =>
        rw [h.emptied flag hphase] at hset
        cases hset
      | some signo =>
        rw [advance, hphase] at hs
        cases hs
        rw [if_neg]
        · omega
        · simp
    · have htake := toTake_advance hs (not_exists.1 hclear)
      split <;> omega
  · rw [if_neg hquiet, if_neg hquiet]
    have hwait := toWait_advance hs
    split <;> omega

theorem progress (h : s.Inv) (hunseen : s.unseen flag = true) (hstopped : s.phase ≠ .stopped) :
    ∃ e s', e.Own ∧ s.calmStep e = some s' ∧ s'.phase ≠ .stopped ∧
      s'.distance flag < s.distance flag := by
  cases hloop : s.handlers .loop with
  | cons handler outer =>
    obtain ⟨s', hs⟩ := exists_handle hloop
    obtain ⟨hload, hbytes, hphase, -⟩ := handle_load hs
    exact ⟨.handler .loop, s', trivial, calmStep_of_step rfl hs, hphase ▸ hstopped,
      distance_lt_of_load hunseen hload hbytes⟩
  | nil =>
    by_cases hwait : s.phase = .wait
    · cases hworker : s.handlers .worker with
      | cons handler outer =>
        obtain ⟨s', hs⟩ := exists_handle hworker
        obtain ⟨hload, hbytes, hphase, -⟩ := handle_load hs
        have hraces : s.races (.handler .worker) = false := by rw [races, hwait]
        exact ⟨.handler .worker, s', trivial, calmStep_of_step hraces hs, hphase ▸ hstopped,
          distance_lt_of_load hunseen hload hbytes⟩
      | nil =>
        cases hpending : s.pending with
        | cons signo pending =>
          have hdeliver : signo ∈ s.pending ∧ s.blocks .loop signo = false := by
            refine ⟨hpending ▸ List.mem_cons_self, ?_⟩
            rw [blocks, hwait, hloop]
            rfl
          refine ⟨.deliver .loop signo, _, trivial, calmStep_of_step rfl (if_pos hdeliver),
            hstopped, distance_lt_of_load hunseen ?_ (Nat.le_succ _)⟩
          simp [load, hpending, hloop, HandlerStep.load]
          omega
        | nil =>
          have hload : s.load = 0 := by
            rw [load, hpending, hloop, hworker]
            rfl
          have hbytes : 0 < s.pipeBytes := by
            rcases (h.stored hload hunseen).2 with hbytes | hahead
            · exact hbytes
            · rw [hwait] at hahead
              exact hahead.elim
          refine ⟨.wake, _, trivial, calmStep_of_step rfl (if_pos ⟨hwait, hloop, hbytes⟩),
            (fun heq => by cases heq), ?_⟩
          have hsame : ({ s with phase := .drain } : Wakeup).load = s.load := rfl
          have htake : LoopPhase.drain.toTake flag < LoopPhase.wait.toTake flag := by
            have hdrain : LoopPhase.drain.place = 1 := rfl
            have hstart : LoopPhase.wait.place = 0 := rfl
            rw [LoopPhase.toTake, LoopPhase.toTake, hdrain, hstart, if_pos (by omega),
              if_pos (by omega)]
            omega
          unfold distance
          rw [if_pos hunseen, if_pos hunseen, hsame, if_pos hload, if_pos hload, hwait]
          dsimp only
          omega
    · obtain ⟨s', hs, hstopped'⟩ := exists_advance hwait hstopped
      exact ⟨.loop, s', trivial, calmStep_of_step rfl ((if_pos hloop).trans hs), hstopped',
        advance_distance h hunseen hs⟩

/-- In every run in which no handler on the worker stores into the window between a read of an empty
variable and its clearing, a signal that the daemon has not acted on is still to be seen; if the
loop waits, the kernel has it, its handler is on its way or the pipe is or becomes readable; and
unless the daemon stops, the kernel, the handlers and the loop go on until the daemon takes it, with
no timer to help. -/
theorem signal_taken {events : List Event} (h : Transitions.Run calmStep {} events s)
    (hunseen : s.unseen flag = true) :
    s.Visible flag ∧
    (s.phase = .wait → (∃ signo ∈ s.pending, signo.flag = flag) ∨
      (∃ thread, ∃ handler ∈ s.handlers thread,
        handler.next = .store ∧ handler.signo.flag = flag) ∨ s.Waking) ∧
    (s.phase ≠ .stopped → ∃ more s', Transitions.Run calmStep s more s' ∧
      (∀ event ∈ more, event.Own) ∧ s'.unseen flag = false) := by
  have hinv : s.Inv := h.invariant Inv (fun _ _ _ hi hs => calmStep_inv hi hs) start_inv
  have hvisible := hinv.visible flag hunseen
  refine ⟨hvisible, fun hwait => ?_, fun hstopped => ?_⟩
  · rcases hvisible with hpending | hstoring | hset
    · exact .inl hpending
    · exact .inr (.inl hstoring)
    · rcases hinv.woken flag hset with hwaking | hahead
      · exact .inr (.inr hwaking)
      · rw [hwait] at hahead
        exact hahead.elim
  · have hgood : ∀ t : Wakeup, t.Inv ∧ t.phase ≠ .stopped → ¬t.unseen flag = false →
        ∃ event t', event.Own ∧ t.calmStep event = some t' ∧ (t'.Inv ∧ t'.phase ≠ .stopped) ∧
          t'.distance flag < t.distance flag := by
      rintro t ⟨hi, hphase⟩ hfinal
      obtain ⟨event, t', he, ht, hphase', hless⟩ :=
        progress hi (Bool.not_eq_false _ ▸ hfinal) hphase
      exact ⟨event, t', he, ht, ⟨calmStep_inv hi ht, hphase'⟩, hless⟩
    obtain ⟨more, s', hrun, hmore, -, hseen⟩ :=
      Transitions.Run.reaches (distance flag) hgood ⟨hinv, hstopped⟩
    exact ⟨more, s', hrun, hmore, hseen⟩

/-- A child ends while the loop reads the variable of an earlier signal. -/
def lateChild : List Event :=
  List.replicate 6 Event.loop ++ [Event.send .sigchld]

theorem signal_taken_late : ∃ s, Transitions.Run calmStep {} lateChild s ∧
    s.phase = .take .exitChldSignal (.clear none) ∧ s.Visible .exitChldSignal ∧
    ∃ more s', Transitions.Run calmStep s more s' ∧ (∀ event ∈ more, event.Own) ∧
      s'.unseen .exitChldSignal = false := by
  have hrun : Transitions.Run calmStep {} lateChild _ := .of_after rfl
  refine ⟨_, hrun, rfl, ?_⟩
  obtain ⟨hvisible, -, hgoes⟩ := @signal_taken _ .exitChldSignal _ hrun rfl
  exact ⟨hvisible, hgoes fun heq => by cases heq⟩

/-- The daemon has not acted on a signal that is nowhere to be seen. -/
def Lost (s : Wakeup) (flag : Flag) : Prop :=
  s.unseen flag = true ∧ ¬s.Visible flag ∧ ∀ signo, s.phase ≠ .take flag (.clear (some signo))

theorem not_visible (h : ¬s.Visible flag) :
    (∀ signo ∈ s.pending, signo.flag ≠ flag) ∧
    (∀ thread, ∀ handler ∈ s.handlers thread, handler.next = .store →
      handler.signo.flag ≠ flag) ∧
    s.flags flag = none :=
  ⟨fun signo hmem hflag => h (.inl ⟨signo, hmem, hflag⟩),
    fun thread handler hmem hnext hflag => h (.inr (.inl ⟨thread, handler, hmem, hnext, hflag⟩)),
    Option.not_isSome_iff_eq_none.1 fun hset => h (.inr (.inr hset))⟩

theorem advance_lost (h : s.Lost flag) (hs : s.advance = some s') : s'.Lost flag := by
  obtain ⟨hunseen, hvisible, hphase⟩ := h
  obtain ⟨-, -, hempty⟩ := not_visible hvisible
  rw [advance] at hs
  split at hs
  case h_1 => cases hs
  case h_2 =>
    split at hs
    · cases hs
      exact ⟨hunseen, hvisible, fun _ heq => by cases heq⟩
    · cases hs
      exact ⟨hunseen, hvisible, hphase⟩
  case h_3 =>
    cases hs
    exact ⟨hunseen, hvisible, fun _ heq => by cases heq⟩
  case h_4 current _ =>
    cases hs
    refine ⟨hunseen, hvisible, fun signo heq => ?_⟩
    injection heq with hflag hsaved
    injection hsaved with hsaved
    rw [hflag, hempty] at hsaved
    cases hsaved
  case h_5 current saved hat =>
    cases hs
    refine ⟨?_, fun hvisible' => hvisible ?_, fun _ heq => by cases heq⟩
    · dsimp only
      split
      · rename_i hsome
        obtain ⟨signo, rfl⟩ := Option.isSome_iff_exists.1 hsome
        have hother : flag ≠ current := by
          rintro rfl
          exact hphase signo hat
        rw [Function.update_of_ne hother]
        exact hunseen
      · exact hunseen
    · rcases hvisible' with hpending | hhandler | hset
      · exact .inl hpending
      · exact .inr (.inl hhandler)
      · refine .inr (.inr ?_)
        dsimp only at hset
        by_cases hflag : flag = current
        · rw [hflag, Function.update_self] at hset
          cases hset
        · rwa [Function.update_of_ne hflag] at hset
  case h_6 current _ _ =>
    cases hs
    exact ⟨hunseen, hvisible, fun _ heq => by cases current <;> cases heq⟩
  case h_7 =>
    cases hs
    exact ⟨hunseen, hvisible, fun _ heq => by cases heq⟩
  case h_8 => cases hs

theorem handle_lost (h : s.Lost flag) (hs : s.handle thread = some s') : s'.Lost flag := by
  obtain ⟨hunseen, hvisible, hphase⟩ := h
  obtain ⟨hpending, hhandlers, hempty⟩ := not_visible hvisible
  have hupdate : ∀ l, (∀ handler ∈ l, handler.next = .store → handler.signo.flag ≠ flag) →
      ∀ other, ∀ handler ∈ Function.update s.handlers thread l other,
        handler.next = .store → handler.signo.flag ≠ flag := by
    intro l hl other handler hmem
    by_cases hother : other = thread
    · subst hother
      rw [Function.update_self] at hmem
      exact hl handler hmem
    · rw [Function.update_of_ne hother] at hmem
      exact hhandlers other handler hmem
  rcases handle_cases hs with ⟨signo, outer, houter, rfl⟩ | ⟨signo, outer, houter, rfl⟩
  · have hother : signo.flag ≠ flag :=
      hhandlers thread ⟨signo, .store⟩ (houter ▸ List.mem_cons_self) rfl
    refine ⟨hunseen, fun hvisible' => ?_, hphase⟩
    rcases hvisible' with ⟨signo', hmem, hflag⟩ | ⟨other, handler, hmem, hnext, hflag⟩ | hset
    · exact hpending signo' hmem hflag
    · refine hupdate (⟨signo, .wake⟩ :: outer) (fun handler' hmem' hnext' => ?_) other handler hmem
        hnext hflag
      rcases List.mem_cons.1 hmem' with rfl | hmem'
      · cases hnext'
      · exact hhandlers thread handler' (houter ▸ List.mem_cons_of_mem _ hmem') hnext'
    · dsimp only at hset
      rw [Function.update_of_ne (Ne.symm hother), hempty] at hset
      cases hset
  · refine ⟨hunseen, fun hvisible' => ?_, hphase⟩
    rcases hvisible' with ⟨signo', hmem, hflag⟩ | ⟨other, handler, hmem, hnext, hflag⟩ | hset
    · exact hpending signo' hmem hflag
    · exact hupdate outer (fun handler' hmem' =>
        hhandlers thread handler' (houter ▸ List.mem_cons_of_mem _ hmem')) other handler hmem
        hnext hflag
    · exact hvisible (.inr (.inr hset))

theorem step_lost (h : s.Lost flag) (hs : s.step e = some s')
    (hsend : ∀ signo, e = .send signo → signo.flag ≠ flag) : s'.Lost flag := by
  cases e with
  | send signo =>
    obtain ⟨hunseen, hvisible, hphase⟩ := h
    have hother := hsend signo rfl
    cases hs
    refine ⟨?_, fun hvisible' => hvisible ?_, hphase⟩
    · dsimp only
      rw [Function.update_of_ne (Ne.symm hother)]
      exact hunseen
    · rcases hvisible' with ⟨signo', hmem, hflag⟩ | hrest
      · refine .inl ⟨signo', ?_, hflag⟩
        dsimp only at hmem
        split at hmem
        · exact hmem
        · rcases List.mem_cons.1 hmem with rfl | hmem
          · exact absurd hflag hother
          · exact hmem
      · exact .inr hrest
  | deliver thread signo =>
    obtain ⟨hunseen, hvisible, hphase⟩ := h
    obtain ⟨hpending, hhandlers, -⟩ := not_visible hvisible
    rw [step] at hs
    split at hs
    · rename_i hdeliver
      cases hs
      refine ⟨hunseen, fun hvisible' => ?_, hphase⟩
      rcases hvisible' with ⟨signo', hmem, hflag⟩ | ⟨other, handler, hmem, hnext, hflag⟩ | hset
      · exact hpending signo' (List.mem_of_mem_erase hmem) hflag
      · dsimp only at hmem
        by_cases hother : other = thread
        · subst hother
          rw [Function.update_self] at hmem
          rcases List.mem_cons.1 hmem with rfl | hmem
          · exact hpending signo hdeliver.1 hflag
          · exact hhandlers other handler hmem hnext hflag
        · rw [Function.update_of_ne hother] at hmem
          exact hhandlers other handler hmem hnext hflag
      · exact hvisible (.inr (.inr hset))
    · cases hs
  | handler thread => exact handle_lost h hs
  | childWakes =>
    cases hs
    exact h
  | workerStarts =>
    rw [step] at hs
    split at hs
    · cases hs
      exact h
    · cases hs
  | workerEnds =>
    rw [step] at hs
    split at hs
    · cases hs
      exact h
    · cases hs
  | wake =>
    rw [step] at hs
    split at hs
    · cases hs
      exact ⟨h.1, h.2.1, fun _ heq => by cases heq⟩
    · cases hs
  | timer =>
    rw [step] at hs
    split at hs
    · cases hs
      exact ⟨h.1, h.2.1, fun _ heq => by cases heq⟩
    · cases hs
  | loop =>
    rw [step] at hs
    split at hs
    · exact advance_lost h hs
    · cases hs
  | quit =>
    rw [step] at hs
    split at hs
    · cases hs
      exact ⟨h.1, h.2.1, fun _ heq => by cases heq⟩
    · cases hs

theorem run_lost {more : List Event} (h : s.Lost flag) (hrun : Transitions.Run step s more s')
    (hsend : ∀ signo, .send signo ∈ more → signo.flag ≠ flag) : s'.Lost flag := by
  induction hrun with
  | nil => exact h
  | snoc _ hs ih =>
    have hbefore := ih fun signo hmem => hsend signo (List.mem_append_left _ hmem)
    exact step_lost hbefore hs fun signo he =>
      hsend signo (List.mem_append_right _ (he ▸ List.mem_cons_self))

def racingStore (signo : Signo) : List Event :=
  List.replicate 17 Event.loop ++ [Event.workerStarts, .timer] ++
    List.replicate (4 * signo.flag.place + 2) Event.loop ++
    [Event.send signo, .deliver .worker signo, .handler .worker, .loop, .handler .worker] ++
    List.replicate (14 - 4 * signo.flag.place) Event.loop ++ [Event.wake] ++
    List.replicate 19 Event.loop

/-- Every signal of the daemon can be lost while a save runs: its handler on the worker is through,
the byte in the pipe has woken the loop, and the daemon will not act on the signal, whatever
happens, before another of the kind is sent. -/
theorem signal_lost (signo : Signo) :
    ∃ events s, Transitions.Run step {} events s ∧ events.count (.send signo) = 1 ∧
      s.phase = .wait ∧ s.pipeBytes = 0 ∧ s.load = 0 ∧
      ∀ more s', Transitions.Run step s more s' →
        (∀ other, .send other ∈ more → other.flag ≠ signo.flag) → s'.unseen signo.flag = true := by
  have hlost : ∃ s, Transitions.Run step {} (racingStore signo) s ∧ s.phase = .wait ∧
      s.pipeBytes = 0 ∧ s.load = 0 ∧ s.unseen signo.flag = true ∧ s.flags signo.flag = none := by
    cases signo <;> exact ⟨_, .of_after rfl, rfl, rfl, rfl, rfl, rfl⟩
  obtain ⟨s, hrun, hphase, hbytes, hload, hunseen, hempty⟩ := hlost
  refine ⟨racingStore signo, s, hrun, ?_, hphase, hbytes, hload, fun more s' hmore hsend => ?_⟩
  · cases signo <;> rfl
  · obtain ⟨hpending, hhandlers⟩ := eq_nil_of_load hload
    have hvisible : ¬s.Visible signo.flag := by
      rintro (⟨other, hmem, -⟩ | ⟨thread, handler, hmem, -⟩ | hset)
      · rw [hpending] at hmem
        cases hmem
      · rw [hhandlers thread] at hmem
        cases hmem
      · rw [hempty] at hset
        cases hset
    have hlost : s.Lost signo.flag :=
      ⟨hunseen, hvisible, fun _ heq => by rw [hphase] at heq; cases heq⟩
    exact (run_lost hlost hmore hsend).1

end Wakeup
end PmTiny.Signals
