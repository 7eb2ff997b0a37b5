import Mathlib.Algebra.Group.Int.Defs
import Mathlib.Data.List.Induction
import PmTiny.Core.TerminationJob

namespace PmTiny
set_option autoImplicit true

namespace TerminationJob

inductive Call where
  | request (generation : Nat) (nowMs timeoutSec : Int)
  | force (generation : Nat)
  | markTreeDraining (generation : Nat) (nowMs timeoutSec : Int)
  | poll (generation : Nat) (nowMs : Int) (treeEmpty : Bool)
  deriving DecidableEq, Repr

namespace Call

def generation : Call → Nat
  | .request generation _ _ => generation
  | .force generation => generation
  | .markTreeDraining generation _ _ => generation
  | .poll generation _ _ => generation

/-- Only polls and forces are made for other generations than `g`. -/
def Admissible (g : Nat) : Call → Prop
  | .request generation _ _ => generation = g
  | .markTreeDraining generation _ _ => generation = g
  | .force generation => 0 < generation
  | .poll generation _ _ => 0 < generation

instance (g : Nat) : DecidablePred (Admissible g)
  | .request generation _ _ => inferInstanceAs (Decidable (generation = g))
  | .markTreeDraining generation _ _ => inferInstanceAs (Decidable (generation = g))
  | .force generation => inferInstanceAs (Decidable (0 < generation))
  | .poll generation _ _ => inferInstanceAs (Decidable (0 < generation))

/-- The deadline that a request or a drain sets when it is the first one. -/
def deadlineMs : Call → Option Int
  | .request _ nowMs timeoutSec => some (nowMs + timeoutOf timeoutSec)
  | .markTreeDraining _ nowMs timeoutSec => some (nowMs + timeoutOf timeoutSec)
  | .force _ => none
  | .poll _ _ _ => none

/-- The time is an `int64_t` value, and so is the deadline that it sets. -/
def Timed : Call → Prop
  | .request _ nowMs timeoutSec => -2 ^ 63 ≤ nowMs ∧ nowMs + timeoutOf timeoutSec < 2 ^ 63
  | .markTreeDraining _ nowMs timeoutSec => -2 ^ 63 ≤ nowMs ∧ nowMs + timeoutOf timeoutSec < 2 ^ 63
  | .force _ => True
  | .poll _ nowMs _ => -2 ^ 63 ≤ nowMs ∧ nowMs < 2 ^ 63

instance : DecidablePred Timed
  | .request _ _ _ => inferInstanceAs (Decidable (_ ∧ _))
  | .markTreeDraining _ _ _ => inferInstanceAs (Decidable (_ ∧ _))
  | .force _ => inferInstanceAs (Decidable True)
  | .poll _ _ _ => inferInstanceAs (Decidable (_ ∧ _))

def isRequest : Call → Bool
  | .request _ _ _ => true
  | _ => false

def isPoll : Call → Bool
  | .poll _ _ _ => true
  | _ => false

end Call

def apply (job : TerminationJob) : Call → TerminationAction × TerminationJob
  | .request generation nowMs timeoutSec => job.request generation nowMs timeoutSec
  | .force generation => job.force generation
  | .markTreeDraining generation nowMs timeoutSec =>
    job.markTreeDraining generation nowMs timeoutSec
  | .poll generation nowMs treeEmpty => job.poll generation nowMs treeEmpty

def runCalls (job : TerminationJob) (calls : List Call) : TerminationJob :=
  calls.foldl (fun job call => (job.apply call).2) job

/-- A call with the action that was returned. -/
abbrev Answer : Type := Call × TerminationAction

def answers (job : TerminationJob) : List Call → List Answer
  | [] => []
  | call :: calls => (call, (job.apply call).1) :: (job.apply call).2.answers calls

def deadlineOf (history : List Answer) : Option Int :=
  history.findSome? fun answer => answer.1.deadlineMs

/-- The termination of the generation `g` asks once, kills once and not too early, and ends once. -/
structure Disciplined (g : Nat) (calls : List Call) (history : List Answer) : Prop where
  requestOnce :
    (history.countP fun answer => answer.1.isRequest && answer.2 = .sendTerm) ≤ 1
  killOnce : (history.countP fun answer => answer.1.isPoll && answer.2 = .sendKill) ≤ 1
  killDue : ∀ before generation nowMs treeEmpty rest,
    history = before ++ (Call.poll generation nowMs treeEmpty, .sendKill) :: rest →
      ∃ deadline, deadlineOf before = some deadline ∧ deadline ≤ nowMs
  killUnforced : ∀ early action between nowMs treeEmpty rest,
    history = early ++ (Call.force g, action) :: between ++
      (Call.poll g nowMs treeEmpty, .sendKill) :: rest → deadlineOf early = none
  killed : ∀ before nowMs action rest deadline,
    history = before ++ (Call.poll g nowMs false, action) :: rest →
      deadlineOf before = some deadline → deadline ≤ nowMs →
        (∀ answer ∈ before, answer.2 ≠ .sendKill ∧ answer.2 ≠ .complete) → action = .sendKill
  completeOnce : (history.countP fun answer => answer.2 = .complete) ≤ 1
  completeEmpty : ∀ before call rest, history = before ++ (call, .complete) :: rest →
    (∃ nowMs, call = .poll g nowMs true) ∧ (deadlineOf before).isSome = true
  quiet : ∀ before call rest, history = before ++ (call, .complete) :: rest →
    ∀ answer ∈ rest, answer.2 = .none
  otherNone : ∀ answer ∈ history, answer.1.generation ≠ g → answer.2 = .none
  otherIgnored :
    answers {} (calls.filter fun call => call.generation = g) =
      history.filter fun answer => answer.1.generation = g
  otherUnchanged :
    runCalls {} (calls.filter fun call => call.generation = g) = runCalls {} calls

/-- The first request or drain was made, and there was no reason to kill since. -/
structure Waiting (g : Nat) (history : List Answer) (job : TerminationJob) : Prop where
  generation : job.generation = g
  opened : deadlineOf history = some job.deadlineMs
  phase : job.phase = .termRequested ∨ job.phase = .treeDraining
  early : ∀ answer ∈ history, answer.2 ≠ .sendKill ∧ answer.2 ≠ .complete
  unforced : ∀ before action rest, history = before ++ (Call.force g, action) :: rest →
    deadlineOf before = none

structure Killed (g : Nat) (history : List Answer) (job : TerminationJob) : Prop where
  generation : job.generation = g
  opened : (deadlineOf history).isSome = true
  phase : job.phase = .forceKillRequested
  killed : ∃ answer ∈ history, answer.2 = .sendKill
  running : ∀ answer ∈ history, answer.2 ≠ .complete

structure Completed (g : Nat) (history : List Answer) (job : TerminationJob) : Prop where
  generation : job.generation = g
  opened : (deadlineOf history).isSome = true
  phase : job.phase = .completed
  completed : ∃ answer ∈ history, answer.2 = .complete

/-- What the job knows of the calls that gave `history`. -/
inductive Tracks (g : Nat) (history : List Answer) : TerminationJob → Prop where
  | idle (hopened : deadlineOf history = none) (hnone : ∀ answer ∈ history, answer.2 = .none) :
      Tracks g history {}
  | waiting (h : Waiting g history job) : Tracks g history job
  | killed (h : Killed g history job) : Tracks g history job
  | completed (h : Completed g history job) : Tracks g history job

theorem snoc_eq_split (h : history ++ [last] = before ++ answer :: rest) :
    (rest = [] ∧ before = history ∧ answer = last) ∨
      ∃ rest', rest = rest' ++ [last] ∧ history = before ++ answer :: rest' := by
  rcases List.eq_nil_or_concat rest with hrest | ⟨rest', last', hrest⟩
  · subst hrest
    obtain ⟨hbefore, hlast⟩ := List.append_inj' h rfl
    exact .inl ⟨rfl, hbefore.symm, (List.cons.inj hlast).1.symm⟩
  · subst hrest
    rw [List.concat_eq_append] at h ⊢
    rw [← List.cons_append, ← List.append_assoc] at h
    obtain ⟨hhistory, hlast⟩ := List.append_inj' h rfl
    cases hlast
    exact .inr ⟨rest', rfl, hhistory⟩

theorem forall_mem_snoc {P : Answer → Prop} (h : ∀ answer ∈ history, P answer) (hlast : P last) :
    ∀ answer ∈ history ++ [last], P answer := by
  intro answer hanswer
  rcases List.mem_append.1 hanswer with hold | hnew
  · exact h answer hold
  · rw [List.mem_singleton.1 hnew]
    exact hlast

theorem deadlineOf_append (history : List Answer) (answer : Answer) :
    deadlineOf (history ++ [answer]) = (deadlineOf history).or answer.1.deadlineMs := by
  rw [deadlineOf, List.findSome?_append, List.findSome?_singleton, deadlineOf]

theorem deadlineOf_prefix (h : deadlineOf (before ++ rest) = none) : deadlineOf before = none := by
  rw [deadlineOf, List.findSome?_append, Option.or_eq_none_iff] at h
  exact h.1

theorem markTreeDraining_active {job : TerminationJob} {g : Nat} (hphase : job.phase ≠ .none)
    (hgeneration : job.generation = g) (nowMs timeoutSec : Int) :
    job.markTreeDraining g nowMs timeoutSec =
      if job.phase = .completed ∨ job.phase = .forceKillRequested then (.none, job)
      else (.sendTerm, { job with phase := .treeDraining }) := by
  rw [markTreeDraining, if_neg (not_or_intro hphase (not_not_intro hgeneration))]

theorem poll_empty {job : TerminationJob} {g : Nat} (hgeneration : job.generation = g)
    (hphase : ¬ (job.phase = .none ∨ job.phase = .completed)) (nowMs : Int) :
    job.poll g nowMs true = (.complete, { job with phase := .completed }) := by
  rw [poll, if_neg (not_not_intro hgeneration), if_pos rfl, if_neg hphase]

theorem poll_running {job : TerminationJob} {g : Nat} (hgeneration : job.generation = g)
    (nowMs : Int) : job.poll g nowMs false =
      if (job.phase = .termRequested ∨ job.phase = .treeDraining) ∧ nowMs ≥ job.deadlineMs then
        (.sendKill, { job with phase := .forceKillRequested })
      else (.none, job) := by
  rw [poll, if_neg (not_not_intro hgeneration), if_neg Bool.false_ne_true]

theorem apply_other {job : TerminationJob} (hcall : call.Admissible g)
    (hgeneration : job.generation = 0 ∨ job.generation = g) (hother : call.generation ≠ g) :
    job.apply call = (.none, job) := by
  have hne (generation : Nat) (hpos : 0 < generation) (hother : generation ≠ g) :
      job.generation ≠ generation := by
    omega
  cases call with
  | request generation nowMs timeoutSec => exact absurd hcall hother
  | markTreeDraining generation nowMs timeoutSec => exact absurd hcall hother
  | force generation => exact if_pos (.inl (hne generation hcall hother))
  | poll generation nowMs treeEmpty => exact if_pos (hne generation hcall hother)

theorem Tracks.generation (h : Tracks g history job) : job.generation = 0 ∨ job.generation = g := by
  cases h with
  | idle hopened hnone => exact .inl rfl
  | waiting h => exact .inr h.generation
  | killed h => exact .inr h.generation
  | completed h => exact .inr h.generation

theorem Tracks.stay (h : Tracks g history job)
    (hopens : call.deadlineMs = none ∨ (deadlineOf history).isSome = true)
    (hforce : call = .force g → ¬ Waiting g history job) :
    Tracks g (history ++ [(call, .none)]) job := by
  have hdeadline : deadlineOf (history ++ [(call, .none)]) = deadlineOf history := by
    rw [deadlineOf_append]
    rcases hopens with hnone | hsome
    · rw [hnone, Option.or_none]
    · exact Option.or_of_isSome hsome
  cases h with
  | idle hopened hnone => exact .idle (hdeadline.trans hopened) (forall_mem_snoc hnone rfl)
  | waiting h =>
    refine .waiting ⟨h.generation, hdeadline.trans h.opened, h.phase, ?_, ?_⟩
    · apply forall_mem_snoc h.early
      exact ⟨TerminationAction.noConfusion, TerminationAction.noConfusion⟩
    · intro before action rest hsplit
      rcases snoc_eq_split hsplit with ⟨-, -, hanswer⟩ | ⟨rest', -, hsplit⟩
      · exact absurd h (hforce (Prod.mk.inj hanswer).1.symm)
      · exact h.unforced before action rest' hsplit
  | killed h =>
    obtain ⟨answer, hmem, hkill⟩ := h.killed
    refine .killed ⟨h.generation, ?_, h.phase, ⟨answer, List.mem_append_left _ hmem, hkill⟩, ?_⟩
    · rw [hdeadline]
      exact h.opened
    · exact forall_mem_snoc h.running TerminationAction.noConfusion
  | completed h =>
    obtain ⟨answer, hmem, hcomplete⟩ := h.completed
    refine .completed ⟨h.generation, ?_, h.phase, answer, List.mem_append_left _ hmem, hcomplete⟩
    rw [hdeadline]
    exact h.opened

theorem Tracks.apply_none (h : Tracks g history job) (happly : job.apply call = (.none, job))
    (hopens : call.deadlineMs = none ∨ (deadlineOf history).isSome = true)
    (hforce : call = .force g → ¬ Waiting g history job) :
    Tracks g (history ++ [(call, (job.apply call).1)]) (job.apply call).2 := by
  rw [happly]
  exact h.stay hopens hforce

theorem tracks_open (hgeneration : job.generation = g)
    (hphase : job.phase = .termRequested ∨ job.phase = .treeDraining)
    (hopened : deadlineOf history = none) (hnone : ∀ answer ∈ history, answer.2 = .none)
    (hdeadline : call.deadlineMs = some job.deadlineMs) :
    Tracks g (history ++ [(call, .sendTerm)]) job := by
  refine .waiting ⟨hgeneration, ?_, hphase, forall_mem_snoc ?_ ?_, ?_⟩
  · rw [deadlineOf_append, hopened]
    exact hdeadline
  · intro answer hanswer
    rw [hnone answer hanswer]
    exact ⟨TerminationAction.noConfusion, TerminationAction.noConfusion⟩
  · exact ⟨TerminationAction.noConfusion, TerminationAction.noConfusion⟩
  · intro before action rest hsplit
    rcases snoc_eq_split hsplit with ⟨-, hbefore, -⟩ | ⟨rest', -, hsplit⟩
    · rw [hbefore]
      exact hopened
    · rw [hsplit] at hopened
      exact deadlineOf_prefix hopened

theorem tracks_apply_idle (hopened : deadlineOf history = none)
    (hnone : ∀ answer ∈ history, answer.2 = .none) (hg : 0 < call.generation) :
    Tracks call.generation (history ++ [(call, (({} : TerminationJob).apply call).1)])
      (({} : TerminationJob).apply call).2 := by
  have hzero : 0 ≠ call.generation := Nat.ne_of_lt hg
  have hwaiting : ¬ Waiting call.generation history {} := by
    intro h
    exact h.phase.elim TerminationPhase.noConfusion TerminationPhase.noConfusion
  cases call with
  | request generation nowMs timeoutSec =>
    exact tracks_open rfl (.inl rfl) hopened hnone rfl
  | markTreeDraining generation nowMs timeoutSec =>
    exact tracks_open rfl (.inr rfl) hopened hnone rfl
  | force generation =>
    exact (Tracks.idle hopened hnone).apply_none (if_pos (.inl hzero)) (.inl rfl) fun _ => hwaiting
  | poll generation nowMs treeEmpty =>
    exact (Tracks.idle hopened hnone).apply_none (if_pos hzero) (.inl rfl) fun _ => hwaiting

theorem Waiting.phase_ne {other : TerminationPhase} (h : Waiting g history job)
    (hterm : .termRequested ≠ other) (hdraining : .treeDraining ≠ other) : job.phase ≠ other := by
  rcases h.phase with hphase | hphase
  · rw [hphase]
    exact hterm
  · rw [hphase]
    exact hdraining

theorem Waiting.isSome (h : Waiting g history job) : (deadlineOf history).isSome = true := by
  rw [h.opened]
  rfl

/-- A drain only changes the phase: the deadline stays that of the first call. -/
theorem Waiting.drain (h : Waiting g history job) :
    Tracks g (history ++ [(Call.markTreeDraining g nowMs timeoutSec, .sendTerm)])
      { job with phase := .treeDraining } := by
  refine .waiting ⟨h.generation, ?_, .inr rfl, forall_mem_snoc h.early ?_, ?_⟩
  · rw [deadlineOf_append, h.opened]
    rfl
  · exact ⟨TerminationAction.noConfusion, TerminationAction.noConfusion⟩
  · intro before action rest hsplit
    rcases snoc_eq_split hsplit with ⟨-, -, hanswer⟩ | ⟨rest', -, hsplit⟩
    · exact Call.noConfusion (Prod.mk.inj hanswer).1
    · exact h.unforced before action rest' hsplit

theorem Waiting.kill (h : Waiting g history job) (call : Call) :
    Tracks g (history ++ [(call, .sendKill)]) { job with phase := .forceKillRequested } := by
  refine .killed ⟨h.generation, ?_, rfl,
    ⟨_, List.mem_append_right _ (List.mem_singleton_self _), rfl⟩,
    forall_mem_snoc (fun answer hanswer =>
      (h.early answer hanswer).2) TerminationAction.noConfusion⟩
  rw [deadlineOf_append, Option.or_of_isSome h.isSome]
  exact h.isSome

theorem tracks_complete {job : TerminationJob} (hgeneration : job.generation = g)
    (hopened : (deadlineOf history).isSome = true) (call : Call) :
    Tracks g (history ++ [(call, .complete)]) { job with phase := .completed } := by
  refine .completed
    ⟨hgeneration, ?_, rfl, _, List.mem_append_right _ (List.mem_singleton_self _), rfl⟩
  rw [deadlineOf_append, Option.or_of_isSome hopened]
  exact hopened

theorem Waiting.step (h : Waiting call.generation history job) :
    Tracks call.generation (history ++ [(call, (job.apply call).1)]) (job.apply call).2 := by
  have hnone : job.phase ≠ .none :=
    h.phase_ne TerminationPhase.noConfusion TerminationPhase.noConfusion
  have hcompleted : job.phase ≠ .completed :=
    h.phase_ne TerminationPhase.noConfusion TerminationPhase.noConfusion
  have hkilled : job.phase ≠ .forceKillRequested :=
    h.phase_ne TerminationPhase.noConfusion TerminationPhase.noConfusion
  have hgeneration : ¬ job.generation ≠ call.generation := not_not_intro h.generation
  cases call with
  | request generation nowMs timeoutSec =>
    apply (Tracks.waiting h).apply_none
    · exact if_pos ⟨hnone, h.generation⟩
    · exact .inr h.isSome
    · exact fun hforce => Call.noConfusion hforce
  | markTreeDraining generation nowMs timeoutSec =>
    have hsame : job.generation = generation := h.generation
    have happly : job.apply (.markTreeDraining generation nowMs timeoutSec) =
        (.sendTerm, { job with phase := .treeDraining }) := by
      rw [apply, markTreeDraining_active hnone hsame,
        if_neg (not_or_intro hcompleted hkilled)]
    rw [happly]
    exact h.drain
  | force generation =>
    have happly : job.apply (.force generation) =
        (.sendKill, { job with phase := .forceKillRequested }) :=
      if_neg (not_or_intro hgeneration hcompleted)
    rw [happly]
    exact h.kill _
  | poll generation nowMs treeEmpty =>
    have hsame : job.generation = generation := h.generation
    cases treeEmpty with
    | true =>
      rw [apply, poll_empty hsame (not_or_intro hnone hcompleted)]
      exact tracks_complete h.generation h.isSome _
    | false =>
      rw [apply, poll_running hsame]
      split
      · exact h.kill _
      · exact (Tracks.waiting h).stay (.inl rfl) fun hforce => Call.noConfusion hforce

theorem Killed.step (h : Killed call.generation history job) :
    Tracks call.generation (history ++ [(call, (job.apply call).1)]) (job.apply call).2 := by
  have hgeneration : ¬ job.generation ≠ call.generation := not_not_intro h.generation
  have hnone : job.phase ≠ .none := by rw [h.phase]; exact TerminationPhase.noConfusion
  have hcompleted : job.phase ≠ .completed := by rw [h.phase]; exact TerminationPhase.noConfusion
  have hwaiting : ¬ Waiting call.generation history job := by
    intro hwaiting
    exact hwaiting.phase_ne TerminationPhase.noConfusion TerminationPhase.noConfusion h.phase
  cases call with
  | request generation nowMs timeoutSec =>
    exact (Tracks.killed h).apply_none (if_pos ⟨hnone, h.generation⟩) (.inr h.opened) fun _ =>
      hwaiting
  | markTreeDraining generation nowMs timeoutSec =>
    have hsame : job.generation = generation := h.generation
    apply (Tracks.killed h).apply_none _ (.inr h.opened) fun _ => hwaiting
    rw [apply, markTreeDraining_active hnone hsame, if_pos (.inr h.phase)]
  | force generation =>
    have happly : job.apply (.force generation) =
        (.sendKill, { job with phase := .forceKillRequested }) :=
      if_neg (not_or_intro hgeneration hcompleted)
    rw [happly]
    refine .killed
      ⟨h.generation, ?_, rfl, ?_, forall_mem_snoc h.running TerminationAction.noConfusion⟩
    · rw [deadlineOf_append, Option.or_of_isSome h.opened]
      exact h.opened
    · exact ⟨_, List.mem_append_right _ (List.mem_singleton_self _), rfl⟩
  | poll generation nowMs treeEmpty =>
    have hsame : job.generation = generation := h.generation
    cases treeEmpty with
    | true =>
      rw [apply, poll_empty hsame (not_or_intro hnone hcompleted)]
      exact tracks_complete h.generation h.opened _
    | false =>
      apply (Tracks.killed h).apply_none _ (.inl rfl) fun _ => hwaiting
      rw [apply, poll_running hsame, if_neg]
      rw [h.phase]
      rintro ⟨hphase | hphase, -⟩
      · cases hphase
      · cases hphase

theorem Completed.apply_eq (h : Completed call.generation history job) :
    job.apply call = (.none, job) := by
  have hnone : job.phase ≠ .none := by rw [h.phase]; exact TerminationPhase.noConfusion
  cases call with
  | request generation nowMs timeoutSec => exact if_pos ⟨hnone, h.generation⟩
  | markTreeDraining generation nowMs timeoutSec =>
    have hsame : job.generation = generation := h.generation
    rw [apply, markTreeDraining_active hnone hsame, if_pos (.inl h.phase)]
  | force generation => exact if_pos (.inr h.phase)
  | poll generation nowMs treeEmpty =>
    have hsame : job.generation = generation := h.generation
    cases treeEmpty with
    | true =>
      rw [apply, poll, if_neg (not_not_intro hsame), if_pos rfl, if_pos (.inr h.phase)]
    | false =>
      rw [apply, poll_running hsame, if_neg]
      rw [h.phase]
      rintro ⟨hphase | hphase, -⟩
      · cases hphase
      · cases hphase

theorem Completed.step (h : Completed call.generation history job) :
    Tracks call.generation (history ++ [(call, (job.apply call).1)]) (job.apply call).2 := by
  apply (Tracks.completed h).apply_none h.apply_eq (.inr h.opened)
  intro _ hwaiting
  exact hwaiting.phase_ne TerminationPhase.noConfusion TerminationPhase.noConfusion h.phase

theorem Tracks.step (h : Tracks g history job) (hcall : call.Admissible g) (hg : 0 < g) :
    Tracks g (history ++ [(call, (job.apply call).1)]) (job.apply call).2 := by
  by_cases hother : call.generation = g
  · subst hother
    cases h with
    | idle hopened hnone => exact tracks_apply_idle hopened hnone hg
    | waiting h => exact h.step
    | killed h => exact h.step
    | completed h => exact h.step
  · apply h.apply_none (apply_other hcall h.generation hother)
    · left
      cases call with
      | request generation nowMs timeoutSec => exact absurd hcall hother
      | markTreeDraining generation nowMs timeoutSec => exact absurd hcall hother
      | force generation => rfl
      | poll generation nowMs treeEmpty => rfl
    · rintro rfl
      exact absurd rfl hother

theorem Tracks.run (h : Tracks g history job) (hg : 0 < g)
    (hcalls : ∀ call ∈ calls, call.Admissible g) :
    Tracks g (history ++ job.answers calls) (job.runCalls calls) := by
  induction calls generalizing history job with
  | nil =>
    rw [answers, List.append_nil]
    exact h
  | cons call calls ih =>
    have hstep := h.step (hcalls call List.mem_cons_self) hg
    have hrun := ih hstep fun call hcall => hcalls call (List.mem_cons_of_mem _ hcall)
    rw [List.append_assoc] at hrun
    exact hrun

theorem tracks_fresh : Tracks g [] {} := by
  apply Tracks.idle rfl
  intro answer hanswer
  cases hanswer

theorem answers_eq_split {job : TerminationJob}
    (h : job.answers calls = before ++ (call, action) :: rest) :
    ∃ earlier later, calls = earlier ++ call :: later ∧ before = job.answers earlier ∧
      action = ((job.runCalls earlier).apply call).1 := by
  induction before generalizing job calls with
  | nil =>
    cases calls with
    | nil => cases h
    | cons first calls =>
      obtain ⟨hanswer, -⟩ := List.cons.inj h
      cases hanswer
      exact ⟨[], calls, rfl, rfl, rfl⟩
  | cons answer before ih =>
    cases calls with
    | nil => cases h
    | cons first calls =>
      obtain ⟨hanswer, hrest⟩ := List.cons.inj h
      obtain ⟨earlier, later, hcalls, hbefore, haction⟩ := ih hrest
      refine ⟨first :: earlier, later, ?_, ?_, haction⟩
      · rw [hcalls, List.cons_append]
      · rw [answers, hbefore, hanswer]

theorem tracks_split (hg : 0 < g) (hcalls : ∀ call ∈ calls, call.Admissible g)
    (h : answers {} calls = before ++ (call, action) :: rest) :
    ∃ job, Tracks g before job ∧ call.Admissible g ∧ (job.apply call).1 = action := by
  obtain ⟨earlier, later, hsplit, hbefore, haction⟩ := answers_eq_split h
  subst hsplit hbefore
  have hrun := tracks_fresh.run hg fun call hcall => hcalls call (List.mem_append_left _ hcall)
  rw [List.nil_append] at hrun
  exact ⟨_, hrun, hcalls call (List.mem_append_right _ List.mem_cons_self), haction.symm⟩

theorem countP_le_one {p : Answer → Bool}
    (h : ∀ before answer rest, history = before ++ answer :: rest → p answer = true →
      ∀ earlier ∈ before, p earlier = false) : history.countP p ≤ 1 := by
  induction history using List.reverseRecOn with
  | nil => exact Nat.zero_le _
  | append_singleton history last ih =>
    rw [List.countP_append, List.countP_singleton]
    cases hlast : p last with
    | true =>
      have hnone := h history last [] rfl hlast
      have hzero : history.countP p = 0 :=
        List.countP_eq_zero.2 fun answer hanswer => ne_true_of_eq_false (hnone answer hanswer)
      rw [hzero]
      exact Nat.le_refl _
    | false =>
      apply ih
      intro before answer rest hsplit
      apply h before answer (rest ++ [last])
      rw [hsplit, List.append_assoc, List.cons_append]

theorem poll_eq_sendKill {job : TerminationJob} {generation : Nat}
    (h : (job.poll generation nowMs treeEmpty).1 = .sendKill) :
    job.generation = generation ∧ (job.phase = .termRequested ∨ job.phase = .treeDraining) ∧
      job.deadlineMs ≤ nowMs := by
  rw [poll] at h
  split at h
  · cases h
  · rename_i hgeneration
    split at h
    · split at h
      · cases h
      · cases h
    · split at h
      · rename_i hdue
        exact ⟨Decidable.not_not.1 hgeneration, hdue⟩
      · cases h

theorem apply_eq_complete {job : TerminationJob} (h : (job.apply call).1 = .complete) :
    (∃ nowMs, call = .poll job.generation nowMs true) ∧
      ¬ (job.phase = .none ∨ job.phase = .completed) := by
  cases call with
  | request generation nowMs timeoutSec =>
    rw [apply, request] at h
    split at h
    · cases h
    · cases h
  | force generation =>
    rw [apply, force] at h
    split at h
    · cases h
    · cases h
  | markTreeDraining generation nowMs timeoutSec =>
    unfold apply markTreeDraining at h
    dsimp only at h
    split at h
    · split at h
      · cases h
      · cases h
    · split at h
      · cases h
      · cases h
  | poll generation nowMs treeEmpty =>
    rw [apply, poll] at h
    split at h
    · cases h
    · rename_i hgeneration
      have hsame : job.generation = generation := Decidable.not_not.1 hgeneration
      split at h
      · rename_i hempty
        split at h
        · cases h
        · rename_i hphase
          rw [hempty, hsame]
          exact ⟨⟨nowMs, rfl⟩, hphase⟩
      · split at h
        · cases h
        · cases h

theorem Tracks.waiting_of_phase (h : Tracks g history job)
    (hphase : job.phase = .termRequested ∨ job.phase = .treeDraining) : Waiting g history job := by
  cases h with
  | idle hopened hnone =>
    exact (hphase.elim TerminationPhase.noConfusion TerminationPhase.noConfusion)
  | waiting h => exact h
  | killed h =>
    rw [h.phase] at hphase
    exact (hphase.elim TerminationPhase.noConfusion TerminationPhase.noConfusion)
  | completed h =>
    rw [h.phase] at hphase
    exact (hphase.elim TerminationPhase.noConfusion TerminationPhase.noConfusion)

theorem Tracks.sendKill {generation : Nat} (h : Tracks g history job)
    (haction : (job.apply (.poll generation nowMs treeEmpty)).1 = .sendKill) :
    Waiting g history job ∧ job.deadlineMs ≤ nowMs := by
  obtain ⟨-, hphase, hdue⟩ := poll_eq_sendKill haction
  exact ⟨h.waiting_of_phase hphase, hdue⟩

theorem Tracks.complete (h : Tracks g history job) (haction : (job.apply call).1 = .complete) :
    (∃ nowMs, call = .poll g nowMs true) ∧ (deadlineOf history).isSome = true ∧
      ∀ answer ∈ history, answer.2 ≠ .complete := by
  obtain ⟨hcall, hphase⟩ := apply_eq_complete haction
  cases h with
  | idle hopened hnone => exact absurd (.inl rfl) hphase
  | waiting h =>
    rw [h.generation] at hcall
    exact ⟨hcall, h.isSome, fun answer hanswer => (h.early answer hanswer).2⟩
  | killed h =>
    rw [h.generation] at hcall
    exact ⟨hcall, h.opened, h.running⟩
  | completed h => exact absurd (.inr h.phase) hphase

/-- A request is only passed on when it is the call that begins the termination. -/
theorem Tracks.requested {job : TerminationJob} (h : Tracks g history job)
    (hcall : call.Admissible g)
    (hrequest : call.isRequest = true) (haction : (job.apply call).1 = .sendTerm) :
    deadlineOf history = none := by
  cases call with
  | request generation nowMs timeoutSec =>
    cases hcall
    have hactive (hphase : job.phase ≠ .none) (hsame : job.generation = g) :
        deadlineOf history = none := by
      rw [apply, request, if_pos ⟨hphase, hsame⟩] at haction
      cases haction
    cases h with
    | idle hopened hnone => exact hopened
    | waiting h =>
      exact hactive (h.phase_ne TerminationPhase.noConfusion TerminationPhase.noConfusion)
        h.generation
    | killed h =>
      apply hactive _ h.generation
      rw [h.phase]
      exact TerminationPhase.noConfusion
    | completed h =>
      apply hactive _ h.generation
      rw [h.phase]
      exact TerminationPhase.noConfusion
  | force generation => cases hrequest
  | markTreeDraining generation nowMs timeoutSec => cases hrequest
  | poll generation nowMs treeEmpty => cases hrequest

theorem Tracks.quiet (h : Tracks g history job) (hcall : call.Admissible g)
    (hdone : ∃ answer ∈ history, answer.2 = .complete) : job.apply call = (.none, job) := by
  obtain ⟨answer, hanswer, hcomplete⟩ := hdone
  by_cases hother : call.generation = g
  · subst hother
    cases h with
    | idle hopened hnone => exact absurd ((hnone answer hanswer).symm.trans hcomplete) (by decide)
    | waiting h => exact absurd hcomplete (h.early answer hanswer).2
    | killed h => exact absurd hcomplete (h.running answer hanswer)
    | completed h => exact h.apply_eq
  · exact apply_other hcall h.generation hother

theorem Tracks.due (h : Tracks g history job) (hopened : deadlineOf history = some deadline)
    (hdue : deadline ≤ nowMs)
    (hearly : ∀ answer ∈ history, answer.2 ≠ .sendKill ∧ answer.2 ≠ .complete) :
    (job.apply (.poll g nowMs false)).1 = .sendKill := by
  cases h with
  | idle hnever hnone =>
    rw [hnever] at hopened
    cases hopened
  | waiting h =>
    have hdeadline : deadline = job.deadlineMs := Option.some.inj (hopened.symm.trans h.opened)
    rw [hdeadline] at hdue
    rw [apply, poll_running h.generation, if_pos ⟨h.phase, hdue⟩]
  | killed h =>
    obtain ⟨answer, hanswer, hkill⟩ := h.killed
    exact absurd hkill (hearly answer hanswer).1
  | completed h =>
    obtain ⟨answer, hanswer, hcomplete⟩ := h.completed
    exact absurd hcomplete (hearly answer hanswer).2

theorem answers_filter {job : TerminationJob} (h : Tracks g history job) (hg : 0 < g)
    (hcalls : ∀ call ∈ calls, call.Admissible g) :
    job.answers (calls.filter fun call => call.generation = g) =
        (job.answers calls).filter (fun answer => answer.1.generation = g) ∧
      job.runCalls (calls.filter fun call => call.generation = g) = job.runCalls calls := by
  induction calls generalizing history job with
  | nil => exact ⟨rfl, rfl⟩
  | cons call calls ih =>
    have hcall := hcalls call List.mem_cons_self
    obtain ⟨hanswers, hjob⟩ :=
      ih (h.step hcall hg) fun call hcall => hcalls call (List.mem_cons_of_mem _ hcall)
    by_cases hother : call.generation = g
    · rw [List.filter_cons, if_pos (decide_eq_true hother), answers, answers, hanswers,
        List.filter_cons, if_pos (decide_eq_true hother)]
      exact ⟨rfl, hjob⟩
    · have hskip : ¬ decide (call.generation = g) = true := by
        rw [decide_eq_true_iff]
        exact hother
      rw [List.filter_cons, if_neg hskip, answers, List.filter_cons, if_neg hskip]
      rw [apply_other hcall h.generation hother] at hanswers hjob ⊢
      refine ⟨hanswers, hjob.trans ?_⟩
      rw [runCalls, runCalls, List.foldl_cons, apply_other hcall h.generation hother]

theorem disciplined_answers (hg : 0 < g) (hcalls : ∀ call ∈ calls, call.Admissible g) :
    Disciplined g calls (answers {} calls) where
  requestOnce := by
    apply countP_le_one
    rintro before ⟨call, action⟩ rest hsplit hrequest earlier hearlier
    obtain ⟨job, h, hcall, haction⟩ := tracks_split hg hcalls hsplit
    rw [Bool.and_eq_true, decide_eq_true_iff] at hrequest
    have hopened := h.requested hcall hrequest.1 (haction.trans hrequest.2)
    rw [deadlineOf, List.findSome?_eq_none_iff] at hopened
    have hnone := hopened earlier hearlier
    obtain ⟨call, action⟩ := earlier
    cases call with
    | request generation nowMs timeoutSec => cases hnone
    | force generation => rfl
    | markTreeDraining generation nowMs timeoutSec => rfl
    | poll generation nowMs treeEmpty => rfl
  killOnce := by
    apply countP_le_one
    rintro before ⟨call, action⟩ rest hsplit hpoll earlier hearlier
    obtain ⟨job, h, hcall, haction⟩ := tracks_split hg hcalls hsplit
    rw [Bool.and_eq_true, decide_eq_true_iff] at hpoll
    cases call with
    | request generation nowMs timeoutSec => cases hpoll.1
    | force generation => cases hpoll.1
    | markTreeDraining generation nowMs timeoutSec => cases hpoll.1
    | poll generation nowMs treeEmpty =>
      have hearly := (h.sendKill (haction.trans hpoll.2)).1.early earlier hearlier
      rw [decide_eq_false hearly.1, Bool.and_false]
  killDue := by
    intro before generation nowMs treeEmpty rest hsplit
    obtain ⟨job, h, -, haction⟩ := tracks_split hg hcalls hsplit
    obtain ⟨hwaiting, hdue⟩ := h.sendKill haction
    exact ⟨job.deadlineMs, hwaiting.opened, hdue⟩
  killUnforced := by
    intro early action between nowMs treeEmpty rest hsplit
    obtain ⟨job, h, -, haction⟩ := tracks_split hg hcalls hsplit
    exact (h.sendKill haction).1.unforced early action between rfl
  killed := by
    intro before nowMs action rest deadline hsplit hopened hdue hearly
    obtain ⟨job, h, -, haction⟩ := tracks_split hg hcalls hsplit
    exact haction.symm.trans (h.due hopened hdue hearly)
  completeOnce := by
    apply countP_le_one
    rintro before ⟨call, action⟩ rest hsplit hcomplete earlier hearlier
    obtain ⟨job, h, -, haction⟩ := tracks_split hg hcalls hsplit
    obtain ⟨-, -, hrunning⟩ := h.complete (haction.trans (of_decide_eq_true hcomplete))
    exact decide_eq_false (hrunning earlier hearlier)
  completeEmpty := by
    intro before call rest hsplit
    obtain ⟨job, h, -, haction⟩ := tracks_split hg hcalls hsplit
    obtain ⟨hcall, hopened, -⟩ := h.complete haction
    exact ⟨hcall, hopened⟩
  quiet := by
    rintro before call rest hsplit ⟨later, action⟩ hanswer
    obtain ⟨between, rest', hrest⟩ := List.append_of_mem hanswer
    rw [hrest, ← List.cons_append, ← List.append_assoc] at hsplit
    obtain ⟨job, h, hcall, haction⟩ := tracks_split hg hcalls hsplit
    have hquiet := h.quiet hcall
      ⟨(call, .complete), List.mem_append_right _ List.mem_cons_self, rfl⟩
    exact haction.symm.trans (congrArg Prod.fst hquiet)
  otherNone := by
    rintro ⟨call, action⟩ hanswer hother
    obtain ⟨before, rest, hsplit⟩ := List.append_of_mem hanswer
    obtain ⟨job, h, hcall, haction⟩ := tracks_split hg hcalls hsplit
    rw [← haction, apply_other hcall h.generation hother]
  otherIgnored := (answers_filter tracks_fresh hg hcalls).1
  otherUnchanged := (answers_filter tracks_fresh hg hcalls).2

theorem timeoutOf_nonneg (timeoutSec : Int) : 0 ≤ timeoutOf timeoutSec := by
  unfold timeoutOf
  split <;> omega

theorem deadlineMs_apply (job : TerminationJob) (call : Call) :
    (job.apply call).2.deadlineMs = job.deadlineMs ∨
      call.deadlineMs = some (job.apply call).2.deadlineMs := by
  cases call with
  | request generation nowMs timeoutSec =>
    rw [apply, request]
    split
    · exact .inl rfl
    · exact .inr rfl
  | force generation =>
    rw [apply, force]
    split
    · exact .inl rfl
    · exact .inl rfl
  | markTreeDraining generation nowMs timeoutSec =>
    simp only [apply, markTreeDraining]
    by_cases hfirst : job.phase = .none ∨ job.generation ≠ generation
    · rw [if_pos hfirst]
      split
      · exact .inr rfl
      · exact .inr rfl
    · rw [if_neg hfirst]
      split
      · exact .inl rfl
      · exact .inl rfl
  | poll generation nowMs treeEmpty =>
    rw [apply, poll]
    split_ifs <;> exact .inl rfl

theorem Call.Timed.bounds {call : Call} (h : call.Timed) (hcall : call.deadlineMs = some deadline) :
    -2 ^ 63 ≤ deadline ∧ deadline < 2 ^ 63 := by
  have hstart (nowMs timeoutSec : Int)
      (h : -2 ^ 63 ≤ nowMs ∧ nowMs + timeoutOf timeoutSec < 2 ^ 63) :
      -2 ^ 63 ≤ nowMs + timeoutOf timeoutSec ∧ nowMs + timeoutOf timeoutSec < 2 ^ 63 :=
    ⟨by have := timeoutOf_nonneg timeoutSec; omega, h.2⟩
  cases call with
  | request generation nowMs timeoutSec =>
    cases hcall
    exact hstart nowMs timeoutSec h
  | markTreeDraining generation nowMs timeoutSec =>
    cases hcall
    exact hstart nowMs timeoutSec h
  | force generation => cases hcall
  | poll generation nowMs treeEmpty => cases hcall

theorem deadlineMs_runCalls (htimes : ∀ call ∈ calls, call.Timed) (job : TerminationJob)
    (hjob : -2 ^ 63 ≤ job.deadlineMs ∧ job.deadlineMs < 2 ^ 63) :
    -2 ^ 63 ≤ (job.runCalls calls).deadlineMs ∧ (job.runCalls calls).deadlineMs < 2 ^ 63 := by
  induction calls generalizing job with
  | nil => exact hjob
  | cons call calls ih =>
    apply ih fun call hcall => htimes call (List.mem_cons_of_mem _ hcall)
    rcases deadlineMs_apply job call with hsame | hset
    · rw [hsame]
      exact hjob
    · exact (htimes call List.mem_cons_self).bounds hset

/-- The protocol of one termination whose deadlines are `int64_t` values, in every order of the
calls. -/
theorem answers_disciplined (hg : 0 < g) (hcalls : ∀ call ∈ calls, call.Admissible g)
    (htimes : ∀ call ∈ calls, call.Timed) :
    Disciplined g calls (answers {} calls) ∧ ∀ before, before <+: calls →
      -2 ^ 63 ≤ (runCalls {} before).deadlineMs ∧ (runCalls {} before).deadlineMs < 2 ^ 63 := by
  refine ⟨disciplined_answers hg hcalls, ?_⟩
  intro before hbefore
  apply deadlineMs_runCalls (fun call hcall => htimes call (hbefore.subset hcall))
  decide

/-- A drain, a second opinion from a request, and a poll at the deadline of the drain. -/
def drainedCalls : List Call :=
  [.markTreeDraining 7 1000 2, .request 7 1500 9, .force 6, .poll 7 3000 false, .poll 7 3001 true]

theorem answers_disciplined_drained : Disciplined 7 drainedCalls (answers {} drainedCalls) :=
  (answers_disciplined (by decide) (by decide) (by decide)).1

/-- A force that comes before the termination has begun is dropped. -/
theorem kill_after_force : ¬ ∀ (g : Nat) (calls : List Call), 0 < g →
    (∀ call ∈ calls, call.Admissible g) → ∀ early action between nowMs treeEmpty rest,
      answers {} calls ≠ early ++ (Call.force g, action) :: between ++
        (Call.poll g nowMs treeEmpty, .sendKill) :: rest := by
  intro hall
  exact hall 7 [.force 7, .request 7 0 0, .poll 7 0 false] (by decide) (by decide)
    [] .none [(.request 7 0 0, .sendTerm)] 0 false [] (by decide)

end TerminationJob
end PmTiny
