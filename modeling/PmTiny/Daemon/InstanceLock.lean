import Mathlib.Logic.Function.Basic
import PmTiny.Lib.Runs

namespace PmTiny.InstanceLock
set_option autoImplicit true

/-- Where a process stands in `create_lock_pid_file` and `delete_lock_pid_file`, with the inode of
the file that it has open. -/
inductive LockPhase
  | idle
  | opened (inode : Nat)
  | locked (inode : Nat)
  | running (inode : Nat)
  | unlocked
deriving DecidableEq, Repr

/-- The file that a process has open. -/
def LockPhase.inode : LockPhase → Option Nat
  | .opened inode => some inode
  | .locked inode => some inode
  | .running inode => some inode
  | _ => none

/-- The file whose lock a process has. -/
def LockPhase.owned : LockPhase → Option Nat
  | .locked inode => some inode
  | .running inode => some inode
  | _ => none

/-- The file under the name of the lock file, the owners and the contents of the files that have had
that name, and the processes, with those that have one of the files open. -/
structure LockFiles where
  path : Option Nat := none
  next : Nat := 0
  owner : Nat → Option Nat := fun _ => none
  content : Nat → Option Nat := fun _ => none
  phase : Nat → LockPhase := fun _ => .idle
  openers : List Nat := []

inductive Event
  | openFile (pid : Nat)
  | lockf (pid : Nat)
  | record (pid : Nat)
  | unlock (pid : Nat)
  | unlink (pid : Nat)
  | die (pid : Nat)
deriving DecidableEq, Repr

namespace LockFiles

/-- The process closes the lock file, and the kernel gives up its lock. -/
def close (s : LockFiles) (pid : Nat) (phase : LockPhase) : LockFiles :=
  { s with
    owner := fun inode => if s.owner inode = some pid then none else s.owner inode
    phase := Function.update s.phase pid phase
    openers := s.openers.filter (· ≠ pid) }

/-- The system calls of `create_lock_pid_file`, of `delete_lock_pid_file` and of the end of a
process. -/
def step (s : LockFiles) : Event → Option LockFiles
  -- `O_CREAT | O_TRUNC`
  | .openFile pid =>
    if s.phase pid = .idle then
      let inode := s.path.getD s.next
      some { s with
        path := some inode
        next := max s.next (inode + 1)
        content := Function.update s.content inode none
        phase := Function.update s.phase pid (.opened inode)
        openers := pid :: s.openers }
    else none
  | .lockf pid =>
    match s.phase pid with
    | .opened inode =>
      match s.owner inode with
      | none => some { s with
          owner := Function.update s.owner inode (some pid)
          phase := Function.update s.phase pid (.locked inode) }
      -- the lock file is not created: `main` exits
      | some _ => some (s.close pid .idle)
    | _ => none
  | .record pid =>
    match s.phase pid with
    | .locked inode => some { s with
        content := Function.update s.content inode (some pid)
        phase := Function.update s.phase pid (.running inode) }
    | _ => none
  | .unlock pid =>
    match s.phase pid with
    | .running _ => some (s.close pid .unlocked)
    | _ => none
  -- the name is removed, whatever file it has by now
  | .unlink pid =>
    if s.phase pid = .unlocked then some { s with
      path := none
      phase := Function.update s.phase pid .idle }
    else none
  | .die pid => if s.phase pid = .idle then none else some (s.close pid .idle)

/-- The steps of runs in which nobody has the lock file open when a daemon removes it. -/
def calmStep (s : LockFiles) (e : Event) : Option LockFiles :=
  match e with
  | .unlink _ => if s.openers = [] then s.step e else none
  | _ => s.step e

variable {s s' : LockFiles}

structure Owned (s : LockFiles) : Prop where
  owner : ∀ inode pid, s.owner inode = some pid ↔ (s.phase pid).owned = some inode
  openers : ∀ pid, pid ∈ s.openers ↔ (s.phase pid).inode.isSome = true
  older : ∀ pid inode, (s.phase pid).inode = some inode → inode < s.next
  named : ∀ inode, s.path = some inode → inode < s.next

/-- In the runs without the race a file that is open has the name, and a daemon's file has its pid
unless a rival has emptied it. -/
structure Named (s : LockFiles) : Prop extends Owned s where
  path : ∀ pid inode, (s.phase pid).inode = some inode → s.path = some inode
  content : ∀ pid inode, s.phase pid = .running inode →
    s.content inode = some pid ∨ s.content inode = none

theorem start_named : ({} : LockFiles).Named where
  owner := fun inode pid => ⟨fun h => (by cases h), fun h => (by cases h)⟩
  openers := fun pid => ⟨fun h => (by cases h), fun h => (by cases h)⟩
  older := fun _ _ h => by cases h
  named := fun _ h => by cases h
  path := fun _ _ h => by cases h
  content := fun _ _ h => by cases h

theorem inode_of_owned {phase : LockPhase} (h : phase.owned = some inode) :
    phase.inode = some inode := by
  cases phase with
  | idle => cases h
  | opened i => cases h
  | locked i => exact h
  | running i => exact h
  | unlocked => cases h

theorem owned_of_inode {phase : LockPhase} (h : phase.inode = none) : phase.owned = none := by
  cases phase with
  | idle => rfl
  | opened i => cases h
  | locked i => cases h
  | running i => cases h
  | unlocked => rfl

theorem Owned.close {phase : LockPhase} (h : s.Owned) (hphase : phase.inode = none) :
    (s.close pid phase).Owned where
  owner := fun inode other => by
    have hnone : phase.owned = none := owned_of_inode hphase
    dsimp only [LockFiles.close]
    by_cases hother : other = pid
    · subst hother
      rw [Function.update_self, hnone]
      split
      · exact ⟨fun heq => (by cases heq), fun heq => (by cases heq)⟩
      · rename_i hne
        exact ⟨fun heq => absurd heq hne, fun heq => (by cases heq)⟩
    · rw [Function.update_of_ne hother]
      split
      · rename_i howner
        refine ⟨fun heq => (by cases heq), fun howned => ?_⟩
        rw [(h.owner inode other).2 howned] at howner
        exact absurd (Option.some.inj howner) hother
      · exact h.owner inode other
  openers := fun other => by
    dsimp only [LockFiles.close]
    rw [List.mem_filter]
    by_cases hother : other = pid
    · subst hother
      rw [Function.update_self, hphase]
      simp
    · rw [Function.update_of_ne hother, ← h.openers other]
      simp [hother]
  older := fun other inode hinode => by
    dsimp only [LockFiles.close] at hinode ⊢
    by_cases hother : other = pid
    · subst hother
      rw [Function.update_self, hphase] at hinode
      cases hinode
    · rw [Function.update_of_ne hother] at hinode
      exact h.older other inode hinode
  named := h.named

theorem Named.close {phase : LockPhase} (h : s.Named) (hphase : phase.inode = none) :
    (s.close pid phase).Named where
  toOwned := h.toOwned.close hphase
  path := fun other inode hinode => by
    dsimp only [LockFiles.close] at hinode ⊢
    by_cases hother : other = pid
    · subst hother
      rw [Function.update_self, hphase] at hinode
      cases hinode
    · rw [Function.update_of_ne hother] at hinode
      exact h.path other inode hinode
  content := fun other inode hrunning => by
    dsimp only [LockFiles.close] at hrunning ⊢
    by_cases hother : other = pid
    · subst hother
      rw [Function.update_self] at hrunning
      subst hrunning
      cases hphase
    · rw [Function.update_of_ne hother] at hrunning
      exact h.content other inode hrunning

theorem openFile_cases (hs : s.step (.openFile pid) = some s') :
    s.phase pid = .idle ∧ s' = { s with
      path := some (s.path.getD s.next)
      next := max s.next (s.path.getD s.next + 1)
      content := Function.update s.content (s.path.getD s.next) none
      phase := Function.update s.phase pid (.opened (s.path.getD s.next))
      openers := pid :: s.openers } := by
  rw [step] at hs
  split at hs
  · rename_i hidle
    cases hs
    exact ⟨hidle, rfl⟩
  · cases hs

theorem lockf_cases (hs : s.step (.lockf pid) = some s') :
    ∃ inode, s.phase pid = .opened inode ∧
      (s.owner inode = none ∧ s' = { s with
        owner := Function.update s.owner inode (some pid)
        phase := Function.update s.phase pid (.locked inode) } ∨
      (∃ rival, s.owner inode = some rival) ∧ s' = s.close pid .idle) := by
  rw [step] at hs
  split at hs
  · rename_i inode hopened
    refine ⟨inode, hopened, ?_⟩
    split at hs
    · rename_i howner
      cases hs
      exact .inl ⟨howner, rfl⟩
    · rename_i rival howner
      cases hs
      exact .inr ⟨⟨rival, howner⟩, rfl⟩
  · cases hs

theorem record_cases (hs : s.step (.record pid) = some s') :
    ∃ inode, s.phase pid = .locked inode ∧ s' = { s with
      content := Function.update s.content inode (some pid)
      phase := Function.update s.phase pid (.running inode) } := by
  rw [step] at hs
  split at hs
  · rename_i inode hlocked
    cases hs
    exact ⟨inode, hlocked, rfl⟩
  · cases hs

theorem unlock_cases (hs : s.step (.unlock pid) = some s') :
    ∃ inode, s.phase pid = .running inode ∧ s' = s.close pid .unlocked := by
  rw [step] at hs
  split at hs
  · rename_i inode hrunning
    cases hs
    exact ⟨inode, hrunning, rfl⟩
  · cases hs

theorem unlink_cases (hs : s.step (.unlink pid) = some s') :
    s.phase pid = .unlocked ∧
      s' = { s with path := none, phase := Function.update s.phase pid .idle } := by
  rw [step] at hs
  split at hs
  · rename_i hunlocked
    cases hs
    exact ⟨hunlocked, rfl⟩
  · cases hs

theorem die_cases (hs : s.step (.die pid) = some s') : s' = s.close pid .idle := by
  rw [step] at hs
  split at hs
  · cases hs
  · cases hs
    rfl

theorem owned_update (s : LockFiles) (pid other : Nat) (phase : LockPhase) :
    (Function.update s.phase pid phase other).owned =
      if other = pid then phase.owned else (s.phase other).owned := by
  split
  · rename_i hother
    rw [hother, Function.update_self]
  · rename_i hother
    rw [Function.update_of_ne hother]

theorem inode_update (s : LockFiles) (pid other : Nat) (phase : LockPhase) :
    (Function.update s.phase pid phase other).inode =
      if other = pid then phase.inode else (s.phase other).inode := by
  split
  · rename_i hother
    rw [hother, Function.update_self]
  · rename_i hother
    rw [Function.update_of_ne hother]

theorem Owned.rephase {phase : LockPhase} (h : s.Owned) (hinode : phase.inode = (s.phase pid).inode)
    (howned : phase.owned = (s.phase pid).owned) (path : Option Nat)
    (hnamed : ∀ inode, path = some inode → inode < s.next) (content : Nat → Option Nat) :
    ({ s with path, content, phase := Function.update s.phase pid phase } : LockFiles).Owned := by
  have howned' : ∀ other, (Function.update s.phase pid phase other).owned =
      (s.phase other).owned := by
    intro other
    rw [owned_update]
    split
    · rename_i hother
      rw [hother, howned]
    · rfl
  have hinode' : ∀ other, (Function.update s.phase pid phase other).inode =
      (s.phase other).inode := by
    intro other
    rw [inode_update]
    split
    · rename_i hother
      rw [hother, hinode]
    · rfl
  exact {
    owner := fun inode other => by rw [h.owner, howned']
    openers := fun other => by rw [h.openers, hinode']
    older := fun other inode heq => h.older other inode (hinode' other ▸ heq)
    named := hnamed }

theorem Owned.openFile (h : s.Owned) (hidle : s.phase pid = .idle) :
    ({ s with
      path := some (s.path.getD s.next)
      next := max s.next (s.path.getD s.next + 1)
      content := Function.update s.content (s.path.getD s.next) none
      phase := Function.update s.phase pid (.opened (s.path.getD s.next))
      openers := pid :: s.openers } : LockFiles).Owned where
  owner := fun inode other => by
    rw [h.owner, owned_update]
    split
    · rename_i hother
      rw [hother, hidle]
      rfl
    · rfl
  openers := fun other => by
    rw [List.mem_cons, h.openers, inode_update]
    split
    · rename_i hother
      exact ⟨fun _ => rfl, fun _ => .inl hother⟩
    · rename_i hother
      exact ⟨fun hmem => hmem.resolve_left hother, .inr⟩
  older := fun other inode hinode => by
    rw [inode_update] at hinode
    dsimp only
    split at hinode
    · cases hinode
      omega
    · exact Nat.lt_of_lt_of_le (h.older other inode hinode) (Nat.le_max_left _ _)
  named := fun inode hpath => by
    dsimp only at hpath ⊢
    cases hpath
    omega

theorem Owned.lockf (h : s.Owned) (hopened : s.phase pid = .opened inode)
    (howner : s.owner inode = none) :
    ({ s with
      owner := Function.update s.owner inode (some pid)
      phase := Function.update s.phase pid (.locked inode) } : LockFiles).Owned where
  owner := fun i other => by
    rw [owned_update]
    dsimp only
    by_cases hi : i = inode
    · subst hi
      rw [Function.update_self]
      split
      · rename_i hother
        rw [hother]
        exact ⟨fun _ => rfl, fun _ => rfl⟩
      · rename_i hother
        refine ⟨fun heq => absurd (Option.some.inj heq).symm hother, fun howned => ?_⟩
        rw [(h.owner i other).2 howned] at howner
        cases howner
    · rw [Function.update_of_ne hi]
      split
      · rename_i hother
        rw [hother]
        refine ⟨fun hpid => ?_, fun heq => absurd (Option.some.inj heq).symm hi⟩
        have howned := (h.owner i pid).1 hpid
        rw [hopened] at howned
        cases howned
      · exact h.owner i other
  openers := fun other => by
    rw [h.openers, inode_update]
    split
    · rename_i hother
      rw [hother, hopened]
      exact Iff.rfl
    · exact Iff.rfl
  older := fun other i hinode => by
    rw [inode_update] at hinode
    split at hinode
    · exact h.older pid i (hopened ▸ hinode)
    · exact h.older other i hinode
  named := h.named

theorem step_owned (h : s.Owned) (hs : s.step e = some s') : s'.Owned := by
  cases e with
  | openFile pid =>
    obtain ⟨hidle, rfl⟩ := openFile_cases hs
    exact h.openFile hidle
  | lockf pid =>
    obtain ⟨inode, hopened, ⟨howner, rfl⟩ | ⟨-, rfl⟩⟩ := lockf_cases hs
    · exact h.lockf hopened howner
    · exact h.close rfl
  | record pid =>
    obtain ⟨inode, hlocked, rfl⟩ := record_cases hs
    exact h.rephase (by rw [hlocked]; rfl) (by rw [hlocked]; rfl) _ h.named _
  | unlock pid =>
    obtain ⟨inode, -, rfl⟩ := unlock_cases hs
    exact h.close rfl
  | unlink pid =>
    obtain ⟨hunlocked, rfl⟩ := unlink_cases hs
    exact h.rephase (by rw [hunlocked]; rfl) (by rw [hunlocked]; rfl) _
      (fun _ heq => by cases heq) _
  | die pid =>
    rw [die_cases hs]
    exact h.close rfl

theorem start_owned : ({} : LockFiles).Owned := start_named.toOwned

theorem calmStep_eq_some (hs : s.calmStep e = some s') :
    s.step e = some s' ∧ ∀ pid, e = .unlink pid → s.openers = [] := by
  cases e with
  | unlink pid =>
    rw [calmStep] at hs
    split at hs
    · rename_i hopeners
      exact ⟨hs, fun _ _ => hopeners⟩
    · cases hs
  | openFile pid => exact ⟨hs, fun _ heq => by cases heq⟩
  | lockf pid => exact ⟨hs, fun _ heq => by cases heq⟩
  | record pid => exact ⟨hs, fun _ heq => by cases heq⟩
  | unlock pid => exact ⟨hs, fun _ heq => by cases heq⟩
  | die pid => exact ⟨hs, fun _ heq => by cases heq⟩

theorem Named.owner_unique (h : s.Named) (howned : (s.phase pid).owned = some inode)
    (howned' : (s.phase rival).owned = some inode') : pid = rival := by
  have hpath := h.path pid inode (inode_of_owned howned)
  rw [h.path rival inode' (inode_of_owned howned')] at hpath
  cases hpath
  have howner := (h.owner _ pid).2 howned
  rw [(h.owner _ rival).2 howned'] at howner
  exact (Option.some.inj howner).symm

theorem running_update {phase : LockPhase} {other : Nat}
    (h : Function.update s.phase pid phase other = .running inode) :
    other = pid ∧ phase = .running inode ∨ other ≠ pid ∧ s.phase other = .running inode := by
  by_cases hother : other = pid
  · subst hother
    rw [Function.update_self] at h
    exact .inl ⟨rfl, h⟩
  · rw [Function.update_of_ne hother] at h
    exact .inr ⟨hother, h⟩

theorem Named.openFile (h : s.Named) (hidle : s.phase pid = .idle) :
    ({ s with
      path := some (s.path.getD s.next)
      next := max s.next (s.path.getD s.next + 1)
      content := Function.update s.content (s.path.getD s.next) none
      phase := Function.update s.phase pid (.opened (s.path.getD s.next))
      openers := pid :: s.openers } : LockFiles).Named where
  toOwned := h.toOwned.openFile hidle
  path := fun other inode hinode => by
    rw [inode_update] at hinode
    dsimp only
    split at hinode
    · exact hinode
    · rw [h.path other inode hinode]
      rfl
  content := fun other inode hrunning => by
    rcases running_update hrunning with ⟨-, hopened⟩ | ⟨-, hrunning⟩
    · cases hopened
    · have hpath := h.path other inode (by rw [hrunning]; rfl)
      refine .inr ?_
      dsimp only
      rw [hpath]
      exact Function.update_self _ _ _

theorem Named.record (h : s.Named) (hlocked : s.phase pid = .locked inode) :
    ({ s with
      content := Function.update s.content inode (some pid)
      phase := Function.update s.phase pid (.running inode) } : LockFiles).Named where
  toOwned := h.toOwned.rephase (by rw [hlocked]; rfl) (by rw [hlocked]; rfl) _ h.named _
  path := fun other i hinode => by
    rw [inode_update] at hinode
    split at hinode
    · exact h.path pid i (hlocked ▸ hinode)
    · exact h.path other i hinode
  content := fun other i hrunning => by
    rcases running_update hrunning with ⟨rfl, hphase⟩ | ⟨hother, hrunning⟩
    · cases hphase
      exact .inl (Function.update_self _ _ _)
    · have howned : (s.phase pid).owned = some inode := by rw [hlocked]; rfl
      have howned' : (s.phase other).owned = some i := by rw [hrunning]; rfl
      exact absurd (h.owner_unique howned' howned) hother

theorem calmStep_named (h : s.Named) (hs : s.calmStep e = some s') : s'.Named := by
  obtain ⟨hs, hcalm⟩ := calmStep_eq_some hs
  cases e with
  | openFile pid =>
    obtain ⟨hidle, rfl⟩ := openFile_cases hs
    exact h.openFile hidle
  | lockf pid =>
    obtain ⟨inode, hopened, ⟨howner, rfl⟩ | ⟨-, rfl⟩⟩ := lockf_cases hs
    · exact {
        toOwned := h.toOwned.lockf hopened howner
        path := fun other i hinode => by
          rw [inode_update] at hinode
          split at hinode
          · exact h.path pid i (hopened ▸ hinode)
          · exact h.path other i hinode
        content := fun other i hrunning => by
          rcases running_update hrunning with ⟨-, heq⟩ | ⟨-, hrunning⟩
          · cases heq
          · exact h.content other i hrunning }
    · exact h.close rfl
  | record pid =>
    obtain ⟨inode, hlocked, rfl⟩ := record_cases hs
    exact h.record hlocked
  | unlock pid =>
    obtain ⟨inode, -, rfl⟩ := unlock_cases hs
    exact h.close rfl
  | unlink pid =>
    have howned := step_owned h.toOwned hs
    obtain ⟨hunlocked, rfl⟩ := unlink_cases hs
    have hopeners := hcalm pid rfl
    have hnobody : ∀ other inode,
        (Function.update s.phase pid .idle other).inode ≠ some inode := by
      intro other inode hinode
      have hmem := (howned.openers other).2 (by rw [hinode]; rfl)
      dsimp only at hmem
      rw [hopeners] at hmem
      cases hmem
    exact {
      toOwned := howned
      path := fun other inode hinode => absurd hinode (hnobody other inode)
      content := fun other inode hrunning =>
        absurd (by dsimp only at hrunning; rw [hrunning]; rfl) (hnobody other inode) }
  | die pid =>
    rw [die_cases hs]
    exact h.close rfl

theorem lockf_of_free (hopened : s.phase pid = .opened inode) (howner : s.owner inode = none) :
    s.step (.lockf pid) = some { s with
      owner := Function.update s.owner inode (some pid)
      phase := Function.update s.phase pid (.locked inode) } := by
  rw [step, hopened]
  dsimp only
  rw [howner]

theorem lockf_of_owned (hopened : s.phase pid = .opened inode)
    (howner : s.owner inode = some rival) :
    s.step (.lockf pid) = some (s.close pid .idle) := by
  rw [step, hopened]
  dsimp only
  rw [howner]

theorem emptied_of_step (hs : s.step e = some s')
    (hbefore : ¬(s.phase pid = .running inode ∧ s.content inode = none))
    (hrunning : s'.phase pid = .running inode) (hnone : s'.content inode = none) :
    s.phase pid = .running inode ∧ ∃ rival, rival ≠ pid ∧ e = .openFile rival := by
  have hclose {other : Nat} {phase : LockPhase} (hphase : ∀ i, phase ≠ .running i)
      (hs : s' = s.close other phase) : False := by
    subst hs
    rcases running_update hrunning with ⟨-, heq⟩ | ⟨-, hrunning⟩
    · exact hphase inode heq
    · exact hbefore ⟨hrunning, hnone⟩
  cases e with
  | openFile rival =>
    obtain ⟨-, rfl⟩ := openFile_cases hs
    rcases running_update hrunning with ⟨-, heq⟩ | ⟨hrival, hrunning⟩
    · cases heq
    · exact ⟨hrunning, rival, hrival.symm, rfl⟩
  | lockf other =>
    obtain ⟨i, -, ⟨-, rfl⟩ | ⟨-, hs⟩⟩ := lockf_cases hs
    · rcases running_update hrunning with ⟨-, heq⟩ | ⟨-, hrunning⟩
      · cases heq
      · exact absurd ⟨hrunning, hnone⟩ hbefore
    · exact (hclose (fun _ => LockPhase.noConfusion) hs).elim
  | record other =>
    obtain ⟨i, -, rfl⟩ := record_cases hs
    dsimp only at hnone
    by_cases hi : inode = i
    · subst hi
      rw [Function.update_self] at hnone
      cases hnone
    · rw [Function.update_of_ne hi] at hnone
      rcases running_update hrunning with ⟨-, heq⟩ | ⟨-, hrunning⟩
      · cases heq
        exact absurd rfl hi
      · exact absurd ⟨hrunning, hnone⟩ hbefore
  | unlock other =>
    obtain ⟨-, -, hs⟩ := unlock_cases hs
    exact (hclose (fun _ => LockPhase.noConfusion) hs).elim
  | unlink other =>
    obtain ⟨-, rfl⟩ := unlink_cases hs
    rcases running_update hrunning with ⟨-, heq⟩ | ⟨-, hrunning⟩
    · cases heq
    · exact absurd ⟨hrunning, hnone⟩ hbefore
  | die other => exact (hclose (fun _ => LockPhase.noConfusion) (die_cases hs)).elim

/-- The file of the daemon has its pid, or a rival has opened it while the daemon was running. -/
def Recorded (events : List Event) (s : LockFiles) (pid inode : Nat) : Prop :=
  s.content inode = some pid ∨
    s.content inode = none ∧ ∃ before rival after t, events = before ++ .openFile rival :: after ∧
      rival ≠ pid ∧ Transitions.Run calmStep {} before t ∧ t.phase pid = .running inode

theorem Named.recorded {events : List Event} (hnamed : s.Named)
    (h : Transitions.Run calmStep {} events s) (hrunning : s.phase pid = .running inode) :
    Recorded events s pid inode := by
  rcases hnamed.content pid inode hrunning with hpid | hnone
  · exact .inl hpid
  · have hstart : ¬((({} : LockFiles).phase pid = .running inode) ∧
        ({} : LockFiles).content inode = none) := by
      rintro ⟨hidle, -⟩
      cases hidle
    obtain ⟨before, e, after, t, t', hevents, ht, he, hbefore, hrunning', hnone'⟩ :=
      h.established (p := fun t => t.phase pid = .running inode ∧ t.content inode = none) hstart
        ⟨hrunning, hnone⟩
    obtain ⟨hearlier, rival, hrival, rfl⟩ :=
      emptied_of_step (calmStep_eq_some he).1 hbefore hrunning' hnone'
    exact .inr ⟨hnone, before, rival, after, t, hevents, hrival, ht, hearlier⟩

/-- The `lockf` of a process that has opened the file succeeds exactly when nobody has the lock. -/
theorem Named.lockf (h : s.Named) (hopened : s.phase pid = .opened inode) :
    ∃ s', s.calmStep (.lockf pid) = some s' ∧
      ((s'.phase pid).owned.isSome = true ↔ ∀ rival, (s.phase rival).owned = none) := by
  cases howner : s.owner inode with
  | none =>
    refine ⟨_, lockf_of_free hopened howner, ?_⟩
    dsimp only
    rw [Function.update_self]
    refine ⟨fun _ rival => ?_, fun _ => rfl⟩
    cases howned : (s.phase rival).owned with
    | none => rfl
    | some i =>
      have hpath := h.path pid inode (by rw [hopened]; rfl)
      rw [h.path rival i (inode_of_owned howned)] at hpath
      cases hpath
      rw [(h.owner _ rival).2 howned] at howner
      cases howner
  | some rival =>
    refine ⟨_, lockf_of_owned hopened howner, ?_⟩
    rw [LockFiles.close]
    dsimp only
    rw [Function.update_self]
    refine ⟨fun hnone => (by cases hnone), fun hfree => ?_⟩
    have howned := (h.owner _ rival).1 howner
    rw [hfree rival] at howned
    cases howned

theorem openFile_opens (hidle : s.phase pid = .idle) :
    ∃ s', s.calmStep (.openFile pid) = some s' ∧ s'.phase pid = .opened (s.path.getD s.next) ∧
      ∀ rival, (s'.phase rival).owned = (s.phase rival).owned := by
  refine ⟨_, if_pos hidle, Function.update_self _ _ _, fun rival => ?_⟩
  rw [owned_update]
  split
  · rename_i hrival
    rw [hrival, hidle]
    rfl
  · rfl

/-- In every run in which nobody has the lock file open when a daemon removes it, at most one
process is past `create_lock_pid_file`; its file has the name and its pid, unless a rival has
emptied it; a process that has opened the file is let in exactly when there is none, and a process
that starts opens it. -/
theorem one_daemon {events : List Event} (h : Transitions.Run calmStep {} events s) :
    (∀ pid rival inode inode', (s.phase pid).owned = some inode →
      (s.phase rival).owned = some inode' → pid = rival) ∧
    (∀ pid inode, s.phase pid = .running inode →
      s.path = some inode ∧ Recorded events s pid inode) ∧
    (∀ pid inode, s.phase pid = .opened inode → ∃ s', s.calmStep (.lockf pid) = some s' ∧
      ((s'.phase pid).owned.isSome = true ↔ ∀ rival, (s.phase rival).owned = none)) ∧
    ∀ pid, s.phase pid = .idle → ∃ s' inode, s.calmStep (.openFile pid) = some s' ∧
      s'.phase pid = .opened inode ∧ ∀ rival, (s'.phase rival).owned = (s.phase rival).owned := by
  have hnamed : s.Named :=
    h.invariant Named (fun _ _ _ hi hs => calmStep_named hi hs) start_named
  refine ⟨fun _ _ _ _ howned howned' => hnamed.owner_unique howned howned',
    fun pid inode hrunning => ?_, fun _ _ hopened => hnamed.lockf hopened, fun pid hidle => ?_⟩
  · exact ⟨hnamed.path pid inode (by rw [hrunning]; rfl), hnamed.recorded h hrunning⟩
  · obtain ⟨s', hs', hopened, howned⟩ := openFile_opens hidle
    exact ⟨s', _, hs', hopened, howned⟩

/-- A daemon runs, a second is refused, the first shuts down and a third starts. -/
def handover : List Event :=
  [.openFile 1, .lockf 1, .record 1, .openFile 2, .lockf 2, .unlock 1, .unlink 1, .openFile 3,
    .lockf 3, .record 3, .openFile 4]

theorem one_daemon_handover : ∃ s, Transitions.Run calmStep {} handover s ∧
    s.phase 3 = .running 1 ∧ (s.path = some 1 ∧ Recorded handover s 3 1) ∧
    s.phase 4 = .opened 1 ∧ ∃ s', s.calmStep (.lockf 4) = some s' ∧
      ((s'.phase 4).owned.isSome = true ↔ ∀ rival, (s.phase rival).owned = none) := by
  obtain ⟨s, hs, hthird, hfourth⟩ : ∃ s, Transitions.after calmStep {} handover = some s ∧
      s.phase 3 = .running 1 ∧ s.phase 4 = .opened 1 := ⟨_, rfl, rfl, rfl⟩
  have hrun : Transitions.Run calmStep {} handover s := .of_after hs
  obtain ⟨-, hnamed, hlockf, -⟩ := one_daemon hrun
  exact ⟨s, hrun, hthird, hnamed 3 1 hthird, hfourth, hlockf 4 1 hfourth⟩

/-- Whenever a daemon that shuts down has given up its lock and another runs on the file it is about
to remove, its `unlink` lets in a third beside that one. -/
theorem unlink_admits {events : List Event} (h : Transitions.Run step {} events s)
    (hold : s.phase old = .unlocked) (hrunning : s.phase pid = .running inode)
    (hidle : s.phase third = .idle) :
    ∃ s' inode', Transitions.Run step s
        [.unlink old, .openFile third, .lockf third, .record third] s' ∧
      s'.phase pid = .running inode ∧ s'.phase third = .running inode' ∧ inode' ≠ inode := by
  have howned : s.Owned :=
    h.invariant Owned (fun _ _ _ hi hs => step_owned hi hs) start_owned
  have hpidOld : pid ≠ old := by
    rintro rfl
    rw [hrunning] at hold
    cases hold
  have hpidThird : pid ≠ third := by
    rintro rfl
    rw [hrunning] at hidle
    cases hidle
  have hthirdOld : third ≠ old := by
    rintro rfl
    rw [hidle] at hold
    cases hold
  have holder := howned.older pid inode (by rw [hrunning]; rfl)
  have hfree : s.owner s.next = none := by
    cases howner : s.owner s.next with
    | none => rfl
    | some rival =>
      have hlt := howned.older rival s.next (inode_of_owned ((howned.owner _ rival).1 howner))
      omega
  obtain ⟨s₁, hs₁, hpath, hphase₁, hnext, howner₁⟩ : ∃ s₁, s.step (.unlink old) = some s₁ ∧
      s₁.path = none ∧ s₁.phase = Function.update s.phase old .idle ∧ s₁.next = s.next ∧
      s₁.owner = s.owner :=
    ⟨_, if_pos hold, rfl, rfl, rfl, rfl⟩
  have hidle₁ : s₁.phase third = .idle := by
    rw [hphase₁, Function.update_of_ne hthirdOld]
    exact hidle
  have hinode : s₁.path.getD s₁.next = s.next := by
    rw [hpath, hnext]
    rfl
  obtain ⟨s₂, hs₂, hphase₂, howner₂⟩ : ∃ s₂, s₁.step (.openFile third) = some s₂ ∧
      s₂.phase = Function.update s₁.phase third (.opened s.next) ∧ s₂.owner = s.owner := by
    refine ⟨_, if_pos hidle₁, ?_, howner₁⟩
    dsimp only
    rw [hinode]
  have hopened : s₂.phase third = .opened s.next := by
    rw [hphase₂, Function.update_self]
  obtain ⟨s₃, hs₃, hphase₃⟩ : ∃ s₃, s₂.step (.lockf third) = some s₃ ∧
      s₃.phase = Function.update s₂.phase third (.locked s.next) :=
    ⟨_, lockf_of_free hopened (howner₂ ▸ hfree), rfl⟩
  have hlocked : s₃.phase third = .locked s.next := by
    rw [hphase₃, Function.update_self]
  obtain ⟨s₄, hs₄, hphase₄⟩ : ∃ s₄, s₃.step (.record third) = some s₄ ∧
      s₄.phase = Function.update s₃.phase third (.running s.next) := by
    rw [step, hlocked]
    exact ⟨_, rfl, rfl⟩
  refine ⟨s₄, s.next, .of_after ?_, ?_, ?_, by omega⟩
  · rw [Transitions.after, List.foldlM_cons, hs₁, Option.bind_eq_bind, Option.bind_some,
      List.foldlM_cons, hs₂, Option.bind_eq_bind, Option.bind_some, List.foldlM_cons, hs₃,
      Option.bind_eq_bind, Option.bind_some, List.foldlM_cons, hs₄]
    rfl
  · rw [hphase₄, Function.update_of_ne hpidThird, hphase₃, Function.update_of_ne hpidThird,
      hphase₂, Function.update_of_ne hpidThird, hphase₁, Function.update_of_ne hpidOld]
    exact hrunning
  · rw [hphase₄, Function.update_self]

/-- The second daemon has locked the file that the first is about to remove. -/
def overlap : List Event :=
  [.openFile 1, .lockf 1, .record 1, .unlock 1, .openFile 2, .lockf 2, .record 2]

theorem unlink_admits_overlap : ∃ s, Transitions.Run step {} overlap s ∧
    ∃ s' inode', Transitions.Run step s [.unlink 1, .openFile 3, .lockf 3, .record 3] s' ∧
      s'.phase 2 = .running 0 ∧ s'.phase 3 = .running inode' ∧ inode' ≠ 0 :=
  have hrun : Transitions.Run step {} overlap _ := .of_after rfl
  ⟨_, hrun, unlink_admits hrun rfl rfl rfl⟩

end LockFiles
end PmTiny.InstanceLock
