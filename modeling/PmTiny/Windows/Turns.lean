import PmTiny.Windows.Invariants

namespace PmTiny.Windows
set_option autoImplicit true

variable {s s' : Daemon} {n : String}

open Daemon

theorem Moves.split {l post : List Event} {e : Event} (h : Moves s s')
    (he : since s s' = l ++ e :: post) :
    ∃ a b l₁ l₂, Moves s a ∧ Move a b ∧ Moves b s' ∧ since a b = l₁ ++ e :: l₂ ∧
      l = since b s' ++ l₁ := by
  have hnone : ∀ s : Daemon, since s s = [] := fun s => since_eq (l := []) rfl
  induction h generalizing l with
  | refl =>
    rw [hnone] at he
    cases l with
    | nil => cases he
    | cons _ _ => cases he
  | tail h hm ih =>
    rename_i s₁ s₂
    rw [since_tail h hm] at he
    rcases List.append_eq_append_iff.1 he with ⟨k, hl, hrest⟩ | ⟨k, hl, hrest⟩
    · obtain ⟨a, b, l₁, l₂, hsa, hab, hbs, hsince, hk⟩ := ih hrest
      refine ⟨a, b, l₁, l₂, hsa, hab, hbs.tail hm, hsince, ?_⟩
      rw [since_tail hbs hm, hl, hk, List.append_assoc]
    · cases k with
      | nil =>
        obtain ⟨a, b, l₁, l₂, hsa, hab, hbs, hsince, hk⟩ := ih (l := []) hrest.symm
        refine ⟨a, b, l₁, l₂, hsa, hab, hbs.tail hm, hsince, ?_⟩
        rw [List.append_nil] at hl
        rw [since_tail hbs hm, List.append_assoc, ← hk, List.append_nil, hl]
      | cons d k =>
        obtain ⟨rfl, -⟩ := List.cons.inj hrest
        exact ⟨s₁, s₂, l, k, h, hm, .refl _, hl, by rw [hnone, List.nil_append]⟩

theorem Move.nextGeneration_le (h : Move s s') : s.nextGeneration ≤ s'.nextGeneration := by
  cases h with
  | outside hcore => rw [hcore]
  | stream h => rw [h.core]
  | started => exact Nat.le_succ _
  | _ => exact Nat.le_refl _

namespace Daemon

theorem shouldRestart_deleteConfig {c : Core} {p : ProcessHandle}
    (ha : p.completionAction = .deleteConfig) : shouldRestart c p = false := by
  simp [shouldRestart, automaticRestart, ha]

theorem prepared_reset (site : LaunchSite) (p : ProcessHandle) :
    (p.prepared site).reset.generation = p.generation ∧
      (p.prepared site).reset.config = p.config := by
  cases site with
  | dependency => exact ⟨rfl, rfl⟩
  | due nowMs => exact ⟨rfl, rfl⟩

end Daemon

/-- The record still stands for the same process, which is to end as before. -/
structure Stays (p q : ProcessHandle) : Prop where
  config : q.config = p.config
  hasProcess : q.hasProcess = p.hasProcess
  generation : q.generation = p.generation
  completionAction : q.completionAction = p.completionAction

/-- The record has no process, and forgets how the last one was to end. -/
structure Settles (p q : ProcessHandle) : Prop where
  config : q.config = p.config
  hasProcess : q.hasProcess = false
  generation : q.generation = p.generation
  completionAction : q.completionAction = .automatic

/-- What a move means for the process and the definition that a record stands for. -/
inductive RecordTurn (s s' : Daemon) (n : String) : Prop
  | absent (h : s.find n = none) (h' : s'.find n = none)
  | stays (hp : s.find n = some p) (h : s'.find n = some q) (hk : Stays p q)
  | terminated (hp : s.find n = some p) (h : s'.find n = some q)
      (hk : Stays p { q with completionAction := p.completionAction })
      (hh : s'.history = ⟨.terminate n q.completionAction, s.toCore⟩ :: s.history)
  | started (hp : s.find n = some p) (h : s'.find n = some q) (hidle : p.hasProcess = false)
      (hconfig : q.config = p.config) (ha : q.completionAction = .automatic)
      (hg : q.generation = s.nextGeneration) (hnext : s'.nextGeneration = s.nextGeneration + 1)
  | settled (hp : s.find n = some p) (h : s'.find n = some q)
      (hend : p.hasProcess = false ∨ p.completionAction ≠ .deleteConfig) (hk : Settles p q)
  | gone (hwhy : (∃ p, s.find n = some p ∧ p.completionAction = .deleteConfig) ∨
        (findConfig n s.configMap = none ∨ s.Defining n) ∨ ∃ e ∈ since s s', e.call = .swapReload)
      (h : s'.find n = none)
  | ensured (cfg : ProgramConfig) (hcfg : findConfig n s.configMap = some cfg)
      (h : s'.find n = some ((s.find n).elim { config := cfg } fun p => { p with config := cfg }))

theorem Kept.stays {p q : ProcessHandle} (h : Kept p q) : Stays p q :=
  ⟨h.config, h.hasProcess, h.generation, h.completionAction⟩

theorem Move.turn (h : Move s s') (n : String) : RecordTurn s s' n := by
  cases h.record n with
  | same h hh =>
    cases hp : s.find n with
    | none => exact .absent hp (h.trans hp)
    | some p => exact .stays hp (h.trans hp) ⟨rfl, rfl, rfl, rfl⟩
  | edited hp hk h hh => exact .stays hp h hk.stays
  | appended hp hk chunks h hh =>
    exact .stays hp h ⟨hk.config, hk.hasProcess, hk.generation, hk.completionAction⟩
  | exited hp hk code h hh =>
    exact .stays hp h ⟨hk.config, hk.hasProcess, hk.generation, hk.completionAction⟩
  | terminated hp hlive hr hk job hjob h hh =>
    exact .terminated hp h ⟨hk.config, hk.hasProcess, hk.generation, rfl⟩ hh
  | readied hp hlive hk h hh =>
    exact .stays hp h ⟨hk.config, hk.hasProcess, hk.generation, hk.completionAction⟩
  | cleared hp hn hk h hh =>
    exact .stays hp h ⟨hk.config, hk.hasProcess, hk.generation, hk.completionAction⟩
  | started hp hidle hsite h hh hnext =>
    exact .started hp h hidle (prepared_reset _ _).2 rfl rfl hnext
  | refused hp hidle hsite h hh =>
    exact .settled hp h (.inl hidle) ⟨(prepared_reset _ _).2, rfl, (prepared_reset _ _).1, rfl⟩
  | completed hqueue hp hlive hc h hh =>
    cases hc with
    | restart h' ha =>
      exact .settled hp h (.inr (by rw [ha]; decide)) ⟨rfl, rfl, rfl, rfl⟩
    | suppressed h' ha hd =>
      refine .settled hp h (.inr fun hdelete => ?_) ⟨rfl, rfl, rfl, rfl⟩
      cases h'.symm.trans (shouldRestart_deleteConfig hdelete)
    | remove h' ha =>
      exact .settled hp h (.inr (by rw [ha]; decide)) ⟨rfl, rfl, rfl, rfl⟩
    | deleteConfig h' ha => exact .gone (.inl ⟨_, hp, ha⟩) h
    | ended h' ha => exact .settled hp h (.inr ha.2) ⟨rfl, rfl, rfl, rfl⟩
  | granted hqueue hp hlive hrestart ha hd h hh =>
    refine .settled hp h (.inr fun hdelete => ?_) ⟨rfl, rfl, rfl, rfl⟩
    cases hrestart.symm.trans (shouldRestart_deleteConfig hdelete)
  | dropped hn hp hidle h hh hgone => exact .gone (.inr (.inl hgone)) h
  | ensured cfg hname hcfg h hh => exact .ensured cfg hcfg h
  | swapped hqueue hidle h hh => exact .gone (.inr (.inr ⟨_, since_one hh, rfl⟩)) h

namespace Daemon

def Numbered (s : Daemon) : Prop := 1 ≤ s.nextGeneration ∧ ∀ m p, s.find m = some p →
  p.generation < s.nextGeneration ∧ (p.hasProcess = true → p.generation ≠ 0)

theorem Numbered.move (hs : s.Numbered) (hm : Move s s') : s'.Numbered := by
  obtain ⟨hone, hs⟩ := hs
  have hle := hm.nextGeneration_le
  refine ⟨hone.trans hle, fun m q hq => ?_⟩
  have hkept : ∀ {p : ProcessHandle}, s.find m = some p → q.generation = p.generation →
      (q.hasProcess = true → p.hasProcess = true) →
      q.generation < s'.nextGeneration ∧ (q.hasProcess = true → q.generation ≠ 0) := by
    intro p hp hg hlive
    rw [hg]
    exact ⟨(hs m p hp).1.trans_le hle, fun hq => (hs m p hp).2 (hlive hq)⟩
  cases hm.turn m with
  | absent h h' => cases hq.symm.trans h'
  | stays hp h hk =>
    cases hq.symm.trans h
    exact hkept hp hk.generation fun h => hk.hasProcess ▸ h
  | terminated hp h hk hh =>
    cases hq.symm.trans h
    exact hkept hp hk.generation fun h => hk.hasProcess ▸ h
  | started hp h hidle hconfig ha hg hnext =>
    cases hq.symm.trans h
    rw [hg, hnext]
    exact ⟨Nat.lt_succ_self _, fun _ => Nat.one_le_iff_ne_zero.1 hone⟩
  | settled hp h hend hk =>
    cases hq.symm.trans h
    exact hkept hp hk.generation fun h => by cases h.symm.trans hk.hasProcess
  | gone hwhy h => cases hq.symm.trans h
  | ensured cfg hcfg h =>
    cases hp : s.find m with
    | none =>
      rw [hp] at h
      cases hq.symm.trans h
      exact ⟨hone.trans hle, fun h => by cases h⟩
    | some p =>
      rw [hp] at h
      cases hq.symm.trans h
      exact hkept hp rfl fun h => h

theorem Fresh.numbered (hs : s.Fresh) : s.Numbered := by
  refine ⟨hs.nextGeneration.ge, fun m p hp => ?_⟩
  rw [hs.find m] at hp
  cases hp

theorem since_single {e e' : Event} {l₁ l₂ : List Event} (h : s'.history = e' :: s.history)
    (hsince : since s s' = l₁ ++ e :: l₂) : l₁ = [] ∧ e = e' := by
  rw [since_eq (l := [e']) h] at hsince
  cases l₁ with
  | nil => exact ⟨rfl, (List.cons.inj hsince).1.symm⟩
  | cons _ _ => simp at hsince

end Daemon
end PmTiny.Windows
