import PmTiny.Windows.ProgramNames
import PmTiny.Windows.Turns

namespace PmTiny.Windows
set_option autoImplicit true

variable {s s' : Daemon} {ω : System} {n m : String}

open Daemon

/-- The call changes which definition the program has, or reports one that was put in place. -/
def Call.defines (n : String) : Call → Bool
  | .define cfg | .created cfg => cfg.name = n
  | .deleted m => m = n
  | .swapReload => true
  | _ => false

theorem Call.defines_silent {call : Call} (h : call.silent = true) (n : String) :
    call.defines n = false := by
  cases call with
  | reply | pollStream | chunk | final => rfl
  | _ => cases h

inductive ConfigMove (s s' : Daemon) (n : String) : Prop
  | same (h : findConfig n s'.configMap = findConfig n s.configMap)
      (hh : Adds (fun e => e.call.defines n = false) s s')
  | completed (hp : s.find n = some p) (ha : p.completionAction = .deleteConfig)
      (h : findConfig n s'.configMap = none) (hh : Adds (fun e => e.call.defines n = false) s s')
  | defined (cfg : ProgramConfig) (hname : cfg.name = n)
      (hnew : ∀ c, findConfig n s.configMap = some c → c.cwd ≠ "" → cfg = c)
      (h : findConfig n s'.configMap = some cfg) (hfind : s'.find n = s.find n)
      (hh : s'.history = ⟨.define cfg, s.toCore⟩ :: s.history)
  | created (cfg : ProgramConfig) (hname : cfg.name = n) (hcore : s'.toCore = s.toCore)
      (hcfg : findConfig n s.configMap = some cfg) (hcwd : cfg.cwd ≠ "") (hp : s.find n = some p)
      (hpc : p.config = cfg)
      (hend : p.completionAction = .deleteConfig →
        ∃ e ∈ s.history, ∃ cfg' p', e.call = .define cfg' ∧ cfg'.name = n ∧
          findConfig n e.core.configMap = none ∧ e.core.find n = some p' ∧
          p'.completionAction = .deleteConfig)
      (hh : s'.history = ⟨.created cfg, s.toCore⟩ :: s.history)
  | deleted (hp : s.find n = some p)
      (hend : p.hasProcess = true → p.completionAction = .deleteConfig ∧
        p.termination.phase ≠ .none)
      (h : findConfig n s'.configMap = none) (hfind : s'.find n = s.find n)
      (hh : s'.history = ⟨.deleted n, s.toCore⟩ :: s.history)
  | rolledBack (hdefining : s.Defining n) (h : findConfig n s'.configMap = none)
      (hh : s'.history = s.history)
  | swapped (hfind : s'.find n = none) (hh : s'.history = ⟨.swapReload, s.toCore⟩ :: s.history)

theorem Completed.config {c : Core} {p : ProcessHandle} {nowMs : Int} {q? : Option ProcessHandle}
    {rt : DependencyRuntime} {configs : List ProgramConfig}
    (h : Completed c p nowMs q? rt configs) :
    configs = c.configMap ∨
      configs = eraseConfig p.name c.configMap ∧ p.completionAction = .deleteConfig := by
  cases h with
  | restart h ha => exact .inl rfl
  | suppressed h ha hd => exact .inl rfl
  | remove h ha => exact .inl rfl
  | deleteConfig h ha => exact .inr ⟨rfl, ha⟩
  | ended h ha => exact .inl rfl

theorem Move.config (h : Move s s') (n : String) : ConfigMove s s' n := by
  have hother : ∀ {m : String}, n ≠ m → decide (m = n) = false := fun hn =>
    decide_eq_false fun he => hn he.symm
  cases h with
  | outside hcore hstreams hnext hhistory hclosed => exact .same (by rw [hcore]) (.none hhistory)
  | note call h hreply => exact .same rfl (.one rfl (Call.defines_silent h n))
  | stream h => exact .same (by rw [h.core]) (h.adds.mono fun e he => Call.defines_silent he n)
  | edit hp hk hps => exact .same rfl (.none rfl)
  | append hp hk chunks hps => exact .same rfl (.one rfl rfl)
  | exit hp hk code hps => exact .same rfl (.one rfl rfl)
  | terminate hp hlive hr hk job hjob hps => exact .same rfl (.one rfl rfl)
  | setReady hp hlive hk hps => exact .same rfl (.none rfl)
  | manual hp hnames hk hps => exact .same rfl (.none rfl)
  | started hp hidle hsite hps => exact .same rfl (.one rfl rfl)
  | refused hp hidle hsite hps => exact .same rfl (.one rfl rfl)
  | start operation hready hnamed => exact .same rfl (.one rfl rfl)
  | dequeue queue h => exact .same rfl (.none rfl)
  | complete hqueue hp hlive hc hps =>
    rcases hc.config with rfl | ⟨rfl, ha⟩
    · exact .same rfl (.one rfl rfl)
    · obtain rfl := find_name hp
      rename_i p _ _ _ _
      by_cases hn : n = p.name
      · subst hn
        exact .completed hp ha ((findConfig_erase _ _ _).trans (if_pos rfl)) (.one rfl rfl)
      · exact .same ((findConfig_erase _ _ _).trans (if_neg hn)) (.one rfl rfl)
  | grant hqueue hp hlive hrestart ha hd hps => exact .same rfl (.two rfl rfl rfl)
  | define hqueue cfg hn hnew hrt hgraph hsource =>
    by_cases hname : n = cfg.name
    · subst hname
      exact .defined cfg rfl hnew ((findConfig_insert _ _ _).trans (if_pos rfl)) rfl rfl
    · exact .same ((findConfig_insert _ _ _).trans (if_neg hname)) (.one rfl (hother hname))
  | commitDelete hqueue hrequest hp hend hrt hgraph =>
    rename_i p graph rt m
    by_cases hn : n = m
    · subst hn
      exact .deleted hp hend ((findConfig_erase _ _ _).trans (if_pos rfl)) rfl rfl
    · exact .same ((findConfig_erase _ _ _).trans (if_neg hn)) (.one rfl (hother hn))
  | rollback hqueue hm hrt hgraph hdefining =>
    rename_i graph rt m
    by_cases hn : n = m
    · subst hn
      exact .rolledBack hdefining ((findConfig_erase _ _ _).trans (if_pos rfl)) rfl
    · exact .same ((findConfig_erase _ _ _).trans (if_neg hn)) (.none rfl)
  | dropRecord hnames hp hidle hps hgone => exact .same rfl (.none rfl)
  | ensure cfg hcfg hps => exact .same rfl (.one rfl rfl)
  | swap hqueue hidle hrt hconfigs => exact .swapped rfl rfl
  | flags reloadPending reloadPrograms shouldStop shutdownScheduled hprograms =>
    exact .same rfl (.none rfl)
  | request req hqueue ht => exact .same rfl (.one rfl rfl)
  | answered hqueue => exact .same rfl (.none rfl)
  | plan l hrequest h => exact .same rfl (.none rfl)
  | created cfg hcfg hcwd hp hpc hend =>
    by_cases hname : n = cfg.name
    · subst hname
      exact .created cfg rfl rfl hcfg hcwd hp hpc hend rfl
    · exact .same rfl (.one rfl (hother hname))

/-- A deleted program whose process still runs: its record forgets the completion action as soon as
the tree is empty. -/
def Core.draining (c : Core) (n : String) : Bool :=
  (findConfig n c.configMap).isNone && (c.find n).any fun p => p.completionAction = .deleteConfig

/-- While a deleted program's process still runs, nobody asks for another end of it, and its name is
given to no other program. -/
def Event.sparesDraining (e : Event) : Bool :=
  match e.call with
  | .terminate n action => action = .deleteConfig || !e.core.draining n
  | .define cfg => !e.core.draining cfg.name
  | _ => true

theorem Core.draining_of {c : Core} {p : ProcessHandle} (hnone : findConfig n c.configMap = none)
    (hp : c.find n = some p) (ha : p.completionAction = .deleteConfig) : c.draining n = true := by
  rw [Core.draining, hnone, hp]
  simpa using ha

namespace Daemon

/-- The record of one generation of a deleted program stays only as long as its process runs. -/
structure Retires (n : String) (g : Nat) (s : Daemon) : Prop where
  bound : g < s.nextGeneration
  positive : g ≠ 0
  record : ∀ p, s.find n = some p → p.generation = g → p.hasProcess = true ∧
    p.completionAction = .deleteConfig ∧ findConfig n s.configMap = none

theorem Retires.before (hs : Retires n g s) (hm : Move s s')
    (hK : ∀ e ∈ since s s', e.sparesDraining = true) {q : ProcessHandle} (hq : s'.find n = some q)
    (hg : q.generation = g) : q.hasProcess = true ∧ q.completionAction = .deleteConfig ∧
      ∃ p, s.find n = some p ∧ p.generation = g := by
  cases hm.turn n with
  | absent h h' => cases hq.symm.trans h'
  | stays hp h hk =>
    cases hq.symm.trans h
    have hpg := hk.generation.symm.trans hg
    obtain ⟨hlive, ha, -⟩ := hs.record _ hp hpg
    exact ⟨hk.hasProcess.trans hlive, hk.completionAction.trans ha, _, hp, hpg⟩
  | terminated hp h hk hh =>
    cases hq.symm.trans h
    have hpg := hk.generation.symm.trans hg
    obtain ⟨hlive, ha, hnone⟩ := hs.record _ hp hpg
    have hspared := hK _ (since_one hh)
    simp only [Event.sparesDraining, Core.draining_of hnone hp ha, Bool.not_true, Bool.or_false,
      decide_eq_true_iff] at hspared
    exact ⟨hk.hasProcess.trans hlive, hspared, _, hp, hpg⟩
  | started hp h hidle hconfig ha hnew hnext =>
    cases hq.symm.trans h
    exact absurd (hnew.symm.trans hg) hs.bound.ne'
  | settled hp h hend hk =>
    cases hq.symm.trans h
    obtain ⟨hlive, ha, -⟩ := hs.record _ hp (hk.generation.symm.trans hg)
    rcases hend with hidle | hkeep
    · cases hidle.symm.trans hlive
    · exact absurd ha hkeep
  | gone hwhy h => cases hq.symm.trans h
  | ensured cfg hcfg h =>
    cases hp : s.find n with
    | none =>
      rw [hp] at h
      cases hq.symm.trans h
      exact absurd hg.symm hs.positive
    | some p =>
      rw [hp] at h
      cases hq.symm.trans h
      obtain ⟨-, -, hnone⟩ := hs.record p hp hg
      cases hcfg.symm.trans hnone

theorem Retires.move (hs : Retires n g s) (hm : Move s s')
    (hK : ∀ e ∈ since s s', e.sparesDraining = true) : Retires n g s' := by
  refine ⟨hs.bound.trans_le hm.nextGeneration_le, hs.positive, fun q hq hg => ?_⟩
  obtain ⟨hlive, ha, p, hp, hpg⟩ := hs.before hm hK hq hg
  obtain ⟨-, hpa, hnone⟩ := hs.record p hp hpg
  refine ⟨hlive, ha, ?_⟩
  cases hm.config n with
  | same h hh => exact h.trans hnone
  | completed hp ha h hh => exact h
  | defined cfg hname hnew h hfind hh =>
    have hspared := hK _ (since_one hh)
    simp only [Event.sparesDraining, hname, Core.draining_of hnone hp hpa] at hspared
    cases hspared
  | created cfg hname hcore hcfg hcwd hp' hpc hend hh => cases hcfg.symm.trans hnone
  | deleted hp' hend h hfind hh => exact h
  | rolledBack hdefining h hh => exact h
  | swapped hfind hh => cases hq.symm.trans hfind

theorem Retires.moves (h : Moves s s') (hs : Retires n g s)
    (hK : ∀ e ∈ since s s', e.sparesDraining = true) :
    Retires n g s' ∧ ∀ e ∈ since s s', ∀ site outcome, e.call = .launchProgram n site outcome →
      ∀ p, e.core.find n = some p → p.generation ≠ g := by
  refine h.judged_since (I := fun x => Retires n g x ∧ ∀ e ∈ since s x, ∀ site outcome,
    e.call = .launchProgram n site outcome → ∀ p, e.core.find n = some p → p.generation ≠ g) hK
    ⟨hs, fun e he => ?_⟩ fun hsx hx hm hK' => ⟨hx.1.move hm hK', fun e he => ?_⟩
  · rw [since_eq (l := []) rfl] at he
    cases he
  · rw [since_tail hsx hm] at he
    rcases List.mem_append.1 he with hnew | hold
    · intro site outcome hcall q hq hg
      obtain ⟨p, rest, hp, hidle, -, hcore⟩ :=
        ((hm.record n).launches.since hnew) site outcome hcall
      rw [hcore] at hq
      cases hp.symm.trans hq
      exact absurd (hidle.symm.trans (hx.1.record _ hp hg).1) (by decide)
    · exact hx.2 e hold

/-- The call is a delete of the program that has passed its checks, or the end of a reload. -/
def ends (n : String) : Call → Bool
  | .terminate m .deleteConfig | .deleted m => m = n
  | .swapReload => true
  | _ => false

/-- A created definition is in force since its creation was reported in `s₁`. -/
structure Holds (cfg : ProgramConfig) (s₁ s : Daemon) : Prop where
  cwd : cfg.cwd ≠ ""
  config : findConfig cfg.name s.configMap = some cfg
  record : ∃ p, s.find cfg.name = some p ∧ p.config = cfg ∧ p.completionAction ≠ .deleteConfig
  defines : ∀ e ∈ since s₁ s, ∀ cfg', e.call = .define cfg' → cfg'.name = cfg.name →
    findConfig cfg.name e.core.configMap ≠ none

theorem Holds.not_defining {s₁ : Daemon} {cfg : ProgramConfig} {e : Event} {post : List Event}
    (h : Moves s₁ s) (hs₁ : s₁.history = e :: post) (he : e.call.creates = true)
    (hs : Holds cfg s₁ s) : ¬s.Defining cfg.name := by
  rintro ⟨l, d, post', cfg', hh, hquiet, hcall, hname, hnone⟩
  have hne : e ≠ d := by
    rintro rfl
    rw [hcall] at he
    cases he
  rw [h.history, hs₁] at hh
  rcases List.append_eq_append_iff.1 hh with ⟨k, hl, hrest⟩ | ⟨k, hl, hrest⟩
  · cases k with
    | nil => exact hne (List.cons.inj hrest).1
    | cons e' k =>
      obtain ⟨rfl, -⟩ := List.cons.inj hrest
      have hmem : e ∈ l := by
        rw [hl]
        exact List.mem_append_right _ List.mem_cons_self
      cases he.symm.trans (hquiet e hmem)
  · cases k with
    | nil => exact hne (List.cons.inj hrest).1.symm
    | cons d' k =>
      obtain ⟨rfl, -⟩ := List.cons.inj hrest
      refine hs.defines d ?_ cfg' hcall hname hnone
      rw [hl]
      exact List.mem_append_right _ List.mem_cons_self

theorem Holds.move {s₁ : Daemon} {cfg : ProgramConfig} {e : Event} {post : List Event}
    (h : Moves s₁ s) (hs₁ : s₁.history = e :: post) (he : e.call.creates = true)
    (hs : Holds cfg s₁ s) (hm : Move s s') (hK : ∀ e ∈ since s s', ends cfg.name e.call = false) :
    Holds cfg s₁ s' := by
  have hnot := hs.not_defining h hs₁ he
  have hswap : ¬∃ e ∈ since s s', e.call = .swapReload := by
    rintro ⟨e, he, hcall⟩
    have hends := hK e he
    rw [hcall] at hends
    cases hends
  obtain ⟨p, hp, hpc, ha⟩ := hs.record
  refine ⟨hs.cwd, ?_, ?_, fun e he' => ?_⟩
  · cases hm.config cfg.name with
    | same h hh => exact h.trans hs.config
    | completed hp' ha' h hh =>
      cases hp.symm.trans hp'
      exact absurd ha' ha
    | defined cfg' hname hnew h hfind hh => rw [h, hnew cfg hs.config hs.cwd]
    | created cfg' hname hcore hcfg hcwd hp' hpc' hend hh =>
      rw [hcore]
      exact hs.config
    | deleted hp' hend h hfind hh =>
      have hends := hK _ (since_one hh)
      simp [ends] at hends
    | rolledBack hdefining h hh => exact absurd hdefining hnot
    | swapped hfind hh => exact absurd ⟨_, since_one hh, rfl⟩ hswap
  · cases hm.turn cfg.name with
    | absent h h' => cases hp.symm.trans h
    | stays hp' h hk =>
      cases hp.symm.trans hp'
      exact ⟨_, h, hk.config.trans hpc, hk.completionAction ▸ ha⟩
    | terminated hp' h hk hh =>
      cases hp.symm.trans hp'
      refine ⟨_, h, hk.config.trans hpc, fun hdelete => ?_⟩
      have hends := hK _ (since_one hh)
      simp [hdelete, ends] at hends
    | started hp' h hidle hconfig ha' hg hnext =>
      cases hp.symm.trans hp'
      exact ⟨_, h, hconfig.trans hpc, by rw [ha']; decide⟩
    | settled hp' h hend hk =>
      cases hp.symm.trans hp'
      exact ⟨_, h, hk.config.trans hpc, by rw [hk.completionAction]; decide⟩
    | gone hwhy h =>
      rcases hwhy with ⟨p', hp', ha'⟩ | (hnone | hdefining) | hswapped
      · cases hp.symm.trans hp'
        exact absurd ha' ha
      · cases hs.config.symm.trans hnone
      · exact absurd hdefining hnot
      · exact absurd hswapped hswap
    | ensured cfg' hcfg h =>
      cases hs.config.symm.trans hcfg
      rw [hp] at h
      exact ⟨_, h, rfl, ha⟩
  · rw [since_tail h hm] at he'
    intro cfg' hcall hname
    rcases List.mem_append.1 he' with hnew | hold
    · have hsees : Adds (fun e => e.call.defines cfg.name = true → ∀ cfg', e.call = .define cfg' →
          findConfig cfg.name e.core.configMap = some cfg) s s' := by
        cases hm.config cfg.name with
        | same h hh => exact hh.mono fun e hnone hdefines => by cases hnone.symm.trans hdefines
        | completed hp' ha' h hh =>
          exact hh.mono fun e hnone hdefines => by cases hnone.symm.trans hdefines
        | defined cfg' hname hnew h hfind hh => exact .one hh fun _ _ _ => hs.config
        | created cfg' hname hcore hcfg hcwd hp' hpc' hend hh =>
          exact .one hh fun _ _ hcall => by cases hcall
        | deleted hp' hend h hfind hh => exact .one hh fun _ _ hcall => by cases hcall
        | rolledBack hdefining h hh => exact absurd hdefining hnot
        | swapped hfind hh => exact .one hh fun _ _ hcall => by cases hcall
      have hdefines : e.call.defines cfg.name = true := by
        rw [hcall]
        exact decide_eq_true hname
      rw [hsees.since hnew hdefines cfg' hcall]
      exact Option.some_ne_none cfg
    · exact hs.defines e hold cfg' hcall hname

theorem Retires.deleted {a b : Daemon} {l₁ l₂ : List Event} {e : Event} {p : ProcessHandle}
    (ha : a.Numbered) (hm : Move a b) (hsince : since a b = l₁ ++ e :: l₂)
    (hcall : e.call = .deleted n) (hp : e.core.find n = some p) (hlive : p.hasProcess = true) :
    l₁ = [] ∧ Retires n p.generation b := by
  have he : e ∈ since a b := by
    rw [hsince]
    exact List.mem_append_right _ List.mem_cons_self
  have hother : ¬Adds (fun e => e.call.defines n = false) a b := by
    intro hh
    have hdefines := hh.since he
    rw [hcall] at hdefines
    simp [Call.defines] at hdefines
  cases hm.config n with
  | same h hh => exact absurd hh hother
  | completed hp ha h hh => exact absurd hh hother
  | defined cfg hname hnew h hfind hh =>
    rw [(since_single hh hsince).2] at hcall
    cases hcall
  | created cfg hname hcore hcfg hcwd hp hpc hend hh =>
    rw [(since_single hh hsince).2] at hcall
    cases hcall
  | deleted hp' hend h hfind hh =>
    obtain ⟨hl, rfl⟩ := since_single hh hsince
    cases hp.symm.trans hp'
    refine ⟨hl, (ha.2 n p hp).1.trans_le hm.nextGeneration_le, (ha.2 n p hp).2 hlive, ?_⟩
    intro q hq hg
    cases hp.symm.trans (hfind.symm.trans hq)
    exact ⟨hlive, (hend hlive).1, h⟩
  | rolledBack hdefining h hh =>
    rw [since_eq (l := []) hh] at he
    cases he
  | swapped hfind hh =>
    rw [(since_single hh hsince).2] at hcall
    cases hcall

theorem Holds.created {a b : Daemon} {l₁ l₂ : List Event} {e : Event} {cfg : ProgramConfig}
    (hm : Move a b) (hsince : since a b = l₁ ++ e :: l₂) (hcall : e.call = .created cfg)
    (hK : ∀ e ∈ a.history, e.sparesDraining = true) :
    l₁ = [] ∧ b.history = e :: a.history ∧ Holds cfg b b := by
  have he : e ∈ since a b := by
    rw [hsince]
    exact List.mem_append_right _ List.mem_cons_self
  have hother : ¬Adds (fun e => e.call.defines cfg.name = false) a b := by
    intro hh
    have hdefines := hh.since he
    rw [hcall] at hdefines
    simp [Call.defines] at hdefines
  cases hm.config cfg.name with
  | same h hh => exact absurd hh hother
  | completed hp ha h hh => exact absurd hh hother
  | defined cfg' hname hnew h hfind hh =>
    rw [(since_single hh hsince).2] at hcall
    cases hcall
  | created cfg' hname hcore hcfg hcwd hp hpc hend hh =>
    obtain ⟨hl, rfl⟩ := since_single hh hsince
    cases hcall
    refine ⟨hl, hh, hcwd, by rw [hcore]; exact hcfg, ⟨_, by rw [hcore]; exact hp, hpc, ?_⟩, ?_⟩
    · intro ha
      obtain ⟨d, hd, cfg', p', hdcall, hname', hnone, hp', ha'⟩ := hend ha
      have hspared := hK d hd
      rw [Event.sparesDraining, hdcall] at hspared
      simp only [hname', Core.draining_of hnone hp' ha'] at hspared
      cases hspared
    · intro d hd
      rw [since_eq (l := []) rfl] at hd
      cases hd
  | deleted hp' hend h hfind hh =>
    rw [(since_single hh hsince).2] at hcall
    cases hcall
  | rolledBack hdefining h hh =>
    rw [since_eq (l := []) hh] at he
    cases he
  | swapped hfind hh =>
    rw [(since_single hh hsince).2] at hcall
    cases hcall

/-- What a delete has promised: the record of the generation that ran then has a process as long as
it is there, and is not launched again. -/
def DeletedGone (s : Daemon) : Prop := ∀ l e post n p, s.history = l ++ e :: post →
  e.call = .deleted n → e.core.find n = some p → p.hasProcess = true →
    (∀ q, s.find n = some q → q.generation = p.generation → q.hasProcess = true) ∧
    ∀ e' ∈ l, ∀ site outcome, e'.call = .launchProgram n site outcome →
      ∀ q, e'.core.find n = some q → q.generation ≠ p.generation

/-- What the answer to a create request has promised: the definition is in force and has a record
until a delete or a reload. -/
def CreatedStays (s : Daemon) : Prop := ∀ l e post cfg, s.history = l ++ e :: post →
  e.call = .created cfg → (∀ e' ∈ l, ends cfg.name e'.call = false) → s.Defined cfg

/-- As long as nobody asks for another end of a process that drains after a delete, and its name is
not created anew before that, deleted programs go and created ones stay. -/
theorem deleted_go_created_stay (h : Reachable ω s)
    (hK : ∀ e ∈ s.history, e.sparesDraining = true) : s.DeletedGone ∧ s.CreatedStays := by
  obtain ⟨s₀, hfresh, hmoves, -⟩ := h.moves
  have hsince : since s₀ s = s.history := by
    have hh := hmoves.history
    rw [hfresh.history, List.append_nil] at hh
    exact hh.symm
  have hlater : ∀ {b : Daemon}, Moves b s → ∀ e ∈ since b s, e.sparesDraining = true :=
    fun hb e he => hK e (mem_since hb he)
  refine ⟨fun l e post n p hh hcall hp hlive => ?_, fun l e post cfg hh hcall hends => ?_⟩
  · obtain ⟨a, b, l₁, l₂, hsa, hab, hbs, heq, rfl⟩ := hmoves.split (hsince.trans hh)
    have hnumbered : a.Numbered :=
      hsa.judged (K := fun _ => True) (fun _ _ => trivial) hfresh.numbered fun hs hm _ => hs.move hm
    obtain ⟨rfl, hretires⟩ := Retires.deleted hnumbered hab heq hcall hp hlive
    obtain ⟨hdone, hlaunch⟩ := hretires.moves hbs (hlater hbs)
    rw [List.append_nil]
    exact ⟨fun q hq hg => (hdone.record q hq hg).1, hlaunch⟩
  · obtain ⟨a, b, l₁, l₂, hsa, hab, hbs, heq, rfl⟩ := hmoves.split (hsince.trans hh)
    obtain ⟨rfl, hhistory, hholds⟩ := Holds.created hab heq hcall fun d hd =>
      hK d (hbs.adds.mem d (hab.adds.mem d hd))
    rw [List.append_nil] at hends
    have hcreates : e.call.creates = true := by
      rw [hcall]
      rfl
    have hall : Holds cfg b s := hbs.judged_since (K := fun e => ends cfg.name e.call = false) hends
      hholds fun hbx hx hm hK' => hx.move hbx hhistory hcreates hm hK'
    obtain ⟨q, hq, hqc, -⟩ := hall.record
    exact ⟨hall.config, q, hq, hqc⟩

/-- The event is the delete of a program that runs. -/
def deletesRunning (name : String) (e : Event) : Bool :=
  match e.call with
  | .deleted n => n = name && (e.core.find n).any (·.hasProcess)
  | _ => false

/-- The event reports a created program. -/
def createsNamed (name : String) (e : Event) : Bool :=
  match e.call with
  | .created cfg => cfg.name = name
  | _ => false

def deleteRequest (name : String) : Input := .callback (.requests 1 [(1, .remove name)])

def stopRequest (name : String) : Input := .callback (.requests 1 [(1, .stop name)])

theorem deleted_go_created_stay_again : ∃ s, Reachable (exitingSystem [oneShot "a" []]) s ∧
    ((∀ e ∈ s.history, e.sparesDraining = true) ∧
      (∃ e ∈ s.history, deletesRunning "a" e = true) ∧ ∃ e ∈ s.history, createsNamed "a" e = true) ∧
    s.DeletedGone ∧ s.CreatedStays := by
  obtain ⟨s, hs, htest⟩ := run_any (ω := exitingSystem [oneShot "a" []])
    ([Input.tick, .wake, deleteRequest "a"] ++ exits "a" 1 ++
      [Input.tick, .wake, createProgram "a"])
    (fun s => s.history.all Event.sparesDraining && (s.history.any (deletesRunning "a") &&
      s.history.any (createsNamed "a"))) (by decide +kernel)
  simp only [Bool.and_eq_true, List.all_eq_true, List.any_eq_true] at htest
  exact ⟨s, hs, htest, deleted_go_created_stay hs htest.1⟩

/-- A stop that arrives while a deleted program drains keeps its record, and a program that is
created under its name meanwhile is lost when the old process has ended. -/
theorem draining_forgotten :
    (∃ s, Reachable (exitingSystem [oneShot "a" []]) s ∧ ¬s.DeletedGone) ∧
      ∃ s, Reachable (exitingSystem [oneShot "a" []]) s ∧ ¬s.CreatedStays := by
  constructor
  · obtain ⟨s, hs, htest⟩ := run_any (ω := exitingSystem [oneShot "a" []])
      ([Input.tick, .wake, deleteRequest "a", stopRequest "a"] ++ exits "a" 1 ++
        [Input.tick, .wake])
      (fun s => s.history.any (fun e => deletesRunning "a" e &&
        (s.find "a").any fun q => !q.hasProcess &&
          (e.core.find "a").any fun p => p.generation = q.generation)) (by decide +kernel)
    simp only [List.any_eq_true, Option.any_eq_true, Bool.and_eq_true, Bool.not_eq_true',
      decide_eq_true_iff] at htest
    obtain ⟨e, he, hdeletes, q, hq, hidle, p, hp, hg⟩ := htest
    refine ⟨s, hs, fun h => ?_⟩
    obtain ⟨l, post, hh⟩ := List.append_of_mem he
    rw [deletesRunning] at hdeletes
    split at hdeletes
    · rename_i n hcall
      simp only [Bool.and_eq_true, decide_eq_true_iff, Option.any_eq_true] at hdeletes
      obtain ⟨rfl, p', hp', hlive⟩ := hdeletes
      cases hp.symm.trans hp'
      obtain ⟨hkept, -⟩ := h l e post _ p hh hcall hp hlive
      exact absurd (hidle.symm.trans (hkept q hq hg.symm)) (by decide)
    · cases hdeletes
  · obtain ⟨s, hs, htest⟩ := run_any (ω := exitingSystem [oneShot "a" []])
      ([Input.tick, .wake, deleteRequest "a", createProgram "a"] ++ exits "a" 1 ++
        [Input.tick, .wake])
      (fun s => (findConfig "a" s.configMap).isNone &&
        (s.history.takeWhile fun e => !createsNamed "a" e).all (fun e => !ends "a" e.call) &&
        (s.history.dropWhile fun e => !createsNamed "a" e).head?.any (createsNamed "a"))
      (by decide +kernel)
    simp only [Bool.and_eq_true, Option.isNone_iff_eq_none, List.all_eq_true, Bool.not_eq_true',
      Option.any_eq_true] at htest
    obtain ⟨⟨hnone, hends⟩, e, he, hcreates⟩ := htest
    refine ⟨s, hs, fun h => ?_⟩
    obtain ⟨post, hpost⟩ := List.head?_eq_some_iff.1 he
    have hh := List.takeWhile_append_dropWhile (p := fun e => !createsNamed "a" e) (l := s.history)
    rw [hpost] at hh
    rw [createsNamed] at hcreates
    split at hcreates
    · rename_i cfg hcall
      have hname : cfg.name = "a" := of_decide_eq_true hcreates
      obtain ⟨hcfg, -⟩ := h _ e post cfg hh.symm hcall (by rw [hname]; exact hends)
      rw [hname, hnone] at hcfg
      cases hcfg
    · cases hcreates

end Daemon
end PmTiny.Windows
