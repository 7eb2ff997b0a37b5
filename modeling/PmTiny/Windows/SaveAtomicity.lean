import PmTiny.Windows.SaveRecovery

namespace PmTiny.Windows.Persistence
set_option autoImplicit true
open Crash FileSystem Persist

/-- `P` holds when a step succeeds; when it fails `E` does, and a call that failed lies behind. -/
def Reaches (faults : Nat → Bool) (P E : Files → Prop) : Except String Unit → Files → Nat → Prop :=
  Either (fun v _ => P v) fun v n => E v ∧ Hit faults n

section

variable {code : String → Nat} {faults : Nat → Bool} {path : Role → String} {v : Files} {n : Nat}
  {inv P Q E : Files → Prop}

theorem counted_writeFile {i : Role} (hp : Function.Injective path)
    (hk : ∀ node ∈ v i, node.isFile) (hi : inv v)
    (hfile : ∀ content, inv (Function.update v i (some (.file content)))) (hE : E v)
    (hE' : ∀ content, E (Function.update v i (some (.file content))))
    (hP : P (Function.update v i (some (.file (some content))))) :
    Counted faults path inv (Reaches faults P E) (writeFile code (path i) content) v n := by
  apply counted_followedBy
  apply counted_require
  apply counted_create hp hk hi
  · exact fun hf _ => ⟨hE, .here hf⟩
  · exact hfile none
  apply counted_followedBy
  apply counted_require
  apply counted_write hp (hfile none)
  · exact fun hf _ => ⟨hE' none, .here hf⟩
  · exact hfile _
  apply counted_require
  apply counted_sync (hfile _)
  · exact fun hf => ⟨hE' _, .here hf⟩
  · rw [Function.update_self]
    exact hP

theorem counted_writeFileIn {i : Role} (hp : Function.Injective path)
    (hi : ∀ entries, inv (Function.update v i (some (.directory entries))))
    (hE : ∀ entries, E (Function.update v i (some (.directory entries))))
    (entries : List (String × Option Yaml))
    (hP : P (Function.update v i (some (.directory (putEntry filename (some content) entries))))) :
    Counted faults path inv (Reaches faults P E)
      (writeFileIn code (path i) filename content)
      (Function.update v i (some (.directory entries))) n := by
  apply counted_followedBy
  apply counted_require
  apply counted_putIn hp (hi entries)
  · exact fun hf _ => ⟨hE _, .here hf⟩
  · exact hi _
  apply counted_followedBy
  apply counted_require
  apply counted_putIn hp (hi _)
  · exact fun hf _ => ⟨hE _, .here hf⟩
  · exact hi _
  apply counted_require
  apply counted_syncEntry (hi _)
  · exact fun hf => ⟨hE _, .here hf⟩
  · intro found hfound
    have htrue : found = true := by
      rw [hfound _ (Function.update_self ..), any_putEntry]
    subst htrue
    rw [putEntry_putEntry]
    exact hP

/-- The files of a directory are written one by one; on the way some of them are there. -/
theorem counted_writeEnvironments {i : Role} (hp : Function.Injective path)
    (hi : ∀ entries, inv (Function.update v i (some (.directory entries))))
    (hE : ∀ entries, E (Function.update v i (some (.directory entries))))
    (files : List (String × Yaml)) (entries : List (String × Option Yaml))
    (hP : P (Function.update v i (some (.directory (files.foldl
      (fun entries file => putEntry file.1 (some file.2) entries) entries))))) :
    Counted faults path inv (Reaches faults P E) (writeEnvironments code (path i) files)
      (Function.update v i (some (.directory entries))) n := by
  induction files generalizing entries n with
  | nil => exact counted_pure (hi entries) hP
  | cons file files ih =>
    apply counted_sequence (P := fun v' _ => v' = Function.update v i
      (some (.directory (putEntry file.1 (some file.2) entries))))
    · exact counted_writeFileIn hp hi hE entries rfl
    · intro v' n' _ hv
      subst hv
      exact ih _ hP

theorem counted_reach {p q : Fallible} (h : Counted faults path inv (Reaches faults P E) p v n)
    (hq : ∀ v n, inv v → P v → Counted faults path inv (Reaches faults Q E) q v n) :
    Counted faults path inv (Reaches faults Q E) (followedBy p q) v n := counted_sequence h hq

theorem counted_writeJournal {paths : SavePaths} (t : SaveTransaction) (hk : Kinds v)
    (hi : ∀ temp : Option (Node Yaml), (∀ n ∈ temp, n.isDirectory = false) →
      inv (Function.update v .journalTemp temp))
    (hE : ∀ temp : Option (Node Yaml), E (Function.update v .journalTemp temp))
    (hi' : inv (Function.update (Function.update v .journal (some (.file (some (journalNode t)))))
      .journalTemp none))
    (hE' : E (Function.update (Function.update v .journal (some (.file (some (journalNode t)))))
      .journalTemp none))
    (hP : P (Function.update (Function.update v .journal (some (.file (some (journalNode t)))))
      .journalTemp none)) :
    Counted faults paths.path inv (Reaches faults P E)
      (writeJournal code (journalPath paths.cfgPath) t) v n := by
  have hiv := hi (v .journalTemp) (hk .journalTemp)
  have hEv := hE (v .journalTemp)
  rw [Function.update_eq_self] at hiv hEv
  have hfile : ∀ content, inv (Function.update v .journalTemp (some (.file content))) := by
    intro content
    apply hi
    intro n hn
    cases hn
    rfl
  apply counted_reach (P := fun v' => v' = Function.update v .journalTemp
    (some (.file (some (journalNode t)))))
  · exact counted_writeFile (i := .journalTemp) paths.injective (hk.isFile rfl) hiv hfile hEv
      (fun _ => hE _) rfl
  intro v₁ n₁ _ h₁
  subst h₁
  apply counted_reach (P := fun v' => v' = Function.update (Function.update v .journal
    (some (.file (some (journalNode t))))) .journalTemp none)
  · have hmoved : Function.update (Function.update
        (Function.update v .journalTemp (some (.file (some (journalNode t))))) .journal
        (some (.file (some (journalNode t))))) .journalTemp none =
        Function.update (Function.update v .journal (some (.file (some (journalNode t)))))
          .journalTemp none := by
      rw [Function.update_comm (by decide), Function.update_idem,
        Function.update_comm (by decide)]
    apply counted_onFailure
    apply counted_movePath (i := .journalTemp) (j := .journal) paths.injective (by decide)
      (hfile _)
    · rw [Function.update_self, Function.update_of_ne (by decide)]
      exact movesOnto_file _ (hk.isFile rfl)
    · intro hf error
      apply counted_discard
      apply counted_unlink (i := .journalTemp) paths.injective _ (hfile _)
      · rw [Function.update_idem]
        exact hi none (by simp)
      · intro _
        rw [Function.update_idem]
        exact ⟨hE none, .here hf⟩
      · rw [Function.update_self]
        intro n hn
        cases hn
        rfl
    · rw [Function.update_self, hmoved]
      exact hi'
    · rw [Function.update_self, hmoved]
      rfl
  intro v₂ n₂ _ h₂
  subst h₂
  apply counted_require
  apply counted_syncParent hi'
  · exact fun hf => ⟨hE', .here hf⟩
  · exact hP

theorem counted_movePathIf {i j : Role} (hp : Function.Injective path) (hne : i ≠ j) (hi : inv v)
    (hj : v j = none) (hi' : inv (Function.update (Function.update v j (v i)) i none))
    (hP : P (Function.update (Function.update v j (v i)) i none)) :
    Counted faults path inv (Reaches faults P fun _ => True)
      (movePathIf code (v i).isSome (path i) (path j)) v n := by
  cases hs : (v i).isSome with
  | true =>
    apply counted_movePath hp hne hi
    · rw [hj]
      exact movesOnto_none hs
    · exact fun hf => ⟨trivial, .here hf⟩
    · exact hi'
    · exact hP
  | false =>
    have hnone : v i = none := by simpa using hs
    have hsame : Function.update (Function.update v j (v i)) i none = v := by
      have h₁ : Function.update v j (v i) = v := by
        rw [hnone, ← hj, Function.update_eq_self]
      rw [h₁, ← hnone, Function.update_eq_self]
    rw [hsame] at hP
    exact counted_pure hi hP

end

section

variable {code : String → Nat} {paths : SavePaths} {versions : Versions} {v : Files}
  {faults : Nat → Bool} {n : Nat}

theorem consistent_untouched (h : Untouched versions v) : Consistent paths versions v := by
  obtain ⟨hk, hj, hc, he⟩ := h
  exact ⟨hk, .idle hj (.inl (Prod.ext hc he))⟩

theorem counted_stageNew (hu : Untouched versions v)
    (hnewCfg : versions.newCfg = .file (some (configRoot configs)))
    (hnewEnv : versions.newEnv = .directory (directoryOf (configs.map sidecar))) (state : String)
    (hadConfig hadEnviron : Bool) :
    Counted faults paths.path (Consistent paths versions)
      (Reaches faults (Staged versions) (Untouched versions))
      (stageNew code (transactionOf paths state hadConfig hadEnviron) configs) v n := by
  have hu₁ : Untouched versions (Function.update v .envStage none) := hu.update rfl (by simp)
  have hu₂ : Untouched versions (Function.update (Function.update v .envStage none)
      .envBackup none) := hu₁.update rfl (by simp)
  have hu₃ : Untouched versions (Function.update (Function.update (Function.update v
      .envStage none) .envBackup none) .cfgBackup none) := hu₂.update rfl (by simp)
  apply counted_bind
  apply counted_removeFlatDirectory (i := .envStage) paths.injective (hu.1 .envStage)
  · exact fun node hn => consistent_untouched (hu.update rfl hn)
  apply counted_bind
  apply counted_removeFlatDirectory (i := .envBackup) paths.injective (hu₁.1 .envBackup)
  · exact fun node hn => consistent_untouched (hu₁.update rfl hn)
  apply counted_bind
  apply counted_discard
  apply counted_unlink (i := .cfgBackup) paths.injective (hu₂.1.isFile rfl)
    (consistent_untouched hu₂) (consistent_untouched hu₃)
  intro _
  have hcb : (Function.update (Function.update (Function.update v .envStage none) .envBackup none)
      .cfgBackup none) .cfgBackup = none := rfl
  have heb : (Function.update (Function.update (Function.update v .envStage none) .envBackup none)
      .cfgBackup none) .envBackup = none := rfl
  have hes : (Function.update (Function.update (Function.update v .envStage none) .envBackup none)
      .cfgBackup none) .envStage = none := rfl
  generalize Function.update (Function.update (Function.update v .envStage none) .envBackup none)
    .cfgBackup none = w at hu₃ hcb heb hes
  have hdir : ∀ entries, Untouched versions
      (Function.update w .envStage (some (.directory entries))) := by
    intro entries
    apply hu₃.update rfl
    intro n hn
    cases hn
    rfl
  apply counted_reach (P := fun w' => w' = Function.update w .envStage (some (.directory [])))
  · apply counted_require
    apply counted_mkdir (i := .envStage) paths.injective hes (consistent_untouched hu₃)
    · exact fun hf => ⟨hu₃, .here hf⟩
    · exact consistent_untouched (hdir [])
    · rfl
  intro w' n' _ hw
  subst hw
  apply counted_onFailure
  have hfiles : Counted faults paths.path (Consistent paths versions)
      (Reaches faults (Staged versions) (Untouched versions))
      (followedBy
        (writeEnvironments code (paths.path .envStage) (configs.map sidecar))
        (writeFile code (paths.path .cfgTemp) (configRoot configs)))
      (Function.update w .envStage (some (.directory []))) n' := by
    apply counted_reach (P := fun w' => w' = Function.update w .envStage
      (some (.directory (directoryOf (configs.map sidecar)))))
    · exact counted_writeEnvironments paths.injective
        (fun entries => consistent_untouched (hdir entries)) hdir _ [] rfl
    intro w₁ n₁ _ hw
    subst hw
    have hu₄ := hdir (directoryOf (configs.map sidecar))
    have hfile : ∀ content, Untouched versions (Function.update (Function.update w .envStage
        (some (.directory (directoryOf (configs.map sidecar))))) .cfgTemp
        (some (.file content))) := by
      intro content
      apply hu₄.update rfl
      intro n hn
      cases hn
      rfl
    apply counted_writeFile (i := .cfgTemp) paths.injective (hu₄.1.isFile rfl)
      (consistent_untouched hu₄) (fun content => consistent_untouched (hfile content)) hu₄ hfile
    obtain ⟨hk, hj, hc, he⟩ := hfile (some (configRoot configs))
    refine ⟨hk, hj, hc, he, hcb, heb, ?_, ?_⟩
    · rw [Function.update_self, hnewCfg]
    · rw [hnewEnv]
      rfl
  apply counted_mono hfiles
  intro result v n _ hr
  cases result with
  | ok => exact hr
  | error error =>
    obtain ⟨hu, hf⟩ := hr
    intro _
    apply counted_removeFlatDirectory (i := .envStage) paths.injective (hu.1 .envStage)
    · exact fun node hn => consistent_untouched (hu.update rfl hn)
    · exact ⟨hu.update rfl (by simp), hf⟩

def Prepared (paths : SavePaths) (versions : Versions) (v : Files) : Prop :=
  Holds v (journalOf paths versions "prepared") versions.oldCfg versions.oldEnv none none
    (some versions.newCfg) (some versions.newEnv)

def Installed (paths : SavePaths) (versions : Versions) (v : Files) : Prop :=
  Kinds v ∧ v .journal = journalOf paths versions "new_installed" ∧ pair v = versions.new

theorem holds_moving (h : Holds v (journalOf paths versions state) c e cb eb ct es)
    (hc : Restorable versions.oldCfg c cb) (he : Restorable versions.oldEnv e eb) :
    Moving paths versions state v := by
  constructor
  · exact h.journal
  · rwa [h.cfg, h.cfgBackup]
  · rwa [h.env, h.envBackup]

theorem holds_announce (h : Holds v j c e cb eb ct es) (t : SaveTransaction) :
    Holds (Function.update (Function.update v .journal (some (.file (some (journalNode t)))))
      .journalTemp none) (some (.file (some (journalNode t)))) c e cb eb ct es := by
  refine ⟨Kinds.clear (h.kinds.update ?_) _, rfl, h.cfg, h.env, h.cfgBackup, h.envBackup,
    h.cfgTemp, h.envStage⟩
  intro n hn
  cases hn
  rfl

theorem Installed.consistent (h : Installed paths versions v) : Consistent paths versions v :=
  ⟨h.1, .installed h.2.1 h.2.2⟩

theorem counted_prepare (h : Staged versions v) :
    let t := transactionOf paths "prepared" versions.oldCfg.isSome versions.oldEnv.isSome
    Counted faults paths.path (Consistent paths versions)
      (Reaches faults (Prepared paths versions) fun v => pair v = versions.old)
      (onFailure (writeJournal code (journalPath paths.cfgPath) t) (do
        discard (unlink t.configTemp)
        removeFlatDirectory t.environStage)) v n := by
  intro t
  have hu : Untouched versions v := ⟨h.kinds, h.journal, h.cfg, h.env⟩
  have hp : pair v = versions.old := Prod.ext h.cfg h.env
  have h' : Prepared paths versions _ := holds_announce h t
  have hjournal : Counted faults paths.path (Consistent paths versions)
      (Reaches faults (Prepared paths versions) fun v => pair v = versions.old)
      (writeJournal code (journalPath paths.cfgPath) t) v n := by
    apply counted_writeJournal t h.kinds
    · exact fun temp hn => consistent_untouched (hu.update rfl hn)
    · exact fun temp => hp
    · exact (holds_moving h' (.unmoved _) (.unmoved _)).consistent h'.kinds (.inl rfl)
    · exact hp
    · exact h'
  apply counted_onFailure
  apply counted_mono hjournal
  intro result v n hv hr
  cases result with
  | ok => exact hr
  | error error =>
    obtain ⟨hp, hf⟩ := hr
    intro _
    have hv₁ : Consistent paths versions (Function.update v .cfgTemp none) :=
      hv.staged rfl (by simp)
    apply counted_bind
    apply counted_discard
    apply counted_unlink (i := .cfgTemp) paths.injective (hv.1.isFile rfl) hv hv₁
    intro _
    apply counted_removeFlatDirectory (i := .envStage) paths.injective (hv₁.1 .envStage)
    · exact fun node hn => hv₁.staged rfl hn
    · exact ⟨hp, hf⟩

theorem counted_commitSteps (h : Prepared paths versions v) :
    Counted faults paths.path (Consistent paths versions)
      (Reaches faults (Installed paths versions) fun _ => True)
      (commitSteps code (journalPath paths.cfgPath)
        (transactionOf paths state versions.oldCfg.isSome versions.oldEnv.isSome)) v n := by
  have hm := (holds_moving h (.unmoved _) (.unmoved _)).consistent h.kinds (.inl rfl)
  have h₁ := Holds.moveCfg h
  have hm₁ := (holds_moving h₁ (.backup _ _) (.unmoved _)).consistent h₁.kinds (.inl rfl)
  have hcfg : versions.oldCfg.isSome = (v .cfg).isSome := by rw [h.cfg]
  apply counted_reach (P := fun v => Holds v (journalOf paths versions "prepared") none
    versions.oldEnv versions.oldCfg none (some versions.newCfg) (some versions.newEnv))
  · exact hcfg ▸ counted_movePathIf (i := .cfg) (j := .cfgBackup) paths.injective (by decide) hm
      h.cfgBackup hm₁ h₁
  clear h hm h₁ hm₁ hcfg
  intro v n hm h
  have h₁ := Holds.moveEnv h
  have hm₁ := (holds_moving h₁ (.backup _ _) (.backup _ _)).consistent h₁.kinds (.inl rfl)
  have henv : versions.oldEnv.isSome = (v .env).isSome := by rw [h.env]
  apply counted_reach (P := fun v => Holds v (journalOf paths versions "prepared") none none
    versions.oldCfg versions.oldEnv (some versions.newCfg) (some versions.newEnv))
  · exact henv ▸ counted_movePathIf (i := .env) (j := .envBackup) paths.injective (by decide) hm
      h.envBackup hm₁ h₁
  clear h hm h₁ hm₁ henv
  intro v n hm h
  have hmoving := holds_moving h (.backup _ _) (.backup _ _)
  have h₁ := holds_announce h (transactionOf paths "old_moved" versions.oldCfg.isSome
    versions.oldEnv.isSome)
  apply counted_reach (P := fun v => Holds v (journalOf paths versions "old_moved") none none
    versions.oldCfg versions.oldEnv (some versions.newCfg) (some versions.newEnv))
  · apply counted_writeJournal _ h.kinds
    · exact fun temp hn => (hmoving.staged rfl temp).consistent (h.kinds.update hn) (.inl rfl)
    · exact fun _ => trivial
    · exact (holds_moving h₁ (.backup _ _) (.backup _ _)).consistent h₁.kinds (.inr rfl)
    · trivial
    · exact h₁
  clear h hm h₁ hmoving
  intro v n hm h
  have h₁ := Holds.installCfg h
  apply counted_reach (P := fun v => Holds v (journalOf paths versions "old_moved")
    (some versions.newCfg) none versions.oldCfg versions.oldEnv none (some versions.newEnv))
  · apply counted_movePath (i := .cfgTemp) (j := .cfg) paths.injective (by decide) hm
    · rw [h.cfgTemp, h.cfg]
      exact movesOnto_none rfl
    · exact fun hf => ⟨trivial, .here hf⟩
    · exact (holds_moving h₁ (.backup _ _) (.backup _ _)).consistent h₁.kinds (.inr rfl)
    · exact h₁
  clear h hm h₁
  intro v n hm h
  have h₁ := Holds.installEnv h
  apply counted_reach (P := fun v => Holds v (journalOf paths versions "old_moved")
    (some versions.newCfg) (some versions.newEnv) versions.oldCfg versions.oldEnv none none)
  · apply counted_movePath (i := .envStage) (j := .env) paths.injective (by decide) hm
    · rw [h.envStage, h.env]
      exact movesOnto_none rfl
    · exact fun hf => ⟨trivial, .here hf⟩
    · exact (holds_moving h₁ (.backup _ _) (.backup _ _)).consistent h₁.kinds (.inr rfl)
    · exact h₁
  clear h hm h₁
  intro v n hm h
  have hmoving := holds_moving h (.backup _ _) (.backup _ _)
  have h₁ := holds_announce h (transactionOf paths "new_installed" versions.oldCfg.isSome
    versions.oldEnv.isSome)
  have hinstalled : Installed paths versions _ := ⟨h₁.kinds, h₁.journal, Prod.ext h₁.cfg h₁.env⟩
  apply counted_writeJournal _ h.kinds
  · exact fun temp hn => (hmoving.staged rfl temp).consistent (h.kinds.update hn) (.inr rfl)
  · exact fun _ => trivial
  · exact hinstalled.consistent
  · trivial
  · exact hinstalled

/-- What a save promises: the new pair when it returns 0, a complete pair when no more than one call
fails, and 0 when none does. -/
structure Saved (versions : Versions) (faults : Nat → Bool) (result : Int × String) (v : Files) :
    Prop where
  new : result.1 = 0 → v .journal = none ∧ pair v = versions.new
  settled : (∀ m n, faults m = true → faults n = true → m = n) → Settled versions v
  returns : (∀ n, faults n = false) → result = (0, "")

theorem Saved.failed (hf : Hit faults n)
    (h : (∀ m n, faults m = true → faults n = true → m = n) → Settled versions v) :
    Saved versions faults (-1, error) v := by
  obtain ⟨m, -, hm⟩ := hf
  constructor
  · intro hzero
    cases hzero
  · exact h
  · intro hnone
    rw [hnone m] at hm
    cases hm

theorem counted_rollback (hv : Consistent paths versions v) (hf : Hit faults n) :
    Counted faults paths.path (Consistent paths versions)
      (fun result v _ => Saved versions faults result v)
      (rollback code paths.cfgPath paths.envPath error) v n := by
  apply counted_bind
  apply counted_mono (counted_recover hv)
  intro result v _ hv hr
  have hfailed : ∀ text, Saved versions faults (-1, text) v := by
    intro text
    apply Saved.failed hf
    intro hone
    have hreturned := hr.2 fun m hn => hf.past hone hn
    exact (hr.1 hreturned).2
  cases result with
  | ok => exact counted_pure hv (hfailed _)
  | error recoveryError => exact counted_pure hv (hfailed _)

theorem counted_commitSave (h : Prepared paths versions v) :
    Counted faults paths.path (Consistent paths versions)
      (fun result v _ => Saved versions faults result v)
      (commitSave code (journalPath paths.cfgPath)
        (transactionOf paths state versions.oldCfg.isSome versions.oldEnv.isSome)) v n := by
  apply counted_bind
  apply counted_mono (counted_commitSteps h)
  clear h
  intro result v n hv hr
  cases result with
  | error error => exact counted_rollback hv hr.2
  | ok =>
    obtain ⟨hk, hj, hp⟩ := hr
    have h₁ : Installed paths versions (Function.update v .cfgBackup none) :=
      ⟨hk.clear .cfgBackup, hj, hp⟩
    have h₂ : ∀ node : Option (Node Yaml), (∀ n ∈ node, n.isDirectory = true) →
        Installed paths versions
          (Function.update (Function.update v .cfgBackup none) .envBackup node) :=
      fun node hn => ⟨h₁.1.update hn, hj, hp⟩
    have hremoved := h₂ none (by simp)
    have hdone := hremoved.consistent.journal_none (.inr hp)
    have hsaved : Saved versions faults (0, "") (Function.update (Function.update
        (Function.update v .cfgBackup none) .envBackup none) .journal none) :=
      ⟨fun _ => ⟨Function.update_self .., hp⟩, fun _ => .inr hp, fun _ => rfl⟩
    apply counted_bind
    apply counted_discard
    apply counted_unlink (i := .cfgBackup) paths.injective (hk.isFile rfl) hv h₁.consistent
    intro _
    apply counted_bind
    apply counted_removeFlatDirectory (i := .envBackup) paths.injective (h₁.1 .envBackup)
    · exact fun node hn => (h₂ node hn).consistent
    apply counted_bind
    apply counted_discard
    apply counted_unlink (i := .journal) paths.injective (hremoved.1.isFile rfl)
      hremoved.consistent hdone
    intro _
    apply counted_bind
    apply counted_discard
    apply counted_syncParent hdone
    · exact fun _ => counted_pure hdone hsaved
    · exact counted_pure hdone hsaved

/-- The old pair as a save finds it, and the new pair that it is to write. -/
def versionsOf (v : Files) (hk : Kinds v) (configs : List Persist.ProgCfg) : Versions where
  oldCfg := v .cfg
  oldEnv := v .env
  newCfg := .file (some (configRoot configs))
  newEnv := .directory (directoryOf (configs.map sidecar))
  oldCfg_kind := hk .cfg
  oldEnv_kind := hk .env

theorem counted_save (hk : Kinds v) (hj : v .journal = none) (configs : List Persist.ProgCfg) :
    Counted faults paths.path (Consistent paths (versionsOf v hk configs))
      (fun result v' _ => Saved (versionsOf v hk configs) faults result v')
      (saveProgramConfigs code configs paths.cfgPath paths.envPath paths.pid paths.time) v n := by
  have hu : Untouched (versionsOf v hk configs) v := ⟨hk, hj, rfl, rfl⟩
  have hv : Consistent paths (versionsOf v hk configs) v := consistent_untouched hu
  apply counted_bind
  apply counted_bind
  apply counted_access (i := .journal) hv
  rw [hj]
  apply counted_pure hv
  apply counted_bind
  apply counted_access (i := .cfg) hv
  apply counted_bind
  apply counted_access (i := .env) hv
  apply counted_bind
  apply counted_mono (counted_stageNew hu rfl rfl "prepared" _ _)
  intro result v₁ n₁ hv₁ hr
  cases result with
  | error error =>
    obtain ⟨⟨-, -, hc, he⟩, hf⟩ := hr
    exact counted_pure hv₁ (.failed hf fun _ => .inl (Prod.ext hc he))
  | ok =>
    have hs : Staged (versionsOf v hk configs) v₁ := hr
    apply counted_bind
    apply counted_mono (counted_prepare hs)
    intro result v₂ n₂ hv₂ hr
    cases result with
    | error error => exact counted_pure hv₂ (.failed hr.2 fun _ => .inl hr.1)
    | ok => exact counted_commitSave hr

end

def newPair (configs : List Persist.ProgCfg) : Option (Node Yaml) × Option (Node Yaml) :=
  (some (.file (some (configRoot configs))), some (.directory (directoryOf (configs.map sidecar))))

/-- A crash anywhere in a save, and in any number of recoveries after it, leaves the old files or
the new ones, and so does a save in which one call fails; a save that returns 0 leaves the new
ones. -/
theorem save_transaction_atomic (code : String → Nat) (paths : SavePaths)
    (configs : List Persist.ProgCfg) (disk : Disk Yaml) (hk : Kinds (view paths.path disk))
    (hj : disk.nodes (journalPath paths.cfgPath) = none) :
    let save := saveProgramConfigs code configs paths.cfgPath paths.envPath paths.pid paths.time
    let recover := recoverProgramConfigSave code paths.cfgPath paths.envPath
    let old := pair (view paths.path disk)
    (∀ crashed restarted, Leaves save disk crashed → Restarts recover crashed restarted →
      let recovered := recover.run restarted
      let files := view paths.path recovered.1
      ((∀ n, disk.faults n = false) → recovered.2 = .ok ()) ∧
      (recovered.2 = .ok () →
        files .journal = none ∧ (pair files = old ∨ pair files = newPair configs))) ∧
    ((∀ m n, disk.faults m = true → disk.faults n = true → m = n) →
      let files := view paths.path (save.run disk).1
      pair files = old ∨ pair files = newPair configs) ∧
    ((save.run disk).2.1 = 0 → pair (view paths.path (save.run disk).1) = newPair configs) := by
  intro save recover old
  have hsave : Safe
      (fun d => d.faults = disk.faults ∧ Consistent paths (versionsOf _ hk configs)
        (view paths.path d))
      (fun result d => Saved (versionsOf _ hk configs) disk.faults result (view paths.path d))
      save disk := counted_save hk hj configs disk rfl rfl
  have hsaved := hsave.run.2
  refine ⟨?_, hsaved.settled, fun hzero => (hsaved.new hzero).2⟩
  intro crashed restarted hcrash hrestarts
  have hrecover : ∀ d : Disk Yaml, (d.faults = disk.faults ∧
      Consistent paths (versionsOf _ hk configs) (view paths.path d)) → Safe
      (fun d => d.faults = disk.faults ∧ Consistent paths (versionsOf _ hk configs)
        (view paths.path d))
      (fun result d' => Recovered (versionsOf _ hk configs) disk.faults d.calls result
        (view paths.path d')) recover d :=
    fun d hd => counted_recover hd.2 d hd.1 rfl
  have hkept := fun d hd => (hrecover d hd).mono (fun _ hi => hi) fun _ _ _ _ => trivial
  have hrestarted := hrestarts.invariant hkept (hsave.leaves hcrash)
  obtain ⟨hreturned, hreturns⟩ := (hrecover restarted hrestarted).run.2
  exact ⟨fun hnone => hreturns fun m _ => hnone m, hreturned⟩

def examplePaths : SavePaths where
  cfgPath := "C:\\pm_tiny\\prog.yaml"
  envPath := "C:\\pm_tiny\\environ"
  pid := 412
  time := 1700000000
  injective := savePath_injective (by decide) (by decide) 412 1700000000

/-- A configuration without programs and no environment directory, and one call that fails. -/
theorem save_transaction_atomic_example :
    let nodes := fun path => if path = examplePaths.cfgPath then
      some (Node.file (some (configRoot []))) else none
    let disk : Disk Yaml := { nodes, faults := fun n => n = 9 }
    let configs := [{ name := "web", cwd := "/", executable := "web.exe", envs := ["A=1"] }]
    let save := saveProgramConfigs String.length configs examplePaths.cfgPath examplePaths.envPath
      examplePaths.pid examplePaths.time
    let files := view examplePaths.path (save.run disk).1
    pair files = (some (.file (some (configRoot []))), none) ∨ pair files = newPair configs := by
  intro nodes disk configs save files
  have hview : view examplePaths.path disk = fun i : Role =>
      if i = .cfg then some (.file (some (configRoot []))) else none := by
    funext i
    cases i <;> rfl
  have hk : Kinds (view examplePaths.path disk) := by
    rw [hview]
    intro i node h
    cases i <;> cases h
    rfl
  have hj : disk.nodes (journalPath examplePaths.cfgPath) = none := congrFun hview .journal
  have hold : pair (view examplePaths.path disk) = (some (.file (some (configRoot []))), none) := by
    rw [hview]
    rfl
  have hone : ∀ m n, disk.faults m = true → disk.faults n = true → m = n := by
    intro m n hm hn
    exact (of_decide_eq_true hm).trans (of_decide_eq_true hn).symm
  rw [← hold]
  exact (save_transaction_atomic String.length examplePaths configs disk hk hj).2.1 hone

end PmTiny.Windows.Persistence
