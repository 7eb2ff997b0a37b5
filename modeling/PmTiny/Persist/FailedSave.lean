import PmTiny.Persist.CrashSafety

namespace PmTiny.Persist
set_option autoImplicit true
open Crash FileSystem

theorem free_unlinkEntries (path : String) (names : List String) :
    Free (unlinkEntries path names) := by
  induction names with
  | nil => exact makes_pure _
  | cons name names ih =>
    apply makes_after (free_discard (free_call (modify_calls _ _)))
    exact fun _ => ih

theorem free_removeFlatDirectory (path : String) : Free (removeFlatDirectory path) := by
  apply makes_after (free_call fun _ => ⟨rfl, rfl⟩)
  intro names
  cases names with
  | none => exact makes_pure _
  | some names =>
    apply makes_after (free_unlinkEntries path names)
    exact fun _ => free_discard (free_call (modify_calls _ _))

theorem makes_andThen {p q : DiskProgram Bool} (hp : Makes a (· = true) p)
    (hq : Makes b (· = true) q) : Makes (a + b) (· = true) (andThen p q) :=
  makes_guard hp hq (rejects_pure (by decide))

theorem rejects_dropNew (t : SaveTransaction) : Rejects (· = true) (dropNew t) := by
  apply rejects_bind
  intro _
  apply rejects_bind
  exact fun _ => rejects_pure (by decide)

/-- How many calls that may fail the other steps of a save take, when all goes well. -/
def journalCalls : Nat := 5

def directoryCalls (cfgPath envPath : String) : Nat :=
  if parentDirectory envPath = parentDirectory cfgPath then 1 else 2

def moveCalls (cfgPath envPath : String) (hadCfg hadEnv : Bool) : Nat :=
  hadCfg.toNat + (hadEnv.toNat + directoryCalls cfgPath envPath)

def installCalls (cfgPath envPath : String) : Nat := 2 + directoryCalls cfgPath envPath

theorem makes_writeEnvirons (envStage : String) (files : List (String × Yaml)) :
    Makes (3 * files.length) (· = true) (writeEnvirons envStage files) := by
  induction files with
  | nil => exact makes_pure _
  | cons file files ih =>
    rw [List.length_cons, Nat.mul_succ, Nat.add_comm]
    apply makes_guard (a := 1 + (1 + 1)) _ ih (rejects_pure (by decide))
    apply makes_andThen (makes_attempt (modify_calls _ _))
    apply makes_andThen (makes_attempt (modify_calls _ _))
    exact makes_attempt fun _ => ⟨rfl, rfl⟩

theorem makes_stageNew (t : SaveTransaction) (cfgs : List ProgCfg) :
    Makes (stagingCalls cfgs) (· = true) (stageNew t cfgs) := by
  have hcount :
    stagingCalls cfgs = 1 + (3 * (cfgs.map sidecar).length + 1 + (1 + (1 + 1 + 0))) := by
    rw [stagingCalls, List.length_map]
    omega
  have hdrop : Rejects (· = true) (do removeFlatDirectory t.envStage; return false) := by
    apply rejects_bind
    exact fun _ => rejects_pure (by decide)
  rw [hcount]
  apply makes_after (free_removeFlatDirectory _)
  intro _
  apply makes_after (free_removeFlatDirectory _)
  intro _
  apply makes_after (free_discard (free_call (modify_calls _ _)))
  intro _
  apply makes_guard (makes_attempt (modify_calls _ _)) _ (rejects_pure (by decide))
  apply makes_guard _ _ hdrop
  · apply makes_andThen (makes_writeEnvirons _ _)
    exact makes_attempt fun _ => ⟨rfl, rfl⟩
  apply makes_guard (makes_attempt (modify_calls _ _)) _ hdrop
  apply makes_guard _ (makes_pure _) (rejects_dropNew t)
  apply makes_andThen (makes_attempt (modify_calls _ _))
  exact makes_attempt fun _ => ⟨rfl, rfl⟩

theorem makes_writeSaveJournal (journal : String) (t : SaveTransaction) :
    Makes journalCalls (· = true) (writeSaveJournal journal t) := by
  have hdrop : Rejects (· = true) (do
      discard (unlink (journal ++ ".tmp") : DiskProgram Bool)
      return false) := by
    apply rejects_bind
    exact fun _ => rejects_pure (by decide)
  apply makes_guard (a := 1 + 1) (b := 1 + 1 + 1) _ _ (rejects_pure (by decide))
  · apply makes_andThen (makes_attempt (modify_calls _ _))
    exact makes_attempt (modify_calls _ _)
  apply makes_guard _ (makes_attempt fun _ => ⟨rfl, rfl⟩) hdrop
  apply makes_andThen (makes_attempt fun _ => ⟨rfl, rfl⟩)
  exact makes_rename _ _

theorem makes_renameIf (had : Bool) (source target : String) :
    Makes had.toNat (· = true) (renameIf had source target) := by
  cases had with
  | true => exact makes_rename source target
  | false => exact makes_pure _

theorem makes_syncTransactionDirectories (t : SaveTransaction) :
    Makes (directoryCalls t.cfgPath t.envPath) (· = true) (syncTransactionDirectories t) := by
  have hsync : Makes 1 (· = true) (syncParent : DiskProgram Bool) :=
    makes_attempt fun _ => ⟨rfl, rfl⟩
  unfold directoryCalls
  split_ifs with hd
  · apply makes_bind (a := 1) (b := 0) hsync
    · intro ok _
      rw [if_pos hd]
      exact makes_pure _
    · intro ok hok
      rw [if_pos hd]
      exact rejects_pure hok
  · apply makes_bind (a := 1) (b := 1) hsync
    · intro ok _
      rw [if_neg hd]
      apply makes_bind (b := 0) hsync
      · exact fun _ _ => makes_pure _
      · intro envOk henv
        apply rejects_pure
        simp [henv]
    · intro ok hok
      rw [if_neg hd]
      apply rejects_bind
      intro envOk
      apply rejects_pure
      simp [hok]

theorem makes_moveOld (t : SaveTransaction) :
    Makes (moveCalls t.cfgPath t.envPath t.hadCfg t.hadEnv) (· = true) (moveOld t) := by
  apply makes_guard (makes_renameIf _ _ _) _ (rejects_dropNew t)
  apply makes_guard (makes_renameIf _ _ _) (makes_syncTransactionDirectories t)
  apply rejects_bind
  exact fun _ => rejects_dropNew t

theorem makes_installNew (t : SaveTransaction) :
    Makes (installCalls t.cfgPath t.envPath) (· = true) (installNew t) := by
  apply makes_guard (makes_andThen (makes_rename _ _) (makes_rename _ _))
    (makes_syncTransactionDirectories t)
  apply rejects_bind
  intro _
  apply rejects_bind
  intro _
  apply rejects_bind
  intro _
  apply rejects_bind
  exact fun _ => rejects_dropNew t

def commitCalls (cfgPath envPath : String) (hadCfg hadEnv : Bool) : Nat :=
  journalCalls + (moveCalls cfgPath envPath hadCfg hadEnv +
    (journalCalls + (installCalls cfgPath envPath + (journalCalls + 0))))

theorem run_commitSave_failed {journal : String} {t : SaveTransaction} {disk : Disk Yaml}
    (h : ((commitSteps journal t).run disk).2 = false) :
    (commitSave journal t).run disk = (((commitSteps journal t).run disk).1, -1) := by
  rw [commitSave, Program.run_bind, h]
  rfl

theorem run_commitSave_ok {journal : String} {t : SaveTransaction} {disk : Disk Yaml}
    (h : ((commitSteps journal t).run disk).2 = true) :
    ((commitSave journal t).run disk).2 = 0 := by
  rw [commitSave, Program.run_bind, h]
  rfl

theorem needs_commitSave (journal : String) (t : SaveTransaction) :
    Needs (commitCalls t.cfgPath t.envPath t.hadCfg t.hadEnv) (· = 0) (commitSave journal t) := by
  have hsteps : Needs (commitCalls t.cfgPath t.envPath t.hadCfg t.hadEnv) (· = true)
      (commitSteps journal t) := by
    have hno : Rejects (· = true) (pure false : DiskProgram Bool) := rejects_pure (by decide)
    apply needs_guard (makes_writeSaveJournal _ _) _ hno
    apply needs_guard (makes_moveOld t) _ hno
    apply needs_guard (makes_writeSaveJournal _ _) _ hno
    apply needs_guard (makes_installNew t) _ hno
    apply needs_guard (makes_writeSaveJournal _ _) _ hno
    exact needs_zero _ _
  intro disk h
  apply hsteps disk
  cases hok : ((commitSteps journal t).run disk).2 with
  | true => rfl
  | false =>
    rw [run_commitSave_failed hok] at h
    cases h

section

variable {kept : String}

theorem keeps_discard {P : Disk Yaml → Prop} {p : DiskProgram α} (hp : Program.Keeps P p) :
    Program.Keeps P (discard p) := Program.keeps_bind hp fun _ => Program.keeps_pure _

theorem keeps_unlink (h : path ≠ kept) :
    Program.Keeps (Present kept) (discard (unlink path) : DiskProgram Unit) :=
  keeps_discard (Program.keeps_call (present_modify h _))

theorem keeps_removeFlatDirectory (h : path ≠ kept) :
    Program.Keeps (Present kept) (removeFlatDirectory path) := by
  have hentries : ∀ names, Program.Keeps (Present kept) (unlinkEntries path names) := by
    intro names
    induction names with
    | nil => exact Program.keeps_pure _
    | cons name names ih =>
      apply Program.keeps_bind (keeps_discard (Program.keeps_call (present_modify h _)))
      exact fun _ => ih
  have hread : Program.Keeps (Present kept) (readdir path : DiskProgram (Option (List String))) :=
    Program.keeps_call fun _ hp => hp
  apply Program.keeps_bind hread
  intro names
  cases names with
  | none => exact Program.keeps_pure _
  | some names =>
    apply Program.keeps_bind (hentries names)
    exact fun _ => keeps_discard (Program.keeps_call (present_modify h _))

theorem keeps_andThen {P : Disk Yaml → Prop} {p q : DiskProgram Bool} (hp : Program.Keeps P p)
    (hq : Program.Keeps P q) : Program.Keeps P (andThen p q) :=
  Program.keeps_guard hp hq (Program.keeps_pure _)

theorem remains_andThen {P Q : Disk Yaml → Prop} {p q : DiskProgram Bool}
    (hp : Program.Keeps P p) (hq : Program.Keeps Q q) (h : P disk)
    (hmake : (p.run disk).2 = true → Q (p.run disk).1) :
    P ((andThen p q).run disk).1 ∨ Q ((andThen p q).run disk).1 := by
  rw [andThen, Program.run_bind]
  cases hok : (p.run disk).2 with
  | true => exact .inr (hq _ (hmake hok))
  | false => exact .inl (hp disk h)

theorem keeps_writeSaveJournal (journal : String) (t : SaveTransaction)
    (h : journal ++ ".tmp" ≠ kept) :
    Program.Keeps (Present kept) (writeSaveJournal journal t) := by
  have hdrop : Program.Keeps (Present kept) (do
      discard (unlink (journal ++ ".tmp") : DiskProgram Bool)
      return false) := by
    apply Program.keeps_bind (keeps_unlink h)
    exact fun _ => Program.keeps_pure _
  apply Program.keeps_guard
  · apply keeps_andThen
    · exact keeps_attempt (present_modify h _)
    · exact keeps_attempt (present_modify h _)
  · apply Program.keeps_guard _ _ hdrop
    · apply keeps_andThen
      · exact keeps_attempt fun _ hp => hp
      · exact keeps_rename h _
    · exact keeps_attempt fun _ hp => hp
  · exact Program.keeps_pure _

theorem keeps_renameIf (had : Bool) (h : source ≠ kept) (target : String) :
    Program.Keeps (Present kept) (renameIf had source target) := by
  cases had with
  | true => exact keeps_rename h target
  | false => exact Program.keeps_pure _

theorem keeps_syncTransactionDirectories (t : SaveTransaction) :
    Program.Keeps (Present kept) (syncTransactionDirectories t) := by
  have hsync : Program.Keeps (Present kept) (syncParent : DiskProgram Bool) :=
    keeps_attempt fun _ hp => hp
  apply Program.keeps_bind hsync
  intro ok
  split
  · exact Program.keeps_pure _
  · apply Program.keeps_bind hsync
    exact fun _ => Program.keeps_pure _

end

section

variable {paths : SavePaths} {state : String} {hadCfg hadEnv : Bool}

theorem SavePaths.ne (paths : SavePaths) {i j : Role} (h : i ≠ j) : paths.path i ≠ paths.path j :=
  fun he => h (paths.injective he)

theorem keeps_dropNew :
    Program.Keeps (Present (paths.path .journal))
      (dropNew (paths.transaction state hadCfg hadEnv)) := by
  apply Program.keeps_bind (keeps_unlink (paths.ne (i := .cfgTemp) (by decide)))
  intro _
  apply Program.keeps_bind (keeps_removeFlatDirectory (paths.ne (i := .envStage) (by decide)))
  exact fun _ => Program.keeps_pure _

theorem keeps_moveOld :
    Program.Keeps (Present (paths.path .journal))
      (moveOld (paths.transaction state hadCfg hadEnv)) := by
  apply Program.keeps_guard (keeps_renameIf _ (paths.ne (i := .cfg) (by decide)) _) _ keeps_dropNew
  apply Program.keeps_guard (keeps_renameIf _ (paths.ne (i := .env) (by decide)) _)
    (keeps_syncTransactionDirectories _)
  apply Program.keeps_bind
  · exact keeps_discard (keeps_renameIf _ (paths.ne (i := .cfgBackup) (by decide)) _)
  · exact fun _ => keeps_dropNew

theorem keeps_installNew :
    Program.Keeps (Present (paths.path .journal))
      (installNew (paths.transaction state hadCfg hadEnv)) := by
  apply Program.keeps_guard _ (keeps_syncTransactionDirectories _)
  · apply Program.keeps_bind (keeps_unlink (paths.ne (i := .cfg) (by decide)))
    intro _
    apply Program.keeps_bind (keeps_removeFlatDirectory (paths.ne (i := .env) (by decide)))
    intro _
    apply Program.keeps_bind
    · exact keeps_discard (keeps_renameIf _ (paths.ne (i := .cfgBackup) (by decide)) _)
    intro _
    apply Program.keeps_bind
    · exact keeps_discard (keeps_renameIf _ (paths.ne (i := .envBackup) (by decide)) _)
    · exact fun _ => keeps_dropNew
  · apply keeps_andThen
    · exact keeps_rename (paths.ne (i := .cfgTemp) (by decide)) _
    · exact keeps_rename (paths.ne (i := .envStage) (by decide)) _

theorem keeps_dropOld :
    Program.Keeps (Present (paths.path .journal))
      (dropOld (paths.transaction state hadCfg hadEnv)) := by
  apply Program.keeps_bind (keeps_unlink (paths.ne (i := .cfgBackup) (by decide)))
  intro _
  apply Program.keeps_bind (keeps_removeFlatDirectory (paths.ne (i := .envBackup) (by decide)))
  exact fun _ => keeps_syncTransactionDirectories _

/-- From the first journal on, no way out of a save takes the journal away but the last step. -/
theorem commitSteps_remains (state : String) (hadCfg hadEnv : Bool)
    (h : Present (paths.path .cfgTemp) disk)
    (hprepared : ((writeSaveJournal (journalPath paths.cfgPath)
        (paths.transaction "prepared" hadCfg hadEnv)).run disk).2 = true →
      Present (paths.path .journal) ((writeSaveJournal (journalPath paths.cfgPath)
        (paths.transaction "prepared" hadCfg hadEnv)).run disk).1) :
    Present (paths.path .cfgTemp) ((commitSteps (journalPath paths.cfgPath)
        (paths.transaction state hadCfg hadEnv)).run disk).1 ∨
      Present (paths.path .journal) ((commitSteps (journalPath paths.cfgPath)
        (paths.transaction state hadCfg hadEnv)).run disk).1 := by
  have hwrite : ∀ state, Program.Keeps (Present (paths.path .journal))
      (writeSaveJournal (journalPath paths.cfgPath) (paths.transaction state hadCfg hadEnv)) :=
    fun _ => keeps_writeSaveJournal _ _ (paths.ne (i := .journalTemp) (by decide))
  have hrest : Program.Keeps (Present (paths.path .journal))
      (andThen (moveOld (paths.transaction state hadCfg hadEnv)) <|
        andThen (writeSaveJournal (journalPath paths.cfgPath)
          (paths.transaction "old_moved" hadCfg hadEnv)) <|
        andThen (installNew (paths.transaction state hadCfg hadEnv)) <|
        andThen (writeSaveJournal (journalPath paths.cfgPath)
          (paths.transaction "new_installed" hadCfg hadEnv))
          (dropOld (paths.transaction state hadCfg hadEnv))) := by
    apply keeps_andThen keeps_moveOld
    apply keeps_andThen (hwrite _)
    apply keeps_andThen keeps_installNew
    apply keeps_andThen (hwrite _)
    exact keeps_dropOld
  apply remains_andThen
    (keeps_writeSaveJournal _ _ (paths.ne (i := .journalTemp) (by decide))) hrest h
  exact hprepared

end

/-- Nothing but the two files. -/
def Clean (v : Files) : Prop := ∀ i, i ≠ .cfg → i ≠ .env → v i = none

/-- What a save that fails promises: the old files as they were, nothing else, and so nothing that a
later recovery would act on, whatever is put in their place until then. -/
def LeavesNoTrace (paths : SavePaths) (cfgs : List ProgCfg) (disk : Disk Yaml) : Prop :=
  let ended := (saveProgCfg cfgs paths.cfgPath paths.envPath paths.pid paths.time).run disk
  let files := view paths.path ended.1
  ended.2 = -1 → pair files = pair (view paths.path disk) ∧ Clean files ∧
    ∀ later : Disk Yaml, (∀ i, i ≠ .cfg → i ≠ .env → view paths.path later i = files i) →
      ((recoverProgCfgSave paths.cfgPath paths.envPath).run later).1 = later

/-- A disk on which a save finds at most the two files. -/
structure SaveStart (paths : SavePaths) where
  disk : Disk Yaml
  kinds : Kinds (view paths.path disk)
  clean : Clean (view paths.path disk)

namespace SaveStart

variable {paths : SavePaths}

def files (start : SaveStart paths) : Files := view paths.path start.disk

/-- The call of this number fails, of those that may, and no other. -/
def failing (start : SaveStart paths) (k : Nat) : Disk Yaml :=
  { start.disk with faults := fun n => n = k, calls := 0 }

/-- How many calls that may fail a save makes until the journal says that the new files are
installed. -/
def callsToInstalled (start : SaveStart paths) (cfgs : List ProgCfg) : Nat :=
  stagingCalls cfgs + commitCalls paths.cfgPath paths.envPath (start.files .cfg).isSome
    (start.files .env).isSome

end SaveStart

section

variable {paths : SavePaths} (start : SaveStart paths) (cfgs : List ProgCfg) {k : Nat}

theorem run_saveProgCfg {disk disk' : Disk Yaml}
    (hj : disk.nodes (journalPath paths.cfgPath) = none)
    (hstaged : (stageNew (paths.transaction "prepared" false false) cfgs).run disk = (disk', ok)) :
    (saveProgCfg cfgs paths.cfgPath paths.envPath paths.pid paths.time).run disk =
      if ok then (commitSave (journalPath paths.cfgPath) (paths.transaction "prepared"
        (disk'.nodes paths.cfgPath).isSome (disk'.nodes paths.envPath).isSome)).run disk'
      else (disk', -1) := by
  have hstaged' : (stageNew (saveTransaction paths.cfgPath paths.envPath paths.pid paths.time)
      cfgs).run disk = (disk', ok) := hstaged
  rw [saveProgCfg, Program.run_bind, (recover_idle paths hj).1]
  dsimp only
  rw [Program.run_bind, hstaged']
  cases ok with
  | true => rfl
  | false => rfl

theorem staged_failing (k : Nat) :
    let staged := (stageNew (paths.transaction "prepared" false false) cfgs).run (start.failing k)
    Stages (k < stagingCalls cfgs) (versionsOf start.files start.kinds cfgs) start.files staged.2
      (view paths.path staged.1) := by
  have hu : Untouched (versionsOf start.files start.kinds cfgs) start.files :=
    ⟨start.kinds, start.clean .journal (by decide) (by decide), rfl, rfl⟩
  have hstaged : Counted (fun n => decide (n = k)) paths.path
      (Consistent paths (versionsOf start.files start.kinds cfgs))
      (fun ok v _ => Stages (k < stagingCalls cfgs) (versionsOf start.files start.kinds cfgs)
        start.files ok v)
      (stageNew (paths.transaction "prepared" false false) cfgs) start.files 0 := by
    apply counted_stageNew hu rfl rfl
    intro j hj hf
    have he : 0 + j = k := by simpa using hf
    omega
  exact (hstaged (start.failing k) rfl rfl).run.2

theorem ne_none_of_present {disk : Disk Yaml} {i : Role} (h : Present (paths.path i) disk) :
    view paths.path disk i ≠ none := Option.isSome_iff_ne_none.1 h

theorem present_prepared {versions : Versions} {disk : Disk Yaml}
    (h : Staged versions (view paths.path disk))
    (hok : ((writeSaveJournal (journalPath paths.cfgPath) (paths.transaction "prepared"
      versions.oldCfg.isSome versions.oldEnv.isSome)).run disk).2 = true) :
    Present (paths.path .journal) ((writeSaveJournal (journalPath paths.cfgPath)
      (paths.transaction "prepared" versions.oldCfg.isSome versions.oldEnv.isSome)).run
        disk).1 := by
  have hreaches := (safely_announcePrepared h disk rfl rfl).run.2
  rw [hok] at hreaches
  exact congrArg Option.isSome hreaches.journal

theorem leavesNoTrace_staging (hk : k < stagingCalls cfgs) :
    LeavesNoTrace paths cfgs (start.failing k) := by
  have hj : (start.failing k).nodes (journalPath paths.cfgPath) = none :=
    start.clean .journal (by decide) (by decide)
  have hstages := staged_failing start cfgs k
  have hmakes := makes_stageNew (paths.transaction "prepared" false false) cfgs (start.failing k)
  cases hstaged : (stageNew (paths.transaction "prepared" false false) cfgs).run
      (start.failing k) with
  | mk disk ok =>
    rw [hstaged] at hstages hmakes
    cases ok with
    | true =>
      have hnot := (hmakes rfl).2.2 k hk
      simp [SaveStart.failing] at hnot
    | false =>
      obtain ⟨-, hdropped⟩ := hstages
      have hclean : Clean (view paths.path disk) := by
        intro i hc he
        rcases hdropped i with h | ⟨-, h⟩
        · exact h.trans (start.clean i hc he)
        · exact h
      have hsame : ∀ i, i.spare = false → view paths.path disk i = start.files i := by
        intro i hi
        rcases hdropped i with h | ⟨hs, -⟩
        · exact h
        · rw [hi] at hs
          cases hs
      rw [LeavesNoTrace, run_saveProgCfg cfgs hj hstaged]
      intro _
      refine ⟨Prod.ext (hsame .cfg rfl) (hsame .env rfl), hclean, ?_⟩
      intro later hlater
      have hnone : view paths.path later .journal = none :=
        (hlater .journal (by decide) (by decide)).trans
          (hclean .journal (by decide) (by decide))
      rw [(recover_idle paths hnone).1]

theorem not_leavesNoTrace_commit (hk : stagingCalls cfgs ≤ k)
    (hbefore : k < start.callsToInstalled cfgs) : ¬LeavesNoTrace paths cfgs (start.failing k) := by
  have hj : (start.failing k).nodes (journalPath paths.cfgPath) = none :=
    start.clean .journal (by decide) (by decide)
  have hstages := staged_failing start cfgs k
  have hmakes := makes_stageNew (paths.transaction "prepared" false false) cfgs (start.failing k)
  cases hrun : (stageNew (paths.transaction "prepared" false false) cfgs).run
      (start.failing k) with
  | mk disk ok =>
    rw [hrun] at hstages hmakes
    cases ok with
    | false => exact absurd hstages.1 (Nat.not_lt.2 hk)
    | true =>
      have hcalls : start.callsToInstalled cfgs = stagingCalls cfgs +
          commitCalls paths.cfgPath paths.envPath
            (versionsOf start.files start.kinds cfgs).oldCfg.isSome
            (versionsOf start.files start.kinds cfgs).oldEnv.isSome := rfl
      generalize versionsOf start.files start.kinds cfgs = versions at hstages hcalls
      have hstaged : Staged versions (view paths.path disk) := hstages
      obtain ⟨hfaults, hmade, -⟩ := hmakes rfl
      have hcfg : (disk.nodes paths.cfgPath).isSome = versions.oldCfg.isSome :=
        congrArg Option.isSome hstaged.cfg
      have henv : (disk.nodes paths.envPath).isSome = versions.oldEnv.isSome :=
        congrArg Option.isSome hstaged.env
      -- with a failure ahead the save does not get to its end
      have hfailed : ((commitSteps (journalPath paths.cfgPath) (paths.transaction "prepared"
          versions.oldCfg.isSome versions.oldEnv.isSome)).run disk).2 = false := by
        rw [Bool.eq_false_iff]
        intro hok
        have hlt : k - stagingCalls cfgs < commitCalls paths.cfgPath paths.envPath
            versions.oldCfg.isSome versions.oldEnv.isSome := by
          omega
        have hat : disk.calls + (k - stagingCalls cfgs) = k := by
          have hfrom : disk.calls = stagingCalls cfgs := hmade.trans (Nat.zero_add _)
          omega
        have hnot := needs_commitSave _ _ disk (run_commitSave_ok hok) _ hlt
        rw [hfaults, hat] at hnot
        simp [SaveStart.failing] at hnot
      have htemp : Present (paths.path .cfgTemp) disk := congrArg Option.isSome hstaged.cfgTemp
      have hremains := commitSteps_remains "prepared" versions.oldCfg.isSome versions.oldEnv.isSome
        htemp (present_prepared hstaged)
      rw [LeavesNoTrace, run_saveProgCfg cfgs hj hrun, hcfg, henv, if_pos rfl,
        run_commitSave_failed hfailed]
      intro h
      obtain ⟨-, hclean, -⟩ := h rfl
      rcases hremains with h | h
      · exact ne_none_of_present h (hclean .cfgTemp (by decide) (by decide))
      · exact ne_none_of_present h (hclean .journal (by decide) (by decide))

end

/-- A save in which one call fails before the new files are announced as installed leaves no trace
exactly when that call is one of those that write the new files next to the old ones. -/
theorem save_leaves_no_trace_iff (paths : SavePaths) (start : SaveStart paths)
    (cfgs : List ProgCfg) (k : Nat) (hk : k < start.callsToInstalled cfgs) :
    LeavesNoTrace paths cfgs (start.failing k) ↔ k < stagingCalls cfgs := by
  constructor
  · intro h
    by_contra hle
    exact not_leavesNoTrace_commit start cfgs (Nat.not_lt.1 hle) hk h
  · exact leavesNoTrace_staging start cfgs

def emptyStart (paths : SavePaths) : SaveStart paths where
  disk := { nodes := fun _ => none, faults := fun _ => false }
  kinds := by
    intro i node h
    cases h
  clean := fun _ _ _ => rfl

/-- The directory cannot be made durable after the first journal has been put into it. -/
theorem failed_save_remains :
    let paths := defaultPaths 412 1700000000
    9 < (emptyStart paths).callsToInstalled [] ∧
      ¬LeavesNoTrace paths [] ((emptyStart paths).failing 9) := by
  intro paths
  have hlt : 9 < (emptyStart paths).callsToInstalled [] := by
    simp only [SaveStart.callsToInstalled, stagingCalls, commitCalls, journalCalls]
    omega
  exact ⟨hlt, not_leavesNoTrace_commit (emptyStart paths) [] (by decide) hlt⟩

theorem SavePaths.path_inj (paths : SavePaths) {i j : Role} :
    paths.path i = paths.path j ↔ i = j := paths.injective.eq_iff

def savedStart (paths : SavePaths) (old : List ProgCfg) : SaveStart paths :=
  let nodes := fun path =>
    if path = paths.path .cfg then (newPair old).1
    else if path = paths.path .env then (newPair old).2 else none
  { disk := { nodes := nodes, faults := fun _ => false }
    kinds := by
      intro i node h
      simp only [view, nodes, paths.path_inj, newPair] at h
      split at h
      · next hi =>
        cases h
        rw [hi]
        rfl
      · split at h
        · next hi =>
          cases h
          rw [hi]
          rfl
        · cases h
    clean := by
      intro i hc he
      simp [view, nodes, paths.path_inj, hc, he] }

/-- A program is saved with a new environment, over the files of a save of the old one. -/
theorem save_leaves_no_trace_iff_saved :
    let paths := defaultPaths 412 1700000000
    let old := [{ name := "web", cwd := "/", executable := "/bin/web", envs := ["A=1"] }]
    let new := [{ name := "web", cwd := "/", executable := "/bin/web", envs := ["A=2", "B=3"] }]
    LeavesNoTrace paths new ((savedStart paths old).failing 6) ∧
      ¬LeavesNoTrace paths new ((savedStart paths old).failing 12) := by
  intro paths old new
  have hcalls : stagingCalls new = 8 := rfl
  have hlt : 12 < (savedStart paths old).callsToInstalled new := by
    simp only [SaveStart.callsToInstalled, hcalls, commitCalls, journalCalls]
    omega
  constructor
  · rw [save_leaves_no_trace_iff paths (savedStart paths old) new 6 (by omega), hcalls]
    decide
  · rw [save_leaves_no_trace_iff paths (savedStart paths old) new 12 hlt, hcalls]
    decide

end PmTiny.Persist
