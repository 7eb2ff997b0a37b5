import PmTiny.Persist.Recovery

namespace PmTiny.Persist
set_option autoImplicit true
open Crash FileSystem

theorem putEntry_putEntry (name : String) (first second : Option Yaml)
    (entries : List (String × Option Yaml)) :
    putEntry name second (putEntry name first entries) = putEntry name second entries := by
  induction entries with
  | nil => simp [putEntry]
  | cons entry entries ih =>
    by_cases h : entry.1 = name
    · simp [putEntry, h]
    · simp [putEntry, h, ih]

theorem any_putEntry (name : String) (content : Option Yaml)
    (entries : List (String × Option Yaml)) :
    (putEntry name content entries).any (·.1 = name) = true := by
  induction entries with
  | nil => simp [putEntry]
  | cons entry entries ih =>
    by_cases h : entry.1 = name
    · simp [putEntry, h]
    · simpa [putEntry, h] using ih

/-- The directory that holds the given files, each under its last content. -/
def directoryOf (files : List (String × Yaml)) : List (String × Option Yaml) :=
  files.foldl (fun entries file => putEntry file.1 (some file.2) entries) []

theorem Restorable.backup (original current : Option (Node Yaml)) :
    Restorable original current original := by
  cases original with
  | none => exact .inr ⟨rfl, .inl rfl⟩
  | some node => exact .inl ⟨rfl, rfl⟩

theorem Restorable.unmoved (original : Option (Node Yaml)) : Restorable original original none :=
  .inr ⟨rfl, .inr rfl⟩

def Reaches (faults : Nat → Bool) (P : Files → Prop) (ok : Bool) (v : Files) : Prop :=
  if ok then P v else ∃ n, faults n = true

section

variable {paths : SavePaths} {versions : Versions} {v : Files} {faults : Nat → Bool} {n : Nat}
  {inv : Files → Prop}

theorem safely_reach {P Q : Files → Prop} {p q : DiskProgram Bool}
    (hpv : Safely faults paths.path inv (Reaches faults P) p v)
    (hq : ∀ v, inv v → P v → Safely faults paths.path inv (Reaches faults Q) q v) :
    Safely faults paths.path inv (Reaches faults Q) (andThen p q) v := by
  apply safely_andThen
  apply SafeAt.mono hpv
  intro ok v hi hr
  cases ok with
  | false => exact hr
  | true => exact hq v hi hr

theorem safely_renameIf {post : Bool → Files → Prop} (hne : i ≠ j) (hi : inv v)
    (hfault : (∃ n, faults n = true) → post false v) (hj : v j = none)
    (hi' : inv (Function.update (Function.update v j (v i)) i none))
    (hok : post true (Function.update (Function.update v j (v i)) i none)) :
    Safely faults paths.path inv post (renameIf (v i).isSome (paths.path i) (paths.path j)) v := by
  cases hs : (v i).isSome with
  | true =>
    apply safely_rename paths.injective hne hi hfault
    · rw [hj, replaces_none hs]
      intro h
      cases h
    · exact fun _ => ⟨hi', hok⟩
  | false =>
    have hnone : v i = none := by simpa using hs
    have hsame : Function.update (Function.update v j (v i)) i none = v := by
      have h₁ : Function.update v j (v i) = v := by
        rw [hnone, ← hj, Function.update_eq_self]
      rw [h₁, ← hnone, Function.update_eq_self]
    rw [hsame] at hok
    exact safely_pure hi hok

theorem safely_writeSaveJournal {post : Bool → Files → Prop} (t : SaveTransaction)
    (hk : Kinds v)
    (hi : ∀ temp : Option (Node Yaml), (∀ n ∈ temp, n.isDirectory = false) →
      inv (Function.update v .journalTemp temp))
    (hi' : inv (Function.update (Function.update v .journal (journalNode t)) .journalTemp none))
    (hfault : (∃ n, faults n = true) → ∀ v, post false v)
    (hok : post true
      (Function.update (Function.update v .journal (journalNode t)) .journalTemp none)) :
    Safely faults paths.path inv post (writeSaveJournal (journalPath paths.cfgPath) t) v := by
  have hiv : inv v := by
    have := hi (v .journalTemp) (hk .journalTemp)
    rwa [Function.update_eq_self] at this
  have hfile : ∀ content, inv (Function.update v .journalTemp (some (.file content))) := by
    intro content
    apply hi
    intro n hn
    cases hn
    rfl
  have hstop : ∀ {v}, inv v → (∃ n, faults n = true) →
      Safely faults paths.path inv post (pure false) v :=
    fun hv hf => safely_pure hv (hfault hf _)
  -- a file that cannot be made durable or renamed is taken away again
  have hdrop : ∀ content, (∃ n, faults n = true) → Safely faults paths.path inv post
      (do discard (unlink (paths.path .journalTemp)); return false)
      (Function.update v .journalTemp (some (.file content))) := by
    intro content hf
    apply safely_bind
    apply safely_discard
    apply safely_unlink paths.injective _ (hfile content)
    · rw [Function.update_idem]
      exact hi none (by simp)
    · intro _
      rw [Function.update_idem]
      exact hstop (hi none (by simp)) hf
    · rw [Function.update_self]
      intro n hn
      cases hn
      rfl
  apply safely_bind
  apply safely_andThen
  apply safely_create (i := .journalTemp) paths.injective (hk.isFile rfl) hiv
  · exact fun hf => hstop hiv hf
  · exact hfile none
  apply safely_write (i := .journalTemp) paths.injective (hfile none)
  · exact fun hf => hstop (hfile none) hf
  · exact hfile _
  apply safely_bind
  apply safely_andThen
  apply safely_sync (i := .journalTemp) (hfile _)
  · exact fun hf => hdrop _ hf
  rw [Function.update_self]
  apply safely_rename (i := .journalTemp) (j := .journal) paths.injective (by decide) (hfile _)
  · exact fun hf => hdrop _ hf
  · intro hr
    rw [Function.update_self, Function.update_of_ne (by decide),
      replaces_file _ (hk.isFile rfl)] at hr
    cases hr
  · intro _
    have hmoved : Function.update (Function.update
        (Function.update v .journalTemp (some (.file (some (saveJournalNode t))))) .journal
        (some (.file (some (saveJournalNode t))))) .journalTemp none =
        Function.update (Function.update v .journal (journalNode t)) .journalTemp none := by
      rw [Function.update_comm (by decide), Function.update_idem,
        Function.update_comm (by decide)]
      rfl
    rw [Function.update_self, hmoved]
    refine ⟨hi', ?_⟩
    apply safely_syncParent hi'
    · exact fun hf => hfault hf _
    · exact hok

theorem counted_writeEnvirons {post : Bool → Files → Nat → Prop}
    (hi : ∀ entries, inv (Function.update v .envStage (some (.directory entries))))
    (files : List (String × Yaml)) (entries : List (String × Option Yaml))
    (hfault : ∀ j < 3 * files.length, faults (n + j) = true → ∀ entries m,
      post false (Function.update v .envStage (some (.directory entries))) m)
    (hok : post true (Function.update v .envStage (some (.directory (files.foldl
      (fun entries file => putEntry file.1 (some file.2) entries) entries))))
      (n + 3 * files.length)) :
    Counted faults paths.path inv post (writeEnvirons (paths.path .envStage) files)
      (Function.update v .envStage (some (.directory entries))) n := by
  induction files generalizing entries n with
  | nil => exact counted_pure (hi entries) hok
  | cons file files ih =>
    have hstop : ∀ j < 3, faults (n + j) = true → ∀ entries m, Counted faults paths.path inv post
        (pure false) (Function.update v .envStage (some (.directory entries))) m := by
      intro j hj hf entries m
      apply counted_pure (hi entries)
      apply hfault j _ hf
      rw [List.length_cons]
      omega
    apply counted_bind
    apply counted_andThen
    apply counted_putIn (i := .envStage) paths.injective (hi entries)
    · exact fun hf => hstop 0 (by omega) hf _ _
    · exact hi _
    apply counted_andThen
    apply counted_putIn (i := .envStage) paths.injective (hi _)
    · exact fun hf => hstop 1 (by omega) hf _ _
    · exact hi _
    apply counted_syncEntry (i := .envStage) (hi _)
    · exact fun hf => hstop 2 (by omega) hf _ _
    · intro found hfound
      have htrue : found = true := by
        rw [hfound _ (Function.update_self ..), any_putEntry]
      subst htrue
      have hcount : n + 1 + 1 + 1 + 3 * files.length = n + 3 * (file :: files).length := by
        rw [List.length_cons]
        omega
      apply ih
      · intro j hj hf
        apply hfault (j + 3)
        · rw [List.length_cons]
          omega
        · rwa [show n + (j + 3) = n + 1 + 1 + 1 + j by omega]
      · rw [putEntry_putEntry, hcount]
        exact hok

structure Holds (v : Files) (journal cfg env cfgBackup envBackup cfgTemp envStage :
    Option (Node Yaml)) : Prop where
  kinds : Kinds v
  journal : v .journal = journal
  cfg : v .cfg = cfg
  env : v .env = env
  cfgBackup : v .cfgBackup = cfgBackup
  envBackup : v .envBackup = envBackup
  cfgTemp : v .cfgTemp = cfgTemp
  envStage : v .envStage = envStage

def SavePaths.journalOf (paths : SavePaths) (versions : Versions) (state : String) :
    Option (Node Yaml) :=
  journalNode (paths.transaction state versions.oldCfg.isSome versions.oldEnv.isSome)

def Staged (versions : Versions) (v : Files) : Prop :=
  Holds v none versions.oldCfg versions.oldEnv none none (some versions.newCfg)
    (some versions.newEnv)

/-- No journal is written yet, and the old files are where they were. -/
def Untouched (versions : Versions) (v : Files) : Prop :=
  Kinds v ∧ v .journal = none ∧ v .cfg = versions.oldCfg ∧ v .env = versions.oldEnv

/-- The paths that only a save in progress uses. -/
def Role.spare : Role → Bool
  | .cfg | .env | .journal => false
  | _ => true

theorem Untouched.consistent (h : Untouched versions v) : Consistent paths versions v := by
  obtain ⟨hk, hj, hc, he⟩ := h
  exact ⟨hk, .idle hj (.inl (Prod.ext hc he))⟩

theorem Untouched.update (h : Untouched versions v) {i : Role} (hs : i.spare = true)
    {node : Option (Node Yaml)} (hn : ∀ n ∈ node, n.isDirectory = i.directory) :
    Untouched versions (Function.update v i node) := by
  have hother : ∀ j : Role, j.spare = false → Function.update v i node j = v j := by
    intro j hj
    apply Function.update_of_ne
    rintro rfl
    rw [hs] at hj
    cases hj
  obtain ⟨hk, hj, hc, he⟩ := h
  refine ⟨hk.update hn, ?_, ?_, ?_⟩
  · rw [hother .journal rfl, hj]
  · rw [hother .cfg rfl, hc]
  · rw [hother .env rfl, he]

/-- Every file is as it was, or was only there for the save and is gone. -/
def Dropped (start v : Files) : Prop := ∀ i, v i = start i ∨ i.spare = true ∧ v i = none

theorem Dropped.clear {start : Files} (h : Dropped start v) {i : Role} (hi : i.spare = true) :
    Dropped start (Function.update v i none) := by
  intro j
  by_cases hji : j = i
  · subst hji
    exact .inr ⟨hi, Function.update_self ..⟩
  · rw [Function.update_of_ne hji]
    exact h j

/-- Either the new files are written, or they are taken away again after a failure. -/
def Stages (failed : Prop) (versions : Versions) (start : Files) (ok : Bool) (v : Files) : Prop :=
  if ok then Staged versions v else failed ∧ Dropped start v

/-- How many calls that may fail it takes to write the new files. -/
def stagingCalls (cfgs : List ProgCfg) : Nat := 3 * cfgs.length + 5

theorem counted_dropStage {failed : Prop} {start : Files} (hu : Untouched versions v) (hf : failed)
    (hd : Dropped start (Function.update v .envStage none)) :
    Counted faults paths.path (Consistent paths versions)
      (fun ok v _ => Stages failed versions start ok v)
      (do removeFlatDirectory (paths.path .envStage); return false) v n := by
  apply counted_bind
  apply counted_removeFlatDirectory paths.injective (hu.1 .envStage)
  · exact fun node hn => (hu.update rfl hn).consistent
  · exact counted_pure (hu.update rfl (by simp)).consistent ⟨hf, hd⟩

theorem counted_dropTemp {failed : Prop} {start : Files} (hu : Untouched versions v) (hf : failed)
    (hd : Dropped start (Function.update (Function.update v .cfgTemp none) .envStage none)) :
    Counted faults paths.path (Consistent paths versions)
      (fun ok v _ => Stages failed versions start ok v)
      (do
        discard (unlink (paths.path .cfgTemp))
        removeFlatDirectory (paths.path .envStage)
        return false) v n := by
  have hu' : Untouched versions (Function.update v .cfgTemp none) := hu.update rfl (by simp)
  apply counted_bind
  apply counted_discard
  apply counted_unlink paths.injective (hu.1.isFile rfl) hu.consistent hu'.consistent
  exact fun _ => counted_dropStage hu' hf hd

theorem counted_writeTemp {failed : Prop} {start : Files} (hu : Untouched versions v)
    (hcb : v .cfgBackup = none) (heb : v .envBackup = none)
    (hes : v .envStage = some versions.newEnv)
    (hnew : versions.newCfg = .file (some (rootNode cfgs)))
    (hf : ∀ j < 3, faults (n + j) = true → failed)
    (hd : Dropped start (Function.update v .envStage none)) (state : String)
    (hadCfg hadEnv : Bool) :
    Counted faults paths.path (Consistent paths versions)
      (fun ok v _ => Stages failed versions start ok v)
      (do
        let t := paths.transaction state hadCfg hadEnv
        if ← create t.cfgTemp then
          if ← andThen (write t.cfgTemp (rootNode cfgs)) (sync t.cfgTemp) then return true
          else do
            discard (unlink t.cfgTemp)
            removeFlatDirectory t.envStage
            return false
        else do
          removeFlatDirectory t.envStage
          return false) v n := by
  have hfile : ∀ content, Untouched versions
      (Function.update v .cfgTemp (some (.file content))) := by
    intro content
    apply hu.update rfl
    intro n hn
    cases hn
    rfl
  have hdrop : ∀ content, Dropped start (Function.update (Function.update
      (Function.update v .cfgTemp (some (.file content))) .cfgTemp none) .envStage none) := by
    intro content
    rw [Function.update_idem, Function.update_comm (by decide)]
    exact hd.clear rfl
  apply counted_bind
  apply counted_create (i := .cfgTemp) paths.injective (hu.1.isFile rfl) hu.consistent
  · exact fun h => counted_dropStage hu (hf 0 (by omega) h) hd
  · exact (hfile none).consistent
  apply counted_bind
  apply counted_andThen
  apply counted_write (i := .cfgTemp) paths.injective (hfile none).consistent
  · exact fun h => counted_dropTemp (hfile none) (hf 1 (by omega) h) (hdrop none)
  · exact (hfile _).consistent
  apply counted_sync (i := .cfgTemp) (hfile _).consistent
  · exact fun h => counted_dropTemp (hfile _) (hf 2 (by omega) h) (hdrop _)
  · rw [Function.update_self]
    apply counted_pure (hfile _).consistent
    obtain ⟨hk, hj, hc, he⟩ := hfile (some (rootNode cfgs))
    refine ⟨hk, hj, hc, he, hcb, heb, ?_, hes⟩
    rw [Function.update_self, hnew]

/-- Only a failure among its own calls stops the writing of the new files, and then nothing of it
stays. -/
theorem counted_stageNew {failed : Prop} (hu : Untouched versions v)
    (hnewCfg : versions.newCfg = .file (some (rootNode cfgs)))
    (hnewEnv : versions.newEnv = .directory (directoryOf (cfgs.map sidecar)))
    (hf : ∀ j < stagingCalls cfgs, faults (n + j) = true → failed) (state : String)
    (hadCfg hadEnv : Bool) :
    Counted faults paths.path (Consistent paths versions)
      (fun ok v' _ => Stages failed versions v ok v')
      (stageNew (paths.transaction state hadCfg hadEnv) cfgs) v n := by
  have hd₀ : Dropped v v := fun _ => .inl rfl
  apply counted_bind
  apply counted_removeFlatDirectory (i := .envStage) paths.injective (hu.1 .envStage)
  · exact fun node hn => (hu.update rfl hn).consistent
  have hu₁ : Untouched versions (Function.update v .envStage none) := hu.update rfl (by simp)
  apply counted_bind
  apply counted_removeFlatDirectory (i := .envBackup) paths.injective (hu₁.1 .envBackup)
  · exact fun node hn => (hu₁.update rfl hn).consistent
  have hu₂ : Untouched versions (Function.update (Function.update v .envStage none)
      .envBackup none) := hu₁.update rfl (by simp)
  have hu₃ : Untouched versions (Function.update (Function.update (Function.update v
      .envStage none) .envBackup none) .cfgBackup none) := hu₂.update rfl (by simp)
  have hd₃ : Dropped v (Function.update (Function.update (Function.update v
      .envStage none) .envBackup none) .cfgBackup none) :=
    ((hd₀.clear rfl).clear rfl).clear rfl
  apply counted_bind
  apply counted_discard
  apply counted_unlink (i := .cfgBackup) paths.injective (hu₂.1.isFile rfl) hu₂.consistent
    hu₃.consistent
  intro _
  have hdir : ∀ entries, Untouched versions (Function.update (Function.update (Function.update
      (Function.update v .envStage none) .envBackup none) .cfgBackup none) .envStage
      (some (.directory entries))) := by
    intro entries
    apply hu₃.update rfl
    intro n hn
    cases hn
    rfl
  have hdrop : ∀ entries, Dropped v (Function.update (Function.update (Function.update
      (Function.update (Function.update v .envStage none) .envBackup none) .cfgBackup none)
      .envStage (some (.directory entries))) .envStage none) := by
    intro entries
    rw [Function.update_idem]
    exact hd₃.clear rfl
  -- the calls are counted from the first one of this save
  have hat : ∀ m j, m + j < stagingCalls cfgs → faults (n + m + j) = true → failed := by
    intro m j hlt hfault
    rw [Nat.add_assoc] at hfault
    exact hf (m + j) hlt hfault
  have hcalls : stagingCalls cfgs = 3 * (cfgs.map sidecar).length + 5 := by
    rw [stagingCalls, List.length_map]
  apply counted_bind
  apply counted_mkdir (i := .envStage) paths.injective rfl hu₃.consistent
  · exact fun h => counted_pure hu₃.consistent ⟨hf 0 (by omega) h, hd₃⟩
  · exact (hdir []).consistent
  apply counted_bind
  apply counted_andThen
  apply counted_writeEnvirons fun entries => (hdir entries).consistent
  · intro j hj h entries m
    exact counted_dropStage (hdir entries) (hat 1 j (by omega) h) (hdrop entries)
  · apply counted_sync (i := .envStage) (hdir _).consistent
    · exact fun h => counted_dropStage (hdir _) (hat 1 _ (by omega) h) (hdrop _)
    · rw [Function.update_self]
      apply counted_writeTemp (hdir _) rfl rfl _ hnewCfg _ (hdrop _)
      · rw [Function.update_self, hnewEnv]
        rfl
      · intro j hj h
        apply hat (1 + 3 * (cfgs.map sidecar).length + 1) j (by omega)
        rw [← h]
        congr 1
        omega

/-- The old files are in their place or in the backups, and the journal says so. -/
structure Moving (paths : SavePaths) (versions : Versions) (state : String) (v : Files) : Prop where
  kinds : Kinds v
  journal : v .journal = paths.journalOf versions state
  cfg : Restorable versions.oldCfg (v .cfg) (v .cfgBackup)
  env : Restorable versions.oldEnv (v .env) (v .envBackup)

theorem Moving.consistent (h : Moving paths versions state v)
    (hs : state = "prepared" ∨ state = "old_moved") : Consistent paths versions v :=
  ⟨h.kinds, .moving state hs h.journal h.cfg h.env⟩

theorem Moving.staged (h : Moving paths versions state v) {i : Role} (hi : i.staged = true)
    {node : Option (Node Yaml)} (hn : ∀ n ∈ node, n.isDirectory = i.directory) :
    Moving paths versions state (Function.update v i node) := by
  have hother : ∀ j : Role, j.staged = false → Function.update v i node j = v j := by
    intro j hj
    apply Function.update_of_ne
    rintro rfl
    rw [hi] at hj
    cases hj
  refine ⟨h.kinds.update hn, (hother .journal rfl).trans h.journal, ?_, ?_⟩
  · rw [hother .cfg rfl, hother .cfgBackup rfl]
    exact h.cfg
  · rw [hother .env rfl, hother .envBackup rfl]
    exact h.env

theorem safely_dropNew {P : Files → Prop} (h : Moving paths versions state v)
    (hs : state = "prepared" ∨ state = "old_moved") (hf : ∃ n, faults n = true) :
    Safely faults paths.path (Consistent paths versions) (Reaches faults P)
      (dropNew (paths.transaction state' hadCfg hadEnv)) v := by
  have h₁ : Moving paths versions state (Function.update v .cfgTemp none) := h.staged rfl (by simp)
  apply safely_bind
  apply safely_discard
  apply safely_unlink (i := .cfgTemp) paths.injective (h.kinds.isFile rfl) (h.consistent hs)
    (h₁.consistent hs)
  intro _
  apply safely_bind
  apply safely_removeFlatDirectory (i := .envStage) paths.injective (h₁.kinds .envStage)
  · exact fun node hn => (h₁.staged rfl hn).consistent hs
  · exact safely_pure ((h₁.staged rfl (by simp)).consistent hs) hf

def Prepared (paths : SavePaths) (versions : Versions) (v : Files) : Prop :=
  Holds v (paths.journalOf versions "prepared") versions.oldCfg versions.oldEnv none none
    (some versions.newCfg) (some versions.newEnv)

def Moved (paths : SavePaths) (versions : Versions) (state : String) (v : Files) : Prop :=
  Holds v (paths.journalOf versions state) none none versions.oldCfg versions.oldEnv
    (some versions.newCfg) (some versions.newEnv)

def Installed (paths : SavePaths) (versions : Versions) (state : String) (v : Files) : Prop :=
  Kinds v ∧ v .journal = paths.journalOf versions state ∧ pair v = versions.new

theorem Kinds.move (h : Kinds v) {i j : Role} (hij : i.directory = j.directory) :
    Kinds (Function.update (Function.update v j (v i)) i none) := by
  apply Kinds.clear
  apply h.update
  rw [← hij]
  exact h i

theorem Holds.moving (h : Holds v (paths.journalOf versions state) c e cb eb ct es)
    (hc : Restorable versions.oldCfg c cb) (he : Restorable versions.oldEnv e eb) :
    Moving paths versions state v := by
  refine ⟨h.kinds, h.journal, ?_, ?_⟩
  · rwa [h.cfg, h.cfgBackup]
  · rwa [h.env, h.envBackup]

theorem Holds.moveCfg (h : Holds v j c e cb eb ct es) :
    Holds (Function.update (Function.update v .cfgBackup (v .cfg)) .cfg none) j none e c eb ct es :=
  ⟨h.kinds.move rfl, h.journal, rfl, h.env, h.cfg, h.envBackup, h.cfgTemp, h.envStage⟩

theorem Holds.moveEnv (h : Holds v j c e cb eb ct es) :
    Holds (Function.update (Function.update v .envBackup (v .env)) .env none) j c none cb e ct es :=
  ⟨h.kinds.move rfl, h.journal, h.cfg, rfl, h.cfgBackup, h.env, h.cfgTemp, h.envStage⟩

theorem Holds.restoreCfg (h : Holds v j c e cb eb ct es) :
    Holds (Function.update (Function.update v .cfg (v .cfgBackup)) .cfgBackup none)
      j cb e none eb ct es :=
  ⟨h.kinds.move rfl, h.journal, h.cfgBackup, h.env, rfl, h.envBackup, h.cfgTemp, h.envStage⟩

theorem Holds.restoreEnv (h : Holds v j c e cb eb ct es) :
    Holds (Function.update (Function.update v .env (v .envBackup)) .envBackup none)
      j c eb cb none ct es :=
  ⟨h.kinds.move rfl, h.journal, h.cfg, h.envBackup, h.cfgBackup, rfl, h.cfgTemp, h.envStage⟩

theorem Holds.installCfg (h : Holds v j c e cb eb ct es) :
    Holds (Function.update (Function.update v .cfg (v .cfgTemp)) .cfgTemp none)
      j ct e cb eb none es :=
  ⟨h.kinds.move rfl, h.journal, h.cfgTemp, h.env, h.cfgBackup, h.envBackup, rfl, h.envStage⟩

theorem Holds.installEnv (h : Holds v j c e cb eb ct es) :
    Holds (Function.update (Function.update v .env (v .envStage)) .envStage none)
      j c es cb eb ct none :=
  ⟨h.kinds.move rfl, h.journal, h.cfg, h.envStage, h.cfgBackup, h.envBackup, h.cfgTemp, rfl⟩

theorem safely_moveOld (h : Prepared paths versions v) :
    Safely faults paths.path (Consistent paths versions)
      (Reaches faults (Moved paths versions "prepared"))
      (moveOld (paths.transaction state versions.oldCfg.isSome versions.oldEnv.isSome)) v := by
  have hs : "prepared" = "prepared" ∨ "prepared" = "old_moved" := .inl rfl
  have hm := Holds.moving h (.unmoved _) (.unmoved _)
  have h₁ := Holds.moveCfg h
  have hm₁ := Holds.moving h₁ (.backup _ _) (.unmoved _)
  have h₂ := Holds.moveEnv h₁
  have hm₂ := Holds.moving h₂ (.backup _ _) (.backup _ _)
  have h₃ := Holds.restoreCfg h₁
  have hm₃ := Holds.moving h₃ (.unmoved _) (.unmoved _)
  have hcfg : versions.oldCfg.isSome = (v .cfg).isSome := by rw [h.cfg]
  have henv : versions.oldEnv.isSome =
      (Function.update (Function.update v .cfgBackup (v .cfg)) .cfg none .env).isSome := by
    rw [h₁.env]
  have hback : versions.oldCfg.isSome =
      (Function.update (Function.update v .cfgBackup (v .cfg)) .cfg none .cfgBackup).isSome := by
    rw [h₁.cfgBackup]
  apply safely_bind
  apply hcfg ▸ safely_renameIf (i := .cfg) (j := .cfgBackup) (by decide) (hm.consistent hs) _
    h.cfgBackup (hm₁.consistent hs)
  · apply safely_bind
    apply henv ▸ safely_renameIf (i := .env) (j := .envBackup) (by decide) (hm₁.consistent hs) _
      h₁.envBackup (hm₂.consistent hs)
    · apply safely_syncTransactionDirectories (hm₂.consistent hs)
      · exact fun hf => hf
      · exact h₂
    · intro hf
      apply safely_bind
      apply safely_discard
      apply hback ▸ safely_renameIf (i := .cfgBackup) (j := .cfg) (by decide) (hm₁.consistent hs) _
        h₁.cfg (hm₃.consistent hs)
      · exact safely_dropNew hm₃ hs hf
      · exact fun hf => safely_dropNew hm₁ hs hf
  · exact fun hf => safely_dropNew hm hs hf

theorem safely_putBack {P : Files → Prop} (hk : Kinds v)
    (hj : v .journal = paths.journalOf versions "old_moved")
    (hcb : v .cfgBackup = versions.oldCfg) (heb : v .envBackup = versions.oldEnv)
    (hf : ∃ n, faults n = true) :
    Safely faults paths.path (Consistent paths versions) (Reaches faults P)
      (do
        let t := paths.transaction state versions.oldCfg.isSome versions.oldEnv.isSome
        discard (unlink t.cfgPath)
        removeFlatDirectory t.envPath
        discard (renameIf t.hadCfg t.cfgBackup t.cfgPath)
        discard (renameIf t.hadEnv t.envBackup t.envPath)
        dropNew t) v := by
  have hs : "old_moved" = "prepared" ∨ "old_moved" = "old_moved" := .inr rfl
  have hm : Moving paths versions "old_moved" v :=
    ⟨hk, hj, hcb ▸ .backup _ _, heb ▸ .backup _ _⟩
  have hm₁ : Moving paths versions "old_moved" (Function.update v .cfg none) :=
    ⟨hk.clear .cfg, hj, hcb ▸ .backup _ _, heb ▸ .backup _ _⟩
  apply safely_bind
  apply safely_discard
  apply safely_unlink (i := .cfg) paths.injective (hk.isFile rfl) (hm.consistent hs)
    (hm₁.consistent hs)
  intro _
  apply safely_bind
  apply safely_removeFlatDirectory (i := .env) paths.injective (hm₁.kinds .env)
  · intro node hn
    have hm' : Moving paths versions "old_moved"
        (Function.update (Function.update v .cfg none) .env node) :=
      ⟨hm₁.kinds.update hn, hj, hcb ▸ .backup _ _, heb ▸ .backup _ _⟩
    exact hm'.consistent hs
  have h₂ : Holds (Function.update (Function.update v .cfg none) .env none)
      (paths.journalOf versions "old_moved") none none versions.oldCfg versions.oldEnv
      (v .cfgTemp) (v .envStage) :=
    ⟨hm₁.kinds.clear .env, hj, rfl, rfl, hcb, heb, rfl, rfl⟩
  have hm₂ := h₂.moving (.backup _ _) (.backup _ _)
  generalize Function.update (Function.update v .cfg none) .env none = v₂ at h₂ hm₂
  have hcfg : versions.oldCfg.isSome = (v₂ .cfgBackup).isSome := by rw [h₂.cfgBackup]
  -- the second backup is put back whether or not the first one could be
  have hrest : ∀ v₃ c cb, Holds v₃ (paths.journalOf versions "old_moved") c none cb versions.oldEnv
      (v .cfgTemp) (v .envStage) → Restorable versions.oldCfg c cb →
      Safely faults paths.path (Consistent paths versions) (Reaches faults P)
        (do
          let t := paths.transaction state versions.oldCfg.isSome versions.oldEnv.isSome
          discard (renameIf t.hadEnv t.envBackup t.envPath)
          dropNew t) v₃ := by
    intro v₃ c cb h₃ hr
    have hm₃ := h₃.moving hr (.backup _ _)
    have h₄ := h₃.restoreEnv
    have hm₄ := h₄.moving hr (.unmoved _)
    have henv : versions.oldEnv.isSome = (v₃ .envBackup).isSome := by rw [h₃.envBackup]
    apply safely_bind
    apply safely_discard
    apply henv ▸ safely_renameIf (i := .envBackup) (j := .env) (by decide) (hm₃.consistent hs) _
      h₃.env (hm₄.consistent hs)
    · exact safely_dropNew hm₄ hs hf
    · exact fun hf => safely_dropNew hm₃ hs hf
  have h₃ := h₂.restoreCfg
  apply safely_bind
  apply safely_discard
  apply hcfg ▸ safely_renameIf (i := .cfgBackup) (j := .cfg) (by decide) (hm₂.consistent hs) _
    h₂.cfg ((h₃.moving (.unmoved _) (.backup _ _)).consistent hs)
  · exact hrest _ _ _ h₃ (.unmoved _)
  · exact fun _ => hrest _ _ _ h₂ (.backup _ _)

theorem safely_installNew (h : Moved paths versions "old_moved" v) :
    Safely faults paths.path (Consistent paths versions)
      (Reaches faults fun v => Moving paths versions "old_moved" v ∧ pair v = versions.new)
      (installNew (paths.transaction state versions.oldCfg.isSome versions.oldEnv.isSome)) v := by
  have hs : "old_moved" = "prepared" ∨ "old_moved" = "old_moved" := .inr rfl
  have hm := Holds.moving h (.backup _ _) (.backup _ _)
  have h₁ := Holds.installCfg h
  have hm₁ := h₁.moving (.backup _ _) (.backup _ _)
  have h₂ := h₁.installEnv
  have hm₂ := h₂.moving (.backup _ _) (.backup _ _)
  apply safely_bind
  apply safely_andThen
  apply safely_rename (i := .cfgTemp) (j := .cfg) paths.injective (by decide) (hm.consistent hs)
  · exact fun hf => safely_putBack h.kinds h.journal h.cfgBackup h.envBackup hf
  · intro hr
    rw [h.cfgTemp, h.cfg, replaces_none rfl] at hr
    cases hr
  intro _
  refine ⟨hm₁.consistent hs, ?_⟩
  apply safely_rename (i := .envStage) (j := .env) paths.injective (by decide) (hm₁.consistent hs)
  · exact fun hf => safely_putBack h₁.kinds h₁.journal h₁.cfgBackup h₁.envBackup hf
  · intro hr
    rw [h₁.envStage, h₁.env, replaces_none rfl] at hr
    cases hr
  intro _
  refine ⟨hm₂.consistent hs, ?_⟩
  apply safely_syncTransactionDirectories (hm₂.consistent hs)
  · exact fun hf => hf
  · exact ⟨hm₂, Prod.ext h₂.cfg h₂.env⟩

theorem Holds.announce (h : Holds v j c e cb eb ct es) (t : SaveTransaction) :
    Holds (Function.update (Function.update v .journal (journalNode t)) .journalTemp none)
      (journalNode t) c e cb eb ct es := by
  refine ⟨Kinds.clear (h.kinds.update ?_) _, rfl, h.cfg, h.env, h.cfgBackup, h.envBackup,
    h.cfgTemp, h.envStage⟩
  intro n hn
  cases hn
  rfl

theorem Installed.consistent (h : Installed paths versions "new_installed" v) :
    Consistent paths versions v := ⟨h.1, .installed h.2.1 h.2.2⟩

theorem safely_announcePrepared (h : Staged versions v) :
    Safely faults paths.path (Consistent paths versions) (Reaches faults (Prepared paths versions))
      (writeSaveJournal (journalPath paths.cfgPath)
        (paths.transaction "prepared" versions.oldCfg.isSome versions.oldEnv.isSome)) v := by
  have hu : Untouched versions v := ⟨h.kinds, h.journal, h.cfg, h.env⟩
  have h' : Prepared paths versions _ := Holds.announce h _
  apply safely_writeSaveJournal _ h.kinds
  · exact fun temp hn => (hu.update rfl hn).consistent
  · exact (Holds.moving h' (.unmoved _) (.unmoved _)).consistent (.inl rfl)
  · exact fun hf _ => hf
  · exact h'

theorem safely_announceMoved (h : Moved paths versions "prepared" v) :
    Safely faults paths.path (Consistent paths versions)
      (Reaches faults (Moved paths versions "old_moved"))
      (writeSaveJournal (journalPath paths.cfgPath)
        (paths.transaction "old_moved" versions.oldCfg.isSome versions.oldEnv.isSome)) v := by
  have hm := Holds.moving h (.backup _ _) (.backup _ _)
  have h' : Moved paths versions "old_moved" _ := Holds.announce h _
  apply safely_writeSaveJournal _ h.kinds
  · exact fun temp hn => (hm.staged rfl hn).consistent (.inl rfl)
  · exact (Holds.moving h' (.backup _ _) (.backup _ _)).consistent (.inr rfl)
  · exact fun hf _ => hf
  · exact h'

theorem safely_announceInstalled (hm : Moving paths versions "old_moved" v)
    (hp : pair v = versions.new) :
    Safely faults paths.path (Consistent paths versions)
      (Reaches faults (Installed paths versions "new_installed"))
      (writeSaveJournal (journalPath paths.cfgPath)
        (paths.transaction "new_installed" versions.oldCfg.isSome versions.oldEnv.isSome)) v := by
  have h' : Installed paths versions "new_installed" (Function.update (Function.update v .journal
      (paths.journalOf versions "new_installed")) .journalTemp none) := by
    refine ⟨Kinds.clear (hm.kinds.update ?_) _, rfl, hp⟩
    intro n hn
    cases hn
    rfl
  apply safely_writeSaveJournal _ hm.kinds
  · exact fun temp hn => (hm.staged rfl hn).consistent (.inr rfl)
  · exact h'.consistent
  · exact fun hf _ => hf
  · exact h'

theorem safely_dropOld (h : Installed paths versions "new_installed" v) :
    Safely faults paths.path (Consistent paths versions)
      (Reaches faults (Installed paths versions "new_installed"))
      (dropOld (paths.transaction state hadCfg hadEnv)) v := by
  obtain ⟨hk, hj, hp⟩ := h
  have h₁ : Installed paths versions "new_installed" (Function.update v .cfgBackup none) :=
    ⟨hk.clear .cfgBackup, hj, hp⟩
  have h₂ : ∀ node : Option (Node Yaml), (∀ n ∈ node, n.isDirectory = true) →
      Installed paths versions "new_installed"
        (Function.update (Function.update v .cfgBackup none) .envBackup node) :=
    fun node hn => ⟨h₁.1.update hn, hj, hp⟩
  apply safely_bind
  apply safely_discard
  apply safely_unlink (i := .cfgBackup) paths.injective (hk.isFile rfl)
    (Installed.consistent ⟨hk, hj, hp⟩) h₁.consistent
  intro _
  apply safely_bind
  apply safely_removeFlatDirectory (i := .envBackup) paths.injective (h₁.1 .envBackup)
  · exact fun node hn => (h₂ node hn).consistent
  · apply safely_syncTransactionDirectories (h₂ none (by simp)).consistent
    · exact fun hf => hf
    · exact h₂ none (by simp)

/-- What a save promises: the new pair when it returns 0, and that it does when no call fails. -/
def Saved (versions : Versions) (faults : Nat → Bool) (result : Int) (v : Files) : Prop :=
  (result = 0 → Kinds v ∧ v .journal = none ∧ pair v = versions.new) ∧
    ((∀ n, faults n = false) → result = 0)

theorem Saved.failed (hf : ∃ n, faults n = true) : Saved versions faults (-1) v := by
  obtain ⟨n, hn⟩ := hf
  constructor
  · intro h
    cases h
  · intro h
    rw [h n] at hn
    cases hn

theorem safely_commitSteps (h : Staged versions v) :
    Safely faults paths.path (Consistent paths versions)
      (Reaches faults (Installed paths versions "new_installed"))
      (commitSteps (journalPath paths.cfgPath)
        (paths.transaction state versions.oldCfg.isSome versions.oldEnv.isSome)) v := by
  apply safely_reach (safely_announcePrepared h)
  intro v _ h
  apply safely_reach (safely_moveOld h)
  intro v _ h
  apply safely_reach (safely_announceMoved h)
  intro v _ h
  apply safely_reach (safely_installNew h)
  intro v _ h
  apply safely_reach (safely_announceInstalled h.1 h.2)
  exact fun v _ h => safely_dropOld h

theorem safely_commitSave (h : Staged versions v) :
    Safely faults paths.path (Consistent paths versions) (Saved versions faults)
      (commitSave (journalPath paths.cfgPath)
        (paths.transaction state versions.oldCfg.isSome versions.oldEnv.isSome)) v := by
  apply safely_bind
  apply SafeAt.mono (safely_commitSteps h)
  intro ok v hv hr
  cases ok with
  | false => exact safely_pure hv (.failed hr)
  | true =>
    obtain ⟨hk, hj, hp⟩ := hr
    have hdone := hv.journal_none (.inr hp)
    have hsaved : Saved versions faults 0 (Function.update v .journal none) :=
      ⟨fun _ => ⟨hdone.1, Function.update_self .., hp⟩, fun _ => rfl⟩
    apply safely_bind
    apply safely_discard
    apply safely_unlink (i := .journal) paths.injective (hk.isFile rfl) hv hdone
    intro _
    apply safely_bind
    apply safely_discard
    apply safely_syncParent hdone
    · exact fun _ => safely_pure hdone hsaved
    · exact safely_pure hdone hsaved

/-- The old pair as a save finds it, and the new pair that it is to write. -/
def versionsOf (v : Files) (hk : Kinds v) (cfgs : List ProgCfg) : Versions where
  oldCfg := v .cfg
  oldEnv := v .env
  newCfg := .file (some (rootNode cfgs))
  newEnv := .directory (directoryOf (cfgs.map sidecar))
  oldCfg_kind := hk .cfg
  oldEnv_kind := hk .env

theorem safely_saveProgCfg (hk : Kinds v) (hj : v .journal = none) (cfgs : List ProgCfg) :
    Safely faults paths.path (Consistent paths (versionsOf v hk cfgs))
      (Saved (versionsOf v hk cfgs) faults)
      (saveProgCfg cfgs paths.cfgPath paths.envPath paths.pid paths.time) v := by
  have hu : Untouched (versionsOf v hk cfgs) v := ⟨hk, hj, rfl, rfl⟩
  have hv : Consistent paths (versionsOf v hk cfgs) v := hu.consistent
  have hstaged : Safely faults paths.path (Consistent paths (versionsOf v hk cfgs))
      (Stages (∃ n, faults n = true) (versionsOf v hk cfgs) v)
      (stageNew (paths.transaction "prepared" false false) cfgs) v := by
    apply safely_of_counted
    intro n
    exact counted_stageNew hu rfl rfl (fun j _ h => ⟨n + j, h⟩) "prepared" false false
  apply safely_bind
  apply safely_bind
  apply safely_access (i := .journal) hv
  rw [hj]
  apply safely_pure hv
  apply safely_bind
  apply SafeAt.mono hstaged
  intro ok v' hv' hr
  cases ok with
  | false => exact safely_pure hv' (.failed hr.1)
  | true =>
    have hs : Staged (versionsOf v hk cfgs) v' := hr
    apply safely_bind
    apply safely_access (i := .cfg) hv'
    apply safely_bind
    apply safely_access (i := .env) hv'
    rw [hs.cfg, hs.env]
    exact safely_commitSave hs

end

def newPair (cfgs : List ProgCfg) : Option (Node Yaml) × Option (Node Yaml) :=
  (some (.file (some (rootNode cfgs))), some (.directory (directoryOf (cfgs.map sidecar))))

section

variable (paths : SavePaths) (cfgs : List ProgCfg) {disk : Disk Yaml}

theorem save_returns (hk : Kinds (view paths.path disk))
    (hj : disk.nodes (journalPath paths.cfgPath) = none) (hf : ∀ n, disk.faults n = false) :
    let ended := (saveProgCfg cfgs paths.cfgPath paths.envPath paths.pid paths.time).run disk
    ended.2 = 0 ∧ Kinds (view paths.path ended.1) ∧ view paths.path ended.1 .journal = none ∧
      pair (view paths.path ended.1) = newPair cfgs := by
  intro ended
  obtain ⟨-, hsaved, hreturns⟩ := (safely_saveProgCfg hk hj cfgs disk rfl rfl).run
  exact ⟨hreturns hf, hsaved (hreturns hf)⟩

theorem recover_idle (hj : disk.nodes (journalPath paths.cfgPath) = none) :
    (recoverProgCfgSave paths.cfgPath paths.envPath).run disk = (disk, .ok ()) ∧
      ∀ disk', Leaves (recoverProgCfgSave paths.cfgPath paths.envPath) disk disk' →
        disk' = disk := by
  have hsafe : Safe (fun d => d = disk) (fun r d => r = .ok () ∧ d = disk)
      (recoverProgCfgSave paths.cfgPath paths.envPath) disk := by
    apply Safe.bind
    apply Safe.call
    · rfl
    · rfl
    · rw [hj]
      exact Safe.pure rfl ⟨rfl, rfl⟩
  constructor
  · exact Prod.ext hsafe.run.1 hsafe.run.2.1
  · exact fun disk' hd => hsafe.leaves hd

end

/-- A crash anywhere in a save, and in any number of recoveries after it, leaves the old files or
the new ones; after a save that has returned 0, the new ones. -/
theorem save_crash_atomic (paths : SavePaths) (cfgs : List ProgCfg) (disk : Disk Yaml)
    (hk : Kinds (view paths.path disk)) (hj : disk.nodes (journalPath paths.cfgPath) = none) :
    let save := saveProgCfg cfgs paths.cfgPath paths.envPath paths.pid paths.time
    let recover := recoverProgCfgSave paths.cfgPath paths.envPath
    (∀ crashed restarted, Leaves save disk crashed → Restarts recover crashed restarted →
      (recover.run restarted).2 = .ok () →
      let files := view paths.path (recover.run restarted).1
      files .journal = none ∧
        (pair files = pair (view paths.path disk) ∨ pair files = newPair cfgs)) ∧
    ((save.run disk).2 = 0 → ∀ restarted, Restarts recover (save.run disk).1 restarted →
      let files := view paths.path (recover.run restarted).1
      files .journal = none ∧ pair files = newPair cfgs) := by
  intro save recover
  have hsave := safely_saveProgCfg hk hj cfgs disk rfl rfl
  constructor
  · intro crashed restarted hcrash hrestarts hreturned
    have hinv : ∀ d, (d.faults = disk.faults ∧
        Consistent paths (versionsOf _ hk cfgs) (view paths.path d)) → _ :=
      fun d hd => safely_recoverProgCfgSave hd.2 d hd.1 rfl
    have hrestarted := hrestarts.invariant hinv (hsave.leaves hcrash)
    obtain ⟨-, hrecovered, -⟩ := (hinv restarted hrestarted).run
    exact hrecovered hreturned
  · intro hzero restarted hrestarts
    obtain ⟨-, hjournal, hpair⟩ := hsave.run.2.1 hzero
    have hsame : restarted = (save.run disk).1 := by
      induction hrestarts with
      | refl => rfl
      | tail _ hlast ih =>
        subst ih
        exact (recover_idle paths hjournal).2 _ hlast
    subst hsame
    intro files
    have hrun : recover.run (save.run disk).1 = ((save.run disk).1, .ok ()) :=
      (recover_idle paths hjournal).1
    have hfiles : files = view paths.path (save.run disk).1 := by
      rw [show files = view paths.path (recover.run (save.run disk).1).1 from rfl, hrun]
    rw [hfiles]
    exact ⟨hjournal, hpair⟩

def defaultPaths (pid time : Int) : SavePaths where
  cfgPath := "/root/.pm_tiny/prog.yaml"
  envPath := "/root/.pm_tiny/environ"
  pid := pid
  time := time
  injective := savePath_injective (by decide) (by decide) pid time

theorem save_crash_atomic_default :
    let paths := defaultPaths 412 1700000000
    let disk : Disk Yaml := { nodes := fun _ => none, faults := fun _ => false }
    let cfgs := [{ name := "web", cwd := "/", executable := "/bin/web", envs := ["A=1"] }]
    let saved := (saveProgCfg cfgs paths.cfgPath paths.envPath paths.pid paths.time).run disk
    let recovered := (recoverProgCfgSave paths.cfgPath paths.envPath).run saved.1
    saved.2 = 0 ∧ pair (view paths.path recovered.1) = newPair cfgs := by
  intro paths disk cfgs saved recovered
  have hk : Kinds (view paths.path disk) := by
    intro i node h
    cases h
  have hzero : saved.2 = 0 := (save_returns paths cfgs hk rfl fun _ => rfl).1
  exact ⟨hzero, ((save_crash_atomic paths cfgs disk hk rfl).2 hzero _ .refl).2⟩

end PmTiny.Persist
