import PmTiny.Persist.SaveProgCfg

namespace PmTiny.Persist
set_option autoImplicit true
open Crash FileSystem

inductive Role where
  | cfg | env | cfgTemp | cfgBackup | envStage | envBackup | journal | journalTemp
  deriving DecidableEq

def Role.directory : Role → Bool
  | .env | .envStage | .envBackup => true
  | _ => false

def savePath (cfgPath envPath : String) (pid time : Int) : Role → String
  | .cfg => cfgPath
  | .env => envPath
  | .cfgTemp => (saveTransaction cfgPath envPath pid time).cfgTemp
  | .cfgBackup => (saveTransaction cfgPath envPath pid time).cfgBackup
  | .envStage => (saveTransaction cfgPath envPath pid time).envStage
  | .envBackup => (saveTransaction cfgPath envPath pid time).envBackup
  | .journal => journalPath cfgPath
  | .journalTemp => journalPath cfgPath ++ ".tmp"

/-- Where a save finds and puts its files: no two of them are one. -/
structure SavePaths where
  cfgPath : String
  envPath : String
  pid : Int
  time : Int
  injective : Function.Injective (savePath cfgPath envPath pid time)

def SavePaths.path (paths : SavePaths) : Role → String :=
  savePath paths.cfgPath paths.envPath paths.pid paths.time

def Role.isCfg : Role → Bool
  | .env | .envStage | .envBackup => false
  | _ => true

def Role.extension (suffix : String) : Role → String
  | .cfg | .env => ""
  | .cfgTemp | .envStage => suffix
  | .cfgBackup | .envBackup => ".bak" ++ suffix
  | .journal => ".save-journal"
  | .journalTemp => ".save-journal.tmp"

theorem savePath_eq (cfgPath envPath : String) (pid time : Int) (i : Role) :
    savePath cfgPath envPath pid time i = (if i.isCfg then cfgPath else envPath) ++
      i.extension (saveTransaction cfgPath envPath pid time).suffix := by
  cases i <;> simp [savePath, Role.isCfg, Role.extension, saveTransaction, journalPath,
    String.append_assoc]

theorem extension_injective (i j : Role) (hij : i.isCfg = j.isCfg)
    (h : i.extension (".txn." ++ s) = j.extension (".txn." ++ s)) : i = j := by
  rw [← String.toList_inj] at h
  cases i <;> cases j <;> first
    | rfl
    | exact absurd hij (by decide)
    | simp [Role.extension] at h

theorem savePath_injective (hc : ¬cfgPath.toList <+: envPath.toList)
    (he : ¬envPath.toList <+: cfgPath.toList) (pid time : Int) :
    Function.Injective (savePath cfgPath envPath pid time) := by
  have hapart : ∀ x y : String, cfgPath ++ x ≠ envPath ++ y := by
    intro x y h
    have h' := congrArg String.toList h
    rw [String.toList_append, String.toList_append] at h'
    rcases List.append_eq_append_iff.1 h' with ⟨l, hl, -⟩ | ⟨l, hl, -⟩
    · exact hc ⟨l, hl.symm⟩
    · exact he ⟨l, hl.symm⟩
  intro i j h
  rw [savePath_eq, savePath_eq] at h
  have hkind : i.isCfg = j.isCfg := by
    cases hi : i.isCfg with
    | true =>
      cases hj : j.isCfg with
      | true => rfl
      | false =>
        rw [hi, hj] at h
        exact absurd h (hapart _ _)
    | false =>
      cases hj : j.isCfg with
      | true =>
        rw [hi, hj] at h
        exact absurd h.symm (hapart _ _)
      | false => rfl
  rw [hkind, ← String.toList_inj, String.toList_append, String.toList_append,
    List.append_cancel_left_eq, String.toList_inj] at h
  apply extension_injective i j hkind (s := toString pid ++ "." ++ toString time)
  simpa [saveTransaction, String.append_assoc] using h

abbrev Files := Role → Option (Node Yaml)

section

variable {faults : Nat → Bool} {ι : Type} {path : ι → String} {v : ι → Option (Node Yaml)}
  {inv : (ι → Option (Node Yaml)) → Prop}

theorem safely_bind {post : β → (ι → Option (Node Yaml)) → Prop} {p : DiskProgram α}
    {f : α → DiskProgram β}
    (h : Safely faults path inv (fun a v => Safely faults path inv post (f a) v) p v) :
    Safely faults path inv post (p >>= f) v := SafeAt.bind h

theorem safely_pure {post : α → (ι → Option (Node Yaml)) → Prop} (hi : inv v) (h : post a v) :
    Safely faults path inv post (pure a) v := SafeAt.pure hi h

theorem safely_discard {post : Unit → (ι → Option (Node Yaml)) → Prop} {p : DiskProgram α}
    (h : Safely faults path inv (fun _ v => post () v) p v) :
    Safely faults path inv post (discard p) v := by
  apply safely_bind
  apply SafeAt.mono h
  intro a v hi hp
  exact safely_pure hi hp

theorem safely_andThen {post : Bool → (ι → Option (Node Yaml)) → Prop} {p q : DiskProgram Bool}
    (h : Safely faults path inv
      (fun a v => if a then Safely faults path inv post q v else post false v) p v) :
    Safely faults path inv post (andThen p q) v := by
  apply safely_bind
  apply SafeAt.mono h
  intro a v hi hp
  cases a with
  | false => exact safely_pure hi hp
  | true => exact hp

theorem safely_syncTransactionDirectories {post : Bool → (ι → Option (Node Yaml)) → Prop}
    (hi : inv v) (hfault : (∃ n, faults n = true) → post false v) (hok : post true v)
    (t : SaveTransaction) : Safely faults path inv post (syncTransactionDirectories t) v := by
  apply safely_bind
  have hpost : ∀ a, (a = false → ∃ n, faults n = true) → post a v := by
    intro a ha
    cases a with
    | false => exact hfault (ha rfl)
    | true => exact hok
  have hcase : ∀ a, (a = false → ∃ n, faults n = true) → Safely faults path inv post
      (if parentDirectory t.envPath = parentDirectory t.cfgPath then pure a
        else (do return (← syncParent) && a)) v := by
    intro a ha
    split_ifs with hd
    · exact safely_pure hi (hpost a ha)
    · apply safely_bind
      apply safely_syncParent hi
      · intro hf
        exact safely_pure hi (hpost _ fun _ => hf)
      · exact safely_pure hi (hpost _ ha)
  apply safely_syncParent hi
  · exact fun hf => hcase false fun _ => hf
  · exact hcase true fun h => by cases h

variable {n : Nat}

theorem counted_discard {post : Unit → (ι → Option (Node Yaml)) → Nat → Prop} {p : DiskProgram α}
    (h : Counted faults path inv (fun _ v n => post () v n) p v n) :
    Counted faults path inv post (discard p) v n := by
  apply counted_bind
  apply counted_mono h
  intro a v n hi hp
  exact counted_pure hi hp

theorem counted_andThen {post : Bool → (ι → Option (Node Yaml)) → Nat → Prop}
    {p q : DiskProgram Bool}
    (h : Counted faults path inv
      (fun ok v n => if ok then Counted faults path inv post q v n else post false v n) p v n) :
    Counted faults path inv post (andThen p q) v n := by
  apply counted_bind
  apply counted_mono h
  intro ok v n hi hp
  cases ok with
  | false => exact counted_pure hi hp
  | true => exact hp

variable [DecidableEq ι]

theorem counted_unlinkEntries {post : Unit → (ι → Option (Node Yaml)) → Nat → Prop}
    (hp : Function.Injective path)
    (hi : ∀ entries, inv (Function.update v i (some (.directory entries))))
    (names : List String) (entries : List (String × Option Yaml))
    (h : post () (Function.update v i (some (.directory
      (entries.filter fun entry => entry.1 ∉ names)))) n) :
    Counted faults path inv post (unlinkEntries (path i) names)
      (Function.update v i (some (.directory entries))) n := by
  induction names generalizing entries with
  | nil =>
    apply counted_pure (hi entries)
    simpa using h
  | cons name names ih =>
    apply counted_bind
    apply counted_discard
    apply counted_modify hp (hi entries)
    · intro node hnode
      rw [Function.update_self] at hnode
      cases hnode
      rw [Function.update_idem]
      refine ⟨hi _, ih _ ?_⟩
      rw [List.filter_filter]
      have he : entries.filter (fun entry => decide (entry.1 ∉ name :: names)) =
          entries.filter (fun entry => decide (entry.1 ∉ names) && decide (entry.1 ≠ name)) := by
        apply List.filter_congr
        intro entry _
        simp [Bool.and_comm]
      rw [← he]
      exact h
    · intro hnode
      rw [Function.update_self] at hnode
      cases hnode

/-- What is no file is gone afterwards; on the way it is a directory that gets emptier. -/
theorem counted_removeFlatDirectory {post : Unit → (ι → Option (Node Yaml)) → Nat → Prop}
    (hp : Function.Injective path) (hk : ∀ node ∈ v i, node.isDirectory = true)
    (hi : ∀ node : Option (Node Yaml), (∀ n ∈ node, n.isDirectory = true) →
      inv (Function.update v i node))
    (h : post () (Function.update v i none) n) :
    Counted faults path inv post (removeFlatDirectory (path i)) v n := by
  have hv : inv v := by
    have := hi (v i) hk
    rwa [Function.update_eq_self] at this
  have hdir : ∀ entries, inv (Function.update v i (some (.directory entries))) := by
    intro entries
    apply hi
    intro n hn
    cases hn
    rfl
  apply counted_bind
  apply counted_readdir hv
  · intro entries he
    apply counted_bind
    have hsafe : Counted faults path inv
        (fun _ v n => Counted faults path inv post (discard (rmdir (path i))) v n)
        (unlinkEntries (path i) (entries.map (·.1)))
        (Function.update v i (some (.directory entries))) n := by
      apply counted_unlinkEntries hp hdir
      apply counted_discard
      apply counted_modify hp (hdir _)
      · intro node hnode
        rw [Function.update_self] at hnode
        split at hnode
        · cases hnode
          rw [Function.update_idem]
          exact ⟨hi none (by simp), h⟩
        · cases hnode
      · intro hnode
        have hempty : entries.filter (fun entry => entry.1 ∉ entries.map (·.1)) = [] := by
          rw [List.filter_eq_nil_iff]
          intro entry hentry
          simpa using ⟨entry.2, hentry⟩
        rw [Function.update_self, hempty] at hnode
        cases hnode
    rwa [← he, Function.update_eq_self] at hsafe
  · intro hno
    have hnone : v i = none := by
      cases hn : v i with
      | none => rfl
      | some node =>
        cases node with
        | file content => cases hk _ hn
        | directory entries => exact absurd hn (hno entries)
    apply counted_pure hv
    rwa [← hnone, Function.update_eq_self] at h

theorem counted_removeNode {post : Unit → (ι → Option (Node Yaml)) → Nat → Prop} {directory : Bool}
    (hp : Function.Injective path) (hk : ∀ node ∈ v i, node.isDirectory = directory)
    (hi : ∀ node : Option (Node Yaml), (∀ n ∈ node, n.isDirectory = directory) →
      inv (Function.update v i node))
    (h : post () (Function.update v i none) n) :
    Counted faults path inv post (removeNode (path i) directory) v n := by
  cases directory with
  | true => exact counted_removeFlatDirectory hp hk hi h
  | false =>
    have hv : inv v := by
      have := hi (v i) hk
      rwa [Function.update_eq_self] at this
    apply counted_discard
    apply counted_unlink hp _ hv (hi none (by simp))
    · exact fun _ => h
    · intro node hnode
      have hd := hk node hnode
      cases node with
      | file content => rfl
      | directory entries => cases hd

theorem safely_removeFlatDirectory {post : Unit → (ι → Option (Node Yaml)) → Prop}
    (hp : Function.Injective path) (hk : ∀ node ∈ v i, node.isDirectory = true)
    (hi : ∀ node : Option (Node Yaml), (∀ n ∈ node, n.isDirectory = true) →
      inv (Function.update v i node))
    (h : post () (Function.update v i none)) :
    Safely faults path inv post (removeFlatDirectory (path i)) v :=
  safely_of_counted fun _ => counted_removeFlatDirectory hp hk hi h

theorem safely_removeNode {post : Unit → (ι → Option (Node Yaml)) → Prop} {directory : Bool}
    (hp : Function.Injective path) (hk : ∀ node ∈ v i, node.isDirectory = directory)
    (hi : ∀ node : Option (Node Yaml), (∀ n ∈ node, n.isDirectory = directory) →
      inv (Function.update v i node))
    (h : post () (Function.update v i none)) :
    Safely faults path inv post (removeNode (path i) directory) v :=
  safely_of_counted fun _ => counted_removeNode hp hk hi h

end

/-- Every path holds the kind of node that belongs there. -/
def Kinds (v : Files) : Prop := ∀ i, ∀ node ∈ v i, node.isDirectory = i.directory

/-- The original is in the backup, or, if there is no backup, it was never moved. -/
def Restorable (original current backup : Option (Node Yaml)) : Prop :=
  (backup = original ∧ original.isSome = true) ∨
    (backup = none ∧ (original = none ∨ current = original))

theorem Kinds.update {v : Files} (h : Kinds v) {i : Role} {node : Option (Node Yaml)}
    (hn : ∀ n ∈ node, n.isDirectory = i.directory) : Kinds (Function.update v i node) := by
  intro j n hj
  by_cases hji : j = i
  · subst hji
    rw [Function.update_self] at hj
    exact hn n hj
  · rw [Function.update_of_ne hji] at hj
    exact h j n hj

theorem Kinds.clear {v : Files} (h : Kinds v) (i : Role) : Kinds (Function.update v i none) :=
  h.update (by simp)

theorem Kinds.isFile {v : Files} (h : Kinds v) {i : Role} (hi : i.directory = false) :
    ∀ node ∈ v i, node.isFile = true := by
  intro node hnode
  have hd := h i node hnode
  cases node with
  | file content => rfl
  | directory entries =>
    rw [hi] at hd
    cases hd

theorem replaces_none {node : Option (Node Yaml)} (h : node.isSome = true) :
    replaces node none = true := by
  cases node with
  | none => cases h
  | some node => cases node <;> rfl

theorem replaces_file (content : Option Yaml) {node : Option (Node Yaml)}
    (h : ∀ n ∈ node, n.isFile = true) : replaces (some (.file content)) node = true := by
  cases node with
  | none => rfl
  | some node =>
    cases node with
    | file content => rfl
    | directory entries => cases h _ rfl

/-- After a restore the original is back and the backup gone; short of that, both are still
restorable. -/
theorem safely_restoreBackup {faults : Nat → Bool} {path : Role → String} {v : Files}
    {inv : Files → Prop} {post : Bool → Files → Prop} {original : Option (Node Yaml)} {p b : Role}
    (hp : Function.Injective path) (hpb : b ≠ p) (hkind : p.directory = b.directory)
    (hk : Kinds v) (hr : Restorable original (v p) (v b))
    (ho : ∀ n ∈ original, n.isDirectory = p.directory)
    (hi : ∀ current backup, (∀ n ∈ current, n.isDirectory = p.directory) →
      (∀ n ∈ backup, n.isDirectory = b.directory) → Restorable original current backup →
      inv (Function.update (Function.update v p current) b backup))
    (hpost : ∀ ok current backup, (∀ n ∈ current, n.isDirectory = p.directory) →
      (∀ n ∈ backup, n.isDirectory = b.directory) → Restorable original current backup →
      (ok = true → current = original ∧ backup = none) → (ok = false → ∃ n, faults n = true) →
      post ok (Function.update (Function.update v p current) b backup)) :
    Safely faults path inv post
      (restoreBackup (path b) (path p) original.isSome p.directory) v := by
  have hself : Function.update (Function.update v p (v p)) b (v b) = v := by
    rw [Function.update_eq_self, Function.update_eq_self]
  have hiv : inv v := by
    have := hi (v p) (v b) (hk p) (hk b) hr
    rwa [hself] at this
  have hset : ∀ node, Function.update v p node =
      Function.update (Function.update v p node) b (v b) := by
    intro node
    rw [eq_comm, Function.update_eq_iff]
    exact ⟨(Function.update_of_ne hpb _ _).symm, fun _ _ => rfl⟩
  apply safely_bind
  apply safely_access hiv
  cases hb : (v b).isSome with
  | true =>
    have horig : v b = original ∧ original.isSome = true := by
      rcases hr with h | ⟨hnone, -⟩
      · exact h
      · rw [hnone] at hb
        cases hb
    have hopen : ∀ current, Restorable original current (v b) := fun _ => .inl horig
    apply safely_bind
    apply safely_removeNode hp (hk p)
    · intro node hnode
      rw [hset]
      exact hi node (v b) hnode (hk b) (hopen node)
    · apply safely_rename hp hpb
      · rw [hset]
        exact hi none (v b) (by simp) (hk b) (hopen none)
      · intro hf
        rw [hset]
        exact hpost false none (v b) (by simp) (hk b) (hopen none) (by simp) fun _ => hf
      · rw [Function.update_self, Function.update_of_ne hpb, replaces_none hb]
        intro h
        cases h
      · intro _
        have hdone : Restorable original (v b) none := .inr ⟨rfl, .inr horig.1⟩
        have hkb : ∀ n ∈ v b, n.isDirectory = p.directory := hkind ▸ hk b
        rw [Function.update_of_ne hpb, Function.update_idem]
        exact ⟨hi (v b) none hkb (by simp) hdone,
          hpost true (v b) none hkb (by simp) hdone (fun _ => ⟨horig.1, rfl⟩) (by simp)⟩
  | false =>
    have hnone : v b = none := by simpa using hb
    have hrest : original = none ∨ v p = original := by
      rcases hr with ⟨h, h'⟩ | ⟨-, h⟩
      · rw [← h, hnone] at h'
        cases h'
      · exact h
    cases horig : original with
    | some node =>
      have hcur : v p = original := by
        rcases hrest with h | h
        · rw [horig] at h
          cases h
        · exact h
      apply safely_access hiv
      have := hpost true (v p) (v b) (hk p) (hk b) hr (fun _ => ⟨hcur, hnone⟩) (by simp)
      rw [hself] at this
      rw [hcur, horig] at *
      exact this
    | none =>
      apply safely_bind
      subst horig
      have hopen : ∀ current, Restorable none current (v b) := fun _ => .inr ⟨hnone, .inl rfl⟩
      apply safely_removeNode hp (hk p)
      · intro node hnode
        rw [hset]
        exact hi node (v b) hnode (hk b) (hopen node)
      · apply safely_pure
        · rw [hset]
          exact hi none (v b) (by simp) (hk b) (hopen none)
        · rw [hset]
          exact hpost true none (v b) (by simp) (hk b) (hopen none) (fun _ => ⟨rfl, hnone⟩)
            (by simp)

def pair (v : Files) : Option (Node Yaml) × Option (Node Yaml) := (v .cfg, v .env)

def SavePaths.transaction (paths : SavePaths) (state : String) (hadCfg hadEnv : Bool) :
    SaveTransaction :=
  { saveTransaction paths.cfgPath paths.envPath paths.pid paths.time with state, hadCfg, hadEnv }

def journalNode (t : SaveTransaction) : Option (Node Yaml) :=
  some (.file (some (saveJournalNode t)))

structure Versions where
  oldCfg : Option (Node Yaml)
  oldEnv : Option (Node Yaml)
  newCfg : Node Yaml
  newEnv : Node Yaml
  oldCfg_kind : ∀ n ∈ oldCfg, n.isDirectory = false
  oldEnv_kind : ∀ n ∈ oldEnv, n.isDirectory = true

namespace Versions

def old (versions : Versions) : Option (Node Yaml) × Option (Node Yaml) :=
  (versions.oldCfg, versions.oldEnv)

def new (versions : Versions) : Option (Node Yaml) × Option (Node Yaml) :=
  (some versions.newCfg, some versions.newEnv)

end Versions

/-- What a crash can leave: nothing begun, something to undo, or something to finish. -/
inductive Recoverable (paths : SavePaths) (versions : Versions) (v : Files) : Prop
  | idle (hj : v .journal = none) (hp : pair v = versions.old ∨ pair v = versions.new)
  | moving (state : String) (hs : state = "prepared" ∨ state = "old_moved")
      (hj : v .journal = journalNode
        (paths.transaction state versions.oldCfg.isSome versions.oldEnv.isSome))
      (hc : Restorable versions.oldCfg (v .cfg) (v .cfgBackup))
      (he : Restorable versions.oldEnv (v .env) (v .envBackup))
  | installed (hj : v .journal = journalNode
        (paths.transaction "new_installed" versions.oldCfg.isSome versions.oldEnv.isSome))
      (hp : pair v = versions.new)

/-- The invariant of a save and of every recovery after it. -/
def Consistent (paths : SavePaths) (versions : Versions) (v : Files) : Prop :=
  Kinds v ∧ Recoverable paths versions v

def Role.staged : Role → Bool
  | .cfgTemp | .envStage | .journalTemp => true
  | _ => false

section

variable {paths : SavePaths} {versions : Versions} {v : Files} {faults : Nat → Bool}

theorem Recoverable.staged (h : Recoverable paths versions v) {i : Role} (hi : i.staged = true)
    (node : Option (Node Yaml)) : Recoverable paths versions (Function.update v i node) := by
  have hother : ∀ j : Role, j.staged = false → Function.update v i node j = v j := by
    intro j hj
    apply Function.update_of_ne
    rintro rfl
    rw [hi] at hj
    cases hj
  have hpair : pair (Function.update v i node) = pair v := by
    rw [pair, hother .cfg rfl, hother .env rfl]
    rfl
  cases h with
  | idle hj hp => exact .idle ((hother .journal rfl).trans hj) (hpair ▸ hp)
  | moving state hs hj hc he =>
    refine .moving state hs ((hother .journal rfl).trans hj) ?_ ?_
    · rwa [hother .cfg rfl, hother .cfgBackup rfl]
    · rwa [hother .env rfl, hother .envBackup rfl]
  | installed hj hp => exact .installed ((hother .journal rfl).trans hj) (hpair ▸ hp)

theorem Consistent.staged (h : Consistent paths versions v) {i : Role} (hi : i.staged = true)
    {node : Option (Node Yaml)} (hn : ∀ n ∈ node, n.isDirectory = i.directory) :
    Consistent paths versions (Function.update v i node) :=
  ⟨h.1.update hn, h.2.staged hi node⟩

theorem loadSaveJournal_node (t : SaveTransaction) :
    loadSaveJournal (some (saveJournalNode t)) = .ok t := by
  simp [loadSaveJournal, saveJournalNode, Yaml.get?, List.lookup_cons, journalMember]
  rfl

theorem valid_transaction (paths : SavePaths) (hadCfg hadEnv : Bool)
    (hs : state = "prepared" ∨ state = "old_moved" ∨ state = "new_installed") :
    validSaveTransaction (paths.transaction state hadCfg hadEnv) paths.cfgPath paths.envPath =
      true := by
  rcases hs with rfl | rfl | rfl <;>
    simp [validSaveTransaction, SavePaths.transaction, saveTransaction, List.isPrefixOf]

/-- What a recovery promises: a complete pair when it returns, and that it returns when no call
fails. -/
def Recovered (versions : Versions) (faults : Nat → Bool) (result : Except String Unit)
    (v : Files) : Prop :=
  (result = .ok () → v .journal = none ∧ (pair v = versions.old ∨ pair v = versions.new)) ∧
    ((∀ n, faults n = false) → result = .ok ())

theorem Recovered.error (hf : ∃ n, faults n = true) :
    Recovered versions faults (.error message) v := by
  obtain ⟨n, hn⟩ := hf
  constructor
  · intro h
    cases h
  · intro h
    rw [h n] at hn
    cases hn

theorem Consistent.journal_none (h : Consistent paths versions v)
    (hp : pair v = versions.old ∨ pair v = versions.new) :
    Consistent paths versions (Function.update v .journal none) :=
  ⟨h.1.clear .journal, .idle (Function.update_self ..) hp⟩

theorem safely_closeSaveJournal (hv : Consistent paths versions v) (ok : Bool)
    (hok : ok = true → pair v = versions.old ∨ pair v = versions.new)
    (hno : ok = false → ∃ n, faults n = true) (state : String) (hadCfg hadEnv : Bool) :
    Safely faults paths.path (Consistent paths versions) (Recovered versions faults)
      (closeSaveJournal (journalPath paths.cfgPath)
        (paths.transaction state hadCfg hadEnv) ok) v := by
  apply safely_bind
  apply safely_discard
  apply safely_unlink (i := .cfgTemp) paths.injective _ hv (hv.staged rfl (by simp))
  · intro _
    apply safely_bind
    have hv₁ : Consistent paths versions (Function.update v .cfgTemp none) :=
      hv.staged rfl (by simp)
    apply safely_removeFlatDirectory (i := .envStage) paths.injective (hv₁.1 .envStage)
    · exact fun node hnode => hv₁.staged rfl hnode
    · have hv₂ : Consistent paths versions
          (Function.update (Function.update v .cfgTemp none) .envStage none) :=
        hv₁.staged rfl (by simp)
      apply safely_bind
      apply safely_andThen
      apply safely_pure hv₂
      cases ok with
      | false => exact safely_pure hv₂ (.error (hno rfl))
      | true =>
        have hpair := hok rfl
        have hv₃ := hv₂.journal_none hpair
        apply safely_syncTransactionDirectories hv₂
        · exact fun hf => safely_pure hv₂ (.error hf)
        · apply safely_bind
          apply safely_unlink (i := .journal) paths.injective _ hv₂ hv₃
          · intro removed
            apply safely_bind
            apply safely_access (i := .journal) hv₃
            rw [Function.update_self, Option.isSome_none, Bool.and_false]
            apply safely_bind
            apply safely_syncParent hv₃
            · exact fun hf => safely_pure hv₃ (.error hf)
            · exact safely_pure hv₃ ⟨fun _ => ⟨Function.update_self .., hpair⟩, fun _ => rfl⟩
          · exact hv₂.1.isFile rfl
  · exact hv.1.isFile rfl

theorem Recoverable.restored (hs : state = "prepared" ∨ state = "old_moved")
    (hj : v .journal = journalNode
      (paths.transaction state versions.oldCfg.isSome versions.oldEnv.isSome))
    (hc : Restorable versions.oldCfg cfg cfgBackup)
    (he : Restorable versions.oldEnv env envBackup) :
    Recoverable paths versions (Function.update (Function.update (Function.update
      (Function.update v .cfg cfg) .cfgBackup cfgBackup) .env env) .envBackup envBackup) := by
  refine .moving state hs ?_ ?_ ?_
  · simpa [Function.update_apply] using hj
  · simpa [Function.update_apply] using hc
  · simpa [Function.update_apply] using he

theorem safely_undo (hk : Kinds v) (hs : state = "prepared" ∨ state = "old_moved")
    (hj : v .journal = journalNode
      (paths.transaction state versions.oldCfg.isSome versions.oldEnv.isSome))
    (hc : Restorable versions.oldCfg (v .cfg) (v .cfgBackup))
    (he : Restorable versions.oldEnv (v .env) (v .envBackup)) :
    Safely faults paths.path (Consistent paths versions) (Recovered versions faults)
      (recoverTransaction (journalPath paths.cfgPath)
        (paths.transaction state versions.oldCfg.isSome versions.oldEnv.isSome)) v := by
  have hstate : (paths.transaction state versions.oldCfg.isSome versions.oldEnv.isSome).state ≠
      "new_installed" := by
    rcases hs with rfl | rfl
    · exact show "prepared" ≠ "new_installed" by decide
    · exact show "old_moved" ≠ "new_installed" by decide
  rw [recoverTransaction, if_neg hstate]
  apply safely_bind
  apply safely_restoreBackup (p := .cfg) (b := .cfgBackup) paths.injective (by decide) rfl hk hc
    versions.oldCfg_kind
  · intro current backup hcur hbak hr
    refine ⟨(hk.update hcur).update hbak, .moving state hs hj hr ?_⟩
    simpa [Function.update_apply] using he
  · intro cfgOk current backup hcur hbak hr hcfgOk hcfgFault
    have hk₁ : Kinds (Function.update (Function.update v .cfg current) .cfgBackup backup) :=
      (hk.update hcur).update hbak
    apply safely_bind
    apply safely_restoreBackup (p := .env) (b := .envBackup) paths.injective (by decide) rfl hk₁ _
      versions.oldEnv_kind
    · intro current' backup' hcur' hbak' hr'
      exact ⟨(hk₁.update hcur').update hbak', .restored hs hj hr hr'⟩
    · intro envOk current' backup' hcur' hbak' hr' henvOk henvFault
      have hv : Consistent paths versions (Function.update (Function.update (Function.update
          (Function.update v .cfg current) .cfgBackup backup) .env current') .envBackup backup') :=
        ⟨(hk₁.update hcur').update hbak', .restored hs hj hr hr'⟩
      apply safely_closeSaveJournal hv
      · intro hok
        obtain ⟨henv, hcfg⟩ := Bool.and_eq_true_iff.1 hok
        left
        simp [pair, Versions.old, (hcfgOk hcfg).1, (henvOk henv).1]
      · intro hok
        rcases Bool.and_eq_false_iff.1 hok with h | h
        · exact henvFault h
        · exact hcfgFault h
    · simpa [Function.update_apply] using he

theorem safely_finish (hk : Kinds v) (hj : v .journal = journalNode
      (paths.transaction "new_installed" versions.oldCfg.isSome versions.oldEnv.isSome))
    (hp : pair v = versions.new) :
    Safely faults paths.path (Consistent paths versions) (Recovered versions faults)
      (recoverTransaction (journalPath paths.cfgPath)
        (paths.transaction "new_installed" versions.oldCfg.isSome versions.oldEnv.isSome)) v := by
  have hv : Consistent paths versions v := ⟨hk, .installed hj hp⟩
  have hcfg : v .cfg = some versions.newCfg := congrArg Prod.fst hp
  have henv : v .env = some versions.newEnv := congrArg Prod.snd hp
  have hstate : (paths.transaction "new_installed" versions.oldCfg.isSome
      versions.oldEnv.isSome).state = "new_installed" := rfl
  rw [recoverTransaction, if_pos hstate]
  apply safely_bind
  apply safely_andThen
  apply safely_access (i := .cfg) hv
  rw [hcfg]
  apply safely_access (i := .env) hv
  rw [henv]
  have hv₁ : Consistent paths versions (Function.update v .cfgBackup none) :=
    ⟨hk.clear .cfgBackup, .installed hj hp⟩
  apply safely_bind
  apply safely_discard
  apply safely_unlink (i := .cfgBackup) paths.injective (hk.isFile rfl) hv hv₁
  intro _
  apply safely_bind
  have hv₂ : ∀ node : Option (Node Yaml), (∀ n ∈ node, n.isDirectory = true) →
      Consistent paths versions
        (Function.update (Function.update v .cfgBackup none) .envBackup node) :=
    fun node hnode => ⟨hv₁.1.update hnode, .installed hj hp⟩
  apply safely_removeFlatDirectory (i := .envBackup) paths.injective (hv₁.1 .envBackup) hv₂
  exact safely_closeSaveJournal (hv₂ none (by simp)) true (fun _ => .inr hp) (by simp) _ _ _

theorem safely_recoverProgCfgSave (hv : Consistent paths versions v) :
    Safely faults paths.path (Consistent paths versions) (Recovered versions faults)
      (recoverProgCfgSave paths.cfgPath paths.envPath) v := by
  have hk := hv.1
  apply safely_bind
  apply safely_access (i := .journal) hv
  cases hv.2 with
  | idle hj hp =>
    rw [hj]
    exact safely_pure hv ⟨fun _ => ⟨hj, hp⟩, fun _ => rfl⟩
  | moving state hs hj hc he =>
    rw [hj]
    apply safely_bind
    apply safely_read (i := .journal) hv
    · intro content hcontent
      cases hj.symm.trans hcontent
      rw [loadSaveJournal_node]
      simp only [valid_transaction paths _ _ (hs.imp_right .inl)]
      exact safely_undo hk hs hj hc he
    · exact fun hno => absurd hj (hno _)
  | installed hj hp =>
    rw [hj]
    apply safely_bind
    apply safely_read (i := .journal) hv
    · intro content hcontent
      cases hj.symm.trans hcontent
      rw [loadSaveJournal_node]
      simp only [valid_transaction paths _ _ (.inr (.inr rfl))]
      exact safely_finish hk hj hp
    · exact fun hno => absurd hj (hno _)

end

end PmTiny.Persist
