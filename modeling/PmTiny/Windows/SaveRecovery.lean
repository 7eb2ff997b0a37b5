import PmTiny.Windows.ProgramPersistence

namespace PmTiny.Windows.Persistence
set_option autoImplicit true
open Crash FileSystem Persist

def Hit (faults : Nat → Bool) (n : Nat) : Prop := ∃ m < n, faults m = true

theorem Hit.here (hf : faults n = true) : Hit faults (n + 1) := ⟨n, n.lt_succ_self, hf⟩

theorem Hit.past (h : Hit faults n) (hone : ∀ m n, faults m = true → faults n = true → m = n)
    (hn : n ≤ m) : faults m = false := by
  obtain ⟨k, hk, hf⟩ := h
  cases hm : faults m with
  | false => rfl
  | true =>
    have := hone k m hf hm
    omega

section

variable {code : String → Nat} {faults : Nat → Bool} {path : Role → String} {v : Files} {n : Nat}
  {inv : Files → Prop} {post : Except String Unit → Files → Nat → Prop}

theorem counted_require {p : DiskProgram Bool}
    (h : Counted faults path inv (fun ok v n => post (outcome ok error) v n) p v n) :
    Counted faults path inv post (require p error) v n := by
  apply counted_bind
  apply counted_mono h
  intro ok v n hi hp
  exact counted_pure hi hp

/-- What is proved of a step: the one for its success, the other for its failure. -/
def Either (P E : Files → Nat → Prop) (result : Except String Unit) (v : Files) (n : Nat) : Prop :=
  match result with
  | .ok () => P v n
  | .error _ => E v n

variable {P Q E E' : Files → Nat → Prop}

theorem counted_followedBy {p q : Fallible}
    (h : Counted faults path inv (Either (Counted faults path inv post q)
      fun v n => ∀ error, post (.error error) v n) p v n) :
    Counted faults path inv post (followedBy p q) v n := by
  apply counted_bind
  apply counted_mono h
  intro result v n hi hp
  cases result with
  | error error => exact counted_pure hi (hp error)
  | ok => exact hp

theorem counted_onFailure {p : Fallible} {cleanup : DiskProgram Unit}
    (h : Counted faults path inv (Either (post (.ok ())) fun v n => ∀ error,
      Counted faults path inv (fun _ v n => post (.error error) v n) cleanup v n) p v n) :
    Counted faults path inv post (onFailure p cleanup) v n := by
  apply counted_bind
  apply counted_mono h
  intro result v n hi hp
  cases result with
  | error error =>
    apply counted_bind
    apply counted_mono (hp error)
    intro _ v n hi hp
    exact counted_pure hi hp
  | ok => exact counted_pure hi hp

theorem counted_sequence {p q : Fallible} (h : Counted faults path inv (Either P E) p v n)
    (hq : ∀ v n, inv v → P v n → Counted faults path inv (Either Q E) q v n) :
    Counted faults path inv (Either Q E) (followedBy p q) v n := by
  apply counted_followedBy
  apply counted_mono h
  intro result v n hi hp
  cases result with
  | error error => exact fun _ => hp
  | ok => exact hq v n hi hp

theorem counted_movePath {i j : Role} (hp : Function.Injective path) (hne : i ≠ j) (hi : inv v)
    (hmay : movesOnto replace (v i) (v j) = true) (hfail : faults n = true → E v (n + 1))
    (hi' : inv (Function.update (Function.update v j (v i)) i none))
    (hok : P (Function.update (Function.update v j (v i)) i none) (n + 1)) :
    Counted faults path inv (Either P E) (movePath code (path i) (path j) replace) v n := by
  apply counted_require
  apply counted_move hp hne hi hfail
  · intro hno
    rw [hmay] at hno
    cases hno
  · exact fun _ => ⟨hi', hok⟩

theorem movesOnto_none {node : Option (Node Yaml)} (h : node.isSome = true) :
    movesOnto replace node none = true := by
  cases node with
  | none => cases h
  | some node => cases node <;> rfl

theorem movesOnto_file (content : Option Yaml) {node : Option (Node Yaml)}
    (h : ∀ n ∈ node, n.isFile = true) : movesOnto true (some (.file content)) node = true := by
  cases node with
  | none => rfl
  | some node =>
    cases node with
    | file content => rfl
    | directory entries => cases h _ rfl

/-- After a restore the original is back and the backup gone; short of that, both are still
restorable. -/
theorem counted_restoreBackup {original : Option (Node Yaml)} {p b : Role}
    (hp : Function.Injective path) (hpb : b ≠ p) (hkind : p.directory = b.directory) (hk : Kinds v)
    (hr : Restorable original (v p) (v b))
    (hi : ∀ current backup, (∀ n ∈ current, n.isDirectory = p.directory) →
      (∀ n ∈ backup, n.isDirectory = b.directory) → Restorable original current backup →
      inv (Function.update (Function.update v p current) b backup))
    (hfail : faults n = true → ∀ v, E v (n + 1))
    (hok : ∀ m, n ≤ m → P (Function.update (Function.update v p original) b none) m) :
    Counted faults path inv (Either P E)
      (restoreBackup code (path b) (path p) original.isSome p.directory) v n := by
  have hself : Function.update (Function.update v p (v p)) b (v b) = v := by
    rw [Function.update_eq_self, Function.update_eq_self]
  have hiv : inv v := by
    have := hi (v p) (v b) (hk p) (hk b) hr
    rwa [hself] at this
  have hset : ∀ node, Function.update v p node =
      Function.update (Function.update v p node) b (v b) := by
    intro node
    rw [eq_comm, Function.update_eq_iff]
    exact ⟨(Function.update_of_ne hpb _ _).symm, fun _ _ => rfl⟩
  apply counted_bind
  apply counted_access hiv
  cases hb : (v b).isSome with
  | true =>
    have horig : v b = original ∧ original.isSome = true := by
      rcases hr with h | ⟨hnone, -⟩
      · exact h
      · rw [hnone] at hb
        cases hb
    have hremoved : ∀ node : Option (Node Yaml), (∀ n ∈ node, n.isDirectory = p.directory) →
        inv (Function.update v p node) := by
      intro node hnode
      rw [hset]
      exact hi node (v b) hnode (hk b) (.inl horig)
    have hback : Function.update (Function.update (Function.update v p none) p (v b)) b none =
        Function.update (Function.update v p original) b none := by
      rw [Function.update_idem, horig.1]
    apply counted_bind
    apply counted_removeNode hp (hk p) hremoved
    apply counted_movePath hp hpb (hremoved none (by simp))
    · rw [Function.update_self, Function.update_of_ne hpb]
      exact movesOnto_none hb
    · exact fun hf => hfail hf _
    · rw [Function.update_of_ne hpb, hback, ← horig.1]
      exact hi (v b) none (hkind ▸ hk b) (by simp) (.inr ⟨rfl, .inr horig.1⟩)
    · rw [Function.update_of_ne hpb, hback]
      exact hok _ (Nat.le_succ n)
  | false =>
    have hnone : v b = none := by simpa using hb
    have hrest : original = none ∨ v p = original := by
      rcases hr with ⟨h, h'⟩ | ⟨-, h⟩
      · rw [← h, hnone] at h'
        cases h'
      · exact h
    cases horig : original with
    | some node =>
      have hcur : v p = original := by
        rcases hrest with h | h
        · rw [horig] at h
          cases h
        · exact h
      have hdone := hok n le_rfl
      rw [← hcur, ← hnone, hself] at hdone
      apply counted_require
      apply counted_access hiv
      rw [hcur, horig]
      exact hdone
    | none =>
      subst horig
      have hremoved : ∀ node : Option (Node Yaml), (∀ n ∈ node, n.isDirectory = p.directory) →
          inv (Function.update v p node) := by
        intro node hnode
        rw [hset]
        exact hi node (v b) hnode (hk b) (.inr ⟨hnone, .inl rfl⟩)
      apply counted_bind
      apply counted_removeNode hp (hk p) hremoved
      apply counted_pure (hremoved none (by simp))
      have hsame := hset none
      rw [hnone] at hsame
      rw [hsame]
      exact hok n le_rfl

end

def transactionOf (paths : SavePaths) (state : String) (hadConfig hadEnviron : Bool) :
    SaveTransaction :=
  { saveTransaction paths.cfgPath paths.envPath paths.pid paths.time with
    state, hadConfig, hadEnviron }

def journalOf (paths : SavePaths) (versions : Versions) (state : String) : Option (Node Yaml) :=
  some (.file (some (journalNode
    (transactionOf paths state versions.oldCfg.isSome versions.oldEnv.isSome))))

def Settled (versions : Versions) (v : Files) : Prop :=
  pair v = versions.old ∨ pair v = versions.new

/-- The old files are in their place or in the backups, and the journal says so. -/
structure Moving (paths : SavePaths) (versions : Versions) (state : String) (v : Files) : Prop where
  journal : v .journal = journalOf paths versions state
  cfg : Restorable versions.oldCfg (v .cfg) (v .cfgBackup)
  env : Restorable versions.oldEnv (v .env) (v .envBackup)

/-- What a crash can leave: nothing begun, something to undo, or something to finish. -/
inductive Recoverable (paths : SavePaths) (versions : Versions) (v : Files) : Prop
  | idle (hj : v .journal = none) (hp : Settled versions v)
  | moving (state : String) (hs : state = "prepared" ∨ state = "old_moved")
      (hm : Moving paths versions state v)
  | installed (hj : v .journal = journalOf paths versions "new_installed")
      (hp : pair v = versions.new)

/-- The invariant of a save and of every recovery after it. -/
def Consistent (paths : SavePaths) (versions : Versions) (v : Files) : Prop :=
  Kinds v ∧ Recoverable paths versions v

section

variable {code : String → Nat} {paths : SavePaths} {versions : Versions} {v : Files}
  {faults : Nat → Bool} {n : Nat}

theorem update_staged {i j : Role} (hi : i.staged = true) (hj : j.staged = false)
    (node : Option (Node Yaml)) : Function.update v i node j = v j := by
  apply Function.update_of_ne
  intro h
  rw [h, hi] at hj
  cases hj

theorem pair_staged {i : Role} (hi : i.staged = true) (node : Option (Node Yaml)) :
    pair (Function.update v i node) = pair v := by
  rw [pair, update_staged hi rfl, update_staged hi rfl]
  rfl

theorem Moving.staged (h : Moving paths versions state v) {i : Role} (hi : i.staged = true)
    (node : Option (Node Yaml)) : Moving paths versions state (Function.update v i node) := by
  constructor
  · rw [update_staged hi rfl, h.journal]
  · rw [update_staged hi rfl, update_staged hi rfl]
    exact h.cfg
  · rw [update_staged hi rfl, update_staged hi rfl]
    exact h.env

theorem Recoverable.staged (h : Recoverable paths versions v) {i : Role} (hi : i.staged = true)
    (node : Option (Node Yaml)) : Recoverable paths versions (Function.update v i node) := by
  have hjournal := update_staged (v := v) (j := .journal) hi rfl node
  cases h with
  | idle hj hp =>
    apply Recoverable.idle (hjournal.trans hj)
    rwa [Settled, pair_staged hi]
  | moving state hs hm => exact .moving state hs (hm.staged hi node)
  | installed hj hp =>
    apply Recoverable.installed (hjournal.trans hj)
    rwa [pair_staged hi]

theorem Consistent.staged (h : Consistent paths versions v) {i : Role} (hi : i.staged = true)
    {node : Option (Node Yaml)} (hn : ∀ n ∈ node, n.isDirectory = i.directory) :
    Consistent paths versions (Function.update v i node) :=
  ⟨h.1.update hn, h.2.staged hi node⟩

theorem Moving.consistent (h : Moving paths versions state v) (hk : Kinds v)
    (hs : state = "prepared" ∨ state = "old_moved") : Consistent paths versions v :=
  ⟨hk, .moving state hs h⟩

theorem Consistent.journal_none (h : Consistent paths versions v) (hp : Settled versions v) :
    Consistent paths versions (Function.update v .journal none) :=
  ⟨h.1.clear .journal, .idle (Function.update_self ..) hp⟩

theorem readJournal_node (t : SaveTransaction) : readJournal (some (journalNode t)) = .ok t := by
  simp only [readJournal, Yaml.get?, journalNode, List.lookup_cons_self, Option.bind_some,
    Yaml.asInt_ofInt, ↓reduceIte, journalMember, List.lookup_cons, String.reduceBEq,
    Yaml.asString_scalar, Yaml.asBool_ofBool, bind_pure_comp, Except.map_ok]
  rfl

theorem valid_transaction (paths : SavePaths) (hadConfig hadEnviron : Bool)
    (hs : state = "prepared" ∨ state = "old_moved" ∨ state = "new_installed") :
    validTransaction (transactionOf paths state hadConfig hadEnviron) paths.cfgPath paths.envPath =
      true := by
  rcases hs with rfl | rfl | rfl <;>
    simp [validTransaction, transactionOf, saveTransaction, List.isPrefixOf]

/-- What a recovery promises when `n` calls were made before it: a complete pair when it returns,
and that it returns when no further call fails. -/
def Recovered (versions : Versions) (faults : Nat → Bool) (n : Nat) (result : Except String Unit)
    (v : Files) : Prop :=
  (result = .ok () → v .journal = none ∧ Settled versions v) ∧
    ((∀ m, n ≤ m → faults m = false) → result = .ok ())

theorem Recovered.error (hn : n ≤ m) (hf : faults m = true) :
    Recovered versions faults n (.error message) v := by
  constructor
  · intro h
    cases h
  · intro h
    rw [h m hn] at hf
    cases hf

theorem counted_closeJournal (hv : Consistent paths versions v) (hp : Settled versions v)
    (hn : m ≤ n) (state : String) (hadConfig hadEnviron : Bool) :
    Counted faults paths.path (Consistent paths versions)
      (fun result v _ => Recovered versions faults m result v)
      (closeJournal (journalPath paths.cfgPath) (transactionOf paths state hadConfig hadEnviron))
      v n := by
  have hv₁ : Consistent paths versions (Function.update v .cfgTemp none) := hv.staged rfl (by simp)
  have hv₂ : Consistent paths versions
      (Function.update (Function.update v .cfgTemp none) .envStage none) := hv₁.staged rfl (by simp)
  have hp₂ : Settled versions (Function.update (Function.update v .cfgTemp none) .envStage none) :=
    hp
  have hv₃ := hv₂.journal_none hp₂
  apply counted_bind
  apply counted_discard
  apply counted_unlink (i := .cfgTemp) paths.injective (hv.1.isFile rfl) hv hv₁
  intro _
  apply counted_bind
  apply counted_removeFlatDirectory (i := .envStage) paths.injective (hv₁.1 .envStage)
  · exact fun node hnode => hv₁.staged rfl hnode
  apply counted_bind
  apply counted_discard
  apply counted_unlink (i := .journal) paths.injective (hv₂.1.isFile rfl) hv₂ hv₃
  intro _
  apply counted_require
  apply counted_syncParent hv₃
  · exact fun hf => .error hn hf
  · exact ⟨fun _ => ⟨Function.update_self .., hp₂⟩, fun _ => rfl⟩

theorem counted_undo (hk : Kinds v) (hs : state = "prepared" ∨ state = "old_moved")
    (hm : Moving paths versions state v) :
    Counted faults paths.path (Consistent paths versions)
      (fun result v _ => Recovered versions faults n result v)
      (recoverTransaction code (journalPath paths.cfgPath)
        (transactionOf paths state versions.oldCfg.isSome versions.oldEnv.isSome)) v n := by
  have hstate : (transactionOf paths state versions.oldCfg.isSome versions.oldEnv.isSome).state ≠
      "new_installed" := by
    rcases hs with rfl | rfl
    · exact show "prepared" ≠ "new_installed" by decide
    · exact show "old_moved" ≠ "new_installed" by decide
  rw [recoverTransaction, if_neg hstate]
  apply counted_followedBy
  apply counted_restoreBackup (p := .cfg) (b := .cfgBackup) paths.injective (by decide) rfl hk
    hm.cfg
  · intro current backup hcur hbak hr
    apply Moving.consistent _ ((hk.update hcur).update hbak) hs
    exact ⟨hm.journal, by simpa [Function.update_apply] using hr,
      by simpa [Function.update_apply] using hm.env⟩
  · exact fun hf _ _ => .error le_rfl hf
  intro m hn
  have hk₁ : Kinds (Function.update (Function.update v .cfg versions.oldCfg) .cfgBackup none) :=
    (hk.update versions.oldCfg_kind).update (by simp)
  apply counted_followedBy
  apply counted_restoreBackup (p := .env) (b := .envBackup) paths.injective (by decide) rfl hk₁
  · simpa [Function.update_apply] using hm.env
  · intro current backup hcur hbak hr
    apply Moving.consistent _ ((hk₁.update hcur).update hbak) hs
    refine ⟨hm.journal, ?_, by simpa [Function.update_apply] using hr⟩
    simpa [Function.update_apply] using Restorable.unmoved versions.oldCfg
  · exact fun hf _ _ => .error hn hf
  intro m' hn'
  apply counted_closeJournal _ _ (hn.trans hn')
  · apply Moving.consistent _ ((hk₁.update versions.oldEnv_kind).update (by simp)) hs
    refine ⟨hm.journal, ?_, ?_⟩
    · simpa [Function.update_apply] using Restorable.unmoved versions.oldCfg
    · simpa [Function.update_apply] using Restorable.unmoved versions.oldEnv
  · left
    simp [pair, Versions.old]

theorem counted_finish (code : String → Nat) (hk : Kinds v)
    (hj : v .journal = journalOf paths versions "new_installed")
    (hp : pair v = versions.new) :
    Counted faults paths.path (Consistent paths versions)
      (fun result v _ => Recovered versions faults n result v)
      (recoverTransaction code (journalPath paths.cfgPath)
        (transactionOf paths "new_installed" versions.oldCfg.isSome versions.oldEnv.isSome)) v
          n := by
  have hv : Consistent paths versions v := ⟨hk, .installed hj hp⟩
  have hcfg : v .cfg = some versions.newCfg := congrArg Prod.fst hp
  have henv : v .env = some versions.newEnv := congrArg Prod.snd hp
  have hstate : (transactionOf paths "new_installed" versions.oldCfg.isSome
      versions.oldEnv.isSome).state = "new_installed" := rfl
  have hv₁ : Consistent paths versions (Function.update v .cfgBackup none) :=
    ⟨hk.clear .cfgBackup, .installed hj hp⟩
  have hv₂ : ∀ node : Option (Node Yaml), (∀ n ∈ node, n.isDirectory = true) →
      Consistent paths versions
        (Function.update (Function.update v .cfgBackup none) .envBackup node) :=
    fun node hnode => ⟨hv₁.1.update hnode, .installed hj hp⟩
  rw [recoverTransaction, if_pos hstate]
  apply counted_bind
  apply counted_andThen
  apply counted_access (i := .cfg) hv
  rw [hcfg]
  apply counted_access (i := .env) hv
  rw [henv]
  apply counted_bind
  apply counted_discard
  apply counted_unlink (i := .cfgBackup) paths.injective (hk.isFile rfl) hv hv₁
  intro _
  apply counted_bind
  apply counted_removeFlatDirectory (i := .envBackup) paths.injective (hv₁.1 .envBackup) hv₂
  exact counted_closeJournal (hv₂ none (by simp)) (.inr hp) le_rfl _ _ _

theorem counted_recover (hv : Consistent paths versions v) :
    Counted faults paths.path (Consistent paths versions)
      (fun result v _ => Recovered versions faults n result v)
      (recoverProgramConfigSave code paths.cfgPath paths.envPath) v n := by
  have hk := hv.1
  apply counted_bind
  apply counted_access (i := .journal) hv
  cases hv.2 with
  | idle hj hp =>
    rw [hj]
    exact counted_pure hv ⟨fun _ => ⟨hj, hp⟩, fun _ => rfl⟩
  | moving state hs hm =>
    rw [hm.journal]
    apply counted_bind
    apply counted_read (i := .journal) hv
    · intro content hcontent
      cases hm.journal.symm.trans hcontent
      rw [readJournal_node]
      simp only [valid_transaction paths _ _ (hs.imp_right .inl)]
      exact counted_undo hk hs hm
    · exact fun hno => absurd hm.journal (hno _)
  | installed hj hp =>
    rw [hj]
    apply counted_bind
    apply counted_read (i := .journal) hv
    · intro content hcontent
      cases hj.symm.trans hcontent
      rw [readJournal_node]
      simp only [valid_transaction paths _ _ (.inr (.inr rfl))]
      exact counted_finish code hk hj hp
    · exact fun hno => absurd hj (hno _)

end

end PmTiny.Windows.Persistence
