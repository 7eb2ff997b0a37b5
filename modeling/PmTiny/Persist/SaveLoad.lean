import PmTiny.Lib.Keyed
import PmTiny.Persist.Validators

namespace PmTiny.Persist
set_option autoImplicit true
open Crash FileSystem

theorem filterMap_getElem? (l : List α) :
    ((List.range l.length).filterMap fun i => l[i]?) = l := by
  induction l with
  | nil => rfl
  | cons a l ih =>
    rw [List.length_cons, List.range_succ_eq_map, List.filterMap_cons, List.filterMap_map]
    simpa using ih

theorem perm_order (graph : DependencyGraph) (programs : List ProgCfg)
    (h : graph.size = programs.length) :
    (graph.topologicalOrder.filterMap fun id => programs[id]?).Perm programs := by
  have hperm : graph.topologicalOrder.Perm (List.range programs.length) := by
    apply (List.perm_ext_iff_of_nodup graph.order_nodup List.nodup_range).2
    intro id
    rw [DependencyGraph.mem_order, List.mem_range, h]
  have hfinal := hperm.filterMap fun id => programs[id]?
  rwa [filterMap_getElem?] at hfinal

theorem validate_build (h : validateAndOrderProgCfgs configs = none) :
    ∃ graph, DependencyGraph.build configs = .ok graph := by
  rw [validateAndOrderProgCfgs] at h
  split at h
  · cases h
  · split at h
    · cases h
    · rename_i graph hgraph
      exact ⟨graph, hgraph⟩

theorem orderProgCfgs_perm
    (hv : validateAndOrderProgCfgs (programs.map ProgCfg.dependencyNode) = none) :
    ∃ ordered, orderProgCfgs programs = .ok ordered ∧ ordered.Perm programs := by
  obtain ⟨graph, hgraph⟩ := validate_build hv
  refine ⟨_, ?_, perm_order graph programs ?_⟩
  · rw [orderProgCfgs, hv]
    simp only [hgraph]
  · rw [DependencyGraph.size, DependencyGraph.build_names hgraph]
    simp

theorem valid_perm {configs configs' : List DependencyNodeConfig}
    (h : DependencyGraph.Valid configs) (hperm : configs'.Perm configs) :
    DependencyGraph.Valid configs' where
  name_ne := fun c hc => h.name_ne c (hperm.mem_iff.1 hc)
  names_nodup := (hperm.map _).nodup_iff.2 h.names_nodup
  deps_nodup := fun c hc => h.deps_nodup c (hperm.mem_iff.1 hc)
  not_self := fun c hc => h.not_self c (hperm.mem_iff.1 hc)
  registered := fun c hc d hd => (hperm.map _).mem_iff.2 (h.registered c (hperm.mem_iff.1 hc) d hd)
  acyclic := by
    obtain ⟨rank, hrank⟩ := h.acyclic
    exact ⟨rank, fun c hc d hd => hrank c (hperm.mem_iff.1 hc) d hd⟩

theorem orderProgCfgs_build (h : orderProgCfgs programs = .ok ordered) :
    ∃ graph, DependencyGraph.build (ordered.map ProgCfg.dependencyNode) = .ok graph := by
  cases hv : validateAndOrderProgCfgs (programs.map ProgCfg.dependencyNode) with
  | some error =>
    rw [orderProgCfgs, hv] at h
    cases h
  | none =>
    obtain ⟨graph, hgraph⟩ := validate_build hv
    obtain ⟨ordered', hordered, hperm⟩ := orderProgCfgs_perm hv
    rw [h] at hordered
    cases hordered
    exact DependencyGraph.build_isOk
      (valid_perm (DependencyGraph.valid_of_build hgraph) (hperm.map _))

theorem mem_putEntry (n name : String) (content : Option Yaml)
    (entries : List (String × Option Yaml)) :
    n ∈ (putEntry name content entries).map (·.1) ↔ n = name ∨ n ∈ entries.map (·.1) := by
  induction entries with
  | nil => simp [putEntry]
  | cons entry entries ih =>
    rw [putEntry]
    split_ifs with h
    · simp [h]
    · rw [List.map_cons, List.mem_cons, ih, List.map_cons, List.mem_cons]
      tauto

theorem lookup_cons_if (n key : String) (value : Option Yaml)
    (entries : List (String × Option Yaml)) :
    List.lookup n ((key, value) :: entries) = if n = key then some value else entries.lookup n := by
  rw [List.lookup_cons]
  split_ifs with h
  · rw [h, beq_self_eq_true]
  · rw [beq_eq_false_iff_ne.2 h]

theorem lookup_putEntry (n name : String) (content : Option Yaml)
    (entries : List (String × Option Yaml)) :
    (putEntry name content entries).lookup n =
      if n = name then some content else entries.lookup n := by
  induction entries with
  | nil => rw [putEntry, lookup_cons_if]
  | cons entry entries ih =>
    obtain ⟨key, value⟩ := entry
    by_cases hk : key = name
    · rw [putEntry, if_pos hk, lookup_cons_if, lookup_cons_if, hk]
      split_ifs <;> rfl
    · rw [putEntry, if_neg hk, lookup_cons_if, lookup_cons_if, ih]
      split_ifs with h h'
      · exact absurd (h.symm.trans h') hk
      · rfl
      · rfl
      · rfl

theorem mem_directoryOf (files : List (String × Yaml)) (n : String) :
    n ∈ (directoryOf files).map (·.1) ↔ n ∈ files.map (·.1) := by
  induction files using List.reverseRecOn with
  | nil => simp [directoryOf]
  | append_singleton files file ih =>
    rw [directoryOf, List.foldl_append, List.foldl_cons, List.foldl_nil, mem_putEntry]
    change _ ∨ n ∈ (directoryOf files).map (·.1) ↔ _
    rw [ih]
    simp [or_comm]

theorem lookup_directoryOf (files : List (String × Yaml)) (hn : (files.map (·.1)).Nodup)
    (h : (n, content) ∈ files) : (directoryOf files).lookup n = some (some content) := by
  induction files using List.reverseRecOn with
  | nil => cases h
  | append_singleton files file ih =>
    rw [directoryOf, List.foldl_append, List.foldl_cons, List.foldl_nil, lookup_putEntry]
    rw [List.map_append, List.nodup_append] at hn
    rcases List.mem_append.1 h with h | h
    · have hne : n ≠ file.1 := hn.2.2 n (List.mem_map_of_mem h) file.1 (by simp)
      rw [if_neg hne]
      exact ih hn.1 h
    · cases List.mem_singleton.1 h
      rw [if_pos rfl]

theorem yaml_injective : Function.Injective fun name : String => name ++ ".yaml" := by
  intro a b h
  rw [← String.toList_inj] at h ⊢
  simpa using h

theorem environEntries_ofStrings (envs : List String) :
    environEntries (some (.ofStrings envs)) = some envs := by
  rw [Yaml.ofStrings, environEntries]
  induction envs with
  | nil => rfl
  | cons env envs ih => simp [ih]

/-- Two of the programs would share a file: one as its environment, one as its old environment. -/
def SidecarClash (saved : List ProgCfg) : Prop :=
  ∃ cfg ∈ saved, ∃ other ∈ saved, cfg.name = other.name ++ ".yaml"

section

variable {saved : List ProgCfg} (environ : List String) (envPath : String)

theorem legacy_iff (name : String) : (directoryOf (saved.map sidecar)).any (·.1 = name) = true ↔
    ∃ other ∈ saved, name = other.name ++ ".yaml" := by
  have hmem := mem_directoryOf (saved.map sidecar) name
  rw [List.any_eq_true]
  simp only [List.mem_map, decide_eq_true_eq] at hmem ⊢
  rw [hmem]
  constructor
  · rintro ⟨-, ⟨other, hother, rfl⟩, rfl⟩
    exact ⟨other, hother, rfl⟩
  · rintro ⟨other, hother, rfl⟩
    exact ⟨_, ⟨other, hother, rfl⟩, rfl⟩

theorem loadAppEnviron_sidecar (hn : (saved.map ProgCfg.name).Nodup) (hc : cfg ∈ saved)
    (hclash : ∀ other ∈ saved, cfg.name ≠ other.name ++ ".yaml") :
    loadAppEnviron environ envPath (some (.directory (directoryOf (saved.map sidecar)))) cfg.name =
      .ok cfg.envs := by
  have hnames : ((saved.map sidecar).map (·.1)).Nodup := by
    have hcomp : (saved.map sidecar).map (·.1) =
        (saved.map ProgCfg.name).map fun name => name ++ ".yaml" := by
      rw [List.map_map, List.map_map]
      rfl
    rw [hcomp]
    exact hn.map yaml_injective
  have hlegacy : (directoryOf (saved.map sidecar)).any (·.1 = cfg.name) = false := by
    rw [Bool.eq_false_iff, ne_eq, legacy_iff]
    rintro ⟨other, hother, he⟩
    exact hclash other hother he
  have hfound : (directoryOf (saved.map sidecar)).lookup (cfg.name ++ ".yaml") =
      some (some (environNode cfg.envs)) :=
    lookup_directoryOf _ hnames (List.mem_map_of_mem hc)
  have hschema : ((environNode cfg.envs).get? "schema").bind Yaml.asInt = some 1 :=
    Yaml.asInt_ofInt 1
  have henv : environEntries ((environNode cfg.envs).get? "environment") = some cfg.envs :=
    environEntries_ofStrings cfg.envs
  simp only [loadAppEnviron, hlegacy, hfound, Option.getD_some, hschema, henv]
  rfl

theorem loadAppEnviron_clash (ho : other ∈ saved) (he : name = other.name ++ ".yaml") :
    loadAppEnviron environ envPath (some (.directory (directoryOf (saved.map sidecar)))) name ≠
      .ok envs := by
  have hlegacy := (legacy_iff name).2 ⟨other, ho, he⟩
  simp [loadAppEnviron, hlegacy]

theorem loadEnvirons_ok {env : Option (Node Yaml)} {envOf : ProgCfg → List String}
    (cfgs : List ProgCfg)
    (h : ∀ cfg ∈ cfgs, loadAppEnviron environ envPath env cfg.name = .ok (envOf cfg)) :
    loadEnvirons environ envPath env cfgs = .ok
      (cfgs.map fun cfg => { cfg with envs := envOf cfg }) := by
  induction cfgs with
  | nil => rfl
  | cons cfg cfgs ih =>
    rw [loadEnvirons, h cfg List.mem_cons_self, ih fun c hc => h c (List.mem_cons_of_mem _ hc)]
    rfl

theorem loadEnvirons_inv {env : Option (Node Yaml)} (cfgs : List ProgCfg)
    (h : loadEnvirons environ envPath env cfgs = .ok result) :
    ∀ cfg ∈ cfgs, ∃ envs, loadAppEnviron environ envPath env cfg.name = .ok envs := by
  induction cfgs generalizing result with
  | nil => simp
  | cons cfg cfgs ih =>
    rw [loadEnvirons] at h
    cases hc : loadAppEnviron environ envPath env cfg.name with
    | error error =>
      rw [hc] at h
      cases h
    | ok envs =>
      rw [hc] at h
      cases hr : loadEnvirons environ envPath env cfgs with
      | error error =>
        rw [hr] at h
        cases h
      | ok rest => exact List.forall_mem_cons.2 ⟨⟨envs, hc⟩, ih hr⟩

structure Loadable (textSize : Yaml → Nat) (saved : List ProgCfg) : Prop where
  acceptable : ∀ cfg ∈ saved, Acceptable cfg
  apart : ¬SidecarClash saved
  count : saved.length ≤ maxProgramCount
  size : textSize (rootNode saved) ≤ maxProgramConfigBytes

theorem names_nodup
    (hv : validateAndOrderProgCfgs (saved.map ProgCfg.dependencyNode) = none) :
    (saved.map ProgCfg.name).Nodup := by
  obtain ⟨graph, hgraph⟩ := validate_build hv
  have hnames := DependencyGraph.build_names hgraph
  rw [List.map_map] at hnames
  exact hnames ▸ graph.names_nodup

theorem withoutEnvs_nodes (saved : List ProgCfg) :
    (saved.map withoutEnvs).map ProgCfg.dependencyNode = saved.map ProgCfg.dependencyNode := by
  rw [List.map_map]
  rfl

def savedEnvs (saved : List ProgCfg) (cfg : ProgCfg) : List String :=
  ((Keyed.find ProgCfg.name cfg.name saved).map ProgCfg.envs).getD []

theorem savedEnvs_withoutEnvs (hn : (saved.map ProgCfg.name).Nodup) (hc : cfg ∈ saved) :
    savedEnvs saved (withoutEnvs cfg) = cfg.envs := by
  have hfind : Keyed.find ProgCfg.name (withoutEnvs cfg).name saved = some cfg :=
    Keyed.find_of_mem hn hc
  rw [savedEnvs, hfind]
  rfl

theorem Loadable.load (h : Loadable textSize saved)
    (hv : validateAndOrderProgCfgs (saved.map ProgCfg.dependencyNode) = none) (cfgPath : String) :
    ∃ result, loadProgCfgYaml textSize environ cfgPath envPath (newPair saved) = .ok result ∧
      result.Perm saved := by
  have hn := names_nodup hv
  have hparse : parseProgCfgYamlDocument (rootNode saved) = .ok (saved.map withoutEnvs) :=
    (parseEntries_serialize 0 saved).2 ⟨h.acceptable, rfl⟩
  rw [← withoutEnvs_nodes] at hv
  obtain ⟨ordered, horder, hperm⟩ := orderProgCfgs_perm hv
  have hload : ∀ cfg ∈ ordered, loadAppEnviron environ envPath
      (some (.directory (directoryOf (saved.map sidecar)))) cfg.name = .ok
        (savedEnvs saved cfg) := by
    intro cfg hcfg
    obtain ⟨original, horiginal, rfl⟩ := List.mem_map.1 (hperm.mem_iff.1 hcfg)
    rw [savedEnvs_withoutEnvs hn horiginal]
    exact loadAppEnviron_sidecar environ envPath hn horiginal fun other hother he =>
      h.apart ⟨original, horiginal, other, hother, he⟩
  have hcount : ¬(saved.map withoutEnvs).length > maxProgramCount := by
    rw [List.length_map]
    exact Nat.not_lt.2 h.count
  refine ⟨ordered.map fun cfg => { cfg with envs := savedEnvs saved cfg }, ?_, ?_⟩
  · simp only [loadProgCfgYaml, newPair, if_neg (Nat.not_lt.2 h.size), hparse,
      if_neg hcount, horder]
    exact loadEnvirons_ok environ envPath ordered hload
  · have hback : (saved.map withoutEnvs).map
        (fun cfg => { cfg with envs := savedEnvs saved cfg }) = saved := by
      rw [List.map_map]
      conv_rhs => rw [← List.map_id saved]
      apply List.map_congr_left
      intro cfg hcfg
      rw [Function.comp_apply, savedEnvs_withoutEnvs hn hcfg]
      rfl
    have hrestored := hperm.map fun cfg => { cfg with envs := savedEnvs saved cfg }
    rwa [hback] at hrestored

theorem loadable_of_load
    (hv : validateAndOrderProgCfgs (saved.map ProgCfg.dependencyNode) = none)
    (h : loadProgCfgYaml textSize environ cfgPath envPath (newPair saved) = .ok result) :
    Loadable textSize saved := by
  simp only [loadProgCfgYaml, newPair] at h
  split_ifs at h with hsize
  cases hparse : parseProgCfgYamlDocument (rootNode saved) with
  | error error =>
    rw [hparse] at h
    cases h
  | ok programs =>
    obtain ⟨hacc, rfl⟩ := (parseEntries_serialize 0 saved).1 hparse
    rw [hparse] at h
    dsimp only at h
    split_ifs at h with hcount
    rw [← withoutEnvs_nodes] at hv
    obtain ⟨ordered, horder, hperm⟩ := orderProgCfgs_perm hv
    rw [horder] at h
    have hinv := loadEnvirons_inv environ envPath ordered h
    refine ⟨hacc, ?_, ?_, Nat.not_lt.1 hsize⟩
    · rintro ⟨cfg, hcfg, other, hother, he⟩
      obtain ⟨envs, henvs⟩ := hinv (withoutEnvs cfg)
        (hperm.mem_iff.2 (List.mem_map_of_mem hcfg))
      exact loadAppEnviron_clash environ envPath hother he henvs
    · rw [List.length_map] at hcount
      exact Nat.not_lt.1 hcount

end

theorem Loaded.admitted (h : Loaded p) : Admitted p := by
  obtain ⟨node, cfg, envs, hparse, -, -, rfl⟩ := h
  obtain ⟨henv, hrestart, hlogging⟩ := parse_acceptable hparse
  exact ⟨henv, hrestart.delay.1, hrestart.maxDelay.1, hrestart.window.1, hrestart.attempts.1,
    hrestart.resetAfter.1, hrestart.ordered, hlogging.pty⟩

theorem Created.admitted (h : Created p) : Admitted p := by
  obtain ⟨cfg, runAs, envs, hvalid, rfl⟩ := h
  have hshared := (validateStartConfig_eq_ok.1 hvalid).1
  exact ⟨hshared.envVars, hshared.delay, hshared.maxDelay, hshared.window, hshared.attempts,
    hshared.resetAfter, hshared.ordered, hshared.pty⟩

theorem Registered.admitted (h : Registered progs) : ∀ p ∈ progs, Admitted p := by
  induction h with
  | boot => simp
  | load _ hp _ ih =>
    intro p hmem
    rcases hp p hmem with h | h
    · exact ih p h
    · exact h.admitted
  | create _ hp _ ih =>
    intro p hmem
    rcases List.mem_append.1 hmem with h | h
    · exact ih p h
    · cases List.mem_singleton.1 h
      exact hp.admitted

theorem Registered.valid (h : Registered progs) :
    validateAndOrderProgCfgs (progs.map ProgCfg.dependencyNode) = none := by
  cases h with
  | boot => decide
  | load _ _ hv => exact hv
  | create _ _ hv => exact hv

/-- The log settings are those of a definition that says nothing about logs. -/
def DefaultLogging (p : ProgCfg) : Prop :=
  p.logMode = .split ∧ p.logDir = "" ∧ p.logFileName = "" ∧ p.logMaxSizeKb = 4096 ∧
    p.logArchiveCount = 3

theorem beginSaveCfg_eq : beginSaveCfg p = p ↔ DefaultLogging p := by
  obtain ⟨⟩ := p
  simp only [beginSaveCfg, DefaultLogging, ProgCfg.mk.injEq, true_and, and_true]
  tauto

theorem beginSaveCfg_nodes (progs : List ProgCfg) :
    (progs.map beginSaveCfg).map ProgCfg.dependencyNode = progs.map ProgCfg.dependencyNode := by
  rw [List.map_map]
  rfl

/-- Copies that keep the names are a permutation only when each is its original. -/
theorem map_eq_of_perm {progs : List ProgCfg} {f : ProgCfg → ProgCfg}
    (hf : ∀ p, (f p).name = p.name)
    (hn : (progs.map ProgCfg.name).Nodup) (h : (progs.map f).Perm progs) :
    ∀ p ∈ progs, f p = p := by
  intro p hp
  obtain ⟨q, hq, hfq⟩ := List.mem_map.1 (h.mem_iff.2 hp)
  have hname : q.name = p.name := by rw [← hf q, hfq]
  have hqp : q = p := List.inj_on_of_nodup_map hn hq hp hname
  rw [hqp] at hfq
  exact hfq

section

variable (paths : SavePaths) (textSize : Yaml → Nat) (environ : List String) {disk : Disk Yaml}

theorem load_run (hext : (splitext paths.cfgPath).2 = ".yaml" ∨ (splitext paths.cfgPath).2 = ".yml")
    (hj : disk.nodes (journalPath paths.cfgPath) = none) :
    ((loadProgCfg textSize environ paths.cfgPath paths.envPath).run disk).2 =
      loadProgCfgYaml textSize environ paths.cfgPath paths.envPath
        (pair (view paths.path disk)) := by
  have hyaml : ¬((splitext paths.cfgPath).2 ≠ ".yaml" ∧ (splitext paths.cfgPath).2 ≠ ".yml") := by
    rcases hext with h | h <;> simp [h]
  rw [loadProgCfg, if_neg hyaml, Program.run_bind, (recover_idle paths hj).1]
  rfl

/-- Save the programs and load them again. -/
def saveAndLoad (progs : List ProgCfg) (disk : Disk Yaml) : Except String (List ProgCfg) :=
  let saved := (saveProgCfg (progs.map beginSaveCfg) paths.cfgPath paths.envPath paths.pid
    paths.time).run disk
  ((loadProgCfg textSize environ paths.cfgPath paths.envPath).run saved.1).2

theorem saveAndLoad_eq
    (hext : (splitext paths.cfgPath).2 = ".yaml" ∨ (splitext paths.cfgPath).2 = ".yml")
    (hk : Kinds (view paths.path disk)) (hj : disk.nodes (journalPath paths.cfgPath) = none)
    (hf : ∀ n, disk.faults n = false) (progs : List ProgCfg) :
    saveAndLoad paths textSize environ progs disk =
      loadProgCfgYaml textSize environ paths.cfgPath paths.envPath
        (newPair (progs.map beginSaveCfg)) := by
  obtain ⟨-, -, hjournal, hpair⟩ := save_returns paths (progs.map beginSaveCfg) hk hj hf
  rw [saveAndLoad, load_run paths textSize environ hext hjournal, hpair]

end

theorem perm_beginSave (h : Registered progs)
    (hload : loadProgCfgYaml textSize environ cfgPath envPath (newPair (progs.map beginSaveCfg)) =
      .ok result) :
    Loadable textSize (progs.map beginSaveCfg) ∧ result.Perm (progs.map beginSaveCfg) := by
  have hv := h.valid
  rw [← beginSaveCfg_nodes] at hv
  have hloadable := loadable_of_load environ envPath hv hload
  obtain ⟨result', hload', hperm⟩ := hloadable.load environ envPath hv cfgPath
  cases hload.symm.trans hload'
  exact ⟨hloadable, hperm⟩

theorem Admitted.acceptable (h : Admitted p) (hlog : DefaultLogging p)
    (hr : RestartWithinLimits p) : Acceptable p := by
  obtain ⟨hdelay, hmax, hwindow, hattempts, hreset⟩ := hr
  obtain ⟨-, -, -, hsize, harchive⟩ := hlog
  refine ⟨h.envVars, ⟨⟨h.delay, hdelay⟩, ⟨h.maxDelay, hmax⟩, ⟨h.window, hwindow⟩,
    ⟨h.attempts, hattempts⟩, ⟨h.resetAfter, hreset⟩, h.ordered⟩, h.pty, ?_, ?_⟩
  · rw [hsize]
    decide
  · rw [harchive]
    decide

/-- Registered programs survive a save and a load exactly when they have nothing to say about logs,
keep to the limits of the configuration file, and do not take each other's files. -/
theorem save_load_iff (paths : SavePaths) (textSize : Yaml → Nat) (environ : List String)
    (disk : Disk Yaml) (progs : List ProgCfg)
    (hext : (splitext paths.cfgPath).2 = ".yaml" ∨ (splitext paths.cfgPath).2 = ".yml")
    (hk : Kinds (view paths.path disk)) (hj : disk.nodes (journalPath paths.cfgPath) = none)
    (hf : ∀ n, disk.faults n = false) (h : Registered progs) :
    (∃ loaded, saveAndLoad paths textSize environ progs disk = .ok loaded ∧ loaded.Perm progs) ↔
      (∀ p ∈ progs, DefaultLogging p) ∧ (∀ p ∈ progs, RestartWithinLimits p) ∧
        ¬SidecarClash progs ∧ progs.length ≤ maxProgramCount ∧
        textSize (rootNode progs) ≤ maxProgramConfigBytes := by
  rw [saveAndLoad_eq paths textSize environ hext hk hj hf]
  constructor
  · rintro ⟨loaded, hload, hperm⟩
    obtain ⟨hloadable, hsaved⟩ := perm_beginSave h hload
    have hsame : ∀ p ∈ progs, beginSaveCfg p = p :=
      map_eq_of_perm (fun _ => rfl) (names_nodup h.valid) (hsaved.symm.trans hperm)
    have hprogs : progs.map beginSaveCfg = progs :=
      (List.map_congr_left hsame).trans (List.map_id progs)
    rw [hprogs] at hloadable
    refine ⟨fun p hp => beginSaveCfg_eq.1 (hsame p hp), fun p hp => ?_, hloadable.apart,
      hloadable.count, hloadable.size⟩
    have hr := (hloadable.acceptable p hp).restart
    exact ⟨hr.delay.2, hr.maxDelay.2, hr.window.2, hr.attempts.2, hr.resetAfter.2⟩
  · rintro ⟨hlog, hrestart, hapart, hcount, hsize⟩
    have hprogs : progs.map beginSaveCfg = progs :=
      (List.map_congr_left fun p hp => beginSaveCfg_eq.2 (hlog p hp)).trans (List.map_id progs)
    have hloadable : Loadable textSize progs :=
      ⟨fun p hp => (h.admitted p hp).acceptable (hlog p hp) (hrestart p hp), hapart, hcount, hsize⟩
    rw [hprogs]
    exact hloadable.load environ paths.envPath h.valid paths.cfgPath

theorem registered_singleton (h : Acceptable p) (hc : p.cwd ≠ "") (he : p.executable ≠ "")
    (hv : validateAndOrderProgCfgs [p.dependencyNode] = none) : Registered [p] := by
  refine .load .boot (fun q hq => .inr ?_) hv
  cases List.mem_singleton.1 hq
  exact ⟨_, _, p.envs, parse_serialize.2 ⟨h, rfl⟩, hc, he, rfl⟩

theorem save_load_iff_web :
    let web : ProgCfg := { name := "web", cwd := "/", executable := "/bin/web", envs := ["A=1"] }
    let disk : Disk Yaml := { nodes := fun _ => none, faults := fun _ => false }
    ∃ loaded, saveAndLoad (defaultPaths 412 1700000000) (fun _ => 448) ["PATH=/bin"] [web] disk =
      .ok loaded ∧ loaded.Perm [web] := by
  intro web disk
  have hacc : Acceptable web :=
    ⟨by decide, ⟨by decide, by decide, by decide, by decide, by decide, by decide⟩,
      by decide, by decide, by decide⟩
  have hreg : Registered [web] :=
    registered_singleton hacc (by decide) (by decide) (by decide)
  apply (save_load_iff (defaultPaths 412 1700000000) _ _ disk [web] (.inl (by decide)) _ rfl
    (fun _ => rfl) hreg).2
  · refine ⟨?_, ?_, ?_, by decide, by decide⟩
    · intro p hp
      cases List.mem_singleton.1 hp
      exact ⟨rfl, rfl, rfl, rfl, rfl⟩
    · intro p hp
      cases List.mem_singleton.1 hp
      exact ⟨by decide, by decide, by decide, by decide, by decide⟩
    · rintro ⟨p, hp, q, hq, hname⟩
      cases List.mem_singleton.1 hp
      cases List.mem_singleton.1 hq
      exact absurd hname (by decide)
  · intro i node h
    cases h

/-- A log directory of its own is lost. -/
theorem log_dir_lost :
    let web : ProgCfg :=
      { name := "web", cwd := "/", executable := "/bin/web", logDir := "/var/log" }
    let disk : Disk Yaml := { nodes := fun _ => none, faults := fun _ => false }
    Registered [web] ∧
      ¬∃ loaded, saveAndLoad (defaultPaths 412 1700000000) (fun _ => 448) ["PATH=/bin"] [web] disk =
        .ok loaded ∧ loaded.Perm [web] := by
  intro web disk
  have hacc : Acceptable web :=
    ⟨by decide, ⟨by decide, by decide, by decide, by decide, by decide, by decide⟩,
      by decide, by decide, by decide⟩
  have hreg : Registered [web] :=
    registered_singleton hacc (by decide) (by decide) (by decide)
  refine ⟨hreg, ?_⟩
  rintro ⟨loaded, hload, hperm⟩
  have hk : Kinds (view (defaultPaths 412 1700000000).path disk) := by
    intro i node h
    cases h
  rw [saveAndLoad_eq _ _ _ (.inl (by decide)) hk rfl fun _ => rfl] at hload
  obtain ⟨-, hsaved⟩ := perm_beginSave hreg hload
  have hsame := List.perm_singleton.1 (hsaved.symm.trans hperm)
  have hdir := congrArg (List.map ProgCfg.logDir) hsame
  exact absurd hdir (by decide)

end PmTiny.Persist
