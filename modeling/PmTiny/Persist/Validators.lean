import PmTiny.Persist.LoadProgCfg

namespace PmTiny.Persist
set_option autoImplicit true

structure Admitted (p : ProgCfg) : Prop where
  envVars : ∀ entry ∈ p.envVars, reservedKey (envKey entry) = false
  delay : 0 ≤ p.restartDelayMs
  maxDelay : 0 ≤ p.restartMaxDelayMs
  window : 1 ≤ p.restartWindowMs
  attempts : 0 ≤ p.restartMaxAttempts
  resetAfter : 0 ≤ p.restartResetAfterMs
  ordered : ¬p.restartMaxDelayMs < p.restartDelayMs
  pty : ¬(p.pty = true ∧ p.logMode = .split)

/-- The rules that the check of a request and the reader of the file have in common. -/
structure SharedRules (cfg : ProgCfg) : Prop extends Admitted cfg where
  logMaxSize : 1 ≤ cfg.logMaxSizeKb ∧ cfg.logMaxSizeKb ≤ 1048576
  logArchive : 0 ≤ cfg.logArchiveCount ∧ cfg.logArchiveCount ≤ 100

def NamedVariable (entry : String) : Prop :=
  entry ≠ "" ∧ entry.toList.head? ≠ some '=' ∧ '=' ∈ entry.toList

/-- The rules that only the check of a request has. -/
structure RequestRules (cfg : ProgCfg) : Prop where
  name : cfg.name ≠ ""
  cwd : cfg.cwd ≠ ""
  executable : cfg.executable ≠ ""
  killTimeout : 1 ≤ cfg.killTimeoutS
  oomScoreAdj : -1000 ≤ cfg.oomScoreAdj ∧ cfg.oomScoreAdj ≤ 1000
  envVars : ∀ entry ∈ cfg.envVars, NamedVariable entry

/-- The restart policy keeps to the limits of the configuration file. -/
def RestartWithinLimits (p : ProgCfg) : Prop :=
  p.restartDelayMs ≤ restartDurationMaxMs ∧ p.restartMaxDelayMs ≤ restartDurationMaxMs ∧
    p.restartWindowMs ≤ restartDurationMaxMs ∧ p.restartMaxAttempts ≤ restartAttemptsMax ∧
    p.restartResetAfterMs ≤ restartDurationMaxMs

/-- No reserved text has an `=`, so it makes no difference to look at the key alone. -/
theorem reservedKey_eq (entry : String) :
    reservedKey (envKey entry) = "PM_TINY_".toList.isPrefixOf entry.toList := by
  have hkey : (envKey entry).toList = entry.toList.takeWhile (· ≠ '=') := String.toList_ofList
  have hplain : ∀ c ∈ "PM_TINY_".toList, decide (c ≠ '=') = true := by simp
  rw [reservedKey, hkey, Bool.eq_iff_iff, List.isPrefixOf_iff_prefix, List.isPrefixOf_iff_prefix]
  constructor
  · intro h
    exact h.trans (List.takeWhile_prefix _)
  · rintro ⟨rest, hrest⟩
    rw [← hrest, List.takeWhile_append_of_pos hplain]
    exact List.prefix_append _ _

theorem namedVariable_iff : NamedVariable entry ↔
    ¬(entry = "" ∨ entry.toList.head? = some '=' ∨ '=' ∉ entry.toList) := by
  rw [NamedVariable]
  tauto

theorem envVarError_eq_none :
    envVarError entry = none ↔ NamedVariable entry ∧ reservedKey (envKey entry) = false := by
  rw [envVarError, reservedKey_eq, namedVariable_iff, ← Bool.not_eq_true]
  split_ifs with hshape hreserved
  · exact iff_of_false (by simp) fun h => h.1 hshape
  · exact iff_of_false (by simp) fun h => h.2 hreserved
  · exact iff_of_true rfl ⟨hshape, hreserved⟩

theorem validateStartConfig_eq_ok :
    validateStartConfig cfg = .ok () ↔ SharedRules cfg ∧ RequestRules cfg := by
  simp only [validateStartConfig, bind_eq_ok, rejectIf_eq_ok, rejectAny_eq_ok, not_or,
    List.findSome?_eq_none_iff, envVarError_eq_none, Int32.not_lt]
  constructor
  · rintro ⟨-, ⟨hname, hcwd, hexecutable⟩, -, hkill, -, hoom, -,
      ⟨hdelay, hordered, hwindow, hattempts, hreset⟩, -, ⟨hsize, hsize', harchive⟩, -, hpty, henv⟩
    refine ⟨⟨⟨fun entry he => (henv entry he).2, hdelay, Int32.le_trans hdelay hordered, hwindow,
      hattempts, hreset, Int32.not_lt.2 hordered, hpty⟩, ⟨hsize, hsize'⟩, harchive⟩,
      hname, hcwd, hexecutable, hkill, hoom, fun entry he => (henv entry he).1⟩
  · rintro ⟨⟨h, hsize, harchive⟩, hname, hcwd, hexecutable, hkill, hoom, henv⟩
    exact ⟨(), ⟨hname, hcwd, hexecutable⟩, (), hkill, (), hoom, (),
      ⟨h.delay, Int32.not_lt.1 h.ordered, h.window, h.attempts, h.resetAfter⟩, (),
      ⟨hsize.1, hsize.2, harchive⟩, (), h.pty, fun entry he => ⟨henv entry he, h.envVars entry he⟩⟩

theorem acceptable_iff : Acceptable cfg ↔ SharedRules cfg ∧ RestartWithinLimits cfg := by
  constructor
  · rintro ⟨henv, hrestart, hlogging⟩
    exact ⟨⟨⟨henv, hrestart.delay.1, hrestart.maxDelay.1, hrestart.window.1, hrestart.attempts.1,
      hrestart.resetAfter.1, hrestart.ordered, hlogging.pty⟩, hlogging.logMaxSize,
      hlogging.logArchive⟩, hrestart.delay.2, hrestart.maxDelay.2, hrestart.window.2,
      hrestart.attempts.2, hrestart.resetAfter.2⟩
  · rintro ⟨⟨h, hsize, harchive⟩, hdelay, hmaxDelay, hwindow, hattempts, hreset⟩
    exact ⟨h.envVars, ⟨⟨h.delay, hdelay⟩, ⟨h.maxDelay, hmaxDelay⟩, ⟨h.window, hwindow⟩,
      ⟨h.attempts, hattempts⟩, ⟨h.resetAfter, hreset⟩, h.ordered⟩, ⟨h.pty, hsize, harchive⟩⟩

theorem parse_serialize_isOk :
    (∃ parsed, parseProgCfgYamlNode (serializeProgCfgYamlNode cfg) = .ok parsed) ↔
      SharedRules cfg ∧ RestartWithinLimits cfg := by
  rw [← acceptable_iff]
  constructor
  · rintro ⟨parsed, h⟩
    exact (parse_serialize.1 h).1
  · intro h
    exact ⟨_, parse_serialize.2 ⟨h, rfl⟩⟩

/-- The check of a request and the reader of the file agree on a definition exactly when it breaks
a rule that they share or when the rules of each that the other lacks come to the same. -/
theorem validators_agree_iff (cfg : ProgCfg) :
    (validateStartConfig cfg = .ok () ↔
      ∃ parsed, parseProgCfgYamlNode (serializeProgCfgYamlNode cfg) = .ok parsed) ↔
      ¬SharedRules cfg ∨ (RequestRules cfg ↔ RestartWithinLimits cfg) := by
  rw [validateStartConfig_eq_ok, parse_serialize_isOk]
  by_cases hshared : SharedRules cfg
  · simp [hshared]
  · simp [hshared]

/-- A longest delay of more than a day, which a client may send and the file may not have. -/
def longDelay : ProgCfg where
  name := "web"
  cwd := "/srv"
  executable := "/srv/web"
  restartMaxDelayMs := 86400001

theorem validators_differ : ¬∀ cfg, validateStartConfig cfg = .ok () ↔
    ∃ parsed, parseProgCfgYamlNode (serializeProgCfgYamlNode cfg) = .ok parsed := by
  intro h
  have hvalid : validateStartConfig longDelay = .ok () := by decide +kernel
  obtain ⟨-, hlimits⟩ := parse_serialize_isOk.1 ((h longDelay).1 hvalid)
  exact absurd hlimits.2.1 (by decide)

def withoutEnvs (cfg : ProgCfg) : ProgCfg := { cfg with envs := [] }

theorem parseEntries_serialize (index : Nat) (cfgs : List ProgCfg) :
    parseEntries index (cfgs.map serializeProgCfgYamlNode) = .ok result ↔
      (∀ cfg ∈ cfgs, Acceptable cfg) ∧ result = cfgs.map withoutEnvs := by
  induction cfgs generalizing index result with
  | nil => simp [parseEntries, eq_comm]
  | cons cfg cfgs ih =>
    rw [List.map_cons, parseEntries]
    cases hp : parseProgCfgYamlNode (serializeProgCfgYamlNode cfg) with
    | error error =>
      simp only [reduceCtorEq, false_iff, not_and]
      intro h
      have hok := (parse_serialize (c := withoutEnvs cfg)).2 ⟨h cfg List.mem_cons_self, rfl⟩
      rw [hp] at hok
      cases hok
    | ok c =>
      obtain ⟨hacc, rfl⟩ := parse_serialize.1 hp
      cases hr : parseEntries (index + 1) (cfgs.map serializeProgCfgYamlNode) with
      | error error =>
        simp only [Except.map, reduceCtorEq, false_iff, not_and]
        intro h
        have hok := (ih (index + 1)).2 ⟨fun cfg hc => h cfg (List.mem_cons_of_mem _ hc), rfl⟩
        rw [hr] at hok
        cases hok
      | ok rest =>
        obtain ⟨hrest, rfl⟩ := (ih (index + 1)).1 hr
        simp only [Except.map, Except.ok.injEq, List.forall_mem_cons]
        constructor
        · rintro rfl
          exact ⟨⟨hacc, hrest⟩, rfl⟩
        · rintro ⟨-, rfl⟩
          rfl

theorem parseEntries_mem (h : parseEntries index nodes = .ok programs) :
    ∀ cfg ∈ programs, ∃ node, parseProgCfgYamlNode node = .ok cfg := by
  induction nodes generalizing index programs with
  | nil =>
    cases h
    simp
  | cons node nodes ih =>
    rw [parseEntries] at h
    cases hp : parseProgCfgYamlNode node with
    | error error => simp [hp] at h
    | ok cfg =>
      rw [hp] at h
      cases hr : parseEntries (index + 1) nodes with
      | error error => simp [hr, Except.map] at h
      | ok rest =>
        rw [hr] at h
        cases h
        exact List.forall_mem_cons.2 ⟨⟨node, hp⟩, ih hr⟩

/-- What was read from a document is written so that it is read again unchanged. -/
theorem document_round_trip (h : parseProgCfgYamlDocument document = .ok programs) :
    parseProgCfgYamlDocument (.sequence (programs.map serializeProgCfgYamlNode)) =
      .ok programs := by
  cases document with
  | null => cases h
  | scalar text => cases h
  | mapping entries => cases h
  | sequence nodes =>
    have hread := parseEntries_mem h
    apply (parseEntries_serialize 0 programs).2
    constructor
    · intro cfg hcfg
      obtain ⟨node, hnode⟩ := hread cfg hcfg
      exact parse_acceptable hnode
    · have hsame : ∀ cfg ∈ programs, withoutEnvs cfg = cfg := by
        intro cfg hcfg
        obtain ⟨node, hnode⟩ := hread cfg hcfg
        rw [withoutEnvs, ← parse_envs hnode]
      rw [List.map_congr_left hsame, List.map_id']

/-- One definition with other names for its members, and the rest left to the defaults. -/
def aliasDocument : Yaml :=
  .sequence [.mapping [("name", .scalar "web"), ("cwd", .scalar "/srv"),
    ("executable", .scalar "web"), ("args", .scalar "-v"), ("kill_timeout", .scalar "0x10"),
    ("run_as", .scalar "www"), ("pty", .scalar "Yes")]]

/-- What the reader makes of it. -/
def aliasPrograms : List ProgCfg :=
  [{ name := "web", cwd := "/srv", executable := "web", args := ["-v"], killTimeoutS := 16
     runAs := "www", pty := true, logMode := .combined }]

theorem document_round_trip_alias :
    parseProgCfgYamlDocument aliasDocument = .ok aliasPrograms ∧
      parseProgCfgYamlDocument (.sequence (aliasPrograms.map serializeProgCfgYamlNode)) =
        .ok aliasPrograms := by
  have hread : parseProgCfgYamlDocument aliasDocument = .ok aliasPrograms := by rfl
  exact ⟨hread, document_round_trip hread⟩

end PmTiny.Persist
