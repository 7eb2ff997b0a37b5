import PmTiny.Persist.CrashSafety
import PmTiny.Persist.YamlRoundTrip

namespace PmTiny.Persist
set_option autoImplicit true
open Crash FileSystem

def maxProgramConfigBytes : Nat := 4 * 1024 * 1024

def maxProgramCount : Nat := 4096

def splitext (file : String) : String × String :=
  match file.toList.reverse.span (· ≠ '.') with
  | (_, []) => (file, "")
  | (ext, _ :: name) =>
    if name.all (· = '.') then (file, "")
    else (String.ofList name.reverse, String.ofList ('.' :: ext.reverse))

def parseEntries : Nat → List Yaml → Except String (List ProgCfg)
  | _, [] => .ok []
  | index, node :: nodes =>
    match parseProgCfgYamlNode node with
    | .error error => .error ("Config entry " ++ index.repr ++ " invalid: " ++ error)
    | .ok cfg => (parseEntries (index + 1) nodes).map (cfg :: ·)

def parseProgCfgYamlDocument : Yaml → Except String (List ProgCfg)
  | .sequence items => parseEntries 0 items
  | _ => .error "Config must contain a top-level sequence"

def ProgCfg.dependencyNode (cfg : ProgCfg) : DependencyNodeConfig := ⟨cfg.name, cfg.dependsOn⟩

def orderProgCfgs (programs : List ProgCfg) : Except String (List ProgCfg) :=
  match validateAndOrderProgCfgs (programs.map ProgCfg.dependencyNode) with
  | some error => .error error
  | none =>
    match DependencyGraph.build (programs.map ProgCfg.dependencyNode) with
    | .error error => .error error.message
    | .ok graph => .ok (graph.topologicalOrder.filterMap fun id => programs[id]?)

def environEntries : Option Yaml → Option (List String)
  | some (.sequence items) => items.mapM Yaml.asString
  | _ => none

/-- The environment that was saved for a program, or the daemon's own. -/
def loadAppEnviron (environ : List String) (envPath : String) (env : Option (Node Yaml))
    (name : String) : Except String (List String) :=
  let entries := match env with
    | some (.directory entries) => entries
    | _ => []
  let legacyPath := envPath ++ "/" ++ name
  if entries.any (·.1 = name) then
    .error ("Legacy environment sidecar `" ++ legacyPath ++
      "` is unsupported; migrate it to the 3.1 YAML sidecar format")
  else match entries.lookup (name ++ ".yaml") with
    | none => .ok environ
    | some content =>
      let root := content.getD (.mapping [])
      match (root.get? "schema").bind Yaml.asInt, environEntries (root.get? "environment") with
      | some 1, some envs => .ok envs
      | _, _ => .error ("Invalid environment sidecar: " ++ legacyPath ++ ".yaml")

def loadEnvirons (environ : List String) (envPath : String) (env : Option (Node Yaml)) :
    List ProgCfg → Except String (List ProgCfg)
  | [] => .ok []
  | cfg :: cfgs =>
    match loadAppEnviron environ envPath env cfg.name with
    | .error error => .error error
    | .ok envs => (loadEnvirons environ envPath env cfgs).map ({ cfg with envs } :: ·)

def loadProgCfgYaml (textSize : Yaml → Nat) (environ : List String) (cfgPath envPath : String)
    (files : Option (Node Yaml) × Option (Node Yaml)) : Except String (List ProgCfg) :=
  match files.1 with
  | none | some (.file none) => .ok []
  | some (.directory _) => .error ("Failed to read cfg " ++ cfgPath)
  | some (.file (some document)) =>
    if textSize document > maxProgramConfigBytes then
      .error ("cfg file " ++ cfgPath ++ " exceeds 4 MiB limit")
    else match parseProgCfgYamlDocument document with
      | .error error => .error ("cfg file " ++ cfgPath ++ " invalid: " ++ error)
      | .ok programs =>
        if programs.length > maxProgramCount then
          .error ("cfg file " ++ cfgPath ++ " contains more than 4096 programs")
        else match orderProgCfgs programs with
          | .error error => .error error
          | .ok programs => loadEnvirons environ envPath files.2 programs

/-- The files are read only once an interrupted save has been dealt with. -/
def loadProgCfg (textSize : Yaml → Nat) (environ : List String) (cfgPath envPath : String) :
    DiskProgram (Except String (List ProgCfg)) := do
  let ext := (splitext cfgPath).2
  if ext ≠ ".yaml" ∧ ext ≠ ".yml" then return .error ("3.0 config must be YAML: " ++ cfgPath)
  else match ← recoverProgCfgSave cfgPath envPath with
    | .error error => return .error error
    | .ok () => .call fun disk =>
      (disk, loadProgCfgYaml textSize environ cfgPath envPath
        (disk.nodes cfgPath, disk.nodes envPath))

/-- The copy that `begin_save_proc_to_cfg` makes of a program. -/
def beginSaveCfg (p : ProgCfg) : ProgCfg where
  executable := p.executable
  args := p.args
  cwd := p.cwd
  name := p.name
  killTimeoutS := p.killTimeoutS
  runAs := p.runAs
  envs := p.envs
  dependsOn := p.dependsOn
  daemon := p.daemon
  startTimeout := p.startTimeout
  failureAction := p.failureAction
  heartbeatTimeout := p.heartbeatTimeout
  envVars := p.envVars
  oomScoreAdj := p.oomScoreAdj
  pty := p.pty
  restartDelayMs := p.restartDelayMs
  restartMaxDelayMs := p.restartMaxDelayMs
  restartWindowMs := p.restartWindowMs
  restartMaxAttempts := p.restartMaxAttempts
  restartResetAfterMs := p.restartResetAfterMs

/-- What is wrong with an entry of the explicit environment, if anything. -/
def envVarError (env : String) : Option String :=
  if env = "" ∨ env.toList.head? = some '=' ∨ '=' ∉ env.toList then
    some "invalid explicit environment entry"
  else if "PM_TINY_".toList.isPrefixOf env.toList then some "reserved PM_TINY environment override"
  else none

/-- The checks on a definition that a client sends. -/
def validateStartConfig (cfg : ProgCfg) : Except String Unit := do
  rejectIf (cfg.name = "" ∨ cfg.cwd = "" ∨ cfg.executable = "")
    "start definition requires name, cwd and executable"
  rejectIf (cfg.killTimeoutS < 1) "kill timeout must be positive"
  rejectIf (cfg.oomScoreAdj < -1000 ∨ cfg.oomScoreAdj > 1000)
    "oom score adjustment is out of range"
  rejectIf (cfg.restartDelayMs < 0 ∨ cfg.restartMaxDelayMs < cfg.restartDelayMs ∨
    cfg.restartWindowMs < 1 ∨ cfg.restartMaxAttempts < 0 ∨ cfg.restartResetAfterMs < 0)
    "invalid restart policy"
  rejectIf (cfg.logMaxSizeKb < 1 ∨ cfg.logMaxSizeKb > 1048576 ∨
    cfg.logArchiveCount < 0 ∨ cfg.logArchiveCount > 100) "invalid log rotation configuration"
  rejectIf (cfg.pty ∧ cfg.logMode = .split) "PTY requires combined log mode"
  rejectAny (cfg.envVars.findSome? envVarError) fun error => error

/-- A definition from the file, complete and with the environment found for it. -/
def Loaded (p : ProgCfg) : Prop :=
  ∃ node cfg envs, parseProgCfgYamlNode node = .ok cfg ∧ cfg.cwd ≠ "" ∧ cfg.executable ≠ "" ∧
    p = { cfg with envs }

/-- A definition from a client, with the user and the environment settled by the daemon. -/
def Created (p : ProgCfg) : Prop :=
  ∃ cfg runAs envs, validateStartConfig cfg = .ok () ∧ p = { cfg with runAs, envs }

/-- The programs a daemon can have: its own file, loaded once or again, what clients have created,
and less what was deleted, always with an accepted dependency graph. -/
inductive Registered : List ProgCfg → Prop
  | boot : Registered []
  | load (h : Registered progs) (hp : ∀ p ∈ next, p ∈ progs ∨ Loaded p)
      (hv : validateAndOrderProgCfgs (next.map ProgCfg.dependencyNode) = none) : Registered next
  | create (h : Registered progs) (hp : Created p)
      (hv : validateAndOrderProgCfgs ((progs ++ [p]).map ProgCfg.dependencyNode) = none) :
      Registered (progs ++ [p])

end PmTiny.Persist
