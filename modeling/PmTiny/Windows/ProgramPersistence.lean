import PmTiny.Persist.CrashSafety

namespace PmTiny.Windows.Persistence
set_option autoImplicit true
open Crash FileSystem Persist

structure SaveTransaction where
  state : String
  suffix : String
  configPath : String
  configTemp : String
  configBackup : String
  environPath : String
  environStage : String
  environBackup : String
  hadConfig : Bool := false
  hadEnviron : Bool := false
  deriving DecidableEq

/-- A step that returns nothing, or the text of its error. -/
abbrev Fallible := DiskProgram (Except String Unit)

def outcome (ok : Bool) (error : String) : Except String Unit :=
  if ok then .ok () else .error error

def require (p : DiskProgram Bool) (error : String) : Fallible := do return outcome (← p) error

/-- `q` is only begun when `p` has not failed. -/
def followedBy (p q : Fallible) : Fallible := do
  match ← p with
  | .error error => return .error error
  | .ok () => q

def onFailure (p : Fallible) (cleanup : DiskProgram Unit) : Fallible := do
  match ← p with
  | .error error =>
    cleanup
    return .error error
  | .ok () => return .ok ()

/-- The text ends with what `GetLastError` says of the call that failed. -/
def lastError (code : String → Nat) (message : String) : String :=
  message ++ ": " ++ (code message).repr

section

variable (code : String → Nat)

def movePath (source target : String) (replace : Bool) : Fallible :=
  require (move source target replace)
    (lastError code ("Cannot move `" ++ source ++ "` to `" ++ target ++ "`"))

/-- A directory that cannot be opened, or not be flushed for lack of rights, counts as flushed. -/
def flushDirectory : Fallible := require syncParent ""

/-- One file: it is created, written and flushed. -/
def writing (path : String) (create write flush : DiskProgram Bool) : Fallible :=
  followedBy (require create (lastError code ("Cannot create `" ++ path ++ "`"))) <|
  followedBy (require write (lastError code ("Cannot write `" ++ path ++ "`"))) <|
  require flush (lastError code ("Cannot flush `" ++ path ++ "`"))

def writeFile (path : String) (content : Yaml) : Fallible :=
  writing code path (create path) (write path content) (sync path)

def writeFileIn (directory filename : String) (content : Yaml) : Fallible :=
  writing code (directory ++ "\\" ++ filename) (createEntry directory filename)
    (writeEntry directory filename content) (syncEntry directory filename)

def journalNode (t : SaveTransaction) : Yaml := .mapping
  [("schema", .ofInt 1),
    ("state", .scalar t.state),
    ("suffix", .scalar t.suffix),
    ("config_path", .scalar t.configPath),
    ("config_temp", .scalar t.configTemp),
    ("config_backup", .scalar t.configBackup),
    ("environ_path", .scalar t.environPath),
    ("environ_stage", .scalar t.environStage),
    ("environ_backup", .scalar t.environBackup),
    ("had_config", .ofBool t.hadConfig),
    ("had_environ", .ofBool t.hadEnviron)]

def writeJournal (journal : String) (t : SaveTransaction) : Fallible :=
  let temporary := journal ++ ".tmp"
  followedBy (writeFile code temporary (journalNode t)) <|
  followedBy (onFailure (movePath code temporary journal true) (discard (unlink temporary)))
    flushDirectory

/-- The transaction in a journal; `none` is a file that cannot be parsed. -/
def readJournal (content : Option Yaml) : Except String SaveTransaction :=
  match content with
  | none => .error "bad file"
  | some root =>
    if (root.get? "schema").bind Yaml.asInt = some 1 then do
      return {
        state := ← journalMember Yaml.asString root "state"
        suffix := ← journalMember Yaml.asString root "suffix"
        configPath := ← journalMember Yaml.asString root "config_path"
        configTemp := ← journalMember Yaml.asString root "config_temp"
        configBackup := ← journalMember Yaml.asString root "config_backup"
        environPath := ← journalMember Yaml.asString root "environ_path"
        environStage := ← journalMember Yaml.asString root "environ_stage"
        environBackup := ← journalMember Yaml.asString root "environ_backup"
        hadConfig := ← journalMember Yaml.asBool root "had_config"
        hadEnviron := ← journalMember Yaml.asBool root "had_environ" }
    else .error "unsupported save journal schema"

def validTransaction (t : SaveTransaction) (configPath environPath : String) : Bool :=
  t.suffix ≠ "" && ".txn.".toList.isPrefixOf t.suffix.toList &&
    t.configPath = configPath && t.environPath = environPath &&
    t.configTemp = configPath ++ t.suffix &&
    t.configBackup = configPath ++ ".bak" ++ t.suffix &&
    t.environStage = environPath ++ t.suffix &&
    t.environBackup = environPath ++ ".bak" ++ t.suffix &&
    (t.state = "prepared" || t.state = "old_moved" || t.state = "new_installed")

def restoreBackup (backup path : String) (hadOriginal directory : Bool) : Fallible := do
  if ← access backup then
    removeNode path directory
    movePath code backup path false
  else if hadOriginal then require (access path) ""
  else do
    removeNode path directory
    return .ok ()

def closeJournal (journal : String) (t : SaveTransaction) : Fallible := do
  discard (unlink t.configTemp)
  removeFlatDirectory t.environStage
  discard (unlink journal)
  flushDirectory

def recoverTransaction (journal : String) (t : SaveTransaction) : Fallible :=
  if t.state = "new_installed" then do
    if ← andThen (access t.configPath) (access t.environPath) then
      discard (unlink t.configBackup)
      removeFlatDirectory t.environBackup
      closeJournal journal t
    else return .error "Cannot recover committed save transaction: installed files are missing"
  else
    followedBy (restoreBackup code t.configBackup t.configPath t.hadConfig false) <|
    followedBy (restoreBackup code t.environBackup t.environPath t.hadEnviron true) <|
    closeJournal journal t

def recoverProgramConfigSave (programConfigPath appEnvironDir : String) : Fallible := do
  let journal := journalPath programConfigPath
  if ← access journal then
    match readJournal (← read journal) with
    | .error error => return .error ("Cannot recover `" ++ journal ++ "`: " ++ error)
    | .ok t =>
      if validTransaction t programConfigPath appEnvironDir then recoverTransaction code journal t
      else
        let error := "save journal paths or state are invalid"
        return .error ("Cannot recover `" ++ journal ++ "`: " ++ error)
  else return .ok ()

def serializeProgramConfig (config : Persist.ProgCfg) : Yaml :=
  match serializeProgCfgYamlNode config with
  | .mapping members =>
    .mapping (members.filter fun member => member.1 ∉ ["user", "oom_score_adj", "pty"])
  | node => node

/-- The text `[]` stands for no program at all. -/
def configRoot (configs : List Persist.ProgCfg) : Yaml :=
  .sequence (configs.map serializeProgramConfig)

def writeEnvironments (environStage : String) : List (String × Yaml) → Fallible
  | [] => return .ok ()
  | (filename, content) :: rest =>
    followedBy (writeFileIn code environStage filename content)
      (writeEnvironments environStage rest)

def stageNew (t : SaveTransaction) (configs : List Persist.ProgCfg) : Fallible := do
  removeFlatDirectory t.environStage
  removeFlatDirectory t.environBackup
  discard (unlink t.configBackup)
  followedBy (require (mkdir t.environStage)
      (lastError code "Cannot create environment staging directory")) <|
    onFailure
      (followedBy (writeEnvironments code t.environStage (configs.map sidecar))
        (writeFile code t.configTemp (configRoot configs)))
      (removeFlatDirectory t.environStage)

def movePathIf (had : Bool) (source target : String) : Fallible :=
  if had then movePath code source target false else return .ok ()

/-- From the first move on, a step that fails is followed by a rollback. -/
def commitSteps (journal : String) (t : SaveTransaction) : Fallible :=
  followedBy (movePathIf code t.hadConfig t.configPath t.configBackup) <|
  followedBy (movePathIf code t.hadEnviron t.environPath t.environBackup) <|
  followedBy (writeJournal code journal { t with state := "old_moved" }) <|
  followedBy (movePath code t.configTemp t.configPath false) <|
  followedBy (movePath code t.environStage t.environPath false) <|
  writeJournal code journal { t with state := "new_installed" }

def rollback (programConfigPath appEnvironDir error : String) : DiskProgram (Int × String) := do
  match ← recoverProgramConfigSave code programConfigPath appEnvironDir with
  | .ok () => return (-1, error)
  | .error recoveryError =>
    return (-1, (if error = "" then "" else error ++ "; ") ++ recoveryError)

def commitSave (journal : String) (t : SaveTransaction) : DiskProgram (Int × String) := do
  match ← commitSteps code journal t with
  | .error error => rollback code t.configPath t.environPath error
  | .ok () =>
    discard (unlink t.configBackup)
    removeFlatDirectory t.environBackup
    discard (unlink journal)
    discard syncParent
    return (0, "")

/-- The names of one save; `GetCurrentProcessId` and `time` make the suffix. -/
def saveTransaction (configPath environPath : String) (pid time : Int) : SaveTransaction :=
  let suffix := ".txn." ++ pid.repr ++ "." ++ time.repr
  { state := "prepared", suffix
    configPath, configTemp := configPath ++ suffix
    configBackup := configPath ++ ".bak" ++ suffix
    environPath, environStage := environPath ++ suffix
    environBackup := environPath ++ ".bak" ++ suffix }

def saveProgramConfigs (configs : List Persist.ProgCfg) (programConfigPath appEnvironDir : String)
    (pid time : Int) : DiskProgram (Int × String) := do
  match ← recoverProgramConfigSave code programConfigPath appEnvironDir with
  | .error error => return (-1, error)
  | .ok () =>
    let hadConfig ← access programConfigPath
    let hadEnviron ← access appEnvironDir
    let t := { saveTransaction programConfigPath appEnvironDir pid time with hadConfig, hadEnviron }
    match ← stageNew code t configs with
    | .error error => return (-1, error)
    | .ok () =>
      let journal := journalPath programConfigPath
      match ← onFailure (writeJournal code journal t) (do
          discard (unlink t.configTemp)
          removeFlatDirectory t.environStage) with
      | .error error => return (-1, error)
      | .ok () => commitSave code journal t

end

end PmTiny.Windows.Persistence
