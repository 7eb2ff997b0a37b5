import PmTiny.Lib.FileSystem
import PmTiny.Persist.ProgCfg

namespace PmTiny.Persist
set_option autoImplicit true
open Crash FileSystem

/-- Programs over the disk; files hold YAML documents. -/
abbrev DiskProgram (α : Type) := Program (Disk Yaml) α

structure SaveTransaction where
  state : String
  suffix : String
  cfgPath : String
  cfgTemp : String
  cfgBackup : String
  envPath : String
  envStage : String
  envBackup : String
  hadCfg : Bool := false
  hadEnv : Bool := false
  deriving DecidableEq

def saveJournalNode (t : SaveTransaction) : Yaml := .mapping
  [("schema", .ofInt 1),
    ("state", .scalar t.state),
    ("suffix", .scalar t.suffix),
    ("cfg_path", .scalar t.cfgPath),
    ("cfg_temp", .scalar t.cfgTemp),
    ("cfg_backup", .scalar t.cfgBackup),
    ("env_path", .scalar t.envPath),
    ("env_stage", .scalar t.envStage),
    ("env_backup", .scalar t.envBackup),
    ("had_cfg", .ofBool t.hadCfg),
    ("had_env", .ofBool t.hadEnv)]

/-- `p && q`: the second call is made only when the first has succeeded. -/
def andThen (p q : DiskProgram Bool) : DiskProgram Bool := do
  if ← p then q else return false

def writeSaveJournal (journal : String) (t : SaveTransaction) : DiskProgram Bool := do
  let journalTemp := journal ++ ".tmp"
  if ← andThen (create journalTemp) (write journalTemp (saveJournalNode t)) then
    if ← andThen (sync journalTemp) (rename journalTemp journal) then syncParent
    else do
      discard (unlink journalTemp)
      return false
  else return false

def journalMember (as : Yaml → Option α) (node : Yaml) (key : String) : Except String α :=
  match (node.get? key).bind as with
  | none => .error "bad conversion"
  | some value => .ok value

/-- The transaction in a journal; `none` is a file that cannot be parsed. -/
def loadSaveJournal (content : Option Yaml) : Except String SaveTransaction :=
  match content with
  | none => .error "bad file"
  | some root =>
    if (root.get? "schema").bind Yaml.asInt = some 1 then do
      return {
        state := ← journalMember Yaml.asString root "state"
        suffix := ← journalMember Yaml.asString root "suffix"
        cfgPath := ← journalMember Yaml.asString root "cfg_path"
        cfgTemp := ← journalMember Yaml.asString root "cfg_temp"
        cfgBackup := ← journalMember Yaml.asString root "cfg_backup"
        envPath := ← journalMember Yaml.asString root "env_path"
        envStage := ← journalMember Yaml.asString root "env_stage"
        envBackup := ← journalMember Yaml.asString root "env_backup"
        hadCfg := ← journalMember Yaml.asBool root "had_cfg"
        hadEnv := ← journalMember Yaml.asBool root "had_env" }
    else .error "unsupported save journal schema"

def validSaveTransaction (t : SaveTransaction) (cfgPath envPath : String) : Bool :=
  t.suffix ≠ "" && ".txn.".toList.isPrefixOf t.suffix.toList &&
    t.cfgPath = cfgPath && t.envPath = envPath &&
    t.cfgTemp = cfgPath ++ t.suffix &&
    t.cfgBackup = cfgPath ++ ".bak" ++ t.suffix &&
    t.envStage = envPath ++ t.suffix &&
    t.envBackup = envPath ++ ".bak" ++ t.suffix &&
    (t.state = "prepared" || t.state = "old_moved" || t.state = "new_installed")

def unlinkEntries (path : String) : List String → DiskProgram Unit
  | [] => return
  | name :: names => do
    discard (unlinkEntry path name)
    unlinkEntries path names

def removeFlatDirectory (path : String) : DiskProgram Unit := do
  match ← readdir path with
  | none => return
  | some names =>
    unlinkEntries path names
    discard (rmdir path)

def removeNode (path : String) (directory : Bool) : DiskProgram Unit :=
  if directory then removeFlatDirectory path else discard (unlink path)

def restoreBackup (backup path : String) (hadOriginal directory : Bool) : DiskProgram Bool := do
  if ← access backup then
    removeNode path directory
    rename backup path
  else if hadOriginal then access path
  else do
    removeNode path directory
    return true

def parentDirectory (path : String) : String :=
  match path.toList.reverse.dropWhile (· ≠ '/') with
  | [] => "."
  | [_] => "/"
  | _ :: directory => String.ofList directory.reverse

def syncTransactionDirectories (t : SaveTransaction) : DiskProgram Bool := do
  let cfgOk ← syncParent
  if parentDirectory t.envPath = parentDirectory t.cfgPath then return cfgOk
  else return (← syncParent) && cfgOk

def journalPath (cfgPath : String) : String := cfgPath ++ ".save-journal"

def closeSaveJournal (journal : String) (t : SaveTransaction) (ok : Bool) :
    DiskProgram (Except String Unit) := do
  discard (unlink t.cfgTemp)
  removeFlatDirectory t.envStage
  if ← andThen (pure ok) (syncTransactionDirectories t) then
    let removed ← unlink journal
    -- an `unlink` that finds nothing is no failure
    let left ← access journal
    if !removed && left then return .error ("Failed to remove recovered save journal " ++ journal)
    else if ← syncParent then return .ok ()
    else return .error "Failed to sync recovered save journal directory"
  else return .error ("Failed to restore interrupted save transaction " ++ journal)

def recoverTransaction (journal : String) (t : SaveTransaction) :
    DiskProgram (Except String Unit) := do
  if t.state = "new_installed" then
    if ← andThen (access t.cfgPath) (access t.envPath) then
      discard (unlink t.cfgBackup)
      removeFlatDirectory t.envBackup
      closeSaveJournal journal t true
    else return .error "Cannot recover committed save transaction: installed files are missing"
  else do
    let cfgOk ← restoreBackup t.cfgBackup t.cfgPath t.hadCfg false
    let envOk ← restoreBackup t.envBackup t.envPath t.hadEnv true
    closeSaveJournal journal t (envOk && cfgOk)

def recoverProgCfgSave (cfgPath envPath : String) : DiskProgram (Except String Unit) := do
  let journal := journalPath cfgPath
  if ← access journal then
    match loadSaveJournal (← read journal) with
    | .error error => return .error ("Cannot recover " ++ journal ++ ": " ++ error)
    | .ok t =>
      if validSaveTransaction t cfgPath envPath then recoverTransaction journal t
      else return .error ("Cannot recover " ++ journal ++
        ": save journal paths or state are invalid")
  else return .ok ()

def environNode (envs : List String) : Yaml := .mapping
  [("schema", .ofInt 1), ("environment", .ofStrings envs)]

/-- The text `[]` stands for no program at all. -/
def rootNode (cfgs : List ProgCfg) : Yaml := .sequence (cfgs.map serializeProgCfgYamlNode)

def sidecar (cfg : ProgCfg) : String × Yaml := (cfg.name ++ ".yaml", environNode cfg.envs)

def writeEnvirons (envStage : String) : List (String × Yaml) → DiskProgram Bool
  | [] => return true
  | (filename, content) :: rest => do
    if ← andThen (createEntry envStage filename)
        (andThen (writeEntry envStage filename content) (syncEntry envStage filename)) then
      writeEnvirons envStage rest
    else return false

def stageNew (t : SaveTransaction) (cfgs : List ProgCfg) : DiskProgram Bool := do
  removeFlatDirectory t.envStage
  removeFlatDirectory t.envBackup
  discard (unlink t.cfgBackup)
  if ← mkdir t.envStage then
    if ← andThen (writeEnvirons t.envStage (cfgs.map sidecar)) (sync t.envStage) then
      if ← create t.cfgTemp then
        if ← andThen (write t.cfgTemp (rootNode cfgs)) (sync t.cfgTemp) then return true
        else do
          discard (unlink t.cfgTemp)
          removeFlatDirectory t.envStage
          return false
      else do
        removeFlatDirectory t.envStage
        return false
    else do
      removeFlatDirectory t.envStage
      return false
  else return false

def dropNew (t : SaveTransaction) : DiskProgram Bool := do
  discard (unlink t.cfgTemp)
  removeFlatDirectory t.envStage
  return false

def renameIf (had : Bool) (source target : String) : DiskProgram Bool :=
  if had then rename source target else return true

def moveOld (t : SaveTransaction) : DiskProgram Bool := do
  if ← renameIf t.hadCfg t.cfgPath t.cfgBackup then
    if ← renameIf t.hadEnv t.envPath t.envBackup then syncTransactionDirectories t
    else do
      discard (renameIf t.hadCfg t.cfgBackup t.cfgPath)
      dropNew t
  else dropNew t

def installNew (t : SaveTransaction) : DiskProgram Bool := do
  if ← andThen (rename t.cfgTemp t.cfgPath) (rename t.envStage t.envPath) then
    syncTransactionDirectories t
  else do
    discard (unlink t.cfgPath)
    removeFlatDirectory t.envPath
    discard (renameIf t.hadCfg t.cfgBackup t.cfgPath)
    discard (renameIf t.hadEnv t.envBackup t.envPath)
    dropNew t

def dropOld (t : SaveTransaction) : DiskProgram Bool := do
  discard (unlink t.cfgBackup)
  removeFlatDirectory t.envBackup
  syncTransactionDirectories t

/-- From the journal on, every step is announced before it is made. -/
def commitSteps (journal : String) (t : SaveTransaction) : DiskProgram Bool :=
  andThen (writeSaveJournal journal { t with state := "prepared" }) <|
  andThen (moveOld t) <|
  andThen (writeSaveJournal journal { t with state := "old_moved" }) <|
  andThen (installNew t) <|
  andThen (writeSaveJournal journal { t with state := "new_installed" }) (dropOld t)

def commitSave (journal : String) (t : SaveTransaction) : DiskProgram Int := do
  if ← commitSteps journal t then
    discard (unlink journal)
    discard syncParent
    return 0
  else return -1

/-- The names of one save; `getpid` and `time` make the suffix. -/
def saveTransaction (cfgPath envPath : String) (pid time : Int) : SaveTransaction :=
  let suffix := ".txn." ++ pid.repr ++ "." ++ time.repr
  { state := "prepared", suffix
    cfgPath, cfgTemp := cfgPath ++ suffix, cfgBackup := cfgPath ++ ".bak" ++ suffix
    envPath, envStage := envPath ++ suffix, envBackup := envPath ++ ".bak" ++ suffix }

def saveProgCfg (cfgs : List ProgCfg) (cfgPath envPath : String) (pid time : Int) :
    DiskProgram Int := do
  match ← recoverProgCfgSave cfgPath envPath with
  | .error _ => return -1
  | .ok () =>
    let t := saveTransaction cfgPath envPath pid time
    if ← stageNew t cfgs then
      let hadCfg ← access cfgPath
      let hadEnv ← access envPath
      commitSave (journalPath cfgPath) { t with hadCfg, hadEnv }
    else return -1

end PmTiny.Persist
