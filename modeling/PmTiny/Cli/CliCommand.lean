import PmTiny.Daemon.DaemonArguments

namespace PmTiny.Cli
open Persist
set_option autoImplicit true

structure StartCommandOptions where
  name : String := ""
  cwd : String := ""
  executable : String := ""
  args : List String := []
  killTimeoutSec : Int := 3
  runAs : String := ""
  env : List String := []
  dependsOn : List String := []
  startTimeout : Int := 0
  failureAction : FailureAction := .skip
  daemon : Bool := true
  heartbeatTimeout : Int := -1
  oomScoreAdj : Int := 0
  pty : Bool := false
  showLog : Bool := false
  logMode : LogMode := .split
  logModeExplicit : Bool := false
  logDir : String := ""
  logFileName : String := ""
  logMaxSizeKb : Int := 4096
  logArchiveCount : Int := 3
  create : Bool := false
  restartDelayMs : Int := 1000
  restartMaxDelayMs : Int := 30000
  restartWindowMs : Int := 60000
  restartMaxAttempts : Int := 10
  restartResetAfterMs : Int := 60000
  deriving DecidableEq

inductive TextField where
  | cwd | runAs | logDir | logFileName
  deriving DecidableEq

def TextField.get : TextField → StartCommandOptions → String
  | .cwd, start => start.cwd
  | .runAs, start => start.runAs
  | .logDir, start => start.logDir
  | .logFileName, start => start.logFileName

def TextField.set (value : String) : TextField → StartCommandOptions → StartCommandOptions
  | .cwd, start => { start with cwd := value }
  | .runAs, start => { start with runAs := value }
  | .logDir, start => { start with logDir := value }
  | .logFileName, start => { start with logFileName := value }

inductive IntegerField where
  | killTimeoutSec | startTimeout | heartbeatTimeout | oomScoreAdj | logMaxSizeKb
  | logArchiveCount | restartDelayMs | restartMaxDelayMs | restartWindowMs | restartMaxAttempts
  | restartResetAfterMs
  deriving DecidableEq

def IntegerField.get : IntegerField → StartCommandOptions → Int
  | .killTimeoutSec, start => start.killTimeoutSec
  | .startTimeout, start => start.startTimeout
  | .heartbeatTimeout, start => start.heartbeatTimeout
  | .oomScoreAdj, start => start.oomScoreAdj
  | .logMaxSizeKb, start => start.logMaxSizeKb
  | .logArchiveCount, start => start.logArchiveCount
  | .restartDelayMs, start => start.restartDelayMs
  | .restartMaxDelayMs, start => start.restartMaxDelayMs
  | .restartWindowMs, start => start.restartWindowMs
  | .restartMaxAttempts, start => start.restartMaxAttempts
  | .restartResetAfterMs, start => start.restartResetAfterMs

def IntegerField.set (value : Int) : IntegerField → StartCommandOptions → StartCommandOptions
  | .killTimeoutSec, start => { start with killTimeoutSec := value }
  | .startTimeout, start => { start with startTimeout := value }
  | .heartbeatTimeout, start => { start with heartbeatTimeout := value }
  | .oomScoreAdj, start => { start with oomScoreAdj := value }
  | .logMaxSizeKb, start => { start with logMaxSizeKb := value }
  | .logArchiveCount, start => { start with logArchiveCount := value }
  | .restartDelayMs, start => { start with restartDelayMs := value }
  | .restartMaxDelayMs, start => { start with restartMaxDelayMs := value }
  | .restartWindowMs, start => { start with restartWindowMs := value }
  | .restartMaxAttempts, start => { start with restartMaxAttempts := value }
  | .restartResetAfterMs, start => { start with restartResetAfterMs := value }

/-- What is wrong with a number of the field. -/
def IntegerField.failure (value : Int) : IntegerField → Option String
  | .logMaxSizeKb =>
    if value < 1 ∨ value > 1048576 then some "--log-max-size-kb must be between 1 and 1048576"
    else none
  | .logArchiveCount =>
    if value < 0 ∨ value > 100 then some "--log-archive-count must be between 0 and 100" else none
  | _ => none

inductive SwitchField where
  | daemon | pty
  deriving DecidableEq

def SwitchField.get : SwitchField → StartCommandOptions → Bool
  | .daemon, start => start.daemon
  | .pty, start => start.pty

def SwitchField.set (value : Bool) : SwitchField → StartCommandOptions → StartCommandOptions
  | .daemon, start => { start with daemon := value }
  | .pty, start => { start with pty := value }

inductive StartRule where
  | text (field : TextField)
  | integer (field : IntegerField)
  | switch (field : SwitchField) (value : Bool)
  | env
  | dependsOn
  | failureAction
  | logMode
  | log
  deriving DecidableEq

def startRule (option : String) : Option StartRule :=
  if option = "--cwd" then some (.text .cwd)
  else if option = "--kill-timeout" then some (.integer .killTimeoutSec)
  else if option = "--user" then some (.text .runAs)
  else if option = "--env" then some .env
  else if option = "--depends-on" then some .dependsOn
  else if option = "--start-timeout" then some (.integer .startTimeout)
  else if option = "--failure-action" then some .failureAction
  else if option = "--heartbeat-timeout" then some (.integer .heartbeatTimeout)
  else if option = "--oom-score-adj" then some (.integer .oomScoreAdj)
  else if option = "--daemon" then some (.switch .daemon true)
  else if option = "--no-daemon" then some (.switch .daemon false)
  else if option = "--log" then some .log
  else if option = "--log-mode" then some .logMode
  else if option = "--log-dir" then some (.text .logDir)
  else if option = "--log-file-name" then some (.text .logFileName)
  else if option = "--log-max-size-kb" then some (.integer .logMaxSizeKb)
  else if option = "--log-archive-count" then some (.integer .logArchiveCount)
  else if option = "--no-pty" then some (.switch .pty false)
  else if option = "--pty" then some (.switch .pty true)
  else if option = "--restart-delay-ms" then some (.integer .restartDelayMs)
  else if option = "--restart-max-delay-ms" then some (.integer .restartMaxDelayMs)
  else if option = "--restart-window-ms" then some (.integer .restartWindowMs)
  else if option = "--restart-max-attempts" then some (.integer .restartMaxAttempts)
  else if option = "--restart-reset-after-ms" then some (.integer .restartResetAfterMs)
  else none

def StartRule.takesValue : StartRule → Bool
  | .switch _ _ | .log => false
  | .text _ | .integer _ | .env | .dependsOn | .failureAction | .logMode => true

/-- `std::stoll` in the range of an `int`. -/
def parseInteger (text : String) : Option Int := parseLong text (-2147483648) 2147483647

def StartRule.applyFlag (rule : StartRule) (start : StartCommandOptions) : StartCommandOptions :=
  match rule with
  | .switch field value => field.set value start
  | .log => { start with showLog := true }
  | .text _ | .integer _ | .env | .dependsOn | .failureAction | .logMode => start

def StartRule.applyValue (rule : StartRule) (option value : String) (start : StartCommandOptions) :
    Except String StartCommandOptions :=
  match rule with
  | .text field => .ok (field.set value start)
  | .integer field =>
    match parseInteger value with
    | none => .error (option ++ " requires an integer, got `" ++ value ++ "`")
    | some parsed =>
      match field.failure parsed with
      | some message => .error message
      | none => .ok (field.set parsed start)
  | .env =>
    if '=' ∉ value.toList ∨ value.toList.head? = some '=' then .error "--env requires KEY=VALUE"
    else if "PM_TINY_".toList.isPrefixOf value.toList then
      .error "--env cannot override reserved PM_TINY_* variables"
    else .ok { start with env := start.env ++ [value] }
  | .dependsOn => .ok { start with dependsOn := start.dependsOn ++ [value] }
  | .failureAction =>
    match strToFailureAction value with
    | .ok action => .ok { start with failureAction := action }
    | .error message => .error message
  | .logMode =>
    match parseLogMode value with
    | some mode => .ok { start with logMode := mode, logModeExplicit := true }
    | none => .error "--log-mode requires `split` or `combined`"
  | .switch _ _ | .log => .ok start

/-- The loop of `parse_start` from some argument on. -/
def parseOptions : List String → StartCommandOptions → Except String StartCommandOptions
  | [], start => .ok start
  | option :: rest, start =>
    if option = "--" then
      match rest with
      | [] => .error "-- requires an executable"
      | executable :: args =>
        .ok { start with create := true, executable := executable, args := args }
    else
      match startRule option with
      | none => .error ("unknown start option: " ++ option)
      | some rule =>
        if rule.takesValue then
          match rest with
          | [] => .error (option ++ " requires a value")
          | value :: rest =>
            match rule.applyValue option value start with
            | .error message => .error message
            | .ok start => parseOptions rest start
        else parseOptions rest (rule.applyFlag start)

/-- A definition option was given, as far as the values of the fields tell. -/
def StartCommandOptions.Defines (start : StartCommandOptions) : Prop :=
  start.cwd ≠ "" ∨ start.runAs ≠ "" ∨ start.env ≠ [] ∨ start.dependsOn ≠ [] ∨ start.pty = true ∨
    start.daemon = false ∨ start.killTimeoutSec ≠ 3 ∨ start.startTimeout ≠ 0 ∨
    start.failureAction ≠ .skip ∨ start.heartbeatTimeout ≠ -1 ∨ start.oomScoreAdj ≠ 0 ∨
    start.restartDelayMs ≠ 1000 ∨ start.restartMaxDelayMs ≠ 30000 ∨
    start.restartWindowMs ≠ 60000 ∨ start.restartMaxAttempts ≠ 10 ∨
    start.restartResetAfterMs ≠ 60000 ∨ start.logModeExplicit = true ∨ start.logDir ≠ "" ∨
    start.logFileName ≠ "" ∨ start.logMaxSizeKb ≠ 4096 ∨ start.logArchiveCount ≠ 3

instance : DecidablePred StartCommandOptions.Defines := fun _ =>
  inferInstanceAs (Decidable (_ ∨ _))

def parseStart : List String → Except String StartCommandOptions
  | _ :: _ :: name :: rest =>
    if name = "" ∨ name.toList.head? = some '-' then
      .error "start requires an explicit process name"
    else
      match parseOptions rest { name := name } with
      | .error message => .error message
      | .ok start =>
        if start.create = false ∧ start.Defines then
          .error "definition options require `-- <executable> [args...]`"
        else .ok start
  | _ => .error "start requires an explicit process name"

end PmTiny.Cli
