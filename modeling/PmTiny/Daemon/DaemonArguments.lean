import PmTiny.Persist.ProgCfg

namespace PmTiny
open Persist
set_option autoImplicit true

inductive DaemonPlatform where
  | posix
  | windows
  deriving DecidableEq, Repr

structure DaemonCliOptions where
  configPath : String := ""
  homeDir : String := ""
  logLevel : String := ""
  logMaxSizeKb : Int := 0
  logArchiveCount : Int := -1
  configExplicit : Bool := false
  homeExplicit : Bool := false
  logLevelExplicit : Bool := false
  logMaxSizeExplicit : Bool := false
  logArchiveCountExplicit : Bool := false
  daemonize : Bool := false
  service : Bool := false
  serviceName : String := "pm_tiny"
  serviceNameExplicit : Bool := false
  pipeName : String := ""
  pipeSddl : String := ""
  help : Bool := false
  version : Bool := false

def validLogLevel (value : String) : Bool :=
  value = "debug" || value = "info" || value = "warn" || value = "error" || value = "fatal"

/-- `strtol` in base 10 up to the end of the text: white space, a sign, digits. -/
def strtol (text : List Char) : Option Int :=
  let number := text.dropWhile Yaml.isSpace
  let digits := if number.head? = some '-' ∨ number.head? = some '+' then number.tail else number
  if digits ≠ [] ∧ digits.all Char.isDigit then
    let value : Int := Nat.ofDigitChars 10 digits 0
    some (if number.head? = some '-' then -value else value)
  else none

def parseLong (value : String) (minimum maximum : Int) : Option Int :=
  (strtol value.toList).filter fun parsed => minimum ≤ parsed && parsed ≤ maximum

def parseBool (value : String) : Option Bool :=
  if value ∈ ["1", "Y", "y", "true", "yes"] then some true
  else if value ∈ ["0", "N", "n", "false", "no"] then some false
  else none

/-- The loop of `parse_daemon_arguments` from some argument on. -/
def parseArguments (platform : DaemonPlatform) :
    List String → DaemonCliOptions → Except String DaemonCliOptions
  | [], options => .ok options
  | arg :: rest, options =>
    if arg = "-c" ∨ arg = "--config" then
      match rest with
      | [] => .error (arg ++ " requires a value")
      | value :: rest =>
        parseArguments platform rest { options with configPath := value, configExplicit := true }
    else if arg = "--home" then
      match rest with
      | [] => .error (arg ++ " requires a value")
      | value :: rest =>
        if value = "" then .error "--home must not be empty"
        else parseArguments platform rest { options with homeDir := value, homeExplicit := true }
    else if arg = "--log-level" then
      match rest with
      | [] => .error (arg ++ " requires a value")
      | value :: rest =>
        if validLogLevel value then
          parseArguments platform rest { options with logLevel := value, logLevelExplicit := true }
        else .error "--log-level must be debug, info, warn, error, or fatal"
    else if arg = "--log-max-size-kb" then
      match rest with
      | [] => .error (arg ++ " requires a value")
      | value :: rest =>
        match parseLong value 1 1048576 with
        | some parsed =>
          parseArguments platform rest
            { options with logMaxSizeKb := parsed, logMaxSizeExplicit := true }
        | none => .error "--log-max-size-kb must be between 1 and 1048576"
    else if arg = "--log-archive-count" then
      match rest with
      | [] => .error (arg ++ " requires a value")
      | value :: rest =>
        match parseLong value 0 100 with
        | some parsed =>
          parseArguments platform rest
            { options with logArchiveCount := parsed, logArchiveCountExplicit := true }
        | none => .error "--log-archive-count must be between 0 and 100"
    else if arg = "--help" ∨ arg = "-h" then
      parseArguments platform rest { options with help := true }
    else if arg = "--version" then
      parseArguments platform rest { options with version := true }
    else if platform = .posix ∧ (arg = "-d" ∨ arg = "--daemon") then
      parseArguments platform rest { options with daemonize := true }
    else if platform = .windows ∧ arg = "--service" then
      parseArguments platform rest { options with service := true }
    else if platform = .windows ∧ arg = "--service-name" then
      match rest with
      | [] => .error (arg ++ " requires a value")
      | value :: rest =>
        if value = "" then .error "--service-name must not be empty"
        else parseArguments platform rest
          { options with serviceName := value, serviceNameExplicit := true }
    else if platform = .windows ∧ arg = "--pipe-name" then
      match rest with
      | [] => .error (arg ++ " requires a value")
      | value :: rest =>
        if value = "" then .error "--pipe-name must not be empty"
        else parseArguments platform rest { options with pipeName := value }
    else if platform = .windows ∧ arg = "--pipe-sddl" then
      match rest with
      | [] => .error (arg ++ " requires a value")
      | value :: rest =>
        if value = "" then .error "--pipe-sddl must not be empty"
        else parseArguments platform rest { options with pipeSddl := value }
    else .error ("Unknown option: " ++ arg)

/-- The first argument is the name of the program. -/
def parseDaemonArguments (arguments : List String) (platform : DaemonPlatform) :
    Except String DaemonCliOptions :=
  parseArguments platform (arguments.drop 1) {}

structure DaemonCliOptions.Checked (options : DaemonCliOptions) : Prop where
  home : options.homeExplicit = true → options.homeDir ≠ ""
  logLevel : options.logLevelExplicit = true → validLogLevel options.logLevel = true

theorem parseArguments_checked (h : parseArguments platform arguments options = .ok parsed)
    (hoptions : options.Checked) : parsed.Checked := by
  fun_induction parseArguments platform arguments options with
  | case1 =>
    cases h
    exact hoptions
  | case6 =>
    rename_i hvalue _ ih
    exact ih h ⟨fun _ => hvalue, hoptions.logLevel⟩
  | case8 =>
    rename_i hvalue _ _ ih
    exact ih h ⟨hoptions.home, fun _ => hvalue⟩
  | case3 | case11 | case14 | case16 | case17 | case18 | case19 | case22 | case25 | case28 =>
    rename_i ih
    exact ih h ⟨hoptions.home, hoptions.logLevel⟩
  | _ => cases h

theorem parseDaemonArguments_checked
    (h : parseDaemonArguments arguments platform = .ok options) : options.Checked := by
  apply parseArguments_checked h
  constructor
  · exact fun hhome => Bool.noConfusion hhome
  · exact fun hlevel => Bool.noConfusion hlevel

end PmTiny
