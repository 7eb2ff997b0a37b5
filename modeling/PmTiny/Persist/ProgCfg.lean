import Mathlib.Data.List.TakeWhile
import PmTiny.Daemon.Handlers

namespace PmTiny.Persist
set_option autoImplicit true

/-- A YAML document as yaml-cpp holds it. -/
inductive Yaml where
  | null
  | scalar (text : String)
  | sequence (items : List Yaml)
  | mapping (entries : List (String × Yaml))

namespace Yaml

/-- The member `node[key]`, if it is defined. -/
def get? : Yaml → String → Option Yaml
  | .mapping entries, key => entries.lookup key
  | _, _ => none

def ofInt (value : Int32) : Yaml := .scalar value.toInt.repr

def ofBool (value : Bool) : Yaml := .scalar (if value then "true" else "false")

def ofStrings (values : List String) : Yaml := .sequence (values.map .scalar)

def asString : Yaml → Option String
  | .null => some "null"
  | .scalar text => some text
  | _ => none

def isSpace (c : Char) : Bool := c = ' ' || (9 ≤ c.toNat && c.toNat ≤ 13)

def isOctDigit (c : Char) : Bool := c.isDigit && c.toNat < '8'.toNat

def isHexDigit (c : Char) : Bool := c.isDigit || (('a' ≤ c.toLower) && (c.toLower ≤ 'f'))

def digitValue (c : Char) : Nat :=
  if c.isDigit then c.toNat - '0'.toNat else c.toLower.toNat - 'a'.toNat + 10

/-- The digits that `>>` takes from the text, when only white space is left behind them. -/
def readDigits (base : Nat) (isDigit : Char → Bool) (text : List Char) : Option Nat :=
  let digits := text.takeWhile isDigit
  if digits ≠ [] ∧ (text.dropWhile isDigit).all isSpace then
    some (digits.foldl (fun value digit => base * value + digitValue digit) 0)
  else none

/-- With no base set on the stream, `>>` takes it from the first characters. -/
def readNat (text : List Char) : Option Nat :=
  if text.head? = some '0' then
    if text[1]? = some 'x' ∨ text[1]? = some 'X' then readDigits 16 isHexDigit (text.drop 2)
    else readDigits 8 isOctDigit text
  else readDigits 10 Char.isDigit text

def readInt : List Char → Option Int
  | '-' :: digits => (readNat digits).map fun n => -(n : Int)
  | '+' :: digits => (readNat digits).map fun n => (n : Int)
  | digits => (readNat digits).map fun n => (n : Int)

/-- A number that an `int` can hold. -/
def asInt : Yaml → Option Int32
  | .scalar text => (readInt text.toList).bind fun n =>
    if (Int32.ofInt n).toInt = n then some (Int32.ofInt n) else none
  | _ => none

example : ["0x1F", "-017 ", "08", "0x", " 5"].map (fun text => asInt (.scalar text)) =
    [some 31, some (-15), none, none, none] := by decide

def trueNames : List String :=
  ["y", "Y", "yes", "Yes", "YES", "true", "True", "TRUE", "on", "On", "ON"]

def falseNames : List String :=
  ["n", "N", "no", "No", "NO", "false", "False", "FALSE", "off", "Off", "OFF"]

def asBool : Yaml → Option Bool
  | .scalar text =>
    if text ∈ trueNames then some true else if text ∈ falseNames then some false else none
  | _ => none

@[simp] theorem asString_scalar (text : String) : asString (.scalar text) = some text := rfl

theorem foldl_digitValue {digits : List Char} (h : ∀ c ∈ digits, c.isDigit = true) (value : Nat) :
    digits.foldl (fun value digit => 10 * value + digitValue digit) value =
      Nat.ofDigitChars 10 digits value := by
  induction digits generalizing value with
  | nil => rfl
  | cons digit digits ih =>
    obtain ⟨hdigit, htail⟩ := List.forall_mem_cons.1 h
    rw [List.foldl_cons, ih htail, Nat.ofDigitChars_cons, digitValue, if_pos hdigit]

theorem head_toDigits {n : Nat} (hn : 0 < n) : (Nat.toDigits 10 n).head? ≠ some '0' := by
  have hdigit : ∀ d < 10, 0 < d → [d.digitChar].head? ≠ some '0' := by decide
  induction n using Nat.strong_induction_on with
  | _ n ih =>
    rw [Nat.toDigits_eq_if (by decide)]
    split_ifs with hlt
    · exact hdigit n hlt hn
    · have hdiv := ih (n / 10) (by omega) (by omega)
      rwa [List.head?_append_of_ne_nil _ Nat.toDigits_ne_nil]

theorem readNat_repr (n : Nat) : readNat n.repr.toList = some n := by
  have hdigits : ∀ c ∈ Nat.toDigits 10 n, c.isDigit = true :=
    fun c hc => Nat.isDigit_of_mem_toDigits (by decide) (by decide) hc
  have htake : (Nat.toDigits 10 n).takeWhile Char.isDigit = Nat.toDigits 10 n :=
    List.takeWhile_eq_self_iff.2 hdigits
  have hdrop : (Nat.toDigits 10 n).dropWhile Char.isDigit = [] :=
    List.dropWhile_eq_nil_iff.2 hdigits
  rcases Nat.eq_zero_or_pos n with rfl | hn
  · decide
  · rw [readNat, Nat.toList_repr, if_neg (head_toDigits hn), readDigits, htake, hdrop,
      if_pos ⟨Nat.toDigits_ne_nil, rfl⟩, foldl_digitValue hdigits, Nat.ofDigitChars_ten_toDigits]

theorem readInt_repr (n : Int) : readInt n.repr.toList = some n := by
  cases n with
  | ofNat n =>
    have hread := readNat_repr n
    change readInt n.repr.toList = _
    rw [Nat.toList_repr] at hread ⊢
    have hsign : ∀ c ∈ Nat.toDigits 10 n, c ≠ '-' ∧ c ≠ '+' := by
      intro c hc
      have hd : c.isDigit = true := Nat.isDigit_of_mem_toDigits (by decide) (by decide) hc
      constructor
      · rintro rfl
        cases hd
      · rintro rfl
        cases hd
    unfold readInt
    split
    · rename_i h
      exact absurd rfl (hsign '-' (h ▸ List.mem_cons_self)).1
    · rename_i h
      exact absurd rfl (hsign '+' (h ▸ List.mem_cons_self)).2
    · rw [hread]
      rfl
  | negSucc n =>
    change readInt ("-" ++ (n + 1).repr).toList = _
    have hminus : "-".toList = ['-'] := by decide
    rw [String.toList_append, hminus, List.singleton_append, readInt, readNat_repr]
    rfl

@[simp] theorem asInt_ofInt (value : Int32) : asInt (ofInt value) = some value := by
  simp [asInt, ofInt, readInt_repr]

@[simp] theorem asBool_ofBool (value : Bool) : asBool (ofBool value) = some value := by
  cases value <;> decide

end Yaml

inductive LogMode where
  | split | combined
  deriving DecidableEq, Repr

def logModeName : LogMode → String
  | .split => "split"
  | .combined => "combined"

def parseLogMode (value : String) : Option LogMode :=
  if value = "split" then some .split else if value = "combined" then some .combined else none

def failureActionToStr : FailureAction → String
  | .skip => "skip"
  | .restart => "restart"
  | .reboot => "reboot"

def strToFailureAction (action : String) : Except String FailureAction :=
  if action = "skip" then .ok .skip
  else if action = "restart" then .ok .restart
  else if action = "reboot" then .ok .reboot
  else .error ("illegal `" ++ action ++ "`")

/-- The whole definition of a program. -/
structure ProgCfg where
  name : String
  cwd : String
  executable : String
  args : List String := []
  killTimeoutS : Int32 := 3
  runAs : String := ""
  envs : List String := []
  dependsOn : List String := []
  startTimeout : Int32 := 0
  failureAction : FailureAction := .skip
  daemon : Bool := true
  heartbeatTimeout : Int32 := -1
  envVars : List String := []
  oomScoreAdj : Int32 := 0
  pty : Bool := false
  logMode : LogMode := .split
  logDir : String := ""
  logFileName : String := ""
  logMaxSizeKb : Int32 := 4096
  logArchiveCount : Int32 := 3
  restartDelayMs : Int32 := 1000
  restartMaxDelayMs : Int32 := 30000
  restartWindowMs : Int32 := 60000
  restartMaxAttempts : Int32 := 10
  restartResetAfterMs : Int32 := 60000

def restartDurationMaxMs : Int32 := 24 * 60 * 60 * 1000

def restartAttemptsMax : Int32 := 100000

def optionalText (key text : String) : List (String × Yaml) :=
  if text = "" then [] else [(key, .scalar text)]

def serializeProgCfgYamlNode (cfg : ProgCfg) : Yaml :=
  let members : List (String × Yaml) :=
    [("name", .scalar cfg.name),
      ("cwd", .scalar cfg.cwd),
      ("executable", .scalar cfg.executable),
      ("args", .ofStrings cfg.args),
      ("env_vars", .ofStrings cfg.envVars),
      ("kill_timeout_s", .ofInt cfg.killTimeoutS),
      ("user", .scalar cfg.runAs),
      ("depends_on", .ofStrings cfg.dependsOn),
      ("start_timeout", .ofInt cfg.startTimeout),
      ("failure_action", .scalar (failureActionToStr cfg.failureAction)),
      ("daemon", .ofBool cfg.daemon),
      ("heartbeat_timeout", .ofInt cfg.heartbeatTimeout),
      ("oom_score_adj", .ofInt cfg.oomScoreAdj),
      ("pty", .ofBool cfg.pty),
      ("log_mode", .scalar (logModeName cfg.logMode))]
  let limits : List (String × Yaml) :=
    [("log_max_size_kb", .ofInt cfg.logMaxSizeKb),
      ("log_archive_count", .ofInt cfg.logArchiveCount),
      ("restart_delay_ms", .ofInt cfg.restartDelayMs),
      ("restart_max_delay_ms", .ofInt cfg.restartMaxDelayMs),
      ("restart_window_ms", .ofInt cfg.restartWindowMs),
      ("restart_max_attempts", .ofInt cfg.restartMaxAttempts),
      ("restart_reset_after_ms", .ofInt cfg.restartResetAfterMs)]
  .mapping (members ++ optionalText "log_dir" cfg.logDir ++
    optionalText "log_file_name" cfg.logFileName ++ limits)

/-- The values of a sequence, or of a scalar in its place, and what is wrong with it. -/
def parseStringSequence (node : Option Yaml) (fieldName entryName : String) :
    List String × List String :=
  match node with
  | none => ([], [])
  | some (.scalar text) => ([text], [])
  | some (.sequence items) =>
    (items.filterMap Yaml.asString, (items.filter fun item => item.asString.isNone).map fun _ =>
      "Program `" ++ entryName ++ "` has invalid element in field `" ++ fieldName ++
        "`: bad conversion")
  | some .null | some (.mapping _) =>
    ([], ["Program `" ++ entryName ++ "` field `" ++ fieldName ++
      "` must be a scalar or sequence"])

def readRequiredString (node : Yaml) (key : String) : Except String String :=
  match node.get? key with
  | none => .error ("Config entry missing required field `" ++ key ++ "`")
  | some value =>
    match value.asString with
    | none => .error ("Config field `" ++ key ++ "` must be a string: bad conversion")
    | some text => .ok text

/-- The member converted by `as`, or the default when there is none. -/
def readOptional (as : Yaml → Option α) (node : Yaml) (key : String) (target : α)
    (entryName : String) : Except String α :=
  match node.get? key with
  | none => .ok target
  | some value =>
    match as value with
    | none => .error ("Program `" ++ entryName ++ "` field `" ++ key ++ "` invalid: bad conversion")
    | some result => .ok result

def readOptionalString : Yaml → String → String → String → Except String String :=
  readOptional Yaml.asString

def readOptionalInt : Yaml → String → Int32 → String → Except String Int32 :=
  readOptional Yaml.asInt

def readOptionalBool : Yaml → String → Bool → String → Except String Bool :=
  readOptional Yaml.asBool

def validateRange (value minimum maximum : Int32) (key entryName : String) : Except String Unit :=
  if minimum ≤ value ∧ value ≤ maximum then .ok ()
  else .error ("Program `" ++ entryName ++ "` field `" ++ key ++ "` must be between " ++
    minimum.toInt.repr ++ " and " ++ maximum.toInt.repr)

def rejectAny (found : Option α) (message : α → String) : Except String Unit :=
  match found with
  | some a => .error (message a)
  | none => .ok ()

def rejectIf (condition : Prop) [Decidable condition] (message : String) : Except String Unit :=
  if condition then .error message else .ok ()

def removedFields : List String :=
  ["log_size_kb", "log_files", "log_file", "log_file_count", "inherited_env"]

def envKey (entry : String) : String := String.ofList (entry.toList.takeWhile (· ≠ '='))

def reservedKey (key : String) : Bool := "PM_TINY_".toList.isPrefixOf key.toList

def parseRunAs (node : Yaml) (entryName : String) : Except String String := do
  let user ← readOptionalString node "user" "" entryName
  if user ≠ "" then return user
  let runAs ← readOptionalString node "run_as" user entryName
  if runAs ≠ "" then return runAs
  readOptionalString node "run_as_user" runAs entryName

def parseKillTimeout (node : Yaml) (entryName : String) : Except String Int32 :=
  if (node.get? "kill_timeout_s").isSome then readOptionalInt node "kill_timeout_s" 3 entryName
  else readOptionalInt node "kill_timeout" 3 entryName

/-- An action that is not known is a warning, and the default stays. -/
def parseFailureAction (node : Yaml) (entryName : String) :
    Except String (FailureAction × List String) := do
  let action ← readOptionalString node "failure_action" (failureActionToStr .skip) entryName
  match strToFailureAction action with
  | .ok action => return (action, [])
  | .error what =>
    return (.skip, ["Program `" ++ entryName ++ "` field `failure_action` invalid: " ++ what])

def parseLogModeNode (node : Yaml) (pty : Bool) (entryName : String) : Except String LogMode := do
  let default := if pty then LogMode.combined else LogMode.split
  let value ← readOptionalString node "log_mode" (logModeName default) entryName
  rejectIf (parseLogMode value = none)
    ("Program `" ++ entryName ++ "` field `log_mode` must be `split` or `combined`")
  let mode := (parseLogMode value).getD default
  rejectIf (pty ∧ mode = .split)
    ("Program `" ++ entryName ++ "` cannot use `pty: true` with `log_mode: split`")
  return mode

def parseRestart (node : Yaml) (parsed : ProgCfg) : Except String ProgCfg := do
  let restartDelayMs ← readOptionalInt node "restart_delay_ms" 1000 parsed.name
  let restartMaxDelayMs ← readOptionalInt node "restart_max_delay_ms" 30000 parsed.name
  let restartWindowMs ← readOptionalInt node "restart_window_ms" 60000 parsed.name
  let restartMaxAttempts ← readOptionalInt node "restart_max_attempts" 10 parsed.name
  let restartResetAfterMs ← readOptionalInt node "restart_reset_after_ms" 60000 parsed.name
  validateRange restartDelayMs 0 restartDurationMaxMs "restart_delay_ms" parsed.name
  validateRange restartMaxDelayMs 0 restartDurationMaxMs "restart_max_delay_ms" parsed.name
  validateRange restartWindowMs 1 restartDurationMaxMs "restart_window_ms" parsed.name
  validateRange restartMaxAttempts 0 restartAttemptsMax "restart_max_attempts" parsed.name
  validateRange restartResetAfterMs 0 restartDurationMaxMs "restart_reset_after_ms" parsed.name
  rejectIf (restartMaxDelayMs < restartDelayMs)
    ("Program `" ++ parsed.name ++
      "` field `restart_max_delay_ms` must be greater than or equal to `restart_delay_ms`")
  return { parsed with
    restartDelayMs, restartMaxDelayMs, restartWindowMs, restartMaxAttempts, restartResetAfterMs }

def parseLogging (node : Yaml) (parsed : ProgCfg) : Except String ProgCfg := do
  let logMode ← parseLogModeNode node parsed.pty parsed.name
  let logDir ← readOptionalString node "log_dir" "" parsed.name
  let logFileName ← readOptionalString node "log_file_name" "" parsed.name
  let logMaxSizeKb ← readOptionalInt node "log_max_size_kb" 4096 parsed.name
  let logArchiveCount ← readOptionalInt node "log_archive_count" 3 parsed.name
  validateRange logMaxSizeKb 1 1048576 "log_max_size_kb" parsed.name
  validateRange logArchiveCount 0 100 "log_archive_count" parsed.name
  return { parsed with logMode, logDir, logFileName, logMaxSizeKb, logArchiveCount }

def parseEnvVars (node : Yaml) (entryName : String) :
    Except String (List String × List String) := do
  let envVars := parseStringSequence (node.get? "env_vars") "env_vars" entryName
  rejectAny (envVars.1.find? fun entry => reservedKey (envKey entry)) fun entry =>
    "Program `" ++ entryName ++ "` cannot override reserved environment variable `" ++
      envKey entry ++ "`"
  return envVars

/-- A warning about a member is in the end an error, so what is accepted has none. -/
def parseProgCfgYamlNode (node : Yaml) : Except String ProgCfg := do
  rejectAny (removedFields.find? fun key => (node.get? key).isSome) fun removed =>
    "Config uses removed field `" ++ removed ++ "`"
  let name ← readRequiredString node "name"
  let cwd ← readRequiredString node "cwd"
  rejectIf (node.get? "command").isSome
    ("Program `" ++ name ++ "` uses removed field `command`; use `executable` and `args`")
  let executable ← readRequiredString node "executable"
  let args := parseStringSequence (node.get? "args") "args" name
  let killTimeoutS ← parseKillTimeout node name
  let runAs ← parseRunAs node name
  let dependsOn := parseStringSequence (node.get? "depends_on") "depends_on" name
  let envVars ← parseEnvVars node name
  let startTimeout ← readOptionalInt node "start_timeout" 0 name
  let failureAction ← parseFailureAction node name
  let heartbeatTimeout ← readOptionalInt node "heartbeat_timeout" (-1) name
  let oomScoreAdj ← readOptionalInt node "oom_score_adj" 0 name
  let parsed ← parseRestart node {
    name, cwd, executable, args := args.1, killTimeoutS, runAs, dependsOn := dependsOn.1
    envVars := envVars.1, startTimeout, failureAction := failureAction.1, heartbeatTimeout
    oomScoreAdj }
  let daemon ← readOptionalBool node "daemon" true name
  let pty ← readOptionalBool node "pty" false name
  let parsed ← parseLogging node { parsed with daemon, pty }
  rejectAny (args.2 ++ dependsOn.2 ++ envVars.2 ++ failureAction.2).head? fun warning => warning
  return parsed

end PmTiny.Persist
