import Mathlib.Data.List.DropRight
import PmTiny.Cli.CliCommand
import PmTiny.Wire.Received

namespace PmTiny.Cli
set_option autoImplicit true
open StreamReader Wire

inductive CommandKind where
  | help | list | graph | start | stop | restart | remove | save | log | inspect | reload | quit
  | version | info
  deriving DecidableEq, Repr

structure ParsedCommand where
  kind : CommandKind := .help
  name : String := ""
  showLog : Bool := false
  logHistory : Bool := false
  noList : Bool := false
  start : StartCommandOptions := {}
  infoJson : Bool := false
  deriving DecidableEq

/-- The standard output of a command: a text, or what a renderer is given. -/
inductive Output where
  | text (text : Text)
  | processList (entries : List Wire.ProcessListEntry)
  | dependencyGraph (entries : List Wire.ProcessListEntry)
  | inspectSnapshot (snapshot : InspectSnapshot)
  | daemonInfo (info : Wire.DaemonInfoSnapshot) (json : Bool)
  | programLogHistoryHeader (name : Text) (response : Wire.ProgramLogResponse)
  deriving DecidableEq

structure CliResponseResult where
  success : Bool := false
  streamExpected : Bool := false
  postList : Bool := false
  daemonPid : Int64 := -1
  logResponse : Wire.ProgramLogResponse := {}
  stdout : Output := .text []
  stderrText : Text := []
  deriving DecidableEq

/-- Which options of the renderers are given; only the renderers read what they say. -/
structure GivenOptions where
  list : Bool := false
  graph : Bool := false
  deriving DecidableEq, Repr

def newline : UInt8 := 0x0a

def carriageReturn : UInt8 := 0x0d

def trimMessage (message : Text) : Text :=
  let message := if (utf8 "ERR ").isPrefixOf message then message.drop 4 else message
  message.rdropWhile fun byte => byte = newline ∨ byte = carriageReturn

/-- `std::to_string`. -/
def decimal (value : Int) : Text := utf8 (toString value)

def errorText (status : Int32) (message : Text) : Text :=
  let clean := trimMessage message
  if (utf8 "pm: error(").isPrefixOf clean then clean ++ [newline]
  else utf8 "pm: error(" ++ decimal status.toInt ++ utf8 "): " ++ clean ++ [newline]

def actionIsSilent : CommandKind → Bool
  | .stop | .restart | .remove | .save | .reload | .quit => true
  | _ => false

def shouldPostList (command : ParsedCommand) : Bool :=
  if command.noList ∨ command.showLog then false
  else match command.kind with
    | .stop | .restart | .remove | .reload => true
    | _ => false

def commaSeparated (names : List Text) : Text := List.intercalate (utf8 ",") names

def reportStart (command : ParsedCommand) (start : Wire.StartResponse)
    (result : CliResponseResult) : CliResponseResult :=
  let name := utf8 command.start.name
  if start.result = .blocked then
    { result with
      success := false
      stderrText := utf8 "pm: error(-7): blocked `" ++ name ++ utf8 "` by: " ++
        commaSeparated start.blockedBy ++ [newline] }
  else if command.start.showLog then { result with streamExpected := true }
  else if start.result = .started then
    { result with
      stdout := .text (utf8 "started `" ++ name ++ utf8 "` pid=" ++ decimal start.pid.toInt ++
        (if command.start.create then utf8 "; run `pm save` to persist" else []) ++ [newline]) }
  else
    { result with
      stdout := .text (utf8 "waiting `" ++ name ++ utf8 "`" ++
        (if start.blockedBy = [] then [] else utf8 " for: " ++ commaSeparated start.blockedBy) ++
        [newline]) }

def reportLog (command : ParsedCommand) (response : Wire.ProgramLogResponse)
    (result : CliResponseResult) : Except String CliResponseResult := do
  let expectedMode : LogRequestMode := if command.logHistory then .history else .live
  if response.mode ≠ expectedMode then throw "program-log response mode mismatch"
  return { result with
    logResponse := response
    stdout := if command.kind = .log ∧ command.logHistory then
      .programLogHistoryHeader (utf8 command.name) response else result.stdout
    streamExpected := true }

def interpretControlResponse (command : ParsedCommand) (payload : List UInt8)
    (clientVersion : Text) (options : GivenOptions) : Except String CliResponseResult := do
  let (status, stream) ← int32.run payload
  let (message, stream) ← text.run stream
  if status ≠ 0 then return { stderrText := errorText status message }
  let result : CliResponseResult := { success := true, postList := shouldPostList command }
  match command.kind with
  | .list =>
    let (entries, _) ← readProcessList.run stream
    if !options.list then throw "missing list render options"
    return { result with stdout := .processList entries }
  | .graph =>
    let (entries, _) ← readProcessList.run stream
    if !options.graph then throw "missing graph render options"
    return { result with stdout := .dependencyGraph entries }
  | .inspect =>
    let (snapshot, _) ← readInspectSnapshot.run stream
    return { result with stdout := .inspectSnapshot snapshot }
  | .info =>
    let info ← readDaemonInfo stream
    return { result with stdout := .daemonInfo info command.infoJson }
  | .version =>
    let (daemonVersion, _) ← text.run stream
    return { result with
      stdout := .text (utf8 "pm: " ++ clientVersion ++ utf8 "\npm_tiny: " ++ daemonVersion ++
        [newline]) }
  | .quit =>
    let (pid, _) ← int32.run stream
    return { result with daemonPid := pid.toInt64 }
  | .start =>
    let start ← readStartResponse stream
    return reportStart command start result
  | kind =>
    if kind = .log ∨ kind = .restart ∧ command.showLog then
      let (response, _) ← Wire.readProgramLogResponse.run stream
      reportLog command response result
    else if !actionIsSilent kind then
      let line := trimMessage message
      return { result with stdout := .text (if line = [] then [] else line ++ [newline]) }
    else return result

end PmTiny.Cli
