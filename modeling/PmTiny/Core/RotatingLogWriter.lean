import Mathlib.Data.List.Basic
import Mathlib.Logic.Function.Basic

namespace PmTiny
set_option autoImplicit true

inductive Platform where
  | linux
  | windows
  deriving DecidableEq, Repr

/-- What a `rotating_log_writer` asks the system for. The log file has number 0 and its archives
`path.1`, `path.2` and so on have their own numbers. -/
inductive SystemCall where
  | convert
  | directory
  | create
  | size
  | seek
  | truncate
  | rename (source target : Nat)
  | write
  deriving DecidableEq, Repr

/-- What the system answers. A write may take fewer bytes than it was given. -/
inductive Answer where
  | done (bytes : Nat)
  | interrupted
  | failed (reason : String)
  deriving DecidableEq, Repr

/-- `rotating_log_writer` with the files it writes, the answers the system has for its calls and
the calls made so far. -/
structure RotatingLogWriter where
  platform : Platform
  path : String
  maxSizeBytes : Nat
  archiveCount : Int
  handle : Bool := false
  currentSize : Nat := 0
  files : Nat → Option (List UInt8) := fun _ => none
  answers : Nat → SystemCall → Answer
  trace : List (SystemCall × Answer) := []
  rotations : Nat := 0

namespace RotatingLogWriter

def fileName (path : String) : Nat → String
  | 0 => path
  | index + 1 => path ++ "." ++ toString (index + 1)

def systemError (w : RotatingLogWriter) (call : SystemCall) (reason : String) : String :=
  match w.platform, call with
  | _, .convert | _, .directory => reason
  | .linux, .create => "open " ++ w.path ++ ": " ++ reason
  | .linux, .size | .linux, .seek => "fstat " ++ w.path ++ ": " ++ reason
  | .linux, .truncate => "truncate " ++ w.path ++ ": " ++ reason
  | .linux, .rename source target =>
    "rename " ++ fileName w.path source ++ " to " ++ fileName w.path target ++ ": " ++ reason
  | .linux, .write => "write " ++ w.path ++ ": " ++ reason
  | .windows, .create | .windows, .truncate => "CreateFileW failed with error code " ++ reason
  | .windows, .size => "GetFileSizeEx failed with error code " ++ reason
  | .windows, .seek => "SetFilePointerEx failed with error code " ++ reason
  | .windows, .rename _ _ => "MoveFileExW failed with error code " ++ reason
  | .windows, .write => "WriteFile failed with error code " ++ reason

def close (w : RotatingLogWriter) : RotatingLogWriter :=
  { w with handle := false, currentSize := 0 }

def record (call : SystemCall) (answer : Answer) (w : RotatingLogWriter) : RotatingLogWriter :=
  { w with trace := w.trace ++ [(call, answer)] }

def answer (call : SystemCall) (w : RotatingLogWriter) : Answer := w.answers w.trace.length call

/-- A call other than a write; its error, if it has one. -/
def ask (call : SystemCall) (w : RotatingLogWriter) : Option String × RotatingLogWriter :=
  match w.answer call with
  | .done bytes => (none, w.record call (.done bytes))
  | .interrupted =>
    (some (w.systemError call "Interrupted system call"), w.record call .interrupted)
  | .failed reason => (some (w.systemError call reason), w.record call (.failed reason))

/-- The file is created unless it is there. -/
def createFile (w : RotatingLogWriter) : RotatingLogWriter :=
  { w with files := Function.update w.files 0 (some ((w.files 0).getD [])) }

def renameFile (source : Nat) (w : RotatingLogWriter) : RotatingLogWriter :=
  if w.files source = none then w
  else { w with
    files := Function.update (Function.update w.files (source + 1) (w.files source)) source none }

/-- The calls that `open` makes, up to the first that fails. -/
def openCalls : List SystemCall → RotatingLogWriter → Option String × RotatingLogWriter
  | [], w => (none, w)
  | call :: rest, w =>
    match w.ask call with
    | (some error, w) => (some error, w)
    | (none, w) => openCalls rest (if call = .create then w.createFile else w)

def callsOfOpen : Platform → List SystemCall
  | .linux => [.directory, .create, .size]
  | .windows => [.convert, .directory, .create, .size, .seek]

def openFile (w : RotatingLogWriter) : Option String × RotatingLogWriter :=
  let w := w.close
  if w.path = "" || w.maxSizeBytes = 0 || w.archiveCount < 0 then
    (some "invalid rotating log writer configuration", w)
  else
    match openCalls (callsOfOpen w.platform) w with
    | (some error, w) => (some error, w)
    | (none, w) =>
      (none, { w with handle := true, currentSize := ((w.files 0).getD []).length })

def renameFiles : Nat → RotatingLogWriter → Option String × RotatingLogWriter
  | 0, w => (none, w)
  | index + 1, w =>
    match w.ask (.rename index (index + 1)) with
    | (some error, w) => (some error, w)
    | (none, w) => renameFiles index (w.renameFile index)

def convertPath (w : RotatingLogWriter) : Option String × RotatingLogWriter :=
  match w.platform with
  | .linux => (none, w)
  | .windows => w.ask .convert

def rotate (w : RotatingLogWriter) : Option String × RotatingLogWriter :=
  match w.close.convertPath with
  | (some error, w) => (some error, w)
  | (none, w) =>
    if w.archiveCount = 0 then
      match w.ask .truncate with
      | (some error, w) => (some error, w)
      | (none, w) =>
        (none, { w with
          files := Function.update w.files 0 (some [])
          handle := true
          currentSize := 0
          rotations := w.rotations + 1 })
    else
      match renameFiles w.archiveCount.toNat w with
      | (some error, w) => (some error, w)
      | (none, w) => { w with rotations := w.rotations + 1 }.openFile

inductive Status where
  | running
  | done
  | failed (error : String)
  deriving DecidableEq, Repr

def put (bytes : List UInt8) (w : RotatingLogWriter) : RotatingLogWriter :=
  { w.record .write (.done bytes.length) with
    files := Function.update w.files 0 (some ((w.files 0).getD [] ++ bytes)) }

/-- The inner loop of `append`, for at most the given number of writes. -/
def writeChunk : Nat → List UInt8 → RotatingLogWriter → Status × RotatingLogWriter
  | _, [], w => (.done, w)
  | 0, _ :: _, w => (.running, w)
  | fuel + 1, byte :: rest, w =>
    match w.answer .write with
    | .interrupted => writeChunk fuel (byte :: rest) (w.record .write .interrupted)
    | .done bytes =>
      if bytes = 0 then (.failed (w.systemError .write ""), (w.record .write (.done 0)).close)
      else
        writeChunk fuel ((byte :: rest).drop bytes) (w.put ((byte :: rest).take bytes))
    | .failed reason =>
      (.failed (w.systemError .write reason), (w.record .write (.failed reason)).close)

/-- A full file is rotated before more is written. -/
def ready (w : RotatingLogWriter) : Option String × RotatingLogWriter :=
  if w.currentSize ≥ w.maxSizeBytes then w.rotate else (none, w)

/-- The outer loop of `append`, for at most the given numbers of writes to a file and of files. -/
def appendLoop (fuel : Nat) : Nat → List UInt8 → RotatingLogWriter → Status × RotatingLogWriter
  | _, [], w => (.done, w)
  | 0, _ :: _, w => (.running, w)
  | rounds + 1, byte :: rest, w =>
    match w.ready with
    | (some error, w) => (.failed error, w)
    | (none, w) =>
      let chunk := (byte :: rest).take (w.maxSizeBytes - w.currentSize)
      match writeChunk fuel chunk w with
      | (.done, w) =>
        appendLoop fuel rounds ((byte :: rest).drop chunk.length)
          { w with currentSize := w.currentSize + chunk.length }
      | (.running, w) => (.running, w)
      | (.failed error, w) => (.failed error, w)

/-- An append to a writer that has no file open opens it. -/
def opened (w : RotatingLogWriter) : Option String × RotatingLogWriter :=
  if w.handle then (none, w) else w.openFile

def append (fuel : Nat) (data : List UInt8) (w : RotatingLogWriter) : Status × RotatingLogWriter :=
  if data = [] then (.done, w)
  else
    match w.opened with
    | (some error, w) => (.failed error, w)
    | (none, w) => appendLoop fuel fuel data w

end RotatingLogWriter

end PmTiny
