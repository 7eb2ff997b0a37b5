import Mathlib.Data.List.Lex
import PmTiny.Lib.OrderedMap
import PmTiny.Wire.Responses

namespace PmTiny.Wire
set_option autoImplicit true
open StreamReader Persist

/-- The order of the keys of a `std::map`. -/
def textLess : Text → Text → Prop := List.Lex (· < ·)

instance byteOrder : IsStrictTotalOrder UInt8 (· < ·) where
  trichotomous a b hab hba := by
    rcases Decidable.em (a = b) with heq | hne
    · exact heq
    · rcases UInt8.lt_or_lt_of_ne hne with hlt | hlt
      · exact absurd hlt hab
      · exact absurd hlt hba
  irrefl a := UInt8.lt_irrefl a
  trans _ _ _ := UInt8.lt_trans

instance : IsStrictTotalOrder Text textLess where
  trichotomous := (List.Lex.trichotomous (· < ·)).trichotomous
  irrefl a h := (List.Lex.asymm (· < ·)).asymm a a h h
  trans _ _ _ := List.lex_trans UInt8.lt_trans

instance : DecidableRel textLess :=
  inferInstanceAs (DecidableRel (List.Lex ((· < ·) : UInt8 → UInt8 → Prop)))

inductive DaemonInfoPlatform where
  | linuxOs | androidOs | windowsOs
  deriving DecidableEq, Repr

inductive DaemonLogSink where
  | file | console | consoleFallback
  deriving DecidableEq, Repr

/-- An enumeration with a byte as its underlying type, up to a largest value. -/
structure ByteEnum (α : Type) where
  code : α → UInt8
  of : UInt8 → α
  maximum : UInt8
  of_code : ∀ a, of (code a) = a
  code_le : ∀ a, ¬code a > maximum

def platformEnum : ByteEnum DaemonInfoPlatform where
  code
    | .linuxOs => 0
    | .androidOs => 1
    | .windowsOs => 2
  of code := if code = 0 then .linuxOs else if code = 1 then .androidOs else .windowsOs
  maximum := 2
  of_code a := by cases a <;> rfl
  code_le a := by cases a <;> decide

def runModeEnum : ByteEnum DaemonRunMode where
  code
    | .foreground => 0
    | .daemon => 1
    | .service => 2
  of code := if code = 0 then .foreground else if code = 1 then .daemon else .service
  maximum := 2
  of_code a := by cases a <;> rfl
  code_le a := by cases a <;> decide

def runtimeStateEnum : ByteEnum DaemonRuntimeState where
  code
    | .running => 0
    | .reloading => 1
    | .stopping => 2
  of code := if code = 0 then .running else if code = 1 then .reloading else .stopping
  maximum := 2
  of_code a := by cases a <;> rfl
  code_le a := by cases a <;> decide

def logSinkEnum : ByteEnum DaemonLogSink where
  code
    | .file => 0
    | .console => 1
    | .consoleFallback => 2
  of code := if code = 0 then .file else if code = 1 then .console else .consoleFallback
  maximum := 2
  of_code a := by cases a <;> rfl
  code_le a := by cases a <;> decide

def configSourceEnum : ByteEnum DaemonConfigSource where
  code
    | .defaultValue => 0
    | .configFile => 1
    | .environment => 2
    | .commandLine => 3
    | .derived => 4
  of code :=
    if code = 0 then .defaultValue
    else if code = 1 then .configFile
    else if code = 2 then .environment
    else if code = 3 then .commandLine
    else .derived
  maximum := 4
  of_code a := by cases a <;> rfl
  code_le a := by cases a <;> decide

/-- `read_bool` of the daemon information. -/
def readByte : FrameReader Bool := do
  let value ← uint8
  refuseIf (value > 1) "invalid daemon-info boolean"
  pure (value != 0)

def readEnum (enum : ByteEnum α) (error : String) : FrameReader α := do
  let value ← uint8
  refuseIf (value > enum.maximum) error
  pure (enum.of value)

def daemonInfoMaxItems : UInt32 := 1024

def daemonInfoMaxSources : UInt32 := 64

def appendVector (items : List Item) : List Item :=
  .check (items.length ≤ daemonInfoMaxItems.toNat)
    (.protocolError "daemon-info item count exceeds limit") :: .num 4 items.length :: items

def readVector (r : FrameReader α) : FrameReader (List α) := do
  let count ← uint32
  refuseIf (count > daemonInfoMaxItems) "invalid daemon-info item count"
  r.many count.toNat

theorem run_readByte_bind {k : Bool → FrameReader α} {value : Bool} {rest : List UInt8} :
    (readByte >>= k).run ((Item.byte value).bytes ++ rest) = (k value).run rest := by
  apply run_bind
  rw [readByte, Item.byte, run_uint8_bind]
  cases value <;> rfl

theorem run_readEnum_bind {enum : ByteEnum α} {k : α → FrameReader γ} {rest : List UInt8} (a : α) :
    (readEnum enum error >>= k).run ((Item.uint8 (enum.code a)).bytes ++ rest) =
    (k a).run rest := by
  apply run_bind
  rw [readEnum, run_uint8_bind, run_refuseIf_bind (enum.code_le a), enum.of_code, run_pure]

theorem run_readVector_bind {r : FrameReader α} {item : α → Item} {k : List α → FrameReader γ}
    {values : List α} {rest : List UInt8} (hlength : values.length ≤ 1024)
    (hr : ∀ a ∈ values, r.Reads (item a).bytes a) :
    (readVector r >>= k).run ((appendVector (values.map item)).flatMap Item.bytes ++ rest) =
      (k values).run rest := by
  have hvalue : (UInt32.ofNat values.length).toNat = values.length :=
    UInt32.toNat_ofNat_of_lt' (by rw [UInt32.size]; omega)
  have hcount : ¬UInt32.ofNat values.length > daemonInfoMaxItems := by
    rw [gt_iff_lt, UInt32.lt_iff_toNat_lt, hvalue]
    exact Nat.not_lt.2 hlength
  have hbytes : (appendVector (values.map item)).flatMap Item.bytes =
      (Item.uint32 (UInt32.ofNat values.length)).bytes ++ values.flatMap fun a =>
        (item a).bytes := by
    rw [appendVector, List.flatMap_cons, List.flatMap_cons, List.flatMap_map, List.length_map,
      Item.uint32, hvalue]
    rfl
  have hmany := reads_many hr
  apply run_bind
  rw [hbytes, List.append_assoc, readVector, run_uint32_bind, run_refuseIf_bind hcount, hvalue]
  exact hmany.append rest

structure DaemonInfoSnapshot where
  version : Text := []
  protocolVersion : Int32 := 3
  platform : DaemonInfoPlatform := .linuxOs
  pid : Int64 := 0
  uptimeMs : Int64 := 0
  runMode : DaemonRunMode := .foreground
  state : DaemonRuntimeState := .running
  singleThreadedControlLoop : Bool := true
  persistenceActive : Bool := false
  fileConfigCount : UInt32 := 0
  runtimeDefinitionCount : UInt32 := 0
  configFile : Text := []
  configLoaded : Bool := false
  homeDir : Text := []
  pidFile : Text := []
  programConfigFile : Text := []
  appEnvironDir : Text := []
  appLogDir : Text := []
  daemonLogFile : Text := []
  udsAddress : Text := []
  udsAbstractNamespace : Bool := false
  allowedUids : List UInt32 := []
  allowedGids : List UInt32 := []
  namedPipe : Text := []
  pipeSddl : Text := []
  serviceName : Text := []
  requestedProcessTreeMode : Text := []
  effectiveProcessTreeMode : Text := []
  cgroupRoot : Text := []
  subreaperEnabled : Bool := false
  processTreeDegraded : Bool := false
  processTreeDegradationReason : Text := []
  logLevel : Text := []
  logMaxSizeKb : Int32 := 0
  logArchiveCount : Int32 := 0
  logConsoleMirror : Bool := false
  logSink : DaemonLogSink := .console
  logDegraded : Bool := false
  logLastError : Text := []
  dynamicCreate : Bool := true
  pty : Bool := false
  switchUser : Bool := false
  oomAdjust : Bool := false
  failureAction : Bool := false
  serviceMode : Bool := false
  processTreeBackends : List Text := []
  sources : OrderedMap textLess DaemonConfigSource := .empty
  deriving DecidableEq

def daemonInfoSchemaVersion : Int32 := 1

/-- The keys of `source_fields`. -/
def sourceKeys : List Text := sourceFields.map fun field => field.toUTF8.data.toList

def appendSource (entry : Text × DaemonConfigSource) : List Item :=
  [.check (entry.1 ∈ sourceKeys) (.protocolError "unknown daemon-info source key"),
    .text entry.1, .uint8 (configSourceEnum.code entry.2)]

def appendDaemonInfo (s : DaemonInfoSnapshot) : List Item :=
  [Item.int32 daemonInfoSchemaVersion, .text s.version, .int32 s.protocolVersion,
    .uint8 (platformEnum.code s.platform), .int64 s.pid, .int64 s.uptimeMs,
    .uint8 (runModeEnum.code s.runMode), .uint8 (runtimeStateEnum.code s.state),
    .byte s.singleThreadedControlLoop, .byte s.persistenceActive, .uint32 s.fileConfigCount,
    .uint32 s.runtimeDefinitionCount, .text s.configFile, .byte s.configLoaded, .text s.homeDir,
    .text s.pidFile, .text s.programConfigFile, .text s.appEnvironDir, .text s.appLogDir,
    .text s.daemonLogFile, .text s.udsAddress, .byte s.udsAbstractNamespace] ++
  (appendVector (s.allowedUids.map .uint32) ++
  (appendVector (s.allowedGids.map .uint32) ++
  ([Item.text s.namedPipe, .text s.pipeSddl, .text s.serviceName,
    .text s.requestedProcessTreeMode, .text s.effectiveProcessTreeMode, .text s.cgroupRoot,
    .byte s.subreaperEnabled,
    .byte s.processTreeDegraded, .text s.processTreeDegradationReason, .text s.logLevel,
    .int32 s.logMaxSizeKb, .int32 s.logArchiveCount, .byte s.logConsoleMirror,
    .uint8 (logSinkEnum.code s.logSink), .byte s.logDegraded, .text s.logLastError,
    .byte s.dynamicCreate, .byte s.pty, .byte s.switchUser, .byte s.oomAdjust,
    .byte s.failureAction, .byte s.serviceMode] ++
  (appendVector (s.processTreeBackends.map .text) ++
  (Item.check (s.sources.entries.length ≤ daemonInfoMaxSources.toNat)
      (.protocolError "daemon-info source count exceeds limit") ::
    .num 4 s.sources.entries.length :: s.sources.entries.flatMap appendSource)))))

/-- The sources that follow, put into the map one after the other. -/
def readSources : Nat → OrderedMap textLess DaemonConfigSource →
    FrameReader (OrderedMap textLess DaemonConfigSource)
  | 0, sources => pure sources
  | n + 1, sources => do
    let key ← text
    refuseIf (key ∉ sourceKeys) "unknown daemon-info source key"
    refuseIf (key ∈ sources.keys) "duplicate daemon-info source key"
    let source ← readEnum configSourceEnum "invalid daemon-info config source"
    readSources n (sources.insert key source)

/-- The fields of the information, up to the check that none of the payload is left. -/
def readDaemonInfoFields : FrameReader DaemonInfoSnapshot := do
  let schema ← int32
  refuseIf (schema ≠ daemonInfoSchemaVersion) "unsupported daemon-info schema"
  let version ← text
  let protocolVersion ← int32
  let platform ← readEnum platformEnum "invalid daemon-info platform"
  let pid ← int64
  let uptimeMs ← int64
  let runMode ← readEnum runModeEnum "invalid daemon-info run mode"
  let state ← readEnum runtimeStateEnum "invalid daemon-info runtime state"
  let singleThreadedControlLoop ← readByte
  let persistenceActive ← readByte
  let fileConfigCount ← uint32
  let runtimeDefinitionCount ← uint32
  let configFile ← text
  let configLoaded ← readByte
  let homeDir ← text
  let pidFile ← text
  let programConfigFile ← text
  let appEnvironDir ← text
  let appLogDir ← text
  let daemonLogFile ← text
  let udsAddress ← text
  let udsAbstractNamespace ← readByte
  let allowedUids ← readVector uint32
  let allowedGids ← readVector uint32
  let namedPipe ← text
  let pipeSddl ← text
  let serviceName ← text
  let requestedProcessTreeMode ← text
  let effectiveProcessTreeMode ← text
  let cgroupRoot ← text
  let subreaperEnabled ← readByte
  let processTreeDegraded ← readByte
  let processTreeDegradationReason ← text
  let logLevel ← text
  let logMaxSizeKb ← int32
  let logArchiveCount ← int32
  let logConsoleMirror ← readByte
  let logSink ← readEnum logSinkEnum "invalid daemon-info log sink"
  let logDegraded ← readByte
  let logLastError ← text
  let dynamicCreate ← readByte
  let pty ← readByte
  let switchUser ← readByte
  let oomAdjust ← readByte
  let failureAction ← readByte
  let serviceMode ← readByte
  let processTreeBackends ← readVector text
  let sourceCount ← uint32
  refuseIf (sourceCount > daemonInfoMaxSources) "invalid daemon-info source count"
  let sources ← readSources sourceCount.toNat .empty
  pure {
    version, protocolVersion, platform, pid, uptimeMs, runMode, state, singleThreadedControlLoop
    persistenceActive, fileConfigCount, runtimeDefinitionCount, configFile, configLoaded, homeDir
    pidFile, programConfigFile, appEnvironDir, appLogDir, daemonLogFile, udsAddress
    udsAbstractNamespace, allowedUids, allowedGids, namedPipe, pipeSddl, serviceName
    requestedProcessTreeMode, effectiveProcessTreeMode, cgroupRoot, subreaperEnabled
    processTreeDegraded, processTreeDegradationReason, logLevel, logMaxSizeKb, logArchiveCount
    logConsoleMirror, logSink, logDegraded, logLastError, dynamicCreate, pty, switchUser, oomAdjust
    failureAction, serviceMode, processTreeBackends, sources }

def readDaemonInfo (payload : List UInt8) : Except String DaemonInfoSnapshot := do
  let read ← readDaemonInfoFields.run payload
  rejectIf (read.2.length ≠ 0) "trailing daemon-info payload"
  return read.1

structure ReadableSources (sources : OrderedMap textLess DaemonConfigSource) : Prop where
  count : sources.entries.length ≤ 64
  known : ∀ entry ∈ sources.entries, entry.1 ∈ sourceKeys
  texts : ∀ entry ∈ sources.entries, entry.1.length ≤ protocolV3MaxPayload

theorem readSources_reads {later : List (Text × DaemonConfigSource)}
    (sources whole : OrderedMap textLess DaemonConfigSource)
    (hwhole : whole.entries = sources.entries ++ later)
    (hknown : ∀ entry ∈ later, entry.1 ∈ sourceKeys)
    (htexts : ∀ entry ∈ later, entry.1.length ≤ protocolV3MaxPayload) (rest : List UInt8) :
    (readSources later.length sources).run
    ((later.flatMap appendSource).flatMap Item.bytes ++ rest) =
      .ok (whole, rest) := by
  induction later generalizing sources with
  | nil =>
    rw [List.append_nil] at hwhole
    rw [OrderedMap.ext hwhole]
    rfl
  | cons entry later ih =>
    obtain ⟨hkey, hknown⟩ := List.forall_mem_cons.1 hknown
    obtain ⟨htext, htexts⟩ := List.forall_mem_cons.1 htexts
    have hsorted := whole.sorted
    rw [hwhole, List.pairwise_append] at hsorted
    have hlast : ∀ earlier ∈ sources.entries, textLess earlier.1 entry.1 :=
      fun earlier hearlier => hsorted.2.2 earlier hearlier entry List.mem_cons_self
    have hfresh : entry.1 ∉ sources.keys := by
      intro hmem
      obtain ⟨earlier, hearlier, hsame⟩ := List.mem_map.1 hmem
      have hless := hlast earlier hearlier
      rw [hsame] at hless
      exact irrefl_of textLess _ hless
    have hnext : whole.entries = (sources.insert entry.1 entry.2).entries ++ later := by
      rw [OrderedMap.insert_last hlast, hwhole, List.append_assoc, List.singleton_append]
    have hcheck : (Item.check (entry.1 ∈ sourceKeys)
        (.protocolError "unknown daemon-info source key")).bytes = [] := rfl
    rw [List.flatMap_cons, bytes_append, appendSource, List.length_cons, readSources, bytes_cons,
      hcheck, List.nil_append, bytes_cons, bytes_cons, bytes_nil, run_text_bind htext,
      run_refuseIf_bind (not_not.2 hkey), run_refuseIf_bind hfresh, run_readEnum_bind]
    exact ih _ hnext hknown htexts

/-- The information that the reader accepts. -/
structure DaemonInfoSnapshot.Readable (s : DaemonInfoSnapshot) : Prop where
  version : s.version.length ≤ protocolV3MaxPayload
  configFile : s.configFile.length ≤ protocolV3MaxPayload
  homeDir : s.homeDir.length ≤ protocolV3MaxPayload
  pidFile : s.pidFile.length ≤ protocolV3MaxPayload
  programConfigFile : s.programConfigFile.length ≤ protocolV3MaxPayload
  appEnvironDir : s.appEnvironDir.length ≤ protocolV3MaxPayload
  appLogDir : s.appLogDir.length ≤ protocolV3MaxPayload
  daemonLogFile : s.daemonLogFile.length ≤ protocolV3MaxPayload
  udsAddress : s.udsAddress.length ≤ protocolV3MaxPayload
  allowedUids : s.allowedUids.length ≤ 1024
  allowedGids : s.allowedGids.length ≤ 1024
  namedPipe : s.namedPipe.length ≤ protocolV3MaxPayload
  pipeSddl : s.pipeSddl.length ≤ protocolV3MaxPayload
  serviceName : s.serviceName.length ≤ protocolV3MaxPayload
  requestedProcessTreeMode : s.requestedProcessTreeMode.length ≤ protocolV3MaxPayload
  effectiveProcessTreeMode : s.effectiveProcessTreeMode.length ≤ protocolV3MaxPayload
  cgroupRoot : s.cgroupRoot.length ≤ protocolV3MaxPayload
  processTreeDegradationReason : s.processTreeDegradationReason.length ≤ protocolV3MaxPayload
  logLevel : s.logLevel.length ≤ protocolV3MaxPayload
  logLastError : s.logLastError.length ≤ protocolV3MaxPayload
  backends : s.processTreeBackends.length ≤ 1024
  backendTexts : ∀ backend ∈ s.processTreeBackends, backend.length ≤ protocolV3MaxPayload
  sources : ReadableSources s.sources

theorem run_readUids_bind {k : List UInt32 → FrameReader α} {values : List UInt32}
    {rest : List UInt8} (hlength : values.length ≤ 1024) :
    (readVector uint32 >>= k).run ((appendVector (values.map .uint32)).flatMap Item.bytes ++ rest) =
      (k values).run rest :=
  run_readVector_bind hlength fun _ _ => run_uint32_eq_ok.2 (List.append_nil _).symm

theorem run_readTexts_bind {k : List Text → FrameReader α} {values : List Text}
    {rest : List UInt8} (hlength : values.length ≤ 1024)
    (htexts : ∀ value ∈ values, value.length ≤ protocolV3MaxPayload) :
    (readVector text >>= k).run ((appendVector (values.map .text)).flatMap Item.bytes ++ rest) =
      (k values).run rest :=
  run_readVector_bind hlength fun value hvalue =>
    run_text_eq_ok.2 ⟨htexts value hvalue, (List.append_nil _).symm⟩

theorem bytes_check (passed : Bool) (failure : Failure) (rest : List UInt8) :
    (Item.check passed failure).bytes ++ rest = rest := List.nil_append rest

theorem DaemonInfoSnapshot.Readable.reads {s : DaemonInfoSnapshot} (h : s.Readable) :
    readDaemonInfoFields.Reads ((appendDaemonInfo s).flatMap Item.bytes) s := by
  have hvalue : (UInt32.ofNat s.sources.entries.length).toNat = s.sources.entries.length :=
    UInt32.toNat_ofNat_of_lt' (Nat.lt_of_le_of_lt h.sources.count (by decide))
  have hcount : ¬UInt32.ofNat s.sources.entries.length > daemonInfoMaxSources := by
    rw [gt_iff_lt, UInt32.lt_iff_toNat_lt, hvalue]
    exact Nat.not_lt.2 h.sources.count
  have hnum : (Item.num 4 s.sources.entries.length).bytes =
      (Item.uint32 (UInt32.ofNat s.sources.entries.length)).bytes := by
    rw [Item.uint32, hvalue]
  have hsources := readSources_reads .empty s.sources rfl h.sources.known h.sources.texts []
  rw [Reads, ← List.append_nil ((appendDaemonInfo s).flatMap Item.bytes)]
  simp only [readDaemonInfoFields, appendDaemonInfo, bytes_append, bytes_cons, bytes_nil, hnum,
    bytes_check, run_int32_bind, run_int64_bind, run_uint32_bind, run_readByte_bind,
    run_readEnum_bind, run_refuseIf_bind (not_not.2 rfl), run_text_bind h.version,
    run_text_bind h.configFile, run_text_bind h.homeDir, run_text_bind h.pidFile,
    run_text_bind h.programConfigFile, run_text_bind h.appEnvironDir, run_text_bind h.appLogDir,
    run_text_bind h.daemonLogFile, run_text_bind h.udsAddress, run_readUids_bind h.allowedUids,
    run_readUids_bind h.allowedGids, run_text_bind h.namedPipe, run_text_bind h.pipeSddl,
    run_text_bind h.serviceName, run_text_bind h.requestedProcessTreeMode,
    run_text_bind h.effectiveProcessTreeMode, run_text_bind h.cgroupRoot,
    run_text_bind h.processTreeDegradationReason, run_text_bind h.logLevel,
    run_text_bind h.logLastError, run_readTexts_bind h.backends h.backendTexts,
    run_refuseIf_bind hcount, hvalue, run_bind hsources, run_pure]

theorem passes_appendVector {items : List Item} (hlength : items.length ≤ 1024)
    (h : ∀ item ∈ items, item.Passes) : ∀ item ∈ appendVector items, item.Passes := by
  rw [appendVector, List.forall_mem_cons, List.forall_mem_cons]
  exact ⟨Item.passes_check.2 (decide_eq_true hlength), Item.passes_num, h⟩

theorem ReadableSources.passes {sources : OrderedMap textLess DaemonConfigSource}
    (h : ReadableSources sources) : ∀ item ∈ sources.entries.flatMap appendSource, item.Passes := by
  intro item hitem
  obtain ⟨entry, hentry, hitem⟩ := List.mem_flatMap.1 hitem
  have hknown := h.known entry hentry
  have htext := h.texts entry hentry
  rw [appendSource, List.mem_cons, List.mem_cons, List.mem_singleton] at hitem
  rcases hitem with rfl | rfl | rfl
  · exact Item.passes_check.2 (decide_eq_true hknown)
  · exact Item.passes_text.2 htext
  · exact Item.passes_num

theorem DaemonInfoSnapshot.Readable.carries {s : DaemonInfoSnapshot} (h : s.Readable) :
    Carries (appendDaemonInfo s) readDaemonInfoFields s := by
  apply carries_of_reads _ h.reads
  have huids : (s.allowedUids.map Item.uint32).length ≤ 1024 := by
    rw [List.length_map]
    exact h.allowedUids
  have hgids : (s.allowedGids.map Item.uint32).length ≤ 1024 := by
    rw [List.length_map]
    exact h.allowedGids
  have hbackends : (s.processTreeBackends.map Item.text).length ≤ 1024 := by
    rw [List.length_map]
    exact h.backends
  have htexts : ∀ item ∈ s.processTreeBackends.map Item.text, item.Passes :=
    List.forall_mem_map.2 fun backend hbackend =>
      Item.passes_text.2 (h.backendTexts backend hbackend)
  have hnums : ∀ values : List UInt32, ∀ item ∈ values.map Item.uint32, item.Passes :=
    fun values => List.forall_mem_map.2 fun _ _ => Item.passes_num
  have hcheck : (Item.check (s.sources.entries.length ≤ daemonInfoMaxSources.toNat)
      (.protocolError "daemon-info source count exceeds limit")).Passes :=
    Item.passes_check.2 (decide_eq_true h.sources.count)
  simp only [appendDaemonInfo, List.forall_mem_append]
  refine ⟨?_, passes_appendVector huids (hnums _), passes_appendVector hgids (hnums _), ?_,
    passes_appendVector hbackends htexts, ?_⟩
  · simp [Item.int32, Item.int64, Item.uint8, Item.uint32, Item.byte, h.version, h.configFile,
      h.homeDir, h.pidFile, h.programConfigFile, h.appEnvironDir, h.appLogDir, h.daemonLogFile,
      h.udsAddress]
  · simp [Item.int32, Item.uint8, Item.byte, h.namedPipe, h.pipeSddl, h.serviceName,
      h.requestedProcessTreeMode, h.effectiveProcessTreeMode, h.cgroupRoot,
      h.processTreeDegradationReason, h.logLevel, h.logLastError]
  · rw [List.forall_mem_cons, List.forall_mem_cons]
    exact ⟨hcheck, Item.passes_num, h.sources.passes⟩

theorem readDaemonInfo_eq_ok : readDaemonInfo payload = .ok s ↔
    readDaemonInfoFields.Reads payload s := by
  simp only [readDaemonInfo, bind_eq_ok, rejectIf_eq_ok, not_not, List.length_eq_zero_iff]
  constructor
  · rintro ⟨⟨s', rest⟩, hread, u, hrest, h⟩
    subst hrest
    cases h
    exact hread
  · intro hread
    exact ⟨(s, []), hread, (), rfl, rfl⟩

/-- What the daemon answers is read back as it was written; a process list, a snapshot and a log
response also with more bytes after them. An answer that is cut off is refused. -/
theorem response_codecs :
    (∀ entries, ReadableProcessList entries →
      Carries (appendProcessList entries) readProcessList entries) ∧
    (∀ snapshot : InspectSnapshot, snapshot.Readable →
      Carries (appendInspectSnapshot snapshot) readInspectSnapshot snapshot) ∧
    (∀ response : ProgramLogResponse, response.Readable →
      Carries (appendProgramLogResponse response) readProgramLogResponse response) ∧
    ∀ s : DaemonInfoSnapshot, s.Readable → ∃ frame, fappend (appendDaemonInfo s) = .ok frame ∧
      readDaemonInfo frame = .ok s ∧
      ∀ l m, m ≠ [] → frame = l ++ m → ∃ what, readDaemonInfo l = .error what := by
  refine ⟨fun _ h => h.carries, fun _ h => h.carries, fun _ h => h.carries, fun s h => ?_⟩
  obtain ⟨frame, hframe, hread, hcut⟩ := h.carries
  have hwhole := hread []
  rw [List.append_nil] at hwhole
  refine ⟨frame, hframe, readDaemonInfo_eq_ok.2 hwhole, ?_⟩
  intro l m hm hl
  obtain ⟨what, hwhat⟩ := hcut l m hm hl
  cases hresult : readDaemonInfo l with
  | error e => exact ⟨e, rfl⟩
  | ok s' => cases hwhat.symm.trans (readDaemonInfo_eq_ok.1 hresult)

/-- The entry of a program that runs on its second generation. -/
def webEntry : ProcessListEntry where
  pid := 4120
  name := "web".toUTF8.data.toList
  cwd := "/srv".toUTF8.data.toList
  executable := "./web".toUTF8.data.toList
  args := ["--port".toUTF8.data.toList, "8080".toUTF8.data.toList, []]
  restartCount := 1
  state := 2
  hasUptime := true
  uptimeMs := 5000000000
  hasRss := true
  rssKib := 20480
  daemon := true
  pty := .enabled
  dependsOn := ["db".toUTF8.data.toList, "cache".toUTF8.data.toList]
  restartPending := true
  restartDelayRemainingMs := 1500
  restartAttemptsInWindow := 3
  restartSuppressed := true
  restartSuppressionReason := "limit".toUTF8.data.toList
  generation := 2
  ready := true
  heartbeatEnabled := true
  hasLastExit := true
  lastExitReason := "signaled".toUTF8.data.toList
  lastExitCode := 9
  processTreeBackend := "cgroup".toUTF8.data.toList
  processTreeDegraded := true
  processTreeDegradationReason := "no kill file".toUTF8.data.toList
  configSource := "runtime".toUTF8.data.toList
  logDegraded := true
  logDroppedBytes := 18446744073709551615
  logLastError := "no space".toUTF8.data.toList
  logRetryRemainingMs := 250
  logPaths := ["/var/log/web.log".toUTF8.data.toList]

/-- The same program as `inspect` shows it. -/
def webSnapshot : InspectSnapshot where
  config := webRequest.config
  runtime :=
    { pid := 4120
      generation := 2
      state := 2
      restartCount := 1
      ready := true
      heartbeatEnabled := true
      hasLastTickAge := true
      lastTickAgeMs := 40
      hasUptime := true
      uptimeMs := 5000000000
      hasRss := true
      rssKib := 20480
      pty := .enabled
      restartAttemptsInWindow := 3
      restartSuppressionReason := "limit".toUTF8.data.toList
      hasLastExit := true
      lastExitReason := .signaled
      lastExitCode := 9
      processTreeBackend := "cgroup".toUTF8.data.toList
      configSource := "runtime".toUTF8.data.toList
      logDegraded := true
      logDroppedBytes := 18446744073709551615
      logLastError := "no space".toUTF8.data.toList
      logRetryRemainingMs := 250
      logPaths := ["/var/log/web.log".toUTF8.data.toList] }

/-- The history of its first generation. -/
def webHistory : ProgramLogResponse where
  mode := .history
  generation := 1
  lastPid := 4096
  lastExitTimeUnixMs := 1700000000000
  exitReason := "signaled".toUTF8.data.toList
  exitCode := 9

/-- The information about a daemon that runs as a service and saves its programs. -/
def serviceInfo : DaemonInfoSnapshot where
  version := "4.0.0".toUTF8.data.toList
  platform := .androidOs
  pid := 412
  uptimeMs := 86400000
  runMode := .service
  state := .stopping
  singleThreadedControlLoop := false
  persistenceActive := true
  fileConfigCount := 4
  runtimeDefinitionCount := 2
  configFile := "/etc/pm_tiny.yaml".toUTF8.data.toList
  configLoaded := true
  homeDir := "/root/.pm_tiny".toUTF8.data.toList
  udsAddress := "pm_tiny".toUTF8.data.toList
  udsAbstractNamespace := true
  allowedUids := [0, 1000]
  allowedGids := [4294967295]
  requestedProcessTreeMode := "auto".toUTF8.data.toList
  effectiveProcessTreeMode := "cgroup".toUTF8.data.toList
  logMaxSizeKb := 4096
  logArchiveCount := 3
  logSink := .consoleFallback
  logDegraded := true
  logLastError := "no space".toUTF8.data.toList
  pty := true
  processTreeBackends := ["cgroup".toUTF8.data.toList, "process_group".toUTF8.data.toList]
  sources :=
    (OrderedMap.empty.insert "uds_address".toUTF8.data.toList .commandLine).insert
    "home_dir".toUTF8.data.toList .environment

theorem response_codecs_web :
    Carries (appendProcessList [webEntry, {}]) readProcessList [webEntry, {}] ∧
    Carries (appendInspectSnapshot webSnapshot) readInspectSnapshot webSnapshot ∧
    Carries (appendProgramLogResponse webHistory) readProgramLogResponse webHistory ∧
    ∃ frame, fappend (appendDaemonInfo serviceInfo) = .ok frame ∧
      readDaemonInfo frame = .ok serviceInfo := by
  have hentries : ReadableProcessList [webEntry, {}] := by
    refine ⟨by decide, List.forall_mem_cons.2 ⟨?_, List.forall_mem_singleton.2 ?_⟩⟩
    all_goals
      constructor
      case args | dependsOn | logPaths => constructor <;> decide +kernel
      all_goals decide +kernel
  have hruntime : webSnapshot.runtime.Readable := by
    constructor
    case logPaths => constructor <;> decide +kernel
    all_goals decide +kernel
  have hhistory : webHistory.Readable := by
    constructor <;> decide +kernel
  have hinfo : serviceInfo.Readable := by
    constructor
    case sources => constructor <;> decide +kernel
    all_goals decide +kernel
  obtain ⟨hlist, hinspect, hlog, hdaemon⟩ := response_codecs
  obtain ⟨frame, hframe, hread, -⟩ := hdaemon serviceInfo hinfo
  exact ⟨hlist _ hentries, hinspect _ ⟨webRequest_writable, hruntime⟩, hlog _ hhistory,
    frame, hframe, hread⟩

end PmTiny.Wire
