import PmTiny.Cli.CliResponse
import PmTiny.Safety.ReplyBodies

namespace PmTiny.Cli
set_option autoImplicit true
open StreamReader Wire

/-- The request that the functions of `pm_funcs` send for a command, with the options that they give
for its response. -/
def ParsedCommand.Asks (command : ParsedCommand) (options : GivenOptions) : Request → Prop
  | .list => command.kind = .list ∧ options.list = true ∨
      command.kind = .graph ∧ options.graph = true
  | .info => command.kind = .info
  | .version => command.kind = .version
  | .save => command.kind = .save
  | .reload => command.kind = .reload
  | .quit => command.kind = .quit
  | .stop name => command.kind = .stop ∧ command.name = name
  | .remove name => command.kind = .remove ∧ command.name = name
  | .inspect name => command.kind = .inspect ∧ command.name = name
  | .start request => command.kind = .start ∧ command.start.name = request.name ∧
      command.start.showLog = request.showLog ∧
      (command.start.create = true ↔ request.mode = .create)
  | .restart name showLog => command.kind = .restart ∧ command.name = name ∧
      command.showLog = showLog ∧ command.logHistory = false
  | .log name mode => command.kind = .log ∧ command.name = name ∧
      mode = if command.logHistory then .history else .live
  | .appReady _ | .appTick _ | .malformed _ => False

/-- The numbers of a response fit their types, and its lists the limits of the reader. -/
structure Legible (d : Details) (r : Registry) (frame : Frame) : Prop where
  count : frame.request = .list → r.pmTinyProgs.length ≤ 100000
  list : frame.request = .list → ∀ p ∈ r.pmTinyProgs,
    (d.config p).Legible ∧ (d.runtime p).Legible
  inspect : ∀ name p, frame.request = .inspect name → r.findProg name = some p →
    (d.config p).Legible ∧ (d.runtime p).Legible
  start : ∀ response, frame.reply.body = .start response → response.blockedBy.length ≤ 100000
  generation : ∀ response, frame.reply.body = .log response → response.generation < 2 ^ 64
  exitTime : ∀ response, frame.reply.body = .log response → response.lastExitTimeUnixMs < 2 ^ 63
  lastPid : ∀ response pid, frame.reply.body = .log response → response.lastPid = some pid →
    0 < pid ∧ pid < 2 ^ 63

def shownSnapshot (d : Details) (r : Registry) (command : ParsedCommand) (clientVersion : Text) :
    Request → Output
  | .list =>
    let entries := r.pmTinyProgs.map fun p => (d.entry p).wire
    if command.kind = .graph then .dependencyGraph entries else .processList entries
  | .info => .daemonInfo (makeDaemonInfo r d.daemon).wire command.infoJson
  | .version => .text (utf8 "pm: " ++ clientVersion ++ utf8 "\npm_tiny: " ++
      utf8 d.daemon.version ++ [newline])
  | .inspect name => (r.findProg name).elim (.text []) fun p =>
      .inspectSnapshot ⟨(d.config p).wire, (d.runtime p).wire⟩
  | _ => .text []

/-- What a command makes of a response, in terms of what the daemon put into it. It takes a history
for incomplete when the program has lost the pid of its last generation. -/
def understood (d : Details) (r : Registry) (command : ParsedCommand) (clientVersion : Text)
    (frame : Frame) : Except String CliResponseResult :=
  if frame.reply.status ≠ 0 then
    .ok { stderrText := errorText (Int32.ofInt frame.reply.status) (utf8 frame.reply.message) }
  else
    let result : CliResponseResult := { success := true, postList := shouldPostList command }
    match frame.reply.body with
    | .none => .ok result
    | .snapshot =>
      .ok { result with stdout := shownSnapshot d r command clientVersion frame.request }
    | .start response => .ok (reportStart command response.wire result)
    | .pid pid => .ok { result with daemonPid := (Int32.ofInt pid).toInt64 }
    | .log response =>
      if response.mode = .history ∧ response.lastPid = none then
        .error "incomplete program-log history metadata"
      else
        .ok { result with
          logResponse := response.wire
          stdout := if command.kind = .log ∧ command.logHistory then
            .programLogHistoryHeader (utf8 command.name) response.wire else .text []
          streamExpected := true }

section

variable {d : Details} {r : Registry} {frame : Frame} {payload body : List UInt8}
  {command : ParsedCommand} {clientVersion message : Text} {options : GivenOptions}

theorem payload_eq (hframe : fappendAll (frame.fields d r) = .ok payload) :
    ∃ body, fappendAll (bodyFields d r frame.request frame.reply.body) = .ok body ∧
      (utf8 frame.reply.message).length ≤ protocolV3MaxPayload ∧
      payload = (Item.int32 (Int32.ofInt frame.reply.status)).bytes ++
        ((Item.text (utf8 frame.reply.message)).bytes ++ body) := by
  have hpasses := Field.passes_of_ok hframe
  rw [Frame.fields, List.forall_mem_cons, List.forall_mem_cons, Field.passes_str] at hpasses
  obtain ⟨-, hmessage, hrest⟩ := hpasses
  obtain ⟨body, hbody⟩ := (fappendAll_ok_iff _).2 hrest
  refine ⟨body, hbody, hmessage, ?_⟩
  rw [Wire.fappendAll_eq hframe, Wire.fappendAll_eq hbody, Frame.fields, List.flatMap_cons,
    List.flatMap_cons, bytes_int32, bytes_str]

def Splits (payload : List UInt8) (status : Int32) (message : Text) (body : List UInt8) : Prop :=
  ∃ rest, int32.run payload = .ok (status, rest) ∧ text.run rest = .ok (message, body)

theorem splits_payload (status : Int32) (body : List UInt8)
    (hmessage : message.length ≤ protocolV3MaxPayload) :
    Splits ((Item.int32 status).bytes ++ ((Item.text message).bytes ++ body)) status message body :=
  ⟨_, run_int32_eq_ok.2 rfl, run_text_eq_ok.2 ⟨hmessage, rfl⟩⟩

theorem interpret_refused {status : Int32} (h : Splits payload status message body)
    (hstatus : status ≠ 0) :
    interpretControlResponse command payload clientVersion options =
      .ok { stderrText := errorText status message } := by
  obtain ⟨rest, hread, htext⟩ := h
  simp only [interpretControlResponse, hread, htext, bind, Except.bind, if_pos hstatus]
  rfl

def ParsedCommand.Silent (command : ParsedCommand) : Prop :=
  actionIsSilent command.kind = true ∧ command.kind ≠ .quit ∧
    (command.kind = .restart → command.showLog = false)

theorem silent_of_kind (hkind : command.kind = .stop ∨ command.kind = .remove ∨
    command.kind = .save ∨ command.kind = .reload) : command.Silent := by
  rcases hkind with h | h | h | h <;> simp [ParsedCommand.Silent, h, actionIsSilent]

theorem silent_restart (hkind : command.kind = .restart) (hlog : command.showLog = false) :
    command.Silent := by
  simp [ParsedCommand.Silent, hkind, hlog, actionIsSilent]

theorem interpret_silent (h : Splits payload 0 message body) (hcommand : command.Silent) :
    interpretControlResponse command payload clientVersion options =
      .ok { success := true, postList := shouldPostList command } := by
  obtain ⟨rest, hread, htext⟩ := h
  obtain ⟨hsilent, hquit, hlog⟩ := hcommand
  simp only [interpretControlResponse, hread, htext, bind, Except.bind]
  cases hkind : command.kind with
  | restart => simp [hlog hkind, actionIsSilent, pure, Except.pure]
  | stop => simp [actionIsSilent, pure, Except.pure]
  | remove => simp [actionIsSilent, pure, Except.pure]
  | save => simp [actionIsSilent, pure, Except.pure]
  | reload => simp [actionIsSilent, pure, Except.pure]
  | quit => exact absurd hkind hquit
  | _ =>
    rw [hkind] at hsilent
    cases hsilent

theorem interpret_list {entries : List Wire.ProcessListEntry} (h : Splits payload 0 message body)
    (hkind : command.kind = .list ∧ options.list = true ∨
      command.kind = .graph ∧ options.graph = true)
    (hread : readProcessList.Reads body entries) :
    interpretControlResponse command payload clientVersion options =
      .ok { success := true, postList := shouldPostList command
            stdout := if command.kind = .graph then .dependencyGraph entries
              else .processList entries } := by
  obtain ⟨rest, hstatus, htext⟩ := h
  rw [Reads] at hread
  rcases hkind with ⟨hkind, hgiven⟩ | ⟨hkind, hgiven⟩
  · simp [interpretControlResponse, hstatus, htext, bind, Except.bind, hkind, hread, hgiven, pure,
      Except.pure]
  · simp [interpretControlResponse, hstatus, htext, bind, Except.bind, hkind, hread, hgiven, pure,
      Except.pure]

theorem interpret_inspect {snapshot : InspectSnapshot} (h : Splits payload 0 message body)
    (hkind : command.kind = .inspect) (hread : readInspectSnapshot.Reads body snapshot) :
    interpretControlResponse command payload clientVersion options =
      .ok { success := true, postList := shouldPostList command
            stdout := .inspectSnapshot snapshot } := by
  obtain ⟨rest, hstatus, htext⟩ := h
  rw [Reads] at hread
  simp [interpretControlResponse, hstatus, htext, bind, Except.bind, hkind, hread, pure,
    Except.pure]

theorem interpret_info {info : Wire.DaemonInfoSnapshot} (h : Splits payload 0 message body)
    (hkind : command.kind = .info) (hread : readDaemonInfo body = .ok info) :
    interpretControlResponse command payload clientVersion options =
      .ok { success := true, postList := shouldPostList command
            stdout := .daemonInfo info command.infoJson } := by
  obtain ⟨rest, hstatus, htext⟩ := h
  simp [interpretControlResponse, hstatus, htext, bind, Except.bind, hkind, hread, pure,
    Except.pure]

theorem interpret_version {daemonVersion : Text} (h : Splits payload 0 message body)
    (hkind : command.kind = .version) (hread : text.Reads body daemonVersion) :
    interpretControlResponse command payload clientVersion options =
      .ok { success := true, postList := shouldPostList command
            stdout := .text (utf8 "pm: " ++ clientVersion ++ utf8 "\npm_tiny: " ++ daemonVersion ++
              [newline]) } := by
  obtain ⟨rest, hstatus, htext⟩ := h
  rw [Reads] at hread
  simp [interpretControlResponse, hstatus, htext, bind, Except.bind, hkind, hread, pure,
    Except.pure]

theorem interpret_quit {pid : Int32} (h : Splits payload 0 message body)
    (hkind : command.kind = .quit) (hread : int32.Reads body pid) :
    interpretControlResponse command payload clientVersion options =
      .ok { success := true, postList := shouldPostList command, daemonPid := pid.toInt64 } := by
  obtain ⟨rest, hstatus, htext⟩ := h
  rw [Reads] at hread
  simp [interpretControlResponse, hstatus, htext, bind, Except.bind, hkind, hread, pure,
    Except.pure]

theorem interpret_start {start : Wire.StartResponse} (h : Splits payload 0 message body)
    (hkind : command.kind = .start) (hread : readStartResponse body = .ok start) :
    interpretControlResponse command payload clientVersion options =
      .ok (reportStart command start { success := true, postList := shouldPostList command }) := by
  obtain ⟨rest, hstatus, htext⟩ := h
  simp [interpretControlResponse, hstatus, htext, bind, Except.bind, hkind, hread, pure,
    Except.pure]

theorem interpret_log (h : Splits payload 0 message body)
    (hkind : command.kind = .log ∨ command.kind = .restart ∧ command.showLog = true) :
    interpretControlResponse command payload clientVersion options =
      (Wire.readProgramLogResponse.run body).bind fun read =>
        reportLog command read.1 { success := true, postList := shouldPostList command } := by
  obtain ⟨rest, hstatus, htext⟩ := h
  rcases hkind with hkind | ⟨hkind, hlog⟩
  · simp [interpretControlResponse, hstatus, htext, bind, Except.bind, hkind]
  · simp [interpretControlResponse, hstatus, htext, bind, Except.bind, hkind, hlog]

theorem generation_ne_zero {response : PmTiny.ProgramLogResponse}
    (hnonzero : response.generation ≠ 0) (hlt : response.generation < 2 ^ 64) :
    ¬response.wire.generation = 0 := by
  intro h
  have hmod : (UInt64.ofNat response.generation).toNat = response.generation :=
    UInt64.toNat_ofNat_of_lt' hlt
  have hzero : (UInt64.ofNat response.generation).toNat = 0 := congrArg UInt64.toNat h
  omega

theorem exitReason_ne_nil {response : PmTiny.ProgramLogResponse}
    (hexit : response.lastWstatus = some wstatus) : response.wire.exitReason ≠ [] := by
  simp only [PmTiny.ProgramLogResponse.wire, hexit, Option.map_some, Option.elim_some]
  cases (exitOf wstatus).1 with
  | none => decide +kernel
  | exited => decide +kernel
  | signaled => decide +kernel
  | unknown => decide +kernel

theorem incomplete_iff {response : PmTiny.ProgramLogResponse} (hmode : response.mode = .history)
    (htime : 0 < response.lastExitTimeUnixMs) (hsmall : response.lastExitTimeUnixMs < 2 ^ 63)
    (hexit : response.lastWstatus = some wstatus)
    (hpid : ∀ pid, response.lastPid = some pid → 0 < pid ∧ pid < 2 ^ 63) :
    response.wire.Incomplete ↔ response.lastPid = none := by
  have hpositive : ∀ value : Int, 0 < value → value < 2 ^ 63 → ¬Int64.ofInt value ≤ 0 := by
    intro value hlow hhigh
    rw [Int64.le_iff_toInt_le, Int64.toInt_ofInt_of_le (by omega) hhigh, Int64.toInt_zero]
    omega
  constructor
  · rintro ⟨-, hlast | hlast | hlast⟩
    · cases hlost : response.lastPid with
      | none => rfl
      | some pid =>
        obtain ⟨hlow, hhigh⟩ := hpid pid hlost
        simp only [PmTiny.ProgramLogResponse.wire, hlost, pidValue, Option.elim_some] at hlast
        exact absurd hlast (hpositive pid (by omega) (by omega))
    · exact absurd hlast (hpositive _ htime hsmall)
    · exact absurd hlast (exitReason_ne_nil hexit)
  · intro hlost
    refine ⟨hmode, .inl ?_⟩
    simp only [PmTiny.ProgramLogResponse.wire, hlost, pidValue, Option.elim_none]
    decide

theorem interpret_log_received {response : PmTiny.ProgramLogResponse} (clientVersion : Text)
    (options : GivenOptions)
    (h : Splits payload 0 message body)
    (hkind : command.kind = .log ∨ command.kind = .restart ∧ command.showLog = true)
    (hmode : response.mode = if command.logHistory then .history else .live)
    (hbody : fappendAll (PmTiny.appendProgramLogResponse response) = .ok body)
    (hgeneration : ¬response.wire.generation = 0) :
    interpretControlResponse command payload clientVersion options =
      if response.wire.Incomplete then .error "incomplete program-log history metadata"
      else .ok { success := true, postList := shouldPostList command
                 logResponse := response.wire
                 stdout := if command.kind = .log ∧ command.logHistory then
                   .programLogHistoryHeader (utf8 command.name) response.wire else .text []
                 streamExpected := true } := by
  have hread := readProgramLogResponse_received hbody hgeneration
  have hexpected : ¬response.wire.mode ≠ if command.logHistory then .history else .live :=
    not_not.2 hmode
  rw [interpret_log h hkind, hread]
  by_cases hincomplete : response.wire.Incomplete
  · rw [if_pos hincomplete, if_pos hincomplete]
    rfl
  · rw [if_neg hincomplete, if_neg hincomplete]
    simp only [Except.bind, reportLog, if_neg hexpected]
    rfl

theorem complete_live {response : PmTiny.ProgramLogResponse} (hmode : response.mode = .live) :
    ¬response.wire.Incomplete := by
  rintro ⟨hhistory, -⟩
  cases hmode.symm.trans hhistory

theorem interpret_live {response : PmTiny.ProgramLogResponse} (h : Splits payload 0 message body)
    (hkind : command.kind = .log ∨ command.kind = .restart ∧ command.showLog = true)
    (hmode : response.mode = .live) (hlogHistory : command.logHistory = false)
    (hgeneration : ¬response.wire.generation = 0) (hstatus : frame.reply.status = 0)
    (hbody : frame.reply.body = .log response)
    (hbytes : fappendAll (PmTiny.appendProgramLogResponse response) = .ok body) :
    interpretControlResponse command payload clientVersion options =
      understood d r command clientVersion frame := by
  have hexpected : response.mode = if command.logHistory then .history else .live := by
    rw [hlogHistory]
    exact hmode
  have hlive : ¬(response.mode = .history ∧ response.lastPid = none) := by
    rintro ⟨hhistory, -⟩
    cases hmode.symm.trans hhistory
  rw [interpret_log_received clientVersion options h hkind hexpected hbytes hgeneration,
    if_neg (complete_live hmode), understood, if_neg (not_not.2 hstatus), hbody]
  simp only [if_neg hlive]

theorem interpret_success (h : Splits payload 0 message body)
    (hasks : command.Asks options frame.request)
    (hsuccess : SuccessBody r frame.request frame.reply.body) (hnumbered : r.Numbered)
    (hlegible : Legible d r frame) (hstatus : frame.reply.status = 0)
    (hbody : fappendAll (bodyFields d r frame.request frame.reply.body) = .ok body) :
    interpretControlResponse command payload clientVersion options =
      understood d r command clientVersion frame := by
  obtain ⟨session, type, requestId, request, status, said, replyBody⟩ := frame
  simp only at hasks hsuccess hstatus hbody
  subst hstatus
  have hstarted : ∀ {name p}, r.findProg name = some p → p.live = true → p.inst.generation ≠ 0 :=
    fun hp hlive => hnumbered _ _ (Registry.core_of_find hp) hlive
  cases hsuccess with
  | list =>
    have hread := readProcessList_received hbody
      (by rw [List.length_map]; exact hlegible.count rfl)
      (List.forall_mem_map.2 (hlegible.list rfl))
      (List.forall_mem_map.2 fun p _ => proper_snapshotRuntime p (d.prog p.name) d.nowMs)
    rw [List.map_map] at hread
    exact interpret_list h hasks hread
  | info => exact interpret_info h hasks (readDaemonInfo_received r d.daemon hbody)
  | version =>
    have hlength := Field.passes_of_ok hbody (.str d.daemon.version) List.mem_cons_self
    have hread : text.Reads body (utf8 d.daemon.version) := by
      apply run_text_eq_ok.2 ⟨Field.passes_str.1 hlength, ?_⟩
      rw [Wire.fappendAll_eq hbody, ← bytes_str]
      rfl
    exact interpret_version h hasks hread
  | inspect hp =>
    simp only [bodyFields, snapshotFields, hp, Option.elim_some] at hbody
    obtain ⟨hconfig, hruntime⟩ := hlegible.inspect _ _ rfl hp
    have hread := readInspectSnapshot_received hbody hconfig hruntime
      (proper_snapshotRuntime _ _ _)
    rw [interpret_inspect h hasks.1 hread]
    simp only [understood, shownSnapshot, hp, Option.elim_some]
    rfl
  | start =>
    exact interpret_start h hasks.1 (readStartResponse_received hbody (hlegible.start _ rfl))
  | @quit pid =>
    have hread : int32.Reads body (Int32.ofInt pid) := by
      apply run_int32_eq_ok.2
      rw [Wire.fappendAll_eq hbody, ← bytes_int32]
      rfl
    exact interpret_quit h hasks hread
  | save => exact interpret_silent h (silent_of_kind (.inr (.inr (.inl hasks))))
  | reload => exact interpret_silent h (silent_of_kind (.inr (.inr (.inr hasks))))
  | stop => exact interpret_silent h (silent_of_kind (.inl hasks.1))
  | remove => exact interpret_silent h (silent_of_kind (.inr (.inl hasks.1)))
  | restart =>
    obtain ⟨hkind, -, hlog, -⟩ := hasks
    exact interpret_silent h (silent_restart hkind hlog)
  | restartLog hp hlive =>
    obtain ⟨hkind, -, hlog, hlogHistory⟩ := hasks
    have hnonzero := generation_ne_zero (hstarted hp hlive) (hlegible.generation _ rfl)
    exact interpret_live h (.inr ⟨hkind, hlog⟩) rfl hlogHistory hnonzero rfl rfl hbody
  | live hp hlive hmode hgeneration =>
    obtain ⟨hkind, -, hlogMode⟩ := hasks
    have hnonzero := generation_ne_zero (hgeneration.symm ▸ hstarted hp hlive)
      (hlegible.generation _ rfl)
    have hlogHistory : command.logHistory = false := by
      by_contra hhistory
      rw [if_pos (by simpa using hhistory)] at hlogMode
      cases hlogMode
    exact interpret_live h (.inl hkind) hmode hlogHistory hnonzero rfl rfl hbody
  | history hmode hgeneration htime hexit =>
    obtain ⟨hkind, -, hlogMode⟩ := hasks
    have hnonzero := generation_ne_zero hgeneration (hlegible.generation _ rfl)
    have hincomplete := incomplete_iff hmode htime (hlegible.exitTime _ rfl) hexit
      fun pid hpid => hlegible.lastPid _ pid rfl hpid
    rw [interpret_log_received clientVersion options h (.inl hkind) (hmode.trans hlogMode) hbody
      hnonzero]
    simp only [hincomplete, understood, hmode, true_and]
    rfl

theorem interpret_refusal (hsuits : frame.reply.Suits r frame.request)
    (hstatus : frame.reply.status ≠ 0)
    (h : Splits payload (Int32.ofInt frame.reply.status) (utf8 frame.reply.message) body) :
    interpretControlResponse command payload clientVersion options =
      understood d r command clientVersion frame := by
  have hvalue : (Int32.ofInt frame.reply.status).toInt = frame.reply.status := by
    obtain ⟨hlow, hhigh⟩ := hsuits.status
    exact Int32.toInt_ofInt_of_le (by omega) (by omega)
  have hne : Int32.ofInt frame.reply.status ≠ 0 := by
    intro h
    rw [h, Int32.toInt_zero] at hvalue
    exact hstatus hvalue.symm
  rw [interpret_refused h hne, understood, if_pos hstatus]

/-- The client understands every response that the daemon gives and that fits on the wire. -/
theorem response_understood {ω : System} {s : Server} {e : Event} (h : Server.Reachable ω s)
    (he : e ∈ s.history) (hcall : e.call = .answer frame)
    (hasks : command.Asks options frame.request) (hlegible : Legible d e.reg frame)
    (hpayload : fappendAll (frame.fields d e.reg) = .ok payload) :
    interpretControlResponse command payload clientVersion options =
      understood d e.reg command clientVersion frame := by
  have hsuits := h.suits he hcall
  obtain ⟨body, hbody, hmessage, rfl⟩ := payload_eq hpayload
  have hsplits := splits_payload (Int32.ofInt frame.reply.status) body hmessage
  by_cases hstatus : frame.reply.status = 0
  · have hzero : Int32.ofInt frame.reply.status = 0 := by
      rw [hstatus]
      rfl
    rw [hzero] at hsplits ⊢
    exact interpret_success hsplits hasks (hsuits.body hstatus) (h.numbered he) hlegible hstatus
      hbody
  · exact interpret_refusal hsuits hstatus hsplits

end

/-- What the client shows of a program that a signal has ended. -/
theorem response_understood_history : ∃ s e frame payload,
    Server.Reachable (simpleSystem [{ name := "web", daemon := false }] []) s ∧ e ∈ s.history ∧
      e.call = .answer frame ∧ fappendAll (frame.fields {} e.reg) = .ok payload ∧
      ∃ response : Wire.ProgramLogResponse,
        response = {
          mode := .history
          generation := 1
          lastPid := 101
          lastExitTimeUnixMs := 2
          exitReason := utf8 "signaled"
          exitCode := 9 } ∧
        interpretControlResponse { kind := .log, name := "web", logHistory := true } payload
          (utf8 "4.0.0") {} = .ok {
            success := true
            logResponse := response
            stdout := .programLogHistoryHeader (utf8 "web") response
            streamExpected := true } := by
  let ended : PmTiny.ProgramLogResponse := ⟨.history, 1, some 101, 2, some 9⟩
  let frame : Frame := ⟨1, 0x30, 1, .log "web" .history, { Server.success with body := .log ended }⟩
  obtain ⟨s, hreach, hs⟩ := Server.runFrom_any
    (ω := simpleSystem [{ name := "web", daemon := false }] [])
    [.maintenance false (some [(101, 9)]), .connect 1 none,
      .request 1 0x30 1 (.log "web" .history)]
    (fun s => s.history.any fun e => e.call = .answer frame) (by decide +kernel)
  obtain ⟨e, he, hcall⟩ := List.any_eq_true.1 hs
  have hpasses : ∀ field ∈ frame.fields {} e.reg, field.Passes := by
    simp only [frame, Frame.fields, bodyFields, Field.Passes]
    decide +kernel
  obtain ⟨payload, hpayload⟩ := (fappendAll_ok_iff _).2 hpasses
  have hlegible : Legible {} e.reg frame := by
    constructor
    case generation | exitTime =>
      intro response h
      cases h
      decide
    case lastPid =>
      intro response pid h hpid
      cases h
      cases hpid
      decide
    case count | list =>
      intro h
      cases h
    case start =>
      intro response h
      cases h
    case inspect =>
      intro name p h
      cases h
  have hasks : ParsedCommand.Asks { kind := .log, name := "web", logHistory := true } {}
      frame.request := ⟨rfl, rfl, rfl⟩
  refine ⟨s, e, frame, payload, hreach, he, of_decide_eq_true hcall, hpayload, ended.wire,
    by decide +kernel, ?_⟩
  rw [response_understood hreach he (of_decide_eq_true hcall) hasks hlegible hpayload]
  rfl

end PmTiny.Cli
