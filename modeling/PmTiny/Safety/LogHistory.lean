import PmTiny.Daemon.LogHistory
import PmTiny.Daemon.ReplySizes

namespace PmTiny
set_option autoImplicit true

theorem fappendAll_eq (h : ∀ field ∈ fields, Field.failure field = none) :
    fappendAll fields = .ok (fields.map Field.bytes).flatten := by
  induction fields with
  | nil => rfl
  | cons field fields ih =>
    rw [fappendAll, h field List.mem_cons_self,
      ih fun f hf => h f (List.mem_cons_of_mem field hf)]
    rfl

theorem length_exitReason (exit : Option (ExitReason × Int)) :
    (exit.elim "" fun exit => exit.1.name).utf8ByteSize ≤ protocolV3MaxPayload := by
  cases exit with
  | none => decide
  | some exit =>
    have hsmall : 8 ≤ protocolV3MaxPayload := by decide
    exact Nat.le_trans (size_exitReason exit.1) hsmall

def ProgramLogResponse.metadata (response : ProgramLogResponse) : ProgramLogMetadata :=
  let exit := response.lastWstatus.map exitOf
  { mode := response.mode
    generation := response.generation
    lastPid := pidValue response.lastPid
    lastExitTimeUnixMs := response.lastExitTimeUnixMs
    exitReason := (exit.elim "" fun exit => exit.1.name).toUTF8.data.toList
    exitCode := exit.elim 0 fun exit => exit.2 }

structure ProgramLogResponse.Bounded (response : ProgramLogResponse) : Prop where
  generation : response.generation < 2 ^ 64
  lastPid : ∀ pid, response.lastPid = some pid → pid < 2 ^ 31
  time_ge : -2 ^ 63 ≤ response.lastExitTimeUnixMs
  time_lt : response.lastExitTimeUnixMs < 2 ^ 63
  lastWstatus : ∀ wstatus, response.lastWstatus = some wstatus → wstatus < 2 ^ 31

theorem exitOf_bounds (h : wstatus < 2 ^ 31) :
    -2 ^ 31 ≤ (exitOf wstatus).2 ∧ (exitOf wstatus).2 < 2 ^ 31 := by
  rw [exitOf]
  split
  · simp only
    omega
  · split
    · simp only
      omega
    · simp only
      omega

theorem LogRequestMode.checked (mode : LogRequestMode) :
    checkedLogRequestMode mode.value = .ok mode := by
  cases mode with
  | live => rfl
  | history => rfl

theorem LogRequestMode.value_bounds (mode : LogRequestMode) :
    -2 ^ 31 ≤ mode.value ∧ mode.value < 2 ^ 31 := by
  cases mode with
  | live => decide
  | history => decide

theorem readProgramLogResponse_append (h : response.Bounded) :
    ∃ payload, fappendAll (appendProgramLogResponse response) = .ok payload ∧
      readProgramLogResponse payload = checkedMetadata response.metadata := by
  obtain ⟨reason, hreason⟩ : ∃ reason, reason =
      (response.lastWstatus.map exitOf).elim "" fun exit => exit.1.name := ⟨_, rfl⟩
  obtain ⟨code, hcode⟩ : ∃ code : Int, code =
      (response.lastWstatus.map exitOf).elim 0 fun exit => exit.2 := ⟨_, rfl⟩
  have hsize : reason.utf8ByteSize ≤ protocolV3MaxPayload := hreason ▸ length_exitReason _
  have hlength : reason.toUTF8.data.toList.length = reason.utf8ByteSize := by
    rw [Array.length_toList]
    rfl
  have hcodeBounds : -2 ^ 31 ≤ code ∧ code < 2 ^ 31 := by
    rw [hcode]
    cases hw : response.lastWstatus with
    | none => decide
    | some wstatus => exact exitOf_bounds (h.lastWstatus wstatus hw)
  have hpid : -2 ^ 63 ≤ pidValue response.lastPid ∧ pidValue response.lastPid < 2 ^ 63 := by
    cases hp : response.lastPid with
    | none => decide
    | some pid =>
      have := h.lastPid pid hp
      simp only [pidValue, Option.elim_some]
      omega
  have hgeneration : (response.generation : Int) < 256 ^ 8 := by
    have := h.generation
    omega
  have happend : fappendAll (appendProgramLogResponse response) =
      .ok (bigEndian 4 1 ++ (bigEndian 4 response.mode.value ++ (bigEndian 8 response.generation ++
        (bigEndian 8 (pidValue response.lastPid) ++ (bigEndian 8 response.lastExitTimeUnixMs ++
          (bigEndian 4 reason.toUTF8.data.toList.length ++ reason.toUTF8.data.toList ++
            (bigEndian 4 code ++ []))))))) := by
    rw [fappendAll_eq]
    · rw [hlength, hreason, hcode]
      rfl
    · intro field hfield
      simp only [appendProgramLogResponse, List.mem_cons, List.not_mem_nil, or_false] at hfield
      rcases hfield with rfl | rfl | rfl | rfl | rfl | rfl | rfl
      all_goals first | rfl | skip
      rw [← hreason, Field.failure, if_neg (by omega)]
  refine ⟨_, happend, ?_⟩
  have hmetadata : response.metadata =
      { mode := response.mode
        generation := response.generation
        lastPid := pidValue response.lastPid
        lastExitTimeUnixMs := response.lastExitTimeUnixMs
        exitReason := reason.toUTF8.data.toList
        exitCode := code } := by
    rw [hreason, hcode]
    rfl
  rw [readProgramLogResponse, fgetInt_four (by decide) (by decide)]
  simp only [bind, Except.bind]
  rw [fgetInt_four response.mode.value_bounds.1 response.mode.value_bounds.2]
  simp only [programLogResponseSchemaVersion, ne_eq, not_true_eq_false, if_false,
    LogRequestMode.checked]
  rw [fgetNat_append (by omega) hgeneration]
  simp only
  rw [fgetInt_eight hpid.1 hpid.2]
  simp only
  rw [fgetInt_eight h.time_ge h.time_lt]
  simp only
  rw [fgetString_append (hlength ▸ hsize)]
  simp only
  rw [fgetInt_four hcodeBounds.1 hcodeBounds.2, hmetadata]
  simp only [Int.toNat_natCast]

namespace LoggedProg

variable {p : LoggedProg}

/-- The program's record follows its last generation that was executed, unless a later spawn failed
after its fork. -/
structure Tracks (p : LoggedProg) : Prop where
  tail : p.logTail.Holds (p.lastRun.elim [] Run.output)
  pipes : p.pipesOpen = true → p.lastRun ≠ none
  alive : ∀ pid, p.pid = some pid → p.lastPid = some pid
  current : ∀ pid, p.lastPid = some pid →
    ∃ run, p.lastRun = some run ∧ run.generation = p.generation ∧ run.pid = pid
  noted : ∀ pid, p.lastPid = some pid → p.pid = none → ∃ run exit, p.lastRun = some run ∧
    run.exit = some exit ∧ p.lastWstatus = exit.wstatus ∧ p.lastExitTimeUnixMs = exit.unixMs
  wstatus : p.lastWstatus < 2 ^ 31
  time_ge : -2 ^ 63 ≤ p.lastExitTimeUnixMs
  time_lt : p.lastExitTimeUnixMs < 2 ^ 63

theorem tracks_registered (name : String) : Tracks { name := name } where
  tail := BoundedLogTail.holds_empty _
  pipes := fun h => by cases h
  alive := fun _ h => by cases h
  current := fun _ h => by cases h
  noted := fun _ h => by cases h
  wstatus := (by decide : 0 < 2 ^ 31)
  time_ge := (by decide : -2 ^ 63 ≤ (0 : Int))
  time_lt := (by decide : (0 : Int) < 2 ^ 63)

theorem Tracks.aborted (h : p.Tracks) (pid : Pid) : (p.start pid).resetFailedStart.Tracks where
  tail := h.tail
  pipes := h.pipes
  alive := fun _ h => by cases h
  current := fun _ h => by cases h
  noted := fun _ h => by cases h
  wstatus := h.wstatus
  time_ge := h.time_ge
  time_lt := h.time_lt

theorem Tracks.started (h : p.Tracks) (pid : Pid) :
    ({ (p.start pid).initProgLog with
      pipesOpen := true
      lastRun := some { generation := p.generation + 1, pid := pid } } : LoggedProg).Tracks where
  tail := BoundedLogTail.holds_clear _
  pipes := fun _ => Option.some_ne_none _
  alive := fun _ h => h
  current := fun _ h => ⟨_, rfl, rfl, Option.some.inj h⟩
  noted := fun _ _ h => by cases h
  wstatus := h.wstatus
  time_ge := h.time_ge
  time_lt := h.time_lt

theorem Tracks.writeMsg (h : p.Tracks) (hopen : p.pipesOpen = true) (text : List UInt8) :
    (p.writeMsg text).Tracks := by
  obtain ⟨run, hrun⟩ := Option.ne_none_iff_exists'.1 (h.pipes hopen)
  have htail := h.tail.append text
  have hlast : (p.writeMsg text).lastRun = some { run with output := run.output ++ text } := by
    rw [LoggedProg.writeMsg, hrun]
    rfl
  rw [hrun] at htail
  constructor
  · rw [hlast]
    exact htail
  · intro _
    rw [hlast]
    exact Option.some_ne_none _
  · exact h.alive
  · intro pid hpid
    obtain ⟨run', hrun', hgeneration, hpid'⟩ := h.current pid hpid
    obtain rfl : run' = run := Option.some.inj (hrun'.symm.trans hrun)
    exact ⟨_, hlast, hgeneration, hpid'⟩
  · intro pid hpid hdead
    obtain ⟨run', exit, hrun', hexit, hnoted⟩ := h.noted pid hpid hdead
    obtain rfl : run' = run := Option.some.inj (hrun'.symm.trans hrun)
    exact ⟨_, exit, hlast, hexit, hnoted⟩
  · exact h.wstatus
  · exact h.time_ge
  · exact h.time_lt

theorem Tracks.noteExit {pid : Pid} (h : p.Tracks) (hpid : p.pid = some pid) (exit : ChildExit) :
    ({ p.noteExit exit with pid := none } : LoggedProg).Tracks := by
  obtain ⟨run, hrun, hgeneration, hcurrent⟩ := h.current pid (h.alive pid hpid)
  have hlast : (p.noteExit exit).lastRun = some { run with exit := some exit } := by
    rw [LoggedProg.noteExit, hrun]
    rfl
  constructor
  · have htail := h.tail
    rw [hrun] at htail
    rw [hlast]
    exact htail
  · intro _
    rw [hlast]
    exact Option.some_ne_none _
  · intro _ hnone
    cases hnone
  · intro pid' hpid'
    have hsame : pid' = pid := Option.some.inj (hpid'.symm.trans (h.alive pid hpid))
    exact ⟨_, hlast, hgeneration, hcurrent.trans hsame.symm⟩
  · intro pid' _ _
    exact ⟨_, exit, hlast, rfl, rfl, rfl⟩
  · exact exit.wstatus_lt
  · exact exit.unixMs_ge
  · exact exit.unixMs_lt

theorem Tracks.pipesClosed (h : p.Tracks) : ({ p with pipesOpen := false } : LoggedProg).Tracks :=
  { h with pipes := fun h => by cases h }

theorem Tracks.step (h : p.Tracks) (event : LogEvent) : (p.step event).Tracks := by
  cases event with
  | refused => exact h
  | aborted pid =>
    rw [LoggedProg.step]
    split
    · exact h
    · exact h.aborted pid
  | started pid =>
    rw [LoggedProg.step]
    split
    · exact h
    · exact h.started pid
  | output text =>
    rw [LoggedProg.step]
    split
    · rename_i hopen
      exact h.writeMsg hopen text
    · exact h
  | pipesClosed => exact h.pipesClosed
  | reaped exit text =>
    rw [LoggedProg.step]
    cases hpid : p.pid with
    | none => exact h
    | some pid =>
      have hnoted := h.noteExit hpid exit
      simp only [Option.isNone_some, Bool.false_eq_true, if_false]
      split
      · rename_i hopen
        exact (hnoted.writeMsg hopen text).pipesClosed
      · exact hnoted.pipesClosed
  | waited exit =>
    rw [LoggedProg.step]
    cases hpid : p.pid with
    | none => exact h
    | some pid => exact h.noteExit hpid exit

theorem Reachable.tracks (h : Reachable p) : p.Tracks := by
  induction h with
  | registered name => exact tracks_registered name
  | step _ event ih => exact ih.step event

/-- The metadata is that of the last generation that was executed, and so are the bytes of the
tail. -/
def FromLastRun (p : LoggedProg) (data : ProgramLogMetadata) : Prop :=
  ∃ run exit, p.lastRun = some run ∧ run.exit = some exit ∧
    data.generation = run.generation.toNat ∧ data.lastPid = run.pid.value ∧
    data.lastExitTimeUnixMs = exit.unixMs ∧
    data.exitReason = (exitOf exit.wstatus).1.name.toUTF8.data.toList ∧
    data.exitCode = (exitOf exit.wstatus).2 ∧ p.logTail.Holds run.output

/-- A history log request that is answered with success is answered for the last generation that
was executed, in a form that the client accepts. -/
def HistoryConsistent (p : LoggedProg) : Prop :=
  ∀ response, p.handleLogHistory.status = 0 → p.handleLogHistory.body = .log response →
    ∃ payload data, fappendAll (appendProgramLogResponse response) = .ok payload ∧
      readProgramLogResponse payload = .ok data ∧ p.FromLastRun data

/-- Since the last exit a spawn has failed after its fork. -/
def LostPid (p : LoggedProg) : Prop :=
  p.pid = none ∧ p.generation ≠ 0 ∧ p.hasLastExit = true ∧ 0 < p.lastExitTimeUnixMs ∧
    p.lastPid = none

def historyResponse (p : LoggedProg) : ProgramLogResponse where
  mode := .history
  generation := p.generation.toNat
  lastPid := p.lastPid.map Pid.value
  lastExitTimeUnixMs := p.lastExitTimeUnixMs
  lastWstatus := some p.lastWstatus

theorem handleLogHistory_cases (p : LoggedProg) :
    p.handleLogHistory.status ≠ 0 ∧ ¬p.LostPid ∨
      p.pid = none ∧ p.generation ≠ 0 ∧ p.hasLastExit = true ∧ 0 < p.lastExitTimeUnixMs ∧
        p.handleLogHistory.status = 0 ∧ p.handleLogHistory.body = .log p.historyResponse := by
  rw [handleLogHistory]
  split
  · rename_i halive
    left
    refine ⟨(by decide : (2 : Int) ≠ 0), fun hlost => ?_⟩
    rw [hlost.1] at halive
    cases halive
  · rename_i hdead
    split
    · rename_i hnone
      left
      refine ⟨(by decide : (2 : Int) ≠ 0), fun ⟨_, hgeneration, hexit, htime, _⟩ => ?_⟩
      rcases hnone with h | h | h
      · exact hgeneration h
      · rw [hexit] at h
        cases h
      · omega
    · rename_i hsome
      simp only [not_or, Bool.not_eq_true', Bool.not_eq_false, Int.not_le] at hsome
      obtain ⟨hgeneration, hexit, htime⟩ := hsome
      right
      refine ⟨Option.not_isSome_iff_eq_none.1 hdead, hgeneration, hexit, htime, rfl, ?_⟩
      simp only [hexit, if_true]
      rfl

theorem Tracks.bounded (h : p.Tracks) : p.historyResponse.Bounded where
  generation := p.generation.toNat_lt
  lastPid := by
    intro pid hpid
    obtain ⟨pid, -, rfl⟩ := Option.map_eq_some_iff.1 hpid
    exact pid.lt
  time_ge := h.time_ge
  time_lt := h.time_lt
  lastWstatus := by
    intro wstatus hwstatus
    rw [← Option.some.inj hwstatus]
    exact h.wstatus

theorem exitReason_ne_nil (wstatus : Nat) :
    (exitOf wstatus).1.name.toUTF8.data.toList ≠ [] := by
  cases (exitOf wstatus).1 with
  | none => decide
  | exited => decide
  | signaled => decide
  | unknown => decide

theorem Tracks.not_consistent (h : p.Tracks) (hlost : p.LostPid) : ¬p.HistoryConsistent := by
  obtain ⟨payload, hpayload, hread⟩ := readProgramLogResponse_append h.bounded
  intro hconsistent
  rcases p.handleLogHistory_cases with ⟨-, hkept⟩ | ⟨-, hgeneration, -, -, hok, hbody⟩
  · exact hkept hlost
  · obtain ⟨payload', data, hpayload', hdata, -⟩ := hconsistent _ hok hbody
    obtain rfl : payload = payload' := by
      rw [hpayload] at hpayload'
      exact Except.ok.inj hpayload'
    have hmissing : p.historyResponse.metadata.lastPid ≤ 0 := by
      simp only [ProgramLogResponse.metadata, historyResponse, hlost.2.2.2.2]
      decide
    have hgen : p.historyResponse.metadata.generation ≠ 0 :=
      fun hzero => hgeneration (UInt64.toNat_inj.1 hzero)
    rw [hread, checkedMetadata, if_neg hgen, if_pos ⟨rfl, .inl hmissing⟩] at hdata
    cases hdata

theorem Tracks.consistent (h : p.Tracks) (hkept : ¬p.LostPid) : p.HistoryConsistent := by
  intro response hstatus hresponse
  obtain ⟨payload, hpayload, hread⟩ := readProgramLogResponse_append h.bounded
  rcases p.handleLogHistory_cases with
    ⟨hrefused, -⟩ | ⟨hdead, hgeneration, hexit, htime, -, hbody⟩
  · exact absurd hstatus hrefused
  · obtain rfl : p.historyResponse = response := by
      rw [hbody] at hresponse
      exact ReplyBody.log.inj hresponse
    obtain ⟨pid, hpid⟩ : ∃ pid, p.lastPid = some pid := by
      cases hpid : p.lastPid with
      | none => exact absurd ⟨hdead, hgeneration, hexit, htime, hpid⟩ hkept
      | some pid => exact ⟨pid, rfl⟩
    obtain ⟨run, hrun, hrunGeneration, hrunPid⟩ := h.current pid hpid
    obtain ⟨run', exit, hrun', hrunExit, hwstatus, hunixMs⟩ := h.noted pid hpid hdead
    obtain rfl : run' = run := Option.some.inj (hrun'.symm.trans hrun)
    have hlastPid : p.historyResponse.metadata.lastPid = pid.value := by
      simp only [ProgramLogResponse.metadata, historyResponse, hpid]
      rfl
    have hreason : p.historyResponse.metadata.exitReason =
        (exitOf exit.wstatus).1.name.toUTF8.data.toList := by
      rw [← hwstatus]
      rfl
    have hchecked : checkedMetadata p.historyResponse.metadata =
        .ok p.historyResponse.metadata := by
      have hgen : p.historyResponse.metadata.generation ≠ 0 :=
        fun hzero => hgeneration (UInt64.toNat_inj.1 hzero)
      rw [checkedMetadata, if_neg hgen, if_neg]
      rintro ⟨-, hpid | htime' | hnil⟩
      · have := pid.pos
        omega
      · exact absurd htime (Int.not_lt.2 htime')
      · rw [hreason] at hnil
        exact exitReason_ne_nil _ hnil
    refine ⟨payload, _, hpayload, hread.trans hchecked, run', exit, hrun, hrunExit, ?_, ?_,
      hunixMs, hreason, ?_, ?_⟩
    · rw [hrunGeneration]
      rfl
    · rw [hlastPid, hrunPid]
    · rw [← hwstatus]
      rfl
    · have htail := h.tail
      rw [hrun] at htail
      exact htail

/-- In every reachable state a history log request is answered for the last generation that was
executed exactly when no spawn has failed after its fork since that generation ended. -/
theorem history_consistent_iff (p : LoggedProg) (h : Reachable p) :
    p.HistoryConsistent ↔ ¬p.LostPid :=
  ⟨fun hconsistent hlost => h.tracks.not_consistent hlost hconsistent, h.tracks.consistent⟩

/-- A program that printed two bytes and exited with code 1. -/
def exited : LoggedProg :=
  let p := ({ name := "app" } : LoggedProg).step (.started ⟨100, by decide, by decide⟩)
  (p.step (.output [104, 105])).step
    (.reaped ⟨256, 1700000000000, by decide, by decide, by decide⟩ [])

theorem reachable_exited : Reachable exited := by
  rw [exited]
  exact (((Reachable.registered "app").step _).step _).step _

theorem history_consistent_exited :
    Reachable exited ∧ exited.handleLogHistory.status = 0 ∧ exited.HistoryConsistent := by
  refine ⟨reachable_exited, by decide +kernel,
    (history_consistent_iff exited reachable_exited).2 fun hlost => ?_⟩
  have hsome : exited.lastPid.isSome = true := by decide +kernel
  rw [hlost.2.2.2.2] at hsome
  cases hsome

/-- After a further start whose exec fails, the history is answered with a pid that the client
refuses. -/
theorem history_lost_after_failed_exec :
    Reachable (exited.step (.aborted ⟨101, by decide, by decide⟩)) ∧
      (exited.step (.aborted ⟨101, by decide, by decide⟩)).handleLogHistory.status = 0 ∧
      ¬(exited.step (.aborted ⟨101, by decide, by decide⟩)).HistoryConsistent := by
  have hreachable := reachable_exited.step (.aborted ⟨101, by decide, by decide⟩)
  refine ⟨hreachable, by decide +kernel, hreachable.tracks.not_consistent ⟨rfl, ?_, rfl, ?_, rfl⟩⟩
  · decide +kernel
  · decide +kernel

end LoggedProg

end PmTiny
