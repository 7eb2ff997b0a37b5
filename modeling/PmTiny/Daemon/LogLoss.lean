import PmTiny.Core.LogRotation
import PmTiny.Daemon.LogSinks

namespace PmTiny
set_option autoImplicit true

namespace RotatingLogWriter

variable {w w' v : RotatingLogWriter}

def bytesOf : SystemCall × Answer → Nat
  | (.write, .done bytes) => bytes
  | _ => 0

/-- A call that makes its operation return false. -/
def fails : SystemCall × Answer → Bool
  | (_, .failed _) => true
  | (.write, .done bytes) => bytes == 0
  | (_, .done _) => false
  | (.write, .interrupted) => false
  | (_, .interrupted) => true

def bytesOfAll (calls : List (SystemCall × Answer)) : Nat := (calls.map bytesOf).sum

/-- The bytes that have reached the log files of this path. -/
def reached (w : RotatingLogWriter) : Nat := bytesOfAll w.trace

def FailsLate (calls : List (SystemCall × Answer)) : Prop :=
  ∃ before after, calls = before ++ after ∧ (∃ call ∈ before, 0 < bytesOf call) ∧
    ∃ call ∈ after, fails call = true

@[simp] theorem bytesOfAll_append (calls rest : List (SystemCall × Answer)) :
    bytesOfAll (calls ++ rest) = bytesOfAll calls + bytesOfAll rest := by
  rw [bytesOfAll, List.map_append, List.sum_append, bytesOfAll, bytesOfAll]

@[simp] theorem bytesOfAll_singleton (call : SystemCall × Answer) :
    bytesOfAll [call] = bytesOf call := by
  rw [bytesOfAll, List.map_singleton, List.sum_singleton]

theorem bytesOfAll_pos {calls : List (SystemCall × Answer)} :
    0 < bytesOfAll calls ↔ ∃ call ∈ calls, 0 < bytesOf call := by
  induction calls with
  | nil => simp [bytesOfAll]
  | cons call rest ih =>
    have hcons : bytesOfAll (call :: rest) = bytesOf call + bytesOfAll rest := by
      rw [← bytesOfAll_singleton, ← bytesOfAll_append]
      rfl
    rw [hcons, List.exists_mem_cons_iff, ← ih, Nat.add_pos_iff_pos_or_pos]

theorem bytesOf_of_fails {call : SystemCall × Answer} (h : fails call = true) :
    bytesOf call = 0 := by
  rcases call with ⟨call, answer⟩
  cases answer with
  | done bytes =>
    cases call with
    | write => exact of_decide_eq_true h
    | convert | directory | create | size | seek | truncate | rename => rfl
  | interrupted | failed => cases call <;> rfl

/-- The calls that an operation makes: none fails if it succeeds, and else the last one fails. -/
structure Made (w w' : RotatingLogWriter) (calls : List (SystemCall × Answer)) (ok : Bool) :
    Prop extends Same w w' where
  trace : w'.trace = w.trace ++ calls
  passed : ok = true → ∀ call ∈ calls, fails call = false
  ended : ok = false → ∃ before last, calls = before ++ [last] ∧ fails last = true

theorem Made.trans (h : Made w v calls true) (h' : Made v w' rest ok) :
    Made w w' (calls ++ rest) ok where
  toSame := h.toSame.trans h'.toSame
  trace := by rw [h'.trace, h.trace, List.append_assoc]
  passed := by
    intro hok call hcall
    rcases List.mem_append.1 hcall with hfirst | hrest
    · exact h.passed rfl call hfirst
    · exact h'.passed hok call hrest
  ended := by
    intro hok
    obtain ⟨before, last, hrest, hlast⟩ := h'.ended hok
    exact ⟨calls ++ before, last, by rw [hrest, List.append_assoc], hlast⟩

theorem made_nil (hs : Same w w') (htrace : w'.trace = w.trace) : Made w w' [] true where
  toSame := hs
  trace := htrace.trans (List.append_nil _).symm
  passed := fun _ _ h => absurd h List.not_mem_nil
  ended := fun h => by cases h

theorem made_one (hs : Same w w') (htrace : w'.trace = w.trace ++ [call])
    (hok : ok = !fails call) : Made w w' [call] ok where
  toSame := hs
  trace := htrace
  passed := by
    intro h other hother
    rw [h] at hok
    rw [List.mem_singleton.1 hother]
    simpa using hok.symm
  ended := by
    intro h
    rw [h] at hok
    exact ⟨[], call, rfl, by simpa using hok.symm⟩

theorem not_failsLate_nil : ¬ FailsLate [] := by
  rintro ⟨before, after, heq, ⟨call, hcall, -⟩, -⟩
  rw [(List.append_eq_nil_iff.1 heq.symm).1] at hcall
  cases hcall

theorem failsLate_append (h : bytesOfAll calls = 0) :
    FailsLate (calls ++ rest) ↔ FailsLate rest := by
  constructor
  · rintro ⟨before, after, heq, ⟨call, hcall, hpos⟩, hfails⟩
    rcases List.append_eq_append_iff.1 heq with ⟨middle, rfl, rfl⟩ | ⟨middle, rfl, rfl⟩
    · refine ⟨middle, after, rfl, ⟨call, ?_, hpos⟩, hfails⟩
      rcases List.mem_append.1 hcall with hmem | hmem
      · have hbytes := bytesOfAll_pos.2 ⟨call, hmem, hpos⟩
        omega
      · exact hmem
    · have hbytes := bytesOfAll_pos.2 ⟨call, List.mem_append_left middle hcall, hpos⟩
      omega
  · rintro ⟨before, after, rfl, ⟨call, hcall, hpos⟩, hfails⟩
    exact ⟨calls ++ before, after, (List.append_assoc _ _ _).symm,
      ⟨call, List.mem_append_right _ hcall, hpos⟩, hfails⟩

theorem Made.not_failsLate (h : Made w w' calls true) : ¬ FailsLate calls := by
  rintro ⟨before, after, rfl, -, call, hcall, hfails⟩
  rw [h.passed rfl call (List.mem_append_right _ hcall)] at hfails
  cases hfails

theorem Made.failsLate_iff (h : Made w w' calls false) :
    FailsLate calls ↔ 0 < bytesOfAll calls := by
  obtain ⟨before, last, rfl, hlast⟩ := h.ended rfl
  have hbytes : bytesOfAll (before ++ [last]) = bytesOfAll before := by
    rw [bytesOfAll_append, bytesOfAll_singleton, bytesOf_of_fails hlast, Nat.add_zero]
  constructor
  · rintro ⟨first, after, heq, htook, -⟩
    rw [heq, bytesOfAll_append]
    exact Nat.add_pos_left (bytesOfAll_pos.2 htook) _
  · intro hpos
    rw [hbytes] at hpos
    exact ⟨before, [last], rfl, bytesOfAll_pos.1 hpos, last, List.mem_singleton_self _, hlast⟩

/-- An operation that writes nothing. -/
def Quiet (w w' : RotatingLogWriter) (ok : Bool) : Prop :=
  ∃ calls, Made w w' calls ok ∧ bytesOfAll calls = 0

theorem Quiet.trans (h : Quiet w v true) (h' : Quiet v w' ok) : Quiet w w' ok := by
  obtain ⟨calls, hmade, hbytes⟩ := h
  obtain ⟨rest, hmade', hbytes'⟩ := h'
  exact ⟨calls ++ rest, hmade.trans hmade', by rw [bytesOfAll_append, hbytes, hbytes']⟩

theorem quiet_nil (hs : Same w w') (htrace : w'.trace = w.trace) : Quiet w w' true :=
  ⟨[], made_nil hs htrace, rfl⟩

theorem fails_eq_false (hcall : call ≠ .write) (answer : Answer) :
    fails (call, answer) = false ↔ ∃ bytes, answer = .done bytes := by
  cases answer with
  | done bytes =>
    refine iff_of_true ?_ ⟨bytes, rfl⟩
    cases call <;> first | rfl | exact absurd rfl hcall
  | interrupted =>
    refine iff_of_false ?_ ?_
    · cases call <;> first | exact Bool.noConfusion | exact absurd rfl hcall
    · rintro ⟨bytes, hdone⟩
      cases hdone
  | failed reason =>
    refine iff_of_false Bool.noConfusion ?_
    rintro ⟨bytes, hdone⟩
    cases hdone

theorem quiet_ask (hcall : call ≠ .write) (w : RotatingLogWriter) :
    Quiet w (w.ask call).2 (w.ask call).1.isNone := by
  obtain ⟨answer, htrace, hanswer, hdone⟩ := w.ask_cases call
  refine ⟨[(call, answer)], made_one (w.unmoved_ask call).toSame (by rw [htrace, record]) ?_, ?_⟩
  · rw [Bool.eq_iff_iff, Option.isNone_iff_eq_none, hdone, ← hanswer, Bool.not_eq_true',
      fails_eq_false hcall]
  · rw [bytesOfAll_singleton]
    cases call <;> first | rfl | exact absurd rfl hcall

theorem quiet_openCalls (hcalls : .write ∉ calls) (w : RotatingLogWriter) :
    Quiet w (openCalls calls w).2 (openCalls calls w).1.isNone := by
  induction calls generalizing w with
  | nil => exact quiet_nil (.refl w) rfl
  | cons call rest ih =>
    rw [List.mem_cons, not_or] at hcalls
    have hask := quiet_ask (Ne.symm hcalls.1) w
    rw [openCalls]
    split
    · rename_i error u hu
      rw [hu] at hask
      exact hask
    · rename_i u hu
      rw [hu] at hask
      split
      · have hcreate : Quiet u u.createFile true := quiet_nil u.opens_createFile.toSame rfl
        exact (hask.trans hcreate).trans (ih hcalls.2 _)
      · exact hask.trans (ih hcalls.2 _)

theorem write_not_mem_callsOfOpen (platform : Platform) : .write ∉ callsOfOpen platform := by
  cases platform with
  | linux => decide
  | windows => decide

theorem openFile_trace (w : RotatingLogWriter) :
    ∃ calls, w.openFile.2.trace = w.trace ++ calls ∧ bytesOfAll calls = 0 := by
  have hcalls := quiet_openCalls (write_not_mem_callsOfOpen w.close.platform) w.close
  rw [openFile]
  split
  · exact ⟨[], (List.append_nil _).symm, rfl⟩
  · obtain ⟨calls, hmade, hbytes⟩ := hcalls
    split
    · rename_i error u hu
      rw [hu] at hmade
      exact ⟨calls, hmade.trace, hbytes⟩
    · rename_i u hu
      rw [hu] at hmade
      exact ⟨calls, hmade.trace, hbytes⟩

theorem quiet_openFile (hvalid : Valid w) : Quiet w w.openFile.2 w.openFile.1.isNone := by
  have hclose : Quiet w w.close true := quiet_nil w.same_close rfl
  have hcalls := quiet_openCalls (write_not_mem_callsOfOpen w.close.platform) w.close
  rw [openFile]
  split
  · rename_i hconfig
    have hpath : w.close.path ≠ "" := hvalid.path
    have hmax : w.close.maxSizeBytes ≠ 0 := Nat.pos_iff_ne_zero.1 hvalid.maxSizeBytes
    have hcount : ¬ w.close.archiveCount < 0 := Int.not_lt.2 hvalid.archiveCount
    simp only [hpath, hmax, hcount, decide_false, Bool.or_self, Bool.false_eq_true] at hconfig
  · split
    · rename_i error u hu
      rw [hu] at hcalls
      exact hclose.trans hcalls
    · rename_i u hu
      rw [hu] at hcalls
      exact (hclose.trans hcalls).trans (quiet_nil ⟨rfl, rfl, rfl, rfl, rfl⟩ rfl)

theorem quiet_renameFiles (n : Nat) (w : RotatingLogWriter) :
    Quiet w (renameFiles n w).2 (renameFiles n w).1.isNone := by
  induction n generalizing w with
  | zero => exact quiet_nil (.refl w) rfl
  | succ n ih =>
    have hask : Quiet w (w.ask (.rename n (n + 1))).2 (w.ask (.rename n (n + 1))).1.isNone :=
      quiet_ask (by simp) w
    rw [renameFiles]
    split
    · rename_i error u hu
      rw [hu] at hask
      exact hask
    · rename_i u hu
      rw [hu] at hask
      have hrename : Quiet u (u.renameFile n) true := by
        apply quiet_nil (u.same_renameFile n)
        rw [renameFile]
        split
        · rfl
        · rfl
      exact (hask.trans hrename).trans (ih _)

theorem quiet_rotate (hvalid : Valid w) : Quiet w w.rotate.2 w.rotate.1.isNone := by
  have hclose : Quiet w w.close true := quiet_nil w.same_close rfl
  have hconvert : Quiet w.close w.close.convertPath.2 w.close.convertPath.1.isNone := by
    rw [convertPath]
    split
    · exact quiet_nil (.refl _) rfl
    · exact quiet_ask (by simp) _
  rw [rotate]
  split
  · rename_i error v hv
    rw [hv] at hconvert
    exact hclose.trans hconvert
  · rename_i v hv
    rw [hv] at hconvert
    have hv' := hclose.trans hconvert
    split
    · have hask : Quiet v (v.ask .truncate).2 (v.ask .truncate).1.isNone :=
        quiet_ask (by simp) v
      split
      · rename_i error u hu
        rw [hu] at hask
        exact hv'.trans hask
      · rename_i u hu
        rw [hu] at hask
        exact (hv'.trans hask).trans (quiet_nil ⟨rfl, rfl, rfl, rfl, rfl⟩ rfl)
    · have hrename := quiet_renameFiles v.archiveCount.toNat v
      split
      · rename_i error u hu
        rw [hu] at hrename
        exact hv'.trans hrename
      · rename_i u hu
        rw [hu] at hrename
        have hu' := hv'.trans hrename
        obtain ⟨calls, hmade, -⟩ := id hu'
        have hvalid' := hvalid.of_same hmade.toSame
        have hcount : Quiet u { u with rotations := u.rotations + 1 } true :=
          quiet_nil ⟨rfl, rfl, rfl, rfl, rfl⟩ rfl
        apply (hu'.trans hcount).trans
        apply quiet_openFile
        exact ⟨hvalid'.path, hvalid'.maxSizeBytes, hvalid'.archiveCount⟩

structure Finished (w w' : RotatingLogWriter) (status : Status) (size : Nat) : Prop where
  done : status = .done → ∃ calls, Made w w' calls true ∧ bytesOfAll calls = size
  failed : ∀ error, status = .failed error → ∃ calls, Made w w' calls false

theorem Finished.of_done (h : Made w w' calls true) (hsize : bytesOfAll calls = size) :
    Finished w w' .done size where
  done := fun _ => ⟨calls, h, hsize⟩
  failed := fun _ h => by cases h

theorem Finished.of_failed (h : Made w w' calls false) : Finished w w' (.failed error) size where
  done := fun h => by cases h
  failed := fun _ _ => ⟨calls, h⟩

theorem Finished.of_running : Finished w w' .running size where
  done := fun h => by cases h
  failed := fun _ h => by cases h

theorem Finished.after (hmade : Made w v calls true) (h : Finished v w' status size) :
    Finished w w' status (bytesOfAll calls + size) where
  done := by
    intro hstatus
    obtain ⟨rest, hrest, hsize⟩ := h.done hstatus
    exact ⟨calls ++ rest, hmade.trans hrest, by rw [bytesOfAll_append, hsize]⟩
  failed := by
    intro error hstatus
    obtain ⟨rest, hrest⟩ := h.failed error hstatus
    exact ⟨calls ++ rest, hmade.trans hrest⟩

theorem writeChunk_finished (fuel : Nat) (chunk : List UInt8) (w : RotatingLogWriter) :
    Finished w (writeChunk fuel chunk w).2 (writeChunk fuel chunk w).1 chunk.length := by
  induction fuel generalizing chunk w with
  | zero =>
    cases chunk with
    | nil => exact .of_done (made_nil (.refl w) rfl) rfl
    | cons byte rest => exact .of_running
  | succ fuel ih =>
    cases chunk with
    | nil => exact .of_done (made_nil (.refl w) rfl) rfl
    | cons byte rest =>
      rw [writeChunk]
      split
      · have hmade : Made w (w.record .write .interrupted) [(.write, .interrupted)] true :=
          made_one ⟨rfl, rfl, rfl, rfl, rfl⟩ rfl rfl
        have hrest := (ih (byte :: rest) (w.record .write .interrupted)).after hmade
        have hzero : bytesOf (.write, .interrupted) = 0 := rfl
        rw [bytesOfAll_singleton, hzero, Nat.zero_add] at hrest
        exact hrest
      · rename_i taken _
        split
        · apply Finished.of_failed
          exact made_one ⟨rfl, rfl, rfl, rfl, rfl⟩ rfl rfl
        · rename_i hsome
          obtain ⟨front, hfront⟩ : ∃ front, front = (byte :: rest).take taken := ⟨_, rfl⟩
          have hlength : front.length + ((byte :: rest).drop taken).length =
              (byte :: rest).length := by
            rw [hfront, ← List.length_append, List.take_append_drop]
          have hpos : front.length ≠ 0 := by
            rw [hfront, List.length_take, List.length_cons]
            omega
          have hmade : Made w (w.put front) [(.write, .done front.length)] true := by
            have hpassed : true = !fails (.write, .done front.length) := by
              simp [fails, hpos]
            exact made_one ⟨rfl, rfl, rfl, rfl, rfl⟩ rfl hpassed
          have hrest := (ih ((byte :: rest).drop taken) (w.put front)).after hmade
          rw [bytesOfAll_singleton] at hrest
          rw [← hfront, ← hlength]
          exact hrest
      · rename_i reason _
        apply Finished.of_failed
        exact made_one ⟨rfl, rfl, rfl, rfl, rfl⟩ rfl rfl

theorem appendLoop_finished (fuel rounds : Nat) (data : List UInt8) (hvalid : Valid w) :
    Finished w (appendLoop fuel rounds data w).2 (appendLoop fuel rounds data w).1 data.length := by
  induction rounds generalizing data w with
  | zero =>
    cases data with
    | nil => exact .of_done (made_nil (.refl w) rfl) rfl
    | cons byte rest => exact .of_running
  | succ rounds ih =>
    cases data with
    | nil => exact .of_done (made_nil (.refl w) rfl) rfl
    | cons byte rest =>
      have hready : Quiet w w.ready.2 w.ready.1.isNone := by
        rw [ready]
        split
        · exact quiet_rotate hvalid
        · exact quiet_nil (.refl w) rfl
      rw [appendLoop]
      split
      · rename_i error v hv
        rw [hv] at hready
        obtain ⟨calls, hmade, -⟩ := hready
        exact .of_failed hmade
      · rename_i v hv
        rw [hv] at hready
        obtain ⟨calls, hmade, hbytes⟩ := hready
        obtain ⟨chunk, hchunk⟩ : ∃ chunk, chunk =
            (byte :: rest).take (v.maxSizeBytes - v.currentSize) := ⟨_, rfl⟩
        have hlength : chunk.length + ((byte :: rest).drop chunk.length).length =
            (byte :: rest).length := by
          have hle : chunk.length ≤ (byte :: rest).length := by
            rw [hchunk]
            exact List.length_take_le' _ _
          rw [List.length_drop]
          omega
        have hwrite := (writeChunk_finished fuel chunk v).after hmade
        rw [hbytes, Nat.zero_add] at hwrite
        simp only [← hchunk]
        split
        · rename_i u hu
          rw [hu] at hwrite
          obtain ⟨written, hwritten, hsize⟩ := hwrite.done rfl
          have hvalid' := hvalid.of_same hwritten.toSame
          have hmore : Made w { u with currentSize := u.currentSize + chunk.length } written true :=
            ⟨⟨hwritten.platform, hwritten.path, hwritten.maxSizeBytes, hwritten.archiveCount,
              hwritten.answers⟩, hwritten.trace, hwritten.passed, hwritten.ended⟩
          have hrest := (ih (w := { u with currentSize := u.currentSize + chunk.length })
            ((byte :: rest).drop chunk.length)
            ⟨hvalid'.path, hvalid'.maxSizeBytes, hvalid'.archiveCount⟩).after hmore
          rw [hsize, hlength] at hrest
          exact hrest
        · exact .of_running
        · rename_i error u hu
          rw [hu] at hwrite
          obtain ⟨written, hwritten⟩ := hwrite.failed error rfl
          exact .of_failed hwritten

theorem append_finished (fuel : Nat) (data : List UInt8) (hvalid : Valid w) :
    Finished w (w.append fuel data).2 (w.append fuel data).1 data.length := by
  have hopened : Quiet w w.opened.2 w.opened.1.isNone := by
    rw [opened]
    split
    · exact quiet_nil (.refl w) rfl
    · exact quiet_openFile hvalid
  rw [append]
  split
  · rename_i hnil
    rw [hnil]
    exact .of_done (made_nil (.refl w) rfl) rfl
  · split
    · rename_i error v hv
      rw [hv] at hopened
      obtain ⟨calls, hmade, -⟩ := hopened
      exact .of_failed hmade
    · rename_i v hv
      rw [hv] at hopened
      obtain ⟨calls, hmade, hbytes⟩ := hopened
      have hloop := (appendLoop_finished fuel fuel data (hvalid.of_same hmade.toSame)).after hmade
      rw [hbytes, Nat.zero_add] at hloop
      exact hloop

end RotatingLogWriter

namespace LogSinks

open RotatingLogWriter (bytesOfAll FailsLate Made Quiet Valid quiet_openFile append_finished)

variable {log log' mid : LogSinks}

/-- The bytes that have reached the log files of a program. -/
def reached (log : LogSinks) : Nat :=
  (log.sinks 0).writer.reached + (log.sinks 1).writer.reached

def accounted (log : LogSinks) : Nat := log.reached + log.health.droppedBytes

/-- The system calls that were made on the way from one state to another, by path. -/
def callsMade (log log' : LogSinks) (index : Fin 2) : List (SystemCall × Answer) :=
  (log'.sinks index).writer.trace.drop (log.sinks index).writer.trace.length

def Opened (log : LogSinks) : Prop :=
  ∀ index, (log.sinks index).present = true → Valid (log.sinks index).writer

/-- A step in which the bytes handed over are accounted for, up to a surplus that comes from late
failures only. -/
structure Balanced (log log' : LogSinks) (size : Nat) : Prop where
  opened : Opened log → Opened log'
  traces : ∀ index, (log.sinks index).writer.trace <+: (log'.sinks index).writer.trace
  balance : Opened log → ∃ surplus, log'.accounted = log.accounted + size + surplus ∧
    (surplus = 0 ↔ ∀ index, ¬ FailsLate (callsMade log log' index))

theorem callsMade_eq
    (h : (log'.sinks index).writer.trace = (log.sinks index).writer.trace ++ calls) :
    callsMade log log' index = calls := by
  rw [callsMade, h, List.drop_left]

theorem reached_eq (h : ∀ index, ∃ rest, (log'.sinks index).writer.trace =
    (log.sinks index).writer.trace ++ rest) :
    log'.reached = log.reached + bytesOfAll (callsMade log log' 0) +
      bytesOfAll (callsMade log log' 1) := by
  obtain ⟨first, hfirst⟩ := h 0
  obtain ⟨second, hsecond⟩ := h 1
  rw [reached, RotatingLogWriter.reached, RotatingLogWriter.reached, hfirst, hsecond,
    RotatingLogWriter.bytesOfAll_append, RotatingLogWriter.bytesOfAll_append, callsMade_eq hfirst,
    callsMade_eq hsecond, reached, RotatingLogWriter.reached, RotatingLogWriter.reached]
  omega

/-- A step that brings nothing to the files and counts nothing as lost. -/
structure Still (log log' : LogSinks) : Prop where
  opened : Opened log → Opened log'
  quiet : ∀ index, ∃ calls, (log'.sinks index).writer.trace =
    (log.sinks index).writer.trace ++ calls ∧ bytesOfAll calls = 0
  dropped : log'.health.droppedBytes = log.health.droppedBytes

theorem Still.of_sinks (hsinks : log'.sinks = log.sinks)
    (hdropped : log'.health.droppedBytes = log.health.droppedBytes) : Still log log' where
  opened := by
    intro h index
    rw [hsinks]
    exact h index
  quiet := by
    intro index
    rw [hsinks]
    exact ⟨[], (List.append_nil _).symm, rfl⟩
  dropped := hdropped

theorem Still.trans (h : Still log mid) (h' : Still mid log') : Still log log' where
  opened := h'.opened ∘ h.opened
  quiet := by
    intro index
    obtain ⟨calls, htrace, hbytes⟩ := h.quiet index
    obtain ⟨rest, htrace', hbytes'⟩ := h'.quiet index
    refine ⟨calls ++ rest, ?_, ?_⟩
    · rw [htrace', htrace, List.append_assoc]
    · rw [RotatingLogWriter.bytesOfAll_append, hbytes, hbytes']
  dropped := h'.dropped.trans h.dropped

theorem Still.accounted (h : Still log log') : log'.accounted = log.accounted := by
  have htraces : ∀ index, ∃ rest, (log'.sinks index).writer.trace =
      (log.sinks index).writer.trace ++ rest := by
    intro index
    obtain ⟨calls, htrace, -⟩ := h.quiet index
    exact ⟨calls, htrace⟩
  have hbytes : ∀ index, bytesOfAll (callsMade log log' index) = 0 := by
    intro index
    obtain ⟨calls, htrace, hbytes⟩ := h.quiet index
    rw [callsMade_eq htrace, hbytes]
  rw [LogSinks.accounted, reached_eq htraces, hbytes, hbytes, h.dropped, LogSinks.accounted]
  rfl

theorem Still.balanced (h : Still log mid) (h' : Balanced mid log' size) :
    Balanced log log' size where
  opened := h'.opened ∘ h.opened
  traces := by
    intro index
    obtain ⟨calls, htrace, -⟩ := h.quiet index
    exact (htrace ▸ List.prefix_append _ calls).trans (h'.traces index)
  balance := by
    intro hopened
    obtain ⟨surplus, hsum, hlate⟩ := h'.balance (h.opened hopened)
    refine ⟨surplus, ?_, ?_⟩
    · rw [hsum, h.accounted]
    · rw [hlate]
      apply forall_congr'
      intro index
      obtain ⟨calls, htrace, hbytes⟩ := h.quiet index
      obtain ⟨rest, hrest⟩ := h'.traces index
      have hall : callsMade log log' index = calls ++ callsMade mid log' index := by
        rw [callsMade_eq hrest.symm]
        apply callsMade_eq
        rw [← hrest, htrace, List.append_assoc]
      rw [hall, RotatingLogWriter.failsLate_append hbytes]

theorem still_setSink {sink : LogSink} (hvalid : sink.present = true → Valid sink.writer)
    (htrace : ∃ calls, sink.writer.trace = (log.sinks index).writer.trace ++ calls ∧
      bytesOfAll calls = 0) : Still log (log.setSink index sink) where
  opened := by
    intro h other
    rw [setSink]
    by_cases hother : other = index
    · subst hother
      simp only [Function.update_self]
      exact hvalid
    · simp only [ne_eq, hother, not_false_eq_true, Function.update_of_ne]
      exact h other
  quiet := by
    intro other
    rw [setSink]
    by_cases hother : other = index
    · subst hother
      simp only [Function.update_self]
      exact htrace
    · simp only [ne_eq, hother, not_false_eq_true, Function.update_of_ne]
      exact ⟨[], (List.append_nil _).symm, rfl⟩
  dropped := rfl

theorem still_openWriter (index : Fin 2) (log : LogSinks) :
    Still log (log.openWriter index).2 := by
  obtain ⟨calls, htrace, hbytes⟩ := (log.sinks index).writer.close.openFile_trace
  rw [openWriter]
  split
  · rename_i writer hopen
    have hvalid := RotatingLogWriter.openFile_valid (congrArg Prod.fst hopen)
    have hopens := (RotatingLogWriter.openFile_opens (log.sinks index).writer.close).1
    rw [hopen] at htrace hopens
    exact still_setSink (fun _ => hvalid.of_same hopens.toSame) ⟨calls, htrace, hbytes⟩
  · rename_i error writer hopen
    rw [hopen] at htrace
    exact still_setSink (fun h => by cases h) ⟨calls, htrace, hbytes⟩

theorem still_openSibling (now : Int) (log : LogSinks) (index : Fin 2) :
    Still log (log.openSibling now index) := by
  have hopen := log.still_openWriter index
  rw [openSibling]
  split
  · exact .of_sinks rfl rfl
  · split
    · rename_i mid hmid
      rw [hmid] at hopen
      exact hopen
    · rename_i error mid hmid
      rw [hmid] at hopen
      exact hopen.trans (.of_sinks rfl rfl)

theorem still_siblings (now : Int) (indices : List (Fin 2)) (log : LogSinks) :
    Still log (indices.foldl (openSibling now) log) := by
  induction indices generalizing log with
  | nil => exact .of_sinks rfl rfl
  | cons index rest ih => exact (log.still_openSibling now index).trans (ih _)

theorem still_recover (log : LogSinks) : Still log log.recover := by
  rw [recover]
  split
  · exact .of_sinks rfl rfl
  · exact .of_sinks rfl rfl

/-- The end of an append: the calls made on its path, and what is then counted as lost. -/
theorem balanced_append (surplus : Nat) {index : Fin 2} {sink : LogSink}
    {calls : List (SystemCall × Answer)}
    (hsinks : log'.sinks = Function.update log.sinks index sink)
    (htrace : sink.writer.trace = (log.sinks index).writer.trace ++ calls)
    (hvalid : Opened log → sink.present = true → Valid sink.writer)
    (hlost : log'.health.droppedBytes + bytesOfAll calls = log.health.droppedBytes + size + surplus)
    (hlate : surplus = 0 ↔ ¬ FailsLate calls) : Balanced log log' size := by
  have htraces : ∀ other, ∃ rest, (log'.sinks other).writer.trace =
      (log.sinks other).writer.trace ++ rest ∧ rest = if other = index then calls else [] := by
    intro other
    rw [hsinks]
    by_cases hother : other = index
    · subst hother
      rw [Function.update_self, if_pos rfl]
      exact ⟨calls, htrace, rfl⟩
    · rw [Function.update_of_ne hother, if_neg hother]
      exact ⟨[], (List.append_nil _).symm, rfl⟩
  have hcalls : ∀ other, callsMade log log' other = if other = index then calls else [] := by
    intro other
    obtain ⟨rest, hrest, heq⟩ := htraces other
    rw [callsMade_eq hrest, heq]
  constructor
  · intro hopened other
    rw [hsinks]
    by_cases hother : other = index
    · subst hother
      rw [Function.update_self]
      exact hvalid hopened
    · rw [Function.update_of_ne hother]
      exact hopened other
  · intro other
    obtain ⟨rest, hrest, -⟩ := htraces other
    exact hrest ▸ List.prefix_append _ rest
  · intro _
    refine ⟨surplus, ?_, ?_⟩
    · have hsum : bytesOfAll (callsMade log log' 0) + bytesOfAll (callsMade log log' 1) =
          bytesOfAll calls := by
        rw [hcalls, hcalls]
        rcases Fin.exists_fin_two.1 ⟨index, rfl⟩ with h | h
        · rw [h]
          simp [bytesOfAll]
        · rw [h]
          simp [bytesOfAll]
      have hreached : log'.reached = log.reached + bytesOfAll (callsMade log log' 0) +
          bytesOfAll (callsMade log log' 1) := by
        apply reached_eq
        intro other
        obtain ⟨rest, hrest, -⟩ := htraces other
        exact ⟨rest, hrest⟩
      rw [accounted, accounted, hreached]
      omega
    · rw [hlate]
      constructor
      · intro hnot other
        rw [hcalls]
        split
        · exact hnot
        · exact RotatingLogWriter.not_failsLate_nil
      · intro hnot
        have hindex := hnot index
        rw [hcalls, if_pos rfl] at hindex
        exact hindex

theorem Still.lost (h : Still log mid) (hsinks : log'.sinks = mid.sinks)
    (hdropped : log'.health.droppedBytes = mid.health.droppedBytes + size) :
    Balanced log log' size := by
  have hlost : Balanced mid log' size := by
    have hsame : log'.sinks = Function.update mid.sinks 0 (mid.sinks 0) := by
      rw [hsinks, Function.update_eq_self]
    apply balanced_append 0 hsame (List.append_nil _).symm
    · exact fun hopened => hopened 0
    · exact hdropped
    · exact iff_of_true rfl RotatingLogWriter.not_failsLate_nil
  exact h.balanced hlost

theorem balanced_appendText (hopened : Opened log)
    (h : log.appendText fuel now index text = some log') : Balanced log log' text.length := by
  rw [appendText] at h
  split at h
  · rename_i hpresent
    have hfinished := append_finished fuel text (hopened index hpresent)
    split at h
    · cases h
    · rename_i writer happend
      rw [happend] at hfinished
      obtain ⟨calls, hmade, hbytes⟩ := hfinished.done rfl
      cases h
      apply balanced_append 0 rfl hmade.trace
      · exact fun _ _ => (hopened index hpresent).of_same hmade.toSame
      · rw [hbytes]
        rfl
      · exact iff_of_true rfl hmade.not_failsLate
    · rename_i error writer happend
      rw [happend] at hfinished
      obtain ⟨calls, hmade⟩ := hfinished.failed error rfl
      have hsinks : log'.sinks = Function.update log.sinks index ⟨false, writer.close⟩ ∧
          log'.health.droppedBytes = log.health.droppedBytes + text.length := by
        simp only [Option.some.injEq] at h
        rw [← h]
        split
        · exact ⟨rfl, rfl⟩
        · exact ⟨rfl, rfl⟩
      apply balanced_append (bytesOfAll calls) hsinks.1 hmade.trace
      · intro _ habsent
        cases habsent
      · rw [hsinks.2]
      · rw [hmade.failsLate_iff, Nat.pos_iff_ne_zero, not_not]
  · cases h
    exact Still.lost (.of_sinks rfl rfl) rfl rfl

/-- One text: what was written of it and what is counted as lost are the text, unless the append
has failed late. -/
theorem balanced_writeLog (hopened : Opened log)
    (h : log.writeLog fuel now stream text = some log') : Balanced log log' text.length := by
  rw [writeLog] at h
  split at h
  · have hopen := still_openWriter (log.writerIndex stream) log
    split at h
    · rename_i error mid hmid
      rw [hmid] at hopen
      cases h
      exact hopen.lost rfl rfl
    · rename_i mid hmid
      rw [hmid] at hopen
      have hready := (hopen.trans (still_siblings now mid.writerIndices mid)).trans
        (still_recover _)
      exact hready.balanced (balanced_appendText (hready.opened hopened) h)
  · exact balanced_appendText hopened h

/-- A piece of a program's output, at the time when it is read. -/
structure Chunk where
  now : Int
  stream : Fin 2
  text : List UInt8
  deriving DecidableEq, Repr

def handOver (fuel : Nat) (chunk : Chunk) (log : LogSinks) : Option LogSinks :=
  match log.platform with
  | .linux => log.redirectOutputLog fuel chunk.now chunk.stream chunk.text
  | .windows => log.appendProgramLog fuel chunk.now chunk.stream chunk.text

def run (fuel : Nat) : List Chunk → LogSinks → Option LogSinks
  | [], log => some log
  | chunk :: rest, log => (log.handOver fuel chunk).bind (run fuel rest)

def handedOver (chunks : List Chunk) : Nat := (chunks.map fun chunk => chunk.text.length).sum

/-- Whenever a system call fails in an append, the writes of this append have taken nothing
before. -/
def NoLateFailure (fuel : Nat) : List Chunk → LogSinks → Prop
  | [], _ => True
  | chunk :: rest, log => ∀ log', log.handOver fuel chunk = some log' →
    (∀ index, ¬ FailsLate (callsMade log log' index)) ∧ NoLateFailure fuel rest log'

theorem balanced_handOver (hopened : Opened log) (h : log.handOver fuel chunk = some log') :
    Balanced log log' chunk.text.length := by
  rw [handOver] at h
  split at h
  · exact balanced_writeLog hopened h
  · rw [appendProgramLog] at h
    split at h
    · rename_i hnil
      cases h
      rw [hnil]
      exact Still.lost (.of_sinks rfl rfl) rfl rfl
    · have htail : Still log { log with logTail := log.logTail.append chunk.text } :=
        .of_sinks rfl rfl
      exact htail.balanced (balanced_writeLog (htail.opened hopened) h)

theorem run_balanced (hopened : Opened log) (h : run fuel chunks log = some log') :
    ∃ surplus, log'.accounted = log.accounted + handedOver chunks + surplus ∧
      (surplus = 0 ↔ NoLateFailure fuel chunks log) := by
  induction chunks generalizing log with
  | nil =>
    cases h
    exact ⟨0, rfl, iff_of_true rfl trivial⟩
  | cons chunk rest ih =>
    rw [run, Option.bind_eq_some_iff] at h
    obtain ⟨mid, hmid, hrest⟩ := h
    have hstep := balanced_handOver hopened hmid
    obtain ⟨surplus, hsum, hlate⟩ := hstep.balance hopened
    obtain ⟨more, hmore, hlater⟩ := ih (hstep.opened hopened) hrest
    refine ⟨surplus + more, ?_, ?_⟩
    · rw [hmore, hsum, handedOver, handedOver, List.map_cons, List.sum_cons]
      omega
    · rw [Nat.add_eq_zero_iff, hlate, hlater, NoLateFailure]
      constructor
      · intro hboth log' hlog'
        rw [hmid] at hlog'
        cases hlog'
        exact hboth
      · intro hall
        exact hall mid hmid

theorem opened_initProgLog (now : Int) (h : ∀ index, (log.sinks index).present = false) :
    Opened (log.initProgLog now) := by
  have hclosed : Opened { log with logTail := log.logTail.clear, health := {} } := by
    intro index hpresent
    exact absurd (hpresent.symm.trans (h index)) Bool.noConfusion
  have hinit :
    ∀ (log : LogSinks) (index : Fin 2), Opened log → Opened (log.initWriter now index) := by
    intro log index hopened
    have hopen := log.still_openWriter index
    rw [initWriter]
    split
    · exact hopened
    · split
      · rename_i mid hmid
        rw [hmid] at hopen
        exact hopen.opened hopened
      · rename_i error mid hmid
        rw [hmid] at hopen
        exact hopen.opened hopened
  have hfold : ∀ (indices : List (Fin 2)) (log : LogSinks), Opened log →
      Opened (indices.foldl (initWriter now) log) := by
    intro indices
    induction indices with
    | nil => exact fun _ hopened => hopened
    | cons index rest ih => exact fun log hopened => ih _ (hinit log index hopened)
  exact hfold _ _ hclosed

/-- In the output of one generation, what has reached the log files and what is counted as lost are
together what was handed over, exactly if no append has failed after it had written a part. -/
theorem run_accounts_iff (start : Int) (log' : LogSinks)
    (hclosed : ∀ index, (log.sinks index).present = false)
    (h : run fuel chunks (log.initProgLog start) = some log') :
    log'.reached + log'.health.droppedBytes =
        (log.initProgLog start).reached + (log.initProgLog start).health.droppedBytes +
          handedOver chunks ↔
      NoLateFailure fuel chunks (log.initProgLog start) := by
  obtain ⟨surplus, hsum, hlate⟩ := run_balanced (opened_initProgLog start hclosed) h
  rw [accounted, accounted] at hsum
  rw [← hlate]
  omega

/-- A disk that takes one byte of the first write and is full after that. -/
def almostFull (time : Nat) : SystemCall → Answer
  | .write => if time = 3 then .done 1 else .failed "No space left on device"
  | _ => .done 0

/-- A program with a combined log on that disk. -/
def almostFullLog : LogSinks where
  platform := .linux
  name := "app"
  logMode := .combined
  sinks := fun _ =>
    { writer :=
        { platform := .linux
          path := "app.log"
          maxSizeBytes := 1024
          archiveCount := 3
          answers := almostFull } }

theorem run_almostFullLog : (run 3 [⟨0, 0, [97, 98]⟩] (almostFullLog.initProgLog 0)).map
    (fun log => (log.reached, log.health.droppedBytes)) = some (1, 2) := by
  decide +kernel

theorem almostFullLog_closed (index : Fin 2) : (almostFullLog.sinks index).present = false := rfl

/-- A byte that has reached the file is counted as lost with the rest of its text. -/
theorem run_loses_count : ¬ ∀ (fuel : Nat) (start : Int) (chunks : List Chunk)
    (log log' : LogSinks), (∀ index, (log.sinks index).present = false) →
    run fuel chunks (log.initProgLog start) = some log' →
    log'.reached + log'.health.droppedBytes =
      (log.initProgLog start).reached + (log.initProgLog start).health.droppedBytes +
        handedOver chunks := by
  intro hclaim
  obtain ⟨log', hrun, hlog'⟩ := Option.map_eq_some_iff.1 run_almostFullLog
  have hsum := hclaim 3 0 _ almostFullLog log' almostFullLog_closed hrun
  have hstart : (almostFullLog.initProgLog 0).reached +
      (almostFullLog.initProgLog 0).health.droppedBytes = 0 := by
    decide +kernel
  have hhanded : handedOver [⟨0, 0, [97, 98]⟩] = 2 := rfl
  obtain ⟨hreached, hdropped⟩ := Prod.mk.inj hlog'
  rw [hreached, hdropped, hstart, hhanded] at hsum
  cases hsum

theorem run_accounts_iff_almostFull : ∃ log',
    run 3 [⟨0, 0, [97, 98]⟩] (almostFullLog.initProgLog 0) = some log' ∧
      (log'.reached + log'.health.droppedBytes =
          (almostFullLog.initProgLog 0).reached +
            (almostFullLog.initProgLog 0).health.droppedBytes + handedOver [⟨0, 0, [97, 98]⟩] ↔
        NoLateFailure 3 [⟨0, 0, [97, 98]⟩] (almostFullLog.initProgLog 0)) := by
  obtain ⟨log', hrun, -⟩ := Option.map_eq_some_iff.1 run_almostFullLog
  exact ⟨log', hrun, run_accounts_iff 0 log' almostFullLog_closed hrun⟩

end LogSinks

end PmTiny
