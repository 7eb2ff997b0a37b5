import PmTiny.Daemon.DaemonInfo

namespace PmTiny
set_option autoImplicit true

/-- What the frames show of the programs and the daemon beyond the state that the daemon acts on. -/
structure Details where
  nowMs : Int := 0
  prog : String → ProgDetails := fun _ => {}
  daemon : DaemonDetails := {}

namespace Details

def config (d : Details) (prog : ProgInfo) : ConfigSnapshot :=
  snapshotConfig prog (d.prog prog.name)

def runtime (d : Details) (prog : ProgInfo) : RuntimeSnapshot :=
  snapshotRuntime prog (d.prog prog.name) d.nowMs

def entry (d : Details) (prog : ProgInfo) : ProcessListEntry := ⟨d.config prog, d.runtime prog⟩

end Details

def startSchemaVersion : Int := 2

def StartResult.value : StartResult → Int
  | .started => 0
  | .waiting => 1
  | .blocked => 2

def appendStartResponse (response : StartResponse) : List Field :=
  List.flatten [
  [.int 4 startSchemaVersion, .int 4 response.result.value, .int 8 (pidValue response.pid),
    .str response.state],
  appendStrings startListTooLarge response.blockedBy,
  [.str ""]]

def programLogResponseSchemaVersion : Int := 1

def LogRequestMode.value : LogRequestMode → Int
  | .live => 0
  | .history => 1

def appendProgramLogResponse (response : ProgramLogResponse) : List Field :=
  let exit := response.lastWstatus.map exitOf
  [.int 4 programLogResponseSchemaVersion, .int 4 response.mode.value, .int 8 response.generation,
    .int 8 (pidValue response.lastPid), .int 8 response.lastExitTimeUnixMs,
    .str (exit.elim "" fun exit => exit.1.name), .int 4 (exit.elim 0 fun exit => exit.2)]

def snapshotFields (d : Details) (r : Registry) : Request → List Field
  | .list => appendProcessList (r.pmTinyProgs.map d.entry)
  | .info => appendDaemonInfo (makeDaemonInfo r d.daemon)
  | .inspect name => (r.findProg name).elim [] fun prog =>
      appendInspectSnapshot (d.config prog) (d.runtime prog)
  | .version => [.str d.daemon.version]
  | _ => []

def bodyFields (d : Details) (r : Registry) (request : Request) : ReplyBody → List Field
  | .none => []
  | .snapshot => snapshotFields d r request
  | .start response => appendStartResponse response
  | .pid pid => [.int 4 pid]
  | .log response => appendProgramLogResponse response

/-- The steps in which the payload of a response is built. -/
def Frame.fields (d : Details) (r : Registry) (frame : Frame) : List Field :=
  .int 4 frame.reply.status :: .str frame.reply.message ::
    bodyFields d r frame.request frame.reply.body

/-- What `write_frame` makes of a response, on a session with some bytes queued. -/
def Frame.send (d : Details) (r : Registry) (queuedBytes : Nat) (frame : Frame) :
    Except Failure Sent :=
  respond queuedBytes (UInt16.ofNat frame.messageType) (UInt32.ofNat frame.requestId)
    (frame.fields d r)

/-- The response raises no exception, however much is queued. -/
def Frame.Sendable (d : Details) (r : Registry) (frame : Frame) : Prop :=
  ∀ queuedBytes, ∃ sent, frame.send d r queuedBytes = .ok sent

theorem sendable_iff {d : Details} {r : Registry} {frame : Frame} :
    frame.Sendable d r ↔ ChecksPass (bodyFields d r frame.request frame.reply.body) ∧
      8 + frame.reply.message.utf8ByteSize +
        frameSize (bodyFields d r frame.request frame.reply.body) ≤ protocolV3MaxPayload := by
  have hsize : frameSize (frame.fields d r) = 8 + frame.reply.message.utf8ByteSize +
      frameSize (bodyFields d r frame.request frame.reply.body) := by
    simp only [Frame.fields, frameSize_cons, Field.size]
    omega
  have hchecks : ChecksPass (frame.fields d r) ↔
      ChecksPass (bodyFields d r frame.request frame.reply.body) := by
    simp [Frame.fields]
  rw [Frame.Sendable, ← hsize, ← hchecks]
  constructor
  · intro h
    exact (respond_ok_iff _ _ _ _).1 (h 0)
  · intro h queuedBytes
    exact (respond_ok_iff _ _ _ _).2 h

theorem queued_iff {d : Details} {r : Registry} {frame : Frame} :
    (∃ queuedBytes, frame.send d r 0 = .ok (.queued queuedBytes)) ↔
      ChecksPass (bodyFields d r frame.request frame.reply.body) ∧
        24 + frame.reply.message.utf8ByteSize +
          frameSize (bodyFields d r frame.request frame.reply.body) ≤ sessionQueueLimit := by
  have hsize : ProtocolV3.headerSize + frameSize (frame.fields d r) =
      24 + frame.reply.message.utf8ByteSize +
        frameSize (bodyFields d r frame.request frame.reply.body) := by
    simp only [Frame.fields, frameSize_cons, Field.size, ProtocolV3.headerSize]
    omega
  have hchecks : ChecksPass (frame.fields d r) ↔
      ChecksPass (bodyFields d r frame.request frame.reply.body) := by
    simp [Frame.fields]
  rw [← hsize, ← hchecks]
  exact respond_queued_iff _ _ _

end PmTiny
