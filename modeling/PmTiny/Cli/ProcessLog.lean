import PmTiny.Protocol.Decoding
import PmTiny.Protocol.FrameReader
import PmTiny.Protocol.SendQueue

namespace PmTiny
set_option autoImplicit true

/-- What ends a wait for the socket: bytes to read, the end of the connection, or a signal. -/
inductive ClientRead where
  | bytes (chunk : List UInt8)
  | eof
  | interrupted
  deriving DecidableEq, Repr

/-- The receiving side of the CLI's session, with the locals of `loop_read_show_process_log` and
what it has printed. -/
structure LogReader where
  decoder : ProtocolDecoder := {}
  recvMessages : List ProtocolMessage := []
  isClose : Bool := false
  msgType : Int := 1
  msgContent : List UInt8 := []
  printed : List UInt8 := []
  deriving DecidableEq, Repr

inductive LoopOutcome where
  | waiting
  | returned (success : Bool)
  | threw
  deriving DecidableEq, Repr

namespace LogReader

/-- `session_t::read` of a chunk: whole messages are moved to the receive queue. -/
def read (s : LogReader) (chunk : List UInt8) : LogReader :=
  let fed := s.decoder.feed chunk
  match fed.2 with
  | none => { s with
      decoder := { fed.1 with messages := [] }
      recvMessages := s.recvMessages ++ fed.1.messages }
  | some _ => { s with decoder := fed.1, isClose := true }

/-- What `printf("%s", ...)` writes of a string. -/
def cStr (content : List UInt8) : List UInt8 := content.takeWhile (· ≠ 0)

def readFrame (payload : List UInt8) : Except String (Int × List UInt8) :=
  match fgetInt 4 payload with
  | .error what => .error what
  | .ok (msgType, rest) => (fgetString rest).map fun text => (msgType, text.1)

/-- The inner loop: queued frames are shown until one of them ends the stream. -/
def showFrames : List ProtocolMessage → LogReader → Except String LogReader
  | [], s => .ok { s with recvMessages := [] }
  | message :: messages, s =>
    match readFrame message.payload with
    | .error what => .error what
    | .ok (msgType, text) =>
      let content := s.msgContent ++ text
      if msgType = 2 then showFrames messages { s with msgType := msgType, msgContent := content }
      else
        let s := { s with
          msgType := msgType, msgContent := [], printed := s.printed ++ cStr content }
        if msgType = 0 then .ok { s with recvMessages := messages } else showFrames messages s

/-- `loop_read_show_process_log`, as far as the reads take it. -/
def loopReadShowProcessLog : List ClientRead → LogReader → LogReader × LoopOutcome
  | reads, s =>
    if s.isClose then (s, .returned (s.msgType == 0))
    else
      match showFrames s.recvMessages s with
      | .error _ => (s, .threw)
      | .ok s =>
        if s.msgType = 0 then (s, .returned true)
        else
          match reads with
          | [] => (s, .waiting)
          | .bytes chunk :: reads => loopReadShowProcessLog reads (s.read chunk)
          | .eof :: reads => loopReadShowProcessLog reads { s with isClose := true }
          | .interrupted :: _ => (s, .returned false)

theorem readFrame_streamPayload {piece : Int × List UInt8} (hlow : -2 ^ 31 ≤ piece.1)
    (hhigh : piece.1 < 2 ^ 31) (hlength : piece.2.length ≤ protocolV3MaxPayload) :
    readFrame (streamPayload piece) = .ok piece := by
  have hstring := fgetString_append hlength []
  rw [List.append_nil] at hstring
  rw [readFrame, streamPayload, List.append_assoc, fgetInt_four hlow hhigh]
  simp only [hstring, Except.map]

def IsData (message : ProtocolMessage) : Prop := ∃ text, readFrame message.payload = .ok (1, text)

def IsExit (message : ProtocolMessage) : Prop := ∃ text, readFrame message.payload = .ok (0, text)

def shown (message : ProtocolMessage) : List UInt8 :=
  match readFrame message.payload with
  | .ok piece => cStr piece.2
  | .error _ => []

variable {s : LogReader}

theorem not_isExit_of_isData (h : IsData message) : ¬IsExit message := by
  obtain ⟨text, htext⟩ := h
  intro ⟨text', htext'⟩
  rw [htext] at htext'
  cases htext'

/-- Between two messages the loop holds no text back. -/
structure Ready (s : LogReader) : Prop where
  msgType : s.msgType = 1
  msgContent : s.msgContent = []

theorem showFrames_cons (hs : s.Ready) (hdata : IsData message)
    (messages : List ProtocolMessage) :
    showFrames (message :: messages) s =
      showFrames messages { s with printed := s.printed ++ shown message } := by
  obtain ⟨text, htext⟩ := hdata
  obtain ⟨htype, hcontent⟩ := hs
  have hshown : shown message = cStr text := by rw [shown, htext]
  rw [showFrames, htext]
  cases s
  subst htype hcontent
  rw [hshown]
  rfl

theorem Ready.shows (hs : s.Ready) (text : List UInt8) :
    ({ s with printed := s.printed ++ text } : LogReader).Ready := ⟨hs.msgType, hs.msgContent⟩

theorem showFrames_data (hs : s.Ready) (hdata : ∀ message ∈ messages, IsData message) :
    showFrames messages s =
      .ok { s with recvMessages := [], printed := s.printed ++ (messages.map shown).flatten } := by
  induction messages generalizing s with
  | nil => rw [showFrames, List.map_nil, List.flatten_nil, List.append_nil]
  | cons message messages ih =>
    rw [showFrames_cons hs (hdata message List.mem_cons_self),
      ih (hs.shows _) (fun m hm => hdata m (List.mem_cons_of_mem message hm)), List.map_cons,
      List.flatten_cons, List.append_assoc]

theorem showFrames_exit (hs : s.Ready) (hdata : ∀ message ∈ messages, IsData message)
    (hexit : IsExit last) :
    showFrames (messages ++ [last]) s =
      .ok { s with
        msgType := 0
        recvMessages := []
        printed := s.printed ++ ((messages ++ [last]).map shown).flatten } := by
  induction messages generalizing s with
  | nil =>
    obtain ⟨text, htext⟩ := hexit
    have hshown : shown last = cStr text := by rw [shown, htext]
    rw [List.nil_append, showFrames, htext, List.map_singleton, List.flatten_singleton, hshown]
    simp only [hs.msgContent, List.nil_append, if_true, show (0 : Int) ≠ 2 by decide, if_false]
  | cons message messages ih =>
    rw [List.cons_append, showFrames_cons hs (hdata message List.mem_cons_self),
      ih (hs.shows _) (fun m hm => hdata m (List.mem_cons_of_mem message hm)), List.map_cons,
      List.flatten_cons, List.append_assoc]

/-- The messages of a log stream: output, and at most one exit event at the end. -/
def IsStream (messages : List ProtocolMessage) : Prop :=
  (∀ message ∈ messages, IsData message) ∨
    ∃ data last, messages = data ++ [last] ∧ (∀ message ∈ data, IsData message) ∧ IsExit last

/-- The reader has decoded the bytes fed so far, and shown the first of their messages. -/
structure Reads (s : LogReader) (fed : List UInt8) (old : List ProtocolMessage) : Prop where
  drains : Drains ProtocolV3.frontFrame fed (old ++ s.recvMessages) s.decoder.buffer none
  empty : s.decoder.messages = []
  isOpen : s.isClose = false

theorem drains_prefix (h : Drains ProtocolV3.frontFrame bytes messages rest none)
    (hall : Drains ProtocolV3.frontFrame (bytes ++ later) all rest' none) :
    messages.IsPrefix all := by
  obtain ⟨rest'', r, hd, -⟩ := ProtocolV3.parseFrames_drains (rest ++ later)
  obtain ⟨hmessages, -, -⟩ :=
    (h.append ProtocolV3.incremental_frontFrame hd).unique hall
  exact ⟨_, hmessages⟩

theorem Reads.read (h : Reads s fed old)
    (hall : Drains ProtocolV3.frontFrame (fed ++ chunk ++ later) all rest none) :
    Reads (s.read chunk) (fed ++ chunk) old := by
  obtain ⟨messages, hfed, hm⟩ := s.decoder.feed_drains (h.drains.rest_none rfl) chunk
  have hboth := h.drains.append ProtocolV3.incremental_frontFrame hfed
  rw [h.empty, List.nil_append] at hm
  cases hr : (s.decoder.feed chunk).2 with
  | none =>
    rw [hr, List.append_assoc, ← hm] at hboth
    have hread : s.read chunk = { s with
        decoder := { (s.decoder.feed chunk).1 with messages := [] }
        recvMessages := s.recvMessages ++ (s.decoder.feed chunk).1.messages } := by
      rw [LogReader.read, hr]
    rw [hread]
    exact ⟨hboth, rfl, h.isOpen⟩
  | some e =>
    rw [hr] at hboth
    obtain ⟨-, -, hnone⟩ :=
      (hboth.stuck ProtocolV3.incremental_frontFrame later).unique hall
    cases hnone

theorem read_shows (s : LogReader) (chunk : List UInt8) :
    (s.read chunk).printed = s.printed ∧ (s.read chunk).msgType = s.msgType ∧
      (s.read chunk).msgContent = s.msgContent := by
  rw [read]
  simp only
  split
  · exact ⟨rfl, rfl, rfl⟩
  · exact ⟨rfl, rfl, rfl⟩

theorem IsStream.queued (h : IsStream all) (hsub : (old ++ messages).IsPrefix all)
    (hold : ∀ message ∈ old, IsData message) :
    (∀ message ∈ messages, IsData message) ∨
      ∃ data last, messages = data ++ [last] ∧ (∀ message ∈ data, IsData message) ∧
        IsExit last ∧ old ++ messages = all := by
  rcases h with hdata | ⟨data, last, rfl, hdata, hexit⟩
  · exact .inl fun m hm => hdata m (hsub.subset (List.mem_append_right old hm))
  · rcases List.prefix_concat_iff.1 hsub with heq | hsub
    · right
      rcases List.eq_nil_or_concat messages with rfl | ⟨first, m, rfl⟩
      · rw [List.append_nil] at heq
        have hlast := hold last (heq ▸ List.mem_append_right data List.mem_cons_self)
        exact absurd hexit (not_isExit_of_isData hlast)
      · rw [List.concat_eq_append, ← List.append_assoc] at heq
        rw [List.concat_eq_append]
        obtain ⟨hfirst, hm⟩ := List.append_inj' heq rfl
        obtain rfl : m = last := List.singleton_inj.1 hm
        refine ⟨first, m, rfl, fun d hd => ?_, hexit, by rw [← List.append_assoc, heq]⟩
        exact hdata d (hfirst ▸ List.mem_append_right old hd)
    · exact .inl fun m hm => hdata m (hsub.subset (List.mem_append_right old hm))

theorem loop_data (hs : s.Ready) (hopen : s.isClose = false)
    (hdata : ∀ message ∈ s.recvMessages, IsData message) (reads : List ClientRead) :
    loopReadShowProcessLog reads s =
      let s' := { s with
        recvMessages := []
        printed := s.printed ++ (s.recvMessages.map shown).flatten }
      match reads with
      | [] => (s', .waiting)
      | .bytes chunk :: reads => loopReadShowProcessLog reads (s'.read chunk)
      | .eof :: reads => loopReadShowProcessLog reads { s' with isClose := true }
      | .interrupted :: _ => (s', .returned false) := by
  have htype : s.msgType ≠ 0 := by
    rw [hs.msgType]
    decide
  rw [loopReadShowProcessLog, if_neg (Bool.not_eq_true _ ▸ hopen), showFrames_data hs hdata]
  simp only [htype, if_false]

theorem loop_exit (hs : s.Ready) (hopen : s.isClose = false)
    (hmessages : s.recvMessages = data ++ [last]) (hdata : ∀ message ∈ data, IsData message)
    (hexit : IsExit last) (reads : List ClientRead) :
    (loopReadShowProcessLog reads s).1.printed =
        s.printed ++ (s.recvMessages.map shown).flatten ∧
      (loopReadShowProcessLog reads s).2 = .returned true := by
  have hshow := showFrames_exit hs hdata hexit
  rw [← hmessages] at hshow
  rw [loopReadShowProcessLog, hopen, if_neg Bool.false_ne_true, hshow]
  exact ⟨rfl, rfl⟩

def Ending (reads : List ClientRead) : Prop := ∀ chunk, .bytes chunk ∉ reads

theorem loop_ending (hs : s.Ready) (hopen : s.isClose = false)
    (hdata : ∀ message ∈ s.recvMessages, IsData message) (hending : Ending reads) :
    (loopReadShowProcessLog reads s).1.printed =
        s.printed ++ (s.recvMessages.map shown).flatten ∧
      (loopReadShowProcessLog reads s).2 ≠ .returned true := by
  rw [loop_data hs hopen hdata]
  cases reads with
  | nil => exact ⟨rfl, LoopOutcome.noConfusion⟩
  | cons read reads =>
    cases read with
    | bytes chunk => exact absurd List.mem_cons_self (hending chunk)
    | eof =>
      have htype : (s.msgType == 0) = false := by
        rw [hs.msgType]
        rfl
      simp only
      rw [loopReadShowProcessLog, if_pos rfl]
      simp only [htype]
      exact ⟨trivial, by decide⟩
    | interrupted => exact ⟨rfl, fun h => by cases h⟩

/-- The loop prints what the messages of the stream show, however the stream is cut into reads, and
reports success exactly when the exit event is among them. -/
theorem loop_shows {chunks : List (List UInt8)} (hs : s.Ready) (hreads : Reads s fed old)
    (hold : ∀ message ∈ old, IsData message) (hprinted : s.printed = (old.map shown).flatten)
    (hall : Drains ProtocolV3.frontFrame (fed ++ chunks.flatten) all rest none)
    (hstream : IsStream all) (hending : Ending ending) :
    (loopReadShowProcessLog (chunks.map .bytes ++ ending) s).1.printed =
        (all.map shown).flatten ∧
      ((loopReadShowProcessLog (chunks.map .bytes ++ ending) s).2 = .returned true ↔
        ∃ message ∈ all, IsExit message) := by
  induction chunks generalizing s fed old with
  | nil =>
    rw [List.flatten_nil, List.append_nil] at hall
    obtain ⟨hmessages, -, -⟩ := hreads.drains.unique hall
    rcases hstream.queued ⟨[], by rw [List.append_nil, hmessages]⟩ hold with
      hdata | ⟨data, last, hrecv, hdata, hexit, -⟩
    · obtain ⟨hshown, hfails⟩ := loop_ending hs hreads.isOpen hdata hending
      rw [List.map_nil, List.nil_append, hshown, hprinted, ← List.flatten_append,
        ← List.map_append, hmessages]
      refine ⟨rfl, ⟨fun h => absurd h hfails, fun ⟨m, hm, hexit⟩ => ?_⟩⟩
      rw [← hmessages] at hm
      rcases List.mem_append.1 hm with hm | hm
      · exact absurd hexit (not_isExit_of_isData (hold m hm))
      · exact absurd hexit (not_isExit_of_isData (hdata m hm))
    · obtain ⟨hshown, hsuccess⟩ := loop_exit hs hreads.isOpen hrecv hdata hexit ending
      rw [List.map_nil, List.nil_append, hshown, hsuccess, hprinted, ← List.flatten_append,
        ← List.map_append, hmessages]
      refine ⟨rfl, ⟨fun _ => ⟨last, ?_, hexit⟩, fun _ => rfl⟩⟩
      rw [← hmessages, hrecv]
      simp
  | cons chunk chunks ih =>
    rw [List.flatten_cons, ← List.append_assoc] at hall
    have hsub := drains_prefix hreads.drains (by rw [List.append_assoc] at hall; exact hall)
    rcases hstream.queued hsub hold with hdata | ⟨data, last, hrecv, hdata, hexit, heq⟩
    · have hread := hreads.read hall
      obtain ⟨s', hs'⟩ : ∃ s' : LogReader, s' = { s with
          recvMessages := []
          printed := s.printed ++ (s.recvMessages.map shown).flatten } := ⟨_, rfl⟩
      have hreads' : Reads s' fed (old ++ s.recvMessages) := by
        subst hs'
        exact ⟨by rw [List.append_nil]; exact hreads.drains, hreads.empty, hreads.isOpen⟩
      obtain ⟨hp, ht, hc⟩ := s'.read_shows chunk
      have hready : (s'.read chunk).Ready := by
        rw [hs'] at ht hc
        exact ⟨hs' ▸ ht.trans hs.msgType, hs' ▸ hc.trans hs.msgContent⟩
      rw [List.map_cons, List.cons_append, loop_data hs hreads.isOpen hdata]
      simp only [← hs']
      apply ih hready (hreads'.read hall)
      · intro m hm
        rcases List.mem_append.1 hm with hm | hm
        · exact hold m hm
        · exact hdata m hm
      · rw [hp, hs', List.map_append, List.flatten_append, hprinted]
      · exact hall
    · obtain ⟨hshown, hsuccess⟩ :=
        loop_exit hs hreads.isOpen hrecv hdata hexit ((chunk :: chunks).map .bytes ++ ending)
      rw [hshown, hsuccess, hprinted, ← List.flatten_append, ← List.map_append, heq]
      refine ⟨rfl, ⟨fun _ => ⟨last, ?_, hexit⟩, fun _ => rfl⟩⟩
      rw [← heq, hrecv]
      simp

theorem reads_early (early : List (List UInt8)) (hs : s.Ready) (hreads : Reads s fed [])
    (hprinted : s.printed = [])
    (hall : Drains ProtocolV3.frontFrame (fed ++ early.flatten ++ later) all rest none) :
    (early.foldl read s).Ready ∧ Reads (early.foldl read s) (fed ++ early.flatten) [] ∧
      (early.foldl read s).printed = [] := by
  induction early generalizing s fed with
  | nil =>
    rw [List.flatten_nil, List.append_nil]
    exact ⟨hs, hreads, hprinted⟩
  | cons chunk early ih =>
    rw [List.flatten_cons, ← List.append_assoc] at hall ⊢
    obtain ⟨hp, ht, hc⟩ := s.read_shows chunk
    rw [List.foldl_cons]
    exact ih ⟨ht.trans hs.msgType, hc.trans hs.msgContent⟩
      (hreads.read (by rw [List.append_assoc] at hall; exact hall)) (hp.trans hprinted) hall

theorem loop_stream (early chunks : List (List UInt8))
    (hall : Drains ProtocolV3.frontFrame (early ++ chunks).flatten all rest none)
    (hstream : IsStream all) (hending : Ending ending) :
    (loopReadShowProcessLog (chunks.map .bytes ++ ending) (early.foldl read {})).1.printed =
        (all.map shown).flatten ∧
      ((loopReadShowProcessLog (chunks.map .bytes ++ ending) (early.foldl read {})).2 =
          .returned true ↔
        ∃ message ∈ (ProtocolV3.parseFrames (early ++ chunks).flatten).1, IsExit message) := by
  obtain ⟨rest', r, hparsed, -⟩ := ProtocolV3.parseFrames_drains (early ++ chunks).flatten
  obtain ⟨hmessages, -, -⟩ := hparsed.unique hall
  rw [List.flatten_append] at hall
  have hstart : Reads {} [] [] := ⟨.more rfl, rfl, rfl⟩
  obtain ⟨hready, hreads, hprinted⟩ := reads_early early ⟨rfl, rfl⟩ hstart rfl hall
  rw [hmessages]
  exact loop_shows hready hreads (fun _ h => absurd h List.not_mem_nil) hprinted hall hstream
    hending

end LogReader

end PmTiny
