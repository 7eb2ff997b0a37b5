import PmTiny.Daemon.LogFanOut

namespace PmTiny
set_option autoImplicit true

namespace LogClient

variable {client : LogClient} {write : StreamFrame × Bool}

/-- Writing the frames to the client, with nobody else around, closes it. -/
def fails (writes : List (StreamFrame × Bool)) (client : LogClient) : Bool :=
  (writes.foldl (fun client write => client.writeStreamFrame write) client).session.isClose

def frameBytes (writes : List (StreamFrame × Bool)) (client : LogClient) : List UInt8 :=
  (writes.map fun write => client.session.encodedFor write.1 write.2).flatten

/-- Detached: open, marked to be closed once its queue is flushed, and without a program. -/
def Detached (client : LogClient) : Prop :=
  client.session.isClose = false ∧ client.markedClose = true ∧ client.prog = none

@[simp] theorem writeStreamFrame_session (write : StreamFrame × Bool) (client : LogClient) :
    (client.writeStreamFrame write).session =
      client.session.writeStreamFrame write.1 write.2 := by
  rw [writeStreamFrame]
  split
  · rfl
  · rfl

theorem writeStreamFrame_closed (h : client.session.isClose = true) :
    client.writeStreamFrame write = client := by
  rw [writeStreamFrame]
  simp only [SendSession.writeStreamFrame_closed h, h, Bool.not_true, Bool.and_false,
    Bool.false_eq_true, if_false]

theorem visit_settled (write : StreamFrame × Bool) : (visit write).Settled :=
  fun _ h => writeStreamFrame_closed h

theorem fails_closed (h : client.session.isClose = true) (writes : List (StreamFrame × Bool)) :
    fails writes client = true := by
  induction writes with
  | nil => exact h
  | cons write writes ih =>
    rw [fails, List.foldl_cons, writeStreamFrame_closed h]
    exact ih

def Oversize (write : StreamFrame × Bool) : Prop :=
  sessionQueueLimit < ProtocolV3.headerSize + write.1.payload.length

theorem Oversize.closes (h : Oversize write) (client : LogClient) :
    (client.writeStreamFrame write).session.isClose = true := by
  rw [writeStreamFrame_session, SendSession.writeStreamFrame_overflow]
  exact Nat.lt_of_lt_of_le h (Nat.le_add_left _ _)

theorem Oversize.fails (h : Oversize write) (hmem : write ∈ writes) (client : LogClient) :
    LogClient.fails writes client = true := by
  induction writes generalizing client with
  | nil => cases hmem
  | cons first writes ih =>
    rcases List.mem_cons.1 hmem with rfl | hmem
    · exact fails_closed (h.closes client) writes
    · exact ih hmem (client.writeStreamFrame first)

theorem length_frameBytes (writes : List (StreamFrame × Bool)) (client : LogClient)
    (h : writes ≠ []) : 0 < (frameBytes writes client).length := by
  cases writes with
  | nil => exact absurd rfl h
  | cons write writes =>
    rw [frameBytes, List.map_cons, List.flatten_cons, List.length_append,
      SendSession.length_encodedFor, ProtocolV3.headerSize]
    omega

end LogClient

namespace FollowedProg

open LogClient

variable {p : FollowedProg} {writes : List (StreamFrame × Bool)}

/-- The state that the fan-out starts from: distinct sessions, all of them open. -/
structure Subscribed (p : FollowedProg) : Prop where
  nodup : p.sessions.Nodup
  isOpen : ∀ id ∈ p.sessions, (p.clients id).session.isClose = false

/-- Every session on which the frames do not fail has all of them to deliver, once and in order. -/
def Delivers (writes : List (StreamFrame × Bool)) (p p' : FollowedProg) : Prop :=
  ∀ id ∈ p.sessions, fails writes (p.clients id) = false →
    (p'.clients id).session.isClose = false ∧
      (p'.clients id).session.delivered =
        (p.clients id).session.delivered ++ frameBytes writes (p.clients id)

def round (write : StreamFrame × Bool) (p : FollowedProg) : FollowedProg :=
  let written := (LogClient.visit write).rangeFor p.sessions p.clients
  { p with sessions := written.1, clients := written.2 }

theorem fanOut_cons (write : StreamFrame × Bool) (writes : List (StreamFrame × Bool))
    (p : FollowedProg) : p.fanOut (write :: writes) = (p.round write).fanOut writes := rfl

theorem fanOut_append (first last : List (StreamFrame × Bool)) (p : FollowedProg) :
    p.fanOut (first ++ last) = (p.fanOut first).fanOut last := List.foldl_append ..

structure Tracks (l : List Nat) (p : FollowedProg) : Prop where
  subset : p.sessions ⊆ l
  mem_iff : ∀ id ∈ l, id ∈ p.sessions ↔ (p.clients id).session.isClose = false

theorem Subscribed.tracks (h : p.Subscribed) : Tracks p.sessions p where
  subset := List.Subset.refl _
  mem_iff id hid := ⟨fun _ => h.isOpen id hid, fun _ => hid⟩

theorem Tracks.round (h : Tracks l p) (write : StreamFrame × Bool) :
    Tracks l (p.round write) := by
  have hopen : ∀ id ∈ p.sessions, (LogClient.visit write).gone (p.clients id) = false :=
    fun id hid => (h.mem_iff id (h.subset hid)).1 hid
  constructor
  · intro id hid
    exact h.subset ((Visit.mem_rangeFor (visit_settled write) hopen).1 hid).1
  · intro id hl
    constructor
    · intro hid
      exact ((Visit.mem_rangeFor (visit_settled write) hopen).1 hid).2
    · intro hopen'
      have hid : id ∈ p.sessions := by
        by_contra hid
        have hsame : (p.round write).clients id = p.clients id := Visit.rangeFor_other hid
        rw [hsame] at hopen'
        exact hid ((h.mem_iff id hl).2 hopen')
      exact (Visit.mem_rangeFor (visit_settled write) hopen).2 ⟨hid, hopen'⟩

theorem Tracks.fanOut (h : Tracks l p) (writes : List (StreamFrame × Bool)) :
    Tracks l (p.fanOut writes) := by
  induction writes generalizing p with
  | nil => exact h
  | cons write writes ih => exact ih (h.round write)

/-- Frames larger than the queue close every session that they reach, and pass over every other
one. -/
theorem fanOut_oversize (h : p.Subscribed) (hover : ∀ write ∈ writes, Oversize write) :
    (p.fanOut writes).Subscribed ∧
      (p.fanOut writes).sessions = Visit.skipped^[writes.length] p.sessions ∧
      ∀ id ∈ (p.fanOut writes).sessions, (p.fanOut writes).clients id = p.clients id := by
  induction writes generalizing p with
  | nil => exact ⟨h, rfl, fun _ _ => rfl⟩
  | cons write writes ih =>
    obtain ⟨hlist, hcells⟩ := Visit.rangeFor_all_fail (visit_settled write) h.nodup
      (fun id hid => ⟨h.isOpen id hid, (hover write List.mem_cons_self).closes (p.clients id)⟩)
    have hround : (p.round write).Subscribed := by
      constructor
      · change ((LogClient.visit write).rangeFor p.sessions p.clients).1.Nodup
        rw [hlist]
        exact h.nodup.sublist (Visit.skipped_sublist _)
      · intro id hid
        exact ((h.tracks.round write).mem_iff id ((h.tracks.round write).subset hid)).1 hid
    obtain ⟨hsub, hsessions, hclients⟩ :=
      ih hround (fun w hw => hover w (List.mem_cons_of_mem write hw))
    refine ⟨hsub, ?_, ?_⟩
    · rw [fanOut_cons, hsessions, List.length_cons, Function.iterate_succ_apply]
      exact congrArg _ hlist
    · intro id hid
      have hmem : id ∈ Visit.skipped p.sessions := by
        have := (hround.tracks.fanOut writes).subset hid
        rw [← hlist]
        exact this
      rw [fanOut_cons, hclients id hid]
      exact hcells id hmem

/-- With one frame only the last two sessions may fail. With more frames, of which all but the last
close whatever they reach, at most two sessions may be left to the last one and it has to close
both. -/
def Spares (writes : List (StreamFrame × Bool)) (p : FollowedProg) : Prop :=
  ∀ write, writes.getLast? = some write →
    let left := Visit.skipped^[writes.length - 1] p.sessions
    (∀ id ∈ left.dropLast.dropLast, fails [write] (p.clients id) = false) ∧
      (1 < writes.length → ∀ id ∈ left, fails [write] (p.clients id) = true)

/-- What the fan-out owes to the sessions on which it does not fail. -/
def Isolates (writes : List (StreamFrame × Bool)) (p p' : FollowedProg) : Prop :=
  Delivers writes p p' ∧
    ∀ id, id ∈ p'.sessions ↔ id ∈ p.sessions ∧ fails writes (p.clients id) = false

theorem frameBytes_singleton (write : StreamFrame × Bool) (client : LogClient) :
    frameBytes [write] client = client.session.encodedFor write.1 write.2 := by
  rw [frameBytes, List.map_singleton, List.flatten_singleton]

/-- A single frame that fails on the last two sessions only reaches every session once. -/
theorem isolates_round (h : p.Subscribed)
    (hlast : ∀ id ∈ p.sessions.dropLast.dropLast, fails [write] (p.clients id) = false) :
    Isolates [write] p (p.round write) := by
  have hrange : (LogClient.visit write).rangeFor p.sessions p.clients =
      (Visit.survivors (LogClient.visit write) p.clients p.sessions,
        Visit.written (LogClient.visit write) p.sessions p.clients) :=
    Visit.rangeFor_last_two h.nodup h.isOpen (fun id hid => Bool.not_eq_true _ ▸ hlast id hid)
  have hsessions : (p.round write).sessions =
      Visit.survivors (LogClient.visit write) p.clients p.sessions := congrArg Prod.fst hrange
  have hclients : (p.round write).clients =
      Visit.written (LogClient.visit write) p.sessions p.clients :=
    congrArg Prod.snd hrange
  constructor
  · intro id hid hfine
    have hcell : (p.round write).clients id = (p.clients id).writeStreamFrame write := by
      rw [hclients]
      exact if_pos hid
    rw [hcell, writeStreamFrame_session, frameBytes_singleton]
    have hopen : ((p.clients id).session.writeStreamFrame write.1 write.2).isClose = false := by
      rw [← writeStreamFrame_session]
      exact hfine
    exact ⟨hopen, SendSession.writeStreamFrame_delivered hopen⟩
  · intro id
    rw [hsessions, Visit.survivors, List.mem_filter, Bool.not_eq_true']
    rfl

theorem isolates_iff_spares (h : p.Subscribed) (first : List (StreamFrame × Bool))
    (write : StreamFrame × Bool) (hover : ∀ write ∈ first, Oversize write) :
    Isolates (first ++ [write]) p (p.fanOut (first ++ [write])) ↔ Spares (first ++ [write]) p := by
  obtain ⟨hsub, hsessions, hclients⟩ := fanOut_oversize h hover
  have hfinal : p.fanOut (first ++ [write]) = (p.fanOut first).round write := fanOut_append ..
  have hcount : (first ++ [write]).length - 1 = first.length := by
    rw [List.length_append, List.length_singleton, Nat.add_sub_cancel]
  have hsame : ∀ id ∈ (p.fanOut first).sessions,
      fails [write] ((p.fanOut first).clients id) = fails [write] (p.clients id) := by
    intro id hid
    rw [hclients id hid]
  -- Every session fails on the first of several frames.
  have hall : 1 < (first ++ [write]).length → ∀ id,
      fails (first ++ [write]) (p.clients id) = true := by
    intro hlong id
    cases first with
    | nil => exact absurd hlong (by simp)
    | cons w first =>
      exact (hover w List.mem_cons_self).fails (List.mem_append_left _ List.mem_cons_self) _
  have hspares : Spares (first ++ [write]) p ↔
      (∀ id ∈ (p.fanOut first).sessions.dropLast.dropLast,
        fails [write] ((p.fanOut first).clients id) = false) ∧
        (1 < (first ++ [write]).length → ∀ id ∈ (p.fanOut first).sessions,
          fails [write] ((p.fanOut first).clients id) = true) := by
    have hinit : ∀ id ∈ (p.fanOut first).sessions.dropLast.dropLast,
        id ∈ (p.fanOut first).sessions := fun id hid =>
      List.dropLast_subset _ (List.dropLast_subset _ hid)
    have hlast : (first ++ [write]).getLast? = some write := List.getLast?_concat ..
    simp only [Spares, hlast, Option.some.injEq, forall_eq', hcount, ← hsessions]
    exact and_congr (forall₂_congr fun id hid => by rw [hsame id (hinit id hid)])
      (imp_congr_right fun _ => forall₂_congr fun id hid => by rw [hsame id hid])
  rw [hspares, hfinal]
  constructor
  · intro ⟨hdelivers, hleft⟩
    have hlast : ∀ id ∈ (p.fanOut first).sessions.dropLast.dropLast,
        fails [write] ((p.fanOut first).clients id) = false := by
      by_contra hnot
      have hkept : ¬∀ id ∈ (p.fanOut first).sessions.dropLast.dropLast,
          ¬(LogClient.visit write).Fails ((p.fanOut first).clients id) :=
        fun hkeep => hnot fun id hid => Bool.not_eq_true _ ▸ hkeep id hid
      obtain ⟨id, hid, hcell, hmem⟩ := Visit.rangeFor_passes_over hsub.nodup hsub.isOpen hkept
      obtain ⟨hp, hfine⟩ := (hleft id).1 hmem
      have hbytes := (hdelivers id hp hfine).2
      have hcell' : ((p.fanOut first).round write).clients id = p.clients id :=
        hcell.trans (hclients id hid)
      rw [hcell'] at hbytes
      have hlength := congrArg List.length hbytes
      rw [List.length_append] at hlength
      have := length_frameBytes (first ++ [write]) (p.clients id) (by simp)
      omega
    refine ⟨hlast, fun hlong id hid => ?_⟩
    by_contra hfine
    have hmem := ((isolates_round hsub hlast).2 id).2 ⟨hid, Bool.not_eq_true _ ▸ hfine⟩
    have := ((hleft id).1 hmem).2
    rw [hall hlong id] at this
    cases this
  · intro ⟨hlast, hlong⟩
    have hround := isolates_round hsub hlast
    cases first with
    | nil => exact hround
    | cons w first =>
      have hmany : 1 < (w :: first ++ [write]).length := by simp
      constructor
      · intro id _ hfine
        rw [hall hmany id] at hfine
        cases hfine
      · intro id
        rw [hround.2 id, hall hmany id]
        constructor
        · intro ⟨hid, hfine⟩
          rw [hlong hmany id hid] at hfine
          cases hfine
        · intro ⟨_, hfine⟩
          cases hfine

theorem streamWrites_split (msgType : Int) (content : List UInt8) :
    ∃ first write, streamWrites msgType content = first ++ [write] ∧
      ∀ write ∈ first, Oversize write := by
  obtain ⟨first, last, hsplit, -, hfirst⟩ := streamFrames_split msgType content
  rw [streamWrites, hsplit, List.mapIdx_concat]
  refine ⟨_, _, rfl, fun write hwrite => ?_⟩
  obtain ⟨i, hi, rfl⟩ := List.mem_mapIdx.1 hwrite
  rw [Oversize]
  simp only [hfirst _ (List.getElem_mem hi)]
  decide

/-- What the exit message owes to its followers: it reaches those on which it does not fail, and
detaches exactly them. -/
def IsolatesExit (p : FollowedProg) : Prop :=
  let writes := streamWrites 0 p.exitMessage
  Delivers writes p p.writeProgExitMessage ∧ p.writeProgExitMessage.sessions = [] ∧
    ∀ id ∈ p.sessions,
      Detached (p.writeProgExitMessage.clients id) ↔ fails writes (p.clients id) = false

theorem fanOut_isolates_iff (h : p.Subscribed) (msgType : Int) (content : List UInt8) :
    Isolates (streamWrites msgType content) p (p.fanOut (streamWrites msgType content)) ↔
      Spares (streamWrites msgType content) p := by
  obtain ⟨first, write, hsplit, hover⟩ := streamWrites_split msgType content
  rw [hsplit]
  exact isolates_iff_spares h first write hover

theorem fanOut_nil (h : p.sessions = []) : p.fanOut writes = p := by
  induction writes with
  | nil => rfl
  | cons write writes ih =>
    have hround : p.round write = p := by
      rw [round, h]
      cases p
      subst h
      rfl
    rw [fanOut_cons, hround, ih]

theorem writeMsgToSessions_eq (msgType : Int) (content : List UInt8) (p : FollowedProg) :
    p.writeMsgToSessions msgType content =
      { p with logTail := p.logTail.append content }.fanOut (streamWrites msgType content) := by
  rw [writeMsgToSessions]
  simp only
  split
  · rename_i hnil
    exact (fanOut_nil (p := { p with logTail := p.logTail.append content })
      (List.isEmpty_iff.1 hnil)).symm
  · rfl

theorem writeProgExitMessage_eq (p : FollowedProg) :
    p.writeProgExitMessage = (p.fanOut (streamWrites 0 p.exitMessage)).detachSessions := by
  rw [writeProgExitMessage]
  split
  · rename_i hnil
    rw [fanOut_nil (List.isEmpty_iff.1 hnil)]
  · rfl

theorem detachSessions_session (p : FollowedProg) (id : Nat) :
    (p.detachSessions.clients id).session = (p.clients id).session := by
  rw [detachSessions]
  simp only
  split
  · rfl
  · rfl

theorem Tracks.detached_iff {id : Nat} (h : Tracks l p) (hid : id ∈ l) :
    Detached (p.detachSessions.clients id) ↔ id ∈ p.sessions := by
  constructor
  · intro hdetached
    rw [h.mem_iff id hid, ← detachSessions_session]
    exact hdetached.1
  · intro hmem
    refine ⟨?_, ?_⟩
    · rw [detachSessions_session]
      exact (h.mem_iff id hid).1 hmem
    · simp only [detachSessions, if_pos hmem]
      exact ⟨rfl, rfl⟩

theorem isolatesExit_iff (h : p.Subscribed) :
    p.IsolatesExit ↔ Isolates (streamWrites 0 p.exitMessage) p
      (p.fanOut (streamWrites 0 p.exitMessage)) := by
  have htracks := h.tracks.fanOut (streamWrites 0 p.exitMessage)
  rw [IsolatesExit, writeProgExitMessage_eq]
  simp only [Isolates, Delivers, detachSessions_session]
  constructor
  · intro ⟨hdelivers, _, hdetached⟩
    refine ⟨hdelivers, fun id => ?_⟩
    constructor
    · intro hmem
      have hid := htracks.subset hmem
      exact ⟨hid, (hdetached id hid).1 ((htracks.detached_iff hid).2 hmem)⟩
    · intro ⟨hid, hfine⟩
      exact (htracks.detached_iff hid).1 ((hdetached id hid).2 hfine)
  · intro ⟨hdelivers, hleft⟩
    refine ⟨hdelivers, rfl, fun id hid => ?_⟩
    rw [htracks.detached_iff hid, hleft id]
    exact ⟨fun h => h.2, fun hfine => ⟨hid, hfine⟩⟩

/-- The fan-out of an output text, and that of the exit message, isolate the sessions that they
fail on exactly when the walk over the session vector passes nobody over. -/
theorem log_fan_out_isolates_iff (p : FollowedProg) (h : p.Subscribed) :
    (∀ (msgType : Int) (content : List UInt8),
      Isolates (streamWrites msgType content) p (p.writeMsgToSessions msgType content) ↔
        Spares (streamWrites msgType content) p) ∧
      (p.IsolatesExit ↔ Spares (streamWrites 0 p.exitMessage) p) := by
  constructor
  · intro msgType content
    rw [writeMsgToSessions_eq]
    have htail : ({ p with logTail := p.logTail.append content } : FollowedProg).Subscribed :=
      ⟨h.nodup, h.isOpen⟩
    exact fanOut_isolates_iff htail msgType content
  · rw [isolatesExit_iff h]
    exact fanOut_isolates_iff h 0 p.exitMessage

/-- Three followers with empty queues, one of which has lost its peer. -/
def threeFollowers (lost : Nat) : FollowedProg where
  name := "app"
  pid := 7
  sessions := [0, 1, 2]
  clients id :=
    { session :=
        { fsbufSize := 4096
          peer := fun _ => if id = lost then .brokenPipe else .sent 4096 }
      prog := some "app" }

theorem threeFollowers_subscribed (lost : Nat) : (threeFollowers lost).Subscribed :=
  ⟨(by decide : [0, 1, 2].Nodup), fun _ _ => rfl⟩

theorem log_fan_out_isolates_last_follower :
    (threeFollowers 2).Subscribed ∧
      Isolates (streamWrites 1 [104, 105]) (threeFollowers 2)
        ((threeFollowers 2).writeMsgToSessions 1 [104, 105]) := by
  refine ⟨threeFollowers_subscribed 2, ((log_fan_out_isolates_iff (threeFollowers 2)
    (threeFollowers_subscribed 2)).1 1 [104, 105]).2 ?_⟩
  intro write hwrite
  obtain rfl : _ = write := Option.some.inj hwrite
  decide +kernel

/-- The second follower gets nothing of the text when the first has lost its peer. -/
theorem log_fan_out_passes_over_follower :
    (threeFollowers 0).Subscribed ∧
      ¬Isolates (streamWrites 1 [104, 105]) (threeFollowers 0)
        ((threeFollowers 0).writeMsgToSessions 1 [104, 105]) := by
  refine ⟨threeFollowers_subscribed 0, fun h => ?_⟩
  have hfine : fails (streamWrites 1 [104, 105]) ((threeFollowers 0).clients 1) = false := by
    decide +kernel
  have hnone : (((threeFollowers 0).writeMsgToSessions 1 [104, 105]).clients 1).session.delivered =
      [] := by
    decide +kernel
  have hbytes := (h.1 1 (by decide) hfine).2
  rw [hnone] at hbytes
  exact absurd hbytes (by decide +kernel)

end FollowedProg

end PmTiny
