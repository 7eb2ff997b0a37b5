import PmTiny.Daemon.LogSessions
import PmTiny.Lib.Subscriptions

namespace PmTiny.LogSessions
open Subscriptions
set_option autoImplicit true

namespace LogServer

variable {s s' : LogServer} {id : Nat}

/-- Programs and sessions keep their identities, and lists and back pointers agree. -/
structure Sound (s : LogServer) : Prop where
  ids : (s.progs.map LogProg.id).Nodup
  idLt : ∀ k ∈ s.progs.map LogProg.id, k < s.nextProg
  sessionLt : ∀ k ∈ s.sessions.map LogSession.id, k < s.sessions.length
  agree : Agree s.subscribers s.isOpen s.getProg

theorem findProg_updateProg (s : LogServer) (k q : Nat) (hf : ∀ p, (f p).id = p.id) :
    (s.updateProg k f).findProg q = if q = k then (s.findProg k).map f else s.findProg q :=
  Keyed.find_update hf

theorem findSession_updateSession (s : LogServer) (k y : Nat) (hf : ∀ x, (f x).id = x.id) :
    (s.updateSession k f).findSession y =
      if y = k then (s.findSession k).map f else s.findSession y :=
  Keyed.find_update hf

theorem subscribers_updateProg (s : LogServer) (k : Nat) (hid : ∀ p, (f p).id = p.id)
    (hs : ∀ p, (f p).sessions = p.sessions) (q : Nat) :
    (s.updateProg k f).subscribers q = s.subscribers q := by
  rw [subscribers, findProg_updateProg s k q hid, subscribers]
  split
  · rename_i hq
    subst hq
    cases s.findProg q with
    | none => rfl
    | some p => simp [hs]
  · rfl

theorem Sound.updateProg (h : s.Sound) (k : Nat) (hid : ∀ p, (f p).id = p.id)
    (hs : ∀ p, (f p).sessions = p.sessions) : (s.updateProg k f).Sound := by
  have hmap : (s.updateProg k f).progs.map LogProg.id = s.progs.map LogProg.id :=
    Keyed.map_key_update hid
  refine ⟨?_, ?_, h.sessionLt, ?_⟩
  · rw [hmap]
    exact h.ids
  · rw [hmap]
    exact h.idLt
  · have hsubs : (s.updateProg k f).subscribers = s.subscribers :=
      funext (subscribers_updateProg s k hid hs)
    rw [hsubs]
    exact h.agree

section Close

theorem subscribers_removeSession (s : LogServer) (prog session q : Nat) :
    (s.removeSession prog session).subscribers q =
      if q = prog then (s.subscribers prog).filter (· ≠ session) else s.subscribers q := by
  rw [subscribers, removeSession, findProg_updateProg s prog q fun _ => by rfl]
  split
  · rw [subscribers]
    cases s.findProg prog <;> rfl
  · rfl

theorem closeSession_of_closed (h : s.isOpen id = false) : s.closeSession id = s := by
  rw [closeSession, h]
  simp

theorem subscribers_closeSession (h : s.isOpen id = true) (q : Nat) :
    (s.closeSession id).subscribers q =
      if s.getProg id = some q then (s.subscribers q).filter (· ≠ id) else s.subscribers q := by
  rw [closeSession, if_pos h]
  cases hp : s.getProg id with
  | none => rfl
  | some prog =>
    refine (subscribers_removeSession s prog id q).trans ?_
    by_cases hq : q = prog
    · rw [if_pos hq, if_pos (by rw [hq]), hq]
    · rw [if_neg hq, if_neg (by simpa using Ne.symm hq)]

theorem findSession_closeSession (h : s.isOpen id = true) (y : Nat) :
    (s.closeSession id).findSession y = if y = id then
      (s.findSession id).map fun x => { x with isOpen := false, prog := none }
      else s.findSession y := by
  rw [closeSession, if_pos h]
  cases s.getProg id with
  | none => exact findSession_updateSession s id y fun _ => rfl
  | some prog => exact findSession_updateSession (s.removeSession prog id) id y fun _ => rfl

theorem isOpen_closeSession (h : s.isOpen id = true) (y : Nat) :
    (s.closeSession id).isOpen y = if y = id then false else s.isOpen y := by
  rw [isOpen, findSession_closeSession h]
  split
  · cases s.findSession id <;> rfl
  · rfl

theorem getProg_closeSession (h : s.isOpen id = true) (y : Nat) :
    (s.closeSession id).getProg y = if y = id then none else s.getProg y := by
  rw [getProg, findSession_closeSession h]
  split
  · cases s.findSession id <;> rfl
  · rfl

theorem closeSession_frame (s : LogServer) (id : Nat) :
    (s.closeSession id).progs.map LogProg.id = s.progs.map LogProg.id ∧
      (s.closeSession id).sessions.map LogSession.id = s.sessions.map LogSession.id ∧
      (s.closeSession id).nextProg = s.nextProg := by
  rw [closeSession]
  split
  · cases s.getProg id with
    | none => exact ⟨rfl, Keyed.map_key_update fun _ => rfl, rfl⟩
    | some prog =>
      exact ⟨Keyed.map_key_update fun _ => rfl, Keyed.map_key_update fun _ => rfl, rfl⟩
  · exact ⟨rfl, rfl, rfl⟩

theorem Sound.of_frame (h : s.Sound)
    (hp : s'.progs.map LogProg.id = s.progs.map LogProg.id)
    (hs : s'.sessions.map LogSession.id = s.sessions.map LogSession.id)
    (hn : s'.nextProg = s.nextProg) (ha : Agree s'.subscribers s'.isOpen s'.getProg) :
    s'.Sound := by
  have hlen : s'.sessions.length = s.sessions.length := by simpa using congrArg List.length hs
  refine ⟨?_, ?_, ?_, ha⟩
  · rw [hp]
    exact h.ids
  · rw [hp, hn]
    exact h.idLt
  · rw [hs, hlen]
    exact h.sessionLt

theorem Sound.closeSession (h : s.Sound) (id : Nat) : (s.closeSession id).Sound := by
  cases ho : s.isOpen id with
  | false =>
    rw [closeSession_of_closed ho]
    exact h
  | true =>
    obtain ⟨hp, hs, hn⟩ := closeSession_frame s id
    exact h.of_frame hp hs hn (h.agree.leave id (subscribers_closeSession ho)
      (isOpen_closeSession ho) (getProg_closeSession ho))

structure Fewer (s s' : LogServer) : Prop where
  isOpen : ∀ y, s'.isOpen y = true → s.isOpen y = true
  getProg : ∀ y, s.getProg y = none → s'.getProg y = none
  subscribers : ∀ q, s'.subscribers q ⊆ s.subscribers q

theorem Fewer.refl (s : LogServer) : Fewer s s :=
  ⟨fun _ h => h, fun _ h => h, fun _ => List.Subset.refl _⟩

theorem fewer_closeSession (s : LogServer) (id : Nat) : Fewer s (s.closeSession id) := by
  cases ho : s.isOpen id with
  | false =>
    rw [closeSession_of_closed ho]
    exact Fewer.refl s
  | true =>
    refine ⟨?_, ?_, ?_⟩
    · intro y hy
      rw [isOpen_closeSession ho] at hy
      split at hy
      · cases hy
      · exact hy
    · intro y hy
      rw [getProg_closeSession ho]
      split
      · rfl
      · exact hy
    · intro q
      rw [subscribers_closeSession ho]
      split
      · exact List.filter_subset_self _
      · exact List.Subset.refl _

theorem fewer_writeFrame (s : LogServer) (closes : List Nat) (id : Nat) :
    Fewer s (s.writeFrame closes id) := by
  rw [writeFrame]
  split
  · exact fewer_closeSession s id
  · exact Fewer.refl s

theorem Sound.writeFrame (h : s.Sound) (closes : List Nat) (id : Nat) :
    (s.writeFrame closes id).Sound := by
  rw [LogServer.writeFrame]
  split
  · exact h.closeSession id
  · exact h

theorem Sound.writeFrames (h : s.Sound) (closes ids : List Nat) :
    (s.writeFrames closes ids).Sound := by
  rw [LogServer.writeFrames]
  induction ids generalizing s with
  | nil => exact h
  | cons id ids ih => exact ih (h.writeFrame closes id)

theorem subscribers_writeFrames (s : LogServer) (closes ids : List Nat) (q : Nat) :
    (s.writeFrames closes ids).subscribers q ⊆ s.subscribers q := by
  rw [LogServer.writeFrames]
  induction ids generalizing s with
  | nil => exact List.Subset.refl _
  | cons id ids ih =>
    exact List.Subset.trans (ih (s.writeFrame closes id))
      ((fewer_writeFrame s closes id).subscribers q)

theorem subscribers_failPending (s : LogServer) (prog : Nat) (closes : List Nat) (q : Nat) :
    (s.failPendingLogSessions prog closes).subscribers q ⊆ s.subscribers q := by
  rw [LogServer.failPendingLogSessions]
  cases s.findProg prog with
  | none => exact List.Subset.refl _
  | some p =>
    simp only
    rw [subscribers_updateProg _ prog (fun _ => by rfl) fun _ => by rfl]
    exact subscribers_writeFrames s closes _ q

theorem Sound.failPendingLogSessions (h : s.Sound) (prog : Nat) (closes : List Nat) :
    (s.failPendingLogSessions prog closes).Sound := by
  rw [LogServer.failPendingLogSessions]
  cases s.findProg prog with
  | none => exact h
  | some p => exact (h.writeFrames closes _).updateProg prog (fun _ => rfl) fun _ => rfl

end Close

section Add

theorem subscribers_addSession (hp : s.findProg prog = some p) (session q : Nat) :
    (s.addSession prog session).subscribers q =
      if q = prog then s.subscribers prog ++ [session] else s.subscribers q := by
  have hq : (s.addSession prog session).findProg q = if q = prog then
      (s.findProg prog).map fun p => { p with sessions := p.sessions ++ [session] }
      else s.findProg q := findProg_updateProg s prog q fun _ => rfl
  rw [subscribers, hq]
  split
  · rw [subscribers, hp]
    rfl
  · rfl

theorem findSession_addSession (s : LogServer) (prog session y : Nat) :
    (s.addSession prog session).findSession y = if y = session then
      (s.findSession session).map fun x => { x with prog := some prog }
      else s.findSession y :=
  findSession_updateSession _ session y fun _ => rfl

theorem isOpen_addSession (s : LogServer) (prog session : Nat) :
    (s.addSession prog session).isOpen = s.isOpen := by
  funext y
  rw [isOpen, findSession_addSession, isOpen]
  split
  · rename_i hy
    subst hy
    cases s.findSession y <;> rfl
  · rfl

theorem getProg_addSession (ho : s.isOpen session = true) (prog y : Nat) :
    (s.addSession prog session).getProg y = if y = session then some prog else s.getProg y := by
  rw [getProg, findSession_addSession]
  split
  · obtain ⟨x, hx⟩ : ∃ x, s.findSession session = some x := by
      rw [isOpen] at ho
      cases hx : s.findSession session with
      | none => simp [hx] at ho
      | some x => exact ⟨x, rfl⟩
    rw [hx]
    rfl
  · rfl

theorem Sound.addSession (h : s.Sound) (hp : s.findProg prog = some p)
    (ho : s.isOpen session = true) (hn : s.getProg session = none) :
    (s.addSession prog session).Sound := by
  have ha := h.agree.join ho hn (subscribers_addSession hp session) (getProg_addSession ho prog)
  rw [← isOpen_addSession s prog session] at ha
  exact h.of_frame (Keyed.map_key_update fun _ => rfl) (Keyed.map_key_update fun _ => rfl) rfl ha

end Add

section Detach

theorem findSession_detach (s : LogServer) (id y : Nat) :
    (s.detach id).findSession y = if y = id then
      (s.findSession id).map fun x => { x with markClosed := true, prog := none }
      else s.findSession y :=
  findSession_updateSession s id y fun _ => rfl

theorem detach_views (s : LogServer) (id : Nat) :
    (s.detach id).isOpen = s.isOpen ∧
      ∀ y, (s.detach id).getProg y = if y = id then none else s.getProg y := by
  constructor
  · funext y
    rw [isOpen, findSession_detach, isOpen]
    split
    · rename_i hy
      subst hy
      cases s.findSession y <;> rfl
    · rfl
  · intro y
    rw [getProg, findSession_detach]
    split
    · cases s.findSession id <;> rfl
    · rfl

theorem detachAll_views (l : List Nat) (s : LogServer) :
    (l.foldl detach s).progs = s.progs ∧ (l.foldl detach s).nextProg = s.nextProg ∧
      (l.foldl detach s).sessions.map LogSession.id = s.sessions.map LogSession.id ∧
      (l.foldl detach s).isOpen = s.isOpen ∧
      ∀ y, (l.foldl detach s).getProg y = if y ∈ l then none else s.getProg y := by
  induction l generalizing s with
  | nil => exact ⟨rfl, rfl, rfl, rfl, fun y => by simp⟩
  | cons id l ih =>
    obtain ⟨ho, hg⟩ := detach_views s id
    obtain ⟨hp, hn, hs, ho', hg'⟩ := ih (s.detach id)
    refine ⟨hp, hn, hs.trans (Keyed.map_key_update fun _ => rfl), ho'.trans ho, ?_⟩
    intro y
    rw [List.foldl_cons, hg', hg]
    by_cases hy : y = id <;> by_cases hl : y ∈ l <;> simp [hy, hl]

theorem subscribers_cleared (s : LogServer) (prog q : Nat) :
    (((s.subscribers prog).foldl detach s).updateProg prog fun p =>
      { p with sessions := [] }).subscribers q = if q = prog then [] else s.subscribers q := by
  obtain ⟨hp, -⟩ := detachAll_views (s.subscribers prog) s
  rw [subscribers, findProg_updateProg _ prog q fun _ => by rfl]
  split
  · cases ((s.subscribers prog).foldl detach s).findProg prog <;> rfl
  · rw [findProg, hp, subscribers, findProg]

theorem subscribers_detachSessions (s : LogServer) (prog : Nat) (closes : List Nat) :
    (s.detachSessions prog closes).subscribers prog = [] := by
  have hsub :=
    subscribers_failPending (((s.subscribers prog).foldl detach s).updateProg prog fun p =>
    { p with sessions := [] }) prog closes prog
  rw [subscribers_cleared, if_pos rfl] at hsub
  exact List.eq_nil_of_subset_nil hsub

theorem Sound.detachSessions (h : s.Sound) (prog : Nat) (closes : List Nat) :
    (s.detachSessions prog closes).Sound := by
  obtain ⟨hp, hn, hs, ho, hg⟩ := detachAll_views (s.subscribers prog) s
  rw [LogServer.detachSessions]
  apply Sound.failPendingLogSessions
  have hids : (((s.subscribers prog).foldl detach s).updateProg prog fun p =>
      { p with sessions := [] }).progs.map LogProg.id = s.progs.map LogProg.id := by
    rw [← hp]
    exact Keyed.map_key_update fun _ => rfl
  have ha := h.agree.dropAll prog (subscribers_cleared s prog) hg
  rw [← ho] at ha
  exact h.of_frame hids hs hn ha

end Detach

section Activate

/-- The waiting clients are different sessions, and those still open are bound to no program. -/
def Waiting (s : LogServer) (l : List Nat) : Prop :=
  (l.filter s.isOpen).Nodup ∧ ∀ id ∈ l, s.isOpen id = true → s.getProg id = none

theorem findProg_isSome_writeFrame (h : (s.findProg prog).isSome = true) (closes : List Nat)
    (id : Nat) : ((s.writeFrame closes id).findProg prog).isSome = true := by
  rw [writeFrame]
  split
  · obtain ⟨hp, -⟩ := closeSession_frame s id
    obtain ⟨p, hp'⟩ := Option.isSome_iff_exists.1 h
    have hm : prog ∈ s.progs.map LogProg.id := Keyed.find_isSome.1 ⟨p, hp'⟩
    rw [← hp] at hm
    exact Option.isSome_iff_exists.2 (Keyed.find_isSome.2 hm)
  · exact h

theorem findProg_isSome_addSession (h : (s.findProg prog).isSome = true) (q id : Nat) :
    ((s.addSession q id).findProg prog).isSome = true := by
  have hf : (s.addSession q id).findProg prog = if prog = q then
      (s.findProg q).map fun p => { p with sessions := p.sessions ++ [id] }
      else s.findProg prog := findProg_updateProg s q prog fun _ => rfl
  rw [hf]
  split
  · rename_i hq
    rw [← hq, Option.isSome_map]
    exact h
  · exact h

theorem Waiting.tail (h : s.Waiting (x :: l)) : s.Waiting l := by
  refine ⟨?_, fun id hid => h.2 id (List.mem_cons_of_mem _ hid)⟩
  exact h.1.sublist ((List.sublist_cons_self x l).filter _)

theorem Waiting.activate (h : s.Waiting (x :: l)) (hx : s.isOpen x = true) (prog : Nat)
    (closes : List Nat) : ((s.addSession prog x).writeFrame closes x).Waiting l := by
  have hf := fewer_writeFrame (s.addSession prog x) closes x
  rw [Waiting, List.filter_cons_of_pos hx, List.nodup_cons] at h
  obtain ⟨⟨hne, hnd⟩, hnone⟩ := h
  have hopen : ∀ y, ((s.addSession prog x).writeFrame closes x).isOpen y = true →
      s.isOpen y = true := by
    intro y hy
    have hy' := hf.isOpen y hy
    rw [isOpen_addSession] at hy'
    exact hy'
  constructor
  · exact hnd.sublist (List.monotone_filter_right l hopen)
  · intro y hy ho
    apply hf.getProg
    have hyx : y ≠ x := by
      rintro rfl
      exact hne (List.mem_filter.2 ⟨hy, hx⟩)
    rw [getProg_addSession hx, if_neg hyx]
    exact hnone y (List.mem_cons_of_mem _ hy) (hopen y ho)

theorem Sound.activateAll (l : List Nat) (h : s.Sound) (hp : (s.findProg prog).isSome = true)
    (hw : s.Waiting l) (closes : List Nat) : (l.foldl (activateSession prog closes) s).Sound := by
  induction l generalizing s with
  | nil => exact h
  | cons x l ih =>
    rw [List.foldl_cons, activateSession]
    cases hx : s.isOpen x with
    | false =>
      rw [if_neg (by simp)]
      exact ih h hp hw.tail
    | true =>
      rw [if_pos rfl]
      obtain ⟨p, hp'⟩ := Option.isSome_iff_exists.1 hp
      have ha := h.addSession hp' hx (hw.2 x List.mem_cons_self hx)
      exact ih (ha.writeFrame closes x)
        (findProg_isSome_writeFrame (findProg_isSome_addSession hp prog x) closes x)
        (hw.activate hx prog closes)

theorem Sound.startProg (h : s.Sound) (prog : Nat) (closes : List Nat)
    (hw : ∀ p, s.findProg prog = some p → s.Waiting p.pendingLogSessions) :
    (s.startProg prog closes).Sound := by
  have hu := h.updateProg prog (f := fun p => { p with live := true }) (fun _ => rfl) fun _ => rfl
  rw [LogServer.startProg, activatePendingLogSessions]
  have hfind : (s.updateProg prog fun p => { p with live := true }).findProg prog =
      (s.findProg prog).map fun p => { p with live := true } := by
    rw [findProg_updateProg s prog prog fun _ => by rfl, if_pos rfl]
  cases hp : s.findProg prog with
  | none =>
    rw [hfind, hp]
    exact hu
  | some p =>
    simp only [hfind, hp, Option.map_some]
    apply Sound.updateProg _ prog (fun _ => by rfl) fun _ => by rfl
    apply hu.activateAll
    · rw [hfind, hp]
      rfl
    · exact hw p hp

end Activate

/-- A session is bound only when it is open and bound to no program. -/
def Clear (s : LogServer) : Event → Prop
  | .log session prog _ => (s.findProg prog).any LogProg.live = true →
    s.isOpen session = true ∧ s.getProg session = none
  | .bind session prog _ => (s.findProg prog).isSome = true →
    s.isOpen session = true ∧ s.getProg session = none
  | .startProg prog _ => ∀ p, s.findProg prog = some p → s.Waiting p.pendingLogSessions
  | _ => True

theorem Sound.handleLog (h : s.Sound) (closes : List Nat)
    (hc : s.Clear (.log session prog closes)) : (s.handleLog session prog closes).Sound := by
  rw [LogServer.handleLog]
  cases hp : s.findProg prog with
  | none => exact h.writeFrame closes session
  | some p =>
    simp only
    split
    · rename_i hl
      obtain ⟨ho, hn⟩ := hc (by rw [hp]; exact hl)
      exact (h.addSession hp ho hn).writeFrame closes session
    · split
      · exact h.updateProg prog (fun _ => rfl) fun _ => rfl
      · exact h.writeFrame closes session

theorem Sound.progBindSession (h : s.Sound) (closes : List Nat)
    (hc : s.Clear (.bind session prog closes)) : (s.progBindSession session prog closes).Sound := by
  rw [LogServer.progBindSession]
  cases hp : s.findProg prog with
  | none => exact h
  | some p =>
    obtain ⟨ho, hn⟩ := hc (by rw [hp]; rfl)
    exact (h.addSession hp ho hn).writeFrame closes session

theorem Sound.accept (h : s.Sound) : (s.step .accept).Sound := by
  have hnew : Keyed.find LogSession.id s.sessions.length s.sessions = none := by
    apply Keyed.find_eq_none.2
    intro x hx he
    exact absurd (h.sessionLt x.id (List.mem_map_of_mem hx)) (by omega)
  have hfind : ∀ y, (s.step .accept).findSession y = if s.sessions.length = y then
      some ⟨s.sessions.length, true, false, none⟩ else s.findSession y :=
    fun y => Keyed.find_append_singleton hnew
  have hget : (s.step .accept).getProg = s.getProg := by
    funext y
    rw [getProg, hfind, getProg]
    split
    · rename_i hy
      rw [← hy, findSession, hnew]
      rfl
    · rfl
  have hopen : ∀ y, (s.step .accept).isOpen y = if s.sessions.length = y then true
      else s.isOpen y := by
    intro y
    rw [isOpen, hfind]
    split <;> rfl
  refine ⟨h.ids, h.idLt, ?_, ?_⟩
  · intro k hk
    have hk' : k ∈ s.sessions.map LogSession.id ++ [s.sessions.length] := by
      simpa [step] using hk
    have hlen : (s.step .accept).sessions.length = s.sessions.length + 1 := by simp [step]
    rw [hlen]
    rcases List.mem_append.1 hk' with hk | hk
    · exact Nat.lt_succ_of_lt (h.sessionLt k hk)
    · rw [List.mem_singleton.1 hk]
      exact Nat.lt_succ_self _
  · rw [hget]
    refine ⟨h.agree.nodup, ?_, ?_⟩
    · intro q y hy
      obtain ⟨ho, hg⟩ := h.agree.bound q y hy
      rw [hopen]
      split
      · exact ⟨rfl, hg⟩
      · exact ⟨ho, hg⟩
    · intro y q ho hg
      rw [hopen] at ho
      split at ho
      · rename_i hy
        rw [← hy, getProg, findSession, hnew] at hg
        cases hg
      · exact h.agree.listed y q ho hg

theorem Sound.create (h : s.Sound) : (s.step .create).Sound := by
  have hnew : Keyed.find LogProg.id s.nextProg s.progs = none := by
    apply Keyed.find_eq_none.2
    intro p hp he
    exact absurd (h.idLt p.id (List.mem_map_of_mem hp)) (by omega)
  have hsubs : (s.step .create).subscribers = s.subscribers := by
    funext q
    have hfind : (s.step .create).findProg q = if s.nextProg = q then
        some ⟨s.nextProg, false, false, [], []⟩ else s.findProg q :=
      Keyed.find_append_singleton hnew
    rw [subscribers, hfind, subscribers]
    split
    · rename_i hq
      rw [← hq, findProg, hnew]
      rfl
    · rfl
  have hids : (s.step .create).progs.map LogProg.id =
      s.progs.map LogProg.id ++ [s.nextProg] := by simp [step]
  refine ⟨?_, ?_, h.sessionLt, ?_⟩
  · rw [hids, List.nodup_append]
    refine ⟨h.ids, by simp, ?_⟩
    intro k hk m hm
    have hlt := h.idLt k hk
    rw [List.mem_singleton.1 hm]
    omega
  · intro k hk
    rw [hids] at hk
    show k < s.nextProg + 1
    rcases List.mem_append.1 hk with hk | hk
    · exact Nat.lt_succ_of_lt (h.idLt k hk)
    · rw [List.mem_singleton.1 hk]
      exact Nat.lt_succ_self _
  · rw [hsubs]
    exact h.agree

theorem Sound.deleteProg (h : s.Sound) (prog : Nat) (closes : List Nat) :
    (s.deleteProg prog closes).Sound := by
  have hd := h.detachSessions prog closes
  have hids : (s.deleteProg prog closes).progs.map LogProg.id =
      ((s.detachSessions prog closes).progs.map LogProg.id).filter (· ≠ prog) :=
    Keyed.map_key_remove
  have hsubs : (s.deleteProg prog closes).subscribers =
      (s.detachSessions prog closes).subscribers := by
    funext q
    by_cases hq : q = prog
    · rw [hq, subscribers_detachSessions, subscribers, findProg, LogServer.deleteProg,
        Keyed.find_remove_self]
      rfl
    · rw [subscribers, findProg, LogServer.deleteProg, Keyed.find_remove_ne hq]
      rfl
  refine ⟨?_, ?_, hd.sessionLt, ?_⟩
  · rw [hids]
    exact hd.ids.filter _
  · intro k hk
    rw [hids] at hk
    exact hd.idLt k (List.mem_of_mem_filter hk)
  · rw [hsubs]
    exact hd.agree

theorem Sound.step (h : s.Sound) (hc : s.Clear e) : (s.step e).Sound := by
  cases e with
  | accept => exact h.accept
  | close session => exact h.closeSession session
  | create => exact h.create
  | startProg prog closes => exact h.startProg prog closes hc
  | spawn0 prog => exact h.updateProg prog (fun _ => rfl) fun _ => rfl
  | planRestart prog restartPending => exact h.updateProg prog (fun _ => rfl) fun _ => rfl
  | closeFds prog closes =>
    exact ((h.writeFrames closes _).detachSessions prog closes).updateProg prog (fun _ => rfl)
      fun _ => rfl
  | output prog closes => exact h.writeFrames closes _
  | failPending prog closes => exact h.failPendingLogSessions prog closes
  | log session prog closes => exact h.handleLog closes hc
  | bind session prog closes => exact h.progBindSession closes hc
  | delete prog closes => exact h.deleteProg prog closes

theorem sound_init : ({} : LogServer).Sound := by
  refine ⟨by simp, by simp, by simp, ?_, ?_, ?_⟩
  · intro p
    exact List.nodup_nil
  · intro p x hx
    cases hx
  · intro x p ho
    cases ho

theorem Reachable.sound (h : Reachable Clear s) : s.Sound := by
  induction h with
  | init => exact sound_init
  | step _ hc ih => exact ih.step hc

theorem Sound.consistent (h : s.Sound) : s.Consistent := by
  have hsubs : ∀ p ∈ s.progs, s.subscribers p.id = p.sessions := by
    intro p hp
    rw [subscribers, findProg, Keyed.find_of_mem h.ids hp]
    rfl
  refine ⟨?_, ?_, ?_⟩
  · intro p hp
    rw [← hsubs p hp]
    exact h.agree.nodup p.id
  · intro p hp id hid
    rw [← hsubs p hp] at hid
    exact h.agree.bound p.id id hid
  · intro id ho p hp hg
    rw [← hsubs p hp]
    exact h.agree.listed id p.id ho hg

/-- Lists and back pointers agree in every run in which a session is bound only while it is open and
bound to no program. -/
theorem subscriptions_consistent (h : Reachable Clear s) : s.Consistent := h.sound.consistent

theorem subscriptions_consistent_log :
    (((({} : LogServer).step .accept).step .create).step (.spawn0 0) |>.step
      (.log 0 0 [])).Consistent := by
  have hone : Reachable Clear ((({} : LogServer).step .accept).step .create) :=
    .step (e := .create) (.step (e := .accept) .init trivial) trivial
  have hlive := Reachable.step (e := .spawn0 0) hone trivial
  exact subscriptions_consistent (.step (e := .log 0 0 []) hlive fun _ => ⟨rfl, rfl⟩)

/-- A client asks twice for the log of one program. -/
theorem subscribed_twice : ¬ ∀ s, Reachable (fun _ _ => True) s → s.Consistent := by
  intro h
  have hone : Reachable (fun _ _ => True) ((({} : LogServer).step .accept).step .create) :=
    .step (e := .create) (.step (e := .accept) .init trivial) trivial
  have hlive := Reachable.step (e := .spawn0 0) hone trivial
  have hlog := Reachable.step (e := .log 0 0 []) hlive trivial
  have htwice := Reachable.step (e := .log 0 0 []) hlog trivial
  have hnodup := (h _ htwice).nodup
  revert hnodup
  decide

end LogServer

end PmTiny.LogSessions
