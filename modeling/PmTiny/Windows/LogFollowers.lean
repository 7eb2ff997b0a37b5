import PmTiny.Windows.GenerationLogs
import PmTiny.Windows.Readiness

namespace PmTiny.Windows
set_option autoImplicit true

variable {s s' : Daemon} {ω : System} {n : String} {g key : Nat}

open Daemon

namespace Daemon

theorem begun_before {q : ProcessHandle} (hm : Move s s') (hq : s'.find n = some q)
    (hpos : q.generation ≠ 0) (hbegun : q.generation < s.nextGeneration) :
    ∃ p, s.find n = some p ∧ p.generation = q.generation := by
  cases hm.logTurn n with
  | absent h hh => cases hq.symm.trans h
  | fresh cfg h hh =>
    cases hq.symm.trans h
    exact absurd rfl hpos
  | stays hp h hk hh =>
    cases hq.symm.trans h
    exact ⟨_, hp, hk.generation.symm⟩
  | appended hp h chunks hk hh =>
    cases hq.symm.trans h
    exact ⟨_, hp, hk.generation.symm⟩
  | exited hp h code hk hh =>
    cases hq.symm.trans h
    exact ⟨_, hp, hk.generation.symm⟩
  | launched hp h hg htail hnext hh hcore =>
    cases hq.symm.trans h
    exact absurd hg hbegun.ne

theorem send_turn (ω : System) (s : Daemon) (session : Nat) (call : Call) :
    (s.send ω session call).isOpen session = false ∧
        (s.send ω session call).history = s.history ∨
      s.isOpen session = true ∧
        (s.send ω session call).history = ⟨call, s.toCore⟩ :: s.history := by
  rw [send]
  split
  · rename_i hclosed
    exact .inl ⟨by simpa using hclosed, rfl⟩
  · rename_i hopen
    split
    · exact .inl ⟨by simp [isOpen], rfl⟩
    · exact .inr ⟨by simpa using hopen, rfl⟩

theorem findStream_erase (s : Daemon) (key : Nat) : (s.eraseStream key).findStream key = none :=
  Keyed.find_remove_self

theorem findStream_erase_ne {key' : Nat} (hne : key ≠ key') (s : Daemon) :
    (s.eraseStream key').findStream key = s.findStream key := Keyed.find_remove_ne hne

inductive ServeTurn (s s' : Daemon) (st : LogStream) : Prop
  | closed (h : s'.isOpen st.session = false)
      (hst : ∀ st', s'.findStream st.key = some st' → ∃ offset, st' = { st with offset := offset })
      (hh : s'.history = ⟨.pollStream st.key st.offset, s.toCore⟩ :: s.history)
  | chunk (hp : s.find st.name = some p) (hg : p.generation = st.generation)
      (hcontent : content = p.logTail.read (max st.offset p.logTail.beginOffset) chunkSize)
      (h : s'.findStream st.key = some
        { st with offset := max st.offset p.logTail.beginOffset + content.length })
      (hh : s'.history = ⟨.chunk st.key content, s.toCore⟩ ::
        ⟨.pollStream st.key st.offset, s.toCore⟩ :: s.history)
  | idle (hp : s.find st.name = some p) (hg : p.generation = st.generation)
      (h : s'.findStream st.key = some { st with offset := max st.offset p.logTail.beginOffset })
      (hh : s'.history = ⟨.pollStream st.key st.offset, s.toCore⟩ :: s.history)
  | missing (hnone : ∀ p, s.find st.name = some p → p.generation ≠ st.generation)
      (h : s'.findStream st.key = none)
      (hh : s'.history = ⟨.final st.key "", s.toCore⟩ ::
        ⟨.pollStream st.key st.offset, s.toCore⟩ :: s.history)
  | ended (hopen : s.isOpen st.session = true) (hp : s.find st.name = some p)
      (hg : p.generation = st.generation)
      (hend : p.logTail.totalBytes ≤ max st.offset p.logTail.beginOffset)
      (hidle : st.mode = .live → p.hasProcess = false) (h : s'.findStream st.key = none)
      (hh : s'.history = ⟨.final st.key (exitEvent p st.mode), s.toCore⟩ ::
        ⟨.pollStream st.key st.offset, s.toCore⟩ :: s.history)

theorem serveStream_turn (ω : System) {st : LogStream} (hst : s.findStream st.key = some st) :
    ServeTurn s ((s.record (.pollStream st.key st.offset)).serveStream ω st) st := by
  obtain ⟨polled, hpolled⟩ : ∃ polled, polled = s.record (.pollStream st.key st.offset) :=
    ⟨_, rfl⟩
  have hcore : polled.toCore = s.toCore := by rw [hpolled]; rfl
  have hhistory : polled.history = ⟨.pollStream st.key st.offset, s.toCore⟩ :: s.history := by
    rw [hpolled]
    rfl
  have hfound : ∀ call, (polled.send ω st.session call).findStream st.key = some st := by
    intro call
    rw [findStream_congr (send_streams ω polled _ _).1, hpolled]
    exact hst
  have hset : ∀ (x : Daemon) (offset : Nat), x.findStream st.key = some st →
      (x.setStream st.key fun st => { st with offset := offset }).findStream st.key =
        some { st with offset := offset } := by
    intro x offset hx
    have hupdate : Keyed.find LogStream.key st.key (Keyed.update LogStream.key st.key
        (fun st => { st with offset := offset }) x.logStreams) =
          (x.findStream st.key).map fun st => { st with offset := offset } :=
      Keyed.find_update_self fun a ha => show a.key = st.key from Keyed.key_of_find ha
    exact hupdate.trans (congrArg _ hx)
  rw [← hpolled, serveStream]
  split
  · rename_i hnone
    have hnone : ∀ p, s.find st.name = some p → p.generation ≠ st.generation := by
      intro p hp hg
      rw [hcore, hp, Option.filter_some, if_pos (decide_eq_true hg)] at hnone
      cases hnone
    rcases send_turn ω polled st.session (.final st.key "") with ⟨hclosed, hh⟩ | ⟨-, hh⟩
    · refine .closed hclosed (fun st' hst' => ?_) (hh.trans hhistory)
      cases (findStream_erase _ _).symm.trans hst'
    · exact .missing hnone (findStream_erase _ _) (by rw [hcore, hhistory] at hh; exact hh)
  · rename_i p hp
    rw [hcore] at hp
    obtain ⟨hp, hg⟩ := Option.filter_eq_some_iff.1 hp
    have hg : p.generation = st.generation := of_decide_eq_true hg
    simp only
    split
    · obtain ⟨content, hcontent⟩ : ∃ content, content =
        p.logTail.read (max st.offset p.logTail.beginOffset) chunkSize := ⟨_, rfl⟩
      rw [← hcontent]
      rcases send_turn ω polled st.session (.chunk st.key content) with ⟨hclosed, hh⟩ | ⟨-, hh⟩
      · refine .closed hclosed (fun st' hst' => ?_) (hh.trans hhistory)
        exact ⟨_, Option.some.inj (hst'.symm.trans (hset _ _ (hfound _)))⟩
      · exact .chunk hp hg hcontent (hset _ _ (hfound _)) (by rw [hcore, hhistory] at hh; exact hh)
    · rename_i hend
      split
      · refine .idle hp hg (hset _ _ ?_) hhistory
        rw [hpolled]
        exact hst
      · rename_i hgone
        have hidle : st.mode = .live → p.hasProcess = false := fun hlive =>
          Bool.eq_false_iff.2 fun hrunning => hgone ⟨hrunning, hlive⟩
        rcases send_turn ω polled st.session (.final st.key (exitEvent p st.mode)) with
          ⟨hclosed, hh⟩ | ⟨hopen, hh⟩
        · refine .closed hclosed (fun st' hst' => ?_) (hh.trans hhistory)
          cases (findStream_erase _ _).symm.trans hst'
        · rw [hpolled] at hopen
          exact .ended hopen hp hg (Nat.not_lt.1 hend) hidle (findStream_erase _ _)
            (by rw [hcore, hhistory] at hh; exact hh)

theorem findStream_setStream_ne {key' : Nat} {st : LogStream} (hne : key ≠ key') (s : Daemon)
    (hst : st.key = key') : (s.setStream key' fun _ => st).findStream key = s.findStream key := by
  have hcongr : Keyed.update LogStream.key key' (fun _ => st) s.logStreams =
      Keyed.update LogStream.key key' (fun old => if old.key = key' then st else old)
        s.logStreams := Keyed.update_congr fun old hold => (if_pos hold).symm
  rw [findStream, setStream, hcongr]
  refine Keyed.find_update_ne hne fun old => ?_
  split
  · rename_i hold
    exact hst.trans hold.symm
  · rfl

theorem findStream_serve_ne (ω : System) (s : Daemon) (st : LogStream) (hne : key ≠ st.key) :
    (s.serveStream ω st).findStream key = s.findStream key := by
  have hsend : ∀ call, (s.send ω st.session call).findStream key = s.findStream key := fun call =>
    findStream_congr (send_streams ω s _ _).1
  have hset : ∀ (x : Daemon) (offset : Nat),
      (x.setStream st.key fun st => { st with offset := offset }).findStream key =
        x.findStream key := fun x offset => Keyed.find_update_ne hne fun _ => rfl
  rw [serveStream]
  split
  · rw [findStream_erase_ne hne, hsend]
  · simp only
    split
    · rw [hset, hsend]
    · split
      · rw [hset]
      · rw [findStream_erase_ne hne, hsend]

inductive StreamTurn (s s' : Daemon) (key : Nat) : Prop
  | same (h : s'.findStream key = s.findStream key)
      (hh : Adds (fun e => e.call.stream? ≠ some key) s s')
  | opened (hkey : key = s.nextStream) (hnext : s'.nextStream = s.nextStream + 1)
      (hst : st.key = key) (h : s'.findStream key = some st) (hcore : s'.toCore = s.toCore)
      (hbound : st.waitingForGeneration = false → ∃ p, s.find st.name = some p ∧
        p.generation = st.generation ∧ st.offset ≤ p.logTail.beginOffset)
      (hh : s'.history = s.history)
  | dropped (hst : s.findStream key = some st)
      (hwhy : s.isOpen st.session = false ∨ st.waitingForGeneration = true)
      (hclosed : s'.closed = s.closed) (h : s'.findStream key = none)
      (hh : s'.history = s.history)
  | served (hst : s.findStream key = some st) (hw : st.waitingForGeneration = false)
      (hcore : s'.toCore = s.toCore) (hserve : ServeTurn s s' st)
  | bound (hst : s.findStream key = some st) (hw : st.waitingForGeneration = true)
      (hp : s.find st.name = some p) (hcore : s'.toCore = s.toCore)
      (hserve : ServeTurn (s.setStream key fun _ => st.bind p) s' (st.bind p))

end Daemon

theorem StreamMove.turn (h : StreamMove s s') (key : Nat) : StreamTurn s s' key := by
  have hother : ∀ {st : LogStream}, key ≠ st.key → ∀ {x : Daemon} {e : Event},
      e.call.silent = true ∧ e.call.stream? = some st.key → e.call.stream? ≠ some key := by
    intro st hne x e he hkey
    exact hne (Option.some.inj (hkey.symm.trans he.2))
  cases h with
  | opened st h hbound =>
    have hfind : ({ s with
        logStreams := s.logStreams ++ [st], nextStream :=
          s.nextStream + 1 } : Daemon).findStream key =
          (s.findStream key).or (if st.key = key then some st else none) := Keyed.find_append st _
    cases hfound : s.findStream key with
    | some st' =>
      refine .same ?_ (.none rfl)
      rw [hfind, hfound, Option.some_or]
    | none =>
      rw [hfound, Option.none_or] at hfind
      by_cases hkey : st.key = key
      · rw [if_pos hkey] at hfind
        exact .opened (hkey.symm.trans h) rfl hkey hfind rfl hbound rfl
      · rw [if_neg hkey] at hfind
        exact .same (hfind.trans hfound.symm) (.none rfl)
  | dropped st hst h =>
    by_cases hkey : key = st.key
    · subst hkey
      exact .dropped hst h rfl (findStream_erase _ _) rfl
    · exact .same (findStream_erase_ne hkey _) (.none rfl)
  | bound ω st hst h hp =>
    by_cases hkey : key = st.key
    · subst hkey
      exact .bound hst h hp (serveStream_core ω _ _)
        (serveStream_turn ω (findStream_setStream hst rfl))
    · refine .same ?_ ((adds_served ω _ _).mono fun e he => hother hkey (x := s) he)
      exact (findStream_serve_ne ω _ (st.bind _) hkey).trans
        (findStream_setStream_ne hkey s rfl)
  | served ω st hst h =>
    by_cases hkey : key = st.key
    · subst hkey
      exact .served hst h (serveStream_core ω _ st) (serveStream_turn ω hst)
    · exact .same (findStream_serve_ne ω _ st hkey)
        ((adds_served ω s st).mono fun e he => hother hkey (x := s) he)

theorem Move.streamTurn (h : Move s s') (key : Nat) : StreamTurn s s' key := by
  cases h with
  | outside hcore hstreams hnext hhistory hclosed =>
    exact .same (findStream_congr hstreams) (.none hhistory)
  | note call h hreply =>
    refine .same rfl (.one rfl fun hkey => ?_)
    cases hreply.symm.trans hkey
  | stream h => exact h.turn key
  | edit | setReady | manual | dequeue | rollback | dropRecord | flags | answered | plan =>
    exact .same rfl (.none rfl)
  | append | exit | terminate | started | refused | start | complete | define
      | commitDelete | ensure
  | swap | request | created => exact .same rfl (.one rfl fun hkey => by cases hkey)
  | grant =>
    exact .same rfl (.two rfl (fun hkey => by cases hkey) fun hkey => by cases hkey)

theorem isOpen_send {id : Nat} (ω : System) (s : Daemon) (session : Nat) (call : Call)
    (h : (s.send ω session call).isOpen id = true) : s.isOpen id = true := by
  rw [send] at h
  split at h
  · exact h
  · split at h
    · simp only [isOpen, decide_eq_true_iff, List.mem_cons, not_or] at h ⊢
      exact h.2
    · exact h

theorem isOpen_serve {id : Nat} (ω : System) (s : Daemon) (st : LogStream)
    (h : (s.serveStream ω st).isOpen id = true) : s.isOpen id = true := by
  rw [serveStream] at h
  split at h
  · exact isOpen_send ω s _ _ h
  · simp only at h
    split at h
    · exact isOpen_send ω s _ _ h
    · split at h
      · exact h
      · exact isOpen_send ω s _ _ h

theorem Move.isOpen {id : Nat} (h : Move s s') (hopen : s'.isOpen id = true) :
    s.isOpen id = true := by
  cases h with
  | outside hcore hstreams hnext hhistory hclosed =>
    simp only [Daemon.isOpen, decide_eq_true_iff] at hopen ⊢
    exact fun hid => hopen (hclosed id hid)
  | stream h =>
    cases h with
    | opened | dropped => exact hopen
    | bound | served =>
      have hserved := isOpen_serve _ _ _ hopen
      exact hserved
  | _ => exact hopen

theorem nextStream_serve (ω : System) (s : Daemon) (st : LogStream) :
    (s.serveStream ω st).nextStream = s.nextStream := by
  have hsend : ∀ call, (s.send ω st.session call).nextStream = s.nextStream := fun call =>
    (send_streams ω s _ _).2
  rw [serveStream]
  split
  · exact hsend _
  · simp only
    split
    · exact hsend _
    · split
      · rfl
      · exact hsend _

theorem Move.nextStream_le (h : Move s s') : s.nextStream ≤ s'.nextStream := by
  cases h with
  | outside hcore hstreams hnext => exact hnext.ge
  | stream h =>
    cases h with
    | opened => exact Nat.le_succ _
    | dropped => exact Nat.le_refl _
    | bound ω st hst h hp =>
      rw [nextStream_serve]
      exact Nat.le_refl _
    | served ω st hst h =>
      rw [nextStream_serve]
      exact Nat.le_refl _
  | _ => exact Nat.le_refl _

namespace Daemon

/-- As long as its session is open, a stream that is bound to a generation has brought its client
all that the tail still holds before the stream's offset. -/
structure Serves (s : Daemon) (st : LogStream) : Prop where
  begun : st.generation < s.nextGeneration
  follows : s.isOpen st.session = true → ∀ p, s.find st.name = some p →
    p.generation = st.generation → p.generation ≠ 0 →
    p.logTail.Follows (carried (Call.outputOf st.name p.generation) s.history)
      (carried (Call.contentOf st.key) s.history) st.offset

theorem Serves.move {st : LogStream} (hs : s.Serves st) (hlogged : s.Logged) (hm : Move s s')
    (hh : Adds (fun e => e.call.stream? ≠ some st.key) s s') : s'.Serves st := by
  refine ⟨hs.begun.trans_le hm.nextGeneration_le, fun hopen q hq hg hpos => ?_⟩
  obtain ⟨p, hp, hpg⟩ := begun_before hm hq hpos (hg ▸ hs.begun)
  have hfollows := hs.follows (hm.isOpen hopen) p hp (hpg.trans hg) (hpg ▸ hpos)
  have hold := (hlogged.knows _ p hp (hpg ▸ hpos)).tail
  have hnew := ((hlogged.move hm).knows _ q hq hpos).tail
  have hcontent : carried (Call.contentOf st.key) s'.history =
      carried (Call.contentOf st.key) s.history := by
    refine Adds.carried (hh.mono fun e he => ?_)
    cases hcall : e.call with
    | chunk k content =>
      rw [hcall] at he
      exact if_neg fun hk => he (congrArg some hk)
    | _ => rfl
  rw [hpg] at hfollows hold
  rw [hm.moves_history, carried_append] at hnew
  rw [hcontent, hm.moves_history, carried_append]
  exact hfollows.append hold hnew
    ((hlogged.move hm).capacity _ q hq |>.trans (hlogged.capacity _ p hp).symm)

structure Streams (s : Daemon) : Prop where
  logged : s.Logged
  key : ∀ key st, s.findStream key = some st → key < s.nextStream
  serves : ∀ key st, s.findStream key = some st → st.waitingForGeneration = false → s.Serves st

theorem ServeTurn.found {st st' : LogStream} (h : ServeTurn s s' st)
    (hst' : s'.findStream st.key = some st') : ∃ offset, st' = { st with offset := offset } := by
  cases h with
  | closed h hst hh => exact hst st' hst'
  | chunk hp hg hcontent h hh => exact ⟨_, Option.some.inj (hst'.symm.trans h)⟩
  | idle hp hg h hh => exact ⟨_, Option.some.inj (hst'.symm.trans h)⟩
  | missing hnone h hh => cases h.symm.trans hst'
  | ended hopen hp hg hend hidle h hh => cases h.symm.trans hst'

theorem Serves.served {st st' : LogStream} (hs : s.Serves st) (hlogged : s.Logged)
    (hcore : s'.toCore = s.toCore)
    (hopens : s'.isOpen st.session = true → s.isOpen st.session = true)
    (ht : ServeTurn s s' st) (hst' : s'.findStream st.key = some st') : s'.Serves st' := by
  obtain ⟨offset, rfl⟩ := ht.found hst'
  refine ⟨by rw [hcore]; exact hs.begun, fun hopen q hq hg hpos => ?_⟩
  rw [hcore] at hq
  have hholds := (hlogged.knows _ q hq hpos).tail
  have hfollows := (hs.follows (hopens hopen) q hq hg hpos).skip hholds
  cases ht with
  | closed h hst hh => cases h.symm.trans hopen
  | chunk hp hpg hcontent h hh =>
    cases hq.symm.trans hp
    cases hst'.symm.trans h
    subst hcontent
    have hread := hfollows.read hholds (Nat.le_max_right _ _) chunkSize
    rw [hh]
    simp only [carried, Call.outputOf, Call.contentOf, List.append_nil, if_pos]
    exact hread
  | idle hp hpg h hh =>
    cases hq.symm.trans hp
    cases hst'.symm.trans h
    rw [hh]
    simp only [carried, Call.outputOf, Call.contentOf, List.append_nil]
    exact hfollows
  | missing hnone h hh => cases h.symm.trans hst'
  | ended hopen hp hpg hend hidle h hh => cases h.symm.trans hst'

theorem Logged.serves {p : ProcessHandle} (hs : s.Logged) (st : LogStream)
    (hp : s.find st.name = some p) (hg : p.generation = st.generation)
    (hoffset : st.offset ≤ p.logTail.beginOffset) : s.Serves st := by
  refine ⟨hg ▸ (hs.numbered.2 _ p hp).1, fun _ q hq hqg hpos => ?_⟩
  cases hp.symm.trans hq
  have hholds := (hs.knows _ p hp hpos).tail
  refine ⟨hoffset.trans hholds.beginOffset_le, ?_⟩
  rw [List.drop_eq_nil_of_le ((List.length_take_le _ _).trans hoffset)]
  exact List.nil_suffix

theorem Streams.move (hs : s.Streams) (hm : Move s s') : s'.Streams := by
  refine ⟨hs.logged.move hm, fun key st hst => ?_, fun key st hst hw => ?_⟩
  · cases hm.streamTurn key with
    | same h hh => exact (hs.key key st (h.symm.trans hst)).trans_le hm.nextStream_le
    | opened hkey hnext hkey' h hcore hbound hh =>
      rw [hkey, hnext]
      exact Nat.lt_succ_self _
    | dropped hst' hwhy hclosed h hh => cases h.symm.trans hst
    | served hst' hw hcore hserve => exact (hs.key key _ hst').trans_le hm.nextStream_le
    | bound hst' hw hp hcore hserve => exact (hs.key key _ hst').trans_le hm.nextStream_le
  · obtain rfl := find_key hst
    cases hm.streamTurn st.key with
    | same h hh => exact (hs.serves _ st (h.symm.trans hst) hw).move hs.logged hm hh
    | opened hkey hnext hkey' h hcore hbound hh =>
      cases hst.symm.trans h
      obtain ⟨p, hp, hg, hoffset⟩ := hbound hw
      exact (hs.logged.move hm).serves st (by rw [hcore]; exact hp) hg hoffset
    | dropped hst' hwhy hclosed h hh => cases h.symm.trans hst
    | served hst' hw' hcore hserve =>
      rename_i old
      have hkey := find_key hst'
      rw [← hkey] at hst
      exact (hs.serves _ old hst' hw').served hs.logged hcore hm.isOpen hserve hst
    | bound hst' hw' hp hcore hserve =>
      rename_i old p
      have hold := find_key hst'
      have hkey : (old.bind p).key = st.key := hold
      have hlogged : (s.setStream st.key fun _ => old.bind p).Logged :=
        ⟨hs.logged.numbered, hs.logged.earlier, hs.logged.capacity, hs.logged.knows⟩
      have hserves := hlogged.serves (old.bind p) hp rfl (Nat.le_refl _)
      rw [← hkey] at hst
      exact hserves.served hlogged hcore hm.isOpen hserve hst

theorem Fresh.streams (hs : s.Fresh) : s.Streams := by
  have hnone : ∀ key, s.findStream key = none := by
    intro key
    rw [findStream, hs.logStreams]
    rfl
  refine ⟨hs.logged, fun key st hst => ?_, fun key st hst => ?_⟩
  · cases (hnone key).symm.trans hst
  · cases (hnone key).symm.trans hst

/-- The same stream in a later state: it keeps its client, its program and its generation, and
leaves only with its final frame or with its session. -/
structure Tracks (st : LogStream) (g : Nat) (s₁ s : Daemon) : Prop where
  key : st.key < s.nextStream
  stream : ∀ st', s.findStream st.key = some st' → st'.name = st.name ∧
    st'.session = st.session ∧ st'.mode = st.mode ∧
    (st'.waitingForGeneration = false → st'.generation = g) ∧
    (st.waitingForGeneration = false → st'.waitingForGeneration = false)
  gone : st.waitingForGeneration = false → s.findStream st.key = none →
    s.isOpen st.session = false ∨ ∃ e ∈ since s₁ s, ∃ text, e.call = .final st.key text

theorem ServeTurn.polls {st : LogStream} (h : ServeTurn s s' st) :
    ⟨.pollStream st.key st.offset, s.toCore⟩ ∈ since s s' := by
  have htwo : ∀ {e : Event}, s'.history = e ::
    ⟨.pollStream st.key st.offset, s.toCore⟩ :: s.history →
      ⟨.pollStream st.key st.offset, s.toCore⟩ ∈ since s s' := by
    intro e hh
    rw [since_eq (l := [e, _]) hh]
    exact List.mem_cons_of_mem _ List.mem_cons_self
  cases h with
  | closed h hst hh => exact since_one hh
  | chunk hp hg hcontent h hh => exact htwo hh
  | idle hp hg h hh => exact since_one hh
  | missing hnone h hh => exact htwo hh
  | ended hopen hp hg hend hidle h hh => exact htwo hh

theorem ServeTurn.ends {st : LogStream} (h : ServeTurn s s' st)
    (hnone : s'.findStream st.key = none) :
    s'.isOpen st.session = false ∨ ∃ e ∈ since s s', ∃ text, e.call = .final st.key text := by
  cases h with
  | closed h hst hh => exact .inl h
  | chunk hp hg hcontent h hh => cases hnone.symm.trans h
  | idle hp hg h hh => cases hnone.symm.trans h
  | missing hno h hh =>
    rw [since_eq (l := [_, _]) hh]
    exact .inr ⟨_, List.mem_cons_self, _, rfl⟩
  | ended hopen hp hg hend hidle h hh =>
    rw [since_eq (l := [_, _]) hh]
    exact .inr ⟨_, List.mem_cons_self, _, rfl⟩

/-- When a poll sends the final frame: the generation is gone, or its tail has been read to its
end. -/
theorem ServeTurn.final {st : LogStream} {e : Event} {l₁ l₂ : List Event} {text : String}
    (h : ServeTurn s s' st) (hsince : since s s' = l₁ ++ e :: l₂)
    (hcall : e.call = .final st.key text) :
    l₁ = [] ∧ l₂ = [⟨.pollStream st.key st.offset, s.toCore⟩] ∧
      ((∀ p, s.find st.name = some p → p.generation ≠ st.generation) ∨
        s.isOpen st.session = true ∧ ∃ p, s.find st.name = some p ∧ p.generation = st.generation ∧
          p.logTail.totalBytes ≤ max st.offset p.logTail.beginOffset ∧
          (st.mode = .live → p.hasProcess = false) ∧ text = exitEvent p st.mode) := by
  have hone : s'.history = ⟨.pollStream st.key st.offset, s.toCore⟩ :: s.history → False := by
    intro hh
    obtain ⟨-, rfl⟩ := since_single hh hsince
    cases hcall
  have htwo : ∀ {f : Event}, s'.history = f ::
    ⟨.pollStream st.key st.offset, s.toCore⟩ :: s.history →
      l₁ = [] ∧ l₂ = [⟨.pollStream st.key st.offset, s.toCore⟩] ∧ e = f := by
    intro f hh
    rw [since_eq (l := [f, _]) hh] at hsince
    cases l₁ with
    | nil =>
      obtain ⟨rfl, rfl⟩ := List.cons.inj hsince
      exact ⟨rfl, rfl, rfl⟩
    | cons d l₁ =>
      cases l₁ with
      | nil =>
        obtain ⟨rfl, -⟩ := List.cons.inj (List.cons.inj hsince).2
        cases hcall
      | cons d' l₁ => simp at hsince
  cases h with
  | closed h hst hh => exact absurd hh hone
  | chunk hp hg hcontent h hh =>
    obtain ⟨-, -, rfl⟩ := htwo hh
    cases hcall
  | idle hp hg h hh => exact absurd hh hone
  | missing hnone h hh =>
    obtain ⟨hl₁, hl₂, -⟩ := htwo hh
    exact ⟨hl₁, hl₂, .inl hnone⟩
  | ended hopen hp hg hend hidle h hh =>
    obtain ⟨hl₁, hl₂, rfl⟩ := htwo hh
    cases hcall
    exact ⟨hl₁, hl₂, .inr ⟨hopen, _, hp, hg, hend, hidle, rfl⟩⟩

/-- The poll finds a record of the generation, which has been launched. -/
def FindsGeneration (n : String) (g : Nat) (e : Event) : Prop :=
  ∃ p, e.core.find n = some p ∧ p.generation = g ∧ p.generation ≠ 0

theorem Tracks.move {st : LogStream} {s₁ : Daemon} (ht : Tracks st g s₁ s) (h₁ : Moves s₁ s)
    (hm : Move s s')
    (hfound : ∀ e ∈ since s s', ∀ offset, e.call = .pollStream st.key offset →
      FindsGeneration st.name g e) :
    Tracks st g s₁ s' := by
  refine ⟨ht.key.trans_le hm.nextStream_le, fun st' hst' => ?_, fun hw hnone => ?_⟩
  · cases hm.streamTurn st.key with
    | same h hh => exact ht.stream st' (h.symm.trans hst')
    | opened hkey hnext hkey' h hcore hbound hh => exact absurd hkey ht.key.ne
    | dropped hst hwhy hclosed h hh => cases h.symm.trans hst'
    | served hst hw hcore hserve =>
      rename_i old
      rw [← find_key hst] at hst'
      obtain ⟨offset, rfl⟩ := hserve.found hst'
      exact ht.stream old hst
    | bound hst hw hp hcore hserve =>
      rename_i old p
      obtain ⟨hname, hsession, hmode, -, hbound⟩ := ht.stream old hst
      have hkey := find_key hst
      have hpoll := hserve.polls
      have hfind : s'.findStream (old.bind p).key = some st' := by
        rw [← hkey] at hst'
        exact hst'
      obtain ⟨offset, rfl⟩ := hserve.found hfind
      rw [show (old.bind p).key = st.key from hkey] at hpoll
      obtain ⟨q, hq, hg, -⟩ := hfound _ hpoll _ rfl
      rw [← hname] at hq
      cases hp.symm.trans hq
      exact ⟨hname, hsession, hmode, fun _ => hg, fun _ => rfl⟩
  · rw [since_tail h₁ hm]
    have hold : (s.isOpen st.session = false ∨
        ∃ e ∈ since s₁ s, ∃ text, e.call = .final st.key text) → s'.isOpen st.session = false ∨
        ∃ e ∈ since s s' ++ since s₁ s, ∃ text, e.call = .final st.key text := by
      rintro (hclosed | ⟨e, he, text, hcall⟩)
      · refine .inl (Bool.eq_false_iff.2 fun hopen => ?_)
        exact absurd (hm.isOpen hopen) (Bool.eq_false_iff.1 hclosed)
      · exact .inr ⟨e, List.mem_append_right _ he, text, hcall⟩
    cases hm.streamTurn st.key with
    | same h hh => exact hold (ht.gone hw (h.symm.trans hnone))
    | opened hkey hnext hkey' h hcore hbound hh => exact absurd hkey ht.key.ne
    | dropped hst hwhy hclosed h hh =>
      rename_i old
      obtain ⟨-, hsession, -, -, hbound⟩ := ht.stream old hst
      rcases hwhy with hshut | hwaiting
      · exact hold (.inl (hsession ▸ hshut))
      · cases (hbound hw).symm.trans hwaiting
    | served hst hw' hcore hserve =>
      rename_i old
      have hkey := find_key hst
      obtain ⟨-, hsession, -, -, -⟩ := ht.stream old hst
      rw [← hkey] at hnone
      rcases hserve.ends hnone with hshut | ⟨e, he, text, hcall⟩
      · exact .inl (hsession ▸ hshut)
      · exact .inr ⟨e, List.mem_append_left _ he, text, hkey ▸ hcall⟩
    | bound hst hwaiting hp hcore hserve =>
      rename_i old p
      cases ((ht.stream old hst).2.2.2.2 hw).symm.trans hwaiting

def retained (n : String) (g : Nat) (h : List Event) : List UInt8 :=
  (({} : BoundedLogTail).append (carried (Call.outputOf n g) h)).snapshot

/-- Every poll of the stream finds its generation, and a poll that finds the process gone and the
tail read to its end comes after the report of the exit. -/
structure Undisturbed (st : LogStream) (g : Nat) (s s' : Daemon) : Prop where
  found : ∀ e ∈ since s s', ∀ offset, e.call = .pollStream st.key offset →
    FindsGeneration st.name g e
  reported : ∀ l e post offset p, since s s' = l ++ e :: post →
    e.call = .pollStream st.key offset → e.core.find st.name = some p → p.hasProcess = false →
    p.logTail.totalBytes ≤ max offset p.logTail.beginOffset →
    ∃ code, Exited st.name g code (post ++ s.history)

/-- The log pipes bring output of the generation only until they have ended, which its completion
waits for. -/
def PipesEnd (n : String) (g : Nat) (s s' : Daemon) : Prop :=
  ∀ e ∈ since s s', ∀ data p, e.call = .appended n g data → e.core.find n = some p →
    p.hasProcess = true

/-- A stream stays until its final frame, as long as its session is open. Before that frame its
client gets all that the tail retains, and the frame tells how the generation ended. -/
structure SeesEnd (st : LogStream) (g : Nat) (s s' : Daemon) : Prop where
  kept : st.waitingForGeneration = false → s'.isOpen st.session = true →
    (∃ st', s'.findStream st.key = some st') ∨
      ∃ e ∈ since s s', ∃ text, e.call = .final st.key text
  ended : ∀ l e post text, since s s' = l ++ e :: post → e.call = .final st.key text →
    retained st.name g s'.history <:+ carried (Call.contentOf st.key) (post ++ s.history) ∧
      ∃ pid code, Spawned st.name g pid s'.history ∧ Exited st.name g code s'.history ∧
        text = formatProgramExitEvent st.name pid "exited" code

theorem Reachable.streams (h : Reachable ω s) : s.Streams := h.invariant Fresh.streams Streams.move

theorem Streams.moves (h : Moves s s') (hs : s.Streams) : s'.Streams := by
  induction h with
  | refl => exact hs
  | tail _ hm ih => exact ih.move hm

theorem Serves.ended {st : LogStream} {p : ProcessHandle} (hs : s.Serves st) (hlogged : s.Logged)
    (hopen : s.isOpen st.session = true) (hp : s.find st.name = some p)
    (hg : p.generation = st.generation) (hpos : p.generation ≠ 0)
    (hend : p.logTail.totalBytes ≤ max st.offset p.logTail.beginOffset) :
    retained st.name p.generation s.history <:+ carried (Call.contentOf st.key) s.history := by
  have hholds := (hlogged.knows _ p hp hpos).tail
  have hall := ((hs.follows hopen p hp hg hpos).skip hholds).snapshot hholds hend
  have hwhole := (BoundedLogTail.holds_empty (64 * 1024)).append
    (carried (Call.outputOf st.name p.generation) s.history)
  rw [hholds.snapshot, hlogged.capacity _ p hp] at hall
  rw [retained, hwhole.snapshot, BoundedLogTail.append_capacity]
  exact hall

structure Gone (n : String) (g : Nat) (s : Daemon) : Prop where
  begun : g < s.nextGeneration
  idle : ∀ p, s.find n = some p → p.generation = g → p.hasProcess = false

theorem Gone.move (hs : Gone n g s) (hm : Move s s') : Gone n g s' := by
  refine ⟨hs.begun.trans_le hm.nextGeneration_le, fun q hq hg => ?_⟩
  cases hm.turn n with
  | absent h h' => cases hq.symm.trans h'
  | stays hp h hk =>
    cases hq.symm.trans h
    exact hk.hasProcess.trans (hs.idle _ hp (hk.generation.symm.trans hg))
  | terminated hp h hk hh =>
    cases hq.symm.trans h
    exact hk.hasProcess.trans (hs.idle _ hp (hk.generation.symm.trans hg))
  | started hp h hidle hconfig ha hnew hnext =>
    cases hq.symm.trans h
    exact absurd (hnew.symm.trans hg) hs.begun.ne'
  | settled hp h hend hk =>
    cases hq.symm.trans h
    exact hk.hasProcess
  | gone hwhy h => cases hq.symm.trans h
  | ensured cfg hcfg h =>
    cases hp : s.find n with
    | none =>
      rw [hp] at h
      cases hq.symm.trans h
      rfl
    | some p =>
      rw [hp] at h
      cases hq.symm.trans h
      exact hs.idle p hp hg

theorem appends_of_move {e : Event} {data : List UInt8} (hm : Move s s') (he : e ∈ since s s')
    (hcall : e.call = .appended n g data) :
    ∃ p, s.find n = some p ∧ p.generation = g ∧ e.core = s.toCore := by
  have hlogs : e.call.logs n g = true := by
    rw [hcall, Call.logs]
    simp
  have hsingle : ∀ {e' : Event}, s'.history = e' :: s.history → e = e' := by
    intro e' hh
    rw [since_eq (l := [e']) hh, List.mem_singleton] at he
    exact he
  cases hm.logTurn n with
  | absent h hh => cases hlogs.symm.trans (hh.since he g)
  | fresh cfg h hh => cases hlogs.symm.trans (hh.since he g)
  | stays hp h hk hh => cases hlogs.symm.trans (hh.since he g)
  | appended hp h chunks hk hh =>
    obtain rfl := hsingle hh
    obtain ⟨-, hg, -⟩ := Call.appended.inj hcall
    exact ⟨_, hp, hg, rfl⟩
  | exited hp h code hk hh =>
    obtain rfl := hsingle hh
    cases hcall
  | launched hp h hg htail hnext hh hcore =>
    obtain rfl := hsingle hh
    cases hcall

theorem Gone.quiet (h : Moves s s') (hs : Gone n g s) (hpipes : PipesEnd n g s s') :
    ∀ e ∈ since s s', e.call.outputOf n g = [] := by
  refine (h.judged_since (I := fun x => Gone n g x ∧ ∀ e ∈ since s x, e.call.outputOf n g = [])
    hpipes ⟨hs, fun e he => ?_⟩ fun hsx hx hm hpipes' => ⟨hx.1.move hm, fun e he => ?_⟩).2
  · rw [since_eq (l := []) rfl] at he
    cases he
  · rw [since_tail hsx hm] at he
    rcases List.mem_append.1 he with hnew | hold
    · cases hcall : e.call with
      | appended m k data =>
        refine if_neg fun hnamed => ?_
        obtain ⟨rfl, rfl⟩ := hnamed
        obtain ⟨p, hp, hg, hcore⟩ := appends_of_move hm hnew hcall
        have hrunning := hpipes' e hnew data p hcall (hcore ▸ hp)
        cases hrunning.symm.trans (hx.1.idle p hp hg)
      | _ => rfl
    · exact hx.2 e hold

theorem Serves.final {st st' : LogStream} {e : Event} {l₁ l₂ : List Event} {text : String}
    (hs : s.Serves st') (hlogged : s.Logged) (ht : ServeTurn s s' st')
    (hsince : since s s' = l₁ ++ e :: l₂) (hcall : e.call = .final st'.key text)
    (hname : st'.name = st.name) (hlive : st'.mode = .live) (hg : st'.generation = g)
    (hfound : ∀ e ∈ since s s', ∀ offset, e.call = .pollStream st'.key offset →
      FindsGeneration st.name g e)
    (hreported : l₂ = [⟨.pollStream st'.key st'.offset, s.toCore⟩] → ∀ p,
      s.find st.name = some p → p.hasProcess = false →
      p.logTail.totalBytes ≤ max st'.offset p.logTail.beginOffset →
      ∃ code, Exited st.name g code s.history) :
    l₁ = [] ∧ l₂ = [⟨.pollStream st'.key st'.offset, s.toCore⟩] ∧ Gone st.name g s ∧
      retained st.name g s.history <:+ carried (Call.contentOf st'.key) s.history ∧
      ∃ pid code, Spawned st.name g pid s.history ∧ Exited st.name g code s.history ∧
        text = formatProgramExitEvent st.name pid "exited" code := by
  obtain ⟨hl₁, hl₂, hend⟩ := ht.final hsince hcall
  obtain ⟨p, hp, hpg, hpos⟩ := hfound _ ht.polls _ rfl
  rw [← hname] at hp
  refine ⟨hl₁, hl₂, ?_⟩
  rcases hend with hnone | ⟨hopen, q, hq, hqg, hend, hidle, htext⟩
  · exact absurd (hpg.trans hg.symm) (hnone p hp)
  · cases hp.symm.trans hq
    have hgone : p.hasProcess = false := hidle hlive
    have hknows := hlogged.knows _ p hp hpos
    have hretained := hs.ended hlogged hopen hp hqg hpos hend
    rw [hname] at hp hknows
    obtain ⟨code, hexited⟩ := hreported hl₂ p hp hgone hend
    rw [hname, hpg] at hretained
    obtain ⟨hspawned, hlast⟩ := And.intro hknows.launched hknows.exited
    rw [hpg] at hspawned hlast
    obtain ⟨hhas, hlastCode⟩ := hlast code hexited
    refine ⟨⟨hpg ▸ (hlogged.numbered.2 _ p hp).1, ?_⟩, hretained, p.lastPid, p.lastExitCode,
      hspawned, hlastCode, ?_⟩
    · intro q hq hqg
      cases hp.symm.trans hq
      exact hgone
    · rw [htext, exitEvent, if_pos ⟨hlive, hhas⟩, find_name hp]

/-- The move that sends the final frame of a live stream, whether it binds the stream or serves it:
the frame comes with the last poll, that has found the generation ended and its tail read. -/
theorem Streams.final {st : LogStream} {a b : Daemon} {e : Event} {l₁ l₂ : List Event}
    {text : String} (hs : a.Streams) (hm : Move a b) (ht : Tracks st g s a)
    (hlive : st.mode = .live) (hsince : since a b = l₁ ++ e :: l₂)
    (hcall : e.call = .final st.key text)
    (hfound : ∀ e ∈ since a b, ∀ offset, e.call = .pollStream st.key offset →
      FindsGeneration st.name g e)
    (hreported : ∀ {offset}, l₂ = [⟨.pollStream st.key offset, a.toCore⟩] → ∀ p,
      a.find st.name = some p → p.hasProcess = false →
      p.logTail.totalBytes ≤ max offset p.logTail.beginOffset →
      ∃ code, Exited st.name g code a.history) :
    b.toCore = a.toCore ∧ l₁ = [] ∧
      (∃ offset, l₂ = [⟨.pollStream st.key offset, a.toCore⟩]) ∧ Gone st.name g a ∧
      retained st.name g a.history <:+ carried (Call.contentOf st.key) a.history ∧
      ∃ pid code, Spawned st.name g pid a.history ∧ Exited st.name g code a.history ∧
        text = formatProgramExitEvent st.name pid "exited" code := by
  have he : e ∈ since a b := by
    rw [hsince]
    exact List.mem_append_right _ List.mem_cons_self
  cases hm.streamTurn st.key with
  | same hfind hh => exact absurd (congrArg Call.stream? hcall) (hh.since he)
  | opened hkey hnext hkey' hfind hcore hbound hh => exact absurd hkey ht.key.ne
  | dropped hst hwhy hclosed hfind hh =>
    rw [since_eq (l := []) hh] at he
    cases he
  | served hst hw hcore hserve =>
    rename_i old
    obtain ⟨hname, -, hmode, hgeneration, -⟩ := ht.stream old hst
    have hkey := find_key hst
    rw [← hkey] at hcall hfound hreported ⊢
    obtain ⟨hl₁, hl₂, hrest⟩ := (hs.serves _ old hst hw).final hs.logged hserve hsince hcall hname
      (hmode.trans hlive) (hgeneration hw) hfound hreported
    exact ⟨hcore, hl₁, ⟨_, hl₂⟩, hrest⟩
  | bound hst hw hp hcore hserve =>
    rename_i old p
    obtain ⟨hname, -, hmode, -, -⟩ := ht.stream old hst
    have hold := find_key hst
    have hkey : (old.bind p).key = st.key := hold
    have hlogged : (a.setStream st.key fun _ => old.bind p).Logged :=
      ⟨hs.logged.numbered, hs.logged.earlier, hs.logged.capacity, hs.logged.knows⟩
    have hserves := hlogged.serves (old.bind p) hp rfl (Nat.le_refl _)
    have hpoll := hserve.polls
    rw [hkey] at hpoll
    obtain ⟨q, hq, hg, -⟩ := hfound _ hpoll _ rfl
    rw [← hname] at hq
    cases hp.symm.trans hq
    rw [← hkey] at hcall hfound hreported ⊢
    obtain ⟨hl₁, hl₂, hgone, hrest⟩ := hserves.final hlogged hserve hsince hcall hname
      (hmode.trans hlive) hg hfound hreported
    exact ⟨hcore, hl₁, ⟨_, hl₂⟩, ⟨hgone.begun, hgone.idle⟩, hrest⟩

/-- As long as every poll of a live stream finds its generation and the exit is reported before the
poll that ends the stream, the client sees the whole end of the generation. -/
theorem follower_sees_end {st : LogStream} (h : Reachable ω s) (inputs : List Input)
    (hst : s.findStream st.key = some st) (hlive : st.mode = .live)
    (hbound : st.waitingForGeneration = false → st.generation = g)
    (hpipes : PipesEnd st.name g s (s.run ω inputs))
    (hK : Undisturbed st g s (s.run ω inputs)) : SeesEnd st g s (s.run ω inputs) := by
  have hmoves := h.run_moves inputs
  obtain ⟨s', hs'⟩ : ∃ s', s' = s.run ω inputs := ⟨_, rfl⟩
  rw [← hs'] at hpipes hK hmoves ⊢
  have htracks : ∀ {x}, Moves s x → (∀ e ∈ since s x, ∀ offset,
      e.call = .pollStream st.key offset → FindsGeneration st.name g e) → Tracks st g s x := by
    intro x hx hfound
    refine hx.judged_since hfound (I := Tracks st g s) ⟨h.streams.key _ st hst, ?_, ?_⟩
      fun h₁ ht hm hfound => ht.move h₁ hm hfound
    · intro st' hst'
      cases hst.symm.trans hst'
      exact ⟨rfl, rfl, rfl, hbound, id⟩
    · intro hw hnone
      cases hst.symm.trans hnone
  refine ⟨fun hw hopen => ?_, fun l e post text hsince hcall => ?_⟩
  · have hend := htracks hmoves hK.found
    cases hfind : s'.findStream st.key with
    | some st' => exact .inl ⟨st', rfl⟩
    | none =>
      rcases hend.gone hw hfind with hclosed | hfinal
      · cases hclosed.symm.trans hopen
      · exact .inr hfinal
  · obtain ⟨a, b, l₁, l₂, hsa, hab, hbs, heq, hl⟩ := hmoves.split hsince
    have hall : since s s' = since b s' ++ (since a b ++ since s a) := by
      rw [since_trans (hsa.tail hab) hbs, since_tail hsa hab]
    have hpost : post = l₂ ++ since s a := by
      rw [hall, heq, hl, List.append_assoc, List.append_assoc] at hsince
      exact (List.cons.inj (List.append_cancel_left (List.append_cancel_left hsince))).2.symm
    have hbefore : post ++ s.history = l₂ ++ a.history := by
      rw [hpost, List.append_assoc, ← hsa.history]
    have hsplit : s'.history = l ++ e :: (post ++ s.history) := by
      rw [hmoves.history, hsince, List.append_assoc, List.cons_append]
    have hfound : ∀ e ∈ since a b, ∀ offset, e.call = .pollStream st.key offset →
        FindsGeneration st.name g e := by
      intro e he
      apply hK.found
      rw [hall]
      exact List.mem_append_right _ (List.mem_append_left _ he)
    have hcurrent := htracks hsa fun e he => by
      apply hK.found
      rw [hall]
      exact List.mem_append_right _ (List.mem_append_right _ he)
    have hreported : ∀ {offset}, l₂ = [⟨.pollStream st.key offset, a.toCore⟩] → ∀ p,
        a.find st.name = some p → p.hasProcess = false →
        p.logTail.totalBytes ≤ max offset p.logTail.beginOffset →
        ∃ code, Exited st.name g code a.history := by
      intro offset hl₂ p hp hidle hend
      rw [hsa.history]
      refine hK.reported (l ++ [e]) ⟨.pollStream st.key offset, a.toCore⟩ _ offset p ?_ rfl hp
        hidle hend
      rw [hsince, hpost, hl₂, List.append_assoc]
      rfl
    -- What the last poll has seen is what the whole run has recorded of the generation.
    obtain ⟨hcore, rfl, ⟨offset, rfl⟩, hgone, hbytes, pid, code, ⟨e₁, he₁, hspawned⟩,
      ⟨e₂, he₂, hexited⟩, htext⟩ :=
        (h.streams.moves hsa).final hab hcurrent hlive heq hcall hfound hreported
    have hpipes' : PipesEnd st.name g b s' := by
      intro e he
      apply hpipes
      rw [hall]
      exact List.mem_append_left _ he
    have hquiet : ∀ e ∈ l, e.call.outputOf st.name g = [] := by
      rw [hl, List.append_nil]
      refine Gone.quiet hbs ⟨?_, ?_⟩ hpipes'
      · rw [hcore]
        exact hgone.begun
      · rw [hcore]
        exact hgone.idle
    rw [hsplit, hbefore]
    have hlater : ∀ {e' : Event}, e' ∈ a.history →
        e' ∈ l ++ e :: ([⟨.pollStream st.key offset, a.toCore⟩] ++ a.history) := fun he' =>
      List.mem_append_right _ (List.mem_cons_of_mem _ (List.mem_cons_of_mem _ he'))
    refine ⟨?_, pid, code, ⟨e₁, hlater he₁, hspawned⟩, ⟨e₂, hlater he₂, hexited⟩, htext⟩
    have hsame : carried (Call.outputOf st.name g)
        (l ++ e :: ([⟨.pollStream st.key offset, a.toCore⟩] ++ a.history)) =
          carried (Call.outputOf st.name g) a.history := by
      rw [carried_append, carried_nil hquiet, List.append_nil, carried, hcall]
      simp only [List.singleton_append, carried, Call.outputOf, List.append_nil]
    rw [retained, hsame, List.singleton_append, carried]
    simp only [Call.contentOf, List.append_nil]
    exact hbytes

def followRequest (name : String) : Input := .callback (.requests 2 [(1, .log name .live)])

/-- The event sends the final frame of the stream. -/
def endsStream (key : Nat) (e : Event) : Bool :=
  match e.call with
  | .final k _ => k = key
  | _ => false

def pollsOther (key : Nat) (n : String) (g : Nat) (e : Event) : Bool :=
  match e.call with
  | .pollStream k _ =>
    k = key && !(e.core.find n).any fun p => p.generation = g && p.generation ≠ 0
  | _ => false

def reportsExit (n : String) (g : Nat) (e : Event) : Bool :=
  match e.call with
  | .processExit m k _ => m = n && k = g
  | _ => false

/-- The event is a poll of the stream that has nothing left to read, of a program without a
process. -/
def pollsEnd (key : Nat) (n : String) (e : Event) : Bool :=
  match e.call with
  | .pollStream k offset => k = key && (e.core.find n).any fun p =>
      !p.hasProcess && p.logTail.totalBytes ≤ max offset p.logTail.beginOffset
  | _ => false

/-- Among the events, the latest first, such a poll comes only after the report of the exit. -/
def reportedFirst (key : Nat) (n : String) (g : Nat) (older : List Event) : List Event → Bool
  | [] => true
  | e :: post => (!pollsEnd key n e || (post ++ older).any (reportsExit n g)) &&
      reportedFirst key n g older post

def outputLate (n : String) (g : Nat) (e : Event) : Bool :=
  match e.call with
  | .appended m k _ => m = n && k = g && (e.core.find n).any fun p => !p.hasProcess
  | _ => false

theorem exited_of_any {h : List Event} (hany : h.any (reportsExit n g) = true) :
    ∃ code, Exited n g code h := by
  obtain ⟨e, he, hexit⟩ := List.any_eq_true.1 hany
  rw [reportsExit] at hexit
  split at hexit
  · rename_i m k code hcall
    rw [Bool.and_eq_true, decide_eq_true_iff, decide_eq_true_iff] at hexit
    obtain ⟨rfl, rfl⟩ := hexit
    exact ⟨code, e, he, hcall⟩
  · cases hexit

theorem reportedFirst_at {older l post : List Event} {e : Event} (hends : pollsEnd key n e = true)
    (h : reportedFirst key n g older (l ++ e :: post) = true) :
    ∃ code, Exited n g code (post ++ older) := by
  induction l with
  | nil =>
    rw [List.nil_append, reportedFirst, hends, Bool.and_eq_true] at h
    exact exited_of_any h.1
  | cons _ l ih =>
    rw [List.cons_append, reportedFirst, Bool.and_eq_true] at h
    exact ih h.2

theorem undisturbed_of_test {st : LogStream} (hkey : st.key = key) (hname : st.name = n)
    (hfound : (since s s').all (fun e => !pollsOther key n g e) = true)
    (hreported : reportedFirst key n g s.history (since s s') = true) : Undisturbed st g s s' := by
  subst hkey hname
  rw [List.all_eq_true] at hfound
  constructor
  · intro e he offset hcall
    have hfinds := hfound e he
    rw [pollsOther, hcall] at hfinds
    simp only [decide_true, Bool.true_and, Bool.not_not, Option.any_eq_true, Bool.and_eq_true,
      decide_eq_true_iff] at hfinds
    exact hfinds
  · intro l e post offset p hsince hcall hp hidle hend
    rw [hsince] at hreported
    refine reportedFirst_at ?_ hreported
    rw [pollsEnd, hcall, hp]
    simp only [Option.any_some, hidle, Bool.not_false, Bool.true_and, Bool.and_eq_true,
      decide_eq_true_iff]
    exact ⟨trivial, hend⟩

theorem pipesEnd_of_test {m : String} (hname : m = n)
    (h : (since s s').all (fun e => !outputLate n g e) = true) : PipesEnd m g s s' := by
  subst hname
  rw [List.all_eq_true] at h
  intro e he data p hcall hp
  have hlate := h e he
  rw [outputLate, hcall, hp] at hlate
  simpa using hlate

def lastOutput : List Input := .callback (.processLog "a" 1 0 [104, 105]) :: exits "a" 1

/-- The main loop goes on until the follower's stream has ended. -/
def polledOut : List Input := lastOutput ++ [Input.tick, .wake, .tick]

theorem follower_sees_end_once : ∃ s st, Reachable (exitingSystem [oneShot "a" []]) s ∧
    (s.findStream st.key = some st ∧ st.mode = .live ∧ st.generation = 1 ∧
      ∃ e ∈ (s.run (exitingSystem [oneShot "a" []]) polledOut).history,
        endsStream st.key e = true) ∧
    SeesEnd st 1 s (s.run (exitingSystem [oneShot "a" []]) polledOut) := by
  obtain ⟨s, hs, htest⟩ := run_any (ω := exitingSystem [oneShot "a" []])
    [.tick, .wake, followRequest "a"]
    (fun s => ((s.findStream 0).any fun st =>
        st.name = "a" && st.mode = .live && st.generation = 1) &&
      (s.run (exitingSystem [oneShot "a" []]) polledOut).history.any (endsStream 0) &&
      (since s (s.run (exitingSystem [oneShot "a" []]) polledOut)).all
        (fun e => !pollsOther 0 "a" 1 e) &&
      reportedFirst 0 "a" 1 s.history
        (since s (s.run (exitingSystem [oneShot "a" []]) polledOut)) &&
      (since s (s.run (exitingSystem [oneShot "a" []]) polledOut)).all
        (fun e => !outputLate "a" 1 e)) (by decide +kernel)
  simp only [Bool.and_eq_true, Option.any_eq_true, decide_eq_true_iff, List.any_eq_true] at htest
  obtain ⟨⟨⟨⟨⟨st, hst, ⟨hname, hlive⟩, hg⟩, hends⟩, hfound⟩, hreported⟩, hpipes⟩ := htest
  have hkey := find_key hst
  rw [← hkey] at hst hends
  exact ⟨s, st, hs, ⟨hst, hlive, hg, hends⟩, follower_sees_end hs polledOut hst hlive
    (fun _ => hg) (pipesEnd_of_test hname hpipes) (undisturbed_of_test hkey hname hfound hreported)⟩

def endsWith (key : Nat) (test : String → Bool) (e : Event) : Bool :=
  match e.call with
  | .final k text => k = key && test text
  | _ => false

theorem formatProgramExitEvent_ne (name : String) (pid : Int) (reason : String) (code : Int) :
    "" ≠ formatProgramExitEvent name pid reason code := by
  intro h
  have hlength := congrArg String.length h
  have hlast : "\n".length = 1 := rfl
  simp only [formatProgramExitEvent, String.join, List.foldl_cons, List.foldl_nil,
    String.length_append, hlast] at hlength
  omega

theorem not_seesEnd {st : LogStream} {test : String → Bool} (hkey : st.key = key)
    (hends : (since s s').any (endsWith key test) = true)
    (hlost : ∀ text pid code, test text = true → Exited st.name g code s'.history →
      text ≠ formatProgramExitEvent st.name pid "exited" code) : ¬SeesEnd st g s s' := by
  intro h
  obtain ⟨e, he, htext⟩ := List.any_eq_true.1 hends
  rw [endsWith] at htext
  split at htext
  · rename_i k text hcall
    rw [Bool.and_eq_true, decide_eq_true_iff] at htext
    obtain ⟨rfl, htest⟩ := htext
    obtain ⟨l, post, hsince⟩ := List.append_of_mem he
    rw [← hkey] at hcall
    obtain ⟨-, pid, code, -, hexited, hformat⟩ := h.ended l e post text hsince hcall
    exact hlost text pid code htest hexited hformat
  · cases htext

def startAgain : Input :=
  .callback (.requests 1 [(1, .start
    { mode := .existing, name := "a", config := oneShot "a" [] })])

/-- A program whose end the main loop has completed is started again before the next poll. -/
def startedAgain : List Input := lastOutput ++ [Input.tick, startAgain, .wake]

/-- A launch between the completion and the next poll takes the end of the generation away from its
follower: the final frame is empty, although the exit was reported in time. -/
theorem relaunch_loses_end : ∃ s st, Reachable (exitingSystem [oneShot "a" []]) s ∧
    s.findStream st.key = some st ∧ st.mode = .live ∧ st.waitingForGeneration = false ∧
    st.generation = 1 ∧ PipesEnd st.name 1 s (s.run (exitingSystem [oneShot "a" []]) startedAgain) ∧
    ¬SeesEnd st 1 s (s.run (exitingSystem [oneShot "a" []]) startedAgain) := by
  obtain ⟨s, hs, htest⟩ := run_any (ω := exitingSystem [oneShot "a" []])
    [.tick, .wake, followRequest "a"]
    (fun s => ((s.findStream 0).any fun st => st.name = "a" && st.mode = .live &&
        !st.waitingForGeneration && st.generation = 1) &&
      (since s (s.run (exitingSystem [oneShot "a" []]) startedAgain)).any
        (endsWith 0 fun text => text = "") &&
      (since s (s.run (exitingSystem [oneShot "a" []]) startedAgain)).all
        (fun e => !outputLate "a" 1 e)) (by decide +kernel)
  simp only [Bool.and_eq_true, Option.any_eq_true, decide_eq_true_iff, Bool.not_eq_true'] at htest
  obtain ⟨⟨⟨st, hst, ⟨⟨hname, hlive⟩, hbound⟩, hg⟩, hends⟩, hpipes⟩ := htest
  have hkey := find_key hst
  rw [← hkey] at hst
  refine ⟨s, st, hs, hst, hlive, hbound, hg, pipesEnd_of_test hname hpipes, ?_⟩
  refine not_seesEnd hkey hends fun text pid code htext _ => ?_
  rw [of_decide_eq_true htext]
  exact formatProgramExitEvent_ne _ _ _ _

/-- The output of a process has ended and its tree is empty before its exit is reported. -/
def reportedLate : List Input :=
  [.callback (.processLog "a" 1 0 [104, 105]), .callback (.processLogEof "a" 1 0),
    .callback (.processLogEof "a" 1 1), .tick, .wake, .callback (.processExit "a" 1 0)]

/-- The main loop does not wait for the report of the exit: the poll after the completion sends an
empty final frame, and the exit is reported later. No launch is needed for it. -/
theorem late_report_loses_exit : ∃ s st, Reachable (exitingSystem [oneShot "a" []]) s ∧
    s.findStream st.key = some st ∧ st.mode = .live ∧ st.waitingForGeneration = false ∧
    st.generation = 1 ∧ PipesEnd st.name 1 s (s.run (exitingSystem [oneShot "a" []]) reportedLate) ∧
    (∃ code, Exited st.name 1 code (s.run (exitingSystem [oneShot "a" []]) reportedLate).history) ∧
    ¬SeesEnd st 1 s (s.run (exitingSystem [oneShot "a" []]) reportedLate) := by
  obtain ⟨s, hs, htest⟩ := run_any (ω := exitingSystem [oneShot "a" []])
    [.tick, .wake, followRequest "a"]
    (fun s => ((s.findStream 0).any fun st => st.name = "a" && st.mode = .live &&
        !st.waitingForGeneration && st.generation = 1) &&
      (since s (s.run (exitingSystem [oneShot "a" []]) reportedLate)).any
        (endsWith 0 fun text => text = "") &&
      (since s (s.run (exitingSystem [oneShot "a" []]) reportedLate)).all
        (fun e => !outputLate "a" 1 e) &&
      (s.run (exitingSystem [oneShot "a" []]) reportedLate).history.any (reportsExit "a" 1))
    (by decide +kernel)
  simp only [Bool.and_eq_true, Option.any_eq_true, decide_eq_true_iff, Bool.not_eq_true'] at htest
  obtain ⟨⟨⟨⟨st, hst, ⟨⟨hname, hlive⟩, hbound⟩, hg⟩, hends⟩, hpipes⟩, hexits⟩ := htest
  have hkey := find_key hst
  rw [← hkey] at hst
  refine ⟨s, st, hs, hst, hlive, hbound, hg, pipesEnd_of_test hname hpipes,
    ?_, ?_⟩
  · rw [hname]
    exact exited_of_any hexits
  refine not_seesEnd hkey hends fun text pid code htext _ => ?_
  rw [of_decide_eq_true htext]
  exact formatProgramExitEvent_ne _ _ _ _

/-- Every process tree is empty as soon as the process has ended. -/
def shortSystem : System := simpleSystem [oneShot "a" []] fun _ => some 0

/-- A second process ends, and its exit has not been reported yet. -/
def secondEnd : List Input :=
  [.callback (.processLogEof "a" 2 0), .callback (.processLogEof "a" 2 1), .tick, .wake]

/-- `launch_program` keeps `has_last_exit`, so the final frame of the second generation reports the
exit of the first one when its own has not been reported. -/
theorem late_report_shows_previous : ∃ s st, Reachable shortSystem s ∧
    s.findStream st.key = some st ∧ st.mode = .live ∧ st.waitingForGeneration = false ∧
    st.generation = 2 ∧ ((since s (s.run shortSystem secondEnd)).any
      (endsWith st.key fun text => text = formatProgramExitEvent "a" 121 "exited" 0)) = true ∧
    ¬SeesEnd st 2 s (s.run shortSystem secondEnd) := by
  obtain ⟨s, hs, htest⟩ := run_any (ω := shortSystem)
    ([Input.tick, .wake] ++ exits "a" 1 ++
      [Input.tick, .wake, startAgain, followRequest "a", .tick, .wake])
    (fun s => ((s.findStream 0).any fun st => st.name = "a" && st.mode = .live &&
        !st.waitingForGeneration && st.generation = 2) &&
      (since s (s.run shortSystem secondEnd)).any
        (endsWith 0 fun text => text = formatProgramExitEvent "a" 121 "exited" 0) &&
      (s.run shortSystem secondEnd).history.all fun e => !reportsExit "a" 2 e) (by decide +kernel)
  simp only [Bool.and_eq_true, Option.any_eq_true, decide_eq_true_iff, Bool.not_eq_true',
    List.all_eq_true] at htest
  obtain ⟨⟨⟨st, hst, ⟨⟨hname, hlive⟩, hbound⟩, hg⟩, hends⟩, hnone⟩ := htest
  have hkey := find_key hst
  rw [← hkey] at hst
  refine ⟨s, st, hs, hst, hlive, hbound, hg, hkey ▸ hends, ?_⟩
  refine not_seesEnd hkey hends fun text pid code _ hexited _ => ?_
  obtain ⟨e, he, hcall⟩ := hexited
  have hother := hnone e he
  rw [reportsExit, hcall, hname] at hother
  simp at hother

end Daemon

end PmTiny.Windows
