import PmTiny.Loop.Pipes

namespace PmTiny.Pipes
open Descriptors
set_option autoImplicit true

/-- Who a descriptor number belongs to: an output of a program, or a stream descriptor. -/
inductive Owner where
  | stream (program : Nat) (i : Fin 2)
  | handle (descriptor : Nat)
  deriving DecidableEq, Repr

namespace PipeLoop

def owned (s : PipeLoop) : Owner → Option Nat
  | .stream id i => (s.findProg id).bind (·.rpipefd i)
  | .handle d => (Keyed.find Handle.descriptor d s.handles).map Handle.native

variable {s s' : PipeLoop} {p : ProgPipes} {id : Nat}

theorem findProg_updateProg (s : PipeLoop) (id k : Nat) (hf : ∀ p, (f p).id = p.id) :
    (s.updateProg id f).findProg k = if k = id then (s.findProg id).map f else s.findProg k :=
  Keyed.find_update hf

theorem owned_stream_of_find (hp : s.findProg id = some p) (hfd : p.rpipefd i = some fd) :
    s.owned (.stream id i) = some fd := by
  rw [owned, hp, Option.bind_some, hfd]

theorem watched_iff : s.Watched id g i fd ↔
    ∃ d n f, Keyed.find PipeEntry.fd fd s.pipes = some ⟨fd, d⟩ ∧ s.owned (.handle d) = some n ∧
      s.table.file fd = some f ∧ s.table.file n = some f ∧ ⟨id, i, fd, g, d⟩ ∈ s.waits := by
  constructor
  · rintro ⟨⟨k, d⟩, he, h, hh, f, hf, hn, hw⟩
    have hk : k = fd := Keyed.key_of_find he
    subst hk
    refine ⟨d, h.native, f, he, ?_, hf, hn, hw⟩
    rw [owned, hh]
    rfl
  · rintro ⟨d, n, f, he, hd, hf, hn, hw⟩
    obtain ⟨h, hh, rfl⟩ := Option.map_eq_some_iff.1 hd
    exact ⟨_, he, h, hh, f, hf, hn, hw⟩

def generationOf (s : PipeLoop) (id : Nat) : Option Nat :=
  (s.findProg id).map ProgPipes.generation

/-- Identities are used once: those of programs, numbers, descriptors and waits. -/
structure Numbered (s : PipeLoop) : Prop where
  ids : (s.progs.map ProgPipes.id).Nodup
  idLt : ∀ k ∈ s.progs.map ProgPipes.id, k < s.nextProg
  keys : (s.pipes.map PipeEntry.fd).Nodup
  entries : (s.pipes.map PipeEntry.descriptor).Nodup
  entryLt : ∀ d ∈ s.pipes.map PipeEntry.descriptor, d < s.nextDescriptor
  handleLt : ∀ d ∈ s.handles.map Handle.descriptor, d < s.nextDescriptor
  waitLt : ∀ w ∈ s.waits, w.descriptor < s.nextDescriptor
  waitKey : ∀ w ∈ s.waits, ∀ w' ∈ s.waits, w.descriptor = w'.descriptor → w = w'

def Duplicates (s : PipeLoop) (d fd : Nat) : Prop :=
  ∃ n, s.owned (.handle d) = some n ∧ s.table.file n = s.table.file fd

/-- A registered pipe whose entry in `pipes_` is a duplicate of it has a wait through that entry. -/
structure Sound (s : PipeLoop) : Prop where
  numbered : s.Numbered
  held : Held s.owned s.table
  idle : ∀ p ∈ s.progs, p.live = false → ∀ i, p.rpipefd i = none
  streams : ∀ o n k, s.owned o = some n → s.table.file n = some (.stream k) → k < s.nextStream
  watched : ∀ id i fd, s.owned (.stream id i) = some fd → ∀ g, s.generationOf id = some g →
    ∀ d, Keyed.find PipeEntry.fd fd s.pipes = some ⟨fd, d⟩ → s.Duplicates d fd →
      ⟨id, i, fd, g, d⟩ ∈ s.waits

theorem Numbered.congr (h : s.Numbered)
    (hids : s'.progs.map ProgPipes.id = s.progs.map ProgPipes.id)
    (hprog : s'.nextProg = s.nextProg) (hpipes : s'.pipes = s.pipes)
    (hhandles : s'.handles = s.handles) (hwaits : s'.waits = s.waits)
    (hnext : s'.nextDescriptor = s.nextDescriptor) : s'.Numbered where
  ids := by rw [hids]; exact h.ids
  idLt := by rw [hids, hprog]; exact h.idLt
  keys := by rw [hpipes]; exact h.keys
  entries := by rw [hpipes]; exact h.entries
  entryLt := by rw [hpipes, hnext]; exact h.entryLt
  handleLt := by rw [hhandles, hnext]; exact h.handleLt
  waitLt := by rw [hwaits, hnext]; exact h.waitLt
  waitKey := by rw [hwaits]; exact h.waitKey

theorem Duplicates.frame (h : s'.Duplicates d fd)
    (ho : s'.owned (.handle d) = s.owned (.handle d))
    (hn : ∀ n, s.owned (.handle d) = some n → s'.table.file n = s.table.file n)
    (hf : s'.table.file fd = s.table.file fd) : s.Duplicates d fd := by
  obtain ⟨n, hd, hfile⟩ := h
  rw [ho] at hd
  exact ⟨n, hd, by rw [← hn n hd, ← hf, hfile]⟩

theorem Sound.watched_frame (h : s.Sound) (hpipes : s'.pipes = s.pipes)
    (hwaits : s'.waits = s.waits)
    (hhandle : ∀ d, s'.owned (.handle d) = s.owned (.handle d))
    (hfile : ∀ d n, s.owned (.handle d) = some n → s'.table.file n = s.table.file n)
    (hstream : ∀ id i fd, s'.owned (.stream id i) = some fd → s.owned (.stream id i) = some fd ∧
      s'.table.file fd = s.table.file fd ∧ s'.generationOf id = s.generationOf id) :
    ∀ id i fd, s'.owned (.stream id i) = some fd → ∀ g, s'.generationOf id = some g →
      ∀ d, Keyed.find PipeEntry.fd fd s'.pipes = some ⟨fd, d⟩ → s'.Duplicates d fd →
        ⟨id, i, fd, g, d⟩ ∈ s'.waits := by
  intro id i fd ho g hg d he hdup
  obtain ⟨ho', hf, hg'⟩ := hstream id i fd ho
  rw [hg'] at hg
  rw [hpipes] at he
  rw [hwaits]
  exact h.watched id i fd ho' g hg d he (hdup.frame (hhandle d) (hfile d) hf)

theorem Sound.streams_frame (h : s.Sound) (hnext : s.nextStream ≤ s'.nextStream)
    (hown : ∀ o n, s'.owned o = some n →
      s.owned o = some n ∧ s'.table.file n = s.table.file n) :
    ∀ o n k, s'.owned o = some n → s'.table.file n = some (.stream k) → k < s'.nextStream := by
  intro o n k ho hf
  obtain ⟨ho', hf'⟩ := hown o n ho
  exact (h.streams o n k ho' (hf'.symm.trans hf)).trans_le hnext

section ClosePipe

theorem closePipe_of_none (h : s.owned (.stream id i) = none) : s.closePipe id i = s := by
  rw [owned] at h
  rw [closePipe, h]

theorem closePipe_of_some (h : s.owned (.stream id i) = some fd) : s.closePipe id i =
    { s.updateProg id fun p => { p with rpipefd := Function.update p.rpipefd i none } with
      table := s.table.close fd } := by
  rw [owned] at h
  rw [closePipe, h]

theorem findProg_closePipe (s : PipeLoop) (id : Nat) (i : Fin 2) (k : Nat) :
    (s.closePipe id i).findProg k = if k = id then
      (s.findProg id).map fun p => { p with rpipefd := Function.update p.rpipefd i none }
      else s.findProg k := by
  cases h : s.owned (.stream id i) with
  | some fd =>
    rw [closePipe_of_some h]
    exact findProg_updateProg s id k fun _ => rfl
  | none =>
    rw [closePipe_of_none h]
    split
    · rename_i hk
      subst hk
      cases hp : s.findProg k with
      | none => rfl
      | some p =>
        have hi : p.rpipefd i = none := by
          rw [owned, hp] at h
          exact h
        rw [Option.map_some, ← hi, Function.update_eq_self]
    · rfl

theorem owned_closePipe (s : PipeLoop) (id : Nat) (i : Fin 2) :
    (s.closePipe id i).owned = Function.update s.owned (.stream id i) none := by
  funext o
  cases o with
  | handle d =>
    rw [Function.update_of_ne (by simp)]
    cases h : s.owned (.stream id i) with
    | some fd => rw [closePipe_of_some h]; rfl
    | none => rw [closePipe_of_none h]
  | stream k j =>
    rw [owned, findProg_closePipe]
    by_cases hk : k = id
    · subst hk
      rw [if_pos rfl]
      by_cases hj : j = i
      · subst hj
        rw [Function.update_self]
        cases s.findProg k <;> simp
      · rw [Function.update_of_ne (by simpa using hj), owned]
        cases s.findProg k <;> simp [hj]
    · rw [if_neg hk, Function.update_of_ne (by simp [hk])]
      rfl

theorem generationOf_closePipe (s : PipeLoop) (id : Nat) (i : Fin 2) :
    (s.closePipe id i).generationOf = s.generationOf := by
  funext k
  rw [generationOf, findProg_closePipe, generationOf]
  split
  · rename_i hk
    subst hk
    cases s.findProg k <;> rfl
  · rfl

theorem closePipe_frame (s : PipeLoop) (id : Nat) (i : Fin 2) :
    (s.closePipe id i).pipes = s.pipes ∧ (s.closePipe id i).handles = s.handles ∧
      (s.closePipe id i).waits = s.waits ∧ (s.closePipe id i).nextProg = s.nextProg ∧
      (s.closePipe id i).nextDescriptor = s.nextDescriptor ∧
      (s.closePipe id i).nextStream = s.nextStream ∧
      (s.closePipe id i).progs.map ProgPipes.id = s.progs.map ProgPipes.id := by
  cases h : s.owned (.stream id i) with
  | some fd =>
    rw [closePipe_of_some h]
    exact ⟨rfl, rfl, rfl, rfl, rfl, rfl, Keyed.map_key_update fun _ => rfl⟩
  | none =>
    rw [closePipe_of_none h]
    exact ⟨rfl, rfl, rfl, rfl, rfl, rfl, rfl⟩

theorem held_closePipe (h : Held s.owned s.table) (id : Nat) (i : Fin 2) :
    Held (s.closePipe id i).owned (s.closePipe id i).table := by
  cases ho : s.owned (.stream id i) with
  | some fd =>
    rw [owned_closePipe, closePipe_of_some ho]
    exact h.release ho
  | none =>
    rw [closePipe_of_none ho]
    exact h

theorem mem_closePipe (hp : p ∈ (s.closePipe id i).progs) :
    ∃ q ∈ s.progs, p.live = q.live ∧ ∀ j, q.rpipefd j = none → p.rpipefd j = none := by
  cases ho : s.owned (.stream id i) with
  | some fd =>
    rw [closePipe_of_some ho] at hp
    obtain ⟨q, hq, rfl⟩ := List.mem_map.1 hp
    refine ⟨q, hq, ?_⟩
    split
    · refine ⟨rfl, ?_⟩
      intro j hj
      by_cases hji : j = i
      · simp [hji]
      · simpa [hji] using hj
    · exact ⟨rfl, fun _ hj => hj⟩
  | none =>
    rw [closePipe_of_none ho] at hp
    exact ⟨p, hp, rfl, fun _ hj => hj⟩

theorem file_closePipe (h : Held s.owned s.table) (ho : (s.closePipe id i).owned o = some n) :
    s.owned o = some n ∧ (s.closePipe id i).table.file n = s.table.file n := by
  rw [owned_closePipe] at ho
  by_cases hne : o = .stream id i
  · rw [hne, Function.update_self] at ho
    cases ho
  · rw [Function.update_of_ne hne] at ho
    refine ⟨ho, ?_⟩
    cases hi : s.owned (.stream id i) with
    | some fd =>
      rw [closePipe_of_some hi]
      exact h.file_close hi ho hne
    | none => rw [closePipe_of_none hi]

theorem sound_closePipe (h : s.Sound) (id : Nat) (i : Fin 2) : (s.closePipe id i).Sound := by
  obtain ⟨hpipes, hhandles, hwaits, hprog, hnext, hstream, hids⟩ := closePipe_frame s id i
  have hhandle : ∀ d, (s.closePipe id i).owned (.handle d) = s.owned (.handle d) := by
    intro d
    rw [owned_closePipe, Function.update_of_ne (by simp)]
  refine ⟨h.numbered.congr hids hprog hpipes hhandles hwaits hnext, held_closePipe h.held id i,
    ?_, h.streams_frame hstream.ge fun o n ho => file_closePipe h.held ho, ?_⟩
  · intro p hp hlive j
    obtain ⟨q, hq, hl, hnone⟩ := mem_closePipe hp
    exact hnone j (h.idle q hq (hl ▸ hlive) j)
  · apply h.watched_frame hpipes hwaits hhandle
    · intro d n hn
      rw [← hhandle] at hn
      exact (file_closePipe h.held hn).2
    · intro k j fd ho
      obtain ⟨ho', hf⟩ := file_closePipe h.held ho
      exact ⟨ho', hf, by rw [generationOf_closePipe]⟩

end ClosePipe

theorem sound_readPipe (h : s.Sound) (id : Nat) (i : Fin 2) (killed empty : Bool) :
    (s.readPipe id i killed empty).Sound := by
  rw [readPipe]
  split
  · exact sound_closePipe h id i
  · exact h

theorem rpipefd_of_owned (h : s.Numbered) (hp : p ∈ s.progs) (i : Fin 2) :
    p.rpipefd i = s.owned (.stream p.id i) := by
  rw [owned, findProg, Keyed.find_of_mem h.ids hp]
  rfl

theorem sound_table (h : s.Sound) (hf : ∀ o n, s.owned o = some n → t.file n = s.table.file n)
    (hk : s.nextStream ≤ k) : ({ s with table := t, nextStream := k } : PipeLoop).Sound := by
  refine ⟨h.numbered.congr rfl rfl rfl rfl rfl rfl, h.held.mono hf, h.idle,
    h.streams_frame hk fun o n ho => ⟨ho, hf o n ho⟩, ?_⟩
  apply h.watched_frame (by rfl) (by rfl) (fun _ => by rfl)
  · intro d n hn
    exact hf _ n hn
  · intro id i fd ho
    exact ⟨ho, hf (.stream id i) fd ho, rfl⟩

theorem owned_updateProg (hid : ∀ p, (f p).id = p.id) (hrp : ∀ p, (f p).rpipefd = p.rpipefd) :
    (s.updateProg id f).owned = s.owned := by
  funext o
  cases o with
  | handle d => rfl
  | stream k i =>
    rw [owned, findProg_updateProg s id k hid, owned]
    split
    · rename_i hk
      subst hk
      cases s.findProg k with
      | none => rfl
      | some p => simp [hrp]
    · rfl

theorem sound_updateProg (h : s.Sound) (hid : ∀ p, (f p).id = p.id)
    (hrp : ∀ p, (f p).rpipefd = p.rpipefd) (hnone : ∀ i, s.owned (.stream id i) = none) :
    (s.updateProg id f).Sound := by
  have howned : (s.updateProg id f).owned = s.owned := owned_updateProg hid hrp
  refine ⟨h.numbered.congr (Keyed.map_key_update hid) rfl rfl rfl rfl rfl, ?_, ?_, ?_, ?_⟩
  · rw [howned]
    exact h.held
  · intro p hp hlive i
    obtain ⟨q, hq, rfl⟩ := List.mem_map.1 hp
    by_cases hk : q.id = id
    · rw [if_pos hk, hrp, rpipefd_of_owned h.numbered hq, hk, hnone]
    · rw [if_neg hk] at hlive ⊢
      exact h.idle q hq hlive i
  · rw [howned]
    exact h.streams
  · apply h.watched_frame (by rfl) (by rfl) (fun d => by rw [howned]) (fun _ _ _ => by rfl)
    intro k i fd ho
    rw [howned] at ho
    refine ⟨ho, rfl, ?_⟩
    rw [generationOf, findProg_updateProg s id k hid, if_neg, generationOf]
    rintro rfl
    rw [hnone] at ho
    cases ho

theorem sound_closeFds (h : s.Sound) (id : Nat) : (s.closeFds id).Sound := by
  have h₀ := sound_closePipe h id 0
  have h₁ := sound_closePipe h₀ id 1
  apply sound_updateProg h₁ (fun _ => by rfl) (fun _ => by rfl)
  intro i
  show ((s.closePipe id 0).closePipe id 1).owned (.stream id i) = none
  rw [owned_closePipe, owned_closePipe]
  by_cases hi : i = 1
  · rw [hi, Function.update_self]
  · have hi₀ : i = 0 := by omega
    rw [hi₀, Function.update_of_ne (by simp), Function.update_self]

theorem sound_create (h : s.Sound) :
    ({ s with progs := s.progs ++ [⟨s.nextProg, false, 0, fun _ => none⟩],
              nextProg := s.nextProg + 1 } : PipeLoop).Sound := by
  have hnew : s.findProg s.nextProg = none := by
    apply Keyed.find_eq_none.2
    intro p hp hk
    exact absurd (h.numbered.idLt p.id (List.mem_map_of_mem hp)) (by omega)
  have hfind : ∀ k, Keyed.find ProgPipes.id k
      (s.progs ++ [⟨s.nextProg, false, 0, fun _ => none⟩]) =
      if s.nextProg = k then some ⟨s.nextProg, false, 0, fun _ => none⟩ else s.findProg k :=
    fun k => Keyed.find_append_singleton hnew
  have howned : ({ s with progs := s.progs ++ [⟨s.nextProg, false, 0, fun _ => none⟩],
                          nextProg := s.nextProg + 1 } : PipeLoop).owned = s.owned := by
    funext o
    cases o with
    | handle d => rfl
    | stream k i =>
      rw [owned, findProg, hfind, owned]
      split
      · rename_i hk
        rw [← hk, hnew]
        rfl
      · rfl
  refine ⟨?_, ?_, ?_, ?_, ?_⟩
  · constructor
    · rw [List.map_append, List.nodup_append]
      refine ⟨h.numbered.ids, by simp, ?_⟩
      intro k hk m hm
      have := h.numbered.idLt k hk
      simp at hm
      omega
    · intro k hk
      rw [List.map_append, List.mem_append] at hk
      rcases hk with hk | hk
      · exact Nat.lt_succ_of_lt (h.numbered.idLt k hk)
      · simp at hk
        simp [hk]
    · exact h.numbered.keys
    · exact h.numbered.entries
    · exact h.numbered.entryLt
    · exact h.numbered.handleLt
    · exact h.numbered.waitLt
    · exact h.numbered.waitKey
  · rw [howned]
    exact h.held
  · intro p hp hlive i
    rcases List.mem_append.1 hp with hp | hp
    · exact h.idle p hp hlive i
    · rw [List.mem_singleton.1 hp]
  · rw [howned]
    exact h.streams
  · apply h.watched_frame (by rfl) (by rfl) (fun d => by rw [howned]) (fun _ _ _ => by rfl)
    intro k i fd ho
    rw [howned] at ho
    refine ⟨ho, rfl, ?_⟩
    rw [generationOf, findProg, hfind, if_neg, generationOf]
    rintro rfl
    rw [owned, hnew] at ho
    cases ho

theorem sound_remove (h : s.Sound) (id : Nat) :
    ({ s with progs := Keyed.remove ProgPipes.id id s.progs } : PipeLoop).Sound := by
  have hfind : ∀ k, k ≠ id → Keyed.find ProgPipes.id k (Keyed.remove ProgPipes.id id s.progs) =
      s.findProg k := fun k hk => Keyed.find_remove_ne hk
  have hself : Keyed.find ProgPipes.id id (Keyed.remove ProgPipes.id id s.progs) = none :=
    Keyed.find_remove_self
  have hsub : ∀ o n, ({ s with progs := Keyed.remove ProgPipes.id id s.progs } : PipeLoop).owned o =
      some n → s.owned o = some n := by
    intro o n ho
    cases o with
    | handle d => exact ho
    | stream k i =>
      rw [owned, findProg] at ho
      by_cases hk : k = id
      · rw [hk, hself] at ho
        cases ho
      · rw [hfind k hk] at ho
        exact ho
  have hids : (Keyed.remove ProgPipes.id id s.progs).map ProgPipes.id =
      (s.progs.map ProgPipes.id).filter (· ≠ id) := Keyed.map_key_remove
  refine ⟨?_, h.held.sub hsub, ?_, ?_, ?_⟩
  · constructor
    · rw [hids]
      exact h.numbered.ids.filter _
    · intro k hk
      rw [hids] at hk
      exact h.numbered.idLt k (List.mem_of_mem_filter hk)
    · exact h.numbered.keys
    · exact h.numbered.entries
    · exact h.numbered.entryLt
    · exact h.numbered.handleLt
    · exact h.numbered.waitLt
    · exact h.numbered.waitKey
  · intro p hp hlive i
    exact h.idle p (List.mem_of_mem_filter hp) hlive i
  · exact h.streams_frame (le_refl _) fun o n ho => ⟨hsub o n ho, rfl⟩
  · apply h.watched_frame (by rfl) (by rfl) (fun _ => by rfl) (fun _ _ _ => by rfl)
    intro k i fd ho
    refine ⟨hsub _ _ ho, rfl, ?_⟩
    rw [generationOf, findProg, hfind, generationOf]
    rintro rfl
    rw [owned, findProg, hself] at ho
    cases ho

section Spawn

theorem grown_pipe (h : Grown t t' l) (f : File) :
    Grown t (pipe f t').2 ((pipe f t').1.2 :: (pipe f t').1.1 :: l) :=
  (h.add f).add .other

def launchEnds (launch : ChildLaunchContext) : List Nat :=
  [launch.execStatus.2, launch.execStatus.1, launch.gate.2, launch.gate.1] ++
    (launch.stderrPipe.map Prod.snd).toList ++ (launch.stderrPipe.map Prod.fst).toList ++
    (launch.stdoutPipe.map Prod.snd).toList ++ (launch.stdoutPipe.map Prod.fst).toList ++
    launch.ptyMaster.toList

theorem grown_prepare (usePty : Bool) (stream : Nat) (t : Table File) :
    Grown t (ChildLaunchContext.prepare usePty stream t).2
      (launchEnds (ChildLaunchContext.prepare usePty stream t).1) := by
  cases usePty with
  | true => exact grown_pipe (grown_pipe ((Grown.refl t).add _) _) _
  | false => exact grown_pipe (grown_pipe (grown_pipe (grown_pipe (Grown.refl t) _) _) _) _

theorem filter_launchEnds {launch : ChildLaunchContext} (h : (launchEnds launch).Nodup) :
    (launchEnds launch).filter (· ∉ launch.parentEnds ++ launch.handshakeEnds) =
      launch.streamEnds := by
  obtain ⟨out, err, ⟨g₁, g₂⟩, ⟨x₁, x₂⟩, pty⟩ := launch
  rcases out with _ | ⟨o₁, o₂⟩ <;> rcases err with _ | ⟨e₁, e₂⟩ <;> rcases pty with _ | m <;>
    simp [launchEnds, ChildLaunchContext.parentEnds, ChildLaunchContext.handshakeEnds,
      ChildLaunchContext.streamEnds] at h ⊢ <;> grind

theorem ends_subset (launch : ChildLaunchContext) :
    launch.parentEnds ++ launch.handshakeEnds ++ launch.streamEnds ⊆ launchEnds launch := by
  intro n
  simp only [launchEnds, ChildLaunchContext.parentEnds, ChildLaunchContext.handshakeEnds,
    ChildLaunchContext.streamEnds, List.mem_append, List.mem_cons, List.not_mem_nil, or_false]
  tauto

theorem release_pty {launch : ChildLaunchContext} (hm : launch.ptyMaster = some master) :
    launch.releaseParentStreams rpipefd = Function.update rpipefd 0 (some master) := by
  rw [ChildLaunchContext.releaseParentStreams, hm]

theorem release_pipes {launch : ChildLaunchContext} (hm : launch.ptyMaster = none) :
    launch.releaseParentStreams rpipefd =
      ![launch.stdoutPipe.map Prod.fst, launch.stderrPipe.map Prod.fst] := by
  rw [ChildLaunchContext.releaseParentStreams, hm]

theorem release_mem {launch : ChildLaunchContext} (hrp : ∀ i, rpipefd i = none)
    (h : launch.releaseParentStreams rpipefd i = some fd) : fd ∈ launch.streamEnds := by
  rw [ChildLaunchContext.streamEnds]
  cases hm : launch.ptyMaster with
  | some master =>
    rw [release_pty hm] at h
    by_cases hi : i = 0
    · rw [hi, Function.update_self] at h
      simp [Option.some.inj h]
    · rw [Function.update_of_ne hi, hrp] at h
      cases h
  | none =>
    rw [release_pipes hm] at h
    have hi : i = 0 ∨ i = 1 := by omega
    rcases hi with rfl | rfl
    · have ho : launch.stdoutPipe.map Prod.fst = some fd := h
      simp [ho]
    · have he : launch.stderrPipe.map Prod.fst = some fd := h
      simp [he]

theorem release_apart {launch : ChildLaunchContext} (hrp : ∀ i, rpipefd i = none)
    (hn : launch.streamEnds.Nodup) (hi : launch.releaseParentStreams rpipefd i = some fd)
    (hj : launch.releaseParentStreams rpipefd j = some fd) : i = j := by
  rw [ChildLaunchContext.streamEnds] at hn
  cases hm : launch.ptyMaster with
  | some master =>
    have key : ∀ k, launch.releaseParentStreams rpipefd k = some fd → k = 0 := by
      intro k hk
      by_contra hne
      rw [release_pty hm, Function.update_of_ne hne, hrp] at hk
      cases hk
    rw [key i hi, key j hj]
  | none =>
    rw [release_pipes hm] at hi hj
    by_contra hne
    have hboth : launch.stdoutPipe.map Prod.fst = some fd ∧
        launch.stderrPipe.map Prod.fst = some fd := by
      have hij : i = 0 ∧ j = 1 ∨ i = 1 ∧ j = 0 := by omega
      rcases hij with ⟨rfl, rfl⟩ | ⟨rfl, rfl⟩
      · exact ⟨hi, hj⟩
      · exact ⟨hj, hi⟩
    simp [hboth.1, hboth.2] at hn

/-- What a launch leaves in the table: its streams on top of what was open before. -/
theorem grown_started (usePty : Bool) (stream : Nat) (t : Table File) :
    Grown t ((ChildLaunchContext.prepare usePty stream t).2.closeAll
      ((ChildLaunchContext.prepare usePty stream t).1.parentEnds ++
        (ChildLaunchContext.prepare usePty stream t).1.handshakeEnds))
      (ChildLaunchContext.prepare usePty stream t).1.streamEnds := by
  have h := grown_prepare usePty stream t
  have hc := h.closeAll (c := (ChildLaunchContext.prepare usePty stream t).1.parentEnds ++
    (ChildLaunchContext.prepare usePty stream t).1.handshakeEnds) ?_
  · rwa [filter_launchEnds h.nodup] at hc
  · exact fun n hn => ends_subset _ (List.mem_append_left _ hn)

theorem file_pipe (f : File) (t : Table File) : (pipe f t).2.file (pipe f t).1.1 = some f := by
  have hadded : (t.add f).file (pipe f t).1.1 = some f := Table.file_add_free f t
  have hgrown := (Grown.refl (t.add f)).add .other
  exact (hgrown.file_of_open (by rw [hadded]; simp)).trans hadded

/-- What a launch leaves under the numbers of its streams: pipes that were not there before. -/
theorem file_started (usePty : Bool) (stream : Nat) (t : Table File)
    (hn : n ∈ (ChildLaunchContext.prepare usePty stream t).1.streamEnds) :
    ∃ k, stream ≤ k ∧ k < stream + 2 ∧ ((ChildLaunchContext.prepare usePty stream t).2.closeAll
      ((ChildLaunchContext.prepare usePty stream t).1.parentEnds ++
        (ChildLaunchContext.prepare usePty stream t).1.handshakeEnds)).file n =
          some (.stream k) := by
  have hopen := (grown_started usePty stream t).isOpen hn
  rw [Table.file_closeAll] at hopen ⊢
  split at hopen
  · exact absurd rfl hopen
  · rename_i hkept
    rw [if_neg hkept]
    cases usePty with
    | true =>
      have hm : n = t.free := by
        simpa [ChildLaunchContext.prepare, ChildLaunchContext.streamEnds] using hn
      have hadded := Table.file_add_free (.stream stream) t
      have hgrown := grown_pipe (grown_pipe (Grown.refl (t.add (.stream stream))) .other) .other
      rw [hm]
      exact ⟨stream, le_refl _, by omega,
        (hgrown.file_of_open (by rw [hadded]; simp)).trans hadded⟩
    | false =>
      have hm : n = (pipe (.stream (stream + 1)) (pipe (.stream stream) t).2).1.1 ∨
          n = (pipe (.stream stream) t).1.1 := by
        simpa [ChildLaunchContext.prepare, ChildLaunchContext.streamEnds] using hn
      rcases hm with rfl | rfl
      · have hadded := file_pipe (.stream (stream + 1)) (pipe (.stream stream) t).2
        have hgrown := grown_pipe (grown_pipe (Grown.refl (pipe (.stream (stream + 1))
          (pipe (.stream stream) t).2).2) .other) .other
        exact ⟨stream + 1, by omega, by omega,
          (hgrown.file_of_open (by rw [hadded]; simp)).trans hadded⟩
      · have hadded := file_pipe (.stream stream) t
        have hgrown := grown_pipe (grown_pipe (grown_pipe (Grown.refl (pipe (.stream stream) t).2)
          (.stream (stream + 1))) .other) .other
        exact ⟨stream, le_refl _, by omega,
          (hgrown.file_of_open (by rw [hadded]; simp)).trans hadded⟩

theorem sound_failed (h : s.Sound) (hnone : ∀ i, s.owned (.stream id i) = none) (usePty : Bool) :
    (s.realSpawnProg id usePty .failed).Sound := by
  have hu : (s.updateProg id fun p => { p with generation := p.generation + 1 }).Sound :=
    sound_updateProg h (fun _ => by rfl) (fun _ => by rfl) hnone
  refine sound_table hu (fun o n ho => ?_) (Nat.le_add_right _ 2)
  exact ((grown_prepare usePty s.nextStream s.table).closeAll (ends_subset _)).file_of_open
    (hu.held.isOpen ho)

theorem sound_started (h : s.Sound) (hp : s.findProg id = some p) (hlive : p.live = false)
    (usePty : Bool) :
    (s.realSpawnProg id usePty .started).Sound := by
  have hrp := h.idle p (Keyed.mem_of_find hp) hlive
  have hgrown := grown_started usePty s.nextStream s.table
  set launch := (ChildLaunchContext.prepare usePty s.nextStream s.table).1 with hlaunch
  have hfind : ∀ k, (s.realSpawnProg id usePty .started).findProg k = if k = id then
      some { p with live := true, generation := p.generation + 1,
                    rpipefd := launch.releaseParentStreams p.rpipefd } else s.findProg k := by
    intro k
    refine (findProg_updateProg (f := fun p => { p with
      live := true, generation := p.generation + 1,
      rpipefd := launch.releaseParentStreams p.rpipefd }) s id k fun _ => rfl).trans ?_
    rw [hp]
    rfl
  have howned : ∀ k i, (s.realSpawnProg id usePty .started).owned (.stream k i) =
      if k = id then launch.releaseParentStreams p.rpipefd i else s.owned (.stream k i) := by
    intro k i
    rw [owned, hfind]
    split <;> rfl
  have hnew : ∀ i fd, launch.releaseParentStreams p.rpipefd i = some fd → ∃ k, s.nextStream ≤ k ∧
      k < s.nextStream + 2 ∧
      (s.realSpawnProg id usePty .started).table.file fd = some (.stream k) :=
    fun i fd hi => file_started usePty s.nextStream s.table (release_mem hrp hi)
  refine ⟨h.numbered.congr (Keyed.map_key_update fun _ => rfl) rfl rfl rfl rfl rfl, ?_, ?_, ?_, ?_⟩
  · apply h.held.acquire
      (fun o n => ∃ i, o = .stream id i ∧ launch.releaseParentStreams p.rpipefd i = some n)
      fun m hm => hgrown.file_of_open hm
    · intro o n ho
      cases o with
      | handle d => exact .inl ho
      | stream k i =>
        rw [howned] at ho
        split at ho
        · rename_i hk
          exact .inr ⟨i, by rw [hk], ho⟩
        · exact .inl ho
    · rintro o n ⟨i, -, hi⟩
      have hmem := release_mem hrp hi
      exact ⟨hgrown.fresh hmem, hgrown.isOpen hmem⟩
    · rintro o o' n ⟨i, rfl, hi⟩ ⟨j, rfl, hj⟩
      rw [release_apart hrp hgrown.nodup hi hj]
  · intro q hq hlive' i
    obtain ⟨r, hr, rfl⟩ := List.mem_map.1 hq
    by_cases hk : r.id = id
    · rw [if_pos hk] at hlive'
      cases hlive'
    · rw [if_neg hk] at hlive' ⊢
      exact h.idle r hr hlive' i
  · intro o n k ho hf
    have hold : ∀ o', s.owned o' = some n → k < s.nextStream + 2 := fun o' ho' =>
      (h.streams o' n k ho' ((hgrown.file_of_open (h.held.isOpen ho')).symm.trans hf)).trans_le
        (Nat.le_add_right _ 2)
    cases o with
    | handle d => exact hold (.handle d) ho
    | stream m i =>
      rw [howned] at ho
      split at ho
      · obtain ⟨j, -, hlt, hj⟩ := hnew i n ho
        cases hj.symm.trans hf
        exact hlt
      · exact hold _ ho
  · intro k i fd ho g hg d he hdup
    rw [howned] at ho
    by_cases hk : k = id
    · -- A duplicate that was there before is not one of the new pipe.
      rw [if_pos hk] at ho
      obtain ⟨j, hle, -, hj⟩ := hnew i fd ho
      obtain ⟨n, hn, hfile⟩ := hdup
      have hn' : s.owned (.handle d) = some n := hn
      have hlt := h.streams _ n j hn'
        ((hgrown.file_of_open (h.held.isOpen hn')).symm.trans (hfile.trans hj))
      omega
    · rw [if_neg hk] at ho
      have hg' : s.generationOf k = some g := by
        rw [generationOf, hfind, if_neg hk] at hg
        exact hg
      exact h.watched k i fd ho g hg' d he (hdup.frame rfl
        (fun n hn => hgrown.file_of_open (h.held.isOpen hn))
        (hgrown.file_of_open (h.held.isOpen ho)))

end Spawn

end PipeLoop

end PmTiny.Pipes
