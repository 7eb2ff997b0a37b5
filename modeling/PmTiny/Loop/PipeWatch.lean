import PmTiny.Loop.PipeSound

namespace PmTiny.Pipes
open Descriptors
set_option autoImplicit true

namespace PipeLoop

variable {s s' : PipeLoop} {p : ProgPipes} {w : PipeWait} {id : Nat}

section Waits

theorem sound_waits (h : s.Sound) (hsub : W ⊆ s.waits)
    (hkeep : ∀ w ∈ s.waits, s.owned (.stream w.program w.index) = some w.fd →
      s.generationOf w.program = some w.generation → s.hasHandle w.descriptor = true → w ∈ W) :
    ({ s with waits := W } : PipeLoop).Sound := by
  refine ⟨?_, h.held, h.idle, h.streams, ?_⟩
  · constructor
    · exact h.numbered.ids
    · exact h.numbered.idLt
    · exact h.numbered.keys
    · exact h.numbered.entries
    · exact h.numbered.entryLt
    · exact h.numbered.handleLt
    · exact fun w hw => h.numbered.waitLt w (hsub hw)
    · exact fun w hw w' hw' => h.numbered.waitKey w (hsub hw) w' (hsub hw')
  · intro id i fd ho g hg d he hdup
    refine hkeep _ (h.watched id i fd ho g hg d he hdup) ho hg ?_
    obtain ⟨n, hn, -⟩ := hdup
    obtain ⟨k, hk, -⟩ := Option.map_eq_some_iff.1 hn
    rw [hasHandle, hk]
    rfl

end Waits

section CloseDescriptor

theorem owned_handle_eq_none :
    s.owned (.handle d) = none ↔ Keyed.find Handle.descriptor d s.handles = none := by
  rw [owned, Option.map_eq_none_iff]

theorem closeDescriptor_of_none (h : s.owned (.handle d) = none) : s.closeDescriptor d = s := by
  rw [closeDescriptor, owned_handle_eq_none.1 h]

theorem closeDescriptor_of_some (h : s.owned (.handle d) = some n) : s.closeDescriptor d =
    { s with table := s.table.close n, handles := Keyed.remove Handle.descriptor d s.handles } := by
  obtain ⟨k, hk, rfl⟩ := Option.map_eq_some_iff.1 h
  rw [closeDescriptor, hk]

theorem owned_closeDescriptor (s : PipeLoop) (d : Nat) :
    (s.closeDescriptor d).owned = Function.update s.owned (.handle d) none := by
  cases h : s.owned (.handle d) with
  | none => rw [closeDescriptor_of_none h, ← h, Function.update_eq_self]
  | some n =>
    rw [closeDescriptor_of_some h]
    funext o
    cases o with
    | stream id i =>
      rw [Function.update_of_ne (by simp)]
      rfl
    | handle k =>
      by_cases hk : k = d
      · rw [hk, Function.update_self, owned, Keyed.find_remove_self]
        rfl
      · rw [Function.update_of_ne (by simpa using hk), owned, Keyed.find_remove_ne hk]
        rfl

theorem held_closeDescriptor (h : Held s.owned s.table) (d : Nat) :
    Held (s.closeDescriptor d).owned (s.closeDescriptor d).table := by
  cases ho : s.owned (.handle d) with
  | none =>
    rw [closeDescriptor_of_none ho]
    exact h
  | some n =>
    rw [owned_closeDescriptor, closeDescriptor_of_some ho]
    exact h.release ho

theorem file_closeDescriptor (h : Held s.owned s.table) (ho : s.owned o = some n)
    (hne : o ≠ .handle d) : (s.closeDescriptor d).table.file n = s.table.file n := by
  cases hd : s.owned (.handle d) with
  | none => rw [closeDescriptor_of_none hd]
  | some m =>
    rw [closeDescriptor_of_some hd]
    exact h.file_close hd ho hne

theorem closeDescriptor_frame (s : PipeLoop) (d : Nat) :
    (s.closeDescriptor d).progs = s.progs ∧ (s.closeDescriptor d).pipes = s.pipes ∧
      (s.closeDescriptor d).waits = s.waits ∧ (s.closeDescriptor d).nextProg = s.nextProg ∧
      (s.closeDescriptor d).nextDescriptor = s.nextDescriptor ∧
      (s.closeDescriptor d).nextStream = s.nextStream ∧
      (s.closeDescriptor d).handles ⊆ s.handles := by
  cases h : s.owned (.handle d) with
  | none =>
    rw [closeDescriptor_of_none h]
    exact ⟨rfl, rfl, rfl, rfl, rfl, rfl, List.Subset.refl _⟩
  | some n =>
    rw [closeDescriptor_of_some h]
    exact ⟨rfl, rfl, rfl, rfl, rfl, rfl, fun k hk => List.mem_of_mem_filter hk⟩

theorem find_of_sublist (hn : (s.pipes.map PipeEntry.fd).Nodup) (hsub : l ⊆ s.pipes)
    (he : Keyed.find PipeEntry.fd fd l = some e) :
    Keyed.find PipeEntry.fd fd s.pipes = some e := by
  have hk : e.fd = fd := Keyed.key_of_find he
  rw [← hk]
  exact Keyed.find_of_mem hn (hsub (Keyed.mem_of_find he))

theorem sound_drop (h : s.Sound) (hl : l.Sublist s.pipes) (d : Nat) :
    ({ s with pipes := l }.closeDescriptor d : PipeLoop).Sound := by
  obtain ⟨hprogs, hpipes, hwaits, hprog, hnext, hstream, hhandles⟩ :=
    closeDescriptor_frame { s with pipes := l } d
  have howned : ({ s with pipes := l }.closeDescriptor d : PipeLoop).owned =
      Function.update s.owned (.handle d) none := owned_closeDescriptor _ d
  have hfile : ∀ o n, s.owned o = some n → o ≠ .handle d →
      ({ s with pipes := l }.closeDescriptor d : PipeLoop).table.file n = s.table.file n :=
    fun o n ho => file_closeDescriptor (s := { s with pipes := l }) (o := o) h.held ho
  have hold : ∀ o n, ({ s with pipes := l }.closeDescriptor d : PipeLoop).owned o = some n →
      s.owned o = some n ∧ o ≠ .handle d := by
    intro o n ho
    rw [howned] at ho
    by_cases hne : o = .handle d
    · rw [hne, Function.update_self] at ho
      cases ho
    · rw [Function.update_of_ne hne] at ho
      exact ⟨ho, hne⟩
  refine ⟨?_, held_closeDescriptor (s := { s with pipes := l }) h.held d, ?_, ?_, ?_⟩
  · constructor
    · rw [hprogs]
      exact h.numbered.ids
    · rw [hprogs, hprog]
      exact h.numbered.idLt
    · rw [hpipes]
      exact h.numbered.keys.sublist (hl.map _)
    · rw [hpipes]
      exact h.numbered.entries.sublist (hl.map _)
    · rw [hpipes, hnext]
      exact fun k hk => h.numbered.entryLt k ((hl.map _).subset hk)
    · rw [hnext]
      exact fun k hk => h.numbered.handleLt k (List.map_subset _ hhandles hk)
    · rw [hwaits, hnext]
      exact h.numbered.waitLt
    · rw [hwaits]
      exact h.numbered.waitKey
  · rw [hprogs]
    exact h.idle
  · refine h.streams_frame hstream.ge fun o n ho => ?_
    obtain ⟨ho', hne⟩ := hold o n ho
    exact ⟨ho', hfile o n ho' hne⟩
  · intro id i fd ho g hg k he hdup
    obtain ⟨ho', -⟩ := hold _ fd ho
    have hg' : s.generationOf id = some g := by
      rw [generationOf, findProg, hprogs] at hg
      exact hg
    rw [hpipes] at he
    rw [hwaits]
    refine h.watched id i fd ho' g hg' k (find_of_sublist h.numbered.keys hl.subset he) ?_
    -- The descriptor that was closed is a duplicate of nothing.
    obtain ⟨n, hn, hfn⟩ := hdup
    obtain ⟨hn', hne⟩ := hold _ n hn
    rw [hfile _ n hn' hne, hfile _ fd ho' (by simp)] at hfn
    exact ⟨n, hn', hfn⟩

end CloseDescriptor

section PipeReady

theorem readPipe_waits (s : PipeLoop) (W : List PipeWait) (id : Nat) (i : Fin 2)
    (killed empty : Bool) : ({ s with waits := W } : PipeLoop).readPipe id i killed empty =
      { s.readPipe id i killed empty with waits := W } := by
  rw [readPipe, readPipe]
  split
  · cases h : s.owned (.stream id i) with
    | none => rw [closePipe_of_none h, closePipe_of_none (s := { s with waits := W }) h]
    | some fd =>
      rw [closePipe_of_some h, closePipe_of_some (s := { s with waits := W }) h]
      rfl
  · rfl

theorem sound_dropOwn (h : s.Sound)
    (hg : s.generationOf w.program ≠ some w.generation) :
    (pipeReady.dropOwn { s with waits := s.waits.erase w } w).Sound := by
  have h₁ : ({ s with waits := s.waits.erase w } : PipeLoop).Sound := by
    apply sound_waits h List.erase_subset
    intro w' hw' _ hg' _
    apply (List.mem_erase_of_ne _).2 hw'
    rintro rfl
    exact hg hg'
  refine sound_drop h₁ ?_ w.descriptor
  split
  · exact List.filter_sublist
  · exact List.Sublist.refl _

theorem readPipe_frame (s : PipeLoop) (id : Nat) (i : Fin 2) (killed empty : Bool) :
    (s.readPipe id i killed empty).waits = s.waits ∧
      (s.readPipe id i killed empty).generationOf = s.generationOf := by
  rw [readPipe]
  split
  · exact ⟨(closePipe_frame s id i).2.2.1, generationOf_closePipe s id i⟩
  · exact ⟨rfl, rfl⟩

theorem sound_rearm (h : s.Sound) (hw : w ∈ s.waits)
    (hg : s.generationOf w.program = some w.generation) :
    (pipeReady.rearm { s with waits := s.waits.erase w } w).Sound := by
  obtain ⟨q, hq, hqg⟩ := Option.map_eq_some_iff.1 hg
  have hq' : ({ s with waits := s.waits.erase w } : PipeLoop).findProg w.program = some q := hq
  rw [pipeReady.rearm, hq']
  have hid : q.id = w.program := Keyed.key_of_find hq
  by_cases hfd : q.rpipefd w.index = some w.fd
  · simp only [hfd, if_true]
    rw [armPipe, hid, hqg]
    apply sound_waits h
    · exact List.cons_subset.2 ⟨hw, List.erase_subset⟩
    · intro w' hw' _ _ _
      by_cases hne : w' = w
      · rw [hne]
        exact List.mem_cons_self
      · exact List.mem_cons_of_mem _ ((List.mem_erase_of_ne hne).2 hw')
  · simp only [hfd, if_false]
    apply sound_waits h List.erase_subset
    intro w' hw' ho _ _
    apply (List.mem_erase_of_ne _).2 hw'
    rintro rfl
    rw [owned, hq] at ho
    exact hfd ho

theorem sound_pipeReady (h : s.Sound) (hw : w ∈ s.waits)
    (ha : aborted = true → s.hasHandle w.descriptor = false) (empty : Bool) :
    (s.pipeReady w aborted empty).Sound := by
  rw [pipeReady]
  split
  · rename_i hab
    apply sound_waits h List.erase_subset
    intro w' hw' _ _ hh
    apply (List.mem_erase_of_ne _).2 hw'
    rintro rfl
    rw [ha hab] at hh
    cases hh
  · have hfind : ({ s with waits := s.waits.erase w } : PipeLoop).findProg w.program =
        s.findProg w.program := rfl
    rw [hfind]
    cases hp : s.findProg w.program with
    | none =>
      apply sound_dropOwn h
      rw [generationOf, hp]
      simp
    | some p =>
      by_cases hg : p.generation = w.generation
      · simp only [hg, ne_eq, not_true_eq_false, if_false]
        have hgen : s.generationOf w.program = some w.generation := by
          rw [generationOf, hp, ← hg]
          rfl
        by_cases hs : (p.rpipefd w.index).isSome = true
        · obtain ⟨hwaits, hgs⟩ := readPipe_frame s w.program w.index false empty
          rw [if_pos hs, readPipe_waits, ← hwaits]
          apply sound_rearm (sound_readPipe h _ _ _ _)
          · rw [hwaits]
            exact hw
          · rw [hgs]
            exact hgen
        · rw [if_neg hs]
          exact sound_rearm h hw hgen
      · simp only [hg, ne_eq, not_false_eq_true, if_true]
        apply sound_dropOwn h
        rw [generationOf, hp]
        simpa using hg

end PipeReady

section Refresh

theorem owned_watchPipe (hn : s.Numbered) (f : File) (fd : Nat) (waits : List PipeWait) :
    ({ s with
        table := s.table.add f
        handles := s.handles ++ [⟨s.nextDescriptor, s.table.free⟩]
        pipes := s.pipes ++ [⟨fd, s.nextDescriptor⟩]
        nextDescriptor := s.nextDescriptor + 1
        waits := waits } : PipeLoop).owned =
      Function.update s.owned (.handle s.nextDescriptor) (some s.table.free) := by
  have hnew : Keyed.find Handle.descriptor s.nextDescriptor s.handles = none := by
    apply Keyed.find_eq_none.2
    intro k hk he
    exact absurd (hn.handleLt _ (List.mem_map_of_mem hk)) (by omega)
  funext o
  cases o with
  | stream id i =>
    rw [Function.update_of_ne (by simp)]
    rfl
  | handle d =>
    rw [owned, Keyed.find_append_singleton hnew]
    by_cases hd : s.nextDescriptor = d
    · rw [if_pos hd, ← hd, Function.update_self]
      rfl
    · rw [if_neg hd, Function.update_of_ne (by simpa using Ne.symm hd)]
      rfl

theorem numbered_watchPipe (h : s.Numbered) (he : Keyed.find PipeEntry.fd fd s.pipes = none)
    (t : Table File) (n id g : Nat) (i : Fin 2) :
    ({ s with
        table := t
        handles := s.handles ++ [⟨s.nextDescriptor, n⟩]
        pipes := s.pipes ++ [⟨fd, s.nextDescriptor⟩]
        nextDescriptor := s.nextDescriptor + 1
        waits := ⟨id, i, fd, g, s.nextDescriptor⟩ :: s.waits } : PipeLoop).Numbered := by
  constructor
  · exact h.ids
  · exact h.idLt
  · rw [List.map_append, List.nodup_append]
    refine ⟨h.keys, by simp, ?_⟩
    rintro k hk m hm rfl
    obtain ⟨e, hmem, hek⟩ := List.mem_map.1 hk
    have hm : k = fd := by simpa using hm
    exact Keyed.find_eq_none.1 he e hmem (hek.trans hm)
  · rw [List.map_append, List.nodup_append]
    refine ⟨h.entries, by simp, ?_⟩
    rintro k hk m hm rfl
    have hlt := h.entryLt k hk
    simp at hm
    omega
  · intro d hd
    rw [List.map_append, List.mem_append] at hd
    rcases hd with hd | hd
    · exact Nat.lt_succ_of_lt (h.entryLt d hd)
    · simp at hd
      simp [hd]
  · intro d hd
    rw [List.map_append, List.mem_append] at hd
    rcases hd with hd | hd
    · exact Nat.lt_succ_of_lt (h.handleLt d hd)
    · simp at hd
      simp [hd]
  · intro w hw
    rcases List.mem_cons.1 hw with rfl | hw
    · exact Nat.lt_succ_self _
    · exact Nat.lt_succ_of_lt (h.waitLt w hw)
  · intro w hw w' hw' hd
    rcases List.mem_cons.1 hw with rfl | hw <;> rcases List.mem_cons.1 hw' with rfl | hw'
    · rfl
    · have hlt := h.waitLt w' hw'
      simp only at hd
      omega
    · have hlt := h.waitLt w hw
      simp only at hd
      omega
    · exact h.waitKey w hw w' hw' hd

/-- A pipe gets an entry, with a duplicate of its own and a wait. -/
def addWatch (s : PipeLoop) (p : ProgPipes) (i : Fin 2) (fd : Nat) (f : File) : PipeLoop :=
  armPipe { s with
    table := s.table.add f
    handles := s.handles ++ [⟨s.nextDescriptor, s.table.free⟩]
    pipes := s.pipes ++ [⟨fd, s.nextDescriptor⟩]
    nextDescriptor := s.nextDescriptor + 1 } p i fd s.nextDescriptor

/-- What one turn of the first loop does: nothing, or it adds the watch of a pipe without an
entry. -/
theorem watchPipe_cases (dupFails : Nat → Bool) (s : PipeLoop) (p : ProgPipes) (i : Fin 2) :
    (watchPipe dupFails s p i = s ∧ ∀ fd, p.rpipefd i = some fd →
      Keyed.find PipeEntry.fd fd s.pipes = none → s.table.file fd = none ∨ dupFails fd = true) ∨
    ∃ fd f, p.rpipefd i = some fd ∧ Keyed.find PipeEntry.fd fd s.pipes = none ∧
      s.table.file fd = some f ∧ dupFails fd = false ∧
      watchPipe dupFails s p i = s.addWatch p i fd f := by
  rw [watchPipe]
  cases hfd : p.rpipefd i with
  | none => exact .inl ⟨rfl, fun fd h => by cases h⟩
  | some fd =>
    simp only [Option.some.injEq]
    cases he : Keyed.find PipeEntry.fd fd s.pipes with
    | some e =>
      refine .inl ⟨rfl, ?_⟩
      rintro _ rfl hnone
      cases he.symm.trans hnone
    | none =>
      cases hf : s.table.file fd with
      | none =>
        refine .inl ⟨rfl, ?_⟩
        rintro _ rfl -
        exact .inl hf
      | some f =>
        cases hd : dupFails fd with
        | true =>
          refine .inl ⟨rfl, ?_⟩
          rintro _ rfl -
          exact .inr hd
        | false => exact .inr ⟨fd, f, rfl, he, hf, hd, rfl⟩

theorem sound_addWatch (h : s.Sound) (hp : s.findProg p.id = some p)
    (hfd : p.rpipefd i = some fd) (he : Keyed.find PipeEntry.fd fd s.pipes = none)
    (hf : s.table.file fd = some f) : (s.addWatch p i fd f).Sound := by
  rw [addWatch]
  rw [armPipe]
  have howned := owned_watchPipe h.numbered f fd
    (⟨p.id, i, fd, p.generation, s.nextDescriptor⟩ :: s.waits)
  have hstream : ∀ k j, Function.update s.owned (.handle s.nextDescriptor) (some s.table.free)
      (.stream k j) = s.owned (.stream k j) := fun k j => Function.update_of_ne (by simp) _ _
  have ho := owned_stream_of_find hp hfd
  refine ⟨numbered_watchPipe h.numbered he _ _ _ _ _, ?_, h.idle, ?_, ?_⟩
  · rw [howned]
    apply h.held.acquire (fun o n => o = .handle s.nextDescriptor ∧ n = s.table.free)
    · intro m hm
      rw [Table.file_add, if_neg]
      rintro rfl
      exact hm s.table.file_free
    · intro o n ho
      by_cases hne : o = .handle s.nextDescriptor
      · rw [hne, Function.update_self] at ho
        exact .inr ⟨hne, (Option.some.inj ho).symm⟩
      · rw [Function.update_of_ne hne] at ho
        exact .inl ho
    · rintro o n ⟨-, rfl⟩
      refine ⟨s.table.file_free, ?_⟩
      rw [Table.file_add_free]
      simp
    · rintro o o' n ⟨rfl, -⟩ ⟨rfl, -⟩
      rfl
  · intro o n k ho' hfile
    rw [howned] at ho'
    by_cases hne : o = .handle s.nextDescriptor
    · rw [hne, Function.update_self] at ho'
      cases ho'
      have hk : some f = some (.stream k) := (Table.file_add_free f s.table).symm.trans hfile
      exact h.streams _ fd k ho (hf.trans hk)
    · rw [Function.update_of_ne hne] at ho'
      exact h.streams o n k ho' ((h.held.file_add ho').symm.trans hfile)
  · intro k j fd' ho' g hg d he' hdup
    rw [howned, hstream] at ho'
    have hg' : s.generationOf k = some g := hg
    rw [Keyed.find_append_singleton he] at he'
    by_cases hk : fd = fd'
    · subst hk
      obtain ⟨rfl, rfl⟩ : k = p.id ∧ j = i := by simpa using h.held.apart ho' ho
      have hgp : p.generation = g := by simpa [generationOf, hp] using hg'
      rw [if_pos rfl] at he'
      cases he'
      rw [hgp]
      exact List.mem_cons_self
    · rw [if_neg hk] at he'
      have hlt := h.numbered.entryLt d (List.mem_map_of_mem (Keyed.mem_of_find he'))
      refine List.mem_cons_of_mem _ (h.watched k j fd' ho' g hg' d he' (hdup.frame ?_ ?_ ?_))
      · rw [howned, Function.update_of_ne (by simp; omega)]
      · exact fun n hn => h.held.file_add hn
      · exact h.held.file_add ho'

theorem sound_watchPipe (h : s.Sound) (hp : s.findProg p.id = some p) (dupFails : Nat → Bool)
    (i : Fin 2) : (watchPipe dupFails s p i).Sound := by
  obtain ⟨he, -⟩ | ⟨fd, f, hfd, he, hf, -, heq⟩ := watchPipe_cases dupFails s p i
  · rw [he]
    exact h
  · rw [heq]
    exact sound_addWatch h hp hfd he hf

theorem progs_watchPipe (dupFails : Nat → Bool) (s : PipeLoop) (p : ProgPipes) (i : Fin 2) :
    (watchPipe dupFails s p i).progs = s.progs := by
  obtain ⟨he, -⟩ | ⟨fd, f, -, -, -, -, heq⟩ := watchPipe_cases dupFails s p i
  · rw [he]
  · rw [heq]
    rfl

/-- A number keeps its entry, and the entry stays a duplicate of the number or none. -/
def Carries (fd : Nat) (s s' : PipeLoop) : Prop :=
  ∀ d, Keyed.find PipeEntry.fd fd s.pipes = some ⟨fd, d⟩ →
    Keyed.find PipeEntry.fd fd s'.pipes = some ⟨fd, d⟩ ∧ (s'.Duplicates d fd ↔ s.Duplicates d fd)

theorem Carries.refl (fd : Nat) (s : PipeLoop) : Carries fd s s := fun _ he => ⟨he, Iff.rfl⟩

theorem Carries.trans (h : Carries fd a b) (h' : Carries fd b c) : Carries fd a c := by
  intro d he
  obtain ⟨hb, hdup⟩ := h d he
  obtain ⟨hc, hdup'⟩ := h' d hb
  exact ⟨hc, hdup'.trans hdup⟩

/-- The number has an entry, and the entry is a duplicate of it. -/
def Tracked (s : PipeLoop) (fd : Nat) : Prop :=
  ∃ d, Keyed.find PipeEntry.fd fd s.pipes = some ⟨fd, d⟩ ∧ s.Duplicates d fd

theorem Tracked.carry (h : s.Tracked fd) (hc : Carries fd s s') : s'.Tracked fd := by
  obtain ⟨d, he, hdup⟩ := h
  obtain ⟨he', hiff⟩ := hc d he
  exact ⟨d, he', hiff.2 hdup⟩

section AddWatch

variable (h : s.Sound) (f : File) (p : ProgPipes) (i : Fin 2) (key : Nat)
include h

theorem owned_addWatch : (s.addWatch p i key f).owned =
    Function.update s.owned (.handle s.nextDescriptor) (some s.table.free) :=
  owned_watchPipe h.numbered f key (⟨p.id, i, key, p.generation, s.nextDescriptor⟩ :: s.waits)

theorem file_addWatch (ho : s.owned o = some n) :
    (s.addWatch p i key f).table.file n = s.table.file n := h.held.file_add ho

theorem carries_addWatch (ho : s.owned o = some fd) : Carries fd s (s.addWatch p i key f) := by
  intro d he
  have hlt := h.numbered.entryLt d (List.mem_map_of_mem (Keyed.mem_of_find he))
  have hd : (s.addWatch p i key f).owned (.handle d) = s.owned (.handle d) := by
    rw [owned_addWatch h, Function.update_of_ne (by simp; omega)]
  refine ⟨?_, fun hdup => hdup.frame hd (fun n => file_addWatch h f p i key)
    (file_addWatch h f p i key ho), ?_⟩
  · show Keyed.find PipeEntry.fd fd (s.pipes ++ [⟨key, s.nextDescriptor⟩]) = some ⟨fd, d⟩
    rw [Keyed.find_append, he]
    rfl
  · rintro ⟨n, hn, hfn⟩
    refine ⟨n, hd.trans hn, ?_⟩
    rw [file_addWatch h f p i key hn, file_addWatch h f p i key ho, hfn]

theorem tracked_addWatch (ho : s.owned o = some key)
    (he : Keyed.find PipeEntry.fd key s.pipes = none) (hf : s.table.file key = some f) :
    (s.addWatch p i key f).Tracked key := by
  refine ⟨s.nextDescriptor, ?_, s.table.free, ?_, ?_⟩
  · show Keyed.find PipeEntry.fd key (s.pipes ++ [⟨key, s.nextDescriptor⟩]) = _
    rw [Keyed.find_append_singleton he, if_pos rfl]
  · rw [owned_addWatch h, Function.update_self]
  · rw [file_addWatch h f p i key ho, hf]
    exact Table.file_add_free f s.table

end AddWatch

theorem find_addWatch (hne : key ≠ fd) (he : Keyed.find PipeEntry.fd fd s.pipes = none)
    (f : File) (p : ProgPipes) (i : Fin 2) :
    Keyed.find PipeEntry.fd fd (s.addWatch p i key f).pipes = none := by
  show Keyed.find PipeEntry.fd fd (s.pipes ++ [⟨key, s.nextDescriptor⟩]) = none
  rw [Keyed.find_append, he, if_neg hne]
  rfl

def Vacant (s : PipeLoop) (fd : Nat) : Prop :=
  Keyed.find PipeEntry.fd fd s.pipes = none ∨ s.Tracked fd

/-- What turns of the first loop do to a number; `fails` says whether `dup` fails on it. -/
structure Turns (fails : Bool) (fd : Nat) (s s' : PipeLoop) : Prop where
  carries : Carries fd s s'
  missed : fails = true → Keyed.find PipeEntry.fd fd s.pipes = none →
    Keyed.find PipeEntry.fd fd s'.pipes = none
  vacant : fails = false → s.Vacant fd → s'.Vacant fd

theorem Turns.trans (h : Turns fails fd a b) (h' : Turns fails fd b c) : Turns fails fd a c where
  carries := h.carries.trans h'.carries
  missed := fun hf hn => h'.missed hf (h.missed hf hn)
  vacant := fun hf hv => h'.vacant hf (h.vacant hf hv)

theorem turns_watchPipe (h : s.Sound) (hp : s.findProg p.id = some p)
    (ho : s.owned o = some fd) (dupFails : Nat → Bool) (i : Fin 2) :
    Turns (dupFails fd) fd s (watchPipe dupFails s p i) ∧
      (p.rpipefd i = some fd → dupFails fd = false → s.Vacant fd →
        (watchPipe dupFails s p i).Tracked fd) := by
  obtain ⟨he, hmiss⟩ | ⟨key, f, hfd, he, hf, hd, heq⟩ := watchPipe_cases dupFails s p i
  · rw [he]
    refine ⟨⟨.refl fd s, fun _ hn => hn, fun _ hv => hv⟩, fun hi hd hv => ?_⟩
    refine hv.resolve_left fun hnone => ?_
    rcases hmiss fd hi hnone with hclosed | hfails
    · exact h.held.isOpen ho hclosed
    · rw [hd] at hfails
      cases hfails
  · rw [heq]
    have hcarries := carries_addWatch h f p i key ho
    by_cases hk : key = fd
    · subst hk
      have htracked := tracked_addWatch h f p i key (owned_stream_of_find hp hfd) he hf
      refine ⟨⟨hcarries, fun hfails _ => ?_, fun _ _ => .inr htracked⟩, fun _ _ _ => htracked⟩
      rw [hd] at hfails
      cases hfails
    · refine ⟨⟨hcarries, fun _ hn => find_addWatch hk hn f p i, fun _ hv => ?_⟩, fun hi => ?_⟩
      · exact hv.imp (fun hn => find_addWatch hk hn f p i) fun ht => ht.carry hcarries
      · exact absurd (Option.some.inj (hfd.symm.trans hi)) hk

theorem findProg_congr (h : s'.progs = s.progs) (id : Nat) : s'.findProg id = s.findProg id := by
  rw [findProg, h, findProg]

/-- The turns of the first loop, one for each index of each program. -/
def turns (l : List ProgPipes) : List (ProgPipes × Fin 2) :=
  l.flatMap fun p => (List.finRange 2).map (Prod.mk p)

theorem mem_turns {l : List ProgPipes} (hp : p ∈ l) (i : Fin 2) : (p, i) ∈ turns l :=
  List.mem_flatMap.2 ⟨p, hp, List.mem_map_of_mem (List.mem_finRange i)⟩

theorem watchProgs_eq (dupFails : Nat → Bool) (l : List ProgPipes) (s : PipeLoop) :
    l.foldl (watchProg dupFails) s =
      (turns l).foldl (fun s turn => watchPipe dupFails s turn.1 turn.2) s := by
  induction l generalizing s with
  | nil => rfl
  | cons p l ih => exact ih (watchProg dupFails s p)

theorem mem_of_turns {l : List ProgPipes} {turn : ProgPipes × Fin 2} (ht : turn ∈ turns l) :
    turn.1 ∈ l := by
  obtain ⟨p, hp, hturn⟩ := List.mem_flatMap.1 ht
  obtain ⟨i, -, rfl⟩ := List.mem_map.1 hturn
  exact hp

theorem sound_turns (l : List (ProgPipes × Fin 2)) (h : s.Sound)
    (hl : ∀ turn ∈ l, s.findProg turn.1.id = some turn.1) (dupFails : Nat → Bool) :
    (l.foldl (fun s turn => watchPipe dupFails s turn.1 turn.2) s).Sound ∧
      (l.foldl (fun s turn => watchPipe dupFails s turn.1 turn.2) s).progs = s.progs := by
  induction l generalizing s with
  | nil => exact ⟨h, rfl⟩
  | cons turn l ih =>
    have hprogs := progs_watchPipe dupFails s turn.1 turn.2
    have hturn := sound_watchPipe h (hl turn List.mem_cons_self) dupFails turn.2
    obtain ⟨hs, hprogs'⟩ := ih (s := watchPipe dupFails s turn.1 turn.2) hturn fun t ht => by
      rw [findProg_congr hprogs]
      exact hl t (List.mem_cons_of_mem _ ht)
    exact ⟨hs, hprogs'.trans hprogs⟩

theorem turns_fold (l : List (ProgPipes × Fin 2)) (h : s.Sound)
    (hl : ∀ turn ∈ l, s.findProg turn.1.id = some turn.1) (dupFails : Nat → Bool)
    (ho : s.owned (.stream k j) = some fd) :
    Turns (dupFails fd) fd s (l.foldl (fun s turn => watchPipe dupFails s turn.1 turn.2) s) ∧
      ∀ turn ∈ l, turn.1.rpipefd turn.2 = some fd → dupFails fd = false → s.Vacant fd →
        (l.foldl (fun s turn => watchPipe dupFails s turn.1 turn.2) s).Tracked fd := by
  induction l generalizing s with
  | nil => exact ⟨⟨.refl fd s, fun _ hn => hn, fun _ hv => hv⟩, by simp⟩
  | cons turn l ih =>
    have hprogs := progs_watchPipe dupFails s turn.1 turn.2
    have hp := hl turn List.mem_cons_self
    obtain ⟨hone, htracked⟩ := turns_watchPipe h hp ho dupFails turn.2
    have ho' : (watchPipe dupFails s turn.1 turn.2).owned (.stream k j) = some fd := by
      rw [owned, findProg_congr hprogs]
      exact ho
    obtain ⟨hrest, hall⟩ := ih (s := watchPipe dupFails s turn.1 turn.2)
      (sound_watchPipe h hp dupFails turn.2) (fun t ht => by
        rw [findProg_congr hprogs]
        exact hl t (List.mem_cons_of_mem _ ht)) ho'
    refine ⟨hone.trans hrest, fun t ht hfd hd hv => ?_⟩
    rcases List.mem_cons.1 ht with rfl | ht
    · exact (htracked hfd hd hv).carry hrest.carries
    · exact hall t ht hfd hd (hone.vacant hd hv)

theorem sound_dropPipe (h : s.Sound) (e : PipeEntry) : (s.dropPipe e).Sound := by
  rw [dropPipe]
  split
  · exact h
  · have hl : (Keyed.remove PipeEntry.fd e.fd s.pipes).Sublist s.pipes := List.filter_sublist
    exact sound_drop h hl e.descriptor

theorem progs_dropPipe (s : PipeLoop) (e : PipeEntry) : (s.dropPipe e).progs = s.progs := by
  rw [dropPipe]
  split
  · rfl
  · exact (closeDescriptor_frame _ e.descriptor).1

theorem isActive_of_mem (hp : p ∈ s.progs) (hfd : p.rpipefd i = some fd) :
    s.isActive fd = true := by
  apply List.any_eq_true.2 ⟨p, hp, ?_⟩
  have hi : i = 0 ∨ i = 1 := by omega
  rcases hi with rfl | rfl <;> simp [hfd]

theorem isActive_of_owned (ho : s.owned (.stream id i) = some fd) : s.isActive fd = true := by
  obtain ⟨p, hp, hfd⟩ := Option.bind_eq_some_iff.1 ho
  exact isActive_of_mem (Keyed.mem_of_find hp) hfd

theorem findProg_of_mem (h : s.Numbered) (hp : p ∈ s.progs) : s.findProg p.id = some p :=
  Keyed.find_of_mem h.ids hp

theorem dropPipe_carries (h : s.Sound) (he : e ∈ s.pipes) (ho : s.owned (.stream k j) = some fd) :
    Carries fd s (s.dropPipe e) ∧ (Keyed.find PipeEntry.fd fd s.pipes = none →
      Keyed.find PipeEntry.fd fd (s.dropPipe e).pipes = none) := by
  rw [dropPipe]
  split
  · exact ⟨.refl fd s, id⟩
  · rename_i hidle
    have hne : fd ≠ e.fd := by
      rintro rfl
      exact hidle (isActive_of_owned ho)
    have hpipes : Keyed.find PipeEntry.fd fd ({ s with
        pipes := Keyed.remove PipeEntry.fd e.fd s.pipes }.closeDescriptor e.descriptor).pipes =
        Keyed.find PipeEntry.fd fd s.pipes := by
      rw [(closeDescriptor_frame _ e.descriptor).2.1, Keyed.find_remove_ne hne]
    have hfile : ∀ o n, s.owned o = some n → o ≠ .handle e.descriptor →
        ({ s with pipes := Keyed.remove PipeEntry.fd e.fd s.pipes }.closeDescriptor
          e.descriptor).table.file n = s.table.file n := fun o n ho =>
      file_closeDescriptor (s := { s with pipes := Keyed.remove PipeEntry.fd e.fd s.pipes })
        (o := o) h.held ho
    rw [Carries, hpipes]
    refine ⟨fun d hd => ⟨hd, ?_⟩, id⟩
    have hother : Owner.handle d ≠ .handle e.descriptor := by
      intro heq
      have hentry := List.inj_on_of_nodup_map h.numbered.entries (Keyed.mem_of_find hd) he
        (Owner.handle.inj heq)
      exact hne (congrArg PipeEntry.fd hentry)
    have howned : ({ s with pipes := Keyed.remove PipeEntry.fd e.fd s.pipes }.closeDescriptor
        e.descriptor).owned (.handle d) = s.owned (.handle d) := by
      rw [owned_closeDescriptor, Function.update_of_ne hother]
      rfl
    refine ⟨fun hdup => hdup.frame howned (fun n hn => hfile _ n hn hother)
      (hfile _ fd ho (by simp)), ?_⟩
    rintro ⟨n, hn, hfn⟩
    exact ⟨n, howned.trans hn, by rw [hfile _ n hn hother, hfile _ fd ho (by simp), hfn]⟩

theorem sound_dropPipes (l : List PipeEntry) (h : s.Sound) (hl : l ⊆ s.pipes)
    (hn : (l.map PipeEntry.fd).Nodup) : (l.foldl dropPipe s).Sound ∧
      (l.foldl dropPipe s).progs = s.progs ∧
      ∀ k j fd, s.owned (.stream k j) = some fd → Carries fd s (l.foldl dropPipe s) ∧
        (Keyed.find PipeEntry.fd fd s.pipes = none →
          Keyed.find PipeEntry.fd fd (l.foldl dropPipe s).pipes = none) := by
  induction l generalizing s with
  | nil => exact ⟨h, rfl, fun _ _ fd _ => ⟨.refl fd s, id⟩⟩
  | cons e l ih =>
    obtain ⟨hne, hn⟩ := List.nodup_cons.1 hn
    have hprogs := progs_dropPipe s e
    have hrest : l ⊆ (s.dropPipe e).pipes := by
      intro e' he'
      have hmem := hl (List.mem_cons_of_mem _ he')
      rw [dropPipe]
      split
      · exact hmem
      · rw [(closeDescriptor_frame _ e.descriptor).2.1]
        refine List.mem_filter.2 ⟨hmem, ?_⟩
        have hkey : e'.fd ≠ e.fd := fun heq => hne (heq ▸ List.mem_map_of_mem he')
        simpa using hkey
    obtain ⟨hs, hprogs', hkeep⟩ := ih (sound_dropPipe h e) hrest hn
    refine ⟨hs, hprogs'.trans hprogs, fun k j fd ho => ?_⟩
    obtain ⟨hcarries, hnone⟩ := dropPipe_carries h (hl List.mem_cons_self) ho
    have ho' : (s.dropPipe e).owned (.stream k j) = some fd := by
      rw [owned, findProg_congr hprogs]
      exact ho
    obtain ⟨hcarries', hnone'⟩ := hkeep k j fd ho'
    exact ⟨hcarries.trans hcarries', fun hfd => hnone' (hnone hfd)⟩

theorem refreshPipes_turns (h : s.Sound) (dupFails : Nat → Bool) :
    (s.refreshPipes dupFails).Sound ∧ (s.refreshPipes dupFails).progs = s.progs ∧
      ∀ p ∈ s.progs, ∀ i fd, p.rpipefd i = some fd →
        Turns (dupFails fd) fd s (s.refreshPipes dupFails) ∧
          (dupFails fd = false → s.Vacant fd → (s.refreshPipes dupFails).Tracked fd) := by
  have hturns : ∀ turn ∈ turns s.progs, s.findProg turn.1.id = some turn.1 := fun turn ht =>
    findProg_of_mem h.numbered (mem_of_turns ht)
  obtain ⟨h₁, hprogs₁⟩ := sound_turns (turns s.progs) h hturns dupFails
  rw [← watchProgs_eq] at h₁ hprogs₁
  obtain ⟨h₂, hprogs₂, hkeep⟩ := sound_dropPipes _ h₁ (List.Subset.refl _) h₁.numbered.keys
  refine ⟨h₂, hprogs₂.trans hprogs₁, fun p hp i fd hfd => ?_⟩
  have ho := owned_stream_of_find (findProg_of_mem h.numbered hp) hfd
  have ho₁ : (s.progs.foldl (watchProg dupFails) s).owned (.stream p.id i) = some fd := by
    rw [owned, findProg_congr hprogs₁]
    exact ho
  obtain ⟨hfold, htracked⟩ := turns_fold (turns s.progs) h hturns dupFails ho
  rw [← watchProgs_eq] at hfold htracked
  obtain ⟨hcarries, hnone⟩ := hkeep _ _ fd ho₁
  refine ⟨hfold.trans ⟨hcarries, fun _ hn => hnone hn, fun _ hv => ?_⟩, fun hd hv => ?_⟩
  · exact hv.imp hnone fun ht => ht.carry hcarries
  · exact (htracked _ (mem_turns hp i) hfd hd hv).carry hcarries

theorem sound_refreshPipes (h : s.Sound) (dupFails : Nat → Bool) :
    (s.refreshPipes dupFails).Sound := (refreshPipes_turns h dupFails).1

/-- An entry that an earlier pipe has left under the number: its descriptor is closed, or a
duplicate of another pipe than the one that has the number. -/
def Leftover (s : PipeLoop) (fd : Nat) : Prop :=
  ∃ d, Keyed.find PipeEntry.fd fd s.pipes = some ⟨fd, d⟩ ∧ ¬s.Duplicates d fd

theorem vacant_or_leftover (s : PipeLoop) (fd : Nat) : s.Vacant fd ∨ s.Leftover fd := by
  cases he : Keyed.find PipeEntry.fd fd s.pipes with
  | none => exact .inl (.inl he)
  | some e =>
    obtain ⟨key, d⟩ := e
    have hkey : key = fd := Keyed.key_of_find he
    subst hkey
    by_cases hdup : s.Duplicates d key
    · exact .inl (.inr ⟨d, he, hdup⟩)
    · exact .inr ⟨d, he, hdup⟩

theorem watched_iff_tracked (h : s.Sound) (hp : p ∈ s.progs) (hfd : p.rpipefd i = some fd) :
    s.Watched p.id p.generation i fd ↔ s.Tracked fd := by
  have hfind := findProg_of_mem h.numbered hp
  have ho := owned_stream_of_find hfind hfd
  constructor
  · intro hw
    obtain ⟨d, n, f, he, hd, hf, hn, -⟩ := watched_iff.1 hw
    exact ⟨d, he, n, hd, hn.trans hf.symm⟩
  · rintro ⟨d, he, n, hd, hfn⟩
    obtain ⟨f, hf⟩ := Option.ne_none_iff_exists'.1 (h.held.isOpen ho)
    refine watched_iff.2 ⟨d, n, f, he, hd, hf, hfn.trans hf, ?_⟩
    refine h.watched p.id i fd ho p.generation ?_ d he ⟨n, hd, hfn⟩
    rw [generationOf, hfind]
    rfl

theorem tracked_refreshPipes_iff (h : s.Sound) (dupFails : Nat → Bool) (hp : p ∈ s.progs)
    (hfd : p.rpipefd i = some fd) : (s.refreshPipes dupFails).Tracked fd ↔
      ¬s.Leftover fd ∧ (Keyed.find PipeEntry.fd fd s.pipes = none → dupFails fd = false) := by
  obtain ⟨hturns, htracked⟩ := (refreshPipes_turns h dupFails).2.2 p hp i fd hfd
  constructor
  · rintro ⟨d, he, hdup⟩
    refine ⟨?_, fun hnone => ?_⟩
    · rintro ⟨d', he', hstale⟩
      obtain ⟨hkept, hiff⟩ := hturns.carries d' he'
      cases he.symm.trans hkept
      exact hstale (hiff.1 hdup)
    · by_contra hfails
      rw [hturns.missed (by simpa using hfails) hnone] at he
      cases he
  · rintro ⟨hleft, hdups⟩
    rcases (vacant_or_leftover s fd).resolve_right hleft with hnone | ht
    · exact htracked (hdups hnone) (.inl hnone)
    · exact ht.carry hturns.carries

end Refresh

theorem ne_of_foreign (hf : s.foreign fd = true) (ho : s.owned o = some n) : n ≠ fd := by
  rw [foreign, Bool.and_eq_true] at hf
  rintro rfl
  cases o with
  | stream id i =>
    obtain ⟨p, hp, hfd⟩ := Option.bind_eq_some_iff.1 ho
    have hact := isActive_of_mem (Keyed.mem_of_find hp) hfd
    simp [hact] at hf
  | handle d =>
    obtain ⟨k, hk, rfl⟩ := Option.map_eq_some_iff.1 ho
    have hne := List.all_eq_true.1 hf.2 k (Keyed.mem_of_find hk)
    simp at hne

theorem sound_step (h : s.Sound) (hs : s.step e = some s') : s'.Sound := by
  cases e with
  | create =>
    cases hs
    exact sound_create h
  | remove id =>
    cases hs
    exact sound_remove h id
  | spawn id usePty launch =>
    rw [step] at hs
    cases hp : s.findProg id with
    | none =>
      rw [hp] at hs
      cases hs
    | some p =>
      rw [hp] at hs
      by_cases hl : p.live = true
      · simp [hl] at hs
      · simp only [hl] at hs
        cases hs
        have hlive : p.live = false := by simpa using hl
        cases launch with
        | refused => exact h
        | failed =>
          apply sound_failed h
          intro i
          rw [owned, hp]
          exact h.idle p (Keyed.mem_of_find hp) hlive i
        | started => exact sound_started h hp hlive usePty
  | closeFds id =>
    cases hs
    exact sound_closeFds h id
  | pipeReady w aborted empty =>
    rw [step] at hs
    split at hs
    · rename_i hw
      cases hs
      exact sound_pipeReady h hw.1 hw.2 empty
    · cases hs
  | refreshPipes dupFails =>
    cases hs
    exact sound_refreshPipes h dupFails
  | openOther =>
    cases hs
    exact sound_table h (fun o n ho => h.held.file_add ho) (le_refl _)
  | closeOther fd =>
    rw [step] at hs
    split at hs
    · rename_i hf
      cases hs
      exact sound_table h (fun o n ho => Table.file_close_ne (ne_of_foreign hf ho)) (le_refl _)
    · cases hs

theorem sound_init (table : Table File) : ({ table := table } : PipeLoop).Sound := by
  have hnone : ∀ o, ({ table := table } : PipeLoop).owned o = none := by
    intro o
    cases o <;> simp [owned, findProg, Keyed.find]
  refine ⟨⟨by simp, by simp, by simp, by simp, by simp, by simp, by simp, by simp⟩, ?_, by simp,
    ?_, ?_⟩
  · refine ⟨fun ho => ?_, fun ho => ?_⟩ <;> cases (hnone _).symm.trans ho
  · intro o n k ho
    cases (hnone o).symm.trans ho
  · intro id i fd ho
    cases (hnone _).symm.trans ho

theorem Reachable.sound (h : Reachable s) : s.Sound := by
  induction h with
  | init table => exact sound_init table
  | step _ hs ih => exact sound_step ih hs

/-- Directly after a refresh every output pipe of every registered program is being watched, exactly
when no earlier pipe has left an entry under the number of one of them, and `dup` does not fail on
those without an entry. -/
theorem all_watched_after_refresh_iff (h : Reachable s) (dupFails : Nat → Bool) :
    (s.refreshPipes dupFails).AllWatched ↔ ∀ p ∈ s.progs, ∀ i, ∀ fd ∈ p.rpipefd i,
      ¬s.Leftover fd ∧ (Keyed.find PipeEntry.fd fd s.pipes = none → dupFails fd = false) := by
  obtain ⟨hsound, hprogs, -⟩ := refreshPipes_turns h.sound dupFails
  rw [AllWatched, hprogs]
  refine forall₂_congr fun p hp => forall_congr' fun i => forall₂_congr fun fd hfd => ?_
  rw [watched_iff_tracked hsound (hprogs ▸ hp) hfd,
    tracked_refreshPipes_iff h.sound dupFails hp hfd]

theorem Reachable.run (h : Reachable s) (hr : s.run es = some s') : Reachable s' := by
  induction es generalizing s with
  | nil =>
    cases hr
    exact h
  | cons e es ih =>
    obtain ⟨s₁, hs, hr⟩ := Option.bind_eq_some_iff.1 hr
    exact ih (h.step hs) hr

theorem Reachable.of_run (hr : ({ table := List.replicate 4 (some .other) } : PipeLoop).run es =
    some s) : Reachable s := (Reachable.init _).run hr

/-- A program is restarted before the next refresh and gets the number of its first output again;
the waits on the old pipes run in between. -/
def restartInTick : List Event :=
  [.create, .spawn 0 false .started, .refreshPipes fun _ => false, .closeFds 0,
    .spawn 0 false .started, .pipeReady ⟨0, ⟨0, Nat.two_pos⟩, 4, 1, 0⟩ false true,
    .pipeReady ⟨0, ⟨1, Nat.one_lt_two⟩, 6, 1, 1⟩ false true]

theorem all_watched_after_refresh_iff_restarted : ∃ s, Reachable s ∧
    (∃ p ∈ s.progs, p.generation = 2 ∧ p.rpipefd 0 = some 4) ∧
    (s.refreshPipes fun _ => false).AllWatched := by
  have hrun : ∃ s ∈ ({ table := List.replicate 4 (some .other) } : PipeLoop).run restartInTick,
      (∃ p ∈ s.progs, p.generation = 2 ∧ p.rpipefd 0 = some 4) ∧ s.pipes = [] := by
    decide
  obtain ⟨s, hs, hprog, hpipes⟩ := hrun
  have hreach : Reachable s := .of_run hs
  refine ⟨s, hreach, hprog, (all_watched_after_refresh_iff hreach _).2 fun p _ i fd _ => ?_⟩
  have hnone : Keyed.find PipeEntry.fd fd s.pipes = none := by rw [hpipes]; rfl
  refine ⟨?_, fun _ => rfl⟩
  rintro ⟨d, he, -⟩
  cases hnone.symm.trans he

/-- The first output of program 0 ends, program 1 starts before the next refresh and gets its
number. -/
def reuseNumber : List Event :=
  [.create, .spawn 0 false .started, .refreshPipes fun _ => false,
    .pipeReady ⟨0, ⟨0, Nat.two_pos⟩, 4, 1, 0⟩ false true, .create, .spawn 1 false .started]

theorem reused_number_unwatched :
    ¬ ∀ s, Reachable s → (s.refreshPipes fun _ => false).AllWatched := by
  intro h
  have hrun : ∃ s ∈ ({ table := List.replicate 4 (some .other) } : PipeLoop).run reuseNumber,
      ¬ (s.refreshPipes fun _ => false).AllWatched := by
    unfold AllWatched Watched
    decide
  obtain ⟨s, hs, hnot⟩ := hrun
  exact hnot (h s (.of_run hs))

/-- A program is restarted, and the pipes are refreshed before the waits on the old pipes have run:
the new pipe is unwatched until the next refresh. -/
theorem pending_wait_unwatched : ∃ s, Reachable s ∧ s.waits.length = 2 ∧
    ¬(s.refreshPipes fun _ => false).AllWatched := by
  have hrun : ∃ s ∈ ({ table := List.replicate 4 (some .other) } : PipeLoop).run
      (restartInTick.take 5), s.waits.length = 2 ∧
        ¬(s.refreshPipes fun _ => false).AllWatched := by
    unfold AllWatched Watched
    decide
  obtain ⟨s, hs, hnot⟩ := hrun
  exact ⟨s, .of_run hs, hnot⟩

end PipeLoop

end PmTiny.Pipes
