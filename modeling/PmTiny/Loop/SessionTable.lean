import PmTiny.Loop.Sessions

namespace PmTiny.Sessions
open Descriptors
set_option autoImplicit true

namespace SessionLoop

variable {s s' s'' : SessionLoop} {st : SessionState} {id : Nat}

def sessionOf (s : SessionLoop) (state : Nat) : Option Nat :=
  (s.findState state).map SessionState.session

theorem allStored_iff : s.AllStored ↔ ∀ id ∈ s.owned, ∀ fd, s.fdOf id = some fd →
    ∃ e, Keyed.find SessionEntry.fd fd s.entries = some e ∧ s.sessionOf e.state = some id := by
  constructor
  · intro h id hid fd hfd
    obtain ⟨e, he, st, hst, hs⟩ := h id hid fd hfd
    refine ⟨e, he, ?_⟩
    rw [sessionOf, hst, Option.map_some, hs]
  · intro h id hid fd hfd
    obtain ⟨e, he, hs⟩ := h id hid fd hfd
    obtain ⟨st, hst, hs⟩ := Option.map_eq_some_iff.1 hs
    exact ⟨e, he, st, hst, hs⟩

/-- A step that opens no session and keeps the entries of those still open and owned, `x` apart. -/
structure Keeps (x : Option Nat) (s s' : SessionLoop) : Prop where
  owned : s'.owned ⊆ s.owned
  fdOf : ∀ id fd, s'.fdOf id = some fd → s.fdOf id = some fd
  stored : ∀ id ∈ s'.owned, some id ≠ x → ∀ fd, s'.fdOf id = some fd →
    ∀ e, Keyed.find SessionEntry.fd fd s.entries = some e → s.sessionOf e.state = some id →
      Keyed.find SessionEntry.fd fd s'.entries = some e ∧ s'.sessionOf e.state = some id
  objects : s'.objects.map Session.id = s.objects.map Session.id
  states : s'.states.map SessionState.id = s.states.map SessionState.id

theorem Keeps.refl (x : Option Nat) (s : SessionLoop) : Keeps x s s :=
  ⟨List.Subset.refl _, fun _ _ h => h, fun _ _ _ _ _ _ he hs => ⟨he, hs⟩, rfl, rfl⟩

theorem Keeps.trans (h : Keeps x s s') (h' : Keeps x s' s'') : Keeps x s s'' := by
  refine ⟨List.Subset.trans h'.owned h.owned, fun id fd hfd => h.fdOf id fd (h'.fdOf id fd hfd), ?_,
    h'.objects.trans h.objects, h'.states.trans h.states⟩
  intro id hid hx fd hfd e he hs
  obtain ⟨he', hs'⟩ := h.stored id (h'.owned hid) hx fd (h'.fdOf id fd hfd) e he hs
  exact h'.stored id hid hx fd hfd e he' hs'

theorem Keeps.allStored (h : Keeps none s s') (hs : s.AllStored) : s'.AllStored := by
  rw [allStored_iff] at hs ⊢
  intro id hid fd hfd
  obtain ⟨e, he, hst⟩ := hs id (h.owned hid) fd (h.fdOf id fd hfd)
  exact ⟨e, h.stored id hid (by simp) fd hfd e he hst⟩

theorem Keeps.drop (h : Keeps (some x) s s') :
    Keeps none s { s' with owned := s'.owned.filter (· ≠ x) } := by
  refine ⟨fun id hid => h.owned (List.mem_of_mem_filter hid), h.fdOf, ?_, h.objects, h.states⟩
  intro id hid _ fd hfd e he hs
  obtain ⟨hmem, hne⟩ := List.mem_filter.1 hid
  have hne' : some id ≠ some x := by simpa using hne
  exact h.stored id hmem hne' fd hfd e he hs

theorem keeps_table (x : Option Nat) (s : SessionLoop) (t : Table File) :
    Keeps x s { s with table := t } :=
  ⟨List.Subset.refl _, fun _ _ h => h, fun _ _ _ _ _ _ he hs => ⟨he, hs⟩, rfl, rfl⟩

theorem keeps_posted (x : Option Nat) (s : SessionLoop) (l : List Nat) :
    Keeps x s { s with posted := l } :=
  ⟨List.Subset.refl _, fun _ _ h => h, fun _ _ _ _ _ _ he hs => ⟨he, hs⟩, rfl, rfl⟩

theorem findSession_updateSession (s : SessionLoop) (id k : Nat) (hf : ∀ x, (f x).id = x.id) :
    (s.updateSession id f).findSession k =
      if k = id then (s.findSession id).map f else s.findSession k :=
  Keyed.find_update hf

theorem findState_updateState (s : SessionLoop) (id k : Nat) (hf : ∀ x, (f x).id = x.id) :
    (s.updateState id f).findState k =
      if k = id then (s.findState id).map f else s.findState k :=
  Keyed.find_update hf

theorem keeps_updateSession (x : Option Nat) (s : SessionLoop) (id : Nat)
    (hid : ∀ x, (f x).id = x.id) (hfd : ∀ x fd, (f x).fd = some fd → x.fd = some fd) :
    Keeps x s (s.updateSession id f) := by
  refine ⟨List.Subset.refl _, ?_, fun _ _ _ _ _ _ he hs => ⟨he, hs⟩, Keyed.map_key_update hid, rfl⟩
  intro k fd hk
  rw [fdOf, findSession_updateSession s id k hid] at hk
  split at hk
  · rename_i he
    subst he
    obtain ⟨y, hy, hyfd⟩ := Option.bind_eq_some_iff.1 hk
    obtain ⟨z, hz, rfl⟩ := Option.map_eq_some_iff.1 hy
    rw [fdOf, hz]
    exact hfd z fd hyfd
  · exact hk

theorem sessionOf_updateState (s : SessionLoop) (id k : Nat) (hid : ∀ x, (f x).id = x.id)
    (hses : ∀ x, (f x).session = x.session) :
    (s.updateState id f).sessionOf k = s.sessionOf k := by
  rw [sessionOf, findState_updateState s id k hid, sessionOf]
  split
  · rename_i hk
    subst hk
    cases s.findState k with
    | none => rfl
    | some st => simp [hses]
  · rfl

theorem keeps_updateState (x : Option Nat) (s : SessionLoop) (id : Nat)
    (hid : ∀ x, (f x).id = x.id) (hses : ∀ x, (f x).session = x.session) :
    Keeps x s (s.updateState id f) := by
  refine ⟨List.Subset.refl _, fun _ _ h => h, ?_, rfl, Keyed.map_key_update hid⟩
  intro k _ _ fd _ e he hs
  rw [sessionOf_updateState s id e.state hid hses]
  exact ⟨he, hs⟩

theorem keeps_closeSession (x : Option Nat) (s : SessionLoop) (id : Nat) :
    Keeps x s (s.closeSession id) := by
  rw [closeSession]
  cases s.fdOf id with
  | none => exact Keeps.refl x s
  | some fd =>
    apply (keeps_updateSession x s id (f := fun x => { x with fd := none, writeNotifier := false })
      (fun _ => rfl) _).trans (keeps_table x _ _)
    intro y fd hy
    cases hy

theorem keeps_touch (s : SessionLoop) (a : Touch) : Keeps none s (s.touch a) := by
  cases a with
  | queue id =>
    rw [touch]
    cases s.findSession id with
    | none => exact Keeps.refl none s
    | some y =>
      simp only
      split
      · exact Keeps.refl none s
      · exact (keeps_updateSession none s id (f := fun x => { x with sbufEmpty := false })
          (fun _ => rfl) fun _ _ h => h).trans (keeps_posted none _ _)
  | drain id => exact keeps_updateSession none s id (fun _ => rfl) fun _ _ h => h
  | close id => exact keeps_closeSession none s id
  | markClose id => exact keeps_updateSession none s id (fun _ => rfl) fun _ _ h => h

theorem keeps_touchAll (s : SessionLoop) (l : List Touch) : Keeps none s (s.touchAll l) := by
  induction l generalizing s with
  | nil => exact Keeps.refl none s
  | cons a l ih => exact (keeps_touch s a).trans (ih (s.touch a))

theorem keeps_closeDescriptor (x : Option Nat) (s : SessionLoop) (st : SessionState) :
    Keeps x s (s.closeDescriptor st) := by
  rw [closeDescriptor]
  cases st.native with
  | none => exact Keeps.refl x s
  | some n =>
    exact (keeps_updateState x s st.id (f := fun x => { x with native := none }) (fun _ => rfl)
      fun _ => rfl).trans (keeps_table x _ _)

theorem keeps_eraseEntry (s : SessionLoop) (hst : s.sessionOf st.id = some st.session) :
    Keeps (some st.session) s (s.eraseEntry st) := by
  rw [eraseEntry]
  split
  · rename_i hown
    refine ⟨List.Subset.refl _, fun _ _ h => h, ?_, rfl, rfl⟩
    intro id _ hx fd _ e he hs
    refine ⟨?_, hs⟩
    rw [Keyed.find_remove_ne]
    · exact he
    · rintro rfl
      rw [he] at hown
      cases hown
      rw [hst] at hs
      exact hx hs.symm
  · exact Keeps.refl _ s

theorem keeps_removeSession (s : SessionLoop) (id : Nat) : Keeps none s (s.removeSession id) := by
  rw [removeSession]
  cases hst : s.findState id with
  | none => exact Keeps.refl none s
  | some st =>
    simp only
    split
    · exact Keeps.refl none s
    · have hid : st.id = id := Keyed.key_of_find hst
      apply Keeps.drop
      have h₁ := keeps_updateState (some st.session) s id
        (f := fun x => { x with removed := true }) (fun _ => rfl) fun _ => rfl
      have h₂ := keeps_updateSession (some st.session)
        (s.updateState id fun x => { x with removed := true }) st.session
        (f := fun x => { x with writeNotifier := false }) (fun _ => rfl) fun _ _ h => h
      refine (h₁.trans h₂).trans ?_
      apply Keeps.trans _ (keeps_closeSession _ _ _)
      apply Keeps.trans _ (keeps_closeDescriptor _ _ _)
      apply keeps_eraseEntry
      have hs : (s.updateState id fun x => { x with removed := true }).sessionOf id =
          some st.session := by
        rw [sessionOf_updateState s id id (fun _ => by rfl) fun _ => by rfl, sessionOf, hst,
          Option.map_some]
      rw [hid]
      exact hs

theorem keeps_armSessionWrite (s : SessionLoop) (id : Nat) :
    Keeps none s (s.armSessionWrite id) := by
  rw [armSessionWrite]
  cases s.findState id with
  | none => exact Keeps.refl none s
  | some st =>
    simp only
    split
    · exact Keeps.refl none s
    · split
      · exact keeps_removeSession s id
      · split
        · split
          · exact keeps_removeSession s id
          · exact Keeps.refl none s
        · exact keeps_updateState none s id (fun _ => rfl) fun _ => rfl

theorem keeps_armSessionRead (s : SessionLoop) (id : Nat) :
    Keeps none s (s.armSessionRead id) := by
  rw [armSessionRead]
  cases s.findState id with
  | none => exact Keeps.refl none s
  | some st =>
    simp only
    split
    · exact Keeps.refl none s
    · split
      · exact keeps_removeSession s id
      · split
        · split
          · exact keeps_removeSession s id
          · exact keeps_armSessionWrite s id
        · exact keeps_updateState none s id (fun _ => rfl) fun _ => rfl

theorem keeps_dispatchMessages (s : SessionLoop) (id : Nat) (handled : List Touch) (more : Bool) :
    Keeps none s (s.dispatchMessages id handled more) := by
  rw [dispatchMessages]
  cases s.findState id with
  | none => exact Keeps.refl none s
  | some st =>
    simp only
    split
    · exact Keeps.refl none s
    · have h := (keeps_touchAll s handled).trans (keeps_armSessionWrite (s.touchAll handled) id)
      split
      · exact h.trans (keeps_updateState none _ id (fun _ => rfl) fun _ => rfl)
      · exact h

theorem keeps_readReady (s : SessionLoop) (id : Nat) (error failed : Bool)
    (read handled : List Touch) (more : Bool) :
    Keeps none s (s.readReady id error failed read handled more) := by
  have h := keeps_updateState none s id (f := fun x => { x with readWait := false })
    (fun _ => rfl) fun _ => rfl
  rw [readReady]
  apply h.trans
  cases (s.updateState id fun x => { x with readWait := false }).findState id with
  | none => exact Keeps.refl none _
  | some st =>
    simp only
    split
    · exact Keeps.refl none _
    · split
      · exact keeps_removeSession _ id
      · apply (keeps_touchAll _ read).trans
        split
        · exact keeps_removeSession _ id
        · exact ((keeps_dispatchMessages _ id handled more).trans
            (keeps_armSessionWrite _ id)).trans (keeps_armSessionRead _ id)

theorem keeps_writeReady (s : SessionLoop) (id : Nat) (error : Bool) (written : List Touch) :
    Keeps none s (s.writeReady id error written) := by
  have h := keeps_updateState none s id (f := fun x => { x with writeWait := false })
    (fun _ => rfl) fun _ => rfl
  rw [writeReady]
  apply h.trans
  cases (s.updateState id fun x => { x with writeWait := false }).findState id with
  | none => exact Keeps.refl none _
  | some st =>
    simp only
    split
    · exact Keeps.refl none _
    · split
      · exact keeps_removeSession _ id
      · apply (keeps_touchAll _ written).trans
        split
        · exact keeps_removeSession _ id
        · exact keeps_armSessionWrite _ id

theorem keeps_dispatchReady (s : SessionLoop) (id : Nat) (handled : List Touch) (more : Bool) :
    Keeps none s (s.dispatchReady id handled more) := by
  have h := keeps_updateState none s id (f := fun x => { x with dispatchPosted := false })
    (fun _ => rfl) fun _ => rfl
  rw [dispatchReady]
  apply h.trans
  cases (s.updateState id fun x => { x with dispatchPosted := false }).findState id with
  | none => exact Keeps.refl none _
  | some st =>
    simp only
    split
    · exact Keeps.refl none _
    · exact (keeps_dispatchMessages _ id handled more).trans (keeps_armSessionRead _ id)

theorem keeps_notifyReady (s : SessionLoop) (id : Nat) : Keeps none s (s.notifyReady id) := by
  rw [notifyReady]
  apply (keeps_posted none s (s.posted.erase id)).trans
  cases ({ s with posted := s.posted.erase id } : SessionLoop).findState id with
  | none => exact Keeps.refl none _
  | some st =>
    simp only
    split
    · exact keeps_armSessionWrite _ id
    · exact Keeps.refl none _

theorem keeps_foldl (f : SessionLoop → α → SessionLoop) (hf : ∀ s a, Keeps none s (f s a))
    (l : List α) (s : SessionLoop) : Keeps none s (l.foldl f s) := by
  induction l generalizing s with
  | nil => exact Keeps.refl none s
  | cons a l ih => exact (hf s a).trans (ih (f s a))

theorem keeps_dropClosed (s : SessionLoop) :
    Keeps none s { s with owned := s.owned.filter fun id => !s.isClose id } :=
  ⟨fun _ hid => List.mem_of_mem_filter hid, fun _ _ h => h, fun _ _ _ _ _ _ he hs => ⟨he, hs⟩, rfl,
    rfl⟩

theorem keeps_runMaintenance (s : SessionLoop) (ticked : List Touch) :
    Keeps none s (s.runMaintenance ticked) := by
  have harm : ∀ (s : SessionLoop) (e : SessionEntry),
      Keeps none s ((s.armSessionWrite e.state).armSessionRead e.state) :=
    fun s e => (keeps_armSessionWrite s e.state).trans (keeps_armSessionRead _ e.state)
  exact (((keeps_foldl removeSession keeps_removeSession _ s).trans (keeps_dropClosed _)).trans
    (keeps_foldl _ harm _ _)).trans (keeps_touchAll _ ticked)

/-- No step accepts a connection under a number that `sessions_` still has an entry for. -/
def Clear (s : SessionLoop) : Event → Prop
  | .accept false false => s.owned.length < maxControlSessions →
    Keyed.find SessionEntry.fd s.table.free s.entries = none
  | _ => True

structure Numbered (s : SessionLoop) : Prop where
  objectLt : ∀ k ∈ s.objects.map Session.id, k < s.objects.length
  stateLt : ∀ k ∈ s.states.map SessionState.id, k < s.states.length

theorem Keeps.numbered (h : Keeps none s s') (hn : s.Numbered) : s'.Numbered := by
  have ho : s'.objects.length = s.objects.length := by simpa using congrArg List.length h.objects
  have hs : s'.states.length = s.states.length := by simpa using congrArg List.length h.states
  constructor
  · rw [h.objects, ho]
    exact hn.objectLt
  · rw [h.states, hs]
    exact hn.stateLt

theorem Numbered.findSession_append (h : s.Numbered) (x : Session)
    (hx : x.id = s.objects.length) (k : Nat) :
    Keyed.find Session.id k (s.objects ++ [x]) =
      if x.id = k then some x else s.findSession k := by
  apply Keyed.find_append_singleton
  apply Keyed.find_eq_none.2
  intro y hy he
  exact absurd (h.objectLt y.id (List.mem_map_of_mem hy)) (by omega)

theorem Numbered.findState_append (h : s.Numbered) (st : SessionState)
    (hst : st.id = s.states.length) (k : Nat) :
    Keyed.find SessionState.id k (s.states ++ [st]) =
      if st.id = k then some st else s.findState k := by
  apply Keyed.find_append_singleton
  apply Keyed.find_eq_none.2
  intro y hy he
  exact absurd (h.stateLt y.id (List.mem_map_of_mem hy)) (by omega)

theorem Numbered.ne_of_findState (h : s.Numbered) (hst : s.findState k = some st) :
    s.states.length ≠ k := by
  have hid : st.id = k := Keyed.key_of_find hst
  have hlt := h.stateLt st.id (List.mem_map_of_mem (Keyed.mem_of_find hst))
  omega

theorem lt_of_mem_append {α : Type} {key : α → Nat} {l : List α} {a : α}
    (h : ∀ k ∈ l.map key, k < l.length) (ha : key a = l.length) :
    ∀ k ∈ (l ++ [a]).map key, k < (l ++ [a]).length := by
  intro k hk
  rw [List.map_append, List.mem_append] at hk
  rw [List.length_append]
  rcases hk with hk | hk
  · exact Nat.lt_add_right _ (h k hk)
  · simp at hk
    simp [hk, ha]

theorem allStored_rejected (h : s.AllStored) (hn : s.Numbered) (t : Table File) :
    ({ s with
        table := t
        objects := s.objects ++ [⟨s.objects.length, none, false, true, false⟩] } :
      SessionLoop).AllStored ∧
    ({ s with
        table := t
        objects := s.objects ++ [⟨s.objects.length, none, false, true, false⟩] } :
      SessionLoop).Numbered := by
  rw [allStored_iff] at h ⊢
  refine ⟨?_, lt_of_mem_append hn.objectLt rfl, hn.stateLt⟩
  intro id hid fd hfd
  rw [fdOf, findSession, hn.findSession_append _ rfl] at hfd
  split at hfd
  · cases hfd
  · exact h id hid fd hfd

theorem allStored_accepted (h : s.AllStored) (hn : s.Numbered)
    (hc : Keyed.find SessionEntry.fd fd s.entries = none) (t : Table File) (n : Option Nat) :
    ({ s with
        table := t
        objects := s.objects ++ [⟨s.objects.length, some fd, false, true, true⟩]
        owned := s.owned ++ [s.objects.length]
        states := s.states ++ [⟨s.states.length, s.objects.length, n, fd,
          false, false, false, false⟩]
        entries := s.entries ++ [⟨fd, s.states.length⟩] } : SessionLoop).AllStored ∧
    ({ s with
        table := t
        objects := s.objects ++ [⟨s.objects.length, some fd, false, true, true⟩]
        owned := s.owned ++ [s.objects.length]
        states := s.states ++ [⟨s.states.length, s.objects.length, n, fd,
          false, false, false, false⟩]
        entries := s.entries ++ [⟨fd, s.states.length⟩] } : SessionLoop).Numbered := by
  rw [allStored_iff] at h ⊢
  refine ⟨?_, lt_of_mem_append hn.objectLt rfl, lt_of_mem_append hn.stateLt rfl⟩
  intro id hid fd' hfd
  rw [fdOf, findSession, hn.findSession_append _ rfl] at hfd
  split at hfd
  · rename_i hnew
    have hfd' : fd = fd' := Option.some.inj hfd
    refine ⟨⟨fd, s.states.length⟩, ?_, ?_⟩
    · rw [Keyed.find_append_singleton hc, if_pos hfd']
    · rw [sessionOf, findState, hn.findState_append _ rfl, if_pos rfl, Option.map_some]
      exact congrArg some hnew
  · rename_i hold
    have hmem : id ∈ s.owned := by
      rcases List.mem_append.1 hid with hid | hid
      · exact hid
      · exact absurd (List.mem_singleton.1 hid).symm hold
    obtain ⟨e, he, hs⟩ := h id hmem fd' hfd
    refine ⟨e, ?_, ?_⟩
    · rw [Keyed.find_append_singleton hc, if_neg]
      · exact he
      · rintro rfl
        rw [hc] at he
        cases he
    · obtain ⟨st, hst, hses⟩ := Option.map_eq_some_iff.1 hs
      rw [sessionOf, findState, hn.findState_append _ rfl, if_neg (hn.ne_of_findState hst), hst,
        Option.map_some, hses]

theorem stored_accept (h : s.AllStored) (hn : s.Numbered)
    (hc : s.Clear (.accept denied dupFails)) :
    (s.accept denied dupFails).AllStored ∧ (s.accept denied dupFails).Numbered := by
  rw [accept]
  by_cases hrej : (decide (s.owned.length ≥ maxControlSessions) || denied) = true
  · rw [if_pos hrej]
    exact ⟨(keeps_table none s _).allStored h, (keeps_table none s _).numbered hn⟩
  · rw [if_neg hrej]
    simp only [Bool.or_eq_true, decide_eq_true_eq, not_or, Bool.not_eq_true] at hrej
    obtain ⟨hlt, rfl⟩ := hrej
    cases dupFails with
    | true => exact allStored_rejected h hn _
    | false =>
      have hfree := hc (Nat.lt_of_not_le hlt)
      have hnot : (Keyed.find SessionEntry.fd s.table.free s.entries).isSome = false := by
        rw [hfree]
        rfl
      simp only [hnot]
      obtain ⟨h', hn'⟩ := allStored_accepted h hn hfree
        ((s.table.add (.socket s.objects.length)).add (.socket s.objects.length))
        (some (s.table.add (.socket s.objects.length)).free)
      exact ⟨(keeps_armSessionRead _ s.states.length).allStored h',
        (keeps_armSessionRead _ s.states.length).numbered hn'⟩

theorem stored_step (h : s.AllStored) (hn : s.Numbered) (hc : s.Clear e)
    (hs : s.step e = some s') : s'.AllStored ∧ s'.Numbered := by
  have key : Keeps none s s' → s'.AllStored ∧ s'.Numbered :=
    fun hk => ⟨hk.allStored h, hk.numbered hn⟩
  cases e with
  | accept denied dupFails =>
    cases hs
    exact stored_accept h hn hc
  | readReady id error failed read handled more =>
    obtain ⟨-, hs⟩ := Option.ite_none_right_eq_some.1 hs
    cases hs
    exact key (keeps_readReady s id error failed read handled more)
  | writeReady id error written =>
    obtain ⟨-, hs⟩ := Option.ite_none_right_eq_some.1 hs
    cases hs
    exact key (keeps_writeReady s id error written)
  | dispatchReady id handled more =>
    obtain ⟨-, hs⟩ := Option.ite_none_right_eq_some.1 hs
    cases hs
    exact key (keeps_dispatchReady s id handled more)
  | notifyReady id =>
    obtain ⟨-, hs⟩ := Option.ite_none_right_eq_some.1 hs
    cases hs
    exact key (keeps_notifyReady s id)
  | runMaintenance ticked =>
    cases hs
    exact key (keeps_runMaintenance s ticked)
  | touched l =>
    cases hs
    exact key (keeps_touchAll s l)
  | openOther =>
    cases hs
    exact key (keeps_table none s _)
  | closeOther fd =>
    obtain ⟨-, hs⟩ := Option.ite_none_right_eq_some.1 hs
    cases hs
    exact key (keeps_table none s _)

theorem Reachable.stored (h : Reachable Clear s) : s.AllStored ∧ s.Numbered := by
  induction h with
  | init table => exact ⟨by simp [AllStored], by simp, by simp⟩
  | step _ hc hs ih => exact stored_step ih.1 ih.2 hc hs

/-- Every open session is stored under its own descriptor, in every run in which no connection is
accepted under a number that `sessions_` still has an entry for. -/
theorem every_session_stored (h : Reachable Clear s) : s.AllStored := h.stored.1

theorem every_session_stored_accepted :
    (({ table := List.replicate 4 (some .other) } : SessionLoop).accept false false).AllStored := by
  have hinit : Reachable Clear { table := List.replicate 4 (some .other) } := .init _
  exact every_session_stored
    (.step (e := .accept false false) hinit (fun _ => rfl) rfl)

theorem Reachable.run (h : Reachable (fun _ _ => True) s) (hr : s.run es = some s') :
    Reachable (fun _ _ => True) s' := by
  induction es generalizing s with
  | nil =>
    cases hr
    exact h
  | cons e es ih =>
    obtain ⟨s₁, hs, hr⟩ := Option.bind_eq_some_iff.1 hr
    exact ih (h.step trivial hs) hr

/-- A session closes itself in a write, and a connection is accepted before its entry is erased. -/
theorem overflowed_number_taken : ¬ ∀ s, Reachable (fun _ _ => True) s → s.AllStored := by
  intro h
  have hinit : Reachable (fun _ _ => True) { table := List.replicate 4 (some .other) } := .init _
  have hrun : ∃ s ∈ ({ table := List.replicate 4 (some .other) } : SessionLoop).run
      [.accept false false, .touched [.close 0], .accept false false], ¬ s.AllStored := by
    unfold AllStored
    decide
  obtain ⟨s, hs, hnot⟩ := hrun
  exact hnot (h s (hinit.run hs))

end SessionLoop

end PmTiny.Sessions
