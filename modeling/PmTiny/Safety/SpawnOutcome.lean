import PmTiny.Safety.SpawnHandshake
import PmTiny.Trace.Spawning

namespace PmTiny.Handshake
set_option autoImplicit true

def Parent.rank : Parent → Nat
  | .closeEnds => 15
  | .startInstance => 14
  | .attach => 13
  | .writeGate => 12
  | .closeGate _ => 11
  | .poll => 10
  | .readStatus => 9
  | .closeStatus _ => 8
  | .undo _ _ calls => calls.length + 2
  | .release => 2
  | .returned _ => 1
  | .gone => 0

def Child.rank : Child → Nat
  | .closeEnds => 16
  | .recordParent => 15
  | .readGate => 14
  | .closeGate => 13
  | .setup calls => calls.length + 3
  | .report _ => 3
  | .exit | .running => 2
  | .zombie => 1
  | .reaped => 0

/-- The daemon has opened the gate and goes on to a success. -/
def Parent.opened : Parent → Bool
  | .closeGate none | .poll | .readStatus | .closeStatus .executed | .release
  | .returned (.ok ()) => true
  | _ => false

/-- The failure that the daemon has met with. -/
def Parent.failure : Parent → Option SpawnFailure
  | .closeGate (some errno) => some (.gate errno)
  | .closeStatus (.failed failure) | .undo failure _ _ | .returned (.error failure) => some failure
  | _ => none

/-- The calls of the two sides that succeed, and the arrival of the daemon's signal. -/
def Event.Smooth (event : Event) : Prop := event = .parent 0 ∨ event = .child ∨ event = .killed

/-- Every descriptor was closed once or handed to the program. -/
def ChildLaunchContext.Settled (launch : ChildLaunchContext) : Prop :=
  launch.slots = [] ∧ (launch.closed ++ launch.released).Perm launch.opened

instance (launch : ChildLaunchContext) : Decidable launch.Settled :=
  inferInstanceAs (Decidable (_ ∧ _))

theorem length_undoCalls (failure : SpawnFailure) : (undoCalls failure).length ≤ 5 := by
  cases failure <;> simp [undoCalls]

theorem length_childCalls (config : Config) : (childCalls config).length ≤ 9 := by
  unfold childCalls
  generalize (config.prog.runAs ≠ "" && config.privileged) = changeIdentity
  generalize decide (config.prog.workDir ≠ "") = changeDir
  cases config.usePty <;> cases changeIdentity <;> cases changeDir <;> decide

theorem Child.rank_alive {c : Child} (h : c.alive = true) : 2 ≤ c.rank := by
  cases c with
  | zombie => cases h
  | reaped => cases h
  | _ => simp [Child.rank]

namespace Launch

variable {s s' : Launch}

def rank (s : Launch) : Nat := s.parent.rank + s.child.rank

theorem undo_rank (s : Launch) (failure : SpawnFailure) :
    (s.undo failure).rank ≤ 7 + s.child.rank := by
  have hlength := length_undoCalls failure
  simp only [undo, rank, Parent.rank]
  omega

theorem undoCall_moves {call : UndoCall} (hs : s.undoCall call = some s') :
    s'.config = s.config ∧ s'.child.rank ≤ s.child.rank := by
  cases call with
  | waitpid =>
    obtain ⟨hzombie, hs⟩ := Option.ite_none_right_eq_some.1 hs
    cases hs
    exact ⟨rfl, Nat.zero_le _⟩
  | closeAll => cases hs; exact ⟨rfl, le_refl _⟩
  | closeExecStatus => cases hs; exact ⟨rfl, le_refl _⟩
  | kill => cases hs; exact ⟨rfl, le_refl _⟩
  | cleanup => cases hs; exact ⟨rfl, le_refl _⟩
  | resetFailedStart => cases hs; exact ⟨rfl, le_refl _⟩

theorem parentProceeds_moves {nowMs : Int} (hs : s.parentProceeds nowMs = some s') :
    s'.config = s.config ∧ s'.parent ≠ .gone ∧ s'.rank < s.rank := by
  have hundo := s.undo_rank
  rw [parentProceeds] at hs
  cases hparent : s.parent with
  | closeGate error =>
    rw [hparent] at hs
    cases error with
    | none =>
      cases hs
      exact ⟨rfl, by simp, by simp [rank, hparent, Parent.rank]⟩
    | some errno =>
      cases hs
      refine ⟨rfl, by simp [undo], ?_⟩
      have hless := hundo (.gate errno)
      simp only [undo, rank, hparent, Parent.rank] at hless ⊢
      omega
  | poll =>
    rw [hparent] at hs
    obtain ⟨-, hs⟩ := Option.ite_none_right_eq_some.1 hs
    cases hs
    exact ⟨rfl, by simp, by simp [rank, hparent, Parent.rank]⟩
  | readStatus =>
    rw [hparent] at hs
    cases hstatus : s.execStatus with
    | some errno =>
      rw [hstatus] at hs
      cases hs
      exact ⟨rfl, by simp, by simp [rank, hparent, Parent.rank]⟩
    | none =>
      rw [hstatus] at hs
      obtain ⟨-, hs⟩ := Option.ite_none_right_eq_some.1 hs
      cases hs
      exact ⟨rfl, by simp, by simp [rank, hparent, Parent.rank]⟩
  | closeStatus status =>
    rw [hparent] at hs
    cases status with
    | executed =>
      cases hs
      exact ⟨rfl, by simp, by simp [rank, hparent, Parent.rank]⟩
    | failed failure =>
      cases hs
      refine ⟨rfl, by simp [undo], ?_⟩
      have hless := hundo failure
      simp only [undo, rank, hparent, Parent.rank] at hless ⊢
      omega
  | undo failure done calls =>
    rw [hparent] at hs
    cases calls with
    | nil =>
      cases hs
      exact ⟨rfl, by simp, by simp [rank, hparent, Parent.rank]⟩
    | cons call calls =>
      obtain ⟨t, ht, rfl⟩ := Option.map_eq_some_iff.1 hs
      obtain ⟨hconfig, hchild⟩ := undoCall_moves ht
      refine ⟨hconfig, by simp, ?_⟩
      simp only [rank, hparent, Parent.rank, List.length_cons]
      omega
  | closeEnds =>
    rw [hparent] at hs
    cases hs
    exact ⟨rfl, by simp, by simp [rank, hparent, Parent.rank]⟩
  | startInstance =>
    rw [hparent] at hs
    cases hs
    exact ⟨rfl, by simp, by simp [rank, hparent, Parent.rank]⟩
  | attach =>
    rw [hparent] at hs
    cases hs
    exact ⟨rfl, by simp, by simp [rank, hparent, Parent.rank]⟩
  | writeGate =>
    rw [hparent] at hs
    dsimp only at hs
    split at hs
    · cases hs
      exact ⟨rfl, by simp, by simp [rank, hparent, Parent.rank]⟩
    · cases hs
      exact ⟨rfl, by simp, by simp [rank, hparent, Parent.rank]⟩
  | release =>
    rw [hparent] at hs
    cases hs
    exact ⟨rfl, by simp, by simp [rank, hparent, Parent.rank]⟩
  | returned result =>
    rw [hparent] at hs
    cases hs
  | gone =>
    rw [hparent] at hs
    cases hs

theorem parentFails_moves {event : Event} (hs : s.parentFails event = some s') :
    s'.config = s.config ∧ s'.rank < s.rank := by
  unfold parentFails at hs
  split at hs
  case h_6 => cases hs
  case h_1 =>
    obtain ⟨hparent, hs⟩ := Option.ite_none_right_eq_some.1 hs
    cases hs
    have hless := s.undo_rank .attach
    refine ⟨rfl, ?_⟩
    simp only [rank, hparent, Parent.rank] at hless ⊢
    omega
  case h_3 =>
    obtain ⟨⟨hparent, -⟩, hs⟩ := Option.ite_none_right_eq_some.1 hs
    cases hs
    have hless := s.undo_rank .timeout
    refine ⟨rfl, ?_⟩
    simp only [rank, hparent, Parent.rank] at hless ⊢
    omega
  all_goals
    obtain ⟨hparent, hs⟩ := Option.ite_none_right_eq_some.1 hs
    cases hs
    exact ⟨rfl, by simp [rank, hparent, Parent.rank]⟩

theorem dies_rank (halive : s.child.alive = true) : s.dies.rank < s.rank := by
  have hless := Child.rank_alive halive
  show s.parent.rank + 1 < s.parent.rank + s.child.rank
  omega

theorem childProceeds_moves (hs : s.childProceeds = some s') :
    s'.config = s.config ∧ s'.parent = s.parent ∧ s'.rank < s.rank := by
  rw [childProceeds] at hs
  cases hchild : s.child with
  | closeEnds =>
    rw [hchild] at hs
    cases hs
    exact ⟨rfl, rfl, by simp [rank, hchild, Child.rank]⟩
  | recordParent =>
    rw [hchild] at hs
    cases hs
    exact ⟨rfl, rfl, by simp [rank, hchild, Child.rank]⟩
  | readGate =>
    rw [hchild] at hs
    dsimp only at hs
    split at hs
    · cases hs
      exact ⟨rfl, rfl, by simp [rank, hchild, Child.rank]⟩
    · obtain ⟨-, hs⟩ := Option.ite_none_right_eq_some.1 hs
      cases hs
      exact ⟨rfl, rfl, by simp [rank, hchild, Child.rank]⟩
  | closeGate =>
    rw [hchild] at hs
    cases hs
    refine ⟨rfl, rfl, ?_⟩
    have hlength := length_childCalls s.config
    simp only [rank, hchild, Child.rank]
    omega
  | setup calls =>
    rw [hchild] at hs
    cases calls with
    | nil => cases hs
    | cons call calls =>
      cases hs
      cases call with
      | checkParent =>
        rw [setupCall]
        split
        · exact ⟨rfl, rfl, by simp [rank, hchild, Child.rank]⟩
        · exact ⟨rfl, rfl, by simp [rank, hchild, Child.rank]⟩
      | _ => exact ⟨rfl, rfl, by simp [setupCall, rank, hchild, Child.rank]⟩
  | report errno =>
    rw [hchild] at hs
    dsimp only at hs
    split at hs
    · cases hs
      exact ⟨rfl, rfl, by simp [rank, hchild, Child.rank]⟩
    · cases hs
      exact ⟨rfl, rfl, by simp [rank, hchild, Child.rank]⟩
  | exit =>
    rw [hchild] at hs
    cases hs
    exact ⟨rfl, rfl, dies_rank (by rw [hchild]; rfl)⟩
  | running =>
    rw [hchild] at hs
    cases hs
  | zombie =>
    rw [hchild] at hs
    cases hs
  | reaped =>
    rw [hchild] at hs
    cases hs

theorem step_moves {event : Event} (hs : s.step event = some s') :
    s'.config = s.config ∧ s'.rank < s.rank := by
  unfold step at hs
  split at hs
  · obtain ⟨hconfig, -, hless⟩ := parentProceeds_moves hs
    exact ⟨hconfig, hless⟩
  · obtain ⟨hconfig, -, hless⟩ := childProceeds_moves hs
    exact ⟨hconfig, hless⟩
  · unfold childFails at hs
    split at hs
    · rename_i call calls hchild
      obtain ⟨-, hs⟩ := Option.ite_none_right_eq_some.1 hs
      cases hs
      exact ⟨rfl, by simp [rank, hchild, Child.rank]⟩
    · cases hs
  · obtain ⟨⟨-, halive⟩, hs⟩ := Option.ite_none_right_eq_some.1 hs
    cases hs
    exact ⟨rfl, dies_rank halive⟩
  · obtain ⟨halive, hs⟩ := Option.ite_none_right_eq_some.1 hs
    cases hs
    exact ⟨rfl, dies_rank halive⟩
  · split at hs
    · cases hs
    · rename_i hparent
      cases hs
      have hless : 0 < s.parent.rank := by
        cases hp : s.parent with
        | gone => exact absurd hp hparent
        | _ => simp [Parent.rank]
      refine ⟨rfl, ?_⟩
      show 0 + s.child.rank < s.parent.rank + s.child.rank
      omega
  · exact parentFails_moves hs

theorem Spawned.config {config : Config} {events : List Event} (h : Spawned config events s) :
    s.config = config :=
  h.invariant (fun t => t.config = config)
    (fun _ _ _ hbefore hstep => (step_moves hstep).1.trans hbefore) rfl

theorem smooth_present {event : Event} (he : event.Smooth) (hs : s.step event = some s')
    (hgone : s.parent ≠ .gone) : s'.parent ≠ .gone := by
  rcases he with rfl | rfl | rfl
  · exact (parentProceeds_moves hs).2.1
  · rwa [(childProceeds_moves hs).2.1]
  · obtain ⟨-, hs⟩ := Option.ite_none_right_eq_some.1 hs
    cases hs
    exact hgone

theorem before_waitpid {failure : SpawnFailure} {done calls : List UndoCall}
    (h : undoCalls failure = done ++ .waitpid :: calls) :
    .waitpid ∉ done ∧ (.kill ∈ done ∨ ∃ errno, failure = .child errno) := by
  cases failure <;> simp [undoCalls, List.cons_eq_append_iff] at h ⊢ <;> grind

theorem ChildHolds.reported {c : Child} (h : s.ChildHolds c) (hreported : s.reported = true) :
    c = .exit ∨ c = .zombie ∨ c = .reaped := by
  have hsilent : ¬s.Silent := fun hfalse => by
    rw [hfalse.reported] at hreported
    cases hreported
  cases c with
  | closeEnds => exact absurd h.2 hsilent
  | recordParent => exact absurd h.2 hsilent
  | readGate => exact absurd h.2 hsilent
  | closeGate => exact absurd h.2 hsilent
  | setup calls => exact absurd h.2.2.2.1 hsilent
  | report errno =>
    obtain ⟨-, -, -, -, hfalse, -⟩ := h
    rw [hfalse] at hreported
    cases hreported
  | exit => exact .inl rfl
  | running =>
    obtain ⟨-, -, -, hfalse, -⟩ := h
    rw [hfalse] at hreported
    cases hreported
  | zombie => exact .inr (.inl rfl)
  | reaped => exact .inr (.inr rfl)

theorem ChildHolds.proceeds (h : s.ChildHolds s.child) (halive : s.child.alive = true)
    (hrunning : s.child ≠ .running)
    (hgate : s.child = .readGate → s.gate = true ∨ s.gateEof = true) :
    ∃ s', s.childProceeds = some s' := by
  unfold childProceeds
  cases hchild : s.child with
  | readGate =>
    dsimp only
    split
    · exact ⟨_, rfl⟩
    · rename_i hshut
      rw [if_pos ((hgate hchild).resolve_left hshut)]
      exact ⟨_, rfl⟩
  | setup calls =>
    rw [hchild] at h
    obtain ⟨-, hne, -⟩ := h
    cases calls with
    | nil => exact absurd rfl hne
    | cons call calls => exact ⟨_, rfl⟩
  | report errno =>
    dsimp only
    split <;> exact ⟨_, rfl⟩
  | closeEnds => exact ⟨_, rfl⟩
  | recordParent => exact ⟨_, rfl⟩
  | closeGate => exact ⟨_, rfl⟩
  | exit => exact ⟨_, rfl⟩
  | running => exact absurd hchild hrunning
  | zombie =>
    rw [hchild] at halive
    cases halive
  | reaped =>
    rw [hchild] at halive
    cases halive

theorem statusEof_of_slots (hlaunch : s.launch = s.config.polling)
    (hslots : s.childLaunch.slots = []) : s.statusReady = true := by
  rw [statusReady, statusEof, hlaunch, hslots, Bool.or_eq_true]
  refine .inr ?_
  rw [Bool.not_eq_true', Bool.or_eq_false_iff]
  exact ⟨Bool.eq_false_iff.2 fun hmem =>
    (polling_ends s.config).2 (List.contains_iff_mem.1 hmem), rfl⟩

theorem poll_smooth (h : s.Inv) (hparent : s.parent = .poll) :
    ∃ event s', event.Smooth ∧ s.step event = some s' := by
  obtain ⟨hp, hc⟩ := h
  rw [hparent] at hp
  obtain ⟨hlaunch, -, hreaped, -⟩ := hp
  by_cases hready : s.statusReady = true
  · refine ⟨.parent 0, { s with parent := .readStatus }, .inl rfl, ?_⟩
    show s.parentProceeds 0 = _
    rw [parentProceeds, hparent]
    exact if_pos hready
  · have hends : s.child ≠ .running ∧ s.child.alive = true := by
      cases hchild : s.child with
      | running =>
        rw [hchild] at hc
        exact absurd (statusEof_of_slots hlaunch hc.1) hready
      | zombie =>
        rw [hchild] at hc
        exact absurd (statusEof_of_slots hlaunch hc.1) hready
      | reaped => exact absurd hchild hreaped
      | _ => exact ⟨by simp, rfl⟩
    have hgate : s.child = .readGate → s.gate = true ∨ s.gateEof = true := by
      intro hchild
      rw [hchild] at hc
      refine .inr ?_
      rw [gateEof, hlaunch, hc.1, Bool.not_eq_true', Bool.or_eq_false_iff]
      refine ⟨Bool.eq_false_iff.2 fun hmem =>
        (polling_ends s.config).1 (List.contains_iff_mem.1 hmem), ?_⟩
      cases s.config.usePty <;> decide
    obtain ⟨s', hs'⟩ := hc.proceeds hends.2 hends.1 hgate
    exact ⟨.child, s', .inr (.inl rfl), hs'⟩

theorem undo_smooth {failure : SpawnFailure} {done calls : List UndoCall} (h : s.Inv)
    (hparent : s.parent = .undo failure done calls) :
    ∃ event s', event.Smooth ∧ s.step event = some s' := by
  obtain ⟨hp, hc⟩ := h
  rw [hparent] at hp
  obtain ⟨hcalls, -, -, -, -, hkill, hwait, hblamed⟩ := hp
  have hparentStep : ∀ s', s.parentProceeds 0 = some s' →
      ∃ event s', event.Smooth ∧ s.step event = some s' :=
    fun s' hs' => ⟨.parent 0, s', .inl rfl, hs'⟩
  cases calls with
  | nil =>
    refine hparentStep
      { s with launch := s.launch.closeAll, parent := .returned (.error failure) } ?_
    rw [parentProceeds, hparent]
  | cons call calls =>
    have hnext : ∀ t, s.undoCall call = some t →
        s.parentProceeds 0 = some { t with parent := .undo failure (done ++ [call]) calls } := by
      intro t ht
      rw [parentProceeds, hparent]
      exact Option.map_eq_some_iff.2 ⟨t, ht, rfl⟩
    cases call with
    | waitpid =>
      obtain ⟨hfirst, hsignal⟩ := before_waitpid hcalls
      by_cases hzombie : s.child = .zombie
      · exact hparentStep _ (hnext { s with child := .reaped } (if_pos hzombie))
      · have hreaped : s.child ≠ .reaped := fun hfalse => hfirst (hwait.2 hfalse)
        rcases hsignal with hsent | ⟨errno, hfailure⟩
        · have halive : s.child.alive = true := by
            cases hchild : s.child with
            | zombie => exact absurd hchild hzombie
            | reaped => exact absurd hchild hreaped
            | _ => rfl
          exact ⟨.killed, s.dies, .inr (.inr rfl), if_pos ⟨hkill hsent, halive⟩⟩
        · have hexit : s.child = .exit := by
            rcases hc.reported (hblamed errno hfailure).1 with hchild | hchild | hchild
            · exact hchild
            · exact absurd hchild hzombie
            · exact absurd hchild hreaped
          refine ⟨.child, s.dies, .inr (.inl rfl), ?_⟩
          show s.childProceeds = some s.dies
          rw [childProceeds, hexit]
    | closeAll => exact hparentStep _ (hnext _ rfl)
    | closeExecStatus => exact hparentStep _ (hnext _ rfl)
    | kill => exact hparentStep _ (hnext _ rfl)
    | cleanup => exact hparentStep _ (hnext _ rfl)
    | resetFailedStart => exact hparentStep _ (hnext _ rfl)

theorem smooth (h : s.Inv) (hgone : s.parent ≠ .gone)
    (hreturned : ∀ result, s.parent ≠ .returned result) :
    ∃ event s', event.Smooth ∧ s.step event = some s' := by
  have hstep : ∀ s', s.parentProceeds 0 = some s' →
      ∃ event s', event.Smooth ∧ s.step event = some s' :=
    fun s' hs' => ⟨.parent 0, s', .inl rfl, hs'⟩
  cases hparent : s.parent with
  | poll => exact poll_smooth h hparent
  | undo failure done calls => exact undo_smooth h hparent
  | readStatus =>
    obtain ⟨-, -, -, hready⟩ := hparent ▸ h.parent
    cases hstatus : s.execStatus with
    | some errno =>
      refine hstep { s with
        execStatus := none, parent := .closeStatus (.failed (.child errno)) } ?_
      rw [parentProceeds, hparent, hstatus]
    | none =>
      rw [statusReady, hstatus] at hready
      refine hstep { s with parent := .closeStatus .executed } ?_
      rw [parentProceeds, hparent, hstatus]
      exact if_pos hready
  | closeEnds => exact hstep _ (by rw [parentProceeds, hparent])
  | startInstance => exact hstep _ (by rw [parentProceeds, hparent])
  | attach => exact hstep _ (by rw [parentProceeds, hparent])
  | writeGate =>
    by_cases hreader : s.gateReader = true
    · refine hstep { s with gate := true, parent := .closeGate none } ?_
      rw [parentProceeds, hparent]
      exact if_pos hreader
    · refine hstep { s with parent := .closeGate (some 32) } ?_
      rw [parentProceeds, hparent]
      exact if_neg hreader
  | closeGate error =>
    cases error with
    | none => exact hstep _ (by rw [parentProceeds, hparent])
    | some errno => exact hstep _ (by rw [parentProceeds, hparent])
  | closeStatus status =>
    cases status with
    | executed => exact hstep _ (by rw [parentProceeds, hparent])
    | failed failure => exact hstep _ (by rw [parentProceeds, hparent])
  | release => exact hstep _ (by rw [parentProceeds, hparent])
  | returned result => exact absurd hparent (hreturned result)
  | gone => exact absurd hparent hgone

/-- From wherever the daemon stands it gets to the end of the launch, without a timeout or a failure
to help it, and however the two sides take turns they take no more than 31 steps. -/
theorem handshake_ends {config : Config} {events : List Event} (h : Spawned config events s) :
    events.length ≤ 31 ∧ (s.parent = .gone ∨ ∃ more s' result, Transitions.Run step s more s' ∧
      (∀ event ∈ more, event.Smooth) ∧ s'.parent = .returned result) := by
  constructor
  · have hlength := h.length_add_le rank fun _ _ _ hstep => (step_moves hstep).2
    have hstart : ({ config } : Launch).rank = 31 := rfl
    omega
  · by_cases hgone : s.parent = .gone
    · exact .inl hgone
    · have hgood : ∀ t : Launch, t.Inv ∧ t.parent ≠ .gone →
          ¬(∃ result, t.parent = .returned result) → ∃ event t', event.Smooth ∧
            t.step event = some t' ∧ (t'.Inv ∧ t'.parent ≠ .gone) ∧ t'.rank < t.rank := by
        rintro t ⟨hinv, hpresent⟩ hreturned
        obtain ⟨event, t', he, ht⟩ := smooth hinv hpresent (not_exists.1 hreturned)
        exact ⟨event, t', he, ht, ⟨step_inv hinv ht, smooth_present he ht hpresent⟩,
          (step_moves ht).2⟩
      obtain ⟨more, s', hrun, hmore, -, result, hresult⟩ :=
        Transitions.Run.reaches rank hgood ⟨h.inv, hgone⟩
      exact .inr ⟨more, s', result, hrun, hmore, hresult⟩

/-- A launch of a program with pipes in which both sides succeed at once. -/
def quickConfig : Config where
  usePty := false
  privileged := true
  prog := { name := "p" }
  pid := 7

theorem handshake_ends_quick : ∃ events s, Spawned quickConfig events s ∧ events.length ≤ 31 ∧
    (s.parent = .gone ∨ ∃ more s' result, Transitions.Run step s more s' ∧
      (∀ event ∈ more, event.Smooth) ∧ s'.parent = .returned result) :=
  have hrun : Spawned quickConfig [.parent 0, .child] _ := .of_after rfl
  ⟨_, _, hrun, handshake_ends hrun⟩

/-- The process is in the tree of its program. -/
def InTree (s : Launch) : Prop :=
  s.prog.inst.tree = { active := true, members := [s.config.pid] }

/-- The daemon undoes the launch, and has killed the child or is about to; or it has undone it. -/
def Undoing (s : Launch) : Prop :=
  (∃ failure done calls, s.parent = .undo failure done calls ∧
      (.kill ∈ calls ∨ s.sigkill = true)) ∨
    ∃ failure, s.parent = .returned (.error failure) ∧ s.child = .reaped

theorem Waiting.not_executed (h : s.Waiting) (hexecuted : s.executed = true) : False := by
  rw [h.2.1.executed] at hexecuted
  cases hexecuted

theorem kill_of_executed {failure : SpawnFailure} (hc : s.Consistent) (hblamed : s.Blamed failure)
    (hexecuted : s.executed = true) : .kill ∈ undoCalls failure := by
  cases failure with
  | child errno =>
    obtain ⟨hreported, -⟩ := hblamed errno rfl
    cases hreported.symm.trans (hc.executed hexecuted).2
  | _ => simp [undoCalls]

/-- A program that runs is in its tree, unless the daemon is killing it or has gone itself; one that
has outlived the daemon was sent the signal it asked for, unless the daemon had gone before the
child looked for it or the image made the kernel forget the request. -/
theorem launch_supervised {config : Config} {events : List Event} (h : Spawned config events s)
    (hexecuted : s.executed = true) :
    (s.InTree ∨ s.Undoing ∨ s.parent = .gone) ∧
      (s.parent = .gone → s.expectedParent = true → config.setuidImage = false →
        s.sigterm = true ∨ s.child.alive = false) := by
  obtain ⟨hp, hc⟩ := h.inv
  rw [← h.config]
  constructor
  · have hattached : s.prog = s.config.attached → s.InTree := fun hprog => by
      rw [InTree, hprog, Config.attached]
    cases hparent : s.parent with
    | closeEnds =>
      rw [hparent] at hp
      exact (hp.2.2.not_executed hexecuted).elim
    | startInstance =>
      rw [hparent] at hp
      exact (hp.2.2.not_executed hexecuted).elim
    | attach =>
      rw [hparent] at hp
      exact (hp.2.2.not_executed hexecuted).elim
    | writeGate =>
      rw [hparent] at hp
      exact (hp.2.2.not_executed hexecuted).elim
    | closeGate error =>
      rw [hparent] at hp
      exact .inl (hattached hp.2.1)
    | poll =>
      rw [hparent] at hp
      exact .inl (hattached hp.2.1)
    | readStatus =>
      rw [hparent] at hp
      exact .inl (hattached hp.2.1)
    | closeStatus status =>
      rw [hparent] at hp
      cases status with
      | executed => exact .inl (hattached hp.2.1)
      | failed failure => exact .inl (hattached hp.2.1)
    | undo failure done calls =>
      rw [hparent] at hp
      obtain ⟨hcalls, -, -, -, -, hkill, -, hblamed⟩ := hp
      have hmem := kill_of_executed hc.consistent hblamed hexecuted
      rw [hcalls, List.mem_append] at hmem
      exact .inr (.inl (.inl ⟨failure, done, calls, hparent, hmem.symm.imp_right hkill⟩))
    | release =>
      rw [hparent] at hp
      exact .inl (hattached hp.2.1)
    | returned result =>
      rw [hparent] at hp
      cases result with
      | error failure => exact .inr (.inl (.inr ⟨failure, hparent, hp.2.2.1⟩))
      | ok =>
        obtain ⟨-, ⟨nowMs, hprog⟩, -⟩ := hp
        refine .inl ?_
        rw [InTree, hprog, Config.started, Config.attached]
    | gone => exact .inr (.inr rfl)
  · intro hgone hexpected himage
    cases hchild : s.child with
    | running =>
      rw [hchild] at hc
      obtain ⟨-, -, -, -, -, -, hwarned⟩ := hc
      exact .inl (hwarned hgone hexpected himage)
    | zombie => exact .inr rfl
    | reaped => exact .inr rfl
    | closeEnds =>
      rw [hchild] at hc
      cases hexecuted.symm.trans hc.2.executed
    | recordParent =>
      rw [hchild] at hc
      cases hexecuted.symm.trans hc.2.executed
    | readGate =>
      rw [hchild] at hc
      cases hexecuted.symm.trans hc.2.executed
    | closeGate =>
      rw [hchild] at hc
      cases hexecuted.symm.trans hc.2.executed
    | setup calls =>
      rw [hchild] at hc
      cases hexecuted.symm.trans hc.2.2.2.1.executed
    | report errno =>
      rw [hchild] at hc
      obtain ⟨-, -, hfalse, -⟩ := hc
      cases hexecuted.symm.trans hfalse
    | exit =>
      rw [hchild] at hc
      obtain ⟨-, -, hfalse, -⟩ := hc
      cases hexecuted.symm.trans hfalse

/-- The steps of a launch that starts the program, from the fork to the `execve`. -/
def quickStart : List Event :=
  List.replicate 5 (Event.parent 0) ++ List.replicate 9 Event.child

theorem launch_supervised_quick : ∃ s, Spawned quickConfig quickStart s ∧ s.executed = true ∧
    ((s.InTree ∨ s.Undoing ∨ s.parent = .gone) ∧
      (s.parent = .gone → s.expectedParent = true → quickConfig.setuidImage = false →
        s.sigterm = true ∨ s.child.alive = false)) :=
  have hrun : Spawned quickConfig quickStart _ := .of_after rfl
  ⟨_, hrun, rfl, launch_supervised hrun rfl⟩

/-- The gate opens at its end of file as well: a child that could not be attached executes the
program outside its tree when it is faster than the daemon's signal. -/
theorem executed_outside_tree : ∃ events s, Spawned quickConfig events s ∧ s.executed = true ∧
    ¬s.InTree ∧ s.child = .running :=
  have hrun : Spawned quickConfig
      (List.replicate 2 (Event.parent 0) ++ [Event.attachFails, .parent 0] ++
        List.replicate 9 Event.child) _ :=
    .of_after rfl
  ⟨_, _, hrun, rfl, by unfold InTree; decide, rfl⟩

theorem Spawned.of_ok {config : Config} {events : List Event} (h : Spawned config events s)
    (hresult : s.parent = .returned (.ok ())) :
    s.reported = false ∧ (s.child = .running ∧ s.executed = true ∨ s.child = .zombie) ∧
      ∃ nowMs, s.prog = config.started nowMs := by
  obtain ⟨hp, hc⟩ := h.inv
  rw [hresult] at hp
  obtain ⟨-, ⟨nowMs, hprog⟩, hreported, hchild⟩ := hp
  have hconfig := h.config
  refine ⟨hreported, ?_, nowMs, hconfig ▸ hprog⟩
  rcases hchild with hchild | hchild
  · rw [hchild] at hc
    obtain ⟨-, hexecuted, -⟩ := hc
    exact .inl ⟨hchild, hexecuted⟩
  · exact .inr hchild

/-- After a failure the child is reaped and the program is as it was but for its generation, and the
errno of a failed set-up is that of the call that failed. -/
theorem Spawned.of_error {config : Config} {events : List Event} {failure : SpawnFailure}
    (h : Spawned config events s) (hresult : s.parent = .returned (.error failure)) :
    s.child = .reaped ∧ s.prog = config.aborted ∧ ∀ errno, failure = .child errno →
      s.executed = false ∧ ∃ call, s.failure = some (call, errno) := by
  obtain ⟨hp, hc⟩ := h.inv
  rw [hresult] at hp
  obtain ⟨-, hprog, hchild, hblamed⟩ := hp
  have hconfig := h.config
  refine ⟨hchild, hconfig ▸ hprog, fun errno hfailure => ?_⟩
  obtain ⟨hreported, hcall⟩ := hblamed errno hfailure
  refine ⟨?_, hcall⟩
  by_contra hexecuted
  cases hreported.symm.trans (hc.consistent.executed (Bool.not_eq_false _ ▸ hexecuted)).2

/-- The daemon opens the gate for a child that is there. -/
def Opens (s s' : Launch) (event : Event) : Prop :=
  s.parent = .writeGate ∧ s'.parent = .closeGate none ∧ s.child.alive = true ∧
    ∃ nowMs, event = .parent nowMs

/-- The call that fails. -/
def Fails (s : Launch) (event : Event) : SpawnFailure → Prop
  | .attach => event = .attachFails
  | .gate errno => event = .writeGateFails errno ∨ s.child.alive = false ∧ errno = 32
  | .timeout => event = .pollTimesOut
  | .status errno => event = .pollFails errno ∨ event = .readStatusFails errno
  | .child errno => s.reported = true ∧ ∃ call, s.failure = some (call, errno)

/-- Where the daemon opens the gate, the child has the read end unless it has died. -/
theorem gateReader_iff (h : s.Inv) (hparent : s.parent = .writeGate) :
    s.gateReader = true ↔ s.child.alive = true := by
  obtain ⟨hp, hc⟩ := h
  rw [hparent] at hp
  obtain ⟨hlaunch, -, -, -, hchild⟩ := hp
  have hends : ∀ usePty, (ChildLaunchContext.prepared usePty).closeParentEnds.slots.contains
        .gateRead = false ∧
      (ChildLaunchContext.prepared usePty).slots.contains .gateRead = true ∧
      (ChildLaunchContext.prepared usePty).closeChildEnds.slots.contains .gateRead = true := by
    decide
  obtain ⟨hclosed, hprepared, hchildEnds⟩ := hends s.config.usePty
  rw [gateReader, hlaunch, Config.gated, hclosed, Bool.false_or]
  rcases hchild with hchild | hchild | hchild | hchild
  · rw [hchild] at hc ⊢
    rw [hc.1, hprepared]
    exact iff_of_true rfl rfl
  · rw [hchild] at hc ⊢
    rw [hc.1, hchildEnds]
    exact iff_of_true rfl rfl
  · rw [hchild] at hc ⊢
    rw [hc.1, hchildEnds]
    exact iff_of_true rfl rfl
  · rw [hchild] at hc ⊢
    rw [hc.1]
    exact iff_of_false (by simp) (by simp [Child.alive])

theorem parent_step {event : Event} (hs : s.step event = some s') :
    s'.parent = s.parent ∨ s'.parent = .gone ∨
      (∃ nowMs, event = .parent nowMs ∧ s.parentProceeds nowMs = some s') ∨
      s.parentFails event = some s' := by
  unfold step at hs
  split at hs
  · exact .inr (.inr (.inl ⟨_, rfl, hs⟩))
  · exact .inl (childProceeds_moves hs).2.1
  · unfold childFails at hs
    split at hs
    · obtain ⟨-, hs⟩ := Option.ite_none_right_eq_some.1 hs
      cases hs
      exact .inl rfl
    · cases hs
  · obtain ⟨-, hs⟩ := Option.ite_none_right_eq_some.1 hs
    cases hs
    exact .inl rfl
  · obtain ⟨-, hs⟩ := Option.ite_none_right_eq_some.1 hs
    cases hs
    exact .inl rfl
  · split at hs
    · cases hs
    · cases hs
      exact .inr (.inl rfl)
  · exact .inr (.inr (.inr hs))

theorem opens_of_step {event : Event} (h : s.Inv) (hs : s.step event = some s')
    (hbefore : ¬s.parent.opened = true) (hafter : s'.parent.opened = true) :
    s.Opens s' event := by
  rcases parent_step hs with hsame | hgone | ⟨nowMs, hevent, hnext⟩ | hnext
  · exact absurd (hsame ▸ hafter) hbefore
  · rw [hgone] at hafter
    cases hafter
  · rw [parentProceeds] at hnext
    cases hparent : s.parent with
    | writeGate =>
      rw [hparent] at hnext
      dsimp only at hnext
      split at hnext
      · rename_i hreader
        cases hnext
        exact ⟨hparent, rfl, (gateReader_iff h hparent).1 hreader, nowMs, hevent⟩
      · cases hnext
        cases hafter
    | closeGate error =>
      rw [hparent] at hnext hbefore
      cases error with
      | none => exact absurd rfl hbefore
      | some errno =>
        cases hnext
        cases hafter
    | closeStatus status =>
      rw [hparent] at hnext hbefore
      cases status with
      | executed => exact absurd rfl hbefore
      | failed failure =>
        cases hnext
        cases hafter
    | undo failure done calls =>
      rw [hparent] at hnext
      cases calls with
      | nil =>
        cases hnext
        cases hafter
      | cons call calls =>
        obtain ⟨t, -, rfl⟩ := Option.map_eq_some_iff.1 hnext
        cases hafter
    | closeEnds =>
      rw [hparent] at hnext
      cases hnext
      cases hafter
    | startInstance =>
      rw [hparent] at hnext
      cases hnext
      cases hafter
    | attach =>
      rw [hparent] at hnext
      cases hnext
      cases hafter
    | poll => exact absurd (hparent ▸ rfl) hbefore
    | readStatus => exact absurd (hparent ▸ rfl) hbefore
    | release => exact absurd (hparent ▸ rfl) hbefore
    | returned result =>
      rw [hparent] at hnext
      cases hnext
    | gone =>
      rw [hparent] at hnext
      cases hnext
  · unfold parentFails at hnext
    split at hnext
    case h_6 => cases hnext
    all_goals
      obtain ⟨-, hnext⟩ := Option.ite_none_right_eq_some.1 hnext
      cases hnext
      cases hafter

theorem fails_of_step {event : Event} {failure : SpawnFailure} (h : s.Inv)
    (hs : s.step event = some s') (hbefore : ¬s.parent.failure = some failure)
    (hafter : s'.parent.failure = some failure) : s.Fails event failure := by
  rcases parent_step hs with hsame | hgone | ⟨nowMs, hevent, hnext⟩ | hnext
  · exact absurd (hsame ▸ hafter) hbefore
  · rw [hgone] at hafter
    cases hafter
  · rw [parentProceeds] at hnext
    cases hparent : s.parent with
    | writeGate =>
      rw [hparent] at hnext
      dsimp only at hnext
      split at hnext
      · cases hnext
        cases hafter
      · rename_i hreader
        cases hnext
        cases hafter
        refine .inr ⟨Bool.eq_false_iff.2 fun halive => ?_, rfl⟩
        exact hreader ((gateReader_iff h hparent).2 halive)
    | readStatus =>
      rw [hparent] at hnext
      cases hstatus : s.execStatus with
      | some errno =>
        rw [hstatus] at hnext
        cases hnext
        cases hafter
        exact h.child.consistent.execStatus errno hstatus
      | none =>
        rw [hstatus] at hnext
        obtain ⟨-, hnext⟩ := Option.ite_none_right_eq_some.1 hnext
        cases hnext
        cases hafter
    | closeGate error =>
      rw [hparent] at hnext hbefore
      cases error with
      | none =>
        cases hnext
        cases hafter
      | some errno =>
        cases hnext
        exact absurd hafter hbefore
    | closeStatus status =>
      rw [hparent] at hnext hbefore
      cases status with
      | executed =>
        cases hnext
        cases hafter
      | failed failure =>
        cases hnext
        exact absurd hafter hbefore
    | undo failure done calls =>
      rw [hparent] at hnext hbefore
      cases calls with
      | nil =>
        cases hnext
        exact absurd hafter hbefore
      | cons call calls =>
        obtain ⟨t, -, rfl⟩ := Option.map_eq_some_iff.1 hnext
        exact absurd hafter hbefore
    | poll =>
      rw [hparent] at hnext
      obtain ⟨-, hnext⟩ := Option.ite_none_right_eq_some.1 hnext
      cases hnext
      cases hafter
    | closeEnds =>
      rw [hparent] at hnext
      cases hnext
      cases hafter
    | startInstance =>
      rw [hparent] at hnext
      cases hnext
      cases hafter
    | attach =>
      rw [hparent] at hnext
      cases hnext
      cases hafter
    | release =>
      rw [hparent] at hnext
      cases hnext
      cases hafter
    | returned result =>
      rw [hparent] at hnext
      cases hnext
    | gone =>
      rw [hparent] at hnext
      cases hnext
  · unfold parentFails at hnext
    split at hnext
    case h_6 => cases hnext
    all_goals
      obtain ⟨-, hnext⟩ := Option.ite_none_right_eq_some.1 hnext
      cases hnext
      cases hafter
    · exact rfl
    · exact .inl rfl
    · exact rfl
    · exact .inl rfl
    · exact .inr rfl

/-- What the daemon answers is what has become of the child. A success is one for a child that was
attached and there when the gate was opened; a failure is that of a call that failed. -/
theorem launch_verdict {config : Config} {events : List Event} {result : Except SpawnFailure Unit}
    (h : Spawned config events s) (hresult : s.parent = .returned result) :
    (result = .ok () → s.reported = false ∧
      (s.child = .running ∧ s.executed = true ∨ s.child = .zombie) ∧
      (∃ nowMs, s.prog = config.started nowMs) ∧
      ∃ before event after t t', events = before ++ event :: after ∧ Spawned config before t ∧
        t.step event = some t' ∧ t.Opens t' event) ∧
    ∀ failure, result = .error failure → s.child = .reaped ∧ s.prog = config.aborted ∧
      (∀ errno, failure = .child errno →
        s.executed = false ∧ ∃ call, s.failure = some (call, errno)) ∧
      ∃ before event after t t', events = before ++ event :: after ∧ Spawned config before t ∧
        t.step event = some t' ∧ t.Fails event failure := by
  refine ⟨fun hok => ?_, fun failure hfailure => ?_⟩
  · subst hok
    obtain ⟨hreported, hchild, hprog⟩ := h.of_ok hresult
    obtain ⟨before, event, after, t, t', hevents, hrun, hstep, hbefore, hafter⟩ :=
      h.established (p := fun t => t.parent.opened = true) (by simp [Parent.opened])
        (by rw [hresult]; rfl)
    exact ⟨hreported, hchild, hprog, before, event, after, t, t', hevents, hrun, hstep,
      opens_of_step (Spawned.inv hrun) hstep hbefore hafter⟩
  · subst hfailure
    obtain ⟨hchild, hprog, hblamed⟩ := h.of_error hresult
    obtain ⟨before, event, after, t, t', hevents, hrun, hstep, hbefore, hafter⟩ :=
      h.established (p := fun t => t.parent.failure = some failure) (by simp [Parent.failure])
        (by rw [hresult]; rfl)
    exact ⟨hchild, hprog, hblamed, before, event, after, t, t', hevents, hrun, hstep,
      fails_of_step (Spawned.inv hrun) hstep hbefore hafter⟩

/-- A launch whose `chdir` fails. -/
def lostConfig : Config := { quickConfig with prog := { name := "p", workDir := "/gone" } }

def lostStart : List Event :=
  List.replicate 5 (Event.parent 0) ++ List.replicate 8 Event.child ++
    [Event.childFails 2, .child, .child] ++ List.replicate 7 (Event.parent 0)

theorem launch_verdict_lost : ∃ s, Spawned lostConfig lostStart s ∧
    s.parent = .returned (.error (.child 2)) ∧
    (((.error (.child 2) : Except SpawnFailure Unit) = .ok () → s.reported = false ∧
      (s.child = .running ∧ s.executed = true ∨ s.child = .zombie) ∧
      (∃ nowMs, s.prog = lostConfig.started nowMs) ∧
      ∃ before event after t t', lostStart = before ++ event :: after ∧
        Spawned lostConfig before t ∧ t.step event = some t' ∧ t.Opens t' event) ∧
    ∀ failure, (.error (.child 2) : Except SpawnFailure Unit) = .error failure →
      s.child = .reaped ∧ s.prog = lostConfig.aborted ∧
      (∀ errno, failure = .child errno →
        s.executed = false ∧ ∃ call, s.failure = some (call, errno)) ∧
      ∃ before event after t t', lostStart = before ++ event :: after ∧
        Spawned lostConfig before t ∧ t.step event = some t' ∧ t.Fails event failure) :=
  have hrun : Spawned lostConfig lostStart _ := .of_after rfl
  ⟨_, hrun, rfl, launch_verdict hrun rfl⟩

theorem settled_started (config : Config) :
    config.answered.releaseParentStreams.closeAll.Settled ∧
      config.answered.releaseParentStreams.closeAll.released =
        ChildLaunchContext.streams config.usePty := by
  rw [Config.answered, Config.polling, Config.gated]
  cases config.usePty <;> decide

theorem settled_undone (config : Config) (failure : SpawnFailure) :
    (config.undone failure (undoCalls failure)).closeAll.Settled ∧
      (config.undone failure (undoCalls failure)).closeAll.released = [] := by
  cases failure <;>
    rw [Config.undone, Config.failedLaunch] <;>
    simp only [Config.answered, Config.polling, Config.gated, undoCalls] <;>
    cases config.usePty <;> decide

/-- `create_pty` has closed the master, and the destructor closes its number again. -/
def ClosedTwice (usePty : Bool) (fails : ChildLaunchContext.PrepareCall → Bool) : Prop :=
  usePty = true ∧ fails .posixOpenpt = false ∧ fails .setUpPty = true

instance (usePty : Bool) (fails : ChildLaunchContext.PrepareCall → Bool) :
    Decidable (ClosedTwice usePty fails) := inferInstanceAs (Decidable (_ ∧ _))

def Whole (launch : ChildLaunchContext) : Prop :=
  launch.slots = launch.opened ∧ launch.closed = [] ∧ launch.released = []

theorem Whole.put {launch : ChildLaunchContext} (h : Whole launch) (ends : List LaunchEnd) :
    Whole (launch.put ends) := by
  obtain ⟨hslots, hclosed, hreleased⟩ := h
  refine ⟨?_, hclosed, hreleased⟩
  rw [ChildLaunchContext.put, hslots]

theorem Whole.settled {launch : ChildLaunchContext} (h : Whole launch) :
    launch.closeAll.Settled := by
  obtain ⟨hslots, hclosed, hreleased⟩ := h
  refine ⟨rfl, ?_⟩
  show ((launch.closed ++ launch.slots) ++ launch.released).Perm launch.opened
  rw [hclosed, hreleased, hslots, List.nil_append, List.append_nil]

theorem prepareCall_whole {launch : ChildLaunchContext}
    {fails : ChildLaunchContext.PrepareCall → Bool} {call : ChildLaunchContext.PrepareCall}
    (h : Whole launch) (hcall : call = .setUpPty → fails .setUpPty = false) :
    Whole (launch.prepareCall fails call).2 := by
  cases call with
  | pipeStdout =>
    unfold ChildLaunchContext.prepareCall
    cases fails .pipeStdout
    · exact h.put _
    · exact h
  | pipeStderr =>
    unfold ChildLaunchContext.prepareCall
    cases fails .pipeStderr
    · exact h.put _
    · exact h
  | posixOpenpt =>
    unfold ChildLaunchContext.prepareCall
    cases fails .posixOpenpt
    · exact h.put _
    · exact h
  | setUpPty =>
    unfold ChildLaunchContext.prepareCall
    rw [hcall rfl]
    exact h
  | pipeGate =>
    unfold ChildLaunchContext.prepareCall
    cases fails .pipeGate
    · exact h.put _
    · exact h
  | pipeExecStatus =>
    unfold ChildLaunchContext.prepareCall
    cases fails .pipeExecStatus
    · exact h.put _
    · exact h
  | setCloexec => exact h

/-- The calls up to the first that fails lose no descriptor, unless the terminal is given up. -/
theorem runCalls_whole {launch : ChildLaunchContext}
    {fails : ChildLaunchContext.PrepareCall → Bool} {calls : List ChildLaunchContext.PrepareCall}
    (h : Whole launch) (hcalls : .setUpPty ∈ calls → fails .setUpPty = false) :
    Whole (ChildLaunchContext.runCalls fails calls launch).2 := by
  induction calls generalizing launch with
  | nil => exact h
  | cons call calls ih =>
    have hnext := prepareCall_whole h fun hcall => hcalls (hcall ▸ List.mem_cons_self)
    rw [ChildLaunchContext.runCalls]
    split
    · exact ih hnext fun hmem => hcalls (List.mem_cons_of_mem _ hmem)
    · exact hnext

/-- A launch that cannot be prepared gives back what it has opened, each descriptor once; only a
terminal that is given up half way has its master closed twice. -/
theorem prepare_fails (usePty : Bool) (fails : ChildLaunchContext.PrepareCall → Bool) :
    if ClosedTwice usePty fails then
      (ChildLaunchContext.prepare usePty fails).2.closeAll.opened = [.ptyMaster] ∧
        (ChildLaunchContext.prepare usePty fails).2.closeAll.closed = [.ptyMaster, .ptyMaster]
    else (ChildLaunchContext.prepare usePty fails).2.closeAll.Settled := by
  split
  · rename_i htwice
    obtain ⟨rfl, hopen, hset⟩ := htwice
    have hfirst : ({ usePty := true } : ChildLaunchContext).prepareCall fails .posixOpenpt =
        (true, { usePty := true, slots := [.ptyMaster], opened := [.ptyMaster] }) := by
      simp [ChildLaunchContext.prepareCall, hopen, ChildLaunchContext.put]
    have hsecond : ({ usePty := true, slots := [.ptyMaster], opened := [.ptyMaster] } :
        ChildLaunchContext).prepareCall fails .setUpPty = (false,
          { usePty := true, slots := [.ptyMaster], opened := [.ptyMaster], closed :=
            [.ptyMaster] }) := by
      simp [ChildLaunchContext.prepareCall, hset]
    simp [ChildLaunchContext.prepare, ChildLaunchContext.prepareCalls, ChildLaunchContext.runCalls,
      hfirst, hsecond, ChildLaunchContext.closeAll]
  · rename_i honce
    apply Whole.settled
    cases usePty with
    | false => exact runCalls_whole ⟨rfl, rfl, rfl⟩ fun hmem => absurd hmem (by decide)
    | true =>
      cases hset : fails .setUpPty with
      | false => exact runCalls_whole ⟨rfl, rfl, rfl⟩ fun _ => hset
      | true =>
        cases hopen : fails .posixOpenpt with
        | false => exact absurd ⟨rfl, hopen, hset⟩ honce
        | true =>
          simp [ChildLaunchContext.prepare, ChildLaunchContext.prepareCalls,
            ChildLaunchContext.runCalls, ChildLaunchContext.prepareCall, hopen, Whole]

/-- No descriptor of a launch is lost: in every failure of its preparation, and in every
interleaving of the daemon and the child, what was opened is closed exactly once or handed to the
program, and a program that runs has none of the descriptors of the handshake. The exception is a
terminal that is given up half way, whose master is closed twice. -/
theorem launch_descriptors (config : Config) :
    (∀ fails, if ClosedTwice config.usePty fails then
        (ChildLaunchContext.prepare config.usePty fails).2.closeAll.opened = [.ptyMaster] ∧
          (ChildLaunchContext.prepare config.usePty fails).2.closeAll.closed =
            [.ptyMaster, .ptyMaster]
      else (ChildLaunchContext.prepare config.usePty fails).2.closeAll.Settled) ∧
    ∀ events s result, Spawned config events s → s.parent = .returned result →
      s.launch.Settled ∧
      s.launch.released =
        (if result.isOk then ChildLaunchContext.streams config.usePty else []) ∧
      (s.child = .running → s.childLaunch.slots = []) := by
  refine ⟨prepare_fails config.usePty, fun events s result h hresult => ?_⟩
  obtain ⟨hp, hc⟩ := h.inv
  have hconfig := h.config
  have hchild : s.child = .running → s.childLaunch.slots = [] := by
    intro hrunning
    rw [hrunning] at hc
    exact hc.1
  rw [hresult] at hp
  cases result with
  | ok =>
    obtain ⟨hlaunch, -⟩ := hp
    obtain ⟨hsettled, hreleased⟩ := settled_started config
    rw [hlaunch, hconfig]
    exact ⟨hsettled, hreleased, hchild⟩
  | error failure =>
    obtain ⟨hlaunch, -⟩ := hp
    obtain ⟨hsettled, hreleased⟩ := settled_undone config failure
    rw [hlaunch, hconfig]
    exact ⟨hsettled, hreleased, hchild⟩

/-- The answers of `real_spawn_prog` that a handshake with this end stands for: any errno, where the
daemon sets none. -/
def Outcome (pid : Nat) : Except SpawnFailure Unit → SpawnOutcome → Prop
  | .ok (), outcome => outcome = .started pid
  | .error failure, outcome =>
    ∃ left, outcome = .aborted pid left ∧ ∀ errno ∈ failure.errno, left = errno

/-- The call of `real_spawn_prog` as the daemon takes it, in one step with an answer of the system,
is what every interleaving of the handshake comes to. -/
theorem realSpawnProg_refined {config : Config} {events : List Event}
    {result : Except SpawnFailure Unit} {ω : System} {server : Server} (site : SpawnSite)
    (h : Spawned config events s) (hresult : s.parent = .returned result)
    (hfind : server.findProg config.prog.name = some config.prog)
    (hclock : result = .ok () → ω.clock server.ticks = s.prog.lastStartupMs)
    (hanswer : Outcome config.pid result (ω.spawn server.ticks config.prog)) :
    (server.realSpawnProg ω config.prog.name site).1 = result.isOk ∧
    (server.realSpawnProg ω config.prog.name site).2.findProg config.prog.name = some s.prog ∧
    ∀ failure, result = .error failure → ∀ errno ∈ failure.errno,
      (server.realSpawnProg ω config.prog.name site).2.errno = errno := by
  have hends := Server.realSpawnProg_ends ω server config.prog.name site
  generalize server.realSpawnProg ω config.prog.name site = call at hends ⊢
  cases hends with
  | unknown hp => cases hfind.symm.trans hp
  | refused p errno hp ha =>
    cases hfind.symm.trans hp
    cases result with
    | ok => cases hanswer.symm.trans ha
    | error failure =>
      obtain ⟨left, hanswer, -⟩ := hanswer
      cases hanswer.symm.trans ha
  | started p pid hp ha =>
    cases hfind.symm.trans hp
    cases result with
    | error failure =>
      obtain ⟨left, hanswer, -⟩ := hanswer
      cases hanswer.symm.trans ha
    | ok =>
      cases hanswer.symm.trans ha
      obtain ⟨-, -, nowMs, hprog⟩ := h.of_ok hresult
      refine ⟨rfl, ?_, fun failure hfailure => by cases hfailure⟩
      rw [hclock rfl, hprog]
      exact Registry.findProg_setProg_self (keeps_spawnStarted config.pid nowMs) hfind
  | aborted p pid errno hp ha =>
    cases hfind.symm.trans hp
    cases result with
    | ok => cases hanswer.symm.trans ha
    | error failure =>
      obtain ⟨left, hanswer, hleft⟩ := hanswer
      cases hanswer.symm.trans ha
      obtain ⟨-, hprog, -⟩ := h.of_error hresult
      refine ⟨rfl, ?_, fun failure' hfailure => ?_⟩
      · rw [hprog]
        exact Registry.findProg_setProg_self (keeps_spawnAborted config.pid) hfind
      · cases hfailure
        exact hleft

/-- A system that answers as the launch without `chdir` ends. -/
def lostSystem : System where
  clock := fun _ => 0
  unixTime := fun _ => 0
  members := fun _ _ => []
  spawn := fun _ _ => .aborted 7 2
  send := fun _ => true
  loadProgCfg := fun _ => .ok []
  userFromUid := fun _ _ => .error 0
  uidFromUsername := fun _ _ => .error 0
  euid := 0
  egid := 0
  pid := 1
  strerror := fun _ => ""

theorem realSpawnProg_refined_lost : ∃ s, Spawned lostConfig lostStart s ∧
    s.parent = .returned (.error (.child 2)) ∧
    ((Server.realSpawnProg lostSystem "p" .task { pmTinyProgs := [lostConfig.prog] }).1 = false ∧
    (Server.realSpawnProg lostSystem "p" .task
      { pmTinyProgs := [lostConfig.prog] }).2.findProg "p" =
      some s.prog ∧
    ∀ failure, (.error (.child 2) : Except SpawnFailure Unit) = .error failure →
      ∀ errno ∈ failure.errno,
      (Server.realSpawnProg lostSystem "p" .task { pmTinyProgs := [lostConfig.prog] }).2.errno =
        errno) :=
  have hrun : Spawned lostConfig lostStart _ := .of_after rfl
  ⟨_, hrun, rfl, realSpawnProg_refined .task hrun rfl rfl (fun h => by cases h)
    ⟨2, rfl, fun _ h => Option.some.inj h⟩⟩

end Launch
end PmTiny.Handshake
