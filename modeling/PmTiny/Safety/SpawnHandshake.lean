import PmTiny.Daemon.SpawnHandshake

namespace PmTiny.Handshake
set_option autoImplicit true

def Config.begun (config : Config) : ProgInfo :=
  { config.prog with inst := config.prog.inst.start config.pid }

def Config.attached (config : Config) : ProgInfo :=
  { config.prog with
    inst := { config.prog.inst.start config.pid with
      tree := { active := true, members := [config.pid] } } }

def Config.started (config : Config) (nowMs : Int) : ProgInfo :=
  { config.attached with
    lastStartupMs := nowMs, heartbeatActionDueMs := 0, state := .starting }

def Config.aborted (config : Config) : ProgInfo :=
  { config.prog with inst := (config.prog.inst.start config.pid).resetFailedStart }

/-- The slots of the daemon while it is waiting for the child, and once it has its answer. -/
def Config.gated (config : Config) : ChildLaunchContext :=
  (ChildLaunchContext.prepared config.usePty).closeParentEnds

def Config.polling (config : Config) : ChildLaunchContext :=
  config.gated.closeFds [.gateWrite]

def Config.answered (config : Config) : ChildLaunchContext :=
  config.polling.closeFds [.execStatusRead]

def Config.failedLaunch (config : Config) : SpawnFailure → ChildLaunchContext
  | .attach => config.gated
  | .gate _ | .timeout => config.polling
  | .status _ | .child _ => config.answered

def UndoCall.onLaunch (launch : ChildLaunchContext) : UndoCall → ChildLaunchContext
  | .closeAll => launch.closeAll
  | .closeExecStatus => launch.closeFds [.execStatusRead]
  | _ => launch

def Config.undone (config : Config) (failure : SpawnFailure) (done : List UndoCall) :
    ChildLaunchContext :=
  done.foldl UndoCall.onLaunch (config.failedLaunch failure)

namespace Launch

structure Silent (s : Launch) : Prop where
  executed : s.executed = false
  failure : s.failure = none
  reported : s.reported = false
  execStatus : s.execStatus = none

/-- What the child has left behind. -/
structure Consistent (s : Launch) : Prop where
  executed : s.executed = true → s.failure = none ∧ s.reported = false
  reported : s.reported = true → ∃ call errno, s.failure = some (call, errno)
  execStatus : ∀ errno, s.execStatus = some errno →
    s.reported = true ∧ ∃ call, s.failure = some (call, errno)

/-- A child that has looked for its parent does not outlive it without a signal. -/
def Warned (s : Launch) : Prop :=
  s.parent = .gone → s.expectedParent = true → s.config.setuidImage = false → s.sigterm = true

def setupSlots (usePty : Bool) (calls : List ChildCall) : List LaunchEnd :=
  if usePty = false ∧ .dupStreams ∈ calls then [.stdoutWrite, .stderrWrite, .execStatusWrite]
  else [.execStatusWrite]

def ChildHolds (s : Launch) : Child → Prop
  | .closeEnds => s.childLaunch = ChildLaunchContext.prepared s.config.usePty ∧ s.Silent
  | .recordParent | .readGate | .closeGate =>
    s.childLaunch = (ChildLaunchContext.prepared s.config.usePty).closeChildEnds ∧ s.Silent
  | .setup calls =>
    calls ∈ (childCalls s.config).tails ∧ calls ≠ [] ∧
      s.childLaunch.slots = setupSlots s.config.usePty calls ∧ s.Silent ∧
      (.setPdeathsig ∉ calls → s.pdeathsig = true) ∧ (.checkParent ∉ calls → s.Warned)
  | .report errno =>
    .execStatusWrite ∈ s.childLaunch.slots ∧ .gateWrite ∉ s.childLaunch.slots ∧
      s.executed = false ∧ (∃ call, s.failure = some (call, errno)) ∧ s.reported = false ∧
      s.execStatus = none
  | .exit =>
    .execStatusWrite ∈ s.childLaunch.slots ∧ .gateWrite ∉ s.childLaunch.slots ∧
      s.executed = false ∧ s.Consistent
  | .running =>
    s.childLaunch.slots = [] ∧ s.executed = true ∧ s.failure = none ∧ s.reported = false ∧
      s.execStatus = none ∧ (s.config.setuidImage = false → s.pdeathsig = true) ∧ s.Warned
  | .zombie | .reaped => s.childLaunch.slots = [] ∧ s.Consistent

/-- The gate is shut, and the child is before it or has died there. -/
def Waiting (s : Launch) : Prop :=
  s.gate = false ∧ s.Silent ∧
    (s.child = .closeEnds ∨ s.child = .recordParent ∨ s.child = .readGate ∨ s.child = .zombie)

def Unread (s : Launch) : Prop :=
  s.child ≠ .reaped ∧ (s.reported = true → s.execStatus.isSome = true)

def Ended (s : Launch) : Prop := s.reported = false ∧ (s.child = .running ∨ s.child = .zombie)

def Blamed (s : Launch) (failure : SpawnFailure) : Prop :=
  ∀ errno, failure = .child errno →
    s.reported = true ∧ ∃ call, s.failure = some (call, errno)

def ParentHolds (s : Launch) : Parent → Prop
  | .closeEnds =>
    s.launch = ChildLaunchContext.prepared s.config.usePty ∧ s.prog = s.config.prog ∧ s.Waiting
  | .startInstance => s.launch = s.config.gated ∧ s.prog = s.config.prog ∧ s.Waiting
  | .attach => s.launch = s.config.gated ∧ s.prog = s.config.begun ∧ s.Waiting
  | .writeGate => s.launch = s.config.gated ∧ s.prog = s.config.attached ∧ s.Waiting
  | .closeGate _ => s.launch = s.config.gated ∧ s.prog = s.config.attached ∧ s.Unread
  | .poll => s.launch = s.config.polling ∧ s.prog = s.config.attached ∧ s.Unread
  | .readStatus =>
    s.launch = s.config.polling ∧ s.prog = s.config.attached ∧ s.Unread ∧ s.statusReady = true
  | .closeStatus .executed =>
    s.launch = s.config.polling ∧ s.prog = s.config.attached ∧ s.Ended
  | .closeStatus (.failed failure) =>
    s.launch = s.config.polling ∧ s.prog = s.config.attached ∧ s.child ≠ .reaped ∧
      s.Blamed failure ∧ s.config.failedLaunch failure = s.config.answered
  | .undo failure done calls =>
    undoCalls failure = done ++ calls ∧ s.launch = s.config.undone failure done ∧
      s.prog = { s.config.prog with inst := s.prog.inst } ∧
      s.prog.inst.generation = s.config.prog.inst.generation + 1 ∧
      (.resetFailedStart ∈ done → s.prog = s.config.aborted) ∧
      (.kill ∈ done → s.sigkill = true) ∧ (.waitpid ∈ done ↔ s.child = .reaped) ∧ s.Blamed failure
  | .release => s.launch = s.config.answered ∧ s.prog = s.config.attached ∧ s.Ended
  | .returned (.ok ()) =>
    s.launch = s.config.answered.releaseParentStreams.closeAll ∧
      (∃ nowMs, s.prog = s.config.started nowMs) ∧ s.Ended
  | .returned (.error failure) =>
    s.launch = (s.config.undone failure (undoCalls failure)).closeAll ∧
      s.prog = s.config.aborted ∧ s.child = .reaped ∧ s.Blamed failure
  | .gone => s.launch.slots = []

structure Inv (s : Launch) : Prop where
  parent : s.ParentHolds s.parent
  child : s.ChildHolds s.child

variable {s s' : Launch}

theorem gateWrite_gated (config : Config) : .gateWrite ∈ config.gated.slots := by
  rw [Config.gated]
  cases config.usePty <;> decide

theorem polling_ends (config : Config) :
    .gateWrite ∉ config.polling.slots ∧ .execStatusWrite ∉ config.polling.slots := by
  rw [Config.polling, Config.gated]
  cases config.usePty <;> decide

theorem ChildHolds.frame {c : Child} {launch : ChildLaunchContext} {prog : ProgInfo} {p : Parent}
    {gate sigkill : Bool} (h : s.ChildHolds c) (hp : p ≠ .gone) :
    ({ s with
        launch := launch, prog := prog, parent := p, gate := gate,
        sigkill := sigkill } : Launch).ChildHolds c := by
  cases c with
  | closeEnds => exact ⟨h.1, ⟨h.2.1, h.2.2, h.2.3, h.2.4⟩⟩
  | recordParent => exact ⟨h.1, ⟨h.2.1, h.2.2, h.2.3, h.2.4⟩⟩
  | readGate => exact ⟨h.1, ⟨h.2.1, h.2.2, h.2.3, h.2.4⟩⟩
  | closeGate => exact ⟨h.1, ⟨h.2.1, h.2.2, h.2.3, h.2.4⟩⟩
  | setup calls =>
    obtain ⟨hcalls, hne, hslots, hsilent, hdeath, -⟩ := h
    exact ⟨hcalls, hne, hslots, ⟨hsilent.1, hsilent.2, hsilent.3, hsilent.4⟩, hdeath,
      fun _ hgone => absurd hgone hp⟩
  | report errno => exact h
  | exit =>
    obtain ⟨hwrite, hgate, hexecuted, hconsistent⟩ := h
    exact ⟨hwrite, hgate, hexecuted, ⟨hconsistent.1, hconsistent.2, hconsistent.3⟩⟩
  | running =>
    obtain ⟨hslots, hexecuted, hfailure, hreported, hstatus, hdeath, -⟩ := h
    exact ⟨hslots, hexecuted, hfailure, hreported, hstatus, hdeath,
      fun hgone => absurd hgone hp⟩
  | zombie => exact ⟨h.1, ⟨h.2.1, h.2.2, h.2.3⟩⟩
  | reaped => exact ⟨h.1, ⟨h.2.1, h.2.2, h.2.3⟩⟩

theorem Silent.consistent (h : s.Silent) : s.Consistent where
  executed := fun _ => ⟨h.failure, h.reported⟩
  reported := fun hreported => by
    rw [h.reported] at hreported
    cases hreported
  execStatus := fun errno hstatus => by
    rw [h.execStatus] at hstatus
    cases hstatus

theorem ChildHolds.consistent {c : Child} (h : s.ChildHolds c) : s.Consistent := by
  cases c with
  | closeEnds => exact h.2.consistent
  | recordParent => exact h.2.consistent
  | readGate => exact h.2.consistent
  | closeGate => exact h.2.consistent
  | setup calls => exact h.2.2.2.1.consistent
  | report errno =>
    obtain ⟨-, -, hexecuted, -, hreported, hstatus⟩ := h
    refine ⟨fun hfalse => ?_, fun hfalse => ?_, fun errno' hfalse => ?_⟩
    · rw [hexecuted] at hfalse
      cases hfalse
    · rw [hreported] at hfalse
      cases hfalse
    · rw [hstatus] at hfalse
      cases hfalse
  | exit => exact h.2.2.2
  | running =>
    obtain ⟨-, -, hfailure, hreported, hstatus, -⟩ := h
    refine ⟨fun _ => ⟨hfailure, hreported⟩, fun hfalse => ?_, fun errno hfalse => ?_⟩
    · rw [hreported] at hfalse
      cases hfalse
    · rw [hstatus] at hfalse
      cases hfalse
  | zombie => exact h.2
  | reaped => exact h.2

theorem ChildHolds.read {c : Child} {p : Parent} (h : s.ChildHolds c) (hp : p ≠ .gone) :
    ({ s with execStatus := none, parent := p } : Launch).ChildHolds c := by
  have hconsistent : ({ s with execStatus := none, parent := p } : Launch).Consistent :=
    ⟨h.consistent.1, h.consistent.2, fun _ hstatus => by cases hstatus⟩
  cases c with
  | closeEnds => exact ⟨h.1, ⟨h.2.1, h.2.2, h.2.3, rfl⟩⟩
  | recordParent => exact ⟨h.1, ⟨h.2.1, h.2.2, h.2.3, rfl⟩⟩
  | readGate => exact ⟨h.1, ⟨h.2.1, h.2.2, h.2.3, rfl⟩⟩
  | closeGate => exact ⟨h.1, ⟨h.2.1, h.2.2, h.2.3, rfl⟩⟩
  | setup calls =>
    obtain ⟨hcalls, hne, hslots, hsilent, hdeath, -⟩ := h
    exact ⟨hcalls, hne, hslots, ⟨hsilent.1, hsilent.2, hsilent.3, rfl⟩, hdeath,
      fun _ hgone => absurd hgone hp⟩
  | report errno =>
    obtain ⟨hwrite, hgate, hexecuted, hfailure, hreported, -⟩ := h
    exact ⟨hwrite, hgate, hexecuted, hfailure, hreported, rfl⟩
  | exit => exact ⟨h.1, h.2.1, h.2.2.1, hconsistent⟩
  | running =>
    obtain ⟨hslots, hexecuted, hfailure, hreported, -, hdeath, -⟩ := h
    exact ⟨hslots, hexecuted, hfailure, hreported, rfl, hdeath, fun hgone => absurd hgone hp⟩
  | zombie => exact ⟨h.1, hconsistent⟩
  | reaped => exact ⟨h.1, hconsistent⟩

theorem mem_undoCalls (failure : SpawnFailure) :
    .waitpid ∈ undoCalls failure ∧ .resetFailedStart ∈ undoCalls failure := by
  cases failure <;> simp [undoCalls]

theorem execStatusWrite_prepared (usePty : Bool) :
    .execStatusWrite ∈ (ChildLaunchContext.prepared usePty).slots ∧
      .execStatusWrite ∈ (ChildLaunchContext.prepared usePty).closeChildEnds.slots := by
  cases usePty <;> decide

theorem execStatusWrite_setupSlots (usePty : Bool) (calls : List ChildCall) :
    .execStatusWrite ∈ setupSlots usePty calls := by
  unfold setupSlots
  split <;> decide

/-- A child that has no end of `exec_status` to write to has executed its program or is gone. -/
theorem ChildHolds.of_statusEof {c : Child} (h : s.ChildHolds c) (heof : s.statusEof = true) :
    c = .running ∨ c = .zombie ∨ c = .reaped := by
  have hclosed : .execStatusWrite ∉ s.childLaunch.slots := by
    rw [statusEof, Bool.not_eq_true', Bool.or_eq_false_iff] at heof
    exact fun hmem => Bool.eq_false_iff.1 heof.2 (List.contains_iff_mem.2 hmem)
  obtain ⟨hprepared, hclosedEnds⟩ := execStatusWrite_prepared s.config.usePty
  cases c with
  | closeEnds => exact absurd (h.1 ▸ hprepared) hclosed
  | recordParent => exact absurd (h.1 ▸ hclosedEnds) hclosed
  | readGate => exact absurd (h.1 ▸ hclosedEnds) hclosed
  | closeGate => exact absurd (h.1 ▸ hclosedEnds) hclosed
  | setup calls =>
    exact absurd (h.2.2.1 ▸ execStatusWrite_setupSlots s.config.usePty calls) hclosed
  | report errno => exact absurd h.1 hclosed
  | exit => exact absurd h.1 hclosed
  | running => exact .inl rfl
  | zombie => exact .inr (.inl rfl)
  | reaped => exact .inr (.inr rfl)

theorem blamed_other {failure : SpawnFailure} (h : ∀ errno, failure ≠ .child errno) :
    s.Blamed failure := fun errno hfailure => absurd hfailure (h errno)

theorem Waiting.unread (h : s.Waiting) : s.Unread := by
  obtain ⟨-, hsilent, hchild⟩ := h
  refine ⟨?_, fun hreported => ?_⟩
  · rcases hchild with hchild | hchild | hchild | hchild <;> rw [hchild] <;> simp
  · rw [hsilent.reported] at hreported
    cases hreported

theorem Waiting.frame {launch : ChildLaunchContext} {prog : ProgInfo} {parent : Parent}
    (h : s.Waiting) : Waiting { s with launch := launch, prog := prog, parent := parent } :=
  ⟨h.1, ⟨h.2.1.1, h.2.1.2, h.2.1.3, h.2.1.4⟩, h.2.2⟩

theorem undo_parent {failure : SpawnFailure} (hlaunch : s.launch = s.config.failedLaunch failure)
    (hprog : s.prog = s.config.begun ∨ s.prog = s.config.attached) (hchild : s.child ≠ .reaped)
    (hblamed : s.Blamed failure) :
    (s.undo failure).ParentHolds (s.undo failure).parent := by
  refine ⟨rfl, hlaunch, ?_, ?_, fun h => absurd h List.not_mem_nil,
    fun h => absurd h List.not_mem_nil, ⟨fun h => absurd h List.not_mem_nil,
      fun h => absurd h hchild⟩, hblamed⟩
  · show s.prog = { s.config.prog with inst := s.prog.inst }
    rcases hprog with hprog | hprog <;> rw [hprog] <;> rfl
  · show s.prog.inst.generation = s.config.prog.inst.generation + 1
    rcases hprog with hprog | hprog <;> rw [hprog] <;> rfl

theorem undoCall_inv {failure : SpawnFailure} {done calls : List UndoCall} {call : UndoCall}
    (hp : s.ParentHolds (.undo failure done (call :: calls))) (hc : s.ChildHolds s.child)
    (hparent : s.parent ≠ .gone) (hs : s.undoCall call = some s') :
    s'.ParentHolds (.undo failure (done ++ [call]) calls) ∧ s'.ChildHolds s'.child ∧
      s'.parent = s.parent := by
  obtain ⟨hcalls, hlaunch, hprog, hgeneration, hreset, hkill, hwait, hblamed⟩ := hp
  have hcalls' : undoCalls failure = (done ++ [call]) ++ calls := by
    rw [hcalls, List.append_assoc]
    rfl
  have hundone : s.config.undone failure (done ++ [call]) = UndoCall.onLaunch s.launch call := by
    rw [hlaunch, Config.undone, Config.undone, List.foldl_append]
    rfl
  have hold : ∀ other, other ≠ call → (other ∈ done ++ [call] ↔ other ∈ done) := by
    intro other hother
    simp [hother]
  cases call with
  | closeAll =>
    cases hs
    refine ⟨⟨hcalls', hundone.symm, hprog, hgeneration, ?_, ?_, ?_, hblamed⟩, ?_, rfl⟩
    · rwa [hold _ (by decide)]
    · rwa [hold _ (by decide)]
    · rwa [hold _ (by decide)]
    · exact hc.frame hparent
  | closeExecStatus =>
    cases hs
    refine ⟨⟨hcalls', hundone.symm, hprog, hgeneration, ?_, ?_, ?_, hblamed⟩, ?_, rfl⟩
    · rwa [hold _ (by decide)]
    · rwa [hold _ (by decide)]
    · rwa [hold _ (by decide)]
    · exact hc.frame hparent
  | kill =>
    cases hs
    refine ⟨⟨hcalls', ?_, hprog, hgeneration, ?_, fun _ => rfl, ?_, hblamed⟩, ?_, rfl⟩
    · exact hundone.symm
    · rwa [hold _ (by decide)]
    · rwa [hold _ (by decide)]
    · exact hc.frame hparent
  | waitpid =>
    rw [undoCall] at hs
    split at hs
    · rename_i hzombie
      cases hs
      rw [hzombie] at hc
      refine ⟨⟨hcalls', hundone.symm, hprog, hgeneration, ?_, ?_, ?_, hblamed⟩,
        ⟨hc.1, ⟨hc.2.1, hc.2.2, hc.2.3⟩⟩, rfl⟩
      · rwa [hold _ (by decide)]
      · rwa [hold _ (by decide)]
      · exact ⟨fun _ => rfl, fun _ => by simp⟩
    · cases hs
  | cleanup =>
    cases hs
    refine ⟨⟨hcalls', hundone.symm, ?_, hgeneration, ?_, ?_, ?_, hblamed⟩, ?_, rfl⟩
    · show s.prog.cleanup = { s.config.prog with inst := s.prog.cleanup.inst }
      rw [hprog]
      rfl
    · intro hmem
      show s.prog.cleanup = s.config.aborted
      rw [hreset ((hold _ (by decide)).1 hmem)]
      rfl
    · rwa [hold _ (by decide)]
    · rwa [hold _ (by decide)]
    · exact hc.frame hparent
  | resetFailedStart =>
    cases hs
    refine ⟨⟨hcalls', hundone.symm, ?_, hgeneration, fun _ => ?_, ?_, ?_, hblamed⟩, ?_, rfl⟩
    · show ({ s.prog with inst := s.prog.inst.resetFailedStart } : ProgInfo) =
        { s.config.prog with inst := s.prog.inst.resetFailedStart }
      rw [hprog]
    · show ({ s.prog with inst := s.prog.inst.resetFailedStart } : ProgInfo) = s.config.aborted
      rw [Config.aborted, hprog, ManagedProcessInstance.resetFailedStart, hgeneration]
      rfl
    · rwa [hold _ (by decide)]
    · rwa [hold _ (by decide)]
    · exact hc.frame hparent

theorem parentProceeds_inv {nowMs : Int} (h : s.Inv) (hs : s.parentProceeds nowMs = some s') :
    s'.Inv := by
  obtain ⟨hp, hc⟩ := h
  rw [parentProceeds] at hs
  cases hparent : s.parent with
  | closeEnds =>
    rw [hparent] at hp hs
    obtain ⟨hlaunch, hprog, hwaiting⟩ := hp
    cases hs
    refine ⟨⟨?_, hprog, ?_⟩, hc.frame (by simp)⟩
    · exact congrArg ChildLaunchContext.closeParentEnds hlaunch
    · exact hwaiting.frame
  | startInstance =>
    rw [hparent] at hp hs
    obtain ⟨hlaunch, hprog, hwaiting⟩ := hp
    cases hs
    refine ⟨⟨hlaunch, ?_, ?_⟩, hc.frame (by simp)⟩
    · show ({ s.prog with inst := s.prog.inst.start s.config.pid } : ProgInfo) = s.config.begun
      rw [hprog]
      rfl
    · exact hwaiting.frame
  | attach =>
    rw [hparent] at hp hs
    obtain ⟨hlaunch, hprog, hwaiting⟩ := hp
    cases hs
    refine ⟨⟨hlaunch, ?_, ?_⟩, hc.frame (by simp)⟩
    · show ({ s.prog with inst := { s.prog.inst with tree := _ } } : ProgInfo) = s.config.attached
      rw [hprog]
      rfl
    · exact hwaiting.frame
  | writeGate =>
    rw [hparent] at hp hs
    obtain ⟨hlaunch, hprog, hwaiting⟩ := hp
    dsimp only at hs
    split at hs
    · cases hs
      exact ⟨⟨hlaunch, hprog, hwaiting.unread⟩, hc.frame (by simp)⟩
    · cases hs
      exact ⟨⟨hlaunch, hprog, hwaiting.unread⟩, hc.frame (by simp)⟩
  | closeGate error =>
    rw [hparent] at hp hs
    obtain ⟨hlaunch, hprog, hunread⟩ := hp
    have hpolling : s.launch.closeFds [.gateWrite] = s.config.polling := by
      rw [hlaunch, Config.polling]
    cases error with
    | none =>
      cases hs
      exact ⟨⟨hpolling, hprog, hunread⟩, hc.frame (by simp)⟩
    | some errno =>
      cases hs
      refine ⟨?_, hc.frame (by simp)⟩
      refine undo_parent (s := { s with launch := s.launch.closeFds [.gateWrite] }) hpolling
        (.inr hprog) hunread.1 (blamed_other (by simp))
  | poll =>
    rw [hparent] at hp hs
    obtain ⟨hlaunch, hprog, hunread⟩ := hp
    dsimp only at hs
    split at hs
    · rename_i hready
      cases hs
      exact ⟨⟨hlaunch, hprog, hunread, hready⟩, hc.frame (by simp)⟩
    · cases hs
  | readStatus =>
    rw [hparent] at hp hs
    obtain ⟨hlaunch, hprog, ⟨hreaped, hunread⟩, hready⟩ := hp
    cases hstatus : s.execStatus with
    | some errno =>
      rw [hstatus] at hs
      cases hs
      refine ⟨⟨hlaunch, hprog, hreaped, ?_, rfl⟩, hc.read (by simp)⟩
      intro errno' hfailure
      cases hfailure
      exact hc.consistent.execStatus errno hstatus
    | none =>
      rw [hstatus] at hs
      dsimp only at hs
      split at hs
      · rename_i heof
        cases hs
        refine ⟨⟨hlaunch, hprog, ?_, ?_⟩, hc.read (by simp)⟩
        · show s.reported = false
          rw [hstatus] at hunread
          by_contra hreported
          cases hunread (Bool.not_eq_false _ ▸ hreported)
        · rcases hc.of_statusEof heof with hchild | hchild | hchild
          · exact .inl hchild
          · exact .inr hchild
          · exact absurd hchild hreaped
      · cases hs
  | closeStatus status =>
    rw [hparent] at hp hs
    cases status with
    | executed =>
      obtain ⟨hlaunch, hprog, hended⟩ := hp
      cases hs
      refine ⟨⟨?_, hprog, hended⟩, hc.frame (by simp)⟩
      exact congrArg (ChildLaunchContext.closeFds · [.execStatusRead]) hlaunch
    | failed failure =>
      obtain ⟨hlaunch, hprog, hreaped, hblamed, hanswered⟩ := hp
      cases hs
      refine ⟨?_, hc.frame (by simp)⟩
      refine undo_parent (s := { s with launch := s.launch.closeFds [.execStatusRead] }) ?_
        (.inr hprog) hreaped hblamed
      show s.launch.closeFds [.execStatusRead] = s.config.failedLaunch failure
      rw [hanswered, hlaunch, Config.answered]
  | undo failure done calls =>
    rw [hparent] at hp hs
    cases calls with
    | nil =>
      obtain ⟨hcalls, hlaunch, hprog, hgeneration, hreset, hkill, hwait, hblamed⟩ := hp
      cases hs
      rw [List.append_nil] at hcalls
      obtain ⟨hmemWait, hmemReset⟩ := mem_undoCalls failure
      rw [hcalls] at hmemWait hmemReset
      refine ⟨⟨?_, hreset hmemReset, hwait.1 hmemWait, hblamed⟩, hc.frame (by simp)⟩
      show s.launch.closeAll = (s.config.undone failure (undoCalls failure)).closeAll
      rw [hlaunch, hcalls]
    | cons call calls =>
      obtain ⟨t, ht, rfl⟩ := Option.map_eq_some_iff.1 hs
      obtain ⟨hp', hc', -⟩ := undoCall_inv hp hc (by rw [hparent]; simp) ht
      exact ⟨hp', hc'.frame (by simp)⟩
  | release =>
    rw [hparent] at hp hs
    obtain ⟨hlaunch, hprog, hended⟩ := hp
    cases hs
    refine ⟨⟨?_, ⟨nowMs, ?_⟩, hended⟩, hc.frame (by simp)⟩
    · show s.launch.releaseParentStreams.closeAll = _
      rw [hlaunch]
    · show ({ s.prog with
        lastStartupMs := nowMs
        heartbeatActionDueMs := 0
        state := _ } : ProgInfo) = s.config.started nowMs
      rw [hprog]
      rfl
  | returned result =>
    rw [hparent] at hs
    cases hs
  | gone =>
    rw [hparent] at hs
    cases hs

theorem parentFails_inv {event : Event} (h : s.Inv) (hs : s.parentFails event = some s') :
    s'.Inv := by
  obtain ⟨hp, hc⟩ := h
  unfold parentFails at hs
  split at hs
  · obtain ⟨hparent, hs⟩ := Option.ite_none_right_eq_some.1 hs
    rw [hparent] at hp
    obtain ⟨hlaunch, hprog, hwaiting⟩ := hp
    cases hs
    have hundo : (s.undo .attach).ParentHolds (s.undo .attach).parent :=
      undo_parent hlaunch (.inl hprog) hwaiting.unread.1 (blamed_other (by simp))
    exact ⟨hundo, hc.frame (by simp)⟩
  · obtain ⟨hparent, hs⟩ := Option.ite_none_right_eq_some.1 hs
    rw [hparent] at hp
    obtain ⟨hlaunch, hprog, hwaiting⟩ := hp
    cases hs
    exact ⟨⟨hlaunch, hprog, hwaiting.unread⟩, hc.frame (by simp)⟩
  · obtain ⟨⟨hparent, -⟩, hs⟩ := Option.ite_none_right_eq_some.1 hs
    rw [hparent] at hp
    obtain ⟨hlaunch, hprog, hunread⟩ := hp
    cases hs
    have hundo : (s.undo .timeout).ParentHolds (s.undo .timeout).parent :=
      undo_parent hlaunch (.inr hprog) hunread.1 (blamed_other (by simp))
    exact ⟨hundo, hc.frame (by simp)⟩
  · obtain ⟨hparent, hs⟩ := Option.ite_none_right_eq_some.1 hs
    rw [hparent] at hp
    obtain ⟨hlaunch, hprog, hunread⟩ := hp
    cases hs
    exact ⟨⟨hlaunch, hprog, hunread.1, blamed_other (by simp), rfl⟩,
      hc.frame (by simp)⟩
  · obtain ⟨hparent, hs⟩ := Option.ite_none_right_eq_some.1 hs
    rw [hparent] at hp
    obtain ⟨hlaunch, hprog, hunread, -⟩ := hp
    cases hs
    exact ⟨⟨hlaunch, hprog, hunread.1, blamed_other (by simp), rfl⟩,
      hc.frame (by simp)⟩
  · cases hs

/-- What a step of the child, or its end, can change for the daemon. -/
structure ChildMoves (s s' : Launch) : Prop where
  config : s'.config = s.config
  parent : s'.parent = s.parent
  launch : s'.launch = s.launch
  prog : s'.prog = s.prog
  sigkill : s'.sigkill = s.sigkill
  alive : s.child.alive = true
  child : s'.child ≠ .reaped
  slots : s'.childLaunch.slots ⊆ s.childLaunch.slots
  running : s.child = .running → s'.child = .zombie
  status : s'.reported = s.reported ∧ s'.execStatus = s.execStatus ∨
    (∃ errno, s.child = .report errno) ∧ s'.reported = true ∧ s'.execStatus.isSome = true
  failure : s.failure.isSome = true → s'.failure = s.failure
  waiting : s.Waiting → s.gateEof = false → s'.Waiting

namespace ChildMoves

theorem reaped (h : ChildMoves s s') : s.child ≠ .reaped := by
  intro hreaped
  have halive := h.alive
  rw [hreaped] at halive
  cases halive

theorem unread (h : ChildMoves s s') (hs : s.Unread) : s'.Unread := by
  refine ⟨h.child, fun hreported => ?_⟩
  rcases h.status with ⟨hsame, hstatus⟩ | ⟨-, -, hstatus⟩
  · rw [hstatus]
    exact hs.2 (hsame ▸ hreported)
  · exact hstatus

theorem ended (h : ChildMoves s s') (hs : s.Ended) : s'.Ended := by
  have hrunning : s.child = .running := by
    refine hs.2.resolve_right fun hzombie => ?_
    have halive := h.alive
    rw [hzombie] at halive
    cases halive
  refine ⟨?_, .inr (h.running hrunning)⟩
  rcases h.status with ⟨hsame, -⟩ | ⟨⟨errno, hreport⟩, -⟩
  · rw [hsame]
    exact hs.1
  · rw [hrunning] at hreport
    cases hreport

theorem blamed {failure : SpawnFailure} (h : ChildMoves s s') (hs : s.Blamed failure) :
    s'.Blamed failure := by
  intro errno hfailure
  obtain ⟨hreported, call, hcall⟩ := hs errno hfailure
  refine ⟨?_, call, ?_⟩
  · rcases h.status with ⟨hsame, -⟩ | ⟨-, hsame, -⟩
    · rw [hsame]
      exact hreported
    · exact hsame
  · rw [h.failure (by rw [hcall]; rfl)]
    exact hcall

theorem statusReady (h : ChildMoves s s') (hs : s.statusReady = true) : s'.statusReady = true := by
  rw [Launch.statusReady, Bool.or_eq_true] at hs ⊢
  rcases h.status with ⟨-, hstatus⟩ | ⟨-, -, hstatus⟩
  · rw [hstatus]
    refine hs.imp_right fun heof => ?_
    rw [statusEof, Bool.not_eq_true', Bool.or_eq_false_iff] at heof ⊢
    rw [h.launch]
    refine ⟨heof.1, ?_⟩
    by_contra hopen
    rw [Bool.not_eq_false, List.contains_iff_mem] at hopen
    exact Bool.eq_false_iff.1 heof.2 (List.contains_iff_mem.2 (h.slots hopen))
  · exact .inl hstatus

theorem gateEof_gated (hlaunch : s.launch = s.config.gated) : s.gateEof = false := by
  rw [gateEof, hlaunch, List.contains_iff_mem.2 (gateWrite_gated s.config)]
  rfl

end ChildMoves

theorem ParentHolds.moves {p : Parent} (hp : s.ParentHolds p) (h : ChildMoves s s') :
    s'.ParentHolds p := by
  have hconfig := h.config
  have hlaunch := h.launch
  have hprog := h.prog
  cases p with
  | closeEnds =>
    refine ⟨by rw [hlaunch, hconfig]; exact hp.1, by rw [hprog, hconfig]; exact hp.2.1,
      h.waiting hp.2.2 ?_⟩
    rw [gateEof, hp.1]
    cases s.config.usePty <;> rfl
  | startInstance =>
    exact ⟨by rw [hlaunch, hconfig]; exact hp.1, by rw [hprog, hconfig]; exact hp.2.1,
      h.waiting hp.2.2 (ChildMoves.gateEof_gated hp.1)⟩
  | attach =>
    exact ⟨by rw [hlaunch, hconfig]; exact hp.1, by rw [hprog, hconfig]; exact hp.2.1,
      h.waiting hp.2.2 (ChildMoves.gateEof_gated hp.1)⟩
  | writeGate =>
    exact ⟨by rw [hlaunch, hconfig]; exact hp.1, by rw [hprog, hconfig]; exact hp.2.1,
      h.waiting hp.2.2 (ChildMoves.gateEof_gated hp.1)⟩
  | closeGate error =>
    exact ⟨by rw [hlaunch, hconfig]; exact hp.1, by rw [hprog, hconfig]; exact hp.2.1,
      h.unread hp.2.2⟩
  | poll =>
    exact ⟨by rw [hlaunch, hconfig]; exact hp.1, by rw [hprog, hconfig]; exact hp.2.1,
      h.unread hp.2.2⟩
  | readStatus =>
    exact ⟨by rw [hlaunch, hconfig]; exact hp.1, by rw [hprog, hconfig]; exact hp.2.1,
      h.unread hp.2.2.1, h.statusReady hp.2.2.2⟩
  | closeStatus status =>
    cases status with
    | executed =>
      exact ⟨by rw [hlaunch, hconfig]; exact hp.1, by rw [hprog, hconfig]; exact hp.2.1,
        h.ended hp.2.2⟩
    | failed failure =>
      obtain ⟨hlaunch', hprog', -, hblamed, hanswered⟩ := hp
      exact ⟨by rw [hlaunch, hconfig]; exact hlaunch', by rw [hprog, hconfig]; exact hprog',
        h.child, h.blamed hblamed, by rw [hconfig]; exact hanswered⟩
  | undo failure done calls =>
    obtain ⟨hcalls, hlaunch', hprog', hgeneration, hreset, hkill, hwait, hblamed⟩ := hp
    refine ⟨hcalls, by rw [hlaunch, hconfig]; exact hlaunch', ?_, ?_, ?_, ?_, ?_, h.blamed hblamed⟩
    · rw [hprog, hconfig]
      exact hprog'
    · rw [hprog, hconfig]
      exact hgeneration
    · rw [hprog, hconfig]
      exact hreset
    · rw [h.sigkill]
      exact hkill
    · exact ⟨fun hmem => absurd (hwait.1 hmem) h.reaped, fun hreaped => absurd hreaped h.child⟩
  | release =>
    exact ⟨by rw [hlaunch, hconfig]; exact hp.1, by rw [hprog, hconfig]; exact hp.2.1,
      h.ended hp.2.2⟩
  | returned result =>
    cases result with
    | ok =>
      exact ⟨by rw [hlaunch, hconfig]; exact hp.1, by rw [hprog, hconfig]; exact hp.2.1,
        h.ended hp.2.2⟩
    | error failure =>
      exact absurd hp.2.2.1 h.reaped
  | gone =>
    show s'.launch.slots = []
    rw [hlaunch]
    exact hp

/-- The set-up in its order: the streams before the program, and the signal of the kernel before
the look at the parent. -/
theorem setupCalls_order (usePty changeIdentity changeDir : Bool) :
    ∀ calls ∈ (setupCalls usePty changeIdentity changeDir).tails,
      (.setPdeathsig ∈ calls → .checkParent ∈ calls) ∧
      (calls.head? = some .execve → calls = [.execve]) ∧
      (calls.head? = some .checkParent → .setPdeathsig ∉ calls) ∧
      (calls.head? = some .dupStreams → usePty = false ∧ .dupStreams ∉ calls.tail) ∧
      (calls.head? ≠ some .execve → calls ≠ [] → calls.tail ≠ []) ∧
      (calls.head? ≠ some .checkParent → .checkParent ∈ calls → .checkParent ∈ calls.tail) := by
  cases usePty <;> cases changeIdentity <;> cases changeDir <;> decide

theorem closeFds_slots (launch : ChildLaunchContext) (ends : List LaunchEnd) :
    (launch.closeFds ends).slots = launch.slots.filter (· ∉ ends) := rfl

theorem closeFds_subset (launch : ChildLaunchContext) (ends : List LaunchEnd) :
    (launch.closeFds ends).slots ⊆ launch.slots := fun _ h => (List.mem_filter.1 h).1

theorem childMoves_of {c : Child} {childLaunch : ChildLaunchContext}
    {gate expectedParent pdeathsig executed : Bool} {failure : Option (ChildCall × Nat)}
    (halive : s.child.alive = true) (hrunning : s.child ≠ .running) (hc : c ≠ .reaped)
    (hslots : childLaunch.slots ⊆ s.childLaunch.slots)
    (hfailure : s.failure.isSome = true → failure = s.failure)
    (hwaiting : s.Waiting → s.gateEof = false → gate = false ∧ executed = false ∧
      failure = none ∧ (c = .closeEnds ∨ c = .recordParent ∨ c = .readGate ∨ c = .zombie)) :
    ChildMoves s { s with
      child := c, childLaunch := childLaunch, gate := gate, expectedParent := expectedParent,
      pdeathsig := pdeathsig, executed := executed, failure := failure } where
  config := rfl
  parent := rfl
  launch := rfl
  prog := rfl
  sigkill := rfl
  alive := halive
  child := hc
  slots := hslots
  running := fun h => absurd h hrunning
  status := .inl ⟨rfl, rfl⟩
  failure := hfailure
  waiting := fun h heof => by
    obtain ⟨hgate, hexecuted, hnone, hchild⟩ := hwaiting h heof
    exact ⟨hgate, ⟨hexecuted, hnone, h.2.1.reported, h.2.1.execStatus⟩, hchild⟩

theorem not_waiting (h : s.child ≠ .closeEnds ∧ s.child ≠ .recordParent ∧ s.child ≠ .readGate ∧
    s.child ≠ .zombie) : ¬s.Waiting := by
  rintro ⟨-, -, hchild | hchild | hchild | hchild⟩
  · exact h.1 hchild
  · exact h.2.1 hchild
  · exact h.2.2.1 hchild
  · exact h.2.2.2 hchild

theorem setupSlots_cons {usePty : Bool} {call : ChildCall} {calls : List ChildCall}
    (h : call ≠ .dupStreams) : setupSlots usePty (call :: calls) = setupSlots usePty calls := by
  unfold setupSlots
  simp [h.symm]

theorem setup_next {call : ChildCall} {calls : List ChildCall} {pdeathsig : Bool}
    (h : s.ChildHolds (.setup (call :: calls))) (hcall : call ≠ .execve ∧ call ≠ .dupStreams)
    (hpdeathsig : pdeathsig = s.pdeathsig ∧ call ≠ .setPdeathsig ∨ pdeathsig = true)
    (hwarned : call ≠ .checkParent ∨ s.Warned) :
    ({ s with pdeathsig := pdeathsig, child := .setup calls } : Launch).ChildHolds
      (.setup calls) := by
  obtain ⟨hmem, -, hslots, hsilent, hdeath, hparent⟩ := h
  obtain ⟨-, -, -, -, hnext, -⟩ := setupCalls_order _ _ _ _ hmem
  refine ⟨?_, ?_, ?_, ⟨hsilent.1, hsilent.2, hsilent.3, hsilent.4⟩, ?_, ?_⟩
  · rw [List.mem_tails] at hmem ⊢
    exact (List.suffix_cons call calls).trans hmem
  · refine hnext ?_ (by simp)
    simpa using hcall.1
  · exact hslots.trans (setupSlots_cons hcall.2)
  · intro hnone
    show pdeathsig = true
    rcases hpdeathsig with ⟨rfl, hother⟩ | hset
    · exact hdeath (by simp [hother.symm, hnone])
    · exact hset
  · intro hnone
    rcases hwarned with hother | hwarned
    · exact hparent (by simp [hother.symm, hnone])
    · exact hwarned

theorem setupCall_holds {call : ChildCall} {calls : List ChildCall}
    (h : s.ChildHolds (.setup (call :: calls))) :
    (s.setupCall calls call).ChildHolds (s.setupCall calls call).child := by
  cases call with
  | dupStreams =>
    obtain ⟨hmem, -, hslots, hsilent, hdeath, hwarned⟩ := h
    obtain ⟨-, -, -, hstreams, hnext, -⟩ := setupCalls_order _ _ _ _ hmem
    obtain ⟨hpipes, hlast⟩ := hstreams rfl
    refine ⟨?_, hnext (by simp) (by simp), ?_, ⟨hsilent.1, hsilent.2, hsilent.3, hsilent.4⟩, ?_, ?_⟩
    · rw [List.mem_tails] at hmem ⊢
      exact (List.suffix_cons _ calls).trans hmem
    · show (s.childLaunch.closeFds [.stdoutWrite, .stderrWrite]).slots =
        setupSlots s.config.usePty calls
      rw [closeFds_slots, hslots, setupSlots, setupSlots, hpipes]
      rw [if_pos (by simp), if_neg (fun hmem => hlast hmem.2)]
      decide
    · exact fun hnone => hdeath (by simp [hnone])
    · exact fun hnone => hwarned (by simp [hnone])
  | setPdeathsig => exact setup_next h (by simp) (.inr rfl) (.inl (by simp))
  | checkParent =>
    rw [setupCall]
    split
    · obtain ⟨-, -, hslots, hsilent, -⟩ := h
      refine ⟨?_, ?_, hsilent.executed, ⟨_, rfl⟩, hsilent.reported, hsilent.execStatus⟩
      · rw [hslots]
        exact execStatusWrite_setupSlots _ _
      · show .gateWrite ∉ s.childLaunch.slots
        rw [hslots, setupSlots]
        split <;> decide
    · rename_i hpresent
      refine setup_next h (by simp) (.inl ⟨rfl, by simp⟩) (.inr fun hgone hexpected _ => ?_)
      exact absurd ⟨hexpected, hgone⟩ hpresent
  | execve =>
    obtain ⟨hmem, -, hslots, hsilent, hdeath, hwarned⟩ := h
    obtain ⟨-, hexec, -⟩ := setupCalls_order _ _ _ _ hmem
    cases hexec rfl
    refine ⟨?_, rfl, hsilent.failure, hsilent.reported, hsilent.execStatus, fun himage => ?_,
      hwarned (by decide)⟩
    · show (s.childLaunch.closeFds [.execStatusWrite]).slots = []
      rw [closeFds_slots, hslots]
      cases s.config.usePty <;> decide
    · show (s.pdeathsig && !s.config.setuidImage) = true
      rw [hdeath (by decide), show s.config.setuidImage = false from himage]
      rfl
  | setsid => exact setup_next h (by simp) (.inl ⟨rfl, by simp⟩) (.inl (by simp))
  | openPty => exact setup_next h (by simp) (.inl ⟨rfl, by simp⟩) (.inl (by simp))
  | initgroups => exact setup_next h (by simp) (.inl ⟨rfl, by simp⟩) (.inl (by simp))
  | setresgid => exact setup_next h (by simp) (.inl ⟨rfl, by simp⟩) (.inl (by simp))
  | setresuid => exact setup_next h (by simp) (.inl ⟨rfl, by simp⟩) (.inl (by simp))
  | chdir => exact setup_next h (by simp) (.inl ⟨rfl, by simp⟩) (.inl (by simp))

theorem setupCall_moves {call : ChildCall} {calls : List ChildCall}
    (hchild : s.child = .setup (call :: calls)) (h : s.Silent) :
    ChildMoves s (s.setupCall calls call) := by
  have hnot : ¬s.Waiting := not_waiting (by rw [hchild]; simp)
  have hsame : ∀ {c childLaunch pdeathsig executed failure}, c ≠ .reaped →
      childLaunch.slots ⊆ s.childLaunch.slots →
      ChildMoves s { s with
        child := c, childLaunch := childLaunch, pdeathsig := pdeathsig, executed := executed,
        failure := failure } := by
    intro c childLaunch pdeathsig executed failure hc hslots
    refine childMoves_of (by rw [hchild]; rfl) (by rw [hchild]; simp) hc hslots ?_
      fun hwaiting => absurd hwaiting hnot
    rw [h.failure]
    intro hfalse
    cases hfalse
  cases call with
  | dupStreams => exact hsame (by simp) (closeFds_subset _ _)
  | checkParent =>
    rw [setupCall]
    split
    · exact hsame (by simp) fun _ hmem => hmem
    · exact hsame (by simp) fun _ hmem => hmem
  | execve => exact hsame (by simp) (closeFds_subset _ _)
  | setPdeathsig => exact hsame (by simp) fun _ hmem => hmem
  | setsid => exact hsame (by simp) fun _ hmem => hmem
  | openPty => exact hsame (by simp) fun _ hmem => hmem
  | initgroups => exact hsame (by simp) fun _ hmem => hmem
  | setresgid => exact hsame (by simp) fun _ hmem => hmem
  | setresuid => exact hsame (by simp) fun _ hmem => hmem
  | chdir => exact hsame (by simp) fun _ hmem => hmem

theorem setupCalls_full (usePty changeIdentity changeDir : Bool) :
    setupCalls usePty changeIdentity changeDir ≠ [] ∧
      .setPdeathsig ∈ setupCalls usePty changeIdentity changeDir ∧
      .checkParent ∈ setupCalls usePty changeIdentity changeDir ∧
      ((ChildLaunchContext.prepared usePty).closeChildEnds.closeFds [.gateRead]).slots =
        setupSlots usePty (setupCalls usePty changeIdentity changeDir) := by
  cases usePty <;> cases changeIdentity <;> cases changeDir <;> decide

theorem ChildMoves.inv (h : ChildMoves s s') (hp : s.ParentHolds s.parent)
    (hc : s'.ChildHolds s'.child) : s'.Inv := by
  refine ⟨?_, hc⟩
  rw [h.parent]
  exact hp.moves h

theorem dies_inv (h : s.Inv) (halive : s.child.alive = true) : s.dies.Inv := by
  have hmoves : ChildMoves s s.dies :=
    { config := rfl
      parent := rfl
      launch := rfl
      prog := rfl
      sigkill := rfl
      alive := halive
      child := by simp [dies]
      slots := fun _ hmem => absurd hmem List.not_mem_nil
      running := fun _ => rfl
      status := .inl ⟨rfl, rfl⟩
      failure := fun _ => rfl
      waiting := fun hwaiting _ =>
        ⟨hwaiting.1, ⟨hwaiting.2.1.1, hwaiting.2.1.2, hwaiting.2.1.3, hwaiting.2.1.4⟩,
          .inr (.inr (.inr rfl))⟩ }
  have hconsistent := h.child.consistent
  exact hmoves.inv h.parent ⟨rfl, ⟨hconsistent.1, hconsistent.2, hconsistent.3⟩⟩

theorem closeChildEnds_subset (launch : ChildLaunchContext) :
    launch.closeChildEnds.slots ⊆ launch.slots := closeFds_subset _ _

theorem childProceeds_inv (h : s.Inv) (hs : s.childProceeds = some s') : s'.Inv := by
  obtain ⟨hp, hc⟩ := h
  rw [childProceeds] at hs
  cases hchild : s.child with
  | closeEnds =>
    rw [hchild] at hc hs
    obtain ⟨hlaunch, hsilent⟩ := hc
    cases hs
    refine ChildMoves.inv (s := s) (childMoves_of (by rw [hchild]; rfl) (by rw [hchild]; simp)
      (by simp) (closeChildEnds_subset _) (fun _ => rfl) fun hwaiting _ => ?_) hp ⟨?_, ?_⟩
    · exact ⟨hwaiting.1, hsilent.executed, hsilent.failure, .inr (.inl rfl)⟩
    · exact congrArg ChildLaunchContext.closeChildEnds hlaunch
    · exact ⟨hsilent.1, hsilent.2, hsilent.3, hsilent.4⟩
  | recordParent =>
    rw [hchild] at hc hs
    obtain ⟨hlaunch, hsilent⟩ := hc
    cases hs
    refine ChildMoves.inv (s := s) (childMoves_of (by rw [hchild]; rfl) (by rw [hchild]; simp)
      (by simp) (fun _ hmem => hmem) (fun _ => rfl) fun hwaiting _ => ?_) hp ⟨hlaunch, ?_⟩
    · exact ⟨hwaiting.1, hsilent.executed, hsilent.failure, .inr (.inr (.inl rfl))⟩
    · exact ⟨hsilent.1, hsilent.2, hsilent.3, hsilent.4⟩
  | readGate =>
    rw [hchild] at hc hs
    obtain ⟨hlaunch, hsilent⟩ := hc
    dsimp only at hs
    split at hs
    · rename_i hgate
      cases hs
      refine ChildMoves.inv (s := s) (childMoves_of (by rw [hchild]; rfl) (by rw [hchild]; simp)
        (by simp) (fun _ hmem => hmem) (fun _ => rfl) fun hwaiting _ => ?_) hp ⟨hlaunch, ?_⟩
      · exact absurd hgate (by rw [hwaiting.1]; simp)
      · exact ⟨hsilent.1, hsilent.2, hsilent.3, hsilent.4⟩
    · split at hs
      · rename_i heof
        cases hs
        refine ChildMoves.inv (s := s) (childMoves_of (by rw [hchild]; rfl) (by rw [hchild]; simp)
          (by simp) (fun _ hmem => hmem) (fun _ => rfl) fun _ hopen => ?_) hp ⟨hlaunch, ?_⟩
        · exact absurd heof (by rw [hopen]; simp)
        · exact ⟨hsilent.1, hsilent.2, hsilent.3, hsilent.4⟩
      · cases hs
  | closeGate =>
    rw [hchild] at hc hs
    obtain ⟨hlaunch, hsilent⟩ := hc
    cases hs
    obtain ⟨hne, hdeath, hparent, hslots⟩ := setupCalls_full s.config.usePty
      (s.config.prog.runAs ≠ "" && s.config.privileged) (s.config.prog.workDir ≠ "")
    refine ChildMoves.inv (s := s) (childMoves_of (by rw [hchild]; rfl) (by rw [hchild]; simp)
      (by simp) (closeFds_subset _ _) (fun _ => rfl) fun hwaiting => ?_) hp
      ⟨(List.mem_tails _ _).2 List.suffix_rfl, hne, ?_, ?_, fun hnot => absurd hdeath hnot,
        fun hnot => absurd hparent hnot⟩
    · exact absurd hwaiting (not_waiting (by rw [hchild]; simp))
    · show (s.childLaunch.closeFds [.gateRead]).slots = _
      rw [hlaunch]
      exact hslots
    · exact ⟨hsilent.1, hsilent.2, hsilent.3, hsilent.4⟩
  | setup calls =>
    cases calls with
    | nil =>
      rw [hchild] at hs
      cases hs
    | cons call calls =>
      rw [hchild] at hc hs
      cases hs
      exact (setupCall_moves hchild hc.2.2.2.1).inv hp (setupCall_holds hc)
  | report errno =>
    rw [hchild] at hc hs
    have hnot : ¬s.Waiting := not_waiting (by rw [hchild]; simp)
    have hconsistent := hc.consistent
    obtain ⟨hwrite, hgate, hexecuted, ⟨call, hfailure⟩, hreported, hstatus⟩ := hc
    dsimp only at hs
    split at hs
    · cases hs
      have hmoves :
        ChildMoves s { s with execStatus := some errno, reported := true, child := .exit } :=
        { config := rfl
          parent := rfl
          launch := rfl
          prog := rfl
          sigkill := rfl
          alive := by rw [hchild]; rfl
          child := by simp
          slots := fun _ hmem => hmem
          running := fun hrunning => by
            rw [hchild] at hrunning
            cases hrunning
          status := .inr ⟨⟨errno, hchild⟩, rfl, rfl⟩
          failure := fun _ => rfl
          waiting := fun hwaiting => absurd hwaiting hnot }
      refine hmoves.inv hp ⟨hwrite, hgate, hexecuted, ?_, fun _ => ⟨call, errno, hfailure⟩, ?_⟩
      · intro hfalse
        rw [show _ = false from hexecuted] at hfalse
        cases hfalse
      · intro errno' hsome
        cases hsome
        exact ⟨rfl, call, hfailure⟩
    · cases hs
      exact (childMoves_of (by rw [hchild]; rfl) (by rw [hchild]; simp) (by simp)
        (fun _ hmem => hmem) (fun _ => rfl) fun hwaiting => absurd hwaiting hnot).inv hp
          ⟨hwrite, hgate, hexecuted, hconsistent.1, hconsistent.2, hconsistent.3⟩
  | exit =>
    rw [hchild] at hs
    cases hs
    exact dies_inv ⟨hp, hc⟩ (by rw [hchild]; rfl)
  | running =>
    rw [hchild] at hs
    cases hs
  | zombie =>
    rw [hchild] at hs
    cases hs
  | reaped =>
    rw [hchild] at hs
    cases hs

theorem childFails_inv {errno : Nat} (h : s.Inv) (hs : s.childFails errno = some s') : s'.Inv := by
  obtain ⟨hp, hc⟩ := h
  unfold childFails at hs
  split at hs
  · rename_i call calls hchild
    obtain ⟨-, hs⟩ := Option.ite_none_right_eq_some.1 hs
    cases hs
    rw [hchild] at hc
    obtain ⟨-, -, hslots, hsilent, -⟩ := hc
    refine ChildMoves.inv (s := s) (childMoves_of (by rw [hchild]; rfl) (by rw [hchild]; simp)
      (by simp) (fun _ hmem => hmem) (fun hsome => ?_) fun hwaiting => ?_) hp
      ⟨?_, ?_, hsilent.executed, ⟨call, rfl⟩, hsilent.reported, hsilent.execStatus⟩
    · rw [hsilent.failure] at hsome
      cases hsome
    · exact absurd hwaiting (not_waiting (by rw [hchild]; simp))
    · rw [hslots]
      exact execStatusWrite_setupSlots _ _
    · show .gateWrite ∉ s.childLaunch.slots
      rw [hslots, setupSlots]
      split <;> decide
  · cases hs

theorem daemonDies_inv (h : s.Inv) : s.daemonDies.Inv := by
  obtain ⟨hp, hc⟩ := h
  have hwarned : (s.config.setuidImage = false → s.pdeathsig = true) → s.child.alive = true →
      s.daemonDies.Warned := by
    intro hdeath halive _ _ himage
    show (s.sigterm || (s.pdeathsig && s.child.alive)) = true
    rw [hdeath himage, halive, Bool.true_and, Bool.or_true]
  refine ⟨rfl, ?_⟩
  show s.daemonDies.ChildHolds s.child
  cases hchild : s.child with
  | closeEnds =>
    rw [hchild] at hc
    exact ⟨hc.1, ⟨hc.2.1, hc.2.2, hc.2.3, hc.2.4⟩⟩
  | recordParent =>
    rw [hchild] at hc
    exact ⟨hc.1, ⟨hc.2.1, hc.2.2, hc.2.3, hc.2.4⟩⟩
  | readGate =>
    rw [hchild] at hc
    exact ⟨hc.1, ⟨hc.2.1, hc.2.2, hc.2.3, hc.2.4⟩⟩
  | closeGate =>
    rw [hchild] at hc
    exact ⟨hc.1, ⟨hc.2.1, hc.2.2, hc.2.3, hc.2.4⟩⟩
  | setup calls =>
    rw [hchild] at hc
    obtain ⟨hmem, hne, hslots, hsilent, hdeath, -⟩ := hc
    obtain ⟨horder, -⟩ := setupCalls_order _ _ _ _ hmem
    refine ⟨hmem, hne, hslots, ⟨hsilent.1, hsilent.2, hsilent.3, hsilent.4⟩, hdeath, ?_⟩
    intro hchecked
    exact hwarned (fun _ => hdeath (mt horder hchecked)) (by rw [hchild]; rfl)
  | report errno =>
    rw [hchild] at hc
    exact hc
  | exit =>
    rw [hchild] at hc
    exact ⟨hc.1, hc.2.1, hc.2.2.1, ⟨hc.2.2.2.1, hc.2.2.2.2, hc.2.2.2.3⟩⟩
  | running =>
    rw [hchild] at hc
    obtain ⟨hslots, hexecuted, hfailure, hreported, hstatus, hdeath, -⟩ := hc
    exact ⟨hslots, hexecuted, hfailure, hreported, hstatus, hdeath,
      hwarned hdeath (by rw [hchild]; rfl)⟩
  | zombie =>
    rw [hchild] at hc
    exact ⟨hc.1, ⟨hc.2.1, hc.2.2, hc.2.3⟩⟩
  | reaped =>
    rw [hchild] at hc
    exact ⟨hc.1, ⟨hc.2.1, hc.2.2, hc.2.3⟩⟩

theorem step_inv {event : Event} (h : s.Inv) (hs : s.step event = some s') : s'.Inv := by
  unfold step at hs
  split at hs
  · exact parentProceeds_inv h hs
  · exact childProceeds_inv h hs
  · exact childFails_inv h hs
  · obtain ⟨⟨-, halive⟩, hs⟩ := Option.ite_none_right_eq_some.1 hs
    cases hs
    exact dies_inv h halive
  · obtain ⟨halive, hs⟩ := Option.ite_none_right_eq_some.1 hs
    cases hs
    exact dies_inv h halive
  · split at hs
    · cases hs
    · cases hs
      exact daemonDies_inv h
  · exact parentFails_inv h hs

theorem start_inv (config : Config) : ({ config } : Launch).Inv :=
  ⟨⟨rfl, rfl, rfl, ⟨rfl, rfl, rfl, rfl⟩, .inl rfl⟩, rfl, ⟨rfl, rfl, rfl, rfl⟩⟩

theorem Spawned.inv {config : Config} {events : List Event} (h : Spawned config events s) : s.Inv :=
  h.invariant Inv (fun _ _ _ hinv hstep => step_inv hinv hstep) (start_inv config)

end Launch
end PmTiny.Handshake
