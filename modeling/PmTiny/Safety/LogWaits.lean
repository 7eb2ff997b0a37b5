import PmTiny.Trace.Runs
import PmTiny.Trace.Waiting

namespace PmTiny
set_option autoImplicit true

namespace Server

variable {s s' : Server} {ω : System} {id : Nat} {name : String} {input : Input}

/-- An open session waits for the next generation of the program. -/
def Awaits (s : Server) (name : String) (id : Nat) : Prop :=
  (name, id) ∈ s.pendingLogSessions ∧ s.isOpen id = true

/-- No call of the step strands a client that waits when the step begins. -/
def Attends (ω : System) (s : Server) (input : Input) : Prop :=
  ∀ name id, s.Awaits name id → ∀ e ∈ s.since (s.step ω input), ¬e.Strands ω s.ticks name

/-- A waiting client goes on waiting for a program that backs off, is answered, or is gone. -/
def Settles (s s' : Server) : Prop :=
  ∀ name id, s.Awaits name id → s'.Awaits name id ∧ s'.BackingOff name ∨
    s'.isOpen id = false ∨ ∃ e ∈ s.since s', e.Resolves name id

/-- Every step of a run meets a condition on its input and on the state before it. -/
def Along (K : Server → Input → Prop) (ω : System) : Server → List Input → Prop
  | _, [] => True
  | s, input :: inputs => K s input ∧ Along K ω (s.step ω input) inputs

/-- Clients that wait are known, and wait for a program that backs off as long as they are open. -/
def Patient (s : Server) : Prop :=
  ∀ name id, (name, id) ∈ s.pendingLogSessions →
    s.Known id ∧ (s.isOpen id = true → s.BackingOff name)

theorem Known.open_of_later (hk : s.Known id) (hs : ∀ id, s.Shut id → s'.Shut id)
    (hopen : s'.isOpen id = true) : s.isOpen id = true :=
  open_of_known hk fun hshut => not_shut_of_open hopen (hs id hshut)

theorem Shut.isOpen (h : s.Shut id) : s.isOpen id = false := by
  cases hopen : s.isOpen id with
  | true => exact absurd h (not_shut_of_open hopen)
  | false => rfl

theorem Patient.serves (h : s.Patient) (hs : Serves ω s.ticks (fun _ => False) s (s.step ω input))
    (hattends : Attends ω s input) : (s.step ω input).Patient := by
  intro name id hid
  have hid' := hs.waits _ hid
  obtain ⟨hk, hb⟩ := h name id hid'
  refine ⟨hs.known id hk, fun hopen => ?_⟩
  have hopen' := hk.open_of_later hs.shut hopen
  rcases hs.kept name not_false (hattends name id ⟨hid', hopen'⟩) (hb hopen') with hb | hnone
  · exact hb
  · exact absurd hid (hnone id)

theorem Patient.settles (h : s.Patient) (hs : Serves ω s.ticks (fun _ => False) s (s.step ω input))
    (hattends : Attends ω s input) : s.Settles (s.step ω input) := by
  intro name id ⟨hid, hopen⟩
  rcases hs.told name id hid with hid' | hshut | hunknown | htold
  · cases hopen' : (s.step ω input).isOpen id with
    | true => exact .inl ⟨⟨hid', hopen'⟩, (h.serves hs hattends name id hid').2 hopen'⟩
    | false => exact .inr (.inl rfl)
  · exact .inr (.inl hshut.isOpen)
  · exact absurd (h name id hid).1 hunknown
  · exact .inr (.inr htold)

theorem Patient.join (h : s.Patient) (hs : Serves ω s.ticks (fun _ => False) s s')
    (hreg : s'.toRegistry = s.toRegistry) (hb : s.BackingOff name) (hk : s.Known id) :
    Patient { s' with pendingLogSessions := s.pendingLogSessions ++ [(name, id)] } := by
  intro n k hmem
  rcases List.mem_append.1 hmem with hmem | hmem
  · obtain ⟨hk, hb⟩ := h n k hmem
    refine ⟨hs.known k hk, fun hopen => ?_⟩
    have hb := hb (hk.open_of_later hs.shut hopen)
    rw [← hreg] at hb
    exact hb
  · obtain ⟨rfl, rfl⟩ := Prod.mk.inj (List.mem_singleton.1 hmem)
    refine ⟨hs.known k hk, fun _ => ?_⟩
    rw [← hreg] at hb
    exact hb

theorem patient_step (h : s.Patient) (hattends : Attends ω s input) :
    (s.step ω input).Patient ∧ s.Settles (s.step ω input) := by
  rcases step_serves ω s input with hs | ⟨name, id, hb, hk, s', hs, hreg, hwaits, hhistory, heq⟩
  · exact ⟨h.serves hs hattends, h.settles hs hattends⟩
  · rw [heq]
    have hjoin := h.join hs hreg hb hk
    refine ⟨hjoin, ?_⟩
    intro n k ⟨hmem, hopen⟩
    have hmem' := List.mem_append_left [(name, id)] hmem
    cases hopen' : s'.isOpen k with
    | true => exact .inl ⟨⟨hmem', hopen'⟩, (hjoin n k hmem').2 hopen'⟩
    | false => exact .inr (.inl hopen')

theorem patient_boot (h : boot ω = some s) : s.Patient := by
  rw [boot] at h
  cases hload : ω.loadProgCfg 0 with
  | error e =>
    rw [hload] at h
    cases h
  | ok programs =>
    rw [hload] at h
    simp only at h
    cases hbuild : buildProgDependencyGraph (parseCfg programs) with
    | error e =>
      rw [hbuild] at h
      cases h
    | ok graph =>
      rw [hbuild] at h
      obtain rfl := Option.some.inj h
      have hspawn := serves_spawn (t := 0) (X := fun _ => False) ω
        { pmTinyProgs := parseCfg programs, dependencyGraph := graph, ticks := 1 }
        fun _ _ _ hid => List.not_mem_nil hid
      intro name id hid
      exact absurd (hspawn.waits _ hid) List.not_mem_nil

theorem patient_run (h : s.Patient) (inputs : List Input) (hrun : Along (Attends ω) ω s inputs) :
    (s.run ω inputs).Patient ∧
      Along (fun s input => s.Settles (s.step ω input)) ω s inputs := by
  induction inputs generalizing s with
  | nil => exact ⟨h, trivial⟩
  | cons input inputs ih =>
    obtain ⟨hstep, hsettles⟩ := patient_step h hrun.1
    obtain ⟨hlast, hrest⟩ := ih hstep hrun.2
    exact ⟨hlast, hsettles, hrest⟩

theorem attends_of_none (h : s.pendingLogSessions.isEmpty = true) : Attends ω s input := by
  rintro name id ⟨hid, -⟩
  rw [List.isEmpty_iff.1 h] at hid
  exact absurd hid List.not_mem_nil

def scheduledCall : Call → Bool
  | .realSpawnProg _ .scheduled => true
  | .answer frame => frame.reply.status == 0
  | _ => false

theorem attends_of_scheduled
    (h : (s.since (s.step ω input)).all fun e => scheduledCall e.call) : Attends ω s input := by
  intro name id _ e he hstrands
  have hcall := List.all_eq_true.1 h e he
  rw [Event.Strands] at hstrands
  cases hc : e.call with
  | realSpawnProg n site =>
    rw [hc] at hcall hstrands
    cases site with
    | scheduled => exact hstrands
    | runtime => cases hcall
    | task => cases hcall
    | restart => cases hcall
  | answer frame =>
    rw [hc] at hcall hstrands
    have hstatus : frame.reply.status = 0 := eq_of_beq hcall
    have hrefused : frame.reply.status = -3 := hstrands.2
    rw [hstatus] at hrefused
    exact absurd hrefused (by decide)
  | _ =>
    rw [hc] at hcall
    cases hcall

end Server

/-- Waiting log clients are always resolved: as long as no step strands them, a program that an open
session waits for backs off, and each step leaves such a session waiting or answers it. -/
theorem log_waits_resolved (hboot : Server.boot ω = some s) (inputs : List Input)
    (hrun : Server.Along (Server.Attends ω) ω s inputs) :
    (∀ name id, (s.run ω inputs).Awaits name id → (s.run ω inputs).BackingOff name) ∧
      Server.Along (fun s input => s.Settles (s.step ω input)) ω s inputs := by
  obtain ⟨hpatient, hsettles⟩ := Server.patient_run (Server.patient_boot hboot) inputs hrun
  exact ⟨fun name id h => (hpatient name id h.1).2 h.2, hsettles⟩

/-- A program that backs off for 40 ms after its exit. -/
def backoffSystem : System := simpleSystem [{ name := "p", restart := { delayMs := 40 } }] []

/-- The program exits, a client asks for its live log, and the restart comes. -/
def waitForRestart : List Input :=
  [.connect 1 none, .maintenance false (some [(101, 0)]), .request 1 0 1 (.log "p" .live),
    .maintenance false none]

theorem log_waits_resolved_restarted : ∃ s, Server.boot backoffSystem = some s ∧
    Server.Along (Server.Attends backoffSystem) backoffSystem s waitForRestart ∧
    (s.run backoffSystem (waitForRestart.take 3)).Awaits "p" 1 ∧
    Server.Along (fun s input => s.Settles (s.step backoffSystem input)) backoffSystem s
      waitForRestart := by
  have hcheck : ((Server.boot backoffSystem).any fun s =>
      (List.range 3).all (fun n =>
        (s.run backoffSystem (waitForRestart.take n)).pendingLogSessions.isEmpty) &&
      ((s.run backoffSystem (waitForRestart.take 3)).pendingLogSessions.contains ("p", 1) &&
        ((s.run backoffSystem (waitForRestart.take 3)).isOpen 1 &&
        ((s.run backoffSystem (waitForRestart.take 3)).since
          (s.run backoffSystem waitForRestart)).all fun e => Server.scheduledCall e.call))) =
            true := by
    decide +kernel
  obtain ⟨s, hboot, hs⟩ := (Option.any_eq_true _ _).1 hcheck
  simp only [Bool.and_eq_true] at hs
  obtain ⟨hempty, hwaits, hopen, hcalls⟩ := hs
  have hnone := fun n (hn : n < 3) => List.all_eq_true.1 hempty n (List.mem_range.2 hn)
  have hrun : Server.Along (Server.Attends backoffSystem) backoffSystem s waitForRestart :=
    ⟨Server.attends_of_none (hnone 0 (by decide)), Server.attends_of_none (hnone 1 (by decide)),
      Server.attends_of_none (hnone 2 (by decide)), Server.attends_of_scheduled hcalls, trivial⟩
  exact ⟨s, hboot, hrun, ⟨by simpa using hwaits, hopen⟩,
    (log_waits_resolved hboot waitForRestart hrun).2⟩

/-- A start request for a program that backs off starts it and forgets the client that waits. -/
theorem waiting_client_forgotten : ∃ s p, Server.Reachable backoffSystem s ∧ s.Awaits "p" 1 ∧
    s.findProg "p" = some p ∧ p.live = true ∧ p.restartPending = false := by
  obtain ⟨s, hreach, hs⟩ := Server.runFrom_any (ω := backoffSystem)
    (waitForRestart.take 3 ++ [Input.connect 2 none,
      .request 2 0 1 (.start ⟨.existing, "p", { name := "p" }, false⟩)])
    (fun s => s.pendingLogSessions.contains ("p", 1) && (s.isOpen 1 &&
      (s.findProg "p").any fun p => p.live && !p.restartPending)) (by decide +kernel)
  simp only [Bool.and_eq_true] at hs
  obtain ⟨hwaits, hopen, hprog⟩ := hs
  obtain ⟨p, hp, hlive⟩ := (Option.any_eq_true _ _).1 hprog
  rw [Bool.and_eq_true, Bool.not_eq_true'] at hlive
  exact ⟨s, p, hreach, ⟨by simpa using hwaits, hopen⟩, hp, hlive.1, hlive.2⟩

end PmTiny
