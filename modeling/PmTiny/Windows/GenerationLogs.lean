import PmTiny.Windows.Turns

namespace PmTiny.Windows
set_option autoImplicit true

variable {s s' : Daemon} {n : String} {g : Nat}

open Daemon

/-- What the calls of a history carry, in the order in which they were made. -/
def carried (f : Call → List UInt8) : List Event → List UInt8
  | [] => []
  | e :: es => carried f es ++ f e.call

theorem carried_append (f : Call → List UInt8) (l es : List Event) :
    carried f (l ++ es) = carried f es ++ carried f l := by
  induction l with
  | nil => rw [List.nil_append, carried, List.append_nil]
  | cons e l ih => rw [List.cons_append, carried, ih, carried, List.append_assoc]

theorem carried_nil {f : Call → List UInt8} {l : List Event} (h : ∀ e ∈ l, f e.call = []) :
    carried f l = [] := by
  induction l with
  | nil => rfl
  | cons e l ih =>
    rw [carried, ih fun e he => h e (List.mem_cons_of_mem _ he), h e List.mem_cons_self,
      List.append_nil]

theorem Daemon.Adds.carried {f : Call → List UInt8} (h : Adds (fun e => f e.call = []) s s') :
    carried f s'.history = carried f s.history := by
  obtain ⟨l, hl, hnone⟩ := h
  rw [hl, carried_append, carried_nil hnone, List.append_nil]

def Call.outputOf (n : String) (g : Nat) : Call → List UInt8
  | .appended m k data => if m = n ∧ k = g then data else []
  | _ => []

def Call.contentOf (key : Nat) : Call → List UInt8
  | .chunk k content => if k = key then content else []
  | _ => []

def Call.logs (n : String) (g : Nat) : Call → Bool
  | .appended m k _ | .processExit m k _ => m = n && k = g
  | _ => false

theorem Call.logs_about {call : Call} (h : call.about n = false) (g : Nat) :
    call.logs n g = false := by
  cases call with
  | processExit m k code =>
    rw [Call.logs, Bool.and_eq_false_iff]
    exact .inl h
  | appended m k data =>
    rw [Call.logs, Bool.and_eq_false_iff]
    exact .inl h
  | _ => rfl

theorem Call.outputOf_nil {call : Call} (h : call.logs n g = false) : call.outputOf n g = [] := by
  cases call with
  | appended m k data =>
    rw [Call.outputOf, if_neg]
    simpa [Call.logs] using h
  | _ => rfl

def Exited (n : String) (g code : Nat) (h : List Event) : Prop :=
  ∃ e ∈ h, e.call = .processExit n g code

/-- A generation was launched with the process id. -/
def Spawned (n : String) (g pid : Nat) (h : List Event) : Prop :=
  ∃ e ∈ h, ∃ site, e.call = .launchProgram n site (.ok pid) ∧ e.core.nextGeneration = g

/-- Both records have the same log, of the same generation with the same end. -/
structure SameLog (p q : ProcessHandle) : Prop where
  generation : q.generation = p.generation
  logTail : q.logTail = p.logTail
  lastPid : q.lastPid = p.lastPid
  hasLastExit : q.hasLastExit = p.hasLastExit
  lastExitCode : q.lastExitCode = p.lastExitCode

theorem Kept.log {p q : ProcessHandle} (h : Kept p q) : SameLog p q :=
  ⟨h.generation, h.logTail, h.lastPid, h.hasLastExit, h.lastExitCode⟩

theorem prepared_log (site : LaunchSite) (p : ProcessHandle) :
    SameLog p (p.prepared site).reset ∧ (p.prepared site).logTail = p.logTail := by
  cases site with
  | dependency => exact ⟨⟨rfl, rfl, rfl, rfl, rfl⟩, rfl⟩
  | due nowMs => exact ⟨⟨rfl, rfl, rfl, rfl, rfl⟩, rfl⟩

/-- What a move means for the log of the generation that a record stands for. -/
inductive LogTurn (s s' : Daemon) (n : String) : Prop
  | absent (h : s'.find n = none) (hh : Adds (fun e => ∀ g, e.call.logs n g = false) s s')
  | fresh (cfg : ProgramConfig) (h : s'.find n = some { config := cfg })
      (hh : Adds (fun e => ∀ g, e.call.logs n g = false) s s')
  | stays (hp : s.find n = some p) (h : s'.find n = some q) (hk : SameLog p q)
      (hh : Adds (fun e => ∀ g, e.call.logs n g = false) s s')
  | appended (hp : s.find n = some p) (h : s'.find n = some q) (chunks : List (List UInt8))
      (hk : SameLog { p with logTail := chunks.foldl BoundedLogTail.append p.logTail } q)
      (hh : s'.history = ⟨.appended n p.generation chunks.flatten, s.toCore⟩ :: s.history)
  | exited (hp : s.find n = some p) (h : s'.find n = some q) (code : Nat)
      (hk : SameLog { p with hasLastExit := true, lastExitCode := code } q)
      (hh : s'.history = ⟨.processExit n p.generation code, s.toCore⟩ :: s.history)
  | launched (hp : s.find n = some p) (h : s'.find n = some q)
      (hg : q.generation = s.nextGeneration) (htail : q.logTail = p.logTail.clear)
      (hnext : s'.nextGeneration = s.nextGeneration + 1)
      (hh : s'.history = ⟨.launchProgram n site (.ok q.lastPid), core⟩ :: s.history)
      (hcore : core.nextGeneration = s.nextGeneration)

theorem Move.logTurn (h : Move s s') (n : String) : LogTurn s s' n := by
  cases h.record n with
  | same h hh =>
    have hlogs := hh.mono fun e he => e.call.logs_about he
    cases hp : s.find n with
    | none => exact .absent (h.trans hp) hlogs
    | some p => exact .stays hp (h.trans hp) ⟨rfl, rfl, rfl, rfl, rfl⟩ hlogs
  | edited hp hk h hh => exact .stays hp h hk.log (.none hh)
  | appended hp hk chunks h hh =>
    exact .appended hp h chunks
      ⟨hk.generation, by rw [hk.logTail], hk.lastPid, hk.hasLastExit, hk.lastExitCode⟩ hh
  | exited hp hk code h hh =>
    exact .exited hp h code ⟨hk.generation, hk.logTail, hk.lastPid, rfl, rfl⟩ hh
  | terminated hp hlive hr hk job hjob h hh =>
    exact .stays hp h
      ⟨hk.generation, hk.logTail, hk.lastPid, hk.hasLastExit, hk.lastExitCode⟩
        (.one hh fun _ => rfl)
  | readied hp hlive hk h hh =>
    exact .stays hp h
      ⟨hk.generation, hk.logTail, hk.lastPid, hk.hasLastExit, hk.lastExitCode⟩ (.none hh)
  | cleared hp hn hk h hh =>
    exact .stays hp h
      ⟨hk.generation, hk.logTail, hk.lastPid, hk.hasLastExit, hk.lastExitCode⟩ (.none hh)
  | started hp hidle hsite h hh hnext =>
    exact .launched hp h rfl (congrArg BoundedLogTail.clear (prepared_log _ _).2) hnext hh rfl
  | refused hp hidle hsite h hh => exact .stays hp h (prepared_log _ _).1 (.one hh fun _ => rfl)
  | completed hqueue hp hlive hc h hh =>
    cases hc with
    | deleteConfig h' ha => exact .absent h (.one hh fun _ => rfl)
    | restart | suppressed | remove | ended =>
      exact .stays hp h ⟨rfl, rfl, rfl, rfl, rfl⟩ (.one hh fun _ => rfl)
  | granted hqueue hp hlive hrestart ha hd h hh =>
    exact .stays hp h ⟨rfl, rfl, rfl, rfl, rfl⟩ (.two hh (fun _ => rfl) fun _ => rfl)
  | dropped hn hp hidle h hh hgone => exact .absent h (.none hh)
  | ensured cfg hname hcfg h hh =>
    cases hp : s.find n with
    | none =>
      rw [hp] at h
      exact .fresh cfg h (.one hh fun _ => rfl)
    | some p =>
      rw [hp] at h
      exact .stays hp h ⟨rfl, rfl, rfl, rfl, rfl⟩ (.one hh fun _ => rfl)
  | swapped hqueue hidle h hh => exact .absent h (.one hh fun _ => rfl)

structure Knows (n : String) (p : ProcessHandle) (h : List Event) : Prop where
  tail : p.logTail.Holds (carried (Call.outputOf n p.generation) h)
  launched : Spawned n p.generation p.lastPid h
  exited : ∀ code, Exited n p.generation code h →
    p.hasLastExit = true ∧ Exited n p.generation p.lastExitCode h

theorem Knows.stays {p q : ProcessHandle} (hs : Knows n p s.history) (hk : SameLog p q)
    (hh : Adds (fun e => ∀ g, e.call.logs n g = false) s s') : Knows n q s'.history := by
  obtain ⟨e, he, hlaunch⟩ := hs.launched
  have houtput := Adds.carried (f := Call.outputOf n p.generation)
    (hh.mono fun e he => Call.outputOf_nil (he p.generation))
  have hexit : ∀ {code}, Exited n p.generation code s'.history →
      Exited n p.generation code s.history := by
    rintro code ⟨e, he, hcall⟩
    rcases hh.cases e he with hold | hnew
    · exact ⟨e, hold, hcall⟩
    · have hlogs := hnew p.generation
      rw [hcall] at hlogs
      simp [Call.logs] at hlogs
  constructor
  · rw [hk.generation, hk.logTail, houtput]
    exact hs.tail
  · rw [hk.generation, hk.lastPid]
    exact ⟨e, hh.mem e he, hlaunch⟩
  · rw [hk.generation, hk.hasLastExit, hk.lastExitCode]
    intro code hcode
    obtain ⟨hlast, e, he, hcall⟩ := hs.exited code (hexit hcode)
    exact ⟨hlast, e, hh.mem e he, hcall⟩

theorem foldl_append_holds {tail : BoundedLogTail} {output : List UInt8} (h : tail.Holds output)
    (chunks : List (List UInt8)) :
    (chunks.foldl BoundedLogTail.append tail).Holds (output ++ chunks.flatten) := by
  induction chunks generalizing tail output with
  | nil =>
    rw [List.foldl_nil, List.flatten_nil, List.append_nil]
    exact h
  | cons chunk chunks ih =>
    rw [List.foldl_cons, List.flatten_cons, ← List.append_assoc]
    exact ih (h.append chunk)

theorem foldl_append_capacity (tail : BoundedLogTail) (chunks : List (List UInt8)) :
    (chunks.foldl BoundedLogTail.append tail).capacity = tail.capacity := by
  induction chunks generalizing tail with
  | nil => rfl
  | cons chunk chunks ih => rw [List.foldl_cons, ih, BoundedLogTail.append_capacity]

theorem Knows.appended {p q : ProcessHandle} {core : Core} (hs : Knows n p s.history)
    (chunks : List (List UInt8))
    (hk : SameLog { p with logTail := chunks.foldl BoundedLogTail.append p.logTail } q) :
    Knows n q (⟨.appended n p.generation chunks.flatten, core⟩ :: s.history) := by
  obtain ⟨hgeneration, htail, hpid, hlast, hcode⟩ := hk
  simp only at hgeneration htail hpid hlast hcode
  obtain ⟨e, he, hlaunch⟩ := hs.launched
  constructor
  · rw [hgeneration, htail, carried, Call.outputOf, if_pos ⟨rfl, rfl⟩]
    exact foldl_append_holds hs.tail chunks
  · rw [hgeneration, hpid]
    exact ⟨e, List.mem_cons_of_mem _ he, hlaunch⟩
  · rw [hgeneration, hlast, hcode]
    rintro code ⟨e, he, hcall⟩
    rcases List.mem_cons.1 he with rfl | hold
    · cases hcall
    · obtain ⟨hlast, e', he', hcall'⟩ := hs.exited code ⟨e, hold, hcall⟩
      exact ⟨hlast, e', List.mem_cons_of_mem _ he', hcall'⟩

theorem Knows.exit {p q : ProcessHandle} {core : Core} (hs : Knows n p s.history) (code : Nat)
    (hk : SameLog { p with hasLastExit := true, lastExitCode := code } q) :
    Knows n q (⟨.processExit n p.generation code, core⟩ :: s.history) := by
  obtain ⟨hgeneration, htail, hpid, hlast, hcode⟩ := hk
  simp only at hgeneration htail hpid hlast hcode
  obtain ⟨e, he, hlaunch⟩ := hs.launched
  constructor
  · have hnone : Call.outputOf n p.generation (.processExit n p.generation code) = [] := rfl
    rw [hgeneration, htail, carried, hnone, List.append_nil]
    exact hs.tail
  · rw [hgeneration, hpid]
    exact ⟨e, List.mem_cons_of_mem _ he, hlaunch⟩
  · rw [hgeneration, hcode]
    exact fun _ _ => ⟨hlast, _, List.mem_cons_self, rfl⟩

namespace Daemon

structure Logged (s : Daemon) : Prop where
  numbered : s.Numbered
  earlier : ∀ e ∈ s.history, ∀ n g, e.call.logs n g = true → g < s.nextGeneration
  capacity : ∀ n p, s.find n = some p → p.logTail.capacity = 64 * 1024
  knows : ∀ n p, s.find n = some p → p.generation ≠ 0 → Knows n p s.history

theorem Logged.earlier_move (hs : s.Logged) (hm : Move s s') {e : Event} (he : e ∈ s'.history)
    (hlogs : e.call.logs n g = true) : g < s'.nextGeneration := by
  have hsilent : Adds (fun e => ∀ g, e.call.logs n g = false) s s' → g < s'.nextGeneration := by
    intro hh
    rcases hh.cases e he with hold | hnew
    · exact (hs.earlier e hold n g hlogs).trans_le hm.nextGeneration_le
    · cases hlogs.symm.trans (hnew g)
  have hone : ∀ {e' : Event} {p : ProcessHandle}, s'.history = e' :: s.history →
      s.find n = some p → (e'.call.logs n g = true → p.generation = g) → g < s'.nextGeneration := by
    intro e' p hh hp hg
    rw [hh] at he
    rcases List.mem_cons.1 he with rfl | hold
    · exact hg hlogs ▸ (hs.numbered.2 n p hp).1.trans_le hm.nextGeneration_le
    · exact (hs.earlier e hold n g hlogs).trans_le hm.nextGeneration_le
  cases hm.logTurn n with
  | absent h hh => exact hsilent hh
  | fresh cfg h hh => exact hsilent hh
  | stays hp h hk hh => exact hsilent hh
  | appended hp h chunks hk hh => exact hone hh hp fun hg => by simpa [Call.logs] using hg
  | exited hp h code hk hh => exact hone hh hp fun hg => by simpa [Call.logs] using hg
  | launched hp h hg htail hnext hh hcore => exact hone hh hp fun hg => by cases hg

theorem Logged.move (hs : s.Logged) (hm : Move s s') : s'.Logged := by
  refine ⟨hs.numbered.move hm, fun e he n g => hs.earlier_move hm he, fun n q hq => ?_,
    fun n q hq hpos => ?_⟩
  · cases hm.logTurn n with
    | absent h hh => cases hq.symm.trans h
    | fresh cfg h hh =>
      cases hq.symm.trans h
      rfl
    | stays hp h hk hh =>
      cases hq.symm.trans h
      rw [hk.logTail]
      exact hs.capacity n _ hp
    | appended hp h chunks hk hh =>
      cases hq.symm.trans h
      rw [hk.logTail, foldl_append_capacity]
      exact hs.capacity n _ hp
    | exited hp h code hk hh =>
      cases hq.symm.trans h
      have hold := hs.capacity n _ hp
      exact (congrArg BoundedLogTail.capacity hk.logTail).trans hold
    | launched hp h hg htail hnext hh hcore =>
      cases hq.symm.trans h
      rw [htail]
      exact hs.capacity n _ hp
  · cases hm.logTurn n with
    | absent h hh => cases hq.symm.trans h
    | fresh cfg h hh =>
      cases hq.symm.trans h
      exact absurd rfl hpos
    | stays hp h hk hh =>
      cases hq.symm.trans h
      exact (hs.knows n _ hp (hk.generation ▸ hpos)).stays hk hh
    | appended hp h chunks hk hh =>
      cases hq.symm.trans h
      rw [hh]
      exact (hs.knows n _ hp (hk.generation ▸ hpos)).appended chunks hk
    | exited hp h code hk hh =>
      cases hq.symm.trans h
      rw [hh]
      exact (hs.knows n _ hp (hk.generation ▸ hpos)).exit code hk
    | launched hp h hg htail hnext hh hcore =>
      cases hq.symm.trans h
      -- Nothing was recorded yet about a generation that starts.
      have hnone : ∀ e ∈ s.history, e.call.logs n q.generation = false := by
        intro e he
        rw [← Bool.not_eq_true]
        intro hlogs
        exact absurd (hs.earlier e he n _ hlogs) (by rw [hg]; exact Nat.lt_irrefl _)
      rw [hh]
      constructor
      · rw [carried, carried_nil fun e he => Call.outputOf_nil (hnone e he), htail]
        exact BoundedLogTail.holds_clear _
      · exact ⟨_, List.mem_cons_self, _, rfl, hcore.trans hg.symm⟩
      · rintro code ⟨e, he, hcall⟩
        rcases List.mem_cons.1 he with rfl | hold
        · cases hcall
        · have hlogs := hnone e hold
          rw [hcall] at hlogs
          simp [Call.logs] at hlogs

theorem Fresh.logged (hs : s.Fresh) : s.Logged := by
  refine ⟨hs.numbered, fun e he => ?_, fun n p hp => ?_, fun n p hp => ?_⟩
  · rw [hs.history] at he
    cases he
  · rw [hs.find] at hp
    cases hp
  · rw [hs.find] at hp
    cases hp

end Daemon

end PmTiny.Windows
