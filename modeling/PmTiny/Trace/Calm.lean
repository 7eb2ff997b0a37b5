import PmTiny.Trace.Base

namespace PmTiny
set_option autoImplicit true

/-- Moves that keep the registered names, the graph and the shutdown flag. -/
structure Steady (v v' : View) : Prop where
  moves : Moves v v'
  names : v'.reg.pmTinyProgs.map (·.name) = v.reg.pmTinyProgs.map (·.name)
  graph : v'.reg.dependencyGraph = v.reg.dependencyGraph
  exit : v'.reg.serverExit = v.reg.serverExit

/-- Steady moves that grant no stop or delete request. -/
structure Calm (v v' : View) : Prop extends Steady v v' where
  quiet : v.Quiet → v'.Quiet

theorem Steady.refl (v : View) : Steady v v := ⟨.refl, rfl, rfl, rfl⟩

theorem Steady.trans (h : Steady v v') (h' : Steady v' v'') : Steady v v'' :=
  ⟨h.moves.trans h'.moves, h'.names.trans h.names, h'.graph.trans h.graph, h'.exit.trans h.exit⟩

theorem Calm.refl (v : View) : Calm v v := ⟨.refl v, id⟩

theorem Calm.trans (h : Calm v v') (h' : Calm v' v'') : Calm v v'' :=
  ⟨h.toSteady.trans h'.toSteady, fun hq => h'.quiet (h.quiet hq)⟩

theorem Calm.of_eq (h : v' = v) : Calm v v' := h ▸ .refl v

theorem View.Quiet.of_fresh {v v' : View} (hq : v.Quiet) (ht : v'.trace = v.trace)
    (hm : v'.ghost.mark = v.ghost.mark) : v'.Quiet := by
  unfold Quiet fresh at hq ⊢
  rw [ht, hm]
  exact hq

theorem View.mem_fresh_cons {v : View} (h : e ∈ View.fresh { v with trace := e' :: v.trace }) :
    e = e' ∨ e ∈ v.fresh := by
  unfold fresh at h
  rw [List.length_cons] at h
  by_cases hle : v.ghost.mark ≤ v.trace.length
  · rw [Nat.succ_sub hle, List.take_succ_cons, List.mem_cons] at h
    exact h
  · have hlt : v.trace.length + 1 ≤ v.ghost.mark := by omega
    rw [Nat.sub_eq_zero_of_le hlt] at h
    simp at h

theorem View.Quiet.cons {v : View} (hq : v.Quiet) (hg : ¬call.Granted) :
    View.Quiet { v with trace := ⟨call, v.reg⟩ :: v.trace } := by
  intro e he
  rcases View.mem_fresh_cons he with rfl | he
  · exact hg
  · exact hq e he

theorem View.quiet_boundary {v : View} (h : v.ghost.mark = v.trace.length) : v.Quiet := by
  intro e he
  rw [fresh, h, Nat.sub_self] at he
  simp at he

theorem ProgMove.mark (h : ProgMove v n c c' g) : g.mark = v.ghost.mark := by
  cases h <;> rfl

theorem Calm.prog (hf : Keeps f) (hp : v.reg.findProg n = some p)
    (h : ProgMove v n p.core (f p).core g) :
    Calm v { v with reg := v.reg.setProg n f, ghost := g } :=
  ⟨⟨.single (.prog hf hp h), Registry.names_setProg hf, rfl, rfl⟩, fun hq => hq.of_fresh rfl h.mark⟩

theorem Calm.runtime (h : RuntimeMove v rt) : Calm v { v with reg := v.reg.setRuntime rt } :=
  ⟨⟨.single (.runtime h), rfl, rfl, rfl⟩, fun hq => hq.of_fresh rfl rfl⟩

theorem Calm.ghost (h : GhostMove v g) (hm : g.mark = v.ghost.mark) :
    Calm v { v with ghost := g } :=
  ⟨⟨.single (.ghost h), rfl, rfl, rfl⟩, fun hq => hq.of_fresh rfl hm⟩

theorem Calm.log (call : Call) (h : Fits v call) (hg : ¬call.Granted) :
    Calm v { v with trace := ⟨call, v.reg⟩ :: v.trace } :=
  ⟨⟨.single (.log call h), rfl, rfl, rfl⟩, fun hq => hq.cons hg⟩

theorem Steady.base (h : Steady v v') (hb : Base v) : Base v' := hb.moves h.moves

namespace Server

variable {s s' s'' : Server} {ω : System} {g g' : Ghost} {id : Nat}

def view (s : Server) (g : Ghost) : View := ⟨s.toRegistry, g, s.history⟩

theorem calm_record (h : Fits (s.view g) call) (hg : ¬call.Granted) :
    Calm (s.view g) ((s.record call).view g) := Calm.log call h hg

theorem calm_setProg (hf : Keeps f)
    (h : ∀ p, s.findProg n = some p → ProgMove (s.view g) n p.core (f p).core g) :
    Calm (s.view g) ((s.setProg n f).view g) := by
  cases hp : s.findProg n with
  | none =>
    have he : (s.setProg n f).view g = s.view g := by
      show View.mk (s.toRegistry.setProg n f) g s.history = s.view g
      rw [Registry.setProg_absent hp]
      rfl
    exact .of_eq he
  | some p => exact Calm.prog (v := s.view g) hf hp (h p hp)

theorem calm_touch (hf : Keeps f) (h : ∀ p, (f p).core = p.core) :
    Calm (s.view g) ((s.setProg n f).view g) :=
  calm_setProg hf fun p _ => by rw [h]; exact .touch

theorem findProg_setProg (hf : Keeps f) (hp : s.findProg n = some p) :
    (s.setProg n f).findProg n = some (f p) := Registry.findProg_setProg_self hf hp

theorem findProg_setProg_ne (hf : Keeps f) (hm : m ≠ n) :
    (s.setProg n f).findProg m = s.findProg m := Registry.findProg_setProg_ne hf hm

structure Talks (s s' : Server) : Prop where
  reg : s'.toRegistry = s.toRegistry
  calm : ∀ g, Calm (s.view g) (s'.view g)

theorem Talks.of_eq (hr : s'.toRegistry = s.toRegistry) (hh : s'.history = s.history) :
    Talks s s' :=
  ⟨hr, fun g => .of_eq (by rw [view, hr, hh, view])⟩

theorem Talks.refl (s : Server) : Talks s s := .of_eq rfl rfl

theorem Talks.trans (h : Talks s s') (h' : Talks s' s'') : Talks s s'' :=
  ⟨h'.reg.trans h.reg, fun g => (h.calm g).trans (h'.calm g)⟩

theorem Talks.foldl {f : Server → α → Server} (l : List α) (hf : ∀ s a, a ∈ l → Talks s (f s a))
    (s : Server) : Talks s (l.foldl f s) := by
  induction l generalizing s with
  | nil => exact .refl s
  | cons a l ih =>
    exact (hf s a (by simp)).trans (ih (fun s b hb => hf s b (by simp [hb])) _)

theorem Talks.find (h : Talks s s') : s'.findProg n = s.findProg n := by rw [h.reg]

theorem talks_closeSession : Talks s (s.closeSession id) := by
  unfold closeSession
  split
  · exact .refl s
  · split
    · exact .refl s
    · dsimp only
      split
      · exact .of_eq rfl rfl
      · exact .of_eq rfl rfl

/-- A reply that grants nothing and acknowledges nothing. -/
def Plain : Request → Reply → Prop
  | .stop _, reply | .remove _, reply | .quit, reply => reply.status ≠ 0
  | _, _ => True

theorem Plain.not_granted (h : Plain request reply) :
    ¬(Call.answer ⟨id, type, rid, request, reply⟩).Granted := by
  cases request <;> simp_all [Plain, Call.Granted]

theorem Plain.fits (h : Plain request reply) :
    Fits v (.answer ⟨id, type, rid, request, reply⟩) := by
  cases request <;> simp_all [Plain, Fits]

theorem toRegistry_writeFrame : (s.writeFrame ω id request reply).toRegistry = s.toRegistry := by
  unfold writeFrame
  split
  · rfl
  · split
    · rfl
    · dsimp only
      split
      · rfl
      · exact talks_closeSession.reg

theorem writeFrame_moves
    (hfit : ∀ type rid, Fits (s.view g) (.answer ⟨id, type, rid, request, reply⟩)) :
    Steady (s.view g) ((s.writeFrame ω id request reply).view g) := by
  unfold writeFrame
  split
  · exact .refl _
  · split
    · exact .refl _
    · rename_i session _ _
      have h : Steady (s.view g) ((s.record (.answer
          ⟨id, session.currentMessageType, session.currentRequestId, request, reply⟩)).view g) :=
        ⟨.single (.log _ (hfit _ _)), rfl, rfl, rfl⟩
      have hc (s : Server) : Steady (s.view g) ((s.tick.closeSession id).view g) :=
        (talks_closeSession (s := s.tick).calm g).toSteady
      dsimp only
      split
      · exact h
      · exact h.trans (hc _)

theorem writeFrame_calm
    (hfit : ∀ type rid, Fits (s.view g) (.answer ⟨id, type, rid, request, reply⟩))
    (hg : ∀ type rid, ¬(Call.answer ⟨id, type, rid, request, reply⟩).Granted) :
    Calm (s.view g) ((s.writeFrame ω id request reply).view g) := by
  refine ⟨writeFrame_moves hfit, fun hq => ?_⟩
  unfold writeFrame
  split
  · exact hq
  · split
    · exact hq
    · dsimp only
      split
      · exact hq.cons (hg _ _)
      · exact (talks_closeSession.calm g).quiet (hq.cons (hg _ _))

theorem talks_writeFrame (h : Plain request reply) : Talks s (s.writeFrame ω id request reply) :=
  ⟨toRegistry_writeFrame, fun _ => writeFrame_calm (fun _ _ => h.fits) fun _ _ => h.not_granted⟩

theorem talks_failPendingLogSessions : Talks s (s.failPendingLogSessions ω name message) := by
  refine .trans (.foldl _ (fun s id _ => ?_) s) (.of_eq rfl rfl)
  exact talks_writeFrame (show Plain (.log _ _) _ from trivial)

theorem talks_activatePendingLogSessions : Talks s (s.activatePendingLogSessions ω name) := by
  refine .trans (.foldl _ (fun s id _ => ?_) s) (.of_eq rfl rfl)
  split
  · have h : Talks s (s.addSession name id) := .of_eq rfl rfl
    exact h.trans (talks_writeFrame (show Plain (.log _ _) _ from trivial))
  · exact .refl s

theorem talks_detachSessions : Talks s (s.detachSessions ω name) := by
  unfold detachSessions
  extract_lets s₁ s₂
  have h₁ : Talks s s₁ := by
    refine .foldl _ (fun s id _ => ?_) s
    exact .of_eq rfl rfl
  have h₂ : Talks s₁ s₂ := .of_eq rfl rfl
  exact (h₁.trans h₂).trans talks_failPendingLogSessions

theorem talks_answerAll (h : Plain request reply) : Talks s (s.answerAll ω request reply ids) :=
  .foldl _ (fun _ _ _ => talks_writeFrame h) s

theorem keeps_observe (members : List Nat) : Keeps fun p => p.observe members :=
  fun _ => ⟨rfl, rfl⟩

theorem calm_observe : Calm (s.view g) ((s.observe ω n).view g) :=
  calm_setProg (keeps_observe _) fun _ _ => .observe _

theorem findProg_observe (hp : s.findProg n = some p) :
    (s.observe ω n).findProg n = some (p.observe (ω.members s.ticks n)) :=
  findProg_setProg (keeps_observe _) hp

theorem calm_isTreeEmpty : Calm (s.view g) ((s.isTreeEmpty ω n).2.view g) := calm_observe

theorem findProg_isTreeEmpty (hp : s.findProg n = some p) :
    ∃ p', (s.isTreeEmpty ω n).2.findProg n = some p' ∧
      p' = p.observe (ω.members s.ticks n) ∧ (s.isTreeEmpty ω n).1 = p'.inst.tree.isEmpty := by
  have h := findProg_observe (ω := ω) hp
  refine ⟨_, h, rfl, ?_⟩
  show ((s.observe ω n).findProg n).all _ = _
  rw [h]
  rfl

end Server
end PmTiny
