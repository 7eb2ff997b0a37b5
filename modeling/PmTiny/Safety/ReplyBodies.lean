import PmTiny.Trace.Runs
import PmTiny.Trace.Sessions

namespace PmTiny
set_option autoImplicit true

def Registry.Numbered (r : Registry) : Prop :=
  ∀ n c, r.core n = some c → c.live → c.gen ≠ 0

theorem ProgMove.numbered (h : ProgMove v n c c' g) (hc : c.live → c.gen ≠ 0) (hlive : c'.live) :
    c'.gen ≠ 0 := by
  cases h with
  | spawned => exact Nat.succ_ne_zero _
  | aborted => cases hlive
  | reapDrain => cases hlive
  | reapStopped => cases hlive
  | reapExited => cases hlive
  | _ => exact hc hlive

def NumberedView (v : View) : Prop := v.reg.Numbered ∧ ∀ e ∈ v.trace, e.reg.Numbered

theorem numbered_move (h : Move v v') (hb : Base v) (hi : NumberedView v) : NumberedView v' := by
  obtain ⟨hnow, hearlier⟩ := hi
  cases h with
  | prog hf hp h =>
    refine ⟨fun m c hm hlive => ?_, hearlier⟩
    rcases Registry.core_setProg hf hp hm with ⟨rfl, rfl⟩ | ⟨-, hm⟩
    · exact h.numbered (hnow _ _ (Registry.core_of_find hp)) hlive
    · exact hnow m c hm hlive
  | runtime h => exact ⟨hnow, hearlier⟩
  | ghost h => exact ⟨hnow, hearlier⟩
  | registry h =>
    refine ⟨fun m c hm hlive => ?_, hearlier⟩
    rcases h.core hb hm with hc | hpristine
    · exact hnow m c hc hlive
    · rw [Core.live, hpristine.pid] at hlive
      cases hlive
  | log call h => exact ⟨hnow, List.forall_mem_cons.2 ⟨hnow, hearlier⟩⟩

namespace Server

variable {s : Server} {ω : System} {id : Nat}

theorem Reachable.numbered (h : Reachable ω s) (he : e ∈ s.history) : e.reg.Numbered := by
  have hload : ∀ v, Loaded v → NumberedView v := by
    intro v hv
    refine ⟨fun n c hc hlive => ?_, by simp [hv.trace]⟩
    rw [Core.live, (hv.fresh n c hc).1] at hlive
    cases hlive
  have hview : NumberedView s.boundary :=
    h.invariant (K := fun _ => True) (fun _ _ hm hb _ hi => numbered_move hm hb hi) hload
      fun _ _ => trivial
  exact hview.2 e he

def Suited (r : Registry) (frame : Frame) : Prop := frame.reply.Suits r frame.request

instance : Replies ω Suited where
  brief _ h := h
  error _ _ _ hstatus :=
    ⟨by rw [hstatus]; decide, fun hzero => absurd (hstatus.symm.trans hzero) (by decide)⟩

theorem suits_targetUser (h : targetUser ω id request s = .error reply) :
    reply.Suits r (.start request) := by
  have hfail (message : String) : Reply.Suits r (.start request)
      { status := -3, message := message } := Reply.suits_text (by decide) message
  simp only [targetUser] at h
  repeat' split at h
  all_goals first
    | exact Except.error.inj h ▸ hfail _
    | cases h

theorem suits_startReply (s : Server) (name : String) :
    (s.startReply name).Suits r (.start request) := Reply.suits_success .start

theorem suits_handleStartExisting (ω : System) (s : Server) (id : Nat) (request : StartRequest) :
    (s.handleStartExisting ω id request).1.Suits r (.start request) := by
  rw [handleStartExisting]
  cases s.findProg request.name with
  | none => exact Reply.suits_text (by decide) _
  | some p =>
    simp only
    split
    · exact Reply.suits_text (by decide) _
    · split
      · exact suits_startReply _ _
      · exact Reply.suits_text (by decide) _

theorem suits_handleStartCreate (ω : System) (s : Server) (id : Nat) (request : StartRequest) :
    (s.handleStartCreate ω id request).1.Suits r (.start request) := by
  rw [handleStartCreate]
  cases s.findProg request.name with
  | some p => exact Reply.suits_text (by decide) _
  | none =>
    simp only
    cases htarget : targetUser ω id request s with
    | error reply => exact suits_targetUser htarget
    | ok cfg =>
      simp only
      cases createProg cfg "runtime" with
      | none => exact Reply.suits_text (by decide) _
      | some prog =>
        simp only
        split
        · exact Reply.suits_text (by decide) _
        · split
          · exact suits_startReply _ _
          · exact Reply.suits_text (by decide) _

theorem suits_handleCmdStart (ω : System) (s : Server) (id : Nat) (request : StartRequest) :
    (s.handleCmdStart ω id request).1.Suits r (.start request) := by
  rw [handleCmdStart]
  cases request.mode with
  | existing => exact suits_handleStartExisting ω s id request
  | create => exact suits_handleStartCreate ω s id request

theorem allows_suited (ω : System) (s : Server) (id : Nat) (request : Request) :
    Allows Suited ω s id request := by
  have htext {status : Int} (h : -3 ≤ status ∧ status ≤ 2 ∧ status ≠ 0) (message : String)
      (r : Registry) (type requestId : Nat) : Suited r
        ⟨id, type, requestId, request, { status := status, message := message }⟩ :=
    Reply.suits_text h message
  cases request with
  | malformed error => exact htext (by decide) error
  | list => exact fun _ _ => Reply.suits_success .list
  | info => exact fun _ _ => Reply.suits_success .info
  | version => exact fun _ _ => Reply.suits_success .version
  | stop name => exact ⟨fun _ => htext (by decide) _, fun _ _ _ => htext (by decide) _⟩
  | start request => exact fun _ _ _ _ => suits_handleCmdStart ω s id request
  | remove name =>
    exact ⟨fun _ => htext (by decide) _, fun _ _ =>
      ⟨fun _ => htext (by decide) _, fun _ _ => htext (by decide) _⟩⟩
  | restart name showLog =>
    exact ⟨fun _ => htext (by decide) _, fun _ _ _ => htext (by decide) _⟩
  | log name mode =>
    exact ⟨fun _ => htext (by decide) _, fun _ _ => ⟨fun _ _ _ => htext (by decide) _,
      fun _ _ => htext (by decide) _, fun _ _ _ => htext (by decide) _⟩⟩
  | inspect name =>
    refine ⟨fun _ => htext (by decide) _, fun hknown _ _ => ?_⟩
    obtain ⟨p, hp⟩ := Option.ne_none_iff_exists'.1 hknown
    exact Reply.suits_success (.inspect hp)
  | reload => exact fun _ _ _ => htext (by decide) _
  | save => trivial
  | quit => trivial
  | appReady name => trivial
  | appTick name => trivial

theorem boot_follows {K : Registry → Frame → Prop} (h : boot ω = some s) :
    ∃ s₀ : Server, s₀.history = [] ∧ Follows K s₀ s := by
  unfold boot at h
  split at h
  · cases h
  · dsimp only at h
    split at h
    · cases h
    · cases h
      exact ⟨_, rfl, follows_spawn ω _⟩

theorem Reachable.follows {K : Registry → Frame → Prop} [Replies ω K]
    (hallows : ∀ s id request, Allows K ω s id request) (h : Reachable ω s) :
    ∃ s₀ : Server, s₀.history = [] ∧ Follows K s₀ s := by
  induction h with
  | boot h => exact boot_follows h
  | step input _ ih =>
    obtain ⟨s₀, hempty, hfollows⟩ := ih
    exact ⟨s₀, hempty, hfollows.trans (follows_allowed ω hallows _ input)⟩

theorem Reachable.suits (h : Reachable ω s) (he : e ∈ s.history) (hcall : e.call = .answer frame) :
    frame.reply.Suits e.reg frame.request := by
  obtain ⟨s₀, hempty, hfollows⟩ := h.follows (K := Suited) (allows_suited ω)
  obtain ⟨new, hnew, hblocks⟩ := hfollows.events
  rw [hempty, List.append_nil] at hnew
  exact hblocks.answers (hnew ▸ he) hcall

end Server

end PmTiny
