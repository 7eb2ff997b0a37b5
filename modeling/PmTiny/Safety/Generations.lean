import PmTiny.Trace.Runs

namespace PmTiny
set_option autoImplicit true

/-- No program with surviving descendants is requested by a start, and none is restarted. -/
def DrainsFirst (e : Event) : Prop :=
  match e.call with
  | .requestClosure n => ∀ m p, e.reg.findProg m = some p → p.core.Draining →
      (e.reg.dependencyRuntime.requestClosure e.reg.dependencyGraph n).1.isRequested
        e.reg.dependencyGraph m = false
  | .restartIdle m => ∀ p, e.reg.findProg m = some p → p.inst.tree.isEmpty = true
  | _ => True

theorem Core.Draining.not_live (h : Core.Draining c) : ¬c.live := by
  simp [Core.live, h.1]

theorem Core.Draining.not_gone (h : Core.Draining c) : ¬c.Gone := by
  rintro ⟨-, ht⟩
  simp [h.2] at ht

theorem Core.not_draining_of_pristine (h : Core.Pristine c) : ¬c.Draining := by
  rintro ⟨-, ht⟩
  simp [h.tree, ProcessTreeHandle.isEmpty] at ht

/-- A program whose descendants drain is not requested, and what was spawned had no descendants. -/
structure Exclusive (v : View) : Prop where
  draining : ∀ n c, v.core n = some c → c.Draining → v.requested n = false
  spawns : ∀ n site r p, ⟨.realSpawnProg n site, r⟩ ∈ v.trace → r.findProg n = some p →
    p.inst.tree.isEmpty = true

theorem ProgMove.draining (h : ProgMove v n c c' g) (hd : c'.Draining) :
    c.Draining ∨ v.requested n = false := by
  have hempty : (({} : ProcessTreeHandle).isEmpty = false) → False := by decide
  cases h with
  | observe members =>
    refine .inl ⟨hd.1, ?_⟩
    by_contra ht
    have := ProcessTreeHandle.observe_empty members (Bool.not_eq_false _ ▸ ht)
    exact absurd this (Bool.eq_false_iff.1 hd.2)
  | reapDrain job extra hl ht hr => exact .inr hr
  | reapStopped => exact (hempty hd.2).elim
  | reapExited => exact (hempty hd.2).elim
  | spawned => exact absurd hd.1 (by simp)
  | aborted => exact (hempty hd.2).elim
  | cleaned => exact (hempty hd.2).elim
  | _ => exact .inl hd

theorem MayReady.not_draining (h : MayReady v n c) (hok : ProgOk c) : ¬c.Draining := by
  intro hd
  rcases h with hs | ⟨-, hl⟩ | ⟨-, hg, -⟩
  · exact hd.not_live (hok.running (.inr hs))
  · exact hd.not_live hl
  · exact hd.not_gone hg

theorem Flags.not_draining (h : Flags v n c) : v.requested n = true ∨ ¬c.Draining := by
  rcases h with ⟨-, ⟨hr, -⟩ | ⟨-, hg, -⟩, -⟩ | ⟨-, -, -, hg | ⟨hl, -⟩⟩
  · exact .inl hr
  · exact .inr fun hd => hd.not_gone hg
  · exact .inr fun hd => hd.not_gone hg
  · exact .inr fun hd => hd.not_live hl

theorem exclusive_runtime (h : RuntimeMove v rt) (hb : Base v)
    (hK : ∀ e ∈ v.trace, DrainsFirst e)
    (hi : ∀ n c, v.core n = some c → c.Draining → v.requested n = false)
    (hc : v.core m = some c) (hd : c.Draining) :
    rt.isRequested v.reg.dependencyGraph m = false := by
  have hoff := hi m c hc hd
  have hne : ∀ {n c'}, v.core n = some c' → ¬c'.Draining → m ≠ n := by
    rintro n c' hn hnd rfl
    cases hc.symm.trans hn
    exact hnd hd
  refine Bool.eq_false_iff.2 fun hr => ?_
  cases h with
  | idle n =>
    rw [DependencyRuntime.isRequested_markIdle, Bool.and_eq_true] at hr
    exact absurd hr.1 (Bool.eq_false_iff.1 hoff)
  | ready n hn h =>
    rcases DependencyRuntime.requested_markReady.1 hr with hr | ⟨he, -⟩
    · exact absurd hr (Bool.eq_false_iff.1 hoff)
    · exact hne hn (h.not_draining (hb.progs _ _ hn)) he
  | failed n hn h =>
    rcases DependencyRuntime.isRequested_markFailed.1 hr with hr | ⟨rfl, -⟩
    · exact absurd hr (Bool.eq_false_iff.1 hoff)
    · rcases h.not_draining with hreq | hnd
      · exact absurd hreq (Bool.eq_false_iff.1 hoff)
      · exact hne hn hnd rfl
  | closure n hseen =>
    obtain ⟨p, hp, rfl⟩ := Registry.core_eq_some.1 hc
    have hk := hK _ hseen m p hp hd
    exact absurd hr (Bool.eq_false_iff.1 hk)

theorem exclusive_log (hi : Exclusive v) (hf : Fits v call)
    (hK : ∀ e ∈ v.trace, DrainsFirst e) :
    Exclusive { v with trace := ⟨call, v.reg⟩ :: v.trace } := by
  refine ⟨hi.draining, fun n site r p he hp => ?_⟩
  rcases List.mem_cons.1 he with he | he
  · cases he
    obtain ⟨-, c, hc, hpid, hsite⟩ := hf
    cases hc.symm.trans (Registry.core_of_find hp)
    cases site with
    | runtime =>
      by_contra ht
      have := hi.draining n p.core hc ⟨hpid, Bool.eq_false_iff.2 ht⟩
      exact absurd hsite (Bool.eq_false_iff.1 this)
    | task => exact hsite
    | scheduled => exact hsite
    | restart => exact hK _ hsite p hp
  · exact hi.spawns n site r p he hp

theorem exclusive_move (h : Move v v') (hb : Base v) (hK : ∀ e ∈ v'.trace, DrainsFirst e)
    (hi : Exclusive v) : Exclusive v' := by
  cases h with
  | prog hf hp h =>
    refine ⟨fun m c hm hd => ?_, hi.spawns⟩
    rcases Registry.core_setProg hf hp hm with ⟨rfl, rfl⟩ | ⟨-, hm⟩
    · rcases h.draining hd with hd | hr
      · exact hi.draining _ _ (Registry.core_of_find hp) hd
      · exact hr
    · exact hi.draining m c hm hd
  | runtime h =>
    exact ⟨fun m c hm hd => exclusive_runtime (v := v) h hb hK hi.draining hm hd, hi.spawns⟩
  | log call h => exact exclusive_log hi h fun e he => hK e (List.mem_cons_of_mem _ he)
  | ghost h => exact ⟨hi.draining, hi.spawns⟩
  | registry h =>
    refine ⟨fun m c hm hd => Bool.eq_false_iff.2 fun hr => ?_, hi.spawns⟩
    rcases h.core hb hm with hc | hp
    · rcases h.requested hb hm hr with hr | hp
      · exact absurd hr (Bool.eq_false_iff.1 (hi.draining m c hc hd))
      · exact Core.not_draining_of_pristine hp hd
    · exact Core.not_draining_of_pristine hp hd

/-- A program is spawned only when nothing is left of its previous generation. -/
theorem one_generation_at_a_time (h : Server.Reachable ω s) (hK : ∀ e ∈ s.history, DrainsFirst e)
    (he : ⟨.realSpawnProg n site, r⟩ ∈ s.history) (hp : r.findProg n = some p) :
    p.inst.tree.isEmpty = true := by
  have hex : Exclusive s.boundary := h.invariant (fun _ _ hm hb hK hi => exclusive_move hm hb hK hi)
    (fun v hv =>
      ⟨fun n c hc hd => absurd hd (Core.not_draining_of_pristine (hv.fresh n c hc).pristine),
      by simp [hv.trace]⟩) hK
  exact hex.spawns n site r p he hp

theorem one_generation_at_a_time_restarted : ∃ s r p,
    Server.Reachable (simpleSystem [{ name := "p" }] []) s ∧ (∀ e ∈ s.history, DrainsFirst e) ∧
      ⟨.realSpawnProg "p" .runtime, r⟩ ∈ s.history ∧ r.findProg "p" = some p ∧
      p.inst.generation = 1 ∧ p.inst.tree.isEmpty = true := by
  obtain ⟨s, hreach, hs⟩ := Server.runFrom_any (ω := simpleSystem [{ name := "p" }] [])
    [.connect 1 none, .request 1 0 1 (.stop "p"), .maintenance false (some [(101, 0)]),
      .request 1 0 2 (.start ⟨.existing, "p", { name := "p" }, false⟩)]
    (fun s => (s.history.any fun e => e.call = .realSpawnProg "p" .runtime &&
        (e.reg.findProg "p").any fun p => p.inst.generation = 1) &&
      s.history.all fun e => e.call ≠ .restartIdle "p" && e.reg.pmTinyProgs.all fun p =>
        p.name = "p" && (p.live || p.inst.tree.isEmpty))
    (by decide +kernel)
  rw [Bool.and_eq_true, List.any_eq_true, List.all_eq_true] at hs
  obtain ⟨⟨⟨call, r⟩, he, hspawn⟩, hall⟩ := hs
  rw [Bool.and_eq_true, Option.any_eq_true] at hspawn
  obtain ⟨hcall, p, hp, hgen⟩ := hspawn
  cases of_decide_eq_true hcall
  have hK : ∀ e ∈ s.history, DrainsFirst e := by
    rintro ⟨call', r'⟩ he'
    have h := hall _ he'
    rw [Bool.and_eq_true, List.all_eq_true] at h
    obtain ⟨hne, hprogs⟩ := h
    cases call' with
    | requestClosure n =>
      intro m q hq hd
      have hq' := hprogs q (Registry.mem_of_find hq)
      rw [Bool.and_eq_true, Bool.or_eq_true] at hq'
      rcases hq'.2 with hl | ht
      · exact absurd hl hd.not_live
      · exact absurd ht (Bool.eq_false_iff.1 hd.2)
    | restartIdle m =>
      intro q hq
      have hq' := hprogs q (Registry.mem_of_find hq)
      rw [Bool.and_eq_true] at hq'
      have hm : m = "p" := (Registry.name_of_find hq).symm.trans (of_decide_eq_true hq'.1)
      exact absurd (congrArg Call.restartIdle hm) (of_decide_eq_true hne)
    | _ => exact trivial
  exact ⟨s, r, p, hreach, hK, he, hp, of_decide_eq_true hgen,
    one_generation_at_a_time hreach hK he hp⟩

/-- A program whose root has exited is started again over its surviving descendants. -/
theorem spawned_over_descendants : ∃ s r p,
    Server.Reachable
        (simpleSystem [{ name := "p", daemon := false, startTimeout := 60 }] [7]) s ∧
      ⟨.realSpawnProg "p" .runtime, r⟩ ∈ s.history ∧ r.findProg "p" = some p ∧
      p.inst.tree.isEmpty = false := by
  obtain ⟨s, hreach, hs⟩ := Server.runFrom_any
    (ω := simpleSystem [{ name := "p", daemon := false, startTimeout := 60 }] [7])
    [.connect 1 none, .maintenance false (some [(101, 0)]),
      .request 1 0 1 (.start ⟨.existing, "p", { name := "p" }, false⟩)]
    (fun s => s.history.any fun e => e.call = .realSpawnProg "p" .runtime &&
      (e.reg.findProg "p").any fun p => p.inst.tree.isEmpty = false)
    (by decide +kernel)
  obtain ⟨⟨call, r⟩, he, hspawn⟩ := List.any_eq_true.1 hs
  rw [Bool.and_eq_true, Option.any_eq_true] at hspawn
  obtain ⟨hcall, p, hp, ht⟩ := hspawn
  cases of_decide_eq_true hcall
  exact ⟨s, r, p, hreach, he, hp, of_decide_eq_true ht⟩

end PmTiny
