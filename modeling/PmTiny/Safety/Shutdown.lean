import PmTiny.Trace.Runs

namespace PmTiny
set_option autoImplicit true

/-- A shutdown has begun, and neither has the loop ended nor a reload been installed since. -/
def ShuttingDown : List Event → Bool
  | [] => false
  | ⟨.requestQuit, _⟩ :: _ => true
  | ⟨.swapReloadConfig, _⟩ :: _ => false
  | ⟨.loopExit, _⟩ :: _ => false
  | _ :: earlier => ShuttingDown earlier

theorem Suffix.cons {e e' : Event} {l l' : List Event} (h : e :: l <:+ e' :: l') :
    e = e' ∧ l = l' ∨ e :: l <:+ l' := by
  rcases List.suffix_cons_iff.1 h with h | h
  · cases h
    exact .inl ⟨rfl, rfl⟩
  · exact .inr h

/-- The shutdown flag covers the whole of a shutdown, and nothing is spawned under it. -/
structure Closed (v : View) : Prop where
  flag : ShuttingDown v.trace = true → v.reg.serverExit = true ∨ v.ghost.swapping = true
  spawns : ∀ n site r earlier, ⟨.realSpawnProg n site, r⟩ :: earlier <:+ v.trace →
    ShuttingDown earlier = false ∧ r.serverExit = false

theorem closed_log (hi : Closed v) (hf : Fits v call) :
    Closed { v with trace := ⟨call, v.reg⟩ :: v.trace } := by
  constructor
  · intro h
    cases call with
    | requestQuit => exact .inl hf
    | swapReloadConfig => cases h
    | loopExit => cases h
    | _ => exact hi.flag h
  · intro n site r earlier hs
    rcases Suffix.cons hs with ⟨he, rfl⟩ | hs
    · cases he
      obtain ⟨⟨hx, hw, -⟩, -⟩ := hf
      refine ⟨Bool.eq_false_iff.2 fun h => ?_, hx⟩
      rcases hi.flag h with h | h
      · simp [hx] at h
      · simp [hw] at h
    · exact hi.spawns n site r earlier hs

theorem closed_move (h : Move v v') (hi : Closed v) : Closed v' := by
  cases h with
  | prog hf hp h => exact ⟨fun hs => (hi.flag hs).imp_right (h.swapping.trans ·), hi.spawns⟩
  | runtime h => exact ⟨hi.flag, hi.spawns⟩
  | log call h => exact closed_log hi h
  | ghost h =>
    refine ⟨fun hs => ?_, hi.spawns⟩
    have hflag := hi.flag hs
    cases h with
    | boundary mark hg =>
      rw [hg] at hflag
      exact hflag.imp_right fun h => by cases h
    | _ => exact hflag
  | registry h =>
    refine ⟨fun hs => ?_, hi.spawns⟩
    have hflag := hi.flag hs
    cases h with
    | rollback saved => exact hflag.imp_left ((Registry.rollback_exit saved).1.trans ·)
    | quit => exact .inl rfl
    | beginSwap => exact .inr rfl
    | swap config hw hc hg ht =>
      obtain ⟨r, earlier, ht⟩ := ht
      rw [show v.trace = _ from ht] at hs
      cases hs
    | _ => exact hflag

theorem closed_loaded (h : Server.Loaded v) : Closed v := by
  constructor
  · rw [h.trace]
    simp [ShuttingDown]
  · rw [h.trace]
    simp

/-- While the daemon shuts down no program is spawned, whoever asks for it. -/
theorem no_spawn_while_shutting_down (h : Server.Reachable ω s)
    (hs : ⟨.realSpawnProg n site, r⟩ :: earlier <:+ s.history) :
    ShuttingDown earlier = false ∧ r.serverExit = false := by
  obtain ⟨v, hv, hmoves⟩ := h.moves
  have hclosed : Closed s.boundary :=
    Moves.invariant (K := fun _ => True) (fun _ _ hm _ _ hi => closed_move hm hi) hmoves hv.base
      (fun _ _ => trivial) (closed_loaded hv)
  exact hclosed.spawns n site r earlier hs

theorem no_spawn_while_shutting_down_reload : ∃ s r c earlier before,
    Server.Reachable (simpleSystem [{ name := "p" }] []) s ∧
      s.history = ⟨.realSpawnProg "p" .runtime, r⟩ :: earlier ∧
      ⟨.swapReloadConfig, c⟩ :: before <:+ earlier ∧ ShuttingDown before = true ∧
      ShuttingDown earlier = false ∧ r.serverExit = false := by
  obtain ⟨s, hreach, hs⟩ := Server.runFrom_any (ω := simpleSystem [{ name := "p" }] [])
    [.connect 1 none, .request 1 0 1 .reload, .request 1 0 2 (.restart "p" false),
      .maintenance false (some [(101, 0)])]
    (fun s => decide (s.history.head?.map (·.call) = some (.realSpawnProg "p" .runtime)) &&
      s.history.tail.tails.any fun l =>
        decide (l.head?.map (·.call) = some .swapReloadConfig) && ShuttingDown l.tail)
    (by decide +kernel)
  rw [Bool.and_eq_true, List.any_eq_true] at hs
  obtain ⟨hhead, l, hl, hswap⟩ := hs
  rw [Bool.and_eq_true] at hswap
  obtain ⟨e, he, hcall⟩ := Option.map_eq_some_iff.1 (of_decide_eq_true hhead)
  obtain ⟨earlier, hhist⟩ := List.head?_eq_some_iff.1 he
  obtain ⟨e', he', hcall'⟩ := Option.map_eq_some_iff.1 (of_decide_eq_true hswap.1)
  obtain ⟨before, hbefore⟩ := List.head?_eq_some_iff.1 he'
  obtain ⟨call, r⟩ := e
  obtain ⟨call', c⟩ := e'
  cases hcall
  cases hcall'
  have hsuffix : ⟨.realSpawnProg "p" .runtime, r⟩ :: earlier <:+ s.history := by rw [hhist]
  have hinstalled : ⟨.swapReloadConfig, c⟩ :: before <:+ earlier := by
    rw [← hbefore]
    simpa [hhist] using (List.mem_tails _ _).1 hl
  have hshutting : ShuttingDown before = true := by
    simpa [hbefore] using hswap.2
  exact ⟨s, r, c, earlier, before, hreach, hhist, hinstalled, hshutting,
    no_spawn_while_shutting_down hreach hsuffix⟩

/-- A quit request, or a termination signal, that finds no reload in progress. -/
def QuitAlone (e : Event) : Prop := e.call.Acknowledges → e.reg.reloadConfig = none

/-- The calls by which a shutdown is left behind. -/
def Call.Revives : Call → Prop
  | .realSpawnProg _ _ => True
  | .swapReloadConfig => True
  | _ => False

structure Final (v : View) : Prop where
  exit : ∀ e ∈ v.trace, e.call.Acknowledges →
    (v.reg.serverExit = true ∨ v.ghost.acking = true) ∧ v.reg.reloadConfig = none
  revives : ∀ call r earlier, ⟨call, r⟩ :: earlier <:+ v.trace → call.Revives →
    ∀ e ∈ earlier, ¬e.call.Acknowledges

theorem Final.not_active (hi : Final v) (ha : v.Active) (he : e ∈ v.trace) :
    ¬e.call.Acknowledges := by
  intro hack
  rcases (hi.exit e he hack).1 with h | h
  · simp [ha.1] at h
  · simp [ha.2.2] at h

theorem Fits.acking (hf : Fits v call) (ha : call.Acknowledges) : v.ghost.acking = true := by
  cases call with
  | answer frame =>
    obtain ⟨id, type, rid, request, reply⟩ := frame
    cases request with
    | quit => exact hf ha
    | _ => exact ha.elim
  | exitSignal => exact hf
  | _ => exact ha.elim

theorem final_log (hi : Final v) (hf : Fits v call) (hK : QuitAlone ⟨call, v.reg⟩) :
    Final { v with trace := ⟨call, v.reg⟩ :: v.trace } := by
  constructor
  · intro e he ha
    rcases List.mem_cons.1 he with rfl | he
    · exact ⟨.inr (hf.acking ha), hK ha⟩
    · exact hi.exit e he ha
  · intro call' r earlier hs hr e he ha
    rcases Suffix.cons hs with ⟨heq, rfl⟩ | hs
    · cases heq
      cases call with
      | realSpawnProg n site => exact hi.not_active hf.1 he ha
      | swapReloadConfig => exact hf (hi.exit e he ha).2
      | _ => exact hr
    · exact hi.revives call' r earlier hs hr e he ha

theorem final_move (h : Move v v') (hK : ∀ e ∈ v'.trace, QuitAlone e) (hi : Final v) :
    Final v' := by
  cases h with
  | prog hf hp h =>
    refine ⟨fun e he ha => ?_, hi.revives⟩
    exact ⟨(hi.exit e he ha).1.imp_right (h.acking.trans ·), (hi.exit e he ha).2⟩
  | runtime h => exact ⟨hi.exit, hi.revives⟩
  | log call h => exact final_log hi h (hK _ (List.mem_cons_self ..))
  | ghost h =>
    refine ⟨fun e he ha => ?_, hi.revives⟩
    obtain ⟨hflag, hnone⟩ := hi.exit e he ha
    refine ⟨?_, hnone⟩
    cases h with
    | ack => exact .inr rfl
    | acked hx => exact .inl hx
    | boundary mark hg =>
      rw [hg] at hflag
      exact hflag.imp_right fun h => by cases h
    | _ => exact hflag
  | registry h =>
    refine ⟨fun e he ha => ?_, hi.revives⟩
    obtain ⟨hflag, hnone⟩ := hi.exit e he ha
    cases h with
    | rollback saved =>
      obtain ⟨hx, hr⟩ := Registry.rollback_exit (r := v.reg) saved
      exact ⟨hflag.imp_left (hx.trans ·), hr.trans hnone⟩
    | quit => exact ⟨.inl rfl, hnone⟩
    | reload config hactive => exact absurd ha (hi.not_active hactive he)
    | beginSwap config hx hc => cases hnone.symm.trans hc
    | swap config hw hc => cases hnone.symm.trans hc
    | _ => exact ⟨hflag, hnone⟩

theorem final_loaded (h : Server.Loaded v) : Final v := by
  constructor
  · rw [h.trace]
    simp
  · rw [h.trace]
    simp

/-- A quit that is acknowledged while no reload is in progress is final. -/
theorem acknowledged_quit_final (h : Server.Reachable ω s) (hK : ∀ e ∈ s.history, QuitAlone e) :
    ((∃ e ∈ s.history, e.call.Acknowledges) → s.serverExit = true) ∧
      ∀ call r earlier, ⟨call, r⟩ :: earlier <:+ s.history → call.Revives →
        ∀ e ∈ earlier, ¬e.call.Acknowledges := by
  have hfinal : Final s.boundary := h.invariant (fun _ _ hm _ hK hi => final_move hm hK hi)
    (fun _ => final_loaded) hK
  refine ⟨fun ⟨e, he, ha⟩ => ?_, hfinal.revives⟩
  rcases (hfinal.exit e he ha).1 with hx | hx
  · exact hx
  · cases hx

theorem acknowledged_quit_final_idle : ∃ s,
    Server.Reachable (simpleSystem [{ name := "p" }] []) s ∧
      (∃ e ∈ s.history, e.call.Acknowledges) ∧ (∀ e ∈ s.history, QuitAlone e) ∧
      s.serverExit = true := by
  obtain ⟨s, hreach, hs⟩ := Server.runFrom_any (ω := simpleSystem [{ name := "p" }] [])
    [.connect 1 none, .request 1 0 1 .quit]
    (fun s => (s.history.any fun e => e.call = .answer
        ⟨1, 0, 1, .quit, { status := 0, message := "success", body := .pid 1 }⟩) &&
      s.history.all fun e => e.reg.reloadConfig.isNone)
    (by decide +kernel)
  rw [Bool.and_eq_true, List.any_eq_true, List.all_eq_true] at hs
  obtain ⟨⟨e, he, hcall⟩, hnone⟩ := hs
  have hack : ∃ e ∈ s.history, e.call.Acknowledges := by
    refine ⟨e, he, ?_⟩
    rw [of_decide_eq_true hcall]
    rfl
  have hK : ∀ e ∈ s.history, QuitAlone e := fun e he _ => Option.isNone_iff_eq_none.1 (hnone e he)
  exact ⟨s, hreach, hack, hK, (acknowledged_quit_final hreach hK).1 hack⟩

/-- A quit that arrives during a reload: the reload is installed and the program spawned anew. -/
theorem quit_lost_in_reload : ∃ s,
    Server.Reachable (simpleSystem [{ name := "p" }] []) s ∧
      (∃ e ∈ s.history, e.call.Acknowledges) ∧ s.serverExit = false ∧
      ∃ r earlier, s.history = ⟨.realSpawnProg "p" .runtime, r⟩ :: earlier ∧
        ∃ e ∈ earlier, e.call.Acknowledges := by
  obtain ⟨s, hreach, hs⟩ := Server.runFrom_any (ω := simpleSystem [{ name := "p" }] [])
    [.connect 1 none, .request 1 0 1 .reload, .request 1 0 2 .quit,
      .maintenance false (some [(101, 0)])]
    (fun s => (s.history.tail.any fun e => e.call = .answer
        ⟨1, 0, 2, .quit, { status := 0, message := "success", body := .pid 1 }⟩) &&
      decide (s.history.head?.map (·.call) = some (.realSpawnProg "p" .runtime)) && !s.serverExit)
    (by decide +kernel)
  rw [Bool.and_eq_true, Bool.and_eq_true, List.any_eq_true] at hs
  obtain ⟨⟨⟨e, he, hcall⟩, hhead⟩, hx⟩ := hs
  have hack : e.call.Acknowledges := by
    rw [of_decide_eq_true hcall]
    rfl
  obtain ⟨e', he', hcall'⟩ := Option.map_eq_some_iff.1 (of_decide_eq_true hhead)
  obtain ⟨earlier, hhist⟩ := List.head?_eq_some_iff.1 he'
  obtain ⟨call, r⟩ := e'
  cases hcall'
  have hmem : e ∈ earlier := by
    rw [hhist] at he
    exact he
  refine ⟨s, hreach, ⟨e, hhist ▸ List.mem_cons_of_mem _ hmem, hack⟩, by simpa using hx, r, earlier,
    hhist, e, hmem, hack⟩

end PmTiny
