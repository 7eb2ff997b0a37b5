import Mathlib.Data.List.Basic

namespace Transitions
set_option autoImplicit true

variable {σ ε τ α : Type} {step : σ → ε → Option σ} {act : τ → α → Option τ}

/-- The events of a system from one state to another; an event that is not enabled has no result. -/
inductive Run (step : σ → ε → Option σ) : σ → List ε → σ → Prop
  | nil : Run step s [] s
  | snoc : Run step s l s' → step s' e = some s'' → Run step s (l ++ [e]) s''

/-- Where the events lead, if each is enabled in its turn. -/
def after (step : σ → ε → Option σ) (s : σ) (l : List ε) : Option σ := l.foldlM step s

namespace Run

theorem append (h : Run step s l s') (h' : Run step s' l' s'') : Run step s (l ++ l') s'' := by
  induction h' with
  | nil => rwa [List.append_nil]
  | snoc _ hstep ih =>
    rw [← List.append_assoc]
    exact ih.snoc hstep

theorem single (h : step s e = some s') : Run step s [e] s' := nil.snoc h

theorem of_after (h : after step s l = some s') : Run step s l s' := by
  induction l generalizing s with
  | nil =>
    cases h
    exact nil
  | cons e l ih =>
    rw [after, List.foldlM_cons] at h
    obtain ⟨t, ht, hrest⟩ := Option.bind_eq_some_iff.1 h
    exact (single ht).append (ih hrest)

theorem eq_of_nil (h : Run step s [] s') : s' = s := by
  generalize hl : ([] : List ε) = l at h
  cases h with
  | nil => rfl
  | snoc => exact absurd hl (List.append_ne_nil_of_right_ne_nil _ (List.cons_ne_nil _ _)).symm

theorem uncons (h : Run step s (e :: l) s') : ∃ t, step s e = some t ∧ Run step t l s' := by
  generalize hl : e :: l = events at h
  induction h generalizing l with
  | nil => cases hl
  | snoc hrun hstep ih =>
    rename_i events t last t'
    cases events with
    | nil =>
      obtain ⟨rfl, rfl⟩ := List.cons.inj hl
      rw [hrun.eq_of_nil] at hstep
      exact ⟨_, hstep, .nil⟩
    | cons first rest =>
      obtain ⟨rfl, rfl⟩ := List.cons.inj hl
      obtain ⟨t₁, hfirst, hrest⟩ := ih rfl
      exact ⟨t₁, hfirst, hrest.snoc hstep⟩

/-- What holds at the start and is kept by every event holds at the end of every run. -/
theorem invariant (inv : σ → Prop) (hstep : ∀ s e s', inv s → step s e = some s' → inv s')
    (h : Run step s l s') (hs : inv s) : inv s' := by
  induction h with
  | nil => exact hs
  | snoc _ he ih => exact hstep _ _ _ ih he

/-- What every event of a kind keeps holds at the end of every run of such events. -/
theorem kept {good : ε → Prop} (inv : σ → Prop)
    (hstep : ∀ s e s', inv s → good e → step s e = some s' → inv s') (h : Run step s l s')
    (hl : ∀ e ∈ l, good e) (hs : inv s) : inv s' := by
  induction h with
  | nil => exact hs
  | snoc _ he ih =>
    have hbefore := ih fun e he => hl e (List.mem_append_left _ he)
    exact hstep _ _ _ hbefore (hl _ (List.mem_append_right _ List.mem_cons_self)) he

/-- What does not hold at the start and holds at the end came about with one of the events. -/
theorem established {p : σ → Prop} (h : Run step s l s') (hs : ¬p s) (hp : p s') :
    ∃ before e after t t', l = before ++ e :: after ∧ Run step s before t ∧
      step t e = some t' ∧ ¬p t ∧ p t' := by
  induction h with
  | nil => exact absurd hp hs
  | snoc hrun he ih =>
    rename_i l t e t'
    by_cases ht : p t
    · obtain ⟨before, e₁, after, t₁, t₂, hl, hrest⟩ := ih ht
      refine ⟨before, e₁, after ++ [e], t₁, t₂, ?_, hrest⟩
      rw [hl, List.append_assoc, List.cons_append]
    · exact ⟨l, e, [], t, t', rfl, hrun, he, ht, hp⟩

/-- A measure that every event makes smaller bounds the length of every run. -/
theorem length_add_le (measure : σ → Nat)
    (hless : ∀ s e s', step s e = some s' → measure s' < measure s) (h : Run step s l s') :
    l.length + measure s' ≤ measure s := by
  induction h with
  | nil => simp
  | snoc _ he ih =>
    have hlast := hless _ _ _ he
    rw [List.length_append, List.length_singleton]
    omega

/-- Where every state that is not final enables one of the `good` events, which leads to a smaller
one, a final state is reached by good events alone. -/
theorem reaches {inv final : σ → Prop} {good : ε → Prop} (measure : σ → Nat)
    (hgood : ∀ s, inv s → ¬final s →
      ∃ e s', good e ∧ step s e = some s' ∧ inv s' ∧ measure s' < measure s) (hs : inv s) :
    ∃ l s', Run step s l s' ∧ (∀ e ∈ l, good e) ∧ inv s' ∧ final s' := by
  induction hn : measure s using Nat.strongRecOn generalizing s with
  | _ n ih =>
    by_cases hfinal : final s
    · exact ⟨[], s, nil, fun _ he => absurd he List.not_mem_nil, hs, hfinal⟩
    · obtain ⟨e, s', he, hse, hs', hless⟩ := hgood s hs hfinal
      obtain ⟨l, s'', hrun, hl, hs''⟩ := ih (measure s') (hn ▸ hless) hs' rfl
      refine ⟨e :: l, s'', (single hse).append hrun, fun a ha => ?_, hs''⟩
      rcases List.mem_cons.1 ha with rfl | ha
      · exact he
      · exact hl a ha

/-- Where every event is seen as some events of an abstract system, every run is seen as a run. -/
theorem refines {inv : σ → Prop} (view : σ → τ)
    (hstep : ∀ s e s', inv s → step s e = some s' → inv s' ∧ ∃ m, Run act (view s) m (view s'))
    (h : Run step s l s') (hs : inv s) : inv s' ∧ ∃ m, Run act (view s) m (view s') := by
  induction h with
  | nil => exact ⟨hs, [], nil⟩
  | snoc _ he ih =>
    obtain ⟨hinv, m, hm⟩ := ih
    obtain ⟨hinv', m', hm'⟩ := hstep _ _ _ hinv he
    exact ⟨hinv', m ++ m', hm.append hm'⟩

end Run
end Transitions
