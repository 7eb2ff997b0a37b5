import Mathlib.Logic.Relation

namespace Crash
set_option autoImplicit true

/-- The atomic calls a program makes, one after another, on a state that outlives it. -/
inductive Program (σ α : Type) where
  | done (result : α)
  | step (act : σ → σ) (next : σ → Program σ α)

namespace Program

/-- One call: its effect on the state, and its result. -/
def call (f : σ → σ × α) : Program σ α := .step (fun s => (f s).1) fun s => .done (f s).2

protected def bind : Program σ α → (α → Program σ β) → Program σ β
  | .done a, f => f a
  | .step act next, f => .step act fun s => (next s).bind f

instance : Monad (Program σ) where
  pure := .done
  bind := Program.bind

/-- Where a run that is not cut short ends, and what it returns. -/
def run : Program σ α → σ → σ × α
  | .done a, s => (s, a)
  | .step act next, s => (next s).run (act s)

theorem run_bind (p : Program σ α) (f : α → Program σ β) (s : σ) :
    (p >>= f).run s = (f (p.run s).2).run (p.run s).1 := by
  induction p generalizing s with
  | done a => rfl
  | step act next ih => exact ih s (act s)

/-- Whatever the program returns, `P` survives it. -/
def Keeps (P : σ → Prop) (p : Program σ α) : Prop := ∀ s, P s → P (p.run s).1

variable {P : σ → Prop}

theorem keeps_pure (a : α) : Keeps P (pure a : Program σ α) := fun _ h => h

theorem keeps_call {f : σ → σ × α} (h : ∀ s, P s → P (f s).1) : Keeps P (.call f) := h

theorem keeps_bind {p : Program σ α} {f : α → Program σ β} (hp : Keeps P p)
    (hf : ∀ a, Keeps P (f a)) : Keeps P (p >>= f) := by
  intro s h
  rw [run_bind]
  exact hf _ _ (hp s h)

theorem keeps_guard {p : Program σ Bool} {q r : Program σ α} (hp : Keeps P p) (hq : Keeps P q)
    (hr : Keeps P r) : Keeps P (do if ← p then q else r) := by
  apply keeps_bind hp
  intro ok
  split
  · exact hq
  · exact hr

end Program

/-- A crash before the first call, between two calls or after the last one leaves this state. -/
inductive Leaves : Program σ α → σ → σ → Prop
  | here : Leaves p s s
  | later : Leaves (next s) (act s) s' → Leaves (.step act next) s s'

theorem Leaves.run (p : Program σ α) (s : σ) : Leaves p s (p.run s).1 := by
  induction p generalizing s with
  | done a => exact .here
  | step act next ih => exact .later (ih s (act s))

/-- Whenever the program crashes `inv` holds, and when it ends `post` does too. -/
def Safe (inv : σ → Prop) (post : α → σ → Prop) : Program σ α → σ → Prop
  | .done a, s => inv s ∧ post a s
  | .step act next, s => inv s ∧ Safe inv post (next s) (act s)

namespace Safe

variable {inv inv' : σ → Prop} {post post' : α → σ → Prop} {p : Program σ α} {s : σ}

theorem leaves (h : Safe inv post p s) (hc : Leaves p s s') : inv s' := by
  induction hc with
  | @here p s =>
    cases p with
    | done a => exact h.1
    | step act next => exact h.1
  | later _ ih => exact ih h.2

theorem run (h : Safe inv post p s) : inv (p.run s).1 ∧ post (p.run s).2 (p.run s).1 := by
  induction p generalizing s with
  | done a => exact h
  | step act next ih => exact ih s h.2

theorem bind {post : β → σ → Prop} {f : α → Program σ β}
    (h : Safe inv (fun a s => Safe inv post (f a) s) p s) : Safe inv post (p >>= f) s := by
  induction p generalizing s with
  | done a => exact h.2
  | step act next ih => exact ⟨h.1, ih s h.2⟩

theorem mono (h : Safe inv post p s) (hi : ∀ s, inv s → inv' s)
    (hp : ∀ a s, inv s → post a s → post' a s) : Safe inv' post' p s := by
  induction p generalizing s with
  | done a => exact ⟨hi s h.1, hp a s h.1 h.2⟩
  | step act next ih => exact ⟨hi s h.1, ih s h.2⟩

theorem pure (hi : inv s) (h : post a s) : Safe inv post (Pure.pure a : Program σ α) s := ⟨hi, h⟩

theorem call {f : σ → σ × α} (hi : inv s) (hi' : inv (f s).1) (h : post (f s).2 (f s).1) :
    Safe inv post (.call f) s := ⟨hi, hi', h⟩

end Safe

/-- Safety in terms of what a view shows of the state; of the rest, only what `keep` says is
known. -/
def SafeAt (view : σ → δ) (keep : σ → Prop) (inv : δ → Prop) (post : α → δ → Prop)
    (p : Program σ α) (d : δ) : Prop :=
  ∀ s, keep s → view s = d →
    Safe (fun s => keep s ∧ inv (view s)) (fun a s => post a (view s)) p s

namespace SafeAt

variable {view : σ → δ} {keep : σ → Prop} {inv : δ → Prop} {post post' : α → δ → Prop}
  {p : Program σ α} {d : δ}

theorem bind {post : β → δ → Prop} {f : α → Program σ β}
    (h : SafeAt view keep inv (fun a d => SafeAt view keep inv post (f a) d) p d) :
    SafeAt view keep inv post (p >>= f) d := by
  intro s hk hs
  apply Safe.bind
  apply (h s hk hs).mono
  · exact fun _ hi => hi
  · exact fun a s' hi ha => ha s' hi.1 rfl

theorem pure (hi : inv d) (h : post a d) :
    SafeAt view keep inv post (Pure.pure a : Program σ α) d := by
  intro s hk hs
  subst hs
  exact Safe.pure ⟨hk, hi⟩ h

theorem mono (h : SafeAt view keep inv post p d) (hp : ∀ a d, inv d → post a d → post' a d) :
    SafeAt view keep inv post' p d := by
  intro s hk hs
  exact (h s hk hs).mono (fun _ hi => hi) fun a s' hi ha => hp a (view s') hi.2 ha

theorem call {f : σ → σ × α} (hi : inv d)
    (h : ∀ s, keep s → view s = d →
      keep (f s).1 ∧ inv (view (f s).1) ∧ post (f s).2 (view (f s).1)) :
    SafeAt view keep inv post (.call f) d := by
  intro s hk hs
  obtain ⟨hk', hi', hp⟩ := h s hk hs
  subst hs
  exact Safe.call ⟨hk, hi⟩ ⟨hk', hi'⟩ hp

end SafeAt

/-- A crash, or a run to the end, after each of any number of starts. -/
def Restarts (p : Program σ α) : σ → σ → Prop := Relation.ReflTransGen (Leaves p)

/-- What every start finds and leaves holds after any number of crashes. -/
theorem Restarts.invariant {p : Program σ α} (h : ∀ s, inv s → Safe inv post p s)
    (hr : Restarts p s s') (hs : inv s) : inv s' := by
  induction hr with
  | refl => exact hs
  | tail _ hc ih => exact (h _ ih).leaves hc

end Crash
