import Mathlib.Data.List.Basic

namespace PmTiny
set_option autoImplicit true

/-- A reader of the front of a stream. What it reads does not depend on what comes after. -/
structure StreamReader (β ε α : Type) where
  run : List β → Except ε (α × List β)
  stable : ∀ {l a rest}, run l = .ok (a, rest) → ∀ m, run (l ++ m) = .ok (a, rest ++ m)

namespace StreamReader

variable {β ε α γ : Type}

instance : Monad (StreamReader β ε) where
  pure a := ⟨fun l => .ok (a, l), by
    intro l b rest h m
    cases h
    rfl⟩
  bind r k := ⟨fun l => (r.run l).bind fun read => (k read.1).run read.2, by
    intro l b rest h m
    cases hr : r.run l with
    | error e =>
      rw [hr] at h
      cases h
    | ok pair =>
      rw [hr] at h
      rw [r.stable hr m]
      exact (k pair.1).stable h m⟩

def refuseIf (condition : Prop) [Decidable condition] (error : ε) : StreamReader β ε Unit :=
  ⟨fun l => if condition then .error error else .ok ((), l), by
    intro l a rest h m
    split at h
    · cases h
    · cases h
      rename_i hnot
      rw [if_neg hnot]⟩

def many (r : StreamReader β ε α) : Nat → StreamReader β ε (List α)
  | 0 => pure []
  | n + 1 => do
    let a ← r
    let as ← many r n
    pure (a :: as)

theorem run_pure (a : α) (l : List β) :
    (pure a : StreamReader β ε α).run l = .ok (a, l) := rfl

theorem run_bind {r : StreamReader β ε α} {k : α → StreamReader β ε γ}
    (h : r.run l = .ok (a, rest)) :
    (r >>= k).run l = (k a).run rest := by
  change (r.run l).bind _ = _
  rw [h]
  rfl

theorem run_bind_eq_ok {r : StreamReader β ε α} {k : α → StreamReader β ε γ} :
    (r >>= k).run l = .ok (c, rest) ↔ ∃ a l', r.run l = .ok (a, l') ∧
    (k a).run l' = .ok (c, rest) := by
  cases hr : r.run l with
  | error e =>
    have hfail : (r >>= k).run l = .error e := by
      change (r.run l).bind _ = _
      rw [hr]
      rfl
    rw [hfail]
    constructor
    · intro h
      cases h
    · rintro ⟨_, _, h, _⟩
      cases h
  | ok pair =>
    rw [run_bind hr]
    constructor
    · intro h
      exact ⟨_, _, rfl, h⟩
    · rintro ⟨a, l', h, hk⟩
      cases h
      exact hk

theorem run_refuseIf_eq_ok {condition : Prop} [Decidable condition] {l : List β} :
    (refuseIf condition e).run l = .ok (u, rest) ↔ ¬condition ∧ l = rest := by
  rw [refuseIf]
  split_ifs with h
  · simp [h]
  · simp [h]

theorem run_refuseIf_bind {condition : Prop} [Decidable condition] {k : Unit → StreamReader β ε γ}
    (h : ¬condition) : (refuseIf condition e >>= k).run l = (k ()).run l :=
  run_bind (run_refuseIf_eq_ok.2 ⟨h, rfl⟩)

/-- `r` reads `l` to its end as `a`. -/
def Reads (r : StreamReader β ε α) (l : List β) (a : α) : Prop := r.run l = .ok (a, [])

theorem Reads.append {r : StreamReader β ε α} (h : r.Reads l a) (m : List β) :
    r.run (l ++ m) = .ok (a, m) := r.stable h m

theorem Reads.bind {r : StreamReader β ε α} {k : α → StreamReader β ε γ} (h : r.Reads l a)
    (hk : (k a).Reads m c) : (r >>= k).Reads (l ++ m) c := (run_bind (h.append m)).trans hk

/-- A stream that is read to its end has no other part that can be read. -/
theorem Reads.of_append {r : StreamReader β ε α} (h : r.Reads (l ++ m) a)
    (hl : r.run l = .ok (b, rest)) : rest = [] ∧ m = [] ∧ b = a := by
  have hlong := r.stable hl m
  rw [h] at hlong
  obtain ⟨hvalue, hrest⟩ := Prod.mk.inj (Except.ok.inj hlong)
  obtain ⟨hnil, hm⟩ := List.append_eq_nil_iff.1 hrest.symm
  exact ⟨hnil, hm, hvalue.symm⟩

theorem Reads.truncated {r : StreamReader β ε α} (h : r.Reads (l ++ m) a) (hm : m ≠ []) :
    ∃ e, r.run l = .error e := by
  cases hl : r.run l with
  | error e => exact ⟨e, rfl⟩
  | ok pair => exact absurd (h.of_append hl).2.1 hm

theorem reads_many {r : StreamReader β ε α} {write : α → List β} {as : List α}
    (h : ∀ a ∈ as, r.Reads (write a) a) : (r.many as.length).Reads (as.flatMap write) as := by
  induction as with
  | nil => rfl
  | cons a as ih =>
    obtain ⟨ha, has⟩ := List.forall_mem_cons.1 h
    rw [List.length_cons, List.flatMap_cons]
    apply ha.bind
    have hrest := (ih has).bind (k := fun as => pure (a :: as)) (m := []) rfl
    rwa [List.append_nil] at hrest

/-- If every item that is read is what was written for it, so is the list of them. -/
theorem run_many_eq_ok {r : StreamReader β ε α} {write : α → List β} {valid : α → Prop}
    (hr : ∀ {l a rest}, r.run l = .ok (a, rest) ↔ valid a ∧ l = write a ++ rest) :
    (r.many n).run l = .ok (as, rest) ↔
      as.length = n ∧ (∀ a ∈ as, valid a) ∧ l = as.flatMap write ++ rest := by
  induction n generalizing l as rest with
  | zero =>
    rw [many, run_pure]
    constructor
    · intro h
      cases h
      exact ⟨rfl, fun _ ha => absurd ha List.not_mem_nil, rfl⟩
    · rintro ⟨hlength, -, rfl⟩
      rw [List.eq_nil_of_length_eq_zero hlength]
      rfl
  | succ n ih =>
    simp only [many, run_bind_eq_ok, run_pure, hr, ih]
    constructor
    · rintro ⟨a, l', ⟨ha, rfl⟩, tail, l'', ⟨rfl, htail, rfl⟩, h⟩
      cases h
      exact ⟨rfl, List.forall_mem_cons.2 ⟨ha, htail⟩, by rw [List.flatMap_cons, List.append_assoc]⟩
    · rintro ⟨hlength, has, rfl⟩
      cases as with
      | nil => cases hlength
      | cons a as =>
        obtain ⟨ha, has⟩ := List.forall_mem_cons.1 has
        rw [List.flatMap_cons, List.append_assoc]
        exact ⟨a, _, ⟨ha, rfl⟩, as, _, ⟨Nat.succ.inj hlength, has, rfl⟩, rfl⟩

/-- Whatever `r` reads, it takes it off the front of the stream, and `post` holds of the value and
the part that was taken. -/
def Leaves (r : StreamReader β ε α) (post : α → List β → Prop) : Prop :=
  ∀ {l a rest}, r.run l = .ok (a, rest) → ∃ used, l = used ++ rest ∧ post a used

theorem Leaves.bind {r : StreamReader β ε α} {k : α → StreamReader β ε γ}
    {write : α → List β} {valid : α → Prop} {post : γ → List β → Prop}
    (hr : ∀ {l a rest}, r.run l = .ok (a, rest) → valid a ∧ l = write a ++ rest)
    (hk : ∀ a, valid a → (k a).Leaves fun c used => post c (write a ++ used)) :
    (r >>= k).Leaves post := by
  intro l c rest h
  obtain ⟨a, l', ha, hc⟩ := run_bind_eq_ok.1 h
  obtain ⟨hvalid, rfl⟩ := hr ha
  obtain ⟨used, rfl, hpost⟩ := hk a hvalid hc
  exact ⟨write a ++ used, (List.append_assoc ..).symm, hpost⟩

theorem Leaves.refuseIf {condition : Prop} [Decidable condition] {k : Unit → StreamReader β ε γ}
    {post : γ → List β → Prop} (hk : ¬condition → (k ()).Leaves post) :
    (refuseIf condition e >>= k).Leaves post := by
  intro l c rest h
  obtain ⟨u, l', hu, hc⟩ := run_bind_eq_ok.1 h
  obtain ⟨hnot, rfl⟩ := run_refuseIf_eq_ok.1 hu
  exact hk hnot hc

theorem Leaves.pure {post : α → List β → Prop} (h : post a []) :
    (pure a : StreamReader β ε α).Leaves post := by
  intro l c rest hc
  cases hc
  exact ⟨[], rfl, h⟩

end StreamReader
end PmTiny
