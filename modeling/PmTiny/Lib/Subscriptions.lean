import Mathlib.Data.List.Nodup

namespace Subscriptions
set_option autoImplicit true

variable {S P : Type} {subs : P → List S} {active : S → Bool} {back : S → Option P}

/-- Each publisher lists its active subscribers once, and each subscriber points back to it. -/
structure Agree (subs : P → List S) (active : S → Bool) (back : S → Option P) : Prop where
  nodup : ∀ p, (subs p).Nodup
  bound : ∀ p x, x ∈ subs p → active x = true ∧ back x = some p
  listed : ∀ x p, active x = true → back x = some p → x ∈ subs p

namespace Agree

theorem not_mem_of_none (h : Agree subs active back) (hx : back x = none) : x ∉ subs p := by
  intro hm
  rw [(h.bound p x hm).2] at hx
  cases hx

variable [DecidableEq S] [DecidableEq P]

theorem leave (h : Agree subs active back) (x : S)
    (hsubs : ∀ p, subs' p = if back x = some p then (subs p).filter (· ≠ x) else subs p)
    (hactive : ∀ y, active' y = if y = x then false else active y)
    (hback : ∀ y, back' y = if y = x then none else back y) : Agree subs' active' back' := by
  have hmem : ∀ p y, y ∈ subs' p ↔ y ∈ subs p ∧ y ≠ x := by
    intro p y
    rw [hsubs]
    split
    · simp
    · rename_i hne
      constructor
      · intro hy
        refine ⟨hy, ?_⟩
        rintro rfl
        exact hne (h.bound p y hy).2
      · exact fun hy => hy.1
  refine ⟨?_, ?_, ?_⟩
  · intro p
    rw [hsubs]
    split
    · exact (h.nodup p).filter _
    · exact h.nodup p
  · intro p y hy
    obtain ⟨hy, hne⟩ := (hmem p y).1 hy
    rw [hactive, hback, if_neg hne, if_neg hne]
    exact h.bound p y hy
  · intro y p ha hb
    rw [hactive] at ha
    rw [hback] at hb
    by_cases hne : y = x
    · rw [if_pos hne] at hb
      cases hb
    · rw [if_neg hne] at ha hb
      exact (hmem p y).2 ⟨h.listed y p ha hb, hne⟩

theorem join (h : Agree subs active back) (hx : active x = true) (hn : back x = none)
    (hsubs : ∀ q, subs' q = if q = p then subs p ++ [x] else subs q)
    (hback : ∀ y, back' y = if y = x then some p else back y) : Agree subs' active back' := by
  refine ⟨?_, ?_, ?_⟩
  · intro q
    rw [hsubs]
    split
    · rw [List.nodup_append]
      refine ⟨h.nodup p, by simp, ?_⟩
      rintro y hy z hz rfl
      rw [List.mem_singleton.1 hz] at hy
      exact h.not_mem_of_none hn hy
    · exact h.nodup q
  · intro q y hy
    rw [hsubs] at hy
    rw [hback]
    have hold : y ∈ subs q → active y = true ∧ (if y = x then some p else back y) = some q := by
      intro hm
      rw [if_neg]
      · exact h.bound q y hm
      · rintro rfl
        exact h.not_mem_of_none hn hm
    split at hy
    · rename_i hq
      subst hq
      rcases List.mem_append.1 hy with hy | hy
      · exact hold hy
      · rw [List.mem_singleton.1 hy, if_pos rfl]
        exact ⟨hx, rfl⟩
    · exact hold hy
  · intro y q ha hb
    rw [hback] at hb
    rw [hsubs]
    by_cases hy : y = x
    · rw [if_pos hy] at hb
      cases hb
      rw [if_pos rfl, hy]
      simp
    · rw [if_neg hy] at hb
      have hm := h.listed y q ha hb
      split
      · rename_i hq
        subst hq
        exact List.mem_append_left _ hm
      · exact hm

theorem dropAll (h : Agree subs active back) (p : P)
    (hsubs : ∀ q, subs' q = if q = p then [] else subs q)
    (hback : ∀ y, back' y = if y ∈ subs p then none else back y) : Agree subs' active back' := by
  refine ⟨?_, ?_, ?_⟩
  · intro q
    rw [hsubs]
    split
    · exact List.nodup_nil
    · exact h.nodup q
  · intro q y hy
    rw [hsubs] at hy
    split at hy
    · cases hy
    · rename_i hq
      obtain ⟨ha, hb⟩ := h.bound q y hy
      refine ⟨ha, ?_⟩
      rw [hback, if_neg, hb]
      intro hm
      rw [(h.bound p y hm).2] at hb
      cases hb
      exact hq rfl
  · intro y q ha hb
    rw [hback] at hb
    rw [hsubs]
    split at hb
    · cases hb
    · rename_i hm
      have hy := h.listed y q ha hb
      rw [if_neg]
      · exact hy
      · rintro rfl
        exact hm hy

end Agree

end Subscriptions
