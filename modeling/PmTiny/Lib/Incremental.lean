import Mathlib.Data.List.Basic

namespace PmTiny
set_option autoImplicit true

/-- What stands at the front of an input: an incomplete item, something that is no item, or an
item with the input after it. -/
inductive Front (α β ε : Type) where
  | more
  | bad (error : ε)
  | item (value : β) (rest : List α)

/-- What is found at the front does not depend on what arrives later. -/
structure Incremental (front : List α → Front α β ε) : Prop where
  shorter : front l = .item b rest → rest.length < l.length
  item : front l = .item b rest → ∀ m, front (l ++ m) = .item b (rest ++ m)
  bad : front l = .bad e → ∀ m, front (l ++ m) = .bad e

inductive Drains (front : List α → Front α β ε) : List α → List β → List α → Option ε → Prop
  | more : front l = .more → Drains front l [] l none
  | bad : front l = .bad e → Drains front l [] l (some e)
  | item : front l = .item b rest → Drains front rest bs l' r → Drains front l (b :: bs) l' r

namespace Drains

variable {front : List α → Front α β ε}

theorem rest_none (h : Drains front l bs l' r) (hr : r = none) : front l' = .more := by
  induction h with
  | more hm => exact hm
  | bad => cases hr
  | item _ _ ih => exact ih hr

theorem rest_some (h : Drains front l bs l' r) (hr : r = some e) : front l' = .bad e := by
  induction h with
  | more => cases hr
  | bad hb =>
    cases hr
    exact hb
  | item _ _ ih => exact ih hr

theorem unique (h : Drains front l bs l' r) (h₂ : Drains front l bs₂ l₂ r₂) :
    bs = bs₂ ∧ l' = l₂ ∧ r = r₂ := by
  induction h generalizing bs₂ with
  | more hf =>
    cases h₂ with
    | more => exact ⟨rfl, rfl, rfl⟩
    | bad hf' => cases hf.symm.trans hf'
    | item hf' => cases hf.symm.trans hf'
  | bad hf =>
    cases h₂ with
    | more hf' => cases hf.symm.trans hf'
    | bad hf' =>
      cases hf.symm.trans hf'
      exact ⟨rfl, rfl, rfl⟩
    | item hf' => cases hf.symm.trans hf'
  | item hf _ ih =>
    cases h₂ with
    | more hf' => cases hf.symm.trans hf'
    | bad hf' => cases hf.symm.trans hf'
    | item hf' h₂ =>
      cases hf.symm.trans hf'
      obtain ⟨rfl, rfl, rfl⟩ := ih h₂
      exact ⟨rfl, rfl, rfl⟩

/-- Input that arrives after a bad item changes nothing. -/
theorem stuck (hi : Incremental front) (h : Drains front l bs l' (some e)) (m : List α) :
    Drains front (l ++ m) bs (l' ++ m) (some e) := by
  generalize hr : some e = r at h
  induction h with
  | more => cases hr
  | bad hf =>
    cases hr
    exact .bad (hi.bad hf m)
  | item hf _ ih => exact .item (hi.item hf m) (ih hr)

/-- Draining what is left together with the next chunk continues the first drain. -/
theorem append (hi : Incremental front) (h : Drains front l bs l' none)
    (h₂ : Drains front (l' ++ m) bs₂ l₂ r) : Drains front (l ++ m) (bs ++ bs₂) l₂ r := by
  generalize hr : (none : Option ε) = r' at h
  induction h with
  | more => exact h₂
  | bad => cases hr
  | item hf _ ih => exact .item (hi.item hf m) (ih h₂ hr)

/-- Input that is cut short drains to the first of the items, and to nothing that is no item. -/
theorem cut (hi : Incremental front) (h : Drains front (l ++ m) bs l' none)
    (hl : Drains front l bs₁ l₁ r) (hm : ∃ bs₂ l₂ r₂, Drains front (l₁ ++ m) bs₂ l₂ r₂) :
    bs₁ <+: bs ∧ r = none := by
  cases r with
  | some e =>
    obtain ⟨-, -, hr⟩ := h.unique (hl.stuck hi m)
    cases hr
  | none =>
    obtain ⟨bs₂, l₂, r₂, h₂⟩ := hm
    obtain ⟨hbs, -, -⟩ := h.unique (hl.append hi h₂)
    exact ⟨⟨bs₂, hbs.symm⟩, rfl⟩

end Drains

end PmTiny
