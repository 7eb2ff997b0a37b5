import Mathlib.Logic.Function.Basic
import Mathlib.Logic.Relation

namespace DepthFirst
set_option autoImplicit true

/-- Mark a node and, from it on, the nodes that are not marked yet. -/
def mark [DecidableEq α] (succ : α → List α) : Nat → (α → Bool) → α → (α → Bool)
  | 0, marked, _ => marked
  | fuel + 1, marked, node =>
    if marked node then marked
    else (succ node).foldl (mark succ fuel) (Function.update marked node true)

/-- What a search from `roots` adds to the marks. -/
structure Extends (succ : α → List α) (roots : List α) (marked marked' : α → Bool) : Prop where
  keeps : ∀ x, marked x = true → marked' x = true
  found : ∀ r ∈ roots, marked' r = true
  closed : ∀ x, marked' x = true → marked x = false → ∀ y ∈ succ x, marked' y = true
  reached : ∀ x, marked' x = true →
    marked x = true ∨ ∃ r ∈ roots, Relation.ReflTransGen (fun a b => b ∈ succ a) r x

theorem extends_foldl {f : (α → Bool) → α → (α → Bool)} (l : List α)
    (hf : ∀ marked, ∀ r ∈ l, Extends succ [r] marked (f marked r)) (marked : α → Bool) :
    Extends succ l marked (l.foldl f marked) := by
  induction l generalizing marked with
  | nil =>
    constructor
    · exact fun _ hx => hx
    · exact fun _ hr => absurd hr List.not_mem_nil
    · intro x hx hfresh
      rw [List.foldl_nil, hfresh] at hx
      cases hx
    · exact fun _ hx => .inl hx
  | cons first rest ih =>
    have hfirst := hf marked first List.mem_cons_self
    have hrest := ih (fun marked r hr => hf marked r (List.mem_cons_of_mem first hr))
      (f marked first)
    rw [List.foldl_cons]
    constructor
    · exact fun x hx => hrest.keeps x (hfirst.keeps x hx)
    · intro r hr
      rcases List.mem_cons.1 hr with rfl | hr
      · exact hrest.keeps r (hfirst.found r List.mem_cons_self)
      · exact hrest.found r hr
    · intro x hx hfresh y hy
      cases hmid : f marked first x with
      | true => exact hrest.keeps y (hfirst.closed x hmid hfresh y hy)
      | false => exact hrest.closed x hx hmid y hy
    · intro x hx
      rcases hrest.reached x hx with hmid | ⟨r, hr, hpath⟩
      · rcases hfirst.reached x hmid with hold | ⟨r, hr, hpath⟩
        · exact .inl hold
        · exact .inr ⟨r, List.mem_cons.2 (.inl (List.mem_singleton.1 hr)), hpath⟩
      · exact .inr ⟨r, List.mem_cons_of_mem first hr, hpath⟩

section Ranked

variable [DecidableEq α] {succ : α → List α} {valid : α → Prop} {rank : α → Nat}
  (hrank : ∀ x, valid x → ∀ y ∈ succ x, valid y ∧ rank y < rank x)

include hrank

/-- The search comes to its end, since the rank falls along every edge. -/
theorem mark_extends (hvalid : valid node) (hfuel : rank node < fuel) (marked : α → Bool) :
    Extends succ [node] marked (mark succ fuel marked node) := by
  induction fuel generalizing node marked with
  | zero => cases hfuel
  | succ fuel ih =>
    rw [mark]
    split
    · rename_i hmarked
      constructor
      · exact fun _ hx => hx
      · intro r hr
        rw [List.mem_singleton.1 hr]
        exact hmarked
      · intro x hx hfresh
        rw [hfresh] at hx
        cases hx
      · exact fun _ hx => .inl hx
    · rename_i hfresh
      have hbelow := extends_foldl (succ node) (fun marked y hy =>
        ih (hrank node hvalid y hy).1 (by have := (hrank node hvalid y hy).2; omega) marked)
        (Function.update marked node true)
      have hnode := hbelow.keeps node (Function.update_self ..)
      constructor
      · intro x hx
        by_cases hxn : x = node
        · rw [hxn]
          exact hnode
        · exact hbelow.keeps x (by rw [Function.update_of_ne hxn]; exact hx)
      · intro r hr
        rw [List.mem_singleton.1 hr]
        exact hnode
      · intro x hx hold y hy
        by_cases hxn : x = node
        · subst hxn
          exact hbelow.found y hy
        · exact hbelow.closed x hx (by rw [Function.update_of_ne hxn]; exact hold) y hy
      · intro x hx
        rcases hbelow.reached x hx with hmid | ⟨y, hy, hpath⟩
        · by_cases hxn : x = node
          · subst hxn
            exact .inr ⟨x, List.mem_cons_self, .refl⟩
          · rw [Function.update_of_ne hxn] at hmid
            exact .inl hmid
        · exact .inr ⟨node, List.mem_cons_self, .head hy hpath⟩

/-- With no marks before, exactly the nodes that can be reached are marked. -/
theorem mark_iff (hvalid : valid node) (hfuel : rank node < fuel) :
    mark succ fuel (fun _ => false) node x = true ↔
      Relation.ReflTransGen (fun a b => b ∈ succ a) node x := by
  have h := mark_extends hrank hvalid hfuel fun _ => false
  constructor
  · intro hx
    rcases h.reached x hx with hfalse | ⟨r, hr, hpath⟩
    · cases hfalse
    · rw [List.mem_singleton.1 hr] at hpath
      exact hpath
  · intro hpath
    induction hpath with
    | refl => exact h.found node List.mem_cons_self
    | tail _ hedge ih => exact h.closed _ ih rfl _ hedge

end Ranked

end DepthFirst
