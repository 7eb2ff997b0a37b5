import Mathlib.Data.List.Nodup
import Mathlib.Data.Finset.Card
import Mathlib.Data.Finset.Range
import Mathlib.Logic.Function.Basic
import Mathlib.Logic.Relation

namespace Search
set_option autoImplicit true

/-- Mark, record and queue the successors that were not visited yet. -/
def discover : List Nat → (Nat → Bool) → List Nat → List Nat → (Nat → Bool) × List Nat × List Nat
  | [], visited, result, queue => (visited, result, queue)
  | d :: ds, visited, result, queue =>
    if visited d then discover ds visited result queue
    else discover ds (Function.update visited d true) (result ++ [d]) (queue ++ [d])

def loop (succ : Nat → List Nat) : Nat → (Nat → Bool) → List Nat → List Nat → List Nat
  | 0, _, result, _ => result
  | _ + 1, _, result, [] => result
  | fuel + 1, visited, result, current :: queue =>
    let next := discover (succ current) visited result queue
    loop succ fuel next.1 next.2.1 next.2.2

/-- Breadth-first search over the nodes below `n`, without the starting node. -/
def reachable (n : Nat) (succ : Nat → List Nat) (start : Nat) : List Nat :=
  loop succ n (fun i => i == start) [] [start]

/-- The nodes seen so far, in the order in which they entered the queue. -/
structure Inv (n : Nat) (succ : Nat → List Nat) (start : Nat) (done : List Nat)
    (visited : Nat → Bool) (result queue : List Nat) : Prop where
  split : done ++ queue = start :: result
  visited_iff : ∀ x, visited x = true ↔ x ∈ start :: result
  nodup : (start :: result).Nodup
  lt : ∀ x ∈ start :: result, x < n
  path : ∀ x ∈ result, Relation.TransGen (fun a b => b ∈ succ a) start x

theorem discover_inv (ds : List Nat) (hlt : ∀ d ∈ ds, d < n)
    (hpath : ∀ d ∈ ds, Relation.TransGen (fun a b => b ∈ succ a) start d)
    (h : Inv n succ start done visited result queue) :
    Inv n succ start done (discover ds visited result queue).1
      (discover ds visited result queue).2.1
        (discover ds visited result queue).2.2 ∧
      ∀ x, (discover ds visited result queue).1 x = true ↔ visited x = true ∨ x ∈ ds := by
  induction ds generalizing visited result queue with
  | nil => exact ⟨h, by simp [discover]⟩
  | cons d ds ih =>
    have hlt' : ∀ x ∈ ds, x < n := fun x hx => hlt x (List.mem_cons_of_mem _ hx)
    have hpath' := fun x hx => hpath x (List.mem_cons_of_mem d hx)
    rw [discover]
    split
    · rename_i hv
      obtain ⟨hi, hm⟩ := ih hlt' hpath' h
      refine ⟨hi, fun x => ?_⟩
      rw [hm, List.mem_cons]
      grind
    · rename_i hv
      have hd : d ∉ start :: result := fun hx => hv ((h.visited_iff d).2 hx)
      have h' : Inv n succ start done (Function.update visited d true) (result ++ [d])
          (queue ++ [d]) := by
        refine ⟨?_, ?_, ?_, ?_, ?_⟩
        · rw [← List.append_assoc, h.split, List.cons_append]
        · intro x
          by_cases hx : x = d
          · subst x
            simp
          · rw [Function.update_of_ne hx, h.visited_iff, ← List.cons_append, List.mem_append]
            simp [hx]
        · rw [← List.cons_append, List.nodup_append]
          refine ⟨h.nodup, by simp, ?_⟩
          intro a ha b hb he
          rw [List.mem_singleton] at hb
          exact hd (hb ▸ he ▸ ha)
        · intro x hx
          rw [← List.cons_append, List.mem_append, List.mem_singleton] at hx
          rcases hx with hx | hx
          · exact h.lt x hx
          · exact hx ▸ hlt d List.mem_cons_self
        · intro x hx
          rw [List.mem_append, List.mem_singleton] at hx
          rcases hx with hx | hx
          · exact h.path x hx
          · exact hx ▸ hpath d List.mem_cons_self
      obtain ⟨hi, hm⟩ := ih hlt' hpath' h'
      refine ⟨hi, fun x => ?_⟩
      rw [hm, List.mem_cons]
      by_cases hx : x = d
      · simp [hx]
      · simp [hx]

theorem Inv.length_le (h : Inv n succ start done visited result queue) :
    done.length + queue.length ≤ n := by
  have hsub : (start :: result).toFinset ⊆ Finset.range n :=
    fun x hx => Finset.mem_range.2 (h.lt x (List.mem_toFinset.1 hx))
  have hcard := Finset.card_le_card hsub
  rw [List.toFinset_card_of_nodup h.nodup, Finset.card_range, ← h.split] at hcard
  simpa using hcard

/-- The search stops with an empty queue and every recorded node expanded. -/
theorem loop_inv (hsucc : ∀ d i, i ∈ succ d → i < n) (fuel : Nat)
    (h : Inv n succ start done visited result queue) (hf : done.length + fuel = n)
    (hc : ∀ x ∈ done, ∀ y ∈ succ x, visited y = true) :
    ∃ done' visited', Inv n succ start done' visited' (loop succ fuel visited result queue) [] ∧
      ∀ x ∈ done', ∀ y ∈ succ x, visited' y = true := by
  induction fuel generalizing done visited result queue with
  | zero =>
    have hl := h.length_le
    have hq : queue = [] := List.eq_nil_of_length_eq_zero (by omega)
    subst queue
    exact ⟨done, visited, by simpa [loop] using h, hc⟩
  | succ fuel ih =>
    cases queue with
    | nil => exact ⟨done, visited, by simpa [loop] using h, hc⟩
    | cons current queue =>
      rw [loop]
      have hmem : current ∈ start :: result := by rw [← h.split]; simp
      have hpath : ∀ d ∈ succ current, Relation.TransGen (fun a b => b ∈ succ a) start d := by
        intro d hd
        rcases List.mem_cons.1 hmem with he | hr
        · exact .single (he ▸ hd)
        · exact (h.path current hr).tail hd
      have h' : Inv n succ start (done ++ [current]) visited result queue :=
        ⟨by rw [← h.split]; simp, h.visited_iff, h.nodup, h.lt, h.path⟩
      obtain ⟨hi, hm⟩ := discover_inv (succ current) (hsucc current) hpath h'
      apply ih hi
      · simp only [List.length_append, List.length_singleton]
        omega
      · intro x hx y hy
        rw [hm]
        rcases List.mem_append.1 hx with hx | hx
        · exact .inl (hc x hx y hy)
        · rw [List.mem_singleton] at hx
          exact .inr (hx ▸ hy)

theorem reachable_nodup (hsucc : ∀ d i, i ∈ succ d → i < n) (hs : start < n) :
    (reachable n succ start).Nodup := by
  have h0 : Inv n succ start [] (fun i => i == start) [] [start] :=
    ⟨rfl, by simp, by simp, by simpa using hs, by simp⟩
  obtain ⟨done, visited, h, -⟩ := loop_inv hsucc n h0 (by simp) (by simp)
  exact (List.nodup_cons.1 h.nodup).2

/-- The search finds exactly the nodes reachable through at least one edge. -/
theorem mem_reachable (hsucc : ∀ d i, i ∈ succ d → i < n) (hs : start < n) :
    x ∈ reachable n succ start ↔
      x ≠ start ∧ Relation.TransGen (fun a b => b ∈ succ a) start x := by
  have h0 : Inv n succ start [] (fun i => i == start) [] [start] :=
    ⟨rfl, by simp, by simp, by simpa using hs, by simp⟩
  obtain ⟨done, visited, h, hc⟩ := loop_inv hsucc n h0 (by simp) (by simp)
  have hsplit := h.split
  rw [List.append_nil] at hsplit
  subst done
  constructor
  · intro hx
    refine ⟨?_, h.path x hx⟩
    rintro rfl
    exact (List.nodup_cons.1 h.nodup).1 hx
  · rintro ⟨hne, hp⟩
    have hv : visited x = true := by
      clear hne
      induction hp with
      | single he => exact hc start List.mem_cons_self _ he
      | tail _ he ih => exact hc _ ((h.visited_iff _).1 ih) _ he
    rcases List.mem_cons.1 ((h.visited_iff x).1 hv) with he | hr
    · exact (hne he).elim
    · exact hr

end Search
