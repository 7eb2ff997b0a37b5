import Mathlib.Order.Bounds.Defs
import PmTiny.Lib.TopologicalSort

namespace LongestPath
set_option autoImplicit true

/-- A path of `k` edges that ends in a node and does not leave the nodes shown. -/
inductive Path (edge : α → α → Prop) (shown : α → Prop) : Nat → α → Prop where
  | start (h : shown x) : Path edge shown 0 x
  | step (h : Path edge shown k y) (hedge : edge x y) (hx : shown x) : Path edge shown (k + 1) x

theorem Path.end_shown (h : Path edge shown k x) : shown x := by
  cases h with
  | start h => exact h
  | step _ _ hx => exact hx

/-- Nodes that the edges do not leave are all that matters. -/
theorem Path.mono (valid : α → Prop) (h : Path edge shown k x) (hx : valid x)
    (hvalid : ∀ x y, valid x → edge x y → valid y) (hedge : ∀ x y, edge x y → edge' x y)
    (hshown : ∀ x, valid x → shown x → shown' x) : Path edge' shown' k x := by
  induction h with
  | start h => exact .start (hshown _ hx h)
  | step _ he hend ih => exact .step (ih (hvalid _ _ hx he)) (hedge _ _ he) (hshown _ hx hend)

def relax (deps : Nat → List Nat) (shown : Nat → Bool) (layers : Nat → Nat) (node : Nat) :
    Nat → Nat :=
  if shown node then
    (deps node).foldl (fun layers d =>
      if shown d then Function.update layers node (max (layers node) (layers d + 1)) else layers)
      layers
  else layers

def layers (deps : Nat → List Nat) (shown : Nat → Bool) (order : List Nat) : Nat → Nat :=
  order.foldl (relax deps shown) fun _ => 0

/-- Every node that was taken is right above the highest of its dependencies. -/
structure Settled (deps : Nat → List Nat) (shown : Nat → Bool) (done : List Nat)
    (layers : Nat → Nat) : Prop where
  fresh : ∀ i, i ∉ done → layers i = 0
  above : ∀ i ∈ done, shown i = true → ∀ d ∈ deps i, shown d = true → layers d + 1 ≤ layers i
  attained : ∀ i ∈ done, shown i = true →
    layers i = 0 ∨ ∃ d ∈ deps i, shown d = true ∧ layers i = layers d + 1

/-- What the loop over the dependencies `l` of a node changes. -/
structure Raised (shown : Nat → Bool) (node : Nat) (l : List Nat) (layers layers' : Nat → Nat) :
    Prop where
  others : ∀ i, i ≠ node → layers' i = layers i
  grows : layers node ≤ layers' node
  above : ∀ d ∈ l, shown d = true → layers d + 1 ≤ layers' node
  attained : layers' node = layers node ∨
    ∃ d ∈ l, shown d = true ∧ layers' node = layers d + 1

theorem raised_foldl (shown : Nat → Bool) (l : List Nat) (hnode : node ∉ l) (layers : Nat → Nat) :
    Raised shown node l layers (l.foldl (fun layers d =>
      if shown d then Function.update layers node (max (layers node) (layers d + 1)) else layers)
      layers) := by
  induction l generalizing layers with
  | nil =>
    exact ⟨fun _ _ => rfl, Nat.le_refl _, fun _ hd => absurd hd List.not_mem_nil, .inl rfl⟩
  | cons d rest ih =>
    rw [List.mem_cons, not_or] at hnode
    obtain ⟨hne, hrest⟩ := hnode
    rw [List.foldl_cons]
    by_cases hd : shown d = true
    · rw [if_pos hd]
      obtain ⟨hothers, hgrows, habove, hattained⟩ :=
        ih hrest (Function.update layers node (max (layers node) (layers d + 1)))
      rw [Function.update_self] at hgrows hattained
      have hkeep : ∀ e ∈ rest, Function.update layers node (max (layers node) (layers d + 1)) e =
          layers e := by
        intro e he
        have hne : e ≠ node := fun heq => hrest (heq ▸ he)
        exact Function.update_of_ne hne ..
      constructor
      · intro i hi
        rw [hothers i hi, Function.update_of_ne hi]
      · omega
      · intro e he hshown
        rcases List.mem_cons.1 he with rfl | he
        · omega
        · have hle := habove e he hshown
          rw [hkeep e he] at hle
          exact hle
      · rcases hattained with hsame | ⟨e, he, hshown, heq⟩
        · rcases Nat.le_total (layers node) (layers d + 1) with hle | hle
          · exact .inr ⟨d, List.mem_cons_self, hd, by omega⟩
          · exact .inl (by omega)
        · rw [hkeep e he] at heq
          exact .inr ⟨e, List.mem_cons_of_mem d he, hshown, heq⟩
    · rw [if_neg hd]
      obtain ⟨hothers, hgrows, habove, hattained⟩ := ih hrest layers
      refine ⟨hothers, hgrows, ?_, ?_⟩
      · intro e he hshown
        rcases List.mem_cons.1 he with rfl | he
        · exact absurd hshown hd
        · exact habove e he hshown
      · rcases hattained with hsame | ⟨e, he, hshown, heq⟩
        · exact .inl hsame
        · exact .inr ⟨e, List.mem_cons_of_mem d he, hshown, heq⟩

/-- One node more: its dependencies are settled, and it is nobody's dependency so far. -/
theorem Settled.relax {layers : Nat → Nat} (h : Settled deps shown done layers)
    (hdeps : ∀ d ∈ deps node, d ∈ done)
    (hnode : node ∉ done) (hclosed : ∀ i ∈ done, ∀ d ∈ deps i, d ∈ done) :
    Settled deps shown (done ++ [node]) (relax deps shown layers node) := by
  have hself : node ∉ deps node := fun hmem => hnode (hdeps node hmem)
  rw [LongestPath.relax]
  split
  · rename_i hshown
    obtain ⟨hothers, -, habove, hattained⟩ := raised_foldl shown (deps node) hself layers
    have hkeep : ∀ i ∈ done, (deps node).foldl (fun layers d =>
        if shown d then Function.update layers node (max (layers node) (layers d + 1))
        else layers) layers i = layers i :=
      fun i hi => hothers i fun heq => hnode (heq ▸ hi)
    constructor
    · intro i hi
      rw [List.mem_append, not_or] at hi
      obtain ⟨hdone, hne⟩ := hi
      rw [hothers i fun heq => hne (List.mem_singleton.2 heq), h.fresh i hdone]
    · intro i hi hiShown d hd hdShown
      rcases List.mem_append.1 hi with hi | hi
      · rw [hkeep i hi, hkeep d (hclosed i hi d hd)]
        exact h.above i hi hiShown d hd hdShown
      · rw [List.mem_singleton.1 hi] at hd ⊢
        rw [hkeep d (hdeps d hd)]
        exact habove d hd hdShown
    · intro i hi hiShown
      rcases List.mem_append.1 hi with hi | hi
      · rw [hkeep i hi]
        rcases h.attained i hi hiShown with hzero | ⟨d, hd, hdShown, heq⟩
        · exact .inl hzero
        · exact .inr ⟨d, hd, hdShown, by rw [hkeep d (hclosed i hi d hd)]; exact heq⟩
      · rw [List.mem_singleton.1 hi]
        rcases hattained with hsame | ⟨d, hd, hdShown, heq⟩
        · exact .inl (hsame.trans (h.fresh node hnode))
        · exact .inr ⟨d, hd, hdShown, by rw [hkeep d (hdeps d hd)]; exact heq⟩
  · rename_i hshown
    constructor
    · exact fun i hi => h.fresh i fun hdone => hi (List.mem_append_left _ hdone)
    · intro i hi hiShown
      rcases List.mem_append.1 hi with hi | hi
      · exact h.above i hi hiShown
      · rw [List.mem_singleton.1 hi] at hiShown
        exact absurd hiShown hshown
    · intro i hi hiShown
      rcases List.mem_append.1 hi with hi | hi
      · exact h.attained i hi hiShown
      · rw [List.mem_singleton.1 hi] at hiShown
        exact absurd hiShown hshown

theorem settled_layers (hclosed : TopologicalSort.Closed deps order) (hnodup : order.Nodup)
    (shown : Nat → Bool) : Settled deps shown order (layers deps shown order) := by
  induction order using List.reverseRecOn with
  | nil => exact ⟨fun _ _ => rfl, by simp, by simp⟩
  | append_singleton done node ih =>
    have hdone : TopologicalSort.Closed deps done := by
      intro pre i post he d hd
      exact hclosed pre i (post ++ [node]) (by rw [he, List.append_assoc, List.cons_append]) d hd
    have hfresh : node ∉ done := by
      have happart := (List.nodup_append.1 hnodup).2.2
      exact fun hmem => happart node hmem node List.mem_cons_self rfl
    have hbelow : ∀ i ∈ done, ∀ d ∈ deps i, d ∈ done := by
      intro i hi d hd
      obtain ⟨pre, post, rfl⟩ := List.append_of_mem hi
      exact List.mem_append_left _ (hdone pre i post rfl d hd)
    have hsettled := ih hdone (List.nodup_append.1 hnodup).1
    rw [layers, List.foldl_append]
    exact hsettled.relax (hclosed done node [] rfl) hfresh hbelow

/-- The layer of a node shown is the length of the longest path that ends in it. -/
theorem layers_isGreatest (hclosed : TopologicalSort.Closed deps order) (hnodup : order.Nodup)
    (hi : i ∈ order) (hshown : shown i = true) :
    IsGreatest {k | Path (fun x y => y ∈ deps x) (fun x => shown x = true) k i}
      (layers deps shown order i) := by
  have h := settled_layers hclosed hnodup shown
  have hdeps : ∀ x ∈ order, ∀ d ∈ deps x, d ∈ order := by
    intro x hx d hd
    obtain ⟨pre, post, rfl⟩ := List.append_of_mem hx
    exact List.mem_append_left _ (hclosed pre x post rfl d hd)
  constructor
  · -- down from the node, each layer is explained by a dependency one layer below
    induction hk : layers deps shown order i using Nat.strong_induction_on generalizing i with
    | _ k ih =>
      rcases h.attained i hi hshown with hzero | ⟨d, hd, hdShown, heq⟩
      · rw [← hk, hzero]
        exact Path.start hshown
      · rw [← hk, heq]
        have hbelow := ih _ (by omega) (hdeps i hi d hd) hdShown rfl
        exact Path.step hbelow hd hshown
  · intro k hpath
    clear hshown
    induction hpath with
    | start => exact Nat.zero_le _
    | @step k y x hpath hedge hx ih =>
      have hle := ih (hdeps x hi y hedge)
      have habove := h.above x hi hx y hedge hpath.end_shown
      omega

end LongestPath
