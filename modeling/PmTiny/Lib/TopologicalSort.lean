import Mathlib.Data.List.Nodup
import Mathlib.Data.List.MinMax
import Mathlib.Data.List.Lex
import Mathlib.Data.Finset.Card
import Mathlib.Data.Finset.Range
import Mathlib.Data.Fintype.Card
import Mathlib.Logic.Function.Basic

namespace TopologicalSort
set_option autoImplicit true

/-- Lower the indegree of every successor of a removed node and queue those that reach zero. -/
def relax : List Nat → (Nat → Nat) → List Nat → (Nat → Nat) × List Nat
  | [], indegree, ready => (indegree, ready)
  | d :: ds, indegree, ready =>
    let lowered := Function.update indegree d (indegree d - 1)
    relax ds lowered (if lowered d = 0 then d :: ready else ready)

/-- Kahn's loop: the smallest queued node is removed first. -/
def loop (succ : Nat → List Nat) : Nat → (Nat → Nat) → List Nat → List Nat → List Nat
  | 0, _, _, order => order
  | fuel + 1, indegree, ready, order =>
    match ready.min? with
    | none => order
    | some id =>
      let next := relax (succ id) indegree (ready.erase id)
      loop succ fuel next.1 next.2 (order ++ [id])

def sort (n : Nat) (succ : Nat → List Nat) (indegree : Nat → Nat) : List Nat :=
  loop succ n indegree ((List.range n).filter fun i => indegree i = 0) []

/-- The successor lists are the transpose of the dependency lists of the nodes below `n`. -/
structure Transpose (n : Nat) (deps succ : Nat → List Nat) : Prop where
  deps_nodup : ∀ i, (deps i).Nodup
  deps_lt : ∀ i < n, ∀ d ∈ deps i, d < n
  succ_nodup : ∀ d, (succ d).Nodup
  mem_succ : ∀ d i, i ∈ succ d ↔ i < n ∧ d ∈ deps i

def Closed (deps : Nat → List Nat) (order : List Nat) : Prop :=
  ∀ pre i post, order = pre ++ i :: post → ∀ d ∈ deps i, d ∈ pre

def Ranked (n : Nat) (deps : Nat → List Nat) (rank : Nat → Nat) : Prop :=
  ∀ i < n, ∀ d ∈ deps i, rank d < rank i

structure Inv (n : Nat) (deps : Nat → List Nat) (indegree : Nat → Nat)
    (ready order : List Nat) : Prop where
  nodup : (order ++ ready).Nodup
  lt : ∀ i ∈ order ++ ready, i < n
  count : ∀ i < n, indegree i = (deps i).countP (· ∉ order)
  mem : ∀ i < n, i ∈ order ++ ready ↔ indegree i = 0
  closed : Closed deps order

theorem relax_fst (ds : List Nat) (h : ds.Nodup) (indegree : Nat → Nat) (ready : List Nat)
    (i : Nat) : (relax ds indegree ready).1 i = if i ∈ ds then indegree i - 1 else indegree i := by
  induction ds generalizing indegree ready with
  | nil => simp [relax]
  | cons d ds ih =>
    obtain ⟨hd, hn⟩ := List.nodup_cons.1 h
    rw [relax, ih hn]
    by_cases he : i = d
    · subst i
      simp [hd]
    · simp [he]

theorem mem_relax (ds : List Nat) (h : ds.Nodup) (indegree : Nat → Nat) (ready : List Nat)
    (i : Nat) : i ∈ (relax ds indegree ready).2 ↔
      i ∈ ready ∨ (i ∈ ds ∧ indegree i - 1 = 0) := by
  induction ds generalizing indegree ready with
  | nil => simp [relax]
  | cons d ds ih =>
    obtain ⟨hd, hn⟩ := List.nodup_cons.1 h
    rw [relax, ih hn]
    by_cases he : i = d
    · subst i
      simp only [Function.update_self, hd, false_and, or_false, List.mem_cons, true_and]
      split <;> simp_all
    · simp only [Function.update_self, ne_eq, he, not_false_eq_true, Function.update_of_ne,
        List.mem_cons, false_or]
      split <;> simp [he]

theorem relax_nodup (ds : List Nat) (h : ds.Nodup) (indegree : Nat → Nat) (ready : List Nat)
    (hr : ready.Nodup) (hd : ∀ d ∈ ds, d ∉ ready) : (relax ds indegree ready).2.Nodup := by
  induction ds generalizing indegree ready with
  | nil => exact hr
  | cons d ds ih =>
    obtain ⟨hne, hn⟩ := List.nodup_cons.1 h
    rw [relax]
    apply ih hn
    · split
      · exact List.nodup_cons.2 ⟨hd d List.mem_cons_self, hr⟩
      · exact hr
    · intro x hx
      have hxr := hd x (List.mem_cons_of_mem _ hx)
      have hxd : x ≠ d := fun he => hne (he ▸ hx)
      split
      · simp [hxd, hxr]
      · exact hxr

theorem Closed.snoc (h : Closed deps order) (hi : ∀ d ∈ deps i, d ∈ order) :
    Closed deps (order ++ [i]) := by
  intro pre j post he d hd
  rcases List.eq_nil_or_concat post with hp | ⟨post', z, hp⟩
  · subst post
    obtain ⟨ho, hj⟩ := List.append_inj' he rfl
    cases hj
    exact ho ▸ hi d hd
  · subst post
    have he' : order ++ [i] = (pre ++ j :: post') ++ [z] := by simpa using he
    obtain ⟨ho, _⟩ := List.append_inj' he' rfl
    exact h pre j post' ho d hd

theorem countP_snoc (l : List Nat) (hl : l.Nodup) (order : List Nat) (hv : v ∉ order) :
    l.countP (· ∉ order ++ [v]) = l.countP (· ∉ order) - if v ∈ l then 1 else 0 := by
  induction l with
  | nil => simp
  | cons a l ih =>
    obtain ⟨ha, hn⟩ := List.nodup_cons.1 hl
    rw [List.countP_cons, List.countP_cons, ih hn]
    by_cases he : a = v
    · subst a
      simp [ha, hv]
    · have hm : (a ∉ order ++ [v]) ↔ a ∉ order := by simp [he]
      have hv' : v ∈ a :: l ↔ v ∈ l := by simp [Ne.symm he]
      simp only [hm, hv']
      by_cases hl' : v ∈ l
      · have hpos : 0 < l.countP (· ∉ order) :=
          List.countP_pos_iff.2 ⟨v, hl', by simpa using hv⟩
        simp only [hl', if_true]
        omega
      · simp [hl']

theorem Inv.step (ht : Transpose n deps succ) (h : Inv n deps indegree ready order)
    (hid : v ∈ ready) :
    Inv n deps (relax (succ v) indegree (ready.erase v)).1
      (relax (succ v) indegree (ready.erase v)).2 (order ++ [v]) := by
  obtain ⟨hno, hnr, hdis⟩ := List.nodup_append.1 h.nodup
  have hido : v ∉ order := fun hm => hdis v hm v hid rfl
  have hidn : v < n := h.lt v (List.mem_append_right _ hid)
  have hzero : indegree v = 0 := (h.mem v hidn).1 (List.mem_append_right _ hid)
  have hpos : ∀ d ∈ succ v, 0 < indegree d := by
    intro d hd
    obtain ⟨hdn, hdep⟩ := (ht.mem_succ v d).1 hd
    rw [h.count d hdn]
    exact List.countP_pos_iff.2 ⟨v, hdep, by simpa using hido⟩
  have hfresh : ∀ d ∈ succ v, d ∉ order ++ ready := by
    intro d hd hm
    have hz := (h.mem d ((ht.mem_succ v d).1 hd).1).1 hm
    have hp := hpos d hd
    omega
  have hmem : ∀ i, i ∈ (relax (succ v) indegree (ready.erase v)).2 ↔
      (i ∈ ready ∧ i ≠ v) ∨ (i ∈ succ v ∧ indegree i - 1 = 0) := by
    intro i
    rw [mem_relax _ (ht.succ_nodup v), List.Nodup.mem_erase_iff hnr, and_comm]
  refine ⟨?_, ?_, ?_, ?_, ?_⟩
  · rw [List.nodup_append]
    refine ⟨?_, ?_, ?_⟩
    · rw [List.nodup_append]
      exact ⟨hno, by simp, by intro a ha b hb; simp only [List.mem_singleton] at hb; grind⟩
    · apply relax_nodup _ (ht.succ_nodup v) _ _ (hnr.erase v)
      intro d hd hm
      exact hfresh d hd (List.mem_append_right _ (List.mem_of_mem_erase hm))
    · intro a ha b hb he
      subst b
      rcases List.mem_append.1 ha with ha | ha
      · rcases (hmem a).1 hb with ⟨hr, _⟩ | ⟨hs, _⟩
        · exact hdis a ha a hr rfl
        · exact hfresh a hs (List.mem_append_left _ ha)
      · simp only [List.mem_singleton] at ha
        subst a
        rcases (hmem v).1 hb with ⟨_, hne⟩ | ⟨hs, _⟩
        · exact hne rfl
        · have hp := hpos v hs
          omega
  · intro i hi
    rcases List.mem_append.1 hi with hi | hi
    · rcases List.mem_append.1 hi with hi | hi
      · exact h.lt i (List.mem_append_left _ hi)
      · simp only [List.mem_singleton] at hi
        exact hi ▸ hidn
    · rcases (hmem i).1 hi with ⟨hr, _⟩ | ⟨hs, _⟩
      · exact h.lt i (List.mem_append_right _ hr)
      · exact ((ht.mem_succ v i).1 hs).1
  · intro i hi
    rw [relax_fst _ (ht.succ_nodup v), countP_snoc _ (ht.deps_nodup i) _ hido, ← h.count i hi]
    by_cases hs : v ∈ deps i
    · simp [(ht.mem_succ v i).2 ⟨hi, hs⟩, hs]
    · have hns : i ∉ succ v := fun hm => hs ((ht.mem_succ v i).1 hm).2
      simp [hs, hns]
  · intro i hi
    rw [relax_fst _ (ht.succ_nodup v), List.mem_append, hmem]
    have hm := h.mem i hi
    rw [List.mem_append] at hm
    by_cases hs : i ∈ succ v
    · have hf := hfresh i hs
      rw [List.mem_append] at hf
      have hne : i ≠ v := fun he => hf (.inr (he ▸ hid))
      simp only [List.mem_append, List.mem_singleton, hs, true_and, if_true]
      grind
    · simp only [List.mem_append, List.mem_singleton, hs, false_and, or_false, if_false]
      by_cases hi' : i = v
      · simp [hi', hzero]
      · simp [hi', hm]
  · apply h.closed.snoc
    intro d hd
    by_contra hno
    have hc := h.count v hidn
    have hp : 0 < (deps v).countP (· ∉ order) :=
      List.countP_pos_iff.2 ⟨d, hd, by simpa using hno⟩
    omega

/-- What is known when the loop stops: it ran out of queued nodes or placed them all. -/
theorem loop_inv (ht : Transpose n deps succ) (fuel : Nat) (indegree : Nat → Nat)
    (ready order : List Nat) (h : Inv n deps indegree ready order)
    (hf : order.length + fuel = n) :
    ∃ indegree' ready', Inv n deps indegree' ready' (loop succ fuel indegree ready order) ∧
      (ready' = [] ∨ (loop succ fuel indegree ready order).length = n) := by
  induction fuel generalizing indegree ready order with
  | zero => exact ⟨indegree, ready, h, .inr (by simpa [loop] using hf)⟩
  | succ fuel ih =>
    rw [loop]
    cases hm : ready.min? with
    | none => exact ⟨indegree, ready, h, .inl (List.min?_eq_none_iff.1 hm)⟩
    | some id =>
      have hid : id ∈ ready := List.min?_mem hm
      apply ih _ _ _ (h.step ht hid)
      simp only [List.length_append, List.length_singleton]
      omega

theorem initial_inv (n : Nat) (deps : Nat → List Nat) :
    Inv n deps (fun i => (deps i).length)
      ((List.range n).filter fun i => (deps i).length = 0) [] := by
  refine ⟨?_, ?_, ?_, ?_, ?_⟩
  · simpa using List.nodup_range.filter _
  · intro i hi
    simp only [List.nil_append, List.mem_filter, List.mem_range] at hi
    exact hi.1
  · intro i _
    simp
  · intro i hi
    simp [hi]
  · intro pre i post he
    simp at he

theorem sort_inv (ht : Transpose n deps succ) :
    ∃ indegree ready, Inv n deps indegree ready (sort n succ fun i => (deps i).length) ∧
      (ready = [] ∨ (sort n succ fun i => (deps i).length).length = n) :=
  loop_inv ht n _ _ _ (initial_inv n deps) (by simp)

theorem loop_extends (succ : Nat → List Nat) (fuel : Nat) (indegree : Nat → Nat)
    (ready order : List Nat) : ∃ rest, loop succ fuel indegree ready order = order ++ rest := by
  induction fuel generalizing indegree ready order with
  | zero => exact ⟨[], by simp [loop]⟩
  | succ fuel ih =>
    rw [loop]
    cases ready.min? with
    | none => exact ⟨[], by simp⟩
    | some id =>
      obtain ⟨rest, hrest⟩ := ih (relax (succ id) indegree (ready.erase id)).1
        (relax (succ id) indegree (ready.erase id)).2 (order ++ [id])
      exact ⟨id :: rest, by simpa using hrest⟩

theorem Inv.queued (h : Inv n deps indegree ready order) (hi : i < n) (hno : i ∉ order)
    (hdeps : ∀ d ∈ deps i, d ∈ order) : i ∈ ready := by
  have hzero : indegree i = 0 := by
    rw [h.count i hi, List.countP_eq_zero]
    intro d hd
    simpa using hdeps d hd
  exact (List.mem_append.1 ((h.mem i hi).2 hzero)).resolve_left hno

/-- The loop never takes a larger node than another closed listing with the same beginning. -/
theorem loop_least (ht : Transpose n deps succ) (fuel : Nat) (indegree : Nat → Nat)
    (ready order tail : List Nat) (h : Inv n deps indegree ready order)
    (hf : order.length + fuel = n) (hn : (order ++ tail).Nodup) (hlt : ∀ i ∈ tail, i < n)
    (hc : Closed deps (order ++ tail)) (hlen : tail.length = fuel) :
    loop succ fuel indegree ready order = order ++ tail ∨
      List.Lex (· < ·) (loop succ fuel indegree ready order) (order ++ tail) := by
  induction fuel generalizing indegree ready order tail with
  | zero =>
    rw [List.eq_nil_of_length_eq_zero hlen]
    exact .inl (by simp [loop])
  | succ fuel ih =>
    cases tail with
    | nil => cases hlen
    | cons next tail =>
      have hno : next ∉ order := fun hm => (List.nodup_append.1 hn).2.2 next hm next (by simp) rfl
      have hready := h.queued (hlt next List.mem_cons_self) hno (hc order next tail rfl)
      rw [loop]
      cases hm : ready.min? with
      | none =>
        rw [List.min?_eq_none_iff.1 hm] at hready
        cases hready
      | some id =>
        have hle : id ≤ next := (List.min?_eq_some_iff.1 hm).2 next hready
        rcases hle.eq_or_lt with rfl | hlt'
        · have hsplit : order ++ id :: tail = (order ++ [id]) ++ tail := by simp
          rw [hsplit] at hn hc ⊢
          apply ih _ _ _ _ (h.step ht (List.min?_mem hm)) _ hn
            (fun i hi => hlt i (List.mem_cons_of_mem id hi)) hc (by simpa using hlen)
          simp only [List.length_append, List.length_singleton]
          omega
        · obtain ⟨rest, hrest⟩ := loop_extends succ fuel
            (relax (succ id) indegree (ready.erase id)).1
            (relax (succ id) indegree (ready.erase id)).2 (order ++ [id])
          refine .inr ?_
          simp only [hrest, List.append_assoc, List.singleton_append]
          exact List.Lex.append_left _ (.rel hlt') order

/-- Among all closed listings of the nodes, the sort is the lexicographically least. -/
theorem sort_least (ht : Transpose n deps succ) {l : List Nat} (hl : l.Perm (List.range n))
    (hc : Closed deps l) : (sort n succ fun i => (deps i).length) = l ∨
      List.Lex (· < ·) (sort n succ fun i => (deps i).length) l := by
  have hn : l.Nodup := hl.nodup_iff.2 List.nodup_range
  have hlt : ∀ i ∈ l, i < n := fun i hi => List.mem_range.1 (hl.mem_iff.1 hi)
  have hlen : l.length = n := by simpa using hl.length_eq
  exact loop_least ht n _ _ [] l (initial_inv n deps) (by simp) hn hlt hc hlen

theorem sort_nodup (ht : Transpose n deps succ) :
    (sort n succ fun i => (deps i).length).Nodup := by
  obtain ⟨_, _, h, _⟩ := sort_inv ht
  exact (List.nodup_append.1 h.nodup).1

theorem sort_lt (ht : Transpose n deps succ)
    (hi : i ∈ sort n succ fun i => (deps i).length) : i < n := by
  obtain ⟨_, _, h, _⟩ := sort_inv ht
  exact h.lt i (List.mem_append_left _ hi)

theorem sort_closed (ht : Transpose n deps succ) :
    Closed deps (sort n succ fun i => (deps i).length) := by
  obtain ⟨_, _, h, _⟩ := sort_inv ht
  exact h.closed

theorem mem_sort (ht : Transpose n deps succ)
    (hl : (sort n succ fun i => (deps i).length).length = n) (hi : i < n) :
    i ∈ sort n succ fun i => (deps i).length := by
  have hsub : (sort n succ fun i => (deps i).length).toFinset ⊆ Finset.range n := by
    intro x hx
    exact Finset.mem_range.2 (sort_lt ht (List.mem_toFinset.1 hx))
  have hcard : (Finset.range n).card ≤ (sort n succ fun i => (deps i).length).toFinset.card := by
    rw [List.toFinset_card_of_nodup (sort_nodup ht), hl, Finset.card_range]
  have heq := Finset.eq_of_subset_of_card_le hsub hcard
  exact List.mem_toFinset.1 (heq ▸ Finset.mem_range.2 hi)

theorem Closed.idxOf_lt (h : Closed deps order) (hi : i ∈ order) (hd : d ∈ deps i) :
    order.idxOf d < order.idxOf i := by
  obtain ⟨pre, post, he, hni⟩ := List.eq_append_cons_of_mem hi
  have hpre := h pre i post he d hd
  rw [he, List.idxOf_append_of_mem hpre, List.idxOf_append_of_notMem hni]
  have hlt := List.idxOf_lt_length_of_mem hpre
  omega

/-- The sort is complete exactly on the graphs that admit a numbering. -/
theorem length_sort_iff (ht : Transpose n deps succ) :
    (sort n succ fun i => (deps i).length).length = n ↔ ∃ rank, Ranked n deps rank := by
  constructor
  · intro hl
    refine ⟨fun i => (sort n succ fun i => (deps i).length).idxOf i, ?_⟩
    intro i hi d hd
    exact (sort_closed ht).idxOf_lt (mem_sort ht hl hi) hd
  · rintro ⟨rank, hr⟩
    obtain ⟨indegree, ready, h, hstop⟩ := sort_inv ht
    rcases hstop with hready | hl
    · subst ready
      have hall : ∀ k i, i < n → rank i < k → i ∈ sort n succ fun i => (deps i).length := by
        intro k
        induction k with
        | zero => intro i _ hk; omega
        | succ k ih =>
          intro i hi hk
          have hz : indegree i = 0 := by
            rw [h.count i hi, List.countP_eq_zero]
            intro d hd
            have hlt := hr i hi d hd
            simpa using ih d (ht.deps_lt i hi d hd) (by omega)
          simpa using (h.mem i hi).2 hz
      have hsub : Finset.range n ⊆ (sort n succ fun i => (deps i).length).toFinset := by
        intro i hi
        exact List.mem_toFinset.2 (hall _ i (Finset.mem_range.1 hi) (Nat.lt_succ_self _))
      have hge := Finset.card_le_card hsub
      have hsub' : (sort n succ fun i => (deps i).length).toFinset ⊆ Finset.range n := by
        intro x hx
        exact Finset.mem_range.2 (sort_lt ht (List.mem_toFinset.1 hx))
      have hle := Finset.card_le_card hsub'
      rw [List.toFinset_card_of_nodup (sort_nodup ht), Finset.card_range] at hge hle
      omega
    · exact hl

end TopologicalSort
