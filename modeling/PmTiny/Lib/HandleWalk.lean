import Mathlib.Data.List.Basic
import Mathlib.Data.List.Nodup
import Mathlib.Logic.Function.Basic

namespace PmTiny
set_option autoImplicit true

/-- The memory of a vector: the elements are the slots below its size. -/
structure Slots (α : Type) where
  slots : List α
  size : Nat

namespace Slots

def ofList (l : List α) : Slots α := ⟨l, l.length⟩

def toList (v : Slots α) : List α := v.slots.take v.size

@[simp] theorem toList_ofList (l : List α) : (ofList l).toList = l := List.take_length

variable [DecidableEq α] {v : Slots α}

/-- The elements after an erased one move down; the slots past the new end keep what they held. -/
def erase (a : α) (v : Slots α) : Slots α :=
  let kept := v.toList.filter (· ≠ a)
  ⟨kept ++ v.slots.drop kept.length, kept.length⟩

@[simp] theorem toList_erase (a : α) (v : Slots α) :
    (v.erase a).toList = v.toList.filter (· ≠ a) := List.take_left

/-- What stands from a position on after an erasure stood from that position on before. -/
theorem mem_drop_erase (h : b ∈ (v.erase a).slots.drop i) : b ∈ v.slots.drop i := by
  rw [erase] at h
  simp only at h
  rw [List.drop_append] at h
  rcases List.mem_append.1 h with h | h
  · have hkept : ((v.toList.filter (· ≠ a)).drop i).Sublist (v.toList.drop i) :=
      List.filter_sublist.drop i
    have hslots : (v.toList.drop i).Sublist (v.slots.drop i) := (List.take_sublist _ _).drop i
    exact (hkept.trans hslots).subset h
  · rw [List.drop_drop] at h
    by_cases hi : i ≤ (v.toList.filter (· ≠ a)).length
    · rw [Nat.sub_eq_zero_of_le hi, Nat.add_zero] at h
      exact (List.drop_subset_drop_left _ hi) h
    · rwa [Nat.add_sub_cancel' (by omega)] at h

/-- Erasing an element moves the elements behind it down by one. -/
theorem erase_middle (h : (done ++ a :: rest).Nodup) (stale : List α) :
    erase a ⟨done ++ a :: rest ++ stale, done.length + (rest.length + 1)⟩ =
      ⟨done ++ rest ++ (a :: rest).getLast (List.cons_ne_nil a rest) :: stale,
        done.length + rest.length⟩ := by
  have hlist : toList ⟨done ++ a :: rest ++ stale, done.length + (rest.length + 1)⟩ =
      done ++ a :: rest :=
    List.take_left' (by rw [List.length_append, List.length_cons])
  obtain ⟨-, hrest, hdone⟩ := List.nodup_append.1 h
  have hkept : (done ++ a :: rest).filter (· ≠ a) = done ++ rest := by
    rw [List.filter_append, List.filter_cons_of_neg (by simp), List.filter_eq_self.2,
      List.filter_eq_self.2]
    · intro b hb
      exact decide_eq_true (fun hba => (List.nodup_cons.1 hrest).1 (hba ▸ hb))
    · intro b hb
      exact decide_eq_true (hdone b hb a List.mem_cons_self)
  have hslots : (done ++ a :: rest ++ stale).drop (done.length + rest.length) =
      (a :: rest).getLast (List.cons_ne_nil a rest) :: stale := by
    have hsplit : done ++ a :: rest ++ stale = done ++ (a :: rest).dropLast ++
        (a :: rest).getLast (List.cons_ne_nil a rest) :: stale := by
      conv_lhs => rw [← List.dropLast_append_getLast (List.cons_ne_nil a rest)]
      simp only [List.append_assoc, List.singleton_append]
    rw [hsplit]
    exact List.drop_left' (by rw [List.length_append, List.length_dropLast, List.length_cons]; rfl)
  rw [erase]
  simp only [hlist, hkept]
  rw [List.length_append, hslots]

end Slots

/-- A loop over a vector of handles: each visit writes to the cell of a handle, and a cell that
this ends takes its own handle out of the vector. -/
structure Visit (β : Type) where
  write : β → β
  gone : β → Bool

namespace Visit

/-- The cell ends with the next write. -/
def Fails (visit : Visit β) (cell : β) : Prop := visit.gone (visit.write cell) = true

variable {visit : Visit β} {cells : α → β} {a b : α}

def survivors (visit : Visit β) (cells : α → β) (l : List α) : List α :=
  l.filter fun a => !visit.gone (visit.write (cells a))

theorem survivors_congr (h : ∀ a ∈ l, cells' a = cells a) :
    survivors visit cells' l = survivors visit cells l := by
  apply List.filter_congr
  intro a ha
  rw [h a ha]

theorem survivors_append (l m : List α) :
    survivors visit cells (l ++ m) = survivors visit cells l ++ survivors visit cells m :=
  List.filter_append ..

theorem survivors_fails (h : visit.Fails (cells a)) (l : List α) :
    survivors visit cells (a :: l) = survivors visit cells l := by
  rw [Fails] at h
  exact List.filter_cons_of_neg (by simp [h])

theorem survivors_keeps (h : ¬visit.Fails (cells a)) (l : List α) :
    survivors visit cells (a :: l) = a :: survivors visit cells l := by
  rw [Fails] at h
  exact List.filter_cons_of_pos (by simpa using h)

theorem survivors_all {l : List α} (h : ∀ a ∈ l, ¬visit.Fails (cells a)) :
    survivors visit cells l = l := by
  induction l with
  | nil => rfl
  | cons a l ih =>
    rw [survivors_keeps (h a List.mem_cons_self),
      ih (fun b hb => h b (List.mem_cons_of_mem a hb))]

/-- When every visited cell ends, every other handle is passed over, but not the last. -/
def skipped : List α → List α
  | _ :: b :: c :: rest => b :: skipped (c :: rest)
  | _ => []

theorem skipped_sublist (l : List α) : (skipped l).Sublist l := by
  induction l using skipped.induct with
  | case1 a b c rest ih =>
    rw [skipped]
    exact (ih.cons_cons b).cons a
  | case2 l hshort =>
    rw [skipped]
    · exact List.nil_sublist l
    · exact hshort

theorem skipped_subset (l : List α) : skipped l ⊆ l := (skipped_sublist l).subset

variable (visit) [DecidableEq α]

/-- The handle at a position is read and its cell written to. -/
def step (a : α) (v : Slots α) (cells : α → β) : Slots α × (α → β) :=
  let cell := visit.write (cells a)
  (if visit.gone cell && !visit.gone (cells a) then v.erase a else v,
    Function.update cells a cell)

/-- The loop from a position on; its end was fixed before its first round. -/
def walk : Nat → Nat → Slots α → (α → β) → Slots α × (α → β)
  | 0, _, v, cells => (v, cells)
  | left + 1, i, v, cells =>
    match v.slots[i]? with
    | none => (v, cells)
    | some a =>
      let next := visit.step a v cells
      walk left (i + 1) next.1 next.2

def rangeFor (l : List α) (cells : α → β) : List α × (α → β) :=
  let walked := visit.walk l.length 0 (.ofList l) cells
  (walked.1.toList, walked.2)

variable {visit} {v : Slots α} {i left : Nat}

theorem step_fails (hopen : visit.gone (cells a) = false) (h : visit.Fails (cells a)) :
    visit.step a v cells = (v.erase a, Function.update cells a (visit.write (cells a))) := by
  rw [Fails] at h
  simp only [step, h, hopen, Bool.not_false, Bool.and_self, if_true]

theorem step_keeps (h : ¬visit.Fails (cells a)) :
    visit.step a v cells = (v, Function.update cells a (visit.write (cells a))) := by
  rw [Fails, Bool.not_eq_true] at h
  simp only [step, h, Bool.false_and, Bool.false_eq_true, if_false]

theorem step_other (h : b ≠ a) : (visit.step a v cells).2 b = cells b :=
  Function.update_of_ne h _ _

theorem mem_drop_step (h : b ∈ (visit.step a v cells).1.slots.drop i) : b ∈ v.slots.drop i := by
  rw [step] at h
  simp only at h
  split at h
  · exact Slots.mem_drop_erase h
  · exact h

theorem mem_toList_step (h : b ≠ a) (hb : b ∈ v.toList) : b ∈ (visit.step a v cells).1.toList := by
  rw [step]
  simp only
  split
  · rw [Slots.toList_erase]
    exact List.mem_filter.2 ⟨hb, decide_eq_true h⟩
  · exact hb

theorem walk_some (h : v.slots[i]? = some a) : visit.walk (left + 1) i v cells =
    visit.walk left (i + 1) (visit.step a v cells).1 (visit.step a v cells).2 := by
  simp only [walk, h]

/-- A handle that stands at no later position is not visited again. -/
theorem walk_unvisited (left : Nat) (cells : α → β) (h : b ∉ v.slots.drop i) :
    (visit.walk left i v cells).2 b = cells b ∧
      (b ∈ v.toList → b ∈ (visit.walk left i v cells).1.toList) := by
  induction left generalizing i v cells with
  | zero => exact ⟨rfl, id⟩
  | succ left ih =>
    cases ha : v.slots[i]? with
    | none =>
      simp only [walk, ha]
      exact ⟨trivial, id⟩
    | some a =>
      rw [walk_some ha]
      have hne : b ≠ a := by
        intro hba
        apply h
        rw [hba]
        apply List.mem_of_getElem? (i := 0)
        rw [List.getElem?_drop, Nat.add_zero, ha]
      have hlater : b ∉ (visit.step a v cells).1.slots.drop (i + 1) := by
        intro hb
        exact h (List.drop_subset_drop_left _ (Nat.le_succ i) (mem_drop_step hb))
      obtain ⟨hcell, hmem⟩ := ih _ hlater
      exact ⟨hcell.trans (step_other hne), fun hb => hmem (mem_toList_step hne hb)⟩

/-- A visited cell that ends takes its handle out, and the last slot is left as it was. -/
theorem walk_erases (left : Nat) (cells : α → β) (hnodup : (done ++ a :: rest).Nodup)
    (hopen : visit.gone (cells a) = false) (hfails : visit.Fails (cells a)) (stale : List α) :
    visit.walk (left + 1) done.length
        ⟨done ++ a :: rest ++ stale, done.length + (rest.length + 1)⟩ cells =
      visit.walk left (done.length + 1)
        ⟨done ++ rest ++ (a :: rest).getLast (List.cons_ne_nil a rest) :: stale,
          done.length + rest.length⟩
        (Function.update cells a (visit.write (cells a))) := by
  have hget : (done ++ a :: rest ++ stale)[done.length]? = some a := by simp
  rw [walk_some hget, step_fails hopen hfails, Slots.erase_middle hnodup]

/-- The cells after each handle of a list was visited once. -/
def written (visit : Visit β) (l : List α) (cells : α → β) : α → β :=
  fun a => if a ∈ l then visit.write (cells a) else cells a

theorem written_cons (h : a ∉ l) : written visit (a :: l) cells =
    written visit l (Function.update cells a (visit.write (cells a))) := by
  funext b
  simp only [written, List.mem_cons]
  by_cases hb : b = a
  · rw [hb, if_pos (.inl rfl), if_neg h, Function.update_self]
  · simp only [hb, false_or, Function.update_of_ne hb]

/-- As long as no visited cell ends, the loop goes from handle to handle. -/
theorem walk_keeps (hnodup : l.Nodup) (hkeep : ∀ a ∈ l, ¬visit.Fails (cells a))
    (left size : Nat) (done rest : List α) :
    visit.walk (l.length + left) done.length ⟨done ++ l ++ rest, size⟩ cells =
      visit.walk left (done.length + l.length) ⟨done ++ l ++ rest, size⟩
        (written visit l cells) := by
  induction l generalizing done cells with
  | nil =>
    rw [List.length_nil, Nat.zero_add, Nat.add_zero]
    rfl
  | cons a l ih =>
    obtain ⟨hnotin, hnodup⟩ := List.nodup_cons.1 hnodup
    have hget : (done ++ a :: l ++ rest)[done.length]? = some a := by simp
    have hlater : ∀ b ∈ l,
        ¬visit.Fails (Function.update cells a (visit.write (cells a)) b) := by
      intro b hb
      have hne : b ≠ a := fun h => hnotin (h ▸ hb)
      rw [Function.update_of_ne hne]
      exact hkeep b (List.mem_cons_of_mem a hb)
    have hrest := ih hnodup hlater (done ++ [a])
    rw [List.length_append, List.length_singleton, List.append_assoc done, List.singleton_append]
      at hrest
    rw [List.length_cons, Nat.add_right_comm, walk_some hget,
      step_keeps (hkeep a List.mem_cons_self), hrest, written_cons hnotin]
    congr 1
    omega

theorem rangeFor_append (hnodup : (before ++ rest).Nodup)
    (hbefore : ∀ a ∈ before, ¬visit.Fails (cells a)) : visit.rangeFor (before ++ rest) cells =
      let walked := visit.walk rest.length before.length (.ofList (before ++ rest))
        (written visit before cells)
      (walked.1.toList, walked.2) := by
  have hwalk := walk_keeps (List.nodup_append.1 hnodup).1 hbefore rest.length
    (before ++ rest).length [] rest
  rw [List.nil_append, List.length_nil, Nat.zero_add, ← List.length_append] at hwalk
  rw [rangeFor, Slots.ofList, hwalk]

theorem written_append (hnodup : (before ++ rest).Nodup) :
    written visit rest (written visit before cells) = written visit (before ++ rest) cells := by
  funext a
  simp only [written, List.mem_append]
  by_cases hrest : a ∈ rest
  · have hbefore : a ∉ before := fun h => (List.nodup_append.1 hnodup).2.2 a h a hrest rfl
    rw [if_pos hrest, if_neg hbefore, if_pos (.inr hrest)]
  · simp only [hrest, or_false, if_false]

/-- When the last cell ends, no handle is left to be passed over. -/
theorem walk_last (cells : α → β) (hlist : v.toList = done ++ [a]) (hget : v.slots[i]? = some a)
    (hopen : visit.gone (cells a) = false) (hnodup : (done ++ [a]).Nodup) :
    (visit.walk 1 i v cells).1.toList = done ++ survivors visit cells [a] ∧
      (visit.walk 1 i v cells).2 = written visit [a] cells := by
  have hcells : Function.update cells a (visit.write (cells a)) = written visit [a] cells := by
    rw [written_cons List.not_mem_nil]
    funext b
    rw [written, if_neg List.not_mem_nil]
  have hwalked : visit.walk 1 i v cells = visit.step a v cells := walk_some hget
  by_cases hfails : visit.Fails (cells a)
  · have hdone : done.filter (· ≠ a) = done := by
      rw [List.filter_eq_self]
      intro b hb
      exact decide_eq_true ((List.nodup_append.1 hnodup).2.2 b hb a List.mem_cons_self)
    rw [hwalked, step_fails hopen hfails, Slots.toList_erase, hlist, List.filter_append, hdone,
      List.filter_cons_of_neg (by simp), survivors_fails hfails]
    exact ⟨rfl, hcells⟩
  · rw [hwalked, step_keeps hfails, hlist, survivors_keeps hfails]
    exact ⟨rfl, hcells⟩

/-- When the last but one ends, the last is still read from its old slot. -/
theorem walk_last_two (hopen : visit.gone (cells a) = false) (hopen' : visit.gone (cells b) = false)
    (hnodup : (done ++ [a, b]).Nodup) :
    let walked := visit.walk 2 done.length (.ofList (done ++ [a, b])) cells
    walked.1.toList = done ++ survivors visit cells [a, b] ∧
      walked.2 = written visit [a, b] cells := by
  have hab : b ≠ a := by
    intro h
    have := (List.nodup_append.1 hnodup).2.1
    simp [h] at this
  have hcell : Function.update cells a (visit.write (cells a)) b = cells b :=
    Function.update_of_ne hab _ _
  have hsurvivors : survivors visit (Function.update cells a (visit.write (cells a))) [b] =
      survivors visit cells [b] := by
    apply survivors_congr
    intro c hc
    rw [List.mem_singleton.1 hc, hcell]
  have hcells : written visit [b] (Function.update cells a (visit.write (cells a))) =
      written visit [a, b] cells :=
    (written_cons (fun h => hab (List.mem_singleton.1 h).symm)).symm
  have hget : (Slots.ofList (done ++ [a, b])).slots[done.length]? = some a := by
    simp [Slots.ofList]
  intro walked
  have hwalked : walked = visit.walk 1 (done.length + 1)
      (visit.step a (.ofList (done ++ [a, b])) cells).1
      (visit.step a (.ofList (done ++ [a, b])) cells).2 := walk_some hget
  by_cases hfails : visit.Fails (cells a)
  · have herase : (Slots.ofList (done ++ [a, b])).erase a =
        ⟨done ++ [b] ++ [b], done.length + 1⟩ := by
      have := Slots.erase_middle hnodup []
      rw [List.append_nil] at this
      rw [Slots.ofList, List.length_append]
      exact this
    rw [step_fails hopen hfails, herase] at hwalked
    have hdone : (done ++ [b]).Nodup :=
      hnodup.sublist (List.Sublist.append_left (List.sublist_cons_self a [b]) done)
    have htake : (Slots.mk (done ++ [b] ++ [b]) (done.length + 1)).toList = done ++ [b] :=
      List.take_left' (by simp)
    have hnext : (Slots.mk (done ++ [b] ++ [b]) (done.length + 1)).slots[done.length + 1]? =
        some b := by
      simp
    obtain ⟨hlist, hwritten⟩ := walk_last (Function.update cells a (visit.write (cells a)))
      htake hnext (hcell ▸ hopen') hdone
    rw [hwalked, hlist, hwritten, hsurvivors, survivors_fails hfails]
    exact ⟨rfl, hcells⟩
  · rw [step_keeps hfails] at hwalked
    have htake : (Slots.ofList (done ++ [a, b])).toList = done ++ [a] ++ [b] := by simp
    have hnext : (Slots.ofList (done ++ [a, b])).slots[done.length + 1]? = some b := by
      simp [Slots.ofList]
    obtain ⟨hlist, hwritten⟩ := walk_last (Function.update cells a (visit.write (cells a)))
      htake hnext (hcell ▸ hopen') (by simpa using hnodup)
    rw [hwalked, hlist, hwritten, hsurvivors, survivors_keeps hfails, List.append_assoc]
    exact ⟨rfl, hcells⟩

/-- When only the last two cells can end, every handle is visited once. -/
theorem rangeFor_last_two (hnodup : l.Nodup) (hopen : ∀ a ∈ l, visit.gone (cells a) = false)
    (hlast : ∀ a ∈ l.dropLast.dropLast, ¬visit.Fails (cells a)) :
    visit.rangeFor l cells = (survivors visit cells l, written visit l cells) := by
  obtain ⟨before, last, hl, hbefore, htwo⟩ : ∃ before last, l = before ++ last ∧
      l.dropLast.dropLast = before ∧ last.length ≤ 2 := by
    have htake : l.dropLast.dropLast = l.take (l.length - 2) := by
      rw [List.dropLast_eq_take, List.dropLast_eq_take, List.take_take, List.length_take]
      congr 1
      omega
    refine ⟨_, l.drop (l.length - 2), ?_, htake, ?_⟩
    · rw [List.take_append_drop]
    · rw [List.length_drop]
      omega
  rw [hbefore] at hlast
  subst hl
  have hsame : ∀ a ∈ last, written visit before cells a = cells a := by
    intro a ha
    exact if_neg (fun h => (List.nodup_append.1 hnodup).2.2 a h a ha rfl)
  have hopen' : ∀ a ∈ last, visit.gone (written visit before cells a) = false := by
    intro a ha
    rw [hsame a ha]
    exact hopen a (List.mem_append_right before ha)
  rw [rangeFor_append hnodup hlast, survivors_append, survivors_all hlast,
    ← survivors_congr hsame, ← written_append hnodup]
  match last with
  | [] =>
    simp only [List.length_nil, walk, Slots.toList_ofList]
    rw [written_append hnodup, List.append_nil]
    exact congrArg (·, _) (List.append_nil before).symm
  | [a] =>
    have hget : (Slots.ofList (before ++ [a])).slots[before.length]? = some a := by
      simp [Slots.ofList]
    obtain ⟨hlist, hcells⟩ := walk_last (written visit before cells) (Slots.toList_ofList _) hget
      (hopen' a List.mem_cons_self) hnodup
    simp only [List.length_singleton]
    rw [hlist, hcells]
  | [a, b] =>
    obtain ⟨hlist, hcells⟩ := walk_last_two (hopen' a List.mem_cons_self)
      (hopen' b (List.mem_cons_of_mem a List.mem_cons_self)) hnodup
    simp only [List.length_cons, List.length_nil]
    rw [hlist, hcells]
  | _ :: _ :: _ :: _ =>
    simp only [List.length_cons] at htwo
    omega

/-- When an earlier cell ends, the handle behind it is passed over. -/
theorem rangeFor_skips (hnodup : (before ++ a :: b :: c :: rest).Nodup)
    (hbefore : ∀ a ∈ before, ¬visit.Fails (cells a)) (hopen : visit.gone (cells a) = false)
    (hfails : visit.Fails (cells a)) :
    (visit.rangeFor (before ++ a :: b :: c :: rest) cells).2 b = cells b ∧
      b ∈ (visit.rangeFor (before ++ a :: b :: c :: rest) cells).1 := by
  have hsame : ∀ d ∈ a :: b :: c :: rest, written visit before cells d = cells d := by
    intro d hd
    exact if_neg (fun h => (List.nodup_append.1 hnodup).2.2 d h d hd rfl)
  have ha := hsame a List.mem_cons_self
  have herase := walk_erases (rest.length + 1 + 1) (written visit before cells) hnodup
    (ha ▸ hopen) (ha ▸ hfails) []
  rw [List.append_nil] at herase
  rw [rangeFor_append hnodup hbefore, Slots.ofList, List.length_append]
  simp only [List.length_cons] at herase ⊢
  rw [herase]
  have hrest : b ∉ c :: rest :=
    (List.nodup_cons.1 (List.nodup_cons.1 (List.nodup_append.1 hnodup).2.1).2).1
  have hba : b ≠ a := by
    intro h
    exact (List.nodup_cons.1 (List.nodup_append.1 hnodup).2.1).1 (h ▸ List.mem_cons_self)
  have hlater : b ∉ (Slots.mk (before ++ (b :: c :: rest) ++
      [(a :: b :: c :: rest).getLast (List.cons_ne_nil _ _)])
      (before.length + (rest.length + 2))).slots.drop (before.length + 1) := by
    intro h
    have hdrop : (before ++ (b :: c :: rest) ++
        [(a :: b :: c :: rest).getLast (List.cons_ne_nil _ _)]).drop (before.length + 1) =
        c :: rest ++ [(c :: rest).getLast (List.cons_ne_nil _ _)] := by
      rw [List.append_assoc, ← List.drop_drop, List.drop_left]
      rfl
    simp only [hdrop] at h
    rcases List.mem_append.1 h with h | h
    · exact hrest h
    · rw [List.mem_singleton.1 h] at hrest
      exact hrest (List.getLast_mem _)
  obtain ⟨hcell, hmem⟩ := walk_unvisited (rest.length + 1 + 1) (Function.update
    (written visit before cells) a (visit.write (written visit before cells a))) hlater
  constructor
  · rw [hcell, Function.update_of_ne hba,
      hsame b (List.mem_cons_of_mem a List.mem_cons_self)]
  · apply hmem
    have hlist : (before ++ (b :: c :: rest) ++
        [(a :: b :: c :: rest).getLast (List.cons_ne_nil _ _)]).take
        (before.length + (rest.length + 2)) = before ++ b :: c :: rest :=
      List.take_left' (by simp)
    rw [Slots.toList, hlist]
    exact List.mem_append_right before List.mem_cons_self

/-- When a cell other than the last two ends, some handle of the vector is passed over. -/
theorem rangeFor_passes_over (hnodup : l.Nodup) (hopen : ∀ a ∈ l, visit.gone (cells a) = false)
    (h : ¬∀ a ∈ l.dropLast.dropLast, ¬visit.Fails (cells a)) :
    ∃ b ∈ l, (visit.rangeFor l cells).2 b = cells b ∧ b ∈ (visit.rangeFor l cells).1 := by
  have hsome : (l.dropLast.dropLast.find? fun a => visit.gone (visit.write (cells a))).isSome := by
    rw [List.find?_isSome]
    simp only [not_forall, not_not] at h
    obtain ⟨a, ha, hfails⟩ := h
    exact ⟨a, ha, hfails⟩
  obtain ⟨a, ha⟩ := Option.isSome_iff_exists.1 hsome
  obtain ⟨hfails, before, after, hsplit, hbefore⟩ := List.find?_eq_some_iff_append.1 ha
  have hlength : 2 ≤ (l.drop (before.length + 1 + after.length)).length := by
    have := congrArg List.length hsplit
    simp only [List.length_dropLast, List.length_append, List.length_cons] at this
    rw [List.length_drop]
    omega
  have hl : l = before ++ a :: (after ++ l.drop (before.length + 1 + after.length)) := by
    have htake : l.dropLast.dropLast = l.take (before.length + 1 + after.length) := by
      have := congrArg List.length hsplit
      simp only [List.length_dropLast, List.length_append, List.length_cons] at this
      rw [List.dropLast_eq_take, List.dropLast_eq_take, List.take_take, List.length_take]
      congr 1
      omega
    conv_lhs => rw [← List.take_append_drop (before.length + 1 + after.length) l, ← htake, hsplit]
    rw [List.append_assoc, List.cons_append]
  obtain ⟨b, c, rest, hrest⟩ : ∃ b c rest,
      after ++ l.drop (before.length + 1 + after.length) = b :: c :: rest := by
    match hm : after ++ l.drop (before.length + 1 + after.length) with
    | [] =>
      have := congrArg List.length hm
      rw [List.length_append, List.length_nil] at this
      omega
    | [_] =>
      have := congrArg List.length hm
      rw [List.length_append, List.length_singleton] at this
      omega
    | b :: c :: rest => exact ⟨b, c, rest, rfl⟩
  rw [hrest] at hl
  subst hl
  refine ⟨b, by simp, rangeFor_skips hnodup ?_ (hopen a (by simp)) hfails⟩
  intro d hd
  simpa [Fails] using hbefore d hd

/-- A cell that has ended takes no more writes. -/
def Settled (visit : Visit β) : Prop := ∀ cell, visit.gone cell = true → visit.write cell = cell

theorem step_gone (hsettled : visit.Settled) (h : visit.gone (cells a) = true) :
    visit.step a v cells = (v, cells) := by
  have hwrite := hsettled (cells a) h
  simp only [step, hwrite, h, Bool.not_true, Bool.and_false, Bool.false_eq_true, if_false,
    Function.update_eq_self]

/-- Slots of ended cells are passed without effect. -/
theorem walk_gone (hsettled : visit.Settled)
    (h : ∀ a ∈ v.slots.drop i, visit.gone (cells a) = true) :
    visit.walk left i v cells = (v, cells) := by
  induction left generalizing i with
  | zero => rfl
  | succ left ih =>
    cases ha : v.slots[i]? with
    | none => simp only [walk, ha]
    | some a =>
      have hmem : a ∈ v.slots.drop i := by
        apply List.mem_of_getElem? (i := 0)
        rw [List.getElem?_drop, Nat.add_zero, ha]
      rw [walk_some ha, step_gone hsettled (h a hmem)]
      exact ih fun b hb => h b (List.drop_subset_drop_left _ (Nat.le_succ i) hb)

theorem walk_all_fail (hsettled : visit.Settled) (kept rest stale : List α)
    (hnodup : (kept ++ rest).Nodup)
    (hfails : ∀ a ∈ rest, visit.gone (cells a) = false ∧ visit.Fails (cells a))
    (hlast : ∀ h : rest ≠ [], ∀ a ∈ stale, a = rest.getLast h)
    (hgone : rest = [] → ∀ a ∈ stale, visit.gone (cells a) = true)
    (hleft : left = rest.length + stale.length) (hi : i = kept.length)
    (hsize : size = kept.length + rest.length) :
    (visit.walk left i ⟨kept ++ rest ++ stale, size⟩ cells).1.toList = kept ++ skipped rest := by
  subst hi hsize
  induction rest using skipped.induct generalizing kept stale cells left with
  | case1 a b c rest ih =>
    obtain ⟨hopen, hfail⟩ := hfails a List.mem_cons_self
    have hnodup' : (kept ++ [b] ++ c :: rest).Nodup := by
      have hsub : (kept ++ b :: c :: rest).Sublist (kept ++ a :: b :: c :: rest) :=
        List.Sublist.append_left (List.sublist_cons_self a _) kept
      simpa using hnodup.sublist hsub
    have hfails' : ∀ d ∈ c :: rest,
        visit.gone (Function.update cells a (visit.write (cells a)) d) = false ∧
          visit.Fails (Function.update cells a (visit.write (cells a)) d) := by
      intro d hd
      have hne : d ≠ a := by
        intro h
        exact (List.nodup_cons.1 (List.nodup_append.1 hnodup).2.1).1
          (h ▸ List.mem_cons_of_mem b hd)
      rw [Function.update_of_ne hne]
      exact hfails d (List.mem_cons_of_mem a (List.mem_cons_of_mem b hd))
    have hlast' : ∀ h :
      c :: rest ≠ [], ∀ d ∈ (a :: b :: c :: rest).getLast (List.cons_ne_nil _ _) ::
        stale, d = (c :: rest).getLast h := by
      intro h d hd
      rcases List.mem_cons.1 hd with rfl | hd
      · rfl
      · exact hlast (List.cons_ne_nil _ _) d hd
    obtain ⟨left, rfl⟩ : ∃ n, left = n + 1 := ⟨left - 1, by rw [hleft]; simp; omega⟩
    have hleft' : left = (c :: rest).length +
        ((a :: b :: c :: rest).getLast (List.cons_ne_nil _ _) :: stale).length := by
      simp only [List.length_cons] at hleft ⊢
      omega
    have hlater := ih (kept ++ [b]) _ hnodup' hfails' hlast'
      (fun h => absurd h (List.cons_ne_nil _ _)) hleft'
    rw [List.length_append, List.length_singleton, List.append_assoc kept [b],
      List.singleton_append, List.append_assoc kept [b], List.singleton_append] at hlater
    have hsize : kept.length + (b :: c :: rest).length = kept.length + 1 + (c :: rest).length := by
      simp only [List.length_cons]
      omega
    rw [List.length_cons, walk_erases _ _ hnodup hopen hfail stale, skipped, hsize, hlater]
  | case2 rest hshort =>
    match rest, hshort with
    | [], _ =>
      rw [walk_gone hsettled]
      · simp [Slots.toList, skipped]
      · simpa using hgone rfl
    | [a], _ =>
      obtain ⟨hopen, hfail⟩ := hfails a List.mem_cons_self
      obtain rfl : left = stale.length + 1 := by rw [hleft, List.length_singleton, Nat.add_comm]
      have herase := walk_erases stale.length cells hnodup hopen hfail stale
      rw [List.length_nil, Nat.zero_add, Nat.add_zero] at herase
      rw [List.length_singleton, herase, walk_gone hsettled]
      · simp [Slots.toList, skipped]
      · intro b hb
        have hstale : b ∈ stale := by
          simpa using hb
        rw [hlast (List.cons_ne_nil _ _) b hstale, List.getLast_singleton, Function.update_self]
        exact hfail
    | [a, b], _ =>
      obtain ⟨hopen, hfail⟩ := hfails a List.mem_cons_self
      obtain ⟨hopen', hfail'⟩ := hfails b (List.mem_cons_of_mem a List.mem_cons_self)
      obtain rfl : left = stale.length + 1 + 1 := by
        rw [hleft, List.length_cons, List.length_singleton]
        omega
      have hba : b ≠ a := by
        intro h
        exact (List.nodup_cons.1 (List.nodup_append.1 hnodup).2.1).1 (h ▸ List.mem_cons_self)
      have hcell : Function.update cells a (visit.write (cells a)) b = cells b :=
        Function.update_of_ne hba _ _
      have herase := walk_erases (stale.length + 1) cells hnodup hopen hfail stale
      have hnodup' : (kept ++ [b]).Nodup :=
        hnodup.sublist (List.Sublist.append_left (List.sublist_cons_self a [b]) kept)
      have hget : (kept ++ [b] ++ b :: stale)[kept.length + 1]? = some b := by simp
      have herase' := Slots.erase_middle hnodup' (b :: stale)
      simp only [List.length_singleton, List.length_nil, Nat.zero_add, Nat.add_zero,
        List.append_nil, List.getLast_singleton, List.getLast_cons_cons] at herase herase'
      rw [List.length_cons, List.length_singleton, herase, walk_some hget,
        step_fails (hcell ▸ hopen') (hcell ▸ hfail'), herase', walk_gone hsettled]
      · simp [Slots.toList, skipped]
      · intro c hc
        have hstale : c ∈ stale := by
          simp only at hc
          rw [Nat.add_assoc, ← List.drop_drop, List.drop_left] at hc
          exact hc
        rw [hlast (List.cons_ne_nil _ _) c hstale, List.getLast_cons_cons, List.getLast_singleton]
        simp only [Function.update_self, hcell]
        exact hfail'
    | a :: b :: c :: rest, hshort => exact absurd rfl (hshort a b c rest)

theorem step_live (h : ∀ b ∈ v.toList, visit.gone (cells b) = false) :
    ∀ b ∈ (visit.step a v cells).1.toList, visit.gone ((visit.step a v cells).2 b) = false := by
  intro b hb
  by_cases hfails : visit.Fails (cells a)
  · by_cases hopen : visit.gone (cells a) = false
    · rw [step_fails hopen hfails] at hb ⊢
      rw [Slots.toList_erase, List.mem_filter] at hb
      simp only [Function.update_of_ne (of_decide_eq_true hb.2)]
      exact h b hb.1
    · have hsame : (visit.step a v cells).1 = v := by
        simp only [step, Bool.not_eq_false] at hopen ⊢
        rw [hopen, Bool.not_true, Bool.and_false, if_neg Bool.false_ne_true]
      rw [hsame] at hb
      have hne : b ≠ a := fun hba => hopen (hba ▸ h b hb)
      rw [step_other hne]
      exact h b hb
  · rw [step_keeps hfails] at hb ⊢
    by_cases hba : b = a
    · rw [Fails, Bool.not_eq_true] at hfails
      simp only [hba, Function.update_self]
      exact hfails
    · simp only [Function.update_of_ne hba]
      exact h b hb

/-- A handle that is left in the vector has a cell that has not ended. -/
theorem walk_live (h : ∀ b ∈ v.toList, visit.gone (cells b) = false) :
    ∀ b ∈ (visit.walk left i v cells).1.toList,
      visit.gone ((visit.walk left i v cells).2 b) = false := by
  induction left generalizing i v cells with
  | zero => exact h
  | succ left ih =>
    cases ha : v.slots[i]? with
    | none =>
      simp only [walk, ha]
      exact h
    | some a =>
      rw [walk_some ha]
      exact ih (step_live h)

/-- A handle leaves the vector only when its cell has ended. -/
theorem walk_mem_or_gone (hsettled : visit.Settled)
    (h : b ∈ v.toList ∨ visit.gone (cells b) = true) :
    b ∈ (visit.walk left i v cells).1.toList ∨
      visit.gone ((visit.walk left i v cells).2 b) = true := by
  induction left generalizing i v cells with
  | zero => exact h
  | succ left ih =>
    cases ha : v.slots[i]? with
    | none =>
      simp only [walk, ha]
      exact h
    | some a =>
      rw [walk_some ha]
      apply ih
      by_cases hba : b = a
      · subst hba
        by_cases hfails : visit.Fails (cells b)
        · right
          simp only [step, Function.update_self]
          exact hfails
        · rw [step_keeps hfails]
          rcases h with h | h
          · exact .inl h
          · rw [Fails, hsettled _ h] at hfails
            exact absurd h hfails
      · rw [step_other hba]
        exact h.imp (mem_toList_step hba) id

theorem walk_subset (h : b ∈ (visit.walk left i v cells).1.toList) : b ∈ v.toList := by
  induction left generalizing i v cells with
  | zero => exact h
  | succ left ih =>
    cases ha : v.slots[i]? with
    | none =>
      simp only [walk, ha] at h
      exact h
    | some a =>
      rw [walk_some ha] at h
      have hstep := ih h
      rw [step] at hstep
      simp only at hstep
      split at hstep
      · rw [Slots.toList_erase] at hstep
        exact (List.mem_filter.1 hstep).1
      · exact hstep

/-- A cell that ends with its first write is as it was, or has ended. -/
theorem walk_first_write (hsettled : visit.Settled) (h : visit.Fails cell)
    (hb : cells b = cell ∨ visit.gone (cells b) = true) :
    (visit.walk left i v cells).2 b = cell ∨
      visit.gone ((visit.walk left i v cells).2 b) = true := by
  induction left generalizing i v cells with
  | zero => exact hb
  | succ left ih =>
    cases ha : v.slots[i]? with
    | none =>
      simp only [walk, ha]
      exact hb
    | some a =>
      rw [walk_some ha]
      apply ih
      by_cases hba : b = a
      · subst hba
        simp only [step, Function.update_self]
        right
        rcases hb with hb | hb
        · rw [hb]
          exact h
        · rw [hsettled _ hb]
          exact hb
      · rw [step_other hba]
        exact hb

/-- When every cell ends with its first write, the handles that are passed over are left. -/
theorem rangeFor_all_fail (hsettled : visit.Settled) (hnodup : l.Nodup)
    (hfails : ∀ a ∈ l, visit.gone (cells a) = false ∧ visit.Fails (cells a)) :
    (visit.rangeFor l cells).1 = skipped l ∧
      ∀ a ∈ skipped l, (visit.rangeFor l cells).2 a = cells a := by
  have hlist : (visit.rangeFor l cells).1 = skipped l := by
    have hwalk := walk_all_fail hsettled [] l [] hnodup hfails
      (fun _ a ha => absurd ha List.not_mem_nil) (fun _ a ha => absurd ha List.not_mem_nil)
      (Nat.add_zero l.length).symm List.length_nil.symm (Nat.zero_add l.length).symm
    rw [List.nil_append, List.append_nil, List.nil_append] at hwalk
    exact hwalk
  refine ⟨hlist, fun a ha => ?_⟩
  have hmem : a ∈ l := skipped_subset l ha
  rw [← hlist] at ha
  have hlive : visit.gone ((visit.rangeFor l cells).2 a) = false :=
    walk_live (fun b hb => (hfails b (by simpa using hb)).1) a ha
  have hwrite : (visit.rangeFor l cells).2 a = cells a ∨
      visit.gone ((visit.rangeFor l cells).2 a) = true :=
    walk_first_write hsettled (hfails a hmem).2 (.inl rfl)
  rcases hwrite with h | h
  · exact h
  · cases hlive.symm.trans h

/-- The handles that are left are those whose cells have not ended. -/
theorem mem_rangeFor (hsettled : visit.Settled) (hopen : ∀ a ∈ l, visit.gone (cells a) = false) :
    a ∈ (visit.rangeFor l cells).1 ↔
      a ∈ l ∧ visit.gone ((visit.rangeFor l cells).2 a) = false := by
  have hlive : ∀ b ∈ (visit.rangeFor l cells).1,
      visit.gone ((visit.rangeFor l cells).2 b) = false :=
    walk_live (fun b hb => hopen b (by simpa using hb))
  constructor
  · intro h
    exact ⟨by simpa using walk_subset h, hlive a h⟩
  · rintro ⟨hmem, hopen'⟩
    have hwalk : a ∈ (visit.rangeFor l cells).1 ∨
        visit.gone ((visit.rangeFor l cells).2 a) = true :=
      walk_mem_or_gone hsettled (.inl (by simpa using hmem))
    rcases hwalk with h | h
    · exact h
    · cases hopen'.symm.trans h

/-- A cell whose handle is not in the vector is not written to. -/
theorem rangeFor_other (h : a ∉ l) : (visit.rangeFor l cells).2 a = cells a :=
  (walk_unvisited l.length cells (show a ∉ (Slots.ofList l).slots.drop 0 from h)).1

end Visit

end PmTiny
