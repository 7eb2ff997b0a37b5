import Mathlib.Data.List.Nodup

namespace Keyed
set_option autoImplicit true

variable {α κ : Type} [DecidableEq κ] (key : α → κ)

/-- The first record stored under a key. -/
def find (k : κ) (l : List α) : Option α := l.find? fun a => key a = k

def update (k : κ) (f : α → α) (l : List α) : List α := l.map fun a => if key a = k then f a else a

def remove (k : κ) (l : List α) : List α := l.filter fun a => key a ≠ k

variable {key}

theorem key_of_find (h : find key k l = some a) : key a = k := by
  simpa using List.find?_some h

theorem mem_of_find (h : find key k l = some a) : a ∈ l := List.mem_of_find?_eq_some h

theorem find_eq_none : find key k l = none ↔ ∀ a ∈ l, key a ≠ k := by
  simp [find]

theorem find_isSome : (∃ a, find key k l = some a) ↔ k ∈ l.map key := by
  rw [← Option.isSome_iff_exists, find, List.find?_isSome]
  simp

theorem find_of_mem (hn : (l.map key).Nodup) (ha : a ∈ l) : find key (key a) l = some a := by
  have hk : key a ∈ l.map key := List.mem_map_of_mem ha
  obtain ⟨b, hb⟩ := find_isSome.2 hk
  have hinj := List.inj_on_of_nodup_map hn (mem_of_find hb) ha (key_of_find hb)
  rw [hb, hinj]

theorem find_cons (a : α) (l : List α) :
    find key k (a :: l) = if key a = k then some a else find key k l := by
  simp only [find, List.find?_cons]
  split <;> simp_all

theorem find_update_self (hf : ∀ a, find key k l = some a → key (f a) = k) :
    find key k (update key k f l) = (find key k l).map f := by
  induction l with
  | nil => rfl
  | cons a l ih =>
    rw [update, List.map_cons, find_cons]
    by_cases ha : key a = k
    · have hk : key (f a) = k := hf a (by rw [find_cons, if_pos ha])
      rw [find_cons, if_pos ha, if_pos ha, if_pos hk]
      rfl
    · rw [if_neg ha, if_neg ha, find_cons, if_neg ha]
      exact ih fun b hb => hf b (by rw [find_cons, if_neg ha]; exact hb)

theorem find_update_ne (hm : m ≠ k) (hf : ∀ a, key (f a) = key a) :
    find key m (update key k f l) = find key m l := by
  induction l with
  | nil => rfl
  | cons a l ih =>
    rw [update, List.map_cons, find_cons, find_cons]
    by_cases ha : key a = k
    · have hne : key a ≠ m := fun he => hm (he.symm.trans ha)
      rw [if_pos ha, if_neg (by rw [hf]; exact hne), if_neg hne]
      exact ih
    · rw [if_neg ha]
      split
      · rfl
      · exact ih

theorem find_update (hf : ∀ a, key (f a) = key a) :
    find key m (update key k f l) = if m = k then (find key k l).map f else find key m l := by
  split
  · rename_i hm
    subst hm
    exact find_update_self fun a ha => (hf a).trans (key_of_find ha)
  · rename_i hm
    exact find_update_ne hm hf

theorem map_key_update (hf : ∀ a, key (f a) = key a) :
    (update key k f l).map key = l.map key := by
  rw [update, List.map_map]
  apply List.map_congr_left
  intro a _
  by_cases ha : key a = k <;> simp [ha, hf]

theorem update_congr (h : ∀ a, key a = k → f a = g a) : update key k f l = update key k g l := by
  rw [update, update]
  apply List.map_congr_left
  intro a _
  by_cases ha : key a = k
  · rw [if_pos ha, if_pos ha, h a ha]
  · rw [if_neg ha, if_neg ha]

theorem update_update : update key k g (update key k f l) =
    update key k (fun a => if key (f a) = k then g (f a) else f a) l := by
  rw [update, update, update, List.map_map]
  apply List.map_congr_left
  intro a _
  by_cases ha : key a = k <;> simp [ha]

theorem find_remove_self : find key k (remove key k l) = none := by
  simp [find_eq_none, remove]

theorem find_remove_ne (hm : m ≠ k) : find key m (remove key k l) = find key m l := by
  rw [find, remove, List.find?_filter, find]
  congr 1
  funext a
  by_cases ha : key a = m <;> simp [ha, hm]

theorem map_key_remove : (remove key k l).map key = (l.map key).filter (· ≠ k) := by
  induction l with
  | nil => rfl
  | cons a l ih =>
    by_cases ha : key a = k
    · simpa [remove, ha] using ih
    · simpa [remove, ha] using ih

theorem find_append (a : α) (l : List α) :
    find key k (l ++ [a]) = (find key k l).or (if key a = k then some a else none) := by
  rw [find, List.find?_append, find, List.find?_singleton]
  simp

theorem find_append_singleton (hk : find key (key a) l = none) :
    find key k (l ++ [a]) = if key a = k then some a else find key k l := by
  rw [find, List.find?_append]
  by_cases ha : key a = k
  · subst ha
    rw [find] at hk
    simp [hk]
  · simp only [if_neg ha, find]
    cases l.find? fun b => key b = k <;> simp [ha]

/-- Store a record under its key, in the place of one that is stored under it. -/
def put (key : α → κ) (l : List α) (a : α) : List α :=
  if key a ∈ l.map key then update key (key a) (fun _ => a) l else l ++ [a]

theorem mem_put : b ∈ put key l a ↔ b = a ∨ b ∈ l ∧ key b ≠ key a := by
  rw [put]
  split
  · rename_i hk
    obtain ⟨c, hc, hca⟩ := List.mem_map.1 hk
    simp only [update, List.mem_map]
    constructor
    · rintro ⟨d, hd, rfl⟩
      split
      · exact .inl rfl
      · rename_i hne
        exact .inr ⟨hd, hne⟩
    · rintro (rfl | ⟨hb, hne⟩)
      · exact ⟨c, hc, if_pos hca⟩
      · exact ⟨b, hb, if_neg hne⟩
  · rename_i hk
    simp only [List.mem_append, List.mem_singleton]
    constructor
    · rintro (hb | rfl)
      · exact .inr ⟨hb, fun he => hk (he ▸ List.mem_map_of_mem hb)⟩
      · exact .inl rfl
    · rintro (rfl | ⟨hb, -⟩)
      · exact .inr rfl
      · exact .inl hb

theorem map_key_put : (put key l a).map key =
    if key a ∈ l.map key then l.map key else l.map key ++ [key a] := by
  rw [put]
  split
  · rw [update, List.map_map]
    apply List.map_congr_left
    intro b _
    by_cases hb : key b = key a <;> simp [hb]
  · simp

theorem nodup_put (h : (l.map key).Nodup) : ((put key l a).map key).Nodup := by
  rw [map_key_put]
  split
  · exact h
  · rename_i hk
    rw [← List.concat_eq_append]
    exact h.concat hk

theorem nodup_foldl_put (es : List α) (h : (l.map key).Nodup) :
    ((es.foldl (put key) l).map key).Nodup := by
  induction es generalizing l with
  | nil => exact h
  | cons e es ih => exact ih (nodup_put h)

/-- What is stored last under a key stays, and hides what was stored before. -/
theorem mem_foldl_put (es : List α) : b ∈ es.foldl (put key) l ↔
    (∃ pre post, es = pre ++ b :: post ∧ ∀ e ∈ post, key e ≠ key b) ∨
      b ∈ l ∧ ∀ e ∈ es, key e ≠ key b := by
  induction es generalizing l with
  | nil => simp
  | cons e es ih =>
    rw [List.foldl_cons, ih, mem_put]
    constructor
    · rintro (⟨pre, post, rfl, hpost⟩ | ⟨rfl | ⟨hb, hne⟩, hes⟩)
      · exact .inl ⟨e :: pre, post, rfl, hpost⟩
      · exact .inl ⟨[], es, rfl, hes⟩
      · refine .inr ⟨hb, fun x hx => ?_⟩
        rcases List.mem_cons.1 hx with rfl | hx
        · exact hne.symm
        · exact hes x hx
    · rintro (⟨pre, post, he, hpost⟩ | ⟨hb, hes⟩)
      · cases pre with
        | nil =>
          cases he
          exact .inr ⟨.inl rfl, hpost⟩
        | cons x pre =>
          cases he
          exact .inl ⟨pre, post, rfl, hpost⟩
      · exact .inr ⟨.inr ⟨hb, (hes e List.mem_cons_self).symm⟩,
          fun x hx => hes x (List.mem_cons_of_mem e hx)⟩

end Keyed
