import Mathlib.Data.List.Basic
import Mathlib.Data.Nat.ModEq

namespace PmTiny
set_option autoImplicit true

namespace Ring

variable {ring : Nat → α} {capacity start size : Nat}

def window (ring : Nat → α) (capacity start size : Nat) : List α :=
  (List.range size).map fun i => ring ((start + i) % capacity)

/-- Elements are stored one after another from a position on. -/
def store (ring : Nat → α) (capacity : Nat) : Nat → List α → Nat → α
  | _, [] => ring
  | position, a :: rest =>
    store (fun i => if i = position % capacity then a else ring i) capacity (position + 1) rest

@[simp] theorem length_window : (window ring capacity start size).length = size := by
  rw [window, List.length_map, List.length_range]

theorem window_succ : window ring capacity start (size + 1) =
    window ring capacity start size ++ [ring ((start + size) % capacity)] := by
  rw [window, List.range_succ, List.map_append, List.map_singleton, window]

theorem window_getElem {i : Nat} (h : i < (window ring capacity start size).length) :
    (window ring capacity start size)[i] = ring ((start + i) % capacity) := by
  simp only [window, List.getElem_map, List.getElem_range]

theorem position_ne {i k : Nat} (hik : i < k) (hk : k < capacity) :
    (start + i) % capacity ≠ (start + k) % capacity := by
  intro h
  have hmod : i % capacity = k % capacity := Nat.ModEq.add_left_cancel' start h
  rw [Nat.mod_eq_of_lt (hik.trans hk), Nat.mod_eq_of_lt hk] at hmod
  omega

theorem window_put (hsize : size < capacity) (a : α) :
    window (fun i => if i = (start + size) % capacity then a else ring i) capacity
      start (size + 1) =
      window ring capacity start size ++ [a] := by
  rw [window_succ, if_pos rfl]
  congr 1
  apply List.map_congr_left
  intro i hi
  exact if_neg (position_ne (List.mem_range.1 hi) hsize)

/-- Storing behind the window extends it, as long as the ring has room. -/
theorem window_store (data : List α) (h : size + data.length ≤ capacity) :
    window (store ring capacity (start + size) data) capacity start (size + data.length) =
      window ring capacity start size ++ data := by
  induction data generalizing ring size with
  | nil => rw [List.append_nil]; rfl
  | cons a rest ih =>
    rw [List.length_cons] at h
    have hrest := @ih (fun i => if i = (start + size) % capacity then a else ring i) (size + 1)
      (by omega)
    rw [window_put (by omega)] at hrest
    rw [List.length_cons, Nat.add_comm rest.length 1, ← Nat.add_assoc, store, Nat.add_assoc start,
      hrest, List.append_assoc]
    rfl

theorem window_advance (overflow : Nat) :
    window ring capacity ((start + overflow) % capacity) (size - overflow) =
      (window ring capacity start size).drop overflow := by
  apply List.ext_getElem
  · rw [List.length_drop, length_window, length_window]
  · intro i h₁ h₂
    rw [List.getElem_drop, window_getElem, window_getElem, Nat.mod_add_mod, Nat.add_assoc]

/-- A stretch of the window, read position by position. -/
theorem window_slice (h : skip + count ≤ size) :
    window ring capacity (start + skip) count =
      ((window ring capacity start size).drop skip).take count := by
  apply List.ext_getElem
  · rw [List.length_take, List.length_drop, length_window, length_window]
    omega
  · intro i h₁ h₂
    rw [List.getElem_take, List.getElem_drop, window_getElem, window_getElem, Nat.add_assoc]

end Ring

end PmTiny
