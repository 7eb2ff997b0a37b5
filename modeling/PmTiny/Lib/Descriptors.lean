import Mathlib.Data.List.Nodup

namespace Descriptors
set_option autoImplicit true

/-- The descriptors of a process: slot `n` holds the file open under number `n`. -/
abbrev Table (F : Type) := List (Option F)

namespace Table

def file (t : Table F) (fd : Nat) : Option F := t[fd]?.join

/-- The number a new descriptor gets: the lowest one that is free. -/
def free : Table F → Nat
  | [] => 0
  | none :: _ => 0
  | some _ :: rest => free rest + 1

def add (f : F) : Table F → Table F
  | [] => [some f]
  | none :: rest => some f :: rest
  | some g :: rest => some g :: add f rest

def close (t : Table F) (fd : Nat) : Table F := t.set fd none

@[simp] theorem file_cons_succ : file (o :: t : Table F) (fd + 1) = file t fd := rfl

@[simp] theorem file_free (t : Table F) : t.file t.free = none := by
  induction t with
  | nil => rfl
  | cons o t ih =>
    cases o with
    | none => rfl
    | some g => exact ih

theorem file_add (f : F) (t : Table F) (fd : Nat) :
    (t.add f).file fd = if fd = t.free then some f else t.file fd := by
  induction t generalizing fd with
  | nil => cases fd <;> rfl
  | cons o t ih =>
    cases o with
    | none => cases fd <;> rfl
    | some g =>
      cases fd with
      | zero => rfl
      | succ n =>
        rw [add, file_cons_succ, ih n, free]
        simp

theorem file_add_free (f : F) (t : Table F) : (t.add f).file t.free = some f := by
  rw [file_add, if_pos rfl]

theorem file_close (t : Table F) (n fd : Nat) :
    (t.close n).file fd = if fd = n then none else t.file fd := by
  rw [close, file, List.getElem?_set]
  by_cases h : n = fd
  · subst h
    by_cases hn : n < t.length <;> simp [hn]
  · rw [if_neg h, if_neg (Ne.symm h), file]

theorem file_close_ne {t : Table F} (h : fd ≠ n) : (t.close n).file fd = t.file fd := by
  rw [file_close, if_neg h]

/-- Close a list of numbers one after the other. -/
def closeAll (t : Table F) (l : List Nat) : Table F := l.foldl close t

theorem file_closeAll (t : Table F) (l : List Nat) (fd : Nat) :
    (t.closeAll l).file fd = if fd ∈ l then none else t.file fd := by
  induction l generalizing t with
  | nil => simp [closeAll]
  | cons n l ih =>
    rw [closeAll, List.foldl_cons, ← closeAll, ih, file_close]
    by_cases hn : fd = n
    · simp [hn]
    · simp [hn]

end Table

/-- A table with the numbers `l` opened on top of what was open before. -/
structure Grown (t t' : Table F) (l : List Nat) : Prop where
  nodup : l.Nodup
  fresh : n ∈ l → t.file n = none
  isOpen : n ∈ l → t'.file n ≠ none
  kept : n ∉ l → t'.file n = t.file n

namespace Grown

variable {t t' : Table F}

theorem refl (t : Table F) : Grown t t [] where
  nodup := List.nodup_nil
  fresh := by simp
  isOpen := by simp
  kept := fun _ => rfl

theorem add (h : Grown t t' l) (f : F) : Grown t (t'.add f) (t'.free :: l) := by
  have hfree : t'.free ∉ l := fun hl => h.isOpen hl t'.file_free
  refine ⟨List.nodup_cons.2 ⟨hfree, h.nodup⟩, ?_, ?_, ?_⟩
  · intro n hn
    rcases List.mem_cons.1 hn with rfl | hn
    · rw [← h.kept hfree, Table.file_free]
    · exact h.fresh hn
  · intro n hn
    rw [Table.file_add]
    split
    · simp
    · rename_i hne
      exact h.isOpen ((List.mem_cons.1 hn).resolve_left hne)
  · intro n hn
    obtain ⟨hne, hl⟩ := not_or.1 (mt List.mem_cons.2 hn)
    rw [Table.file_add, if_neg hne, h.kept hl]

theorem closeAll (h : Grown t t' l) (hc : c ⊆ l) :
    Grown t (t'.closeAll c) (l.filter (· ∉ c)) := by
  refine ⟨h.nodup.filter _, ?_, ?_, ?_⟩
  · intro n hn
    exact h.fresh (List.mem_of_mem_filter hn)
  · intro n hn
    have hnc : n ∉ c := by simpa using (List.mem_filter.1 hn).2
    rw [Table.file_closeAll, if_neg hnc]
    exact h.isOpen (List.mem_of_mem_filter hn)
  · intro n hn
    rw [Table.file_closeAll]
    split
    · rename_i hnc
      exact (h.fresh (hc hnc)).symm
    · rename_i hnc
      apply h.kept
      intro hl
      exact hn (List.mem_filter.2 ⟨hl, by simpa using hnc⟩)

/-- What was open before still is. -/
theorem file_of_open (h : Grown t t' l) (hn : t.file n ≠ none) : t'.file n = t.file n :=
  h.kept fun hl => hn (h.fresh hl)

end Grown

/-- Every owner's number is open and no two owners share one. -/
structure Held (owned : O → Option Nat) (t : Table F) : Prop where
  isOpen : owned o = some n → t.file n ≠ none
  apart : owned o = some n → owned o' = some n → o = o'

namespace Held

variable {owned : O → Option Nat} {t : Table F}

theorem ne_free (h : Held owned t) (ho : owned o = some n) : n ≠ t.free := by
  rintro rfl
  exact h.isOpen ho t.file_free

theorem ne_of_ne (h : Held owned t) (ho : owned o = some n) (ho' : owned o' = some m)
    (hne : o ≠ o') : n ≠ m := by
  rintro rfl
  exact hne (h.apart ho ho')

/-- Opening a file changes no owner's file. -/
theorem file_add (h : Held owned t) (ho : owned o = some n) : (t.add f).file n = t.file n := by
  rw [Table.file_add, if_neg (h.ne_free ho)]

/-- Closing one owner's number changes no other owner's file. -/
theorem file_close (h : Held owned t) (ho : owned o = some n) (ho' : owned o' = some m)
    (hne : o' ≠ o) : (t.close n).file m = t.file m :=
  Table.file_close_ne (h.ne_of_ne ho' ho hne)

/-- Owners keep their numbers while the table keeps their files. -/
theorem mono (h : Held owned t) (hf : ∀ o n, owned o = some n → t'.file n = t.file n) :
    Held owned t' where
  isOpen := by
    intro o n ho
    rw [hf o n ho]
    exact h.isOpen ho
  apart := h.apart

theorem sub {owned' : O → Option Nat} (h : Held owned t)
    (hs : ∀ o n, owned' o = some n → owned o = some n) : Held owned' t where
  isOpen := fun ho => h.isOpen (hs _ _ ho)
  apart := fun ho ho' => h.apart (hs _ _ ho) (hs _ _ ho')

theorem close_foreign (h : Held owned t) (hn : ∀ o, owned o ≠ some n) : Held owned (t.close n) := by
  apply h.mono
  intro o m ho
  apply Table.file_close_ne
  rintro rfl
  exact hn o ho

section Release

variable [DecidableEq O]

theorem release (h : Held owned t) (ho : owned o = some n) :
    Held (Function.update owned o none) (t.close n) := by
  have hsub : Held (Function.update owned o none) t := by
    apply h.sub
    intro o' m ho'
    by_cases he : o' = o
    · rw [he, Function.update_self] at ho'
      cases ho'
    · rwa [Function.update_of_ne he] at ho'
  apply hsub.close_foreign
  intro o' ho'
  by_cases he : o' = o
  · rw [he, Function.update_self] at ho'
    cases ho'
  · rw [Function.update_of_ne he] at ho'
    exact he (h.apart ho' ho)

end Release

theorem acquire {owned' : O → Option Nat} (h : Held owned t) (New : O → Nat → Prop)
    (hf : ∀ m, t.file m ≠ none → t'.file m = t.file m)
    (hown : ∀ o n, owned' o = some n → owned o = some n ∨ New o n)
    (hopen : ∀ o n, New o n → t.file n = none ∧ t'.file n ≠ none)
    (hinj : ∀ o o' n, New o n → New o' n → o = o') : Held owned' t' where
  isOpen := by
    intro o n ho
    rcases hown o n ho with ho | hn
    · rw [hf n (h.isOpen ho)]
      exact h.isOpen ho
    · exact (hopen o n hn).2
  apart := by
    intro o n o' ho ho'
    rcases hown o n ho with ho | hn <;> rcases hown o' n ho' with ho' | hn'
    · exact h.apart ho ho'
    · exact absurd (hopen o' n hn').1 (h.isOpen ho)
    · exact absurd (hopen o n hn).1 (h.isOpen ho')
    · exact hinj o o' n hn hn'

end Held

end Descriptors
