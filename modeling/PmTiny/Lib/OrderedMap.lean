import Mathlib.Data.List.Basic
import Mathlib.Order.Defs.Unbundled

namespace PmTiny
set_option autoImplicit true

structure OrderedMap {κ : Type} (less : κ → κ → Prop) (α : Type) where
  entries : List (κ × α)
  sorted : entries.Pairwise fun entry entry' => less entry.1 entry'.1

namespace OrderedMap

variable {κ α : Type} {less : κ → κ → Prop}

theorem ext {m m' : OrderedMap less α} (h : m.entries = m'.entries) : m = m' := by
  cases m
  cases m'
  cases h
  rfl

instance [DecidableEq κ] [DecidableEq α] : DecidableEq (OrderedMap less α) :=
  fun m m' => decidable_of_iff (m.entries = m'.entries) ⟨ext, fun h => by rw [h]⟩

def empty : OrderedMap less α := ⟨[], List.Pairwise.nil⟩

def keys (m : OrderedMap less α) : List κ := m.entries.map Prod.fst

/-- Put an entry in its place, or in the place of the one with its key. -/
def insertEntry [DecidableEq κ] (less : κ → κ → Prop) [DecidableRel less] (key : κ) (value : α) :
    List (κ × α) → List (κ × α)
  | [] => [(key, value)]
  | entry :: entries =>
    if less key entry.1 then (key, value) :: entry :: entries
    else if key = entry.1 then (key, value) :: entries
    else entry :: insertEntry less key value entries

variable [DecidableEq κ] [DecidableRel less]

theorem mem_insertEntry {key : κ} {value : α} {entries : List (κ × α)}
    (h : entry ∈ insertEntry less key value entries) :
    entry = (key, value) ∨ entry ∈ entries := by
  induction entries with
  | nil => exact .inl (List.mem_singleton.1 h)
  | cons first entries ih =>
    rw [insertEntry] at h
    split_ifs at h
    · exact List.mem_cons.1 h
    · exact (List.mem_cons.1 h).imp_right (List.mem_cons_of_mem _)
    · rcases List.mem_cons.1 h with rfl | h
      · exact .inr List.mem_cons_self
      · exact (ih h).imp_right (List.mem_cons_of_mem _)

theorem sorted_insertEntry [IsStrictTotalOrder κ less] {key : κ} {value : α}
    {entries : List (κ × α)} (h : entries.Pairwise fun entry entry' => less entry.1 entry'.1) :
    (insertEntry less key value entries).Pairwise fun entry entry' =>
      less entry.1 entry'.1 := by
  induction entries with
  | nil => exact List.pairwise_singleton _ _
  | cons first entries ih =>
    obtain ⟨hfirst, htail⟩ := List.pairwise_cons.1 h
    rw [insertEntry]
    split_ifs with hless heq
    · refine List.pairwise_cons.2 ⟨fun entry hentry => ?_, h⟩
      rcases List.mem_cons.1 hentry with rfl | hentry
      · exact hless
      · exact Trans.trans hless (hfirst entry hentry)
    · exact List.pairwise_cons.2 ⟨fun entry hentry => heq ▸ hfirst entry hentry, htail⟩
    · refine List.pairwise_cons.2 ⟨fun entry hentry => ?_, ih htail⟩
      rcases mem_insertEntry hentry with rfl | hentry
      · rcases trichotomous_of less key first.1 with hlt | hkey | hlt
        · exact absurd hlt hless
        · exact absurd hkey heq
        · exact hlt
      · exact hfirst entry hentry

def insert [IsStrictTotalOrder κ less] (m : OrderedMap less α) (key : κ) (value : α) :
    OrderedMap less α := ⟨insertEntry less key value m.entries, sorted_insertEntry m.sorted⟩

/-- A key after all others goes to the end. -/
theorem insert_last [IsStrictTotalOrder κ less] {m : OrderedMap less α} {key : κ}
    (h : ∀ entry ∈ m.entries, less entry.1 key) (value : α) :
    (m.insert key value).entries = m.entries ++ [(key, value)] := by
  have hend : ∀ entries : List (κ × α), (∀ entry ∈ entries, less entry.1 key) →
      insertEntry less key value entries = entries ++ [(key, value)] := by
    intro entries
    induction entries with
    | nil => exact fun _ => rfl
    | cons first entries ih =>
      intro hall
      obtain ⟨hfirst, htail⟩ := List.forall_mem_cons.1 hall
      have hne : key ≠ first.1 := fun heq => irrefl_of less key (heq ▸ hfirst)
      rw [insertEntry, if_neg (asymm_of less hfirst), if_neg hne, ih htail, List.cons_append]
  exact hend m.entries h

/-- Entries that come in the order of their keys are kept as they are. -/
theorem entries_insertAll [IsStrictTotalOrder κ less] {later : List (κ × α)}
    (m : OrderedMap less α)
    (h : (m.entries ++ later).Pairwise fun entry entry' => less entry.1 entry'.1) :
    (later.foldl (fun m entry => m.insert entry.1 entry.2) m).entries = m.entries ++ later := by
  induction later generalizing m with
  | nil => exact (List.append_nil _).symm
  | cons entry later ih =>
    have hlast : ∀ earlier ∈ m.entries, less earlier.1 entry.1 := fun earlier hearlier =>
      (List.pairwise_append.1 h).2.2 earlier hearlier entry List.mem_cons_self
    have hnext := insert_last hlast entry.2
    rw [← List.singleton_append, ← List.append_assoc, ← hnext] at h
    rw [List.foldl_cons, ih _ h, hnext, List.append_assoc, List.singleton_append]

end OrderedMap
end PmTiny
