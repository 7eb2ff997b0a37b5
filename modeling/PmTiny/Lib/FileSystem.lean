import Mathlib.Logic.Function.Basic
import PmTiny.Lib.Crash

namespace FileSystem
set_option autoImplicit true
open Crash

/-- A file, or a directory of files; a file has no content while it is being written. -/
inductive Node (C : Type) where
  | file (content : Option C)
  | directory (entries : List (String × Option C))
  deriving DecidableEq

namespace Node

def isFile : Node C → Bool
  | .file _ => true
  | .directory _ => false

def isDirectory : Node C → Bool
  | .file _ => false
  | .directory _ => true

end Node

/-- The nodes by their paths, and which of the calls that are still to come will fail. -/
structure Disk (C : Type) where
  nodes : String → Option (Node C)
  faults : Nat → Bool
  calls : Nat := 0

namespace Disk

def set (disk : Disk C) (path : String) (node : Option (Node C)) : Disk C :=
  { disk with nodes := Function.update disk.nodes path node }

end Disk

/-- A call that needs room, a parent or a device: it may fail for reasons outside the disk. -/
def attempt (f : Disk C → Disk C × Bool) : Program (Disk C) Bool := .call fun disk =>
  let next := { disk with calls := disk.calls + 1 }
  if disk.faults disk.calls then (next, false) else f next

/-- Replace a node by what `f` makes of it, or fail where `f` does. -/
def modify (path : String) (f : Option (Node C) → Option (Option (Node C))) (disk : Disk C) :
    Disk C × Bool :=
  match f (disk.nodes path) with
  | none => (disk, false)
  | some node => (disk.set path node, true)

def access (path : String) : Program (Disk C) Bool :=
  .call fun disk => (disk, (disk.nodes path).isSome)

def read (path : String) : Program (Disk C) (Option C) := .call fun disk =>
  (disk, match disk.nodes path with
    | some (.file content) => content
    | _ => none)

def unlink (path : String) : Program (Disk C) Bool := .call <| modify path fun
  | some (.file _) => some none
  | _ => none

def rmdir (path : String) : Program (Disk C) Bool := .call <| modify path fun
  | some (.directory []) => some none
  | _ => none

def readdir (path : String) : Program (Disk C) (Option (List String)) := .call fun disk =>
  (disk, match disk.nodes path with
    | some (.directory entries) => some (entries.map (·.1))
    | _ => none)

def unlinkEntry (path name : String) : Program (Disk C) Bool := .call <| modify path fun
  | some (.directory entries) => some (some (.directory (entries.filter (·.1 ≠ name))))
  | _ => none

def mkdir (path : String) : Program (Disk C) Bool := attempt <| modify path fun
  | none => some (some (.directory []))
  | _ => none

/-- Open for writing: the file is there, and empty. -/
def create (path : String) : Program (Disk C) Bool := attempt <| modify path fun
  | none | some (.file _) => some (some (.file none))
  | _ => none

def write (path : String) (content : C) : Program (Disk C) Bool := attempt <| modify path fun
  | some (.file _) => some (some (.file (some content)))
  | _ => none

/-- Put a content under a name, in the place it has or at the end. -/
def putEntry (name : String) (content : Option C) :
    List (String × Option C) → List (String × Option C)
  | [] => [(name, content)]
  | entry :: entries =>
    if entry.1 = name then (name, content) :: entries else entry :: putEntry name content entries

def putIn (name : String) (content : Option C) (path : String) : Program (Disk C) Bool :=
  attempt <| modify path fun
    | some (.directory entries) => some (some (.directory (putEntry name content entries)))
    | _ => none

def createEntry (path name : String) : Program (Disk C) Bool := putIn name none path

def writeEntry (path name : String) (content : C) : Program (Disk C) Bool :=
  putIn name (some content) path

def sync (path : String) : Program (Disk C) Bool := attempt fun disk =>
  (disk, (disk.nodes path).isSome)

def syncEntry (path name : String) : Program (Disk C) Bool := attempt fun disk =>
  (disk, match disk.nodes path with
    | some (.directory entries) => entries.any (·.1 = name)
    | _ => false)

def syncParent : Program (Disk C) Bool := attempt fun disk => (disk, true)

/-- What `rename` may put in the place of what. -/
def replaces : Option (Node C) → Option (Node C) → Bool
  | some (.file _), none | some (.file _), some (.file _) => true
  | some (.directory _), none | some (.directory _), some (.directory []) => true
  | _, _ => false

def rename (source target : String) : Program (Disk C) Bool := attempt fun disk =>
  if source = target then (disk, (disk.nodes source).isSome)
  else if replaces (disk.nodes source) (disk.nodes target) then
    ((disk.set target (disk.nodes source)).set source none, true)
  else (disk, false)

/-- What a move without the right to replace may put in the place of what, and one with it. -/
def movesOnto (replace : Bool) : Option (Node C) → Option (Node C) → Bool
  | some _, none => true
  | some (.file _), some (.file _) => replace
  | _, _ => false

def move (source target : String) (replace : Bool) : Program (Disk C) Bool := attempt fun disk =>
  if source = target then (disk, (disk.nodes source).isSome)
  else if movesOnto replace (disk.nodes source) (disk.nodes target) then
    ((disk.set target (disk.nodes source)).set source none, true)
  else (disk, false)

/-- The nodes at the paths of interest. -/
def view (path : ι → String) (disk : Disk C) : ι → Option (Node C) := fun i => disk.nodes (path i)

/-- The same, and how many of the calls that may fail were made. -/
def tally {ι : Type} (path : ι → String) (disk : Disk C) : (ι → Option (Node C)) × Nat :=
  (view path disk, disk.calls)

def Safely (faults : Nat → Bool) (path : ι → String) (inv : (ι → Option (Node C)) → Prop)
    (post : α → (ι → Option (Node C)) → Prop) (p : Program (Disk C) α) (v : ι → Option (Node C)) :
    Prop :=
  SafeAt (view path) (fun disk => disk.faults = faults) inv post p v

/-- Safety on every such disk that has made `n` of the calls that may fail. -/
def Counted {ι : Type} (faults : Nat → Bool) (path : ι → String)
    (inv : (ι → Option (Node C)) → Prop)
    (post : α → (ι → Option (Node C)) → Nat → Prop) (p : Program (Disk C) α)
    (v : ι → Option (Node C)) (n : Nat) : Prop :=
  SafeAt (tally path) (fun disk => disk.faults = faults) (fun seen => inv seen.1)
    (fun a seen => post a seen.1 seen.2) p (v, n)

section

variable {C ι : Type} {faults : Nat → Bool} {path : ι → String} {v : ι → Option (Node C)} {n : Nat}
  {inv : (ι → Option (Node C)) → Prop}

theorem safely_of_counted {post : α → (ι → Option (Node C)) → Prop} {p : Program (Disk C) α}
    (h : ∀ n, Counted faults path inv (fun a v _ => post a v) p v n) :
    Safely faults path inv post p v := by
  intro disk hk hv
  subst hv
  exact h disk.calls disk hk rfl

theorem counted_bind {post : β → (ι → Option (Node C)) → Nat → Prop} {p : Program (Disk C) α}
    {f : α → Program (Disk C) β}
    (h : Counted faults path inv (fun a v n => Counted faults path inv post (f a) v n) p v n) :
    Counted faults path inv post (p >>= f) v n := SafeAt.bind h

theorem counted_pure {post : α → (ι → Option (Node C)) → Nat → Prop} (hi : inv v)
    (h : post a v n) : Counted faults path inv post (pure a) v n := SafeAt.pure hi h

theorem counted_mono {post post' : α → (ι → Option (Node C)) → Nat → Prop}
    {p : Program (Disk C) α} (h : Counted faults path inv post p v n)
    (hp : ∀ a v n, inv v → post a v n → post' a v n) : Counted faults path inv post' p v n :=
  SafeAt.mono h fun a seen => hp a seen.1 seen.2

theorem counted_call {post : α → (ι → Option (Node C)) → Nat → Prop} {f : Disk C → Disk C × α}
    (hi : inv v)
    (h : ∀ disk, disk.faults = faults → tally path disk = (v, n) → (f disk).1.faults = faults ∧
      inv (view path (f disk).1) ∧ post (f disk).2 (view path (f disk).1) (f disk).1.calls) :
    Counted faults path inv post (.call f) v n := SafeAt.call hi h

theorem counted_observe {post : α → (ι → Option (Node C)) → Nat → Prop} {f : Disk C → α}
    (hi : inv v) (h : ∀ disk, view path disk = v → post (f disk) v n) :
    Counted faults path inv post (.call fun disk => (disk, f disk)) v n := by
  apply counted_call hi
  intro disk hk hseen
  obtain ⟨rfl, rfl⟩ := Prod.mk.inj hseen
  exact ⟨hk, hi, h disk rfl⟩

theorem counted_attempt {post : Bool → (ι → Option (Node C)) → Nat → Prop}
    {f : Disk C → Disk C × Bool} (hi : inv v) (hfault : faults n = true → post false v (n + 1))
    (hok : ∀ disk, view path disk = v → (f disk).1.faults = disk.faults ∧
      (f disk).1.calls = disk.calls ∧ inv (view path (f disk).1) ∧
      post (f disk).2 (view path (f disk).1) (n + 1)) :
    Counted faults path inv post (attempt f) v n := by
  apply counted_call hi
  intro disk hk hseen
  obtain ⟨hv, rfl⟩ := Prod.mk.inj hseen
  dsimp only
  split
  · rename_i hf
    subst hk hv
    exact ⟨rfl, hi, hfault hf⟩
  · obtain ⟨hk', hcalls, hi', hpost⟩ := hok { disk with calls := disk.calls + 1 } hv
    rw [hcalls]
    exact ⟨hk'.trans hk, hi', hpost⟩

variable {post : Bool → (ι → Option (Node C)) → Nat → Prop}

theorem counted_access (hi : inv v) (h : post (v i).isSome v n) :
    Counted faults path inv post (access (path i)) v n := by
  apply counted_observe hi
  intro disk hv
  subst hv
  exact h

theorem counted_read {post : Option C → (ι → Option (Node C)) → Nat → Prop} (hi : inv v)
    (hfile : ∀ content, v i = some (.file content) → post content v n)
    (hno : (∀ content, v i ≠ some (.file content)) → post none v n) :
    Counted faults path inv post (read (path i)) v n := by
  apply counted_observe hi
  intro disk hv
  subst hv
  split
  · rename_i content hc
    exact hfile content hc
  · rename_i hc
    exact hno hc

theorem counted_readdir {post : Option (List String) → (ι → Option (Node C)) → Nat → Prop}
    (hi : inv v)
    (hdir : ∀ entries, v i = some (.directory entries) → post (some (entries.map (·.1))) v n)
    (hno : (∀ entries, v i ≠ some (.directory entries)) → post none v n) :
    Counted faults path inv post (readdir (path i)) v n := by
  apply counted_observe hi
  intro disk hv
  subst hv
  split
  · rename_i entries he
    exact hdir entries he
  · rename_i he
    exact hno he

theorem counted_sync (hi : inv v) (hfault : faults n = true → post false v (n + 1))
    (hok : post (v i).isSome v (n + 1)) : Counted faults path inv post (sync (path i)) v n := by
  apply counted_attempt hi hfault
  intro disk hv
  subst hv
  exact ⟨rfl, rfl, hi, hok⟩

theorem counted_syncParent (hi : inv v) (hfault : faults n = true → post false v (n + 1))
    (hok : post true v (n + 1)) : Counted faults path inv post syncParent v n := by
  apply counted_attempt hi hfault
  intro disk hv
  subst hv
  exact ⟨rfl, rfl, hi, hok⟩

theorem counted_syncEntry (hi : inv v) (hfault : faults n = true → post false v (n + 1))
    (hok : ∀ b, (∀ entries, v i = some (.directory entries) → b = entries.any (·.1 = name)) →
      post b v (n + 1)) :
    Counted faults path inv post (syncEntry (path i) name) v n := by
  apply counted_attempt hi hfault
  intro disk hv
  subst hv
  refine ⟨rfl, rfl, hi, hok _ fun entries he => ?_⟩
  have hn : disk.nodes (path i) = some (.directory entries) := he
  simp only [hn]

variable [DecidableEq ι]

theorem view_set (hp : Function.Injective path) (disk : Disk C) (i : ι) (node : Option (Node C)) :
    view path (disk.set (path i) node) = Function.update (view path disk) i node := by
  funext j
  by_cases h : j = i
  · subst h
    simp [view, Disk.set]
  · have hne : path j ≠ path i := fun he => h (hp he)
    simp [view, Disk.set, h, hne]

theorem modify_spec (hp : Function.Injective path) {f : Option (Node C) → Option (Option (Node C))}
    (post : Bool → (ι → Option (Node C)) → Prop) (hi : inv v)
    (hok : ∀ node, f (v i) = some node → inv (Function.update v i node) ∧
      post true (Function.update v i node))
    (hno : f (v i) = none → post false v) (disk : Disk C) (hv : view path disk = v) :
    (modify (path i) f disk).1.faults = disk.faults ∧
    (modify (path i) f disk).1.calls = disk.calls ∧
      inv (view path (modify (path i) f disk).1) ∧
      post (modify (path i) f disk).2 (view path (modify (path i) f disk).1) := by
  subst hv
  cases hf : f (disk.nodes (path i)) with
  | none =>
    simp only [modify, hf]
    exact ⟨trivial, trivial, hi, hno hf⟩
  | some node =>
    simp only [modify, hf, view_set hp]
    exact ⟨rfl, rfl, hok node hf⟩

theorem counted_modify (hp : Function.Injective path)
    {f : Option (Node C) → Option (Option (Node C))} (hi : inv v)
    (hok : ∀ node, f (v i) = some node → inv (Function.update v i node) ∧
      post true (Function.update v i node) n)
    (hno : f (v i) = none → post false v n) :
    Counted faults path inv post (.call (modify (path i) f)) v n := by
  apply counted_call hi
  intro disk hk hseen
  obtain ⟨hv, rfl⟩ := Prod.mk.inj hseen
  obtain ⟨hk', hcalls, h⟩ := modify_spec hp (post · · disk.calls) hi hok hno disk hv
  rw [hcalls]
  exact ⟨hk'.trans hk, h⟩

theorem counted_attempt_modify (hp : Function.Injective path)
    {f : Option (Node C) → Option (Option (Node C))} (hi : inv v)
    (hfault : faults n = true → post false v (n + 1))
    (hok : ∀ node, f (v i) = some node → inv (Function.update v i node) ∧
      post true (Function.update v i node) (n + 1))
    (hno : f (v i) = none → post false v (n + 1)) :
    Counted faults path inv post (attempt (modify (path i) f)) v n :=
  counted_attempt hi hfault fun disk hv => modify_spec hp (post · · (n + 1)) hi hok hno disk hv

theorem counted_mkdir (hp : Function.Injective path) (hnone : v i = none) (hi : inv v)
    (hfault : faults n = true → post false v (n + 1))
    (hi' : inv (Function.update v i (some (.directory []))))
    (hok : post true (Function.update v i (some (.directory []))) (n + 1)) :
    Counted faults path inv post (mkdir (path i)) v n := by
  apply counted_attempt_modify hp hi hfault
  · intro node hnode
    rw [hnone] at hnode
    cases hnode
    exact ⟨hi', hok⟩
  · intro hnode
    rw [hnone] at hnode
    cases hnode

/-- Where no directory is, a file can be created. -/
theorem counted_create (hp : Function.Injective path) (hk : ∀ node ∈ v i, node.isFile) (hi : inv v)
    (hfault : faults n = true → post false v (n + 1))
    (hi' : inv (Function.update v i (some (.file none))))
    (hok : post true (Function.update v i (some (.file none))) (n + 1)) :
    Counted faults path inv post (create (path i)) v n := by
  apply counted_attempt_modify hp hi hfault
  · intro node hnode
    split at hnode
    · cases hnode
      exact ⟨hi', hok⟩
    · cases hnode
      exact ⟨hi', hok⟩
    · cases hnode
  · intro hnode
    cases hv : v i with
    | none =>
      rw [hv] at hnode
      cases hnode
    | some node =>
      cases node with
      | file content =>
        rw [hv] at hnode
        cases hnode
      | directory entries => cases hk _ hv

theorem counted_write {old : Option C} (hp : Function.Injective path)
    (hi : inv (Function.update v i (some (.file old))))
    (hfault : faults n = true → post false (Function.update v i (some (.file old))) (n + 1))
    (hi' : inv (Function.update v i (some (.file (some content)))))
    (hok : post true (Function.update v i (some (.file (some content)))) (n + 1)) :
    Counted faults path inv post (write (path i) content)
      (Function.update v i (some (.file old))) n := by
  apply counted_attempt_modify hp hi hfault
  · intro node hnode
    rw [Function.update_self] at hnode
    cases hnode
    rw [Function.update_idem]
    exact ⟨hi', hok⟩
  · intro hnode
    rw [Function.update_self] at hnode
    cases hnode

theorem counted_putIn {entries : List (String × Option C)} {content : Option C}
    (hp : Function.Injective path) (hi : inv (Function.update v i (some (.directory entries))))
    (hfault : faults n = true →
      post false (Function.update v i (some (.directory entries))) (n + 1))
    (hi' : inv (Function.update v i (some (.directory (putEntry name content entries)))))
    (hok : post true (Function.update v i (some (.directory (putEntry name content entries))))
      (n + 1)) :
    Counted faults path inv post (putIn name content (path i))
      (Function.update v i (some (.directory entries))) n := by
  apply counted_attempt_modify hp hi hfault
  · intro node hnode
    rw [Function.update_self] at hnode
    cases hnode
    rw [Function.update_idem]
    exact ⟨hi', hok⟩
  · intro hnode
    rw [Function.update_self] at hnode
    cases hnode

/-- Unlinking what is no directory leaves nothing there. -/
theorem counted_unlink (hp : Function.Injective path) (hk : ∀ node ∈ v i, node.isFile) (hi : inv v)
    (hi' : inv (Function.update v i none)) (h : ∀ b, post b (Function.update v i none) n) :
    Counted faults path inv post (unlink (path i)) v n := by
  apply counted_modify hp hi
  · intro node hnode
    split at hnode
    · cases hnode
      exact ⟨hi', h true⟩
    · cases hnode
  · intro hnode
    have hnone : v i = none := by
      cases hv : v i with
      | none => rfl
      | some node =>
        cases node with
        | file content => simp [hv] at hnode
        | directory entries => cases hk _ hv
    have he : Function.update v i none = v := by
      rw [← hnone]
      exact Function.update_eq_self i v
    rw [← he]
    exact h false

theorem counted_transfer (hp : Function.Injective path) (hne : i ≠ j)
    {may : Option (Node C) → Option (Node C) → Bool} (hi : inv v)
    (hfault : faults n = true → post false v (n + 1))
    (hno : may (v i) (v j) = false → post false v (n + 1))
    (hok : may (v i) (v j) = true →
      inv (Function.update (Function.update v j (v i)) i none) ∧
      post true (Function.update (Function.update v j (v i)) i none) (n + 1)) :
    Counted faults path inv post (attempt fun disk =>
      if path i = path j then (disk, (disk.nodes (path i)).isSome)
      else if may (disk.nodes (path i)) (disk.nodes (path j)) then
        ((disk.set (path j) (disk.nodes (path i))).set (path i) none, true)
      else (disk, false)) v n := by
  apply counted_attempt hi hfault
  intro disk hv
  subst hv
  have hpne : path i ≠ path j := fun he => hne (hp he)
  simp only [if_neg hpne]
  split
  · rename_i hr
    simp only [view_set hp]
    exact ⟨rfl, rfl, hok hr⟩
  · rename_i hr
    exact ⟨rfl, rfl, hi, hno (Bool.eq_false_iff.2 hr)⟩

theorem counted_move (hp : Function.Injective path) (hne : i ≠ j) (hi : inv v)
    (hfault : faults n = true → post false v (n + 1))
    (hno : movesOnto replace (v i) (v j) = false → post false v (n + 1))
    (hok : movesOnto replace (v i) (v j) = true →
      inv (Function.update (Function.update v j (v i)) i none) ∧
      post true (Function.update (Function.update v j (v i)) i none) (n + 1)) :
    Counted faults path inv post (move (path i) (path j) replace) v n :=
  counted_transfer hp hne hi hfault hno hok

end

section

variable {C ι : Type} {faults : Nat → Bool} {path : ι → String} {v : ι → Option (Node C)}
  {inv : (ι → Option (Node C)) → Prop} {post : Bool → (ι → Option (Node C)) → Prop}

theorem safely_access (hi : inv v) (h : post (v i).isSome v) :
    Safely faults path inv post (access (path i)) v :=
  safely_of_counted fun _ => counted_access hi h

theorem safely_read {post : Option C → (ι → Option (Node C)) → Prop} (hi : inv v)
    (hfile : ∀ content, v i = some (.file content) → post content v)
    (hno : (∀ content, v i ≠ some (.file content)) → post none v) :
    Safely faults path inv post (read (path i)) v :=
  safely_of_counted fun _ => counted_read hi hfile hno

theorem safely_sync (hi : inv v) (hfault : (∃ n, faults n = true) → post false v)
    (hok : post (v i).isSome v) : Safely faults path inv post (sync (path i)) v :=
  safely_of_counted fun n => counted_sync hi (fun hf => hfault ⟨n, hf⟩) hok

theorem safely_syncParent (hi : inv v) (hfault : (∃ n, faults n = true) → post false v)
    (hok : post true v) : Safely faults path inv post syncParent v :=
  safely_of_counted fun n => counted_syncParent hi (fun hf => hfault ⟨n, hf⟩) hok

variable [DecidableEq ι]

theorem safely_create (hp : Function.Injective path) (hk : ∀ node ∈ v i, node.isFile) (hi : inv v)
    (hfault : (∃ n, faults n = true) → post false v)
    (hi' : inv (Function.update v i (some (.file none))))
    (hok : post true (Function.update v i (some (.file none)))) :
    Safely faults path inv post (create (path i)) v :=
  safely_of_counted fun n => counted_create hp hk hi (fun hf => hfault ⟨n, hf⟩) hi' hok

theorem safely_write {old : Option C} (hp : Function.Injective path)
    (hi : inv (Function.update v i (some (.file old))))
    (hfault : (∃ n, faults n = true) → post false (Function.update v i (some (.file old))))
    (hi' : inv (Function.update v i (some (.file (some content)))))
    (hok : post true (Function.update v i (some (.file (some content))))) :
    Safely faults path inv post (write (path i) content) (Function.update v i (some (.file old))) :=
  safely_of_counted fun n => counted_write hp hi (fun hf => hfault ⟨n, hf⟩) hi' hok

theorem safely_unlink (hp : Function.Injective path) (hk : ∀ node ∈ v i, node.isFile) (hi : inv v)
    (hi' : inv (Function.update v i none)) (h : ∀ b, post b (Function.update v i none)) :
    Safely faults path inv post (unlink (path i)) v :=
  safely_of_counted fun _ => counted_unlink hp hk hi hi' h

theorem safely_rename (hp : Function.Injective path) (hne : i ≠ j) (hi : inv v)
    (hfault : (∃ n, faults n = true) → post false v)
    (hno : replaces (v i) (v j) = false → post false v)
    (hok : replaces (v i) (v j) = true →
      inv (Function.update (Function.update v j (v i)) i none) ∧
      post true (Function.update (Function.update v j (v i)) i none)) :
    Safely faults path inv post (rename (path i) (path j)) v :=
  safely_of_counted fun n => counted_transfer hp hne hi (fun hf => hfault ⟨n, hf⟩) hno hok

end

/-- Of the calls that may fail `c` were made from one disk to the other, and none did. -/
def Passed (c : Nat) (disk disk' : Disk C) : Prop :=
  disk'.faults = disk.faults ∧ disk'.calls = disk.calls + c ∧
    ∀ j < c, disk.faults (disk.calls + j) = false

theorem Passed.refl (disk : Disk C) : Passed 0 disk disk := by
  refine ⟨rfl, rfl, ?_⟩
  intro j hj
  cases hj

/-- Calls that passed, and then more of them. -/
theorem Passed.faults {disk disk' : Disk C} (h : Passed a disk disk')
    (h' : ∀ j < b, disk'.faults (disk'.calls + j) = false) :
    ∀ j < a + b, disk.faults (disk.calls + j) = false := by
  obtain ⟨hfaults, hcalls, hpassed⟩ := h
  intro j hj
  by_cases hja : j < a
  · exact hpassed j hja
  · have hnext := h' (j - a) (by omega)
    rw [hfaults, hcalls, show disk.calls + a + (j - a) = disk.calls + j by omega] at hnext
    exact hnext

theorem Passed.trans {disk disk' disk'' : Disk C} (h : Passed a disk disk')
    (h' : Passed b disk' disk'') : Passed (a + b) disk disk'' := by
  refine ⟨h'.1.trans h.1, ?_, h.faults h'.2.2⟩
  rw [h'.2.1, h.2.1, Nat.add_assoc]

/-- When the result is `done`, the program made `c` of the calls that may fail, and none did. -/
def Makes (c : Nat) (done : α → Prop) (p : Program (Disk C) α) : Prop :=
  ∀ disk, done (p.run disk).2 → Passed c disk (p.run disk).1

/-- None of the calls that the program makes may fail. -/
abbrev Free (p : Program (Disk C) α) : Prop := Makes 0 (fun _ => True) p

/-- The result is never `done`. -/
def Rejects (done : α → Prop) (p : Program (Disk C) α) : Prop := ∀ disk, ¬done (p.run disk).2

section

variable {done : α → Prop}

theorem makes_pure (a : α) : Makes 0 done (pure a : Program (Disk C) α) :=
  fun disk _ => .refl disk

theorem rejects_pure {a : α} (h : ¬done a) :
    Rejects done (pure a : Program (Disk C) α) := fun _ => h

theorem rejects_bind {p : Program (Disk C) β} {f : β → Program (Disk C) α}
    (h : ∀ b, Rejects done (f b)) : Rejects done (p >>= f) := by
  intro disk
  rw [Program.run_bind]
  exact h _ _

theorem makes_bind {first : β → Prop} {p : Program (Disk C) β} {f : β → Program (Disk C) α}
    (hp : Makes a first p) (hf : ∀ x, first x → Makes b done (f x))
    (hno : ∀ x, ¬first x → Rejects done (f x)) : Makes (a + b) done (p >>= f) := by
  intro disk
  rw [Program.run_bind]
  intro h
  by_cases hx : first (p.run disk).2
  · exact (hp disk hx).trans (hf _ hx _ h)
  · exact absurd h (hno _ hx _)

theorem makes_after {p : Program (Disk C) β} {f : β → Program (Disk C) α} (hp : Free p)
    (hf : ∀ x, Makes c done (f x)) : Makes c done (p >>= f) := by
  have h := makes_bind hp (fun x _ => hf x) fun _ hx => absurd trivial hx
  rwa [Nat.zero_add] at h

theorem makes_guard {p : Program (Disk C) Bool} {q r : Program (Disk C) α}
    (hp : Makes a (· = true) p) (hq : Makes b done q) (hr : Rejects done r) :
    Makes (a + b) done (do if ← p then q else r) := by
  apply makes_bind hp
  · intro x hx
    rwa [if_pos hx]
  · intro x hx
    rwa [if_neg hx]

/-- A result that is `done` shows that none of the next `c` calls that may fail did. -/
def Needs (c : Nat) (done : α → Prop) (p : Program (Disk C) α) : Prop :=
  ∀ disk, done (p.run disk).2 → ∀ j < c, disk.faults (disk.calls + j) = false

theorem needs_zero (done : α → Prop) (p : Program (Disk C) α) : Needs 0 done p := by
  intro disk _ j hj
  cases hj

theorem needs_guard {p : Program (Disk C) Bool} {q r : Program (Disk C) α}
    (hp : Makes a (· = true) p) (hq : Needs b done q) (hr : Rejects done r) :
    Needs (a + b) done (do if ← p then q else r) := by
  intro disk
  rw [Program.run_bind]
  intro h
  cases hx : (p.run disk).2 with
  | true =>
    rw [hx, if_pos rfl] at h
    exact (hp disk hx).faults (hq _ h)
  | false =>
    rw [hx, if_neg (by decide)] at h
    exact absurd h (hr _)

theorem free_discard {p : Program (Disk C) α} (hp : Free p) : Free (discard p) :=
  makes_after hp fun _ => makes_pure _

theorem modify_calls (path : String) (f : Option (Node C) → Option (Option (Node C)))
    (disk : Disk C) : (modify path f disk).1.faults = disk.faults ∧
      (modify path f disk).1.calls = disk.calls := by
  unfold modify
  cases f (disk.nodes path) with
  | none => exact ⟨rfl, rfl⟩
  | some node => exact ⟨rfl, rfl⟩

theorem free_call {f : Disk C → Disk C × α}
    (h : ∀ disk, (f disk).1.faults = disk.faults ∧ (f disk).1.calls = disk.calls) :
    Free (.call f) := by
  intro disk _
  refine ⟨(h disk).1, (h disk).2, ?_⟩
  intro j hj
  cases hj

theorem makes_attempt {f : Disk C → Disk C × Bool}
    (h : ∀ disk, (f disk).1.faults = disk.faults ∧ (f disk).1.calls = disk.calls) :
    Makes 1 (· = true) (attempt f) := by
  intro disk
  simp only [attempt, Program.call, Program.run]
  split
  · intro h'
    cases h'
  · rename_i hf
    intro _
    obtain ⟨hfaults, hcalls⟩ := h { disk with calls := disk.calls + 1 }
    refine ⟨hfaults, hcalls, ?_⟩
    intro j hj
    rw [Nat.lt_one_iff.1 hj]
    simpa using hf

theorem makes_rename (source target : String) :
    Makes 1 (· = true) (rename source target : Program (Disk C) Bool) := by
  apply makes_attempt
  intro disk
  split
  · exact ⟨rfl, rfl⟩
  · split
    · exact ⟨rfl, rfl⟩
    · exact ⟨rfl, rfl⟩

end

def Present (path : String) (disk : Disk C) : Prop := (disk.nodes path).isSome = true

section

variable {kept : String}

theorem present_modify (h : path ≠ kept) (f : Option (Node C) → Option (Option (Node C)))
    (disk : Disk C) (hp : Present kept disk) : Present kept (modify path f disk).1 := by
  have hother : (modify path f disk).1.nodes kept = disk.nodes kept := by
    unfold modify
    cases f (disk.nodes path) with
    | none => rfl
    | some node => exact Function.update_of_ne h.symm node disk.nodes
  rwa [Present, hother]

theorem keeps_attempt {f : Disk C → Disk C × Bool}
    (h : ∀ disk, Present kept disk → Present kept (f disk).1) :
    Program.Keeps (Present kept) (attempt f) := by
  intro disk hp
  simp only [attempt, Program.call, Program.run]
  split
  · exact hp
  · exact h _ hp

/-- What is moved to a path is there; only what is moved away is not. -/
theorem keeps_rename (h : source ≠ kept) (target : String) :
    Program.Keeps (Present kept) (rename source target : Program (Disk C) Bool) := by
  apply keeps_attempt
  intro disk hp
  split
  · exact hp
  split
  · rename_i hreplaces
    have hsource : (disk.nodes source).isSome = true := by
      cases hs : disk.nodes source with
      | none =>
        rw [hs] at hreplaces
        cases hreplaces
      | some node => rfl
    have hmoved : ((disk.set target (disk.nodes source)).set source none).nodes kept =
        Function.update disk.nodes target (disk.nodes source) kept := by
      simp [Disk.set, h.symm]
    unfold Present at hp ⊢
    rw [hmoved]
    by_cases ht : kept = target
    · rw [ht, Function.update_self]
      exact hsource
    · rwa [Function.update_of_ne ht]
  · exact hp

end

end FileSystem
