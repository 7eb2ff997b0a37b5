import Mathlib.Data.List.Sublists

namespace PmTiny
set_option autoImplicit true

/-- `cgroup.procs` of a group: who is in it, and what keeps it from being opened or read. -/
structure CgroupProcs where
  members : List Int
  openError : Option String := none
  /-- The number of pids that are read when a read fails. -/
  readError : Option Nat := none

def CgroupProcs.delivered (procs : CgroupProcs) : List Int :=
  match procs.readError with
  | none => procs.members
  | some count => procs.members.take count

/-- The entries of a directory in the order of `readdir`, with what `stat` says about each of them
unless it is `ENOENT`, and the groups below. -/
inductive CgroupEntries where
  | nil
  /-- `readdir` fails before it comes to the other entries. -/
  | failed (unlisted : CgroupEntries)
  /-- Removed after it was listed. -/
  | vanished (name : String) (rest : CgroupEntries)
  | file (name : String) (statError : Option String) (rest : CgroupEntries)
  | group (name : String) (statError : Option String) (procs : CgroupProcs)
    (opendirError : Option String) (entries rest : CgroupEntries)

structure Cgroup where
  procs : CgroupProcs
  opendirError : Option String := none
  entries : CgroupEntries := .nil

/-- `cgroup.procs` of every group that exists, above what is below it. -/
def CgroupEntries.all : CgroupEntries → List CgroupProcs
  | .nil => []
  | .failed unlisted => unlisted.all
  | .vanished _ rest => rest.all
  | .file _ _ rest => rest.all
  | .group _ _ procs _ entries rest => procs :: (entries.all ++ rest.all)

def Cgroup.all (group : Cgroup) : List CgroupProcs := group.procs :: group.entries.all

/-- The pids that were read, and the files that were read to their end. -/
structure CgroupWalk where
  pids : List Int := []
  finished : List CgroupProcs := []

/-- The loop over `procs >> pid`, which stops at the end as at an error. -/
def CgroupWalk.read (walk : CgroupWalk) (procs : CgroupProcs) : CgroupWalk where
  pids := walk.pids ++ procs.delivered
  finished := if procs.readError = none then walk.finished ++ [procs] else walk.finished

def startsWithDot (name : String) : Bool := name.toList.head? = some '.'

/-- `collect_recursive` on a group, with the loop over its directory. -/
def collectGroup (procs : CgroupProcs) (opendirError : Option String)
    (loop : CgroupWalk → Except String CgroupWalk) (walk : CgroupWalk) : Except String CgroupWalk :=
  match procs.openError with
  | some reason => .error reason
  | none =>
    match opendirError with
    | some reason => .error reason
    | none => loop (walk.read procs)

/-- An entry is passed over, or `stat` fails, or it is visited. -/
def visitEntry (name : String) (statError : Option String)
    (passed visited : Except String CgroupWalk) : Except String CgroupWalk :=
  if startsWithDot name then passed
  else
    match statError with
    | some reason => .error reason
    | none => visited

def collectEntries : CgroupEntries → CgroupWalk → Except String CgroupWalk
  | .nil, walk => .ok walk
  | .failed _, walk => .ok walk
  | .vanished _ rest, walk => collectEntries rest walk
  | .file name statError rest, walk =>
    visitEntry name statError (collectEntries rest walk) (collectEntries rest walk)
  | .group name statError procs opendirError entries rest, walk =>
    visitEntry name statError (collectEntries rest walk) do
      let walk ← collectGroup procs opendirError (collectEntries entries) walk
      collectEntries rest walk

def collectRecursive (group : Cgroup) (walk : CgroupWalk) : Except String CgroupWalk :=
  collectGroup group.procs group.opendirError (collectEntries group.entries) walk

structure CgroupHandle where
  active : Bool := false
  cgroupPath : String := ""

/-- The groups that are there, by their paths. -/
abbrev CgroupFs := String → Option Cgroup

def collectPids (fs : CgroupFs) (path : String) : Except String CgroupWalk :=
  match fs path with
  | none => .error "No such file or directory"
  | some group => collectRecursive group {}

/-- `cgroup_v2_backend::empty` -/
def cgroupEmpty (fs : CgroupFs) (handle : CgroupHandle) : Bool :=
  if handle.active then
    match collectPids fs handle.cgroupPath with
    | .error _ => false
    | .ok walk => walk.pids.isEmpty
  else true

/-- What a handle stands for, nothing when it is not active. -/
def CgroupHandle.tree (handle : CgroupHandle) (fs : CgroupFs) : Option Cgroup :=
  if handle.active then fs handle.cgroupPath else none

/-- A tree that is reported empty was read to the end in every group, and nobody is in it. -/
def Conservative (fs : CgroupFs) (handle : CgroupHandle) : Prop :=
  cgroupEmpty fs handle = true → ∀ group, handle.tree fs = some group →
    ∃ walk, collectPids fs handle.cgroupPath = .ok walk ∧ walk.finished = group.all ∧
      ∀ procs ∈ group.all, procs.members = []

/-- The file is opened, and no pid is read from it. -/
def CgroupProcs.Quiet (procs : CgroupProcs) : Prop :=
  procs.openError = none ∧ procs.delivered = []

/-- On the way of the walk no call fails visibly and no pid is read. -/
def CgroupEntries.Quiet : CgroupEntries → Prop
  | .nil => True
  | .failed _ => True
  | .vanished _ rest => rest.Quiet
  | .file name statError rest => (startsWithDot name = false → statError = none) ∧ rest.Quiet
  | .group name statError procs opendirError entries rest =>
    (startsWithDot name = false →
      statError = none ∧ procs.Quiet ∧ opendirError = none ∧ entries.Quiet) ∧ rest.Quiet

def Cgroup.Quiet (group : Cgroup) : Prop :=
  group.procs.Quiet ∧ group.opendirError = none ∧ group.entries.Quiet

/-- No read fails, no listing fails with a group to come, and no group has a name with a dot in
front. -/
def CgroupEntries.Plain : CgroupEntries → Prop
  | .nil => True
  | .failed unlisted => unlisted.all = []
  | .vanished _ rest => rest.Plain
  | .file _ _ rest => rest.Plain
  | .group name _ procs _ entries rest =>
    startsWithDot name = false ∧ procs.readError = none ∧ entries.Plain ∧ rest.Plain

def Cgroup.Plain (group : Cgroup) : Prop :=
  group.procs.readError = none ∧ group.entries.Plain

/-- The files that a quiet walk reads to their end. -/
def CgroupProcs.finished (procs : CgroupProcs) : List CgroupProcs :=
  if procs.readError = none then [procs] else []

def CgroupEntries.finished : CgroupEntries → List CgroupProcs
  | .nil => []
  | .failed _ => []
  | .vanished _ rest => rest.finished
  | .file _ _ rest => rest.finished
  | .group name _ procs _ entries rest =>
    if startsWithDot name then rest.finished
    else procs.finished ++ (entries.finished ++ rest.finished)

theorem CgroupProcs.delivered_of_readError (procs : CgroupProcs) (h : procs.readError = none) :
    procs.delivered = procs.members := by
  rw [CgroupProcs.delivered, h]

theorem CgroupWalk.read_quiet (walk : CgroupWalk) (h : procs.delivered = []) :
    walk.read procs = { walk with finished := walk.finished ++ procs.finished } := by
  rw [CgroupWalk.read, h, CgroupProcs.finished, List.append_nil]
  split
  · rfl
  · rw [List.append_nil]

theorem collectGroup_quiet (hprocs : procs.Quiet) (loop : CgroupWalk → Except String CgroupWalk)
    (walk : CgroupWalk) : collectGroup procs none loop walk =
      loop { walk with finished := walk.finished ++ procs.finished } := by
  rw [collectGroup, hprocs.1, ← walk.read_quiet hprocs.2]

theorem visitEntry_quiet (h : startsWithDot name = false → statError = none) :
    visitEntry name statError passed visited =
      if startsWithDot name then passed else visited := by
  unfold visitEntry
  split
  · rfl
  · rename_i hname
    rw [h (Bool.eq_false_iff.2 hname)]

theorem visitEntry_ok (h : visitEntry name statError passed visited = .ok walk) :
    (startsWithDot name = true ∧ passed = .ok walk) ∨
      (startsWithDot name = false ∧ statError = none ∧ visited = .ok walk) := by
  unfold visitEntry at h
  split at h
  · rename_i hname
    exact .inl ⟨hname, h⟩
  · rename_i hname
    split at h
    · cases h
    · exact .inr ⟨Bool.eq_false_iff.2 hname, rfl, h⟩

theorem collectEntries_quiet (h : entries.Quiet) (walk : CgroupWalk) :
    collectEntries entries walk =
      .ok { walk with finished := walk.finished ++ entries.finished } := by
  induction entries generalizing walk with
  | nil => rw [collectEntries, CgroupEntries.finished, List.append_nil]
  | failed unlisted => rw [collectEntries, CgroupEntries.finished, List.append_nil]
  | vanished name rest ih =>
    rw [collectEntries, CgroupEntries.finished]
    exact ih h walk
  | file name statError rest ih =>
    rw [collectEntries, visitEntry_quiet h.1, ite_self, CgroupEntries.finished]
    exact ih h.2 walk
  | group name statError procs opendirError entries rest ihEntries ihRest =>
    rw [collectEntries, visitEntry_quiet fun hname => (h.1 hname).1, CgroupEntries.finished]
    split
    · exact ihRest h.2 walk
    · rename_i hname
      obtain ⟨-, hprocs, hopendir, hentries⟩ := h.1 (Bool.eq_false_iff.2 hname)
      rw [hopendir, collectGroup_quiet hprocs, ihEntries hentries]
      refine (ihRest h.2 _).trans ?_
      simp only [List.append_assoc]

theorem collectGroup_ok (h : collectGroup procs opendirError loop walk = .ok walk')
    (hloop : ∀ walk walk', loop walk = .ok walk' →
      ∃ pids, walk'.pids = walk.pids ++ pids ∧ (pids = [] → quiet)) :
    ∃ pids, walk'.pids = walk.pids ++ pids ∧
      (pids = [] → procs.Quiet ∧ opendirError = none ∧ quiet) := by
  unfold collectGroup at h
  split at h
  · cases h
  · rename_i hopen
    split at h
    · cases h
    · obtain ⟨pids, hpids, hquiet⟩ := hloop _ _ h
      refine ⟨procs.delivered ++ pids, ?_, ?_⟩
      · rw [hpids, CgroupWalk.read, List.append_assoc]
      · intro hnone
        obtain ⟨hdelivered, hrest⟩ := List.append_eq_nil_iff.1 hnone
        exact ⟨⟨hopen, hdelivered⟩, rfl, hquiet hrest⟩

theorem collectEntries_ok (h : collectEntries entries walk = .ok walk') :
    ∃ pids, walk'.pids = walk.pids ++ pids ∧ (pids = [] → entries.Quiet) := by
  induction entries generalizing walk walk' with
  | nil =>
    cases h
    exact ⟨[], (List.append_nil _).symm, fun _ => trivial⟩
  | failed unlisted =>
    cases h
    exact ⟨[], (List.append_nil _).symm, fun _ => trivial⟩
  | vanished name rest ih => exact ih h
  | file name statError rest ih =>
    rw [collectEntries] at h
    rcases visitEntry_ok h with ⟨hname, h⟩ | ⟨-, hstat, h⟩
    · obtain ⟨pids, hpids, hquiet⟩ := ih h
      refine ⟨pids, hpids, fun hnone => ⟨?_, hquiet hnone⟩⟩
      intro hfalse
      rw [hname] at hfalse
      cases hfalse
    · obtain ⟨pids, hpids, hquiet⟩ := ih h
      exact ⟨pids, hpids, fun hnone => ⟨fun _ => hstat, hquiet hnone⟩⟩
  | group name statError procs opendirError entries rest ihEntries ihRest =>
    rw [collectEntries] at h
    rcases visitEntry_ok h with ⟨hname, h⟩ | ⟨-, hstat, h⟩
    · obtain ⟨pids, hpids, hquiet⟩ := ihRest h
      refine ⟨pids, hpids, fun hnone => ⟨?_, hquiet hnone⟩⟩
      intro hfalse
      rw [hname] at hfalse
      cases hfalse
    · cases hbelow : collectGroup procs opendirError (collectEntries entries) walk with
      | error reason =>
        rw [hbelow] at h
        cases h
      | ok below =>
        rw [hbelow] at h
        obtain ⟨inside, hinside, hquietInside⟩ :=
          collectGroup_ok hbelow fun walk walk' hloop => ihEntries hloop
        obtain ⟨pids, hpids, hquiet⟩ := ihRest h
        refine ⟨inside ++ pids, ?_, ?_⟩
        · rw [hpids, hinside, List.append_assoc]
        · intro hnone
          obtain ⟨hnoneInside, hnoneRest⟩ := List.append_eq_nil_iff.1 hnone
          exact ⟨fun _ => ⟨hstat, hquietInside hnoneInside⟩, hquiet hnoneRest⟩

theorem CgroupProcs.finished_sublist (procs : CgroupProcs) : procs.finished.Sublist [procs] := by
  rw [CgroupProcs.finished]
  split
  · exact List.Sublist.refl _
  · exact List.nil_sublist _

theorem CgroupEntries.finished_sublist (entries : CgroupEntries) :
    entries.finished.Sublist entries.all := by
  induction entries with
  | nil => exact List.Sublist.refl _
  | failed unlisted => exact List.nil_sublist _
  | vanished name rest ih => exact ih
  | file name statError rest ih => exact ih
  | group name statError procs opendirError entries rest ihEntries ihRest =>
    rw [CgroupEntries.finished, CgroupEntries.all]
    split
    · exact (ihRest.trans (List.sublist_append_right _ _)).cons procs
    · exact procs.finished_sublist.append (ihEntries.append ihRest)

theorem append_eq_of_sublist {front front' back back' : List α} (hfront : front.Sublist front')
    (hback : back.Sublist back') (h : front ++ back = front' ++ back') :
    front = front' ∧ back = back' := by
  have hlength := congrArg List.length h
  rw [List.length_append, List.length_append] at hlength
  have hfrontLength := hfront.length_le
  have hbackLength := hback.length_le
  constructor
  · apply hfront.eq_of_length
    omega
  · apply hback.eq_of_length
    omega

theorem finished_ne_of_dot (rest : CgroupEntries) (above : CgroupProcs) (below : List CgroupProcs) :
    rest.finished ≠ above :: (below ++ rest.all) := by
  intro h
  have hlength := rest.finished_sublist.length_le
  rw [h, List.length_cons, List.length_append] at hlength
  omega

def Drained (finished all : List CgroupProcs) : Prop :=
  finished = all ∧ ∀ procs ∈ all, procs.members = []

theorem procs_drained_iff {procs : CgroupProcs} (h : procs.Quiet) :
    Drained procs.finished [procs] ↔ procs.readError = none := by
  rw [CgroupProcs.finished]
  constructor
  · intro hdrained
    by_contra hread
    have hempty := hdrained.1
    rw [if_neg hread] at hempty
    cases hempty
  · intro hread
    rw [if_pos hread]
    refine ⟨rfl, fun other hother => ?_⟩
    rw [List.mem_singleton.1 hother, ← procs.delivered_of_readError hread]
    exact h.2

theorem drained_append_iff (hfront : front.Sublist front') (hback : back.Sublist back') :
    Drained (front ++ back) (front' ++ back') ↔ Drained front front' ∧ Drained back back' := by
  constructor
  · intro h
    obtain ⟨hfronts, hbacks⟩ := append_eq_of_sublist hfront hback h.1
    exact ⟨⟨hfronts, fun procs hprocs => h.2 procs (List.mem_append_left _ hprocs)⟩,
      hbacks, fun procs hprocs => h.2 procs (List.mem_append_right _ hprocs)⟩
  · rintro ⟨⟨rfl, hfronts⟩, rfl, hbacks⟩
    refine ⟨rfl, fun procs hprocs => ?_⟩
    rcases List.mem_append.1 hprocs with hprocs | hprocs
    · exact hfronts procs hprocs
    · exact hbacks procs hprocs

theorem entries_drained_iff {entries : CgroupEntries} (h : entries.Quiet) :
    Drained entries.finished entries.all ↔ entries.Plain := by
  induction entries with
  | nil => exact ⟨fun _ => trivial, fun _ => ⟨rfl, fun _ hprocs => absurd hprocs List.not_mem_nil⟩⟩
  | failed unlisted =>
    constructor
    · exact fun hdrained => hdrained.1.symm
    · intro hnone
      refine ⟨hnone.symm, fun procs hprocs => ?_⟩
      rw [CgroupEntries.all, hnone] at hprocs
      exact absurd hprocs List.not_mem_nil
  | vanished name rest ih => exact ih h
  | file name statError rest ih => exact ih h.2
  | group name statError procs opendirError entries rest ihEntries ihRest =>
    rw [CgroupEntries.finished, CgroupEntries.Plain, CgroupEntries.all]
    by_cases hname : startsWithDot name = true
    · rw [if_pos hname, hname]
      constructor
      · exact fun hdrained => absurd hdrained.1 (finished_ne_of_dot rest procs entries.all)
      · intro hplain
        cases hplain.1
    · have hfalse := Bool.eq_false_iff.2 hname
      obtain ⟨-, hprocs, -, hentries⟩ := h.1 hfalse
      rw [if_neg hname, ← List.singleton_append,
        drained_append_iff procs.finished_sublist
          (entries.finished_sublist.append rest.finished_sublist),
        drained_append_iff entries.finished_sublist rest.finished_sublist,
        procs_drained_iff hprocs, ihEntries hentries, ihRest h.2]
      exact ⟨fun hall => ⟨hfalse, hall⟩, fun hplain => hplain.2⟩

theorem group_drained_iff {group : Cgroup} (h : group.Quiet) :
    Drained (group.procs.finished ++ group.entries.finished) group.all ↔ group.Plain := by
  rw [Cgroup.all, ← List.singleton_append,
    drained_append_iff group.procs.finished_sublist group.entries.finished_sublist,
    procs_drained_iff h.1, entries_drained_iff h.2.2]
  rfl

theorem collectRecursive_quiet {group : Cgroup} (h : group.Quiet) :
    collectRecursive group {} =
      .ok { finished := group.procs.finished ++ group.entries.finished } := by
  obtain ⟨hprocs, hopendir, hentries⟩ := h
  rw [collectRecursive, hopendir, collectGroup_quiet hprocs, collectEntries_quiet hentries]
  rfl

theorem collectPids_tree {handle : CgroupHandle} (htree : handle.tree fs = some group) :
    handle.active = true ∧ collectPids fs handle.cgroupPath = collectRecursive group {} := by
  rw [CgroupHandle.tree] at htree
  split at htree
  · rename_i hactive
    refine ⟨hactive, ?_⟩
    rw [collectPids, htree]
  · cases htree

theorem cgroupEmpty_iff (htree : handle.tree fs = some group) :
    cgroupEmpty fs handle = true ↔ group.Quiet := by
  obtain ⟨hactive, hcollect⟩ := collectPids_tree htree
  rw [cgroupEmpty, if_pos hactive, hcollect]
  constructor
  · intro hempty
    split at hempty
    · cases hempty
    · rename_i walk hwalk
      obtain ⟨pids, hpids, hquiet⟩ :=
        collectGroup_ok hwalk fun walk walk' hloop => collectEntries_ok hloop
      apply hquiet
      rw [List.isEmpty_iff.1 hempty] at hpids
      exact hpids.symm
  · intro hquiet
    rw [collectRecursive_quiet hquiet]
    rfl

/-- A tree that is reported empty was looked through exactly when a quiet walk swallows nothing. -/
theorem conservative_iff (fs : CgroupFs) (handle : CgroupHandle) :
    Conservative fs handle ↔
      ∀ group, handle.tree fs = some group → group.Quiet → group.Plain := by
  constructor
  · intro h group htree hquiet
    obtain ⟨walk, hwalk, hdrained⟩ := h ((cgroupEmpty_iff htree).2 hquiet) group htree
    rw [(collectPids_tree htree).2, collectRecursive_quiet hquiet] at hwalk
    cases hwalk
    exact (group_drained_iff hquiet).1 hdrained
  · intro h hempty group htree
    have hquiet := (cgroupEmpty_iff htree).1 hempty
    have hwalk := (collectPids_tree htree).2.trans (collectRecursive_quiet hquiet)
    exact ⟨_, hwalk, (group_drained_iff hquiet).2 (h group htree hquiet)⟩

/-- Somebody is in the group, and the first read of `cgroup.procs` fails. -/
def unreadableGroup : Cgroup := { procs := { members := [42], readError := some 0 } }

theorem not_conservative :
    ¬ ∀ (fs : CgroupFs) (handle : CgroupHandle), Conservative fs handle := by
  intro hall
  obtain ⟨walk, -, -, hmembers⟩ :=
    hall (fun _ => some unreadableGroup) { active := true, cgroupPath := "/sys/fs/cgroup/app-42" }
      rfl unreadableGroup rfl
  have hempty := hmembers _ List.mem_cons_self
  cases hempty

end PmTiny
