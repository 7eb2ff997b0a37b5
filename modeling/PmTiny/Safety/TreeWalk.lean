import Mathlib.Data.List.Count
import PmTiny.Daemon.TreeWalk

namespace PmTiny
set_option autoImplicit true

def WalkPhase.counts : WalkPhase → Bool
  | .idle | .done false => false
  | _ => true

theorem WalkPhase.counts_of_rests {phase : WalkPhase} (h : phase.rests = false) :
    phase.counts = true := by
  cases phase with
  | idle => cases h
  | done ok => cases h
  | _ => rfl

def WalkPhase.loops : WalkPhase → Bool
  | .readDir | .stat _ => true
  | _ => false

theorem WalkFrame.ahead_iff {frame : WalkFrame} {group : GroupPath} : frame.ahead group = true ↔
    ∃ name ∈ frame.due, name ∉ frame.listed ∧ name :: frame.group <:+ group := by
  rw [WalkFrame.ahead, List.any_eq_true]
  exact exists_congr fun name => and_congr Iff.rfl (decide_eq_true_iff ..)

def WalkPhase.current : WalkPhase → Option GroupPath
  | .openProcs group | .readProcs group | .openDir group | .stat group => some group
  | .idle | .readDir | .done _ => none

/-- Each frame is right below the next one, which has listed it. -/
def BelowFrames : List WalkFrame → GroupPath → Prop
  | [], group => group = []
  | frame :: rest, group =>
    (∃ name ∈ frame.listed, group = name :: frame.group) ∧ BelowFrames rest frame.group

theorem BelowFrames.entered (h : BelowFrames stack group) :
    ∀ frame ∈ stack, frame.group.length < group.length ∧ frame.ahead group = false := by
  induction stack generalizing group with
  | nil => exact fun _ hframe => (by cases hframe)
  | cons top rest ih =>
    obtain ⟨⟨name, hname, rfl⟩, hrest⟩ := h
    intro frame hframe
    rcases List.mem_cons.1 hframe with rfl | hframe
    · refine ⟨Nat.lt_succ_self _, Bool.eq_false_iff.2 fun hahead => ?_⟩
      obtain ⟨first, -, hlisted, hsuffix⟩ := WalkFrame.ahead_iff.1 hahead
      have hsame := hsuffix.eq_of_length (by rw [List.length_cons, List.length_cons])
      cases hsame
      exact hlisted hname
    · obtain ⟨hlength, hbefore⟩ := ih hrest frame hframe
      refine ⟨Nat.lt_succ_of_lt hlength, Bool.eq_false_iff.2 fun hahead => ?_⟩
      obtain ⟨first, hfirst, hlisted, hsuffix⟩ := WalkFrame.ahead_iff.1 hahead
      rcases List.suffix_cons_iff.1 hsuffix with heq | hsuffix
      · have hsame := congrArg List.length (List.cons.inj heq).2
        omega
      · have hahead' := WalkFrame.ahead_iff.2 ⟨first, hfirst, hlisted, hsuffix⟩
        rw [hbefore] at hahead'
        cases hahead'

theorem BelowFrames.forget (removed : GroupPath) (h : BelowFrames stack group) :
    BelowFrames (stack.map (WalkFrame.forget removed)) group := by
  induction stack generalizing group with
  | nil => exact h
  | cons top rest ih => exact ⟨h.1, ih h.2⟩

namespace TreeWalk
variable {s s' : TreeWalk} {group : GroupPath}

theorem mem_members : pid ∈ s.members group ↔ (pid, group) ∈ s.procs := by
  rw [members, List.mem_map]
  constructor
  · rintro ⟨⟨pid', group'⟩, hmem, rfl⟩
    obtain ⟨hproc, hgroup⟩ := List.mem_filter.1 hmem
    rwa [← of_decide_eq_true hgroup]
  · intro hproc
    exact ⟨(pid, group), List.mem_filter.2 ⟨hproc, decide_eq_true rfl⟩, rfl⟩

theorem ne_of_members (h : s.members group = []) (hproc : proc ∈ s.procs) : proc.2 ≠ group := by
  rintro rfl
  have hmem : proc.1 ∈ s.members proc.2 := mem_members.2 hproc
  rw [h] at hmem
  cases hmem

theorem mem_children : name ∈ s.children group ↔ name :: group ∈ s.groups := by
  rw [children, List.mem_filterMap]
  constructor
  · rintro ⟨other, hother, hname⟩
    cases other with
    | nil => cases hname
    | cons first parent =>
      rw [childName] at hname
      split at hname
      · rename_i hparent
        cases hname
        rwa [← hparent]
      · cases hname
  · intro hgroup
    exact ⟨name :: group, hgroup, if_pos rfl⟩

theorem mem_of_groupOf (h : s.groupOf pid = some group) : (pid, group) ∈ s.procs := by
  rw [groupOf, Option.map_eq_some_iff] at h
  obtain ⟨⟨pid', group'⟩, hfind, rfl⟩ := h
  have hpid := List.find?_some hfind
  rw [← of_decide_eq_true hpid]
  exact List.mem_of_find?_eq_some hfind

theorem Quiet.child (h : s.Quiet) (hgroup : group ∈ s.groups) (hbelow : top <:+ group)
    (hne : top ≠ group) : ∃ name ∈ s.children top, name :: top <:+ group := by
  induction group with
  | nil => exact absurd (List.suffix_nil.1 hbelow) hne
  | cons name parent ih =>
    rcases List.suffix_cons_iff.1 hbelow with heq | hparent
    · exact absurd heq hne
    · by_cases hsame : top = parent
      · exact ⟨name, mem_children.2 (hsame ▸ hgroup), hsame ▸ List.suffix_refl _⟩
      · obtain ⟨first, hfirst, hsuffix⟩ := ih (h.closed name parent hgroup) hparent hsame
        exact ⟨first, hfirst, hsuffix.trans (List.suffix_cons name parent)⟩

theorem Quiet.above (h : s.Quiet) (hgroup : group ∈ s.groups) (hbelow : top <:+ group) :
    top ∈ s.groups := by
  by_cases hsame : top = group
  · exact hsame ▸ hgroup
  · obtain ⟨name, hname, -⟩ := h.child hgroup hbelow hsame
    exact h.closed name top (mem_children.1 hname)

theorem ahead_iff : s.ahead group = true ↔
    s.phase.ahead group = true ∨ ∃ frame ∈ s.stack, frame.ahead group = true := by
  rw [ahead, Bool.or_eq_true, List.any_eq_true]

structure Shaped (s : TreeWalk) : Prop extends s.Quiet where
  due : ∀ frame ∈ s.stack, ∀ name ∈ frame.due, name :: frame.group ∈ s.groups
  rested : s.phase.rests = true → s.stack = []
  looping : s.phase.loops = true → s.stack ≠ []
  current : ∀ group, s.phase.current = some group → BelowFrames s.stack group
  top : ∀ frame rest, s.phase = .readDir → s.stack = frame :: rest → BelowFrames rest frame.group

theorem Fresh.shaped (h : s.Fresh) : s.Shaped where
  toQuiet := h.toQuiet
  due := by
    rw [h.unlisted]
    exact fun _ hframe => (by cases hframe)
  rested := fun _ => h.unlisted
  looping := by
    rw [h.idle]
    exact fun hloops => (by cases hloops)
  current := by
    rw [h.idle]
    exact fun _ hcurrent => (by cases hcurrent)
  top := by
    rw [h.unlisted]
    exact fun _ _ _ hstack => (by cases hstack)

theorem fork_shaped (h : s.Shaped) (hs : s.treeStep (.fork parent child) = some s') :
    s'.Shaped := by
  rw [treeStep] at hs
  split at hs
  · rename_i group hgroup
    split at hs <;> cases hs
    refine { h with housed := fun proc hproc => ?_ }
    rcases List.mem_cons.1 hproc with rfl | hproc
    · exact h.housed (parent, group) (mem_of_groupOf hgroup)
    · exact h.housed proc hproc
  · cases hs

theorem mkdir_shaped (h : s.Shaped) (hcalm : s.calm (.mkdir group) = true)
    (hs : s.treeStep (.mkdir group) = some s') : s'.Shaped := by
  cases group with
  | nil => cases hs
  | cons name parent =>
    rw [treeStep] at hs
    split at hs
    · rename_i hnew
      cases hs
      rw [calm, Bool.not_eq_true'] at hcalm
      refine { h with
        closed := fun first above hmem => ?_
        plain := fun first above hmem => ?_
        housed := fun proc hproc => List.mem_cons_of_mem _ (h.housed proc hproc)
        due := fun frame hframe first hfirst =>
          List.mem_cons_of_mem _ (h.due frame hframe first hfirst) }
      · rcases List.mem_cons.1 hmem with heq | hmem
        · cases heq
          exact List.mem_cons_of_mem _ hnew.1
        · exact List.mem_cons_of_mem _ (h.closed first above hmem)
      · rcases List.mem_cons.1 hmem with heq | hmem
        · cases heq
          exact hcalm
        · exact h.plain first above hmem
    · cases hs

theorem rmdir_shaped (h : s.Shaped) (hs : s.treeStep (.rmdir group) = some s') : s'.Shaped := by
  rw [treeStep] at hs
  split at hs
  · rename_i hgone
    obtain ⟨-, hmembers, hchildren⟩ := hgone
    cases hs
    have hkeep : ∀ other ∈ s.groups, other ≠ group →
        other ∈ s.groups.filter fun other => other ≠ group := fun other hother hne =>
      List.mem_filter.2 ⟨hother, decide_eq_true hne⟩
    exact {
      closed := fun name parent hmem => by
        have hname := List.mem_of_mem_filter hmem
        refine hkeep parent (h.closed name parent hname) ?_
        rintro rfl
        rw [← mem_children, hchildren] at hname
        cases hname
      plain := fun name parent hmem => h.plain name parent (List.mem_of_mem_filter hmem)
      housed := fun proc hproc => hkeep proc.2 (h.housed proc hproc) (ne_of_members hmembers hproc)
      due := fun frame hframe name hname => by
        obtain ⟨before, hbefore, rfl⟩ := List.mem_map.1 hframe
        obtain ⟨hname, hne⟩ := List.mem_filter.1 hname
        exact hkeep _ (h.due before hbefore name hname) (of_decide_eq_true hne)
      rested := fun hrests => by
        rw [h.rested hrests]
        rfl
      looping := fun hloops hnil => h.looping hloops (List.map_eq_nil_iff.1 hnil)
      current := fun other hother => (h.current other hother).forget group
      top := fun frame rest hphase hmap => by
        obtain ⟨before, above, hstack, rfl, rfl⟩ := List.map_eq_cons_iff.1 hmap
        exact (h.top before above hphase hstack).forget group }
  · cases hs

theorem move_shaped (h : s.Shaped) (hs : s.treeStep (.move pid group) = some s') : s'.Shaped := by
  rw [treeStep] at hs
  split at hs
  · rename_i hgroup
    cases hs
    refine { h with housed := fun proc hproc => ?_ }
    rcases List.mem_cons.1 hproc with rfl | hproc
    · exact hgroup
    · exact h.housed proc (List.mem_of_mem_filter hproc)
  · cases hs

theorem treeStep_shaped (h : s.Shaped) (hcalm : s.calm e = true) (hs : s.treeStep e = some s') :
    s'.Shaped := by
  cases e with
  | fork parent child => exact fork_shaped h hs
  | exit pid =>
    cases hs
    exact { h with housed := fun proc hproc => h.housed proc (List.mem_of_mem_filter hproc) }
  | mkdir group => exact mkdir_shaped h hcalm hs
  | rmdir group => exact rmdir_shaped h hs
  | move pid group => exact move_shaped h hs
  | empty => cases hs
  | openProcs ok => cases hs
  | readProcs count => cases hs
  | openDir ok => cases hs
  | readDir entry => cases hs
  | stat ok => cases hs

theorem call_cases (hs : s.call s' group ok = some t) :
    (group ∈ s.groups ∧ t = s') ∨ t = s.fail := by
  rw [call] at hs
  split at hs
  · split at hs
    · rename_i hgroup
      exact .inl ⟨hgroup, (Option.some.inj hs).symm⟩
    · cases hs
  · exact .inr (Option.some.inj hs).symm

theorem fail_shaped (h : s.Shaped) : s.fail.Shaped :=
  { h with
    due := fun _ hframe => (by cases hframe)
    rested := fun _ => rfl
    looping := fun hloops => (by cases hloops)
    current := fun _ hcurrent => (by cases hcurrent)
    top := fun _ _ hphase => (by cases hphase) }

theorem Shaped.stays {phase : WalkPhase} (h : s.Shaped) (hcurrent : s.phase.current = some group)
    (hrests : phase.rests = false) (hloops : phase.loops = false)
    (hcurrent' : phase.current = some group) (pids : List Nat) :
    Shaped { s with phase := phase, pids := pids } :=
  { h with
    rested := fun htrue => by
      rw [hrests] at htrue
      cases htrue
    looping := fun htrue => by
      rw [hloops] at htrue
      cases htrue
    current := fun other hother => by
      rw [hcurrent'] at hother
      cases hother
      exact h.current group hcurrent
    top := fun _ _ hphase => by
      dsimp only at hphase
      rw [hphase] at hcurrent'
      cases hcurrent' }

theorem start_shaped (h : s.Quiet) :
    Shaped { s with phase := .openProcs [], stack := [], pids := [] } :=
  { h with
    due := fun _ hframe => (by cases hframe)
    rested := fun _ => rfl
    looping := fun hloops => (by cases hloops)
    current := fun _ hcurrent => (by cases hcurrent; rfl)
    top := fun _ _ hphase => (by cases hphase) }

theorem readEntry_shaped (h : s.Shaped) (hphase : s.phase = .readDir)
    (hstack : s.stack = frame :: rest) (hs : s.readEntry frame rest entry = some s') :
    s'.Shaped := by
  have hbelow := h.top frame rest hphase hstack
  have hdue : ∀ other ∈ frame :: rest, ∀ name ∈ other.due, name :: other.group ∈ s.groups :=
    hstack ▸ h.due
  cases entry with
  | none =>
    cases hs
    refine { h with
      due := fun other hother => hdue other (List.mem_cons_of_mem _ hother)
      rested := fun hrests => ?_
      looping := fun hloops hnil => ?_
      current := fun _ hcurrent => ?_
      top := fun other others _ hothers => ?_ }
    · dsimp only at hrests ⊢
      split at hrests
      · rename_i hrest
        exact List.isEmpty_iff.1 hrest
      · cases hrests
    · dsimp only at hloops hnil
      rw [hnil] at hloops
      cases hloops
    · dsimp only at hcurrent
      split at hcurrent <;> cases hcurrent
    · dsimp only at hothers
      rw [hothers] at hbelow
      exact hbelow.2
  | some name =>
    rw [readEntry] at hs
    split at hs <;> cases hs
    refine { h with
      due := fun other hother => ?_
      rested := fun hrests => ?_
      looping := fun _ => List.cons_ne_nil _ _
      current := fun group hcurrent => ?_
      top := fun other others _ hothers => ?_ }
    · rcases List.mem_cons.1 hother with rfl | hother
      · exact hdue frame List.mem_cons_self
      · exact hdue other (List.mem_cons_of_mem _ hother)
    · dsimp only at hrests
      split at hrests <;> cases hrests
    · dsimp only at hcurrent
      split at hcurrent <;> cases hcurrent
      exact ⟨⟨name, List.mem_cons_self, rfl⟩, hbelow⟩
    · cases hothers
      exact hbelow

theorem openDir_shaped (h : s.Shaped) (hphase : s.phase = .openDir group) : Shaped { s with
    phase := .readDir
    stack := { group := group, due := s.children group } :: s.stack } :=
  { h with
    due := fun frame hframe name hname => by
      rcases List.mem_cons.1 hframe with rfl | hframe
      · exact mem_children.1 hname
      · exact h.due frame hframe name hname
    rested := fun hrests => (by cases hrests)
    looping := fun _ => List.cons_ne_nil _ _
    current := fun _ hcurrent => (by cases hcurrent)
    top := fun frame rest _ hstack => by
      cases hstack
      exact h.current group (by rw [hphase]; rfl) }

theorem stat_shaped (h : s.Shaped) (hphase : s.phase = .stat group) : Shaped { s with
    phase := if group ∈ s.groups then .openProcs group else .readDir } := by
  have hbelow := h.current group (by rw [hphase]; rfl)
  refine { h with
    rested := fun hrests => ?_
    looping := fun _ => h.looping (by rw [hphase]; rfl)
    current := fun other hcurrent => ?_
    top := fun frame rest _ hstack => ?_ }
  · dsimp only at hrests
    split at hrests <;> cases hrests
  · dsimp only at hcurrent
    split at hcurrent <;> cases hcurrent
    exact hbelow
  · dsimp only at hstack
    rw [hstack] at hbelow
    exact hbelow.2

theorem walkStep_shaped (h : s.Shaped) (hs : s.walkStep e = some s') : s'.Shaped := by
  cases e with
  | fork parent child => cases hs
  | exit pid => cases hs
  | mkdir group => cases hs
  | rmdir group => cases hs
  | move pid group => cases hs
  | empty =>
    rw [walkStep] at hs
    split at hs <;> cases hs <;> exact start_shaped h.toQuiet
  | openProcs ok =>
    rw [walkStep] at hs
    split at hs
    · rename_i group hphase
      rcases call_cases hs with ⟨-, rfl⟩ | rfl
      · exact h.stays (by rw [hphase]; rfl) rfl rfl rfl s.pids
      · exact fail_shaped h
    · cases hs
  | readProcs count =>
    rw [walkStep] at hs
    split at hs
    · rename_i group hphase
      cases hs
      exact h.stays (by rw [hphase]; rfl) rfl rfl rfl _
    · cases hs
  | openDir ok =>
    rw [walkStep] at hs
    split at hs
    · rename_i group hphase
      rcases call_cases hs with ⟨-, rfl⟩ | rfl
      · exact openDir_shaped h hphase
      · exact fail_shaped h
    · cases hs
  | readDir entry =>
    rw [walkStep] at hs
    split at hs
    · rename_i frame rest hphase hstack
      exact readEntry_shaped h hphase hstack hs
    · cases hs
  | stat ok =>
    rw [walkStep] at hs
    split at hs
    · rename_i group hphase
      split at hs <;> cases hs
      · exact stat_shaped h hphase
      · exact fail_shaped h
    · cases hs

theorem calmStep_cases (hs : s.calmStep e = some s') : s.calm e = true ∧ s.step e = some s' := by
  rw [calmStep] at hs
  split at hs
  · rename_i hcalm
    exact ⟨hcalm, hs⟩
  · cases hs

theorem calmStep_shaped (h : s.Shaped) (hs : s.calmStep e = some s') : s'.Shaped := by
  obtain ⟨hcalm, hs⟩ := calmStep_cases hs
  rw [step] at hs
  split at hs
  · exact walkStep_shaped h hs
  · exact treeStep_shaped h hcalm hs

/-- While nothing has been read and nothing has failed, everybody is in a group that is yet to be
read. -/
def Seen (s : TreeWalk) : Prop :=
  s.phase.counts = true → s.pids = [] → ∀ proc ∈ s.procs, s.ahead proc.2 = true

theorem ahead_congr (hphase : s'.phase = s.phase) (hstack : s'.stack = s.stack) :
    s'.ahead group = s.ahead group := by
  rw [ahead, ahead, hphase, hstack]

theorem forget_ahead {frame : WalkFrame} {removed : GroupPath} (hahead : frame.ahead group = true)
    (hbelow : ¬removed <:+ group) : (frame.forget removed).ahead group = true := by
  obtain ⟨name, hname, hlisted, hsuffix⟩ := WalkFrame.ahead_iff.1 hahead
  have hkept : name :: frame.group ≠ removed := by
    rintro rfl
    exact hbelow hsuffix
  exact WalkFrame.ahead_iff.2
    ⟨name, List.mem_filter.2 ⟨hname, decide_eq_true hkept⟩, hlisted, hsuffix⟩

theorem rmdir_seen (h : s.Shaped) (hseen : s.Seen) (hs : s.treeStep (.rmdir group) = some s') :
    s'.Seen := by
  rw [treeStep] at hs
  split at hs
  · rename_i hgone
    obtain ⟨-, hmembers, hchildren⟩ := hgone
    cases hs
    intro hcounts hpids proc hproc
    rw [ahead_iff]
    refine (ahead_iff.1 (hseen hcounts hpids proc hproc)).imp id ?_
    rintro ⟨frame, hframe, hahead⟩
    refine ⟨frame.forget group, List.mem_map_of_mem hframe, forget_ahead hahead fun hbelow => ?_⟩
    obtain ⟨name, hname, -⟩ :=
      h.child (h.housed proc hproc) hbelow (ne_of_members hmembers hproc).symm
    rw [hchildren] at hname
    cases hname
  · cases hs

theorem move_seen (h : s.Shaped) (hseen : s.Seen) (hcalm : s.calm (.move pid group) = true)
    (hs : s.treeStep (.move pid group) = some s') : s'.Seen := by
  rw [treeStep] at hs
  split at hs
  · cases hs
    rw [calm, Bool.and_eq_true, List.any_eq_true, Bool.or_eq_true] at hcalm
    obtain ⟨⟨mover, hmover, -⟩, hcalm⟩ := hcalm
    intro hcounts hpids proc hproc
    rw [ahead_congr rfl rfl]
    rcases List.mem_cons.1 hproc with rfl | hproc
    · rcases hcalm with hrests | hahead
      · -- a walk that is over and has met nobody has left nobody to be moved
        have hmet := hseen hcounts hpids mover hmover
        rw [ahead_iff, h.rested hrests] at hmet
        rcases hmet with hphase | ⟨frame, hframe, -⟩
        · cases hp : s.phase <;> rw [hp] at hrests hphase <;> cases hrests <;> cases hphase
        · cases hframe
      · exact hahead
    · exact hseen hcounts hpids proc (List.mem_of_mem_filter hproc)
  · cases hs

theorem treeStep_seen (h : s.Shaped) (hseen : s.Seen) (hcalm : s.calm e = true)
    (hs : s.treeStep e = some s') : s'.Seen := by
  cases e with
  | fork parent child =>
    rw [treeStep] at hs
    split at hs
    · rename_i group hgroup
      split at hs <;> cases hs
      intro hcounts hpids proc hproc
      rw [ahead_congr rfl rfl]
      rcases List.mem_cons.1 hproc with rfl | hproc
      · exact hseen hcounts hpids (parent, group) (mem_of_groupOf hgroup)
      · exact hseen hcounts hpids proc hproc
    · cases hs
  | exit pid =>
    cases hs
    exact fun hcounts hpids proc hproc =>
      hseen hcounts hpids proc (List.mem_of_mem_filter hproc)
  | mkdir group =>
    cases group with
    | nil => cases hs
    | cons name parent =>
      rw [treeStep] at hs
      split at hs <;> cases hs
      exact hseen
  | rmdir group => exact rmdir_seen h hseen hs
  | move pid group => exact move_seen h hseen hcalm hs
  | empty => cases hs
  | openProcs ok => cases hs
  | readProcs count => cases hs
  | openDir ok => cases hs
  | readDir entry => cases hs
  | stat ok => cases hs

theorem fail_seen (s : TreeWalk) : s.fail.Seen := fun hcounts => by cases hcounts

theorem empty_seen (hs : s.walkStep .empty = some s') : s'.Seen := by
  have hall : Seen { s with phase := .openProcs [], stack := [], pids := [] } := by
    intro _ _ proc _
    rw [ahead_iff, WalkPhase.ahead]
    exact .inl (decide_eq_true List.nil_suffix)
  rw [walkStep] at hs
  split at hs <;> cases hs <;> exact hall

theorem openProcs_seen (hseen : s.Seen) (hs : s.walkStep (.openProcs ok) = some s') :
    s'.Seen := by
  rw [walkStep] at hs
  split at hs
  · rename_i group hphase
    rcases call_cases hs with ⟨-, rfl⟩ | rfl
    · intro _ hpids proc hproc
      have hahead := hseen (by rw [hphase]; rfl) hpids proc hproc
      rw [ahead_iff, hphase] at hahead
      exact ahead_iff.2 hahead
    · exact fail_seen s
  · cases hs

theorem readProcs_seen (hseen : s.Seen) (hcalm : s.calm (.readProcs count) = true)
    (hs : s.walkStep (.readProcs count) = some s') : s'.Seen := by
  rw [walkStep] at hs
  split at hs
  · rename_i group hphase
    cases hs
    rw [calm, hphase] at hcalm
    intro _ hpids proc hproc
    obtain ⟨hbefore, hread⟩ := List.append_eq_nil_iff.1 hpids
    rw [List.take_of_length_le (of_decide_eq_true hcalm)] at hread
    have hahead := hseen (by rw [hphase]; rfl) hbefore proc hproc
    rw [ahead_iff, hphase] at hahead
    refine ahead_iff.2 (hahead.imp (fun hbelow => ?_) id)
    exact decide_eq_true ⟨of_decide_eq_true hbelow, (ne_of_members hread hproc).symm⟩
  · cases hs

theorem openDir_seen (h : s.Shaped) (hseen : s.Seen) (hs : s.walkStep (.openDir ok) = some s') :
    s'.Seen := by
  rw [walkStep] at hs
  split at hs
  · rename_i group hphase
    rcases call_cases hs with ⟨-, rfl⟩ | rfl
    · intro _ hpids proc hproc
      have hahead := hseen (by rw [hphase]; rfl) hpids proc hproc
      rw [ahead_iff, hphase] at hahead
      refine ahead_iff.2 (.inr ?_)
      rcases hahead with hbelow | ⟨frame, hframe, hahead⟩
      · -- everybody below the group is in one of the groups to be listed
        obtain ⟨hsuffix, hne⟩ := of_decide_eq_true hbelow
        obtain ⟨name, hname, hchild⟩ := h.child (h.housed proc hproc) hsuffix hne
        exact ⟨_, List.mem_cons_self,
          WalkFrame.ahead_iff.2 ⟨name, hname, List.not_mem_nil, hchild⟩⟩
      · exact ⟨frame, List.mem_cons_of_mem _ hframe, hahead⟩
    · exact fail_seen s
  · cases hs

theorem readEntry_seen (h : s.Shaped) (hseen : s.Seen) (hphase : s.phase = .readDir)
    (hstack : s.stack = frame :: rest) (hs : s.readEntry frame rest (some name) = some s') :
    s'.Seen := by
  rw [readEntry] at hs
  split at hs
  · cases hs
  · cases hs
    intro _ hpids proc hproc
    have hahead := hseen (by rw [hphase]; rfl) hpids proc hproc
    rw [ahead_iff, hphase, hstack] at hahead
    rcases hahead with hbelow | ⟨other, hother, hahead⟩
    · cases hbelow
    · rcases List.mem_cons.1 hother with rfl | hother
      · obtain ⟨first, hfirst, hlisted, hsuffix⟩ := WalkFrame.ahead_iff.1 hahead
        by_cases hsame : first = name
        · subst hsame
          have hgroup := h.due other (hstack ▸ List.mem_cons_self) first hfirst
          refine ahead_iff.2 (.inl ?_)
          dsimp only
          rw [h.plain first other.group hgroup]
          exact decide_eq_true hsuffix
        · refine ahead_iff.2 (.inr ⟨_, List.mem_cons_self, WalkFrame.ahead_iff.2
            ⟨first, hfirst, fun hmem => ?_, hsuffix⟩⟩)
          exact (List.mem_cons.1 hmem).elim hsame hlisted
      · exact ahead_iff.2 (.inr ⟨other, List.mem_cons_of_mem _ hother, hahead⟩)

theorem endOfDir_seen (hseen : s.Seen) (hphase : s.phase = .readDir)
    (hstack : s.stack = frame :: rest) (hcalm : s.calm (.readDir none) = true)
    (hs : s.readEntry frame rest none = some s') : s'.Seen := by
  cases hs
  rw [calm, hstack, List.all_eq_true] at hcalm
  intro _ hpids proc hproc
  have hahead := hseen (by rw [hphase]; rfl) hpids proc hproc
  rw [ahead_iff, hphase, hstack] at hahead
  rcases hahead with hbelow | ⟨other, hother, hahead⟩
  · cases hbelow
  · rcases List.mem_cons.1 hother with rfl | hother
    · obtain ⟨first, hfirst, hlisted, -⟩ := WalkFrame.ahead_iff.1 hahead
      exact absurd (of_decide_eq_true (hcalm first hfirst)) hlisted
    · exact ahead_iff.2 (.inr ⟨other, hother, hahead⟩)

theorem stat_seen (h : s.Shaped) (hseen : s.Seen) (hs : s.walkStep (.stat ok) = some s') :
    s'.Seen := by
  rw [walkStep] at hs
  split at hs
  · rename_i group hphase
    split at hs
    · cases hs
      intro _ hpids proc hproc
      have hahead := hseen (by rw [hphase]; rfl) hpids proc hproc
      rw [ahead_iff, hphase] at hahead
      refine ahead_iff.2 (hahead.imp (fun hbelow => ?_) id)
      -- a group that has gone had nobody below it
      dsimp only
      rw [if_pos (h.above (h.housed proc hproc) (of_decide_eq_true hbelow))]
      exact hbelow
    · cases hs
      exact fail_seen s
  · cases hs

theorem walkStep_seen (h : s.Shaped) (hseen : s.Seen) (hcalm : s.calm e = true)
    (hs : s.walkStep e = some s') : s'.Seen := by
  cases e with
  | fork parent child => cases hs
  | exit pid => cases hs
  | mkdir group => cases hs
  | rmdir group => cases hs
  | move pid group => cases hs
  | empty => exact empty_seen hs
  | openProcs ok => exact openProcs_seen hseen hs
  | readProcs count => exact readProcs_seen hseen hcalm hs
  | openDir ok => exact openDir_seen h hseen hs
  | readDir entry =>
    rw [walkStep] at hs
    split at hs
    · rename_i frame rest hphase hstack
      cases entry with
      | none => exact endOfDir_seen hseen hphase hstack hcalm hs
      | some name => exact readEntry_seen h hseen hphase hstack hs
    · cases hs
  | stat ok => exact stat_seen h hseen hs

structure Inv (s : TreeWalk) : Prop extends s.Shaped where
  seen : s.Seen

theorem Fresh.inv (h : s.Fresh) : s.Inv where
  toShaped := h.shaped
  seen := by
    rw [Seen, h.idle]
    exact fun hcounts => (by cases hcounts)

theorem calmStep_inv (h : s.Inv) (hs : s.calmStep e = some s') : s'.Inv := by
  refine { calmStep_shaped h.toShaped hs with seen := ?_ }
  obtain ⟨hcalm, hs⟩ := calmStep_cases hs
  rw [step] at hs
  split at hs
  · exact walkStep_seen h.toShaped h.seen hcalm hs
  · exact treeStep_seen h.toShaped h.seen hcalm hs

theorem run_inv {events : List TreeEvent} {s₀ : TreeWalk} (hfresh : s₀.Fresh)
    (h : Transitions.Run calmStep s₀ events s) : s.Inv :=
  h.invariant Inv (fun _ _ _ hi hs => calmStep_inv hi hs) hfresh.inv

theorem Inv.empty (h : s.Inv) (hanswer : s.answer = some true) : s.procs = [] := by
  rw [answer] at hanswer
  split at hanswer
  · rename_i ok hphase
    obtain ⟨hok, hpids⟩ := Bool.and_eq_true_iff.1 (Option.some.inj hanswer)
    have hstack := h.rested (by rw [hphase]; rfl)
    rw [List.eq_nil_iff_forall_not_mem]
    intro proc hproc
    have hahead := h.seen (by rw [hphase, hok]; rfl) (List.isEmpty_iff.1 hpids) proc hproc
    rw [ahead_iff, hphase, hstack] at hahead
    rcases hahead with hphase | ⟨frame, hframe, -⟩
    · cases hphase
    · cases hframe
  · cases hanswer

theorem call_tree (hs : s.call s' group ok = some t) (hgroups : s'.groups = s.groups)
    (hprocs : s'.procs = s.procs) : t.groups = s.groups ∧ t.procs = s.procs := by
  rcases call_cases hs with ⟨-, rfl⟩ | rfl
  · exact ⟨hgroups, hprocs⟩
  · exact ⟨rfl, rfl⟩

theorem walkStep_tree (hs : s.walkStep e = some s') :
    s'.groups = s.groups ∧ s'.procs = s.procs := by
  cases e with
  | fork parent child => cases hs
  | exit pid => cases hs
  | mkdir group => cases hs
  | rmdir group => cases hs
  | move pid group => cases hs
  | empty =>
    rw [walkStep] at hs
    split at hs <;> cases hs <;> exact ⟨rfl, rfl⟩
  | openProcs ok =>
    rw [walkStep] at hs
    split at hs
    · exact call_tree hs rfl rfl
    · cases hs
  | readProcs count =>
    rw [walkStep] at hs
    split at hs <;> cases hs
    exact ⟨rfl, rfl⟩
  | openDir ok =>
    rw [walkStep] at hs
    split at hs
    · exact call_tree hs rfl rfl
    · cases hs
  | readDir entry =>
    rw [walkStep] at hs
    split at hs
    · cases entry with
      | none =>
        cases hs
        exact ⟨rfl, rfl⟩
      | some name =>
        rw [readEntry] at hs
        split at hs <;> cases hs
        exact ⟨rfl, rfl⟩
    · cases hs
  | stat ok =>
    rw [walkStep] at hs
    split at hs
    · split at hs <;> cases hs <;> exact ⟨rfl, rfl⟩
    · cases hs

theorem calmStep_procs (hprocs : s.procs = []) (hs : s.calmStep e = some s') : s'.procs = [] := by
  obtain ⟨hcalm, hs⟩ := calmStep_cases hs
  cases hown : e.own with
  | true =>
    rw [step, hown, if_pos rfl] at hs
    rw [(walkStep_tree hs).2, hprocs]
  | false =>
    rw [step, hown, if_neg Bool.false_ne_true] at hs
    cases e with
    | fork parent child =>
      rw [treeStep, groupOf, hprocs] at hs
      cases hs
    | exit pid =>
      cases hs
      dsimp only
      rw [hprocs, List.filter_nil]
    | mkdir group =>
      cases group with
      | nil => cases hs
      | cons name parent =>
        rw [treeStep] at hs
        split at hs <;> cases hs
        exact hprocs
    | rmdir group =>
      rw [treeStep] at hs
      split at hs <;> cases hs
      exact hprocs
    | move pid group =>
      rw [calm, hprocs] at hcalm
      cases hcalm
    | empty => cases hown
    | openProcs ok => cases hown
    | readProcs count => cases hown
    | openDir ok => cases hown
    | readDir entry => cases hown
    | stat ok => cases hown

theorem run_observe (h : Transitions.Run calmStep s events s') :
    s'.tree = s.tree.observe s'.tree.members := by
  rw [ProcessTreeHandle.observe]
  split
  · rename_i hmembers
    have hprocs := List.map_eq_nil_iff.1 hmembers
    have hprocs' := h.invariant (fun t => t.procs = []) (fun _ _ _ ht => calmStep_procs ht) hprocs
    rw [tree, tree, hprocs, hprocs']
  · rfl

/-- In every interleaving of the calls of the walk with the processes of the tree in which nobody
moves to a group that the walk is through with and no read or listing ends early: a tree that is
reported empty is empty, and what the handle stands for goes on as the daemon's model has it, so
that the tree stays empty. -/
theorem empty_observed {events : List TreeEvent} {s₀ : TreeWalk} (hfresh : s₀.Fresh)
    (h : Transitions.Run calmStep s₀ events s) :
    (s.answer = some true → s.procs = []) ∧
      ∀ more s', Transitions.Run calmStep s more s' →
        s'.tree = s.tree.observe s'.tree.members ∧
          (s.answer = some true → s'.tree.isEmpty = true) := by
  have hinv := run_inv hfresh h
  refine ⟨hinv.empty, fun more s' hmore => ⟨run_observe hmore, fun hanswer => ?_⟩⟩
  rw [run_observe hmore]
  refine ProcessTreeHandle.observe_empty _ ?_
  rw [tree, hinv.empty hanswer]
  rfl

/-- The group of a program that has a group of its own in it. -/
def nested : TreeWalk where
  groups := [["worker"], []]
  procs := [(7, []), (8, ["worker"])]

theorem nested_fresh : nested.Fresh where
  closed := fun name parent hmem => by
    rcases List.mem_cons.1 hmem with heq | hmem
    · cases heq
      exact List.mem_cons_of_mem _ List.mem_cons_self
    · cases List.mem_singleton.1 hmem
  plain := fun name parent hmem => by
    rcases List.mem_cons.1 hmem with heq | hmem
    · cases heq
      decide +kernel
    · cases List.mem_singleton.1 hmem
  housed := by decide +kernel
  idle := rfl
  unlisted := rfl

/-- Both processes end while the walk is on its way to them. -/
def lastExits : List TreeEvent :=
  [.empty, .openProcs true, .exit 7, .readProcs 0, .openDir true, .readDir (some "cgroup.procs"),
    .stat true, .exit 8, .readDir (some "worker"), .stat true, .openProcs true, .readProcs 0,
    .openDir true, .readDir none, .readDir none]

theorem empty_observed_exits : ∃ s, Transitions.Run calmStep nested lastExits s ∧
    s.answer = some true ∧
    ((s.answer = some true → s.procs = []) ∧
      ∀ more s', Transitions.Run calmStep s more s' →
        s'.tree = s.tree.observe s'.tree.members ∧
          (s.answer = some true → s'.tree.isEmpty = true)) :=
  have hrun : Transitions.Run calmStep nested lastExits _ := .of_after rfl
  ⟨_, hrun, rfl, empty_observed nested_fresh hrun⟩

end TreeWalk

def WalkPhase.rank : WalkPhase → Nat
  | .openDir _ => 5
  | .readDir => 3
  | .stat _ => 2
  | .openProcs _ => 1
  | .idle | .readProcs _ | .done _ => 0

namespace TreeWalk
variable {s s' : TreeWalk} {group : GroupPath}

/-- Nothing has been read, and nobody is where the walk has yet to come. -/
structure Unmet (s : TreeWalk) : Prop extends s.Shaped where
  counts : s.phase.counts = true
  pids : s.pids = []
  there : ∀ group, s.phase.current = some group → group ∈ s.groups
  nobody : ∀ proc ∈ s.procs, s.ahead proc.2 = false

def groupsAhead (s : TreeWalk) : Nat := s.groups.countP fun group => s.ahead group

def toRead (s : TreeWalk) : Nat := 6 * s.groupsAhead + s.stack.length + s.phase.rank

theorem Unmet.walked (h : s.Unmet) (hcalm : s.calm e = true) (hown : e.own = true)
    (hs : s.walkStep e = some s') (hcounts : s'.phase.counts = true) (hpids : s'.pids = [])
    (hthere : ∀ group, s'.phase.current = some group → group ∈ s.groups)
    (hahead : ∀ group, s'.ahead group = true → s.ahead group = true) :
    s.calmStep e = some s' ∧ s'.Unmet ∧ s'.groupsAhead ≤ s.groupsAhead := by
  obtain ⟨hgroups, hprocs⟩ := walkStep_tree hs
  have hstep : s.calmStep e = some s' := by
    rw [calmStep, if_pos hcalm, step, if_pos hown]
    exact hs
  refine ⟨hstep, ?_, ?_⟩
  · exact { walkStep_shaped h.toShaped hs with
      counts := hcounts
      pids := hpids
      there := hgroups ▸ hthere
      nobody := fun proc hproc => by
        refine Bool.eq_false_iff.2 fun htrue => ?_
        have hbefore := hahead proc.2 htrue
        rw [h.nobody proc (hprocs ▸ hproc)] at hbefore
        cases hbefore }
  · rw [groupsAhead, groupsAhead, hgroups]
    exact List.countP_mono_left fun group _ => hahead group

theorem Unmet.members (h : s.Unmet) (hahead : s.ahead group = true) : s.members group = [] := by
  rw [List.eq_nil_iff_forall_not_mem]
  intro pid hpid
  have hnobody := h.nobody _ (mem_members.1 hpid)
  rw [hahead] at hnobody
  cases hnobody

theorem groupsAhead_lt (hgroups : s'.groups = s.groups) (hgroup : group ∈ s.groups)
    (hahead : ∀ group, s'.ahead group = true → s.ahead group = true)
    (hbefore : s.ahead group = true) (hafter : s'.ahead group = false) :
    s'.groupsAhead < s.groupsAhead := by
  have hboth : s'.groupsAhead = (s.groups.filter fun group => s.ahead group).countP
      (fun group => s'.ahead group) := by
    rw [groupsAhead, hgroups, List.countP_filter]
    refine List.countP_congr fun other _ => ?_
    rw [Bool.and_eq_true]
    exact ⟨fun hother => ⟨hother, hahead other hother⟩, fun hother => hother.1⟩
  rw [hboth, groupsAhead, List.countP_eq_length_filter (p := fun group => s.ahead group)]
  exact List.countP_lt_length_iff.2 ⟨group, List.mem_filter.2 ⟨hgroup, hbefore⟩, hafter⟩

theorem Unmet.openProcs (h : s.Unmet) (hphase : s.phase = .openProcs group) :
    ∃ e s', e.own = true ∧ s.calmStep e = some s' ∧ s'.Unmet ∧ s'.toRead < s.toRead := by
  have hgroup := h.there group (by rw [hphase]; rfl)
  obtain ⟨s', hs, hphase', hstack, hpids⟩ : ∃ s', s.walkStep (.openProcs true) = some s' ∧
      s'.phase = .readProcs group ∧ s'.stack = s.stack ∧ s'.pids = s.pids := by
    rw [walkStep, hphase]
    exact ⟨_, (if_pos rfl).trans (if_pos hgroup), rfl, rfl, rfl⟩
  have hwalked := h.walked rfl rfl hs (hphase' ▸ rfl) (hpids.trans h.pids)
    (fun other hother => by
      rw [hphase'] at hother
      cases hother
      exact hgroup)
    (fun other hother => by
      rw [ahead_iff, hphase', hstack] at hother
      rw [ahead_iff, hphase]
      exact hother)
  refine ⟨_, s', rfl, hwalked.1, hwalked.2.1, ?_⟩
  have hle := hwalked.2.2
  rw [toRead, toRead, hphase, hphase', hstack, WalkPhase.rank, WalkPhase.rank]
  omega

theorem Unmet.readProcs (h : s.Unmet) (hphase : s.phase = .readProcs group) :
    ∃ e s', e.own = true ∧ s.calmStep e = some s' ∧ s'.Unmet ∧ s'.toRead < s.toRead := by
  have hcurrent : s.phase.current = some group := by rw [hphase]; rfl
  have hbefore : s.ahead group = true := by
    rw [ahead_iff, hphase]
    exact .inl (decide_eq_true (List.suffix_refl group))
  obtain ⟨s', hs, hphase', hstack, hpids⟩ : ∃ s', s.walkStep (.readProcs 0) = some s' ∧
      s'.phase = .openDir group ∧ s'.stack = s.stack ∧ s'.pids = s.pids := by
    rw [walkStep, hphase]
    refine ⟨_, rfl, rfl, rfl, ?_⟩
    dsimp only
    rw [List.take_zero, List.append_nil]
  have hcalm : s.calm (.readProcs 0) = true := by
    rw [calm, hphase]
    exact decide_eq_true (by rw [h.members hbefore]; exact Nat.le_refl 0)
  have hahead : ∀ other, s'.ahead other = true → s.ahead other = true := by
    intro other hother
    rw [ahead_iff, hphase', hstack] at hother
    rw [ahead_iff, hphase]
    exact hother.imp (fun hbelow => decide_eq_true (of_decide_eq_true hbelow).1) id
  have hwalked := h.walked hcalm rfl hs (hphase' ▸ rfl) (hpids.trans h.pids)
    (fun other hother => by
      rw [hphase'] at hother
      cases hother
      exact h.there group hcurrent)
    hahead
  refine ⟨_, s', rfl, hwalked.1, hwalked.2.1, ?_⟩
  have hafter : s'.ahead group = false := by
    refine Bool.eq_false_iff.2 fun htrue => ?_
    rw [ahead_iff, hphase', hstack] at htrue
    rcases htrue with hbelow | ⟨frame, hframe, hframeAhead⟩
    · exact (of_decide_eq_true hbelow).2 rfl
    · rw [((h.current group hcurrent).entered frame hframe).2] at hframeAhead
      cases hframeAhead
  have hless := groupsAhead_lt (walkStep_tree hs).1 (h.there group hcurrent) hahead hbefore hafter
  rw [toRead, toRead, hphase, hphase', hstack, WalkPhase.rank, WalkPhase.rank]
  omega

theorem Unmet.openDir (h : s.Unmet) (hphase : s.phase = .openDir group) :
    ∃ e s', e.own = true ∧ s.calmStep e = some s' ∧ s'.Unmet ∧ s'.toRead < s.toRead := by
  have hgroup := h.there group (by rw [hphase]; rfl)
  obtain ⟨s', hs, hphase', hstack, hpids⟩ : ∃ s', s.walkStep (.openDir true) = some s' ∧
      s'.phase = .readDir ∧ s'.stack = { group := group, due := s.children group } :: s.stack ∧
      s'.pids = s.pids := by
    rw [walkStep, hphase]
    exact ⟨_, (if_pos rfl).trans (if_pos hgroup), rfl, rfl, rfl⟩
  have hwalked := h.walked rfl rfl hs (hphase' ▸ rfl) (hpids.trans h.pids)
    (fun other hother => by
      rw [hphase'] at hother
      cases hother)
    (fun other hother => by
      rw [ahead_iff, hphase', hstack] at hother
      rw [ahead_iff, hphase]
      rcases hother with hbelow | ⟨frame, hframe, hframeAhead⟩
      · cases hbelow
      · rcases List.mem_cons.1 hframe with rfl | hframe
        · obtain ⟨name, -, -, hsuffix⟩ := WalkFrame.ahead_iff.1 hframeAhead
          refine .inl (decide_eq_true ⟨(List.suffix_cons name group).trans hsuffix, ?_⟩)
          rintro rfl
          exact absurd hsuffix.length_le (Nat.not_succ_le_self _)
        · exact .inr ⟨frame, hframe, hframeAhead⟩)
  refine ⟨_, s', rfl, hwalked.1, hwalked.2.1, ?_⟩
  have hle := hwalked.2.2
  rw [toRead, toRead, hphase, hphase', hstack, WalkPhase.rank, WalkPhase.rank, List.length_cons]
  omega

theorem Unmet.stat (h : s.Unmet) (hphase : s.phase = .stat group) :
    ∃ e s', e.own = true ∧ s.calmStep e = some s' ∧ s'.Unmet ∧ s'.toRead < s.toRead := by
  have hgroup := h.there group (by rw [hphase]; rfl)
  obtain ⟨s', hs, hphase', hstack, hpids⟩ : ∃ s', s.walkStep (.stat true) = some s' ∧
      s'.phase = .openProcs group ∧ s'.stack = s.stack ∧ s'.pids = s.pids := by
    rw [walkStep, hphase]
    exact ⟨_, if_pos rfl, if_pos hgroup, rfl, rfl⟩
  have hwalked := h.walked rfl rfl hs (hphase' ▸ rfl) (hpids.trans h.pids)
    (fun other hother => by
      rw [hphase'] at hother
      cases hother
      exact hgroup)
    (fun other hother => by
      rw [ahead_iff, hphase', hstack] at hother
      rw [ahead_iff, hphase]
      exact hother)
  refine ⟨_, s', rfl, hwalked.1, hwalked.2.1, ?_⟩
  have hle := hwalked.2.2
  rw [toRead, toRead, hphase, hphase', hstack, WalkPhase.rank, WalkPhase.rank]
  omega

theorem Unmet.list (h : s.Unmet) {frame : WalkFrame} (hphase : s.phase = .readDir)
    (hstack : s.stack = frame :: rest) (hname : name ∈ frame.due) (hlisted : name ∉ frame.listed) :
    ∃ e s', e.own = true ∧ s.calmStep e = some s' ∧ s'.Unmet ∧ s'.toRead < s.toRead := by
  have hgroup := h.due frame (hstack ▸ List.mem_cons_self) name hname
  obtain ⟨s', hs, hphase', hstack', hpids⟩ : ∃ s', s.walkStep (.readDir (some name)) = some s' ∧
      s'.phase = .stat (name :: frame.group) ∧
      s'.stack = { frame with listed := name :: frame.listed } :: rest ∧ s'.pids = s.pids := by
    rw [walkStep, hphase, hstack]
    refine ⟨_, if_neg hlisted, ?_, rfl, rfl⟩
    dsimp only
    rw [h.plain name frame.group hgroup]
    rfl
  have hwalked := h.walked rfl rfl hs (hphase' ▸ rfl) (hpids.trans h.pids)
    (fun other hother => by
      rw [hphase'] at hother
      cases hother
      exact hgroup)
    (fun other hother => by
      rw [ahead_iff, hphase', hstack'] at hother
      rw [ahead_iff, hstack]
      refine .inr ?_
      rcases hother with hbelow | ⟨before, hbefore, hframeAhead⟩
      · exact ⟨frame, List.mem_cons_self,
          WalkFrame.ahead_iff.2 ⟨name, hname, hlisted, of_decide_eq_true hbelow⟩⟩
      · rcases List.mem_cons.1 hbefore with rfl | hbefore
        · obtain ⟨first, hfirst, hunlisted, hsuffix⟩ := WalkFrame.ahead_iff.1 hframeAhead
          exact ⟨frame, List.mem_cons_self, WalkFrame.ahead_iff.2
            ⟨first, hfirst, fun hmem => hunlisted (List.mem_cons_of_mem _ hmem), hsuffix⟩⟩
        · exact ⟨before, List.mem_cons_of_mem _ hbefore, hframeAhead⟩)
  refine ⟨_, s', rfl, hwalked.1, hwalked.2.1, ?_⟩
  have hle := hwalked.2.2
  rw [toRead, toRead, hphase, hphase', hstack, hstack', WalkPhase.rank, WalkPhase.rank,
    List.length_cons, List.length_cons]
  omega

theorem Unmet.endList (h : s.Unmet) {frame : WalkFrame} (hphase : s.phase = .readDir)
    (hstack : s.stack = frame :: rest) (hdue : ∀ name ∈ frame.due, name ∈ frame.listed) :
    ∃ e s', e.own = true ∧ s.calmStep e = some s' ∧ s'.Unmet ∧ s'.toRead < s.toRead := by
  obtain ⟨s', hs, hphase', hstack', hpids⟩ : ∃ s', s.walkStep (.readDir none) = some s' ∧
      s'.phase = (if rest.isEmpty then .done true else .readDir) ∧ s'.stack = rest ∧
      s'.pids = s.pids := by
    rw [walkStep, hphase, hstack]
    exact ⟨_, rfl, rfl, rfl, rfl⟩
  have hcalm : s.calm (.readDir none) = true := by
    rw [calm, hstack]
    exact List.all_eq_true.2 fun name hname => decide_eq_true (hdue name hname)
  have hwalked := h.walked hcalm rfl hs
    (by
      rw [hphase']
      split <;> rfl)
    (hpids.trans h.pids)
    (fun other hother => by
      rw [hphase'] at hother
      split at hother <;> cases hother)
    (fun other hother => by
      rw [ahead_iff, hphase', hstack'] at hother
      rw [ahead_iff, hstack]
      rcases hother with hbelow | ⟨before, hbefore, hframeAhead⟩
      · split at hbelow <;> cases hbelow
      · exact .inr ⟨before, List.mem_cons_of_mem _ hbefore, hframeAhead⟩)
  refine ⟨_, s', rfl, hwalked.1, hwalked.2.1, ?_⟩
  have hle := hwalked.2.2
  have hrank : s'.phase.rank ≤ 3 := by
    rw [hphase']
    split
    · exact Nat.zero_le 3
    · exact Nat.le_refl 3
  rw [toRead, toRead, hphase, hstack, hstack', WalkPhase.rank, List.length_cons]
  omega

theorem Unmet.progress (h : s.Unmet) (hanswer : ¬s.answer = some true) :
    ∃ e s', e.own = true ∧ s.calmStep e = some s' ∧ s'.Unmet ∧ s'.toRead < s.toRead := by
  have hcounts := h.counts
  cases hphase : s.phase with
  | idle =>
    rw [hphase] at hcounts
    cases hcounts
  | openProcs group => exact h.openProcs hphase
  | readProcs group => exact h.readProcs hphase
  | openDir group => exact h.openDir hphase
  | readDir =>
    cases hstack : s.stack with
    | nil => exact absurd hstack (h.looping (by rw [hphase]; rfl))
    | cons frame rest =>
      by_cases hdue : ∀ name ∈ frame.due, name ∈ frame.listed
      · exact h.endList hphase hstack hdue
      · push Not at hdue
        obtain ⟨name, hname, hlisted⟩ := hdue
        exact h.list hphase hstack hname hlisted
  | stat group => exact h.stat hphase
  | done ok =>
    rw [hphase] at hcounts
    cases ok with
    | false => cases hcounts
    | true =>
      refine absurd ?_ hanswer
      rw [answer, hphase, h.pids]
      rfl

theorem own_procs (hown : e.own = true) (hs : s.calmStep e = some s') : s'.procs = s.procs := by
  obtain ⟨-, hs⟩ := calmStep_cases hs
  rw [step, if_pos hown] at hs
  exact (walkStep_tree hs).2

theorem Unmet.reported (h : s.Unmet) : ∃ more s', Transitions.Run calmStep s more s' ∧
    (∀ e ∈ more, e.own = true) ∧ s'.answer = some true ∧ s'.procs = s.procs := by
  have hgood : ∀ t : TreeWalk, t.Unmet ∧ t.procs = s.procs → ¬t.answer = some true →
      ∃ e t', e.own = true ∧ t.calmStep e = some t' ∧ (t'.Unmet ∧ t'.procs = s.procs) ∧
        t'.toRead < t.toRead := by
    rintro t ⟨hi, hprocs⟩ hfinal
    obtain ⟨e, t', hown, ht, hi', hless⟩ := hi.progress hfinal
    exact ⟨e, t', hown, ht, ⟨hi', (own_procs hown ht).trans hprocs⟩, hless⟩
  obtain ⟨more, s', hrun, hmore, ⟨-, hprocs⟩, hanswer⟩ :=
    Transitions.Run.reaches toRead hgood ⟨h, rfl⟩
  exact ⟨more, s', hrun, hmore, hanswer, hprocs⟩

theorem walkStep_empty (hrests : s.phase.rests = true) : s.walkStep .empty =
    some { s with phase := .openProcs [], stack := [], pids := [] } := by
  rw [walkStep]
  cases hphase : s.phase with
  | idle => rfl
  | done ok => rfl
  | openProcs group =>
    rw [hphase] at hrests
    cases hrests
  | readProcs group =>
    rw [hphase] at hrests
    cases hrests
  | openDir group =>
    rw [hphase] at hrests
    cases hrests
  | readDir =>
    rw [hphase] at hrests
    cases hrests
  | stat group =>
    rw [hphase] at hrests
    cases hrests

/-- The walk has found nobody, and no call of it has failed. -/
structure Clean (s : TreeWalk) : Prop where
  procs : s.procs = []
  pids : s.pids = []
  phase : s.phase ≠ .done false

theorem Clean.call (h : s'.Clean) (hs : s.call s' group true = some t) : t.Clean := by
  rw [TreeWalk.call, if_pos rfl] at hs
  split at hs <;> cases hs
  exact h

theorem Clean.step (h : s.Clean) (hown : e.own = true) (hfails : e.fails = false)
    (hs : s.step e = some s') : s'.Clean := by
  rw [TreeWalk.step, if_pos hown] at hs
  obtain ⟨hprocs, hpids, hphase⟩ := h
  cases e with
  | fork parent child => cases hs
  | exit pid => cases hs
  | mkdir group => cases hs
  | rmdir group => cases hs
  | move pid group => cases hs
  | empty =>
    rw [walkStep] at hs
    split at hs <;> cases hs <;> exact ⟨hprocs, rfl, by simp⟩
  | openProcs ok =>
    cases ok with
    | false => cases hfails
    | true =>
      rw [walkStep] at hs
      split at hs
      · rename_i group hopen
        have hnext : Clean { s with phase := .readProcs group } := ⟨hprocs, hpids, by simp⟩
        exact hnext.call hs
      · cases hs
  | readProcs count =>
    rw [walkStep] at hs
    split at hs <;> cases hs
    refine ⟨hprocs, ?_, by simp⟩
    dsimp only
    rw [hpids, members, hprocs, List.filter_nil, List.map_nil, List.take_nil, List.append_nil]
  | openDir ok =>
    cases ok with
    | false => cases hfails
    | true =>
      rw [walkStep] at hs
      split at hs
      · rename_i group hopen
        have hnext : ∀ stack, Clean { s with phase := .readDir, stack := stack } :=
          fun stack => ⟨hprocs, hpids, by simp⟩
        exact (hnext _).call hs
      · cases hs
  | readDir entry =>
    rw [walkStep] at hs
    split at hs
    · cases entry with
      | none =>
        cases hs
        refine ⟨hprocs, hpids, ?_⟩
        dsimp only
        split <;> simp
      | some name =>
        rw [readEntry] at hs
        split at hs <;> cases hs
        refine ⟨hprocs, hpids, ?_⟩
        dsimp only
        split <;> simp
    · cases hs
  | stat ok =>
    cases ok with
    | false => cases hfails
    | true =>
      rw [walkStep] at hs
      split at hs
      · rw [if_pos rfl] at hs
        cases hs
        refine ⟨hprocs, hpids, ?_⟩
        dsimp only
        split <;> simp
      · cases hs

theorem clean_of_run {more : List TreeEvent} (h : Transitions.Run step s (.empty :: more) s')
    (hrests : s.phase.rests = true) (hprocs : s.procs = [])
    (hmore : ∀ e ∈ more, e.own = true ∧ e.fails = false) : s'.Clean := by
  obtain ⟨t, hstart, hrun⟩ := h.uncons
  have hwalk : s.step .empty = s.walkStep .empty := rfl
  rw [hwalk, walkStep_empty hrests] at hstart
  cases hstart
  exact hrun.kept Clean (fun _ _ _ hclean hgood hs => hclean.step hgood.1 hgood.2 hs) hmore
    ⟨hprocs, rfl, by simp⟩

/-- Whenever the daemon looks at a tree that is empty, with the group of the handle still there, the
walk can go on to its end without a call that fails; and whichever way it goes, if no call fails and
it answers, the tree is reported empty. -/
theorem empty_reported {events : List TreeEvent} {s₀ : TreeWalk} (hfresh : s₀.Fresh)
    (h : Transitions.Run calmStep s₀ events s) (hrests : s.phase.rests = true)
    (hprocs : s.procs = []) (hgroup : [] ∈ s.groups) :
    (∃ more s', Transitions.Run calmStep s (.empty :: more) s' ∧
      (∀ e ∈ more, e.own = true) ∧ s'.answer = some true) ∧
    ∀ more s' empty, Transitions.Run step s (.empty :: more) s' →
      (∀ e ∈ more, e.own = true ∧ e.fails = false) → s'.answer = some empty → empty = true := by
  constructor
  · have hs := walkStep_empty hrests
    have hstart : Unmet { s with phase := .openProcs [], stack := [], pids := [] } :=
      { walkStep_shaped (run_inv hfresh h).toShaped hs with
        counts := rfl
        pids := rfl
        there := fun group hcurrent => by
          cases hcurrent
          exact hgroup
        nobody := fun proc hproc => by
          dsimp only at hproc
          rw [hprocs] at hproc
          cases hproc }
    obtain ⟨more, s', hrun, hmore, hanswer, -⟩ := hstart.reported
    exact ⟨more, s', (Transitions.Run.single (e := .empty) hs).append hrun, hmore, hanswer⟩
  · intro more s' empty hrun hmore hanswer
    obtain ⟨-, hpids, hphase⟩ := clean_of_run hrun hrests hprocs hmore
    rw [answer] at hanswer
    split at hanswer
    · rename_i ok hdone
      cases ok with
      | false => exact absurd hdone hphase
      | true =>
        rw [hpids] at hanswer
        exact (Option.some.inj hanswer).symm
    · cases hanswer

theorem empty_reported_exits : ∃ s, Transitions.Run calmStep nested [.exit 7, .exit 8] s ∧
    (∃ more s', Transitions.Run calmStep s (.empty :: more) s' ∧
      (∀ e ∈ more, e.own = true) ∧ s'.answer = some true) ∧
    ∀ more s' empty, Transitions.Run step s (.empty :: more) s' →
      (∀ e ∈ more, e.own = true ∧ e.fails = false) → s'.answer = some empty → empty = true :=
  have hrun : Transitions.Run calmStep nested [.exit 7, .exit 8] _ := .of_after rfl
  ⟨_, hrun, empty_reported nested_fresh hrun rfl rfl (by decide +kernel)⟩

theorem mem_moved {procs : List (Nat × GroupPath)} :
    pid ∈ ((mover, group) :: procs.filter fun proc => proc.1 ≠ mover).map (·.1) ↔
      pid ∈ procs.map (·.1) ∨ pid = mover := by
  rw [List.map_cons, List.mem_cons, or_comm]
  by_cases hpid : pid = mover
  · exact ⟨fun _ => .inr hpid, fun _ => .inr hpid⟩
  · refine or_congr_left ⟨fun hmem => ?_, fun hmem => ?_⟩
    · obtain ⟨proc, hproc, rfl⟩ := List.mem_map.1 hmem
      exact List.mem_map_of_mem (List.mem_of_mem_filter hproc)
    · obtain ⟨proc, hproc, rfl⟩ := List.mem_map.1 hmem
      exact List.mem_map_of_mem (List.mem_filter.2 ⟨hproc, decide_eq_true hpid⟩)

theorem moves (h : s.Shaped) (l : List Nat) (hgroup : l ≠ [] → [] ∈ s.groups) :
    ∃ s', Transitions.Run step s (l.map fun pid => .move pid []) s' ∧ s'.Shaped ∧
      s'.groups = s.groups ∧ s'.phase = s.phase ∧ s'.stack = s.stack ∧ s'.pids = s.pids ∧
      (∀ proc ∈ s'.procs, proc.2 = [] ∨ proc ∈ s.procs ∧ proc.1 ∉ l) ∧
      ∀ pid, pid ∈ s'.tree.members ↔ pid ∈ s.tree.members ∨ pid ∈ l := by
  induction l generalizing s with
  | nil =>
    exact ⟨s, .nil, h, rfl, rfl, rfl, rfl, fun proc hproc => .inr ⟨hproc, List.not_mem_nil⟩,
      fun pid => ⟨.inl, fun hpid => hpid.resolve_right List.not_mem_nil⟩⟩
  | cons mover l ih =>
    have hroot := hgroup (List.cons_ne_nil _ _)
    obtain ⟨t, ht, hprocs, hgroups, hphase, hstack, hpids⟩ : ∃ t, s.step (.move mover []) = some t ∧
        t.procs = (mover, []) :: s.procs.filter (fun proc => proc.1 ≠ mover) ∧
        t.groups = s.groups ∧ t.phase = s.phase ∧ t.stack = s.stack ∧ t.pids = s.pids :=
      ⟨_, if_pos hroot, rfl, rfl, rfl, rfl, rfl⟩
    obtain ⟨s', hrun, hshaped, hgroups', hphase', hstack', hpids', hplaces, hmembers⟩ :=
      ih (move_shaped h ht) fun _ => hgroups ▸ hroot
    refine ⟨s', (Transitions.Run.single ht).append hrun, hshaped, hgroups'.trans hgroups,
      hphase'.trans hphase, hstack'.trans hstack, hpids'.trans hpids, fun proc hproc => ?_,
      fun pid => ?_⟩
    · rcases hplaces proc hproc with hplace | ⟨hbefore, hl⟩
      · exact .inl hplace
      · rw [hprocs] at hbefore
        rcases List.mem_cons.1 hbefore with rfl | hbefore
        · exact .inl rfl
        · obtain ⟨hbefore, hne⟩ := List.mem_filter.1 hbefore
          have hother : proc.1 ≠ mover := of_decide_eq_true hne
          exact .inr ⟨hbefore, fun hmem => (List.mem_cons.1 hmem).elim hother hl⟩
    · rw [hmembers, List.mem_cons, ← or_assoc, tree, tree, hprocs, mem_moved]

/-- A group that the walk is about to open or to read. -/
def entered (s : TreeWalk) : Option GroupPath :=
  match s.phase with
  | .openProcs group | .readProcs group | .openDir group => some group
  | .idle | .readDir | .stat _ | .done _ => none

theorem reported_of_stat (h : s.Shaped) (hpids : s.pids = []) (hcounts : s.phase.counts = true)
    (hentered : ∀ group, s.entered = some group → group ∈ s.groups)
    (hnobody : ∀ proc ∈ s.procs, s.ahead proc.2 = false) :
    ∃ more s', Transitions.Run calmStep s more s' ∧ (∀ e ∈ more, e.own = true) ∧
      s'.answer = some true ∧ s'.procs = s.procs := by
  by_cases hthere : ∀ group, s.phase.current = some group → group ∈ s.groups
  · exact Unmet.reported { h with
      counts := hcounts, pids := hpids, there := hthere, nobody := hnobody }
  · push Not at hthere
    obtain ⟨group, hcurrent, hgone⟩ := hthere
    have hphase : s.phase = .stat group := by
      cases hphase : s.phase with
      | stat other =>
        rw [hphase] at hcurrent
        cases hcurrent
        rfl
      | openProcs other =>
        rw [hphase] at hcurrent
        exact absurd (hentered group (by rw [entered, hphase]; exact hcurrent)) hgone
      | readProcs other =>
        rw [hphase] at hcurrent
        exact absurd (hentered group (by rw [entered, hphase]; exact hcurrent)) hgone
      | openDir other =>
        rw [hphase] at hcurrent
        exact absurd (hentered group (by rw [entered, hphase]; exact hcurrent)) hgone
      | idle =>
        rw [hphase] at hcurrent
        cases hcurrent
      | readDir =>
        rw [hphase] at hcurrent
        cases hcurrent
      | done ok =>
        rw [hphase] at hcurrent
        cases hcurrent
    have hs : s.walkStep (.stat true) = some { s with phase := .readDir } := by
      rw [walkStep, hphase]
      dsimp only
      rw [if_pos rfl, if_neg hgone]
    have hnext : Unmet { s with phase := .readDir } := { walkStep_shaped h hs with
      counts := rfl
      pids := hpids
      there := fun other hother => by cases hother
      nobody := fun proc hproc => by
        have hbefore := hnobody proc hproc
        rw [ahead, Bool.or_eq_false_iff] at hbefore
        exact (Bool.false_or _).trans hbefore.2 }
    obtain ⟨more, s', hrun, hmore, hanswer, hprocs⟩ := hnext.reported
    refine ⟨.stat true :: more, s', (Transitions.Run.single (e := .stat true) hs).append hrun,
      fun e he => ?_, hanswer, hprocs⟩
    rcases List.mem_cons.1 he with rfl | he
    · rfl
    · exact hmore e he

/-- One move of each process is enough to be missed: wherever the walk is once it has read the group
of the handle and met nobody, if everybody moves there, the walk goes on to report the tree empty
with everybody in it. Only a walk that has entered a group which is gone fails instead. -/
theorem moved_missed {events : List TreeEvent} {s₀ : TreeWalk} (hfresh : s₀.Fresh)
    (h : Transitions.Run calmStep s₀ events s) (hrests : s.phase.rests = false)
    (hpids : s.pids = []) (hread : s.ahead [] = false)
    (hentered : ∀ group, s.entered = some group → group ∈ s.groups) :
    ∃ t more s', Transitions.Run step s (s.tree.members.map fun pid => .move pid []) t ∧
      Transitions.Run calmStep t more s' ∧ (∀ e ∈ more, e.own = true) ∧ s'.answer = some true ∧
      ∀ pid ∈ s.tree.members, pid ∈ s'.tree.members := by
  have hshaped := (run_inv hfresh h).toShaped
  have hgroup : s.tree.members ≠ [] → [] ∈ s.groups := by
    intro hmembers
    obtain ⟨proc, hproc⟩ := List.exists_mem_of_ne_nil _ fun hnil =>
      hmembers (List.map_eq_nil_iff.2 hnil)
    exact hshaped.above (hshaped.housed proc hproc) List.nil_suffix
  obtain ⟨t, hmoves, ht, hgroups, hphase, hstack, hpids', hplaces, hmembers⟩ :=
    moves hshaped s.tree.members hgroup
  have hentered' : ∀ group, t.entered = some group → group ∈ t.groups := by
    rw [entered, hphase, hgroups]
    exact hentered
  have hnobody : ∀ proc ∈ t.procs, t.ahead proc.2 = false := by
    intro proc hproc
    rw [ahead_congr hphase hstack]
    rcases hplaces proc hproc with hplace | ⟨hbefore, hl⟩
    · rw [hplace]
      exact hread
    · exact absurd (List.mem_map_of_mem hbefore) hl
  obtain ⟨more, s', hrun, hmore, hanswer, hprocs⟩ := reported_of_stat ht (hpids'.trans hpids)
    (hphase ▸ WalkPhase.counts_of_rests hrests) hentered' hnobody
  refine ⟨t, more, s', hmoves, hrun, hmore, hanswer, fun pid hpid => ?_⟩
  rw [tree, hprocs]
  exact (hmembers pid).2 (.inl hpid)

/-- The root has ended, and the walk is about to list the group that its child is in. -/
def childLeft : List TreeEvent :=
  [.exit 7, .empty, .openProcs true, .readProcs 0, .openDir true]

theorem moved_missed_child : ∃ s, Transitions.Run calmStep nested childLeft s ∧
    s.tree.members = [8] ∧
    ∃ t more s', Transitions.Run step s (s.tree.members.map fun pid => .move pid []) t ∧
      Transitions.Run calmStep t more s' ∧ (∀ e ∈ more, e.own = true) ∧ s'.answer = some true ∧
      ∀ pid ∈ s.tree.members, pid ∈ s'.tree.members :=
  have hrun : Transitions.Run calmStep nested childLeft _ := .of_after rfl
  ⟨_, hrun, rfl, moved_missed nested_fresh hrun rfl rfl (by decide +kernel)
    fun _ hcurrent => by cases hcurrent⟩

end TreeWalk
end PmTiny
