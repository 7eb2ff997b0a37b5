import PmTiny.Daemon.CgroupFs
import PmTiny.Daemon.ProcessTree

namespace PmTiny.ProcessTree
open Crash Wire
set_option autoImplicit true

/-- A path at or below another. -/
def Within (root path : Text) : Prop := path = root ∨ ∃ rest, path = root ++ slash :: rest

def latest (trace : List TreeCall) : List Int :=
  trace.foldl (fun pids call =>
    match call with
    | .collectPids _ (some found) => found
    | _ => pids) []

/-- The calls of a daemon on its root, with the pids of the processes that it has started: it works
on groups at or below its root, signals who it has just found there, and kills its probe, or the
process groups of what it has started. -/
def Allowed (root : Text) (started : Nat → Prop) (before : List TreeCall) : TreeCall → Prop
  | .createGroup path _ => Within root path
  | .removeGroup path => Within root path
  | .attachPid group pid _ => group = probePath root ∧ .fork (some pid) ∈ before ∨
      group = appGroup root pid ∧ started pid
  | .collectPids group _ => Within root group
  | .listChildGroups group _ => group = root
  | .signalPid pid _ => pid ∈ latest before
  | .kill pid _ => (∃ probe : Nat, pid = probe ∧ .fork (some probe) ∈ before ∧
      .waitpid probe ∉ before) ∨ ∃ leader : Nat, 0 < leader ∧ pid = -leader ∧ started leader
  | .waitpid pid => .fork (some pid) ∈ before
  | _ => True

/-- Every call is allowed after those before it. -/
def Disciplined (allowed : List TreeCall → TreeCall → Prop) (trace : List TreeCall) : Prop :=
  ∀ before call after, trace = before ++ call :: after → allowed before call

/-- Wherever the daemon is killed the calls so far are disciplined, and `post` holds at the end. -/
abbrev Obeys (allowed : List TreeCall → TreeCall → Prop) (post : α → List TreeCall → Prop)
    (p : Calls ω α) (trace : List TreeCall) : Prop :=
  SafeAt Traced.trace (fun _ => True) (Disciplined allowed) post p trace

variable {allowed : List TreeCall → TreeCall → Prop} {trace : List TreeCall}

theorem disciplined_nil : Disciplined allowed [] := by
  intro before call after h
  cases before <;> cases h

theorem Disciplined.snoc (h : Disciplined allowed trace) (hcall : allowed trace call) :
    Disciplined allowed (trace ++ [call]) := by
  intro before other after heq
  rcases List.eq_nil_or_concat after with rfl | ⟨rest, last, rfl⟩
  · obtain ⟨rfl, hother⟩ := List.append_inj' heq rfl
    cases hother
    exact hcall
  · have hsplit : trace ++ [call] = before ++ other :: rest ++ [last] := by
      rw [heq, List.append_assoc, List.cons_append, List.concat_eq_append]
    obtain ⟨rfl, -⟩ := List.append_inj' hsplit rfl
    exact h before other rest rfl

theorem obeys_traced {f : ω → ω × α} {call : α → TreeCall} {post : α → List TreeCall → Prop}
    (h : Disciplined allowed trace)
    (hcall : ∀ w, allowed trace (call (f w).2) ∧ post (f w).2 (trace ++ [call (f w).2])) :
    Obeys allowed post (traced f call) trace :=
  SafeAt.call h fun s _ hs => by
    obtain ⟨hallowed, hpost⟩ := hcall s.world
    rw [hs]
    exact ⟨trivial, h.snoc hallowed, hpost⟩

theorem obeys_pure {post : α → List TreeCall → Prop} {a : α} (h : Disciplined allowed trace)
    (hpost : post a trace) : Obeys (ω := ω) allowed post (pure a) trace :=
  SafeAt.pure h hpost

theorem Obeys.bind {first : α → List TreeCall → Prop} {post : β → List TreeCall → Prop}
    {p : Calls ω α} {f : α → Calls ω β} (hp : Obeys allowed first p trace)
    (hf : ∀ a trace', Disciplined allowed trace' → first a trace' →
      Obeys allowed post (f a) trace') : Obeys allowed post (p >>= f) trace :=
  SafeAt.bind (hp.mono fun a trace' hi ha => hf a trace' hi ha)

theorem Obeys.imp {post post' : α → List TreeCall → Prop} {p : Calls ω α}
    (h : Obeys allowed post p trace) (hpost : ∀ a trace', post a trace' → post' a trace') :
    Obeys allowed post' p trace :=
  SafeAt.mono h fun a trace' _ ha => hpost a trace' ha

def Extends (trace trace' : List TreeCall) : Prop :=
  ∃ more, trace' = trace ++ more ∧ ∀ pid, .fork pid ∉ more

theorem Extends.refl (trace : List TreeCall) : Extends trace trace :=
  ⟨[], (List.append_nil _).symm, fun _ => List.not_mem_nil⟩

theorem Extends.trans (h : Extends trace trace') (h' : Extends trace' trace'') :
    Extends trace trace'' := by
  obtain ⟨more, rfl, hmore⟩ := h
  obtain ⟨more', rfl, hmore'⟩ := h'
  refine ⟨more ++ more', List.append_assoc .., fun pid hpid => ?_⟩
  exact (List.mem_append.1 hpid).elim (hmore pid) (hmore' pid)

theorem Extends.mem (h : Extends trace trace') (hcall : call ∈ trace) : call ∈ trace' := by
  obtain ⟨more, rfl, -⟩ := h
  exact List.mem_append_left _ hcall

theorem extends_snoc (hcall : ∀ pid, call ≠ .fork pid) : Extends trace (trace ++ [call]) := by
  refine ⟨[call], rfl, fun pid hpid => ?_⟩
  exact hcall pid (List.mem_singleton.1 hpid).symm

theorem latest_collect (trace : List TreeCall) (group : Text) (pids : List Int) :
    latest (trace ++ [TreeCall.collectPids group (some pids)]) = pids := by
  rw [latest, List.foldl_append]
  rfl

theorem latest_signal (trace : List TreeCall) (pid signo : Int) :
    latest (trace ++ [TreeCall.signalPid pid signo]) = latest trace := by
  rw [latest, List.foldl_append]
  rfl

section
variable {sys : System ω} {root : Text} {started : Nat → Prop}

theorem obeys_create (h : Disciplined (Allowed root started) trace) (hpath : Within root path) :
    Obeys (Allowed root started)
      (fun reply trace' => trace' = trace ++ [TreeCall.createGroup path reply.toBool])
      (sys.create path) trace :=
  obeys_traced h fun _ => ⟨hpath, rfl⟩

theorem obeys_remove (h : Disciplined (Allowed root started) trace) (hpath : Within root path) :
    Obeys (Allowed root started) (fun _ trace' => trace' = trace ++ [TreeCall.removeGroup path])
      (sys.remove path) trace :=
  obeys_traced h fun _ => ⟨hpath, rfl⟩

theorem obeys_collect (h : Disciplined (Allowed root started) trace) (hgroup : Within root group) :
    Obeys (Allowed root started)
      (fun reply trace' => trace' = trace ++ [TreeCall.collectPids group reply.toOption])
      (sys.collect group) trace :=
  obeys_traced h fun _ => ⟨hgroup, rfl⟩

theorem obeys_signalPids (h : Disciplined (Allowed root started) trace) (signo : Int)
    (saved : Option Int) (pids : List Int) (hpids : ∀ pid ∈ pids, pid ∈ latest trace) :
    Obeys (Allowed root started)
      (fun _ trace' => Extends trace trace' ∧ ∀ pid ∈ pids, .signalPid pid signo ∈ trace')
      (signalPids sys signo pids saved) trace := by
  induction pids generalizing trace saved with
  | nil => exact obeys_pure h ⟨.refl _, fun _ hpid => by cases hpid⟩
  | cons pid pids ih =>
    have hsent : Obeys (Allowed root started)
        (fun _ trace' => trace' = trace ++ [TreeCall.signalPid pid signo])
        (sys.signal pid signo) trace :=
      obeys_traced h fun _ => ⟨hpids pid List.mem_cons_self, rfl⟩
    refine hsent.bind fun failure trace' htrace' heq => ?_
    subst heq
    have hrest : ∀ other ∈ pids, other ∈ latest (trace ++ [TreeCall.signalPid pid signo]) := by
      rw [latest_signal]
      exact fun other hother => hpids other (List.mem_cons_of_mem _ hother)
    refine (ih htrace' _ hrest).imp fun _ trace'' hpost => ?_
    obtain ⟨hextends, hsignals⟩ := hpost
    refine ⟨(extends_snoc fun _ heq => by cases heq).trans hextends, fun other hother => ?_⟩
    rcases List.mem_cons.1 hother with rfl | hother
    · exact hextends.mem (List.mem_append_right _ List.mem_cons_self)
    · exact hsignals other hother

theorem obeys_removeIfEmpty (h : Disciplined (Allowed root started) trace)
    (hgroup : Within root group) :
    Obeys (Allowed root started) (fun _ trace' => Extends trace trace') (removeIfEmpty sys group)
      trace := by
  refine (obeys_collect h hgroup).bind fun reply trace' htrace' heq => ?_
  have hextends : Extends trace trace' := by
    subst heq
    exact extends_snoc fun _ heq => by cases heq
  split
  · refine (obeys_remove htrace' hgroup).bind fun _ trace'' htrace'' heq' => ?_
    subst heq'
    exact obeys_pure htrace'' (hextends.trans (extends_snoc fun _ heq => by cases heq))
  · exact obeys_pure htrace' hextends

/-- The group was looked at, and who was found there was sent the signal. -/
def Killed (group : Text) (trace : List TreeCall) : Prop :=
  ∃ reply, .collectPids group reply ∈ trace ∧
    ∀ pids ∈ reply, ∀ pid ∈ pids, .signalPid pid sigkill ∈ trace

theorem Killed.mono (h : Killed group trace) (hextends : Extends trace trace') :
    Killed group trace' := by
  obtain ⟨reply, hreply, hsignals⟩ := h
  exact ⟨reply, hextends.mem hreply, fun pids hpids pid hpid =>
    hextends.mem (hsignals pids hpids pid hpid)⟩

theorem obeys_killGroup (h : Disciplined (Allowed root started) trace)
    (hgroup : Within root group) :
    Obeys (Allowed root started) (fun _ trace' => Extends trace trace' ∧ Killed group trace')
      (killGroup sys group) trace := by
  refine (obeys_collect h hgroup).bind fun reply trace' htrace' heq => ?_
  subst heq
  have hextends : Extends trace (trace ++ [TreeCall.collectPids group reply.toOption]) :=
    extends_snoc fun _ heq => by cases heq
  have hcollected : .collectPids group reply.toOption ∈
      trace ++ [TreeCall.collectPids group reply.toOption] :=
    List.mem_append_right _ List.mem_cons_self
  cases reply with
  | error reason =>
    exact obeys_pure htrace' ⟨hextends, none, hcollected, fun _ hpids => by cases hpids⟩
  | ok pids =>
    have hlatest : ∀ pid ∈ pids,
        pid ∈ latest (trace ++ [TreeCall.collectPids group (some pids)]) := by
      rw [latest_collect]
      exact fun _ hpid => hpid
    refine (obeys_signalPids htrace' sigkill none pids hlatest).bind
      fun _ trace'' htrace'' hsent => ?_
    have hkilled : Killed group trace'' := by
      refine ⟨some pids, hsent.1.mem hcollected, fun found hfound => ?_⟩
      cases hfound
      exact hsent.2
    refine (obeys_removeIfEmpty htrace'' hgroup).imp fun _ last hremoved => ?_
    exact ⟨(hextends.trans hsent.1).trans hremoved, hkilled.mono hremoved⟩

theorem obeys_killStale (h : Disciplined (Allowed root started) trace) (groups : List Text)
    (hgroups : ∀ group ∈ groups, Within root group) :
    Obeys (Allowed root started)
      (fun _ trace' => Extends trace trace' ∧
        ∀ group ∈ groups, isAppGroup group = true → Killed group trace')
      (killStale sys groups) trace := by
  induction groups generalizing trace with
  | nil => exact obeys_pure h ⟨.refl _, fun _ hgroup => by cases hgroup⟩
  | cons group groups ih =>
    have hrest : ∀ other ∈ groups, Within root other := fun other hother =>
      hgroups other (List.mem_cons_of_mem _ hother)
    rw [killStale]
    split
    · refine (obeys_killGroup h (hgroups group List.mem_cons_self)).bind
        fun _ trace' htrace' hkilled => ?_
      refine (ih htrace' hrest).imp fun _ trace'' hpost => ?_
      refine ⟨hkilled.1.trans hpost.1, fun other hother happ => ?_⟩
      rcases List.mem_cons.1 hother with rfl | hother
      · exact hkilled.2.mono hpost.1
      · exact hpost.2 other hother happ
    · rename_i hother
      refine (ih h hrest).imp fun _ trace'' hpost => ⟨hpost.1, fun other hmem happ => ?_⟩
      rcases List.mem_cons.1 hmem with rfl | hmem
      · exact absurd happ hother
      · exact hpost.2 other hmem happ

def Cleared (root : Text) (trace : List TreeCall) : Prop :=
  ∃ reply, .listChildGroups root reply ∈ trace ∧
    ∀ groups ∈ reply, ∀ group ∈ groups, isAppGroup group = true → Killed group trace

theorem obeys_clearRoot (h : Disciplined (Allowed root started) trace) :
    Obeys (Allowed root started) (fun _ trace' => Extends trace trace' ∧ Cleared root trace')
      (clearRoot sys root) trace := by
  have hlist : Obeys (Allowed root started)
      (fun reply trace' => trace' = trace ++ [TreeCall.listChildGroups root reply.toOption] ∧
        ∀ groups, reply = .ok groups → ∀ group ∈ groups, Within root group)
      (sys.list root) trace := by
    refine obeys_traced h fun w => ⟨rfl, rfl, fun groups hgroups group hgroup => ?_⟩
    exact .inr (sys.children root w groups hgroups group hgroup)
  refine hlist.bind fun reply trace' htrace' hreply => ?_
  obtain ⟨heq, hchildren⟩ := hreply
  subst heq
  have hextends : Extends trace (trace ++ [TreeCall.listChildGroups root reply.toOption]) :=
    extends_snoc fun _ heq => by cases heq
  have hlisted : .listChildGroups root reply.toOption ∈
      trace ++ [TreeCall.listChildGroups root reply.toOption] :=
    List.mem_append_right _ List.mem_cons_self
  cases reply with
  | error reason =>
    exact obeys_pure htrace' ⟨hextends, none, hlisted, fun _ hgroups => by cases hgroups⟩
  | ok groups =>
    refine (obeys_killStale htrace' groups (hchildren groups rfl)).imp fun _ trace'' hpost => ?_
    refine ⟨hextends.trans hpost.1, some groups, hpost.1.mem hlisted, fun found hfound => ?_⟩
    cases hfound
    exact hpost.2

theorem within_probe (root : Text) : Within root (probePath root) := by
  have hsplit : utf8 "/.probe" = slash :: utf8 ".probe" := by decide +kernel
  exact .inr ⟨utf8 ".probe", by rw [probePath, hsplit]⟩

theorem within_app (root : Text) (pid : Nat) : Within root (appGroup root pid) := by
  have hsplit : utf8 "/app-" = slash :: utf8 "app-" := by decide +kernel
  exact .inr ⟨utf8 "app-" ++ decimal pid, by
    rw [appGroup, hsplit, List.append_assoc, List.cons_append]⟩

def Probed (root : Text) (trace : List TreeCall) : Prop :=
  ∃ pid, .attachPid (probePath root) pid true ∈ trace

def Reaped (trace : List TreeCall) : Prop :=
  ∀ pid, .fork (some pid) ∈ trace → .kill pid sigkill ∈ trace ∧ .waitpid pid ∈ trace

/-- The trace of a probe that was attached, was not, or could not be made. -/
def ProbeTrace (probe : Text) (trace : List TreeCall) (ok : Bool) (trace' : List TreeCall) : Prop :=
  (ok = false ∧ trace' = trace ++ [TreeCall.fork none]) ∨
    ∃ pid, trace' = trace ++
      [TreeCall.fork (some pid), .attachPid probe pid ok, .kill pid sigkill, .waitpid pid]

theorem obeys_probeAttach (h : Disciplined (Allowed root started) trace)
    (hwait : ∀ pid, .waitpid pid ∉ trace) :
    Obeys (Allowed root started)
      (fun reply trace' => ProbeTrace (probePath root) trace reply.toBool trace')
      (probeAttach sys (probePath root)) trace := by
  have hfork : Obeys (Allowed root started)
      (fun reply trace' => trace' = trace ++ [TreeCall.fork reply]) sys.forkProbe trace :=
    obeys_traced h fun _ => ⟨trivial, rfl⟩
  refine hfork.bind fun reply t₁ ht₁ heq => ?_
  subst heq
  cases reply with
  | none => exact obeys_pure ht₁ (.inl ⟨rfl, rfl⟩)
  | some pid =>
    have hattach : Obeys (Allowed root started)
        (fun reply t₂ => t₂ = trace ++ [TreeCall.fork (some pid)] ++
          [.attachPid (probePath root) pid reply.toBool])
        (sys.attach (probePath root) pid) (trace ++ [TreeCall.fork (some pid)]) :=
      obeys_traced ht₁ fun _ => ⟨.inl ⟨rfl, List.mem_append_right _ List.mem_cons_self⟩, rfl⟩
    refine hattach.bind fun reply t₂ ht₂ heq => ?_
    have hforked : .fork (some pid) ∈ t₂ := by
      subst heq
      exact List.mem_append_left _ (List.mem_append_right _ List.mem_cons_self)
    have hlives : .waitpid pid ∉ t₂ := by
      subst heq
      simp [hwait pid]
    have hkill : Obeys (Allowed root started) (fun _ t₃ => t₃ = t₂ ++ [TreeCall.kill pid sigkill])
        (sys.killProcess pid sigkill) t₂ :=
      obeys_traced ht₂ fun _ => ⟨.inl ⟨pid, rfl, hforked, hlives⟩, rfl⟩
    refine hkill.bind fun _ t₃ ht₃ heq' => ?_
    have hreap : Obeys (Allowed root started) (fun _ t₄ => t₄ = t₃ ++ [TreeCall.waitpid pid])
        (sys.wait pid) t₃ :=
      obeys_traced ht₃ fun _ => ⟨by
        subst heq'
        exact List.mem_append_left _ hforked, rfl⟩
    refine hreap.bind fun _ t₄ ht₄ heq'' => ?_
    subst heq heq' heq''
    exact obeys_pure ht₄ (.inr ⟨pid, by simp⟩)

structure Unprobed (root : Text) (trace : List TreeCall) : Prop where
  fork : ∀ pid, .fork (some pid) ∉ trace
  attach : ∀ pid ok, .attachPid (probePath root) pid ok ∉ trace
  wait : ∀ pid, .waitpid pid ∉ trace

theorem Unprobed.create (h : Unprobed root trace) (path : Text) (ok : Bool) :
    Unprobed root (trace ++ [TreeCall.createGroup path ok]) where
  fork := fun pid => by simp [h.fork pid]
  attach := fun pid reply => by simp [h.attach pid reply]
  wait := fun pid => by simp [h.wait pid]

structure ProbeDone (root : Text) (ok : Bool) (trace : List TreeCall) : Prop where
  probed : ok = true ↔ Probed root trace
  reaped : Reaped trace
  removed : .removeGroup (probePath root) ∈ trace

theorem Unprobed.done (h : Unprobed root trace) :
    ProbeDone root false (trace ++ [TreeCall.removeGroup (probePath root)]) where
  probed := ⟨fun hok => (by cases hok), fun ⟨pid, hpid⟩ => (by simp [h.attach pid] at hpid)⟩
  reaped := fun pid hpid => by simp [h.fork pid] at hpid
  removed := List.mem_append_right _ List.mem_cons_self

theorem ProbeTrace.done (h : ProbeTrace (probePath root) trace ok trace')
    (hbefore : Unprobed root trace) :
    ProbeDone root ok (trace' ++ [TreeCall.removeGroup (probePath root)]) := by
  rcases h with ⟨rfl, rfl⟩ | ⟨pid, rfl⟩
  · exact {
      probed := ⟨fun hok => (by cases hok),
        fun ⟨pid, hpid⟩ => (by simp [hbefore.attach pid] at hpid)⟩
      reaped := fun pid hpid => by simp [hbefore.fork pid] at hpid
      removed := List.mem_append_right _ List.mem_cons_self }
  · exact {
      probed := by
        constructor
        · rintro rfl
          exact ⟨pid, by simp⟩
        · rintro ⟨other, hother⟩
          simp only [List.mem_append, hbefore.attach other, List.mem_cons] at hother
          simp at hother
          exact hother.2
      reaped := fun other hother => by
        simp [hbefore.fork other] at hother
        simp [hother]
      removed := List.mem_append_right _ List.mem_cons_self }

theorem ProbeDone.snoc (h : ProbeDone root ok trace) (hfork : ∀ pid, call ≠ .fork pid)
    (hattach : ∀ group pid reply, call ≠ .attachPid group pid reply) :
    ProbeDone root ok (trace ++ [call]) where
  probed := by
    rw [h.probed]
    refine exists_congr fun pid => ⟨List.mem_append_left _, fun hpid => ?_⟩
    refine (List.mem_append.1 hpid).resolve_right fun hlast => ?_
    exact hattach _ _ _ (List.mem_singleton.1 hlast).symm
  reaped := fun pid hpid => by
    have hbefore := (List.mem_append.1 hpid).resolve_right fun hlast =>
      hfork _ (List.mem_singleton.1 hlast).symm
    exact ⟨List.mem_append_left _ (h.reaped pid hbefore).1,
      List.mem_append_left _ (h.reaped pid hbefore).2⟩
  removed := List.mem_append_left _ h.removed

theorem obeys_failedReason (h : Disciplined (Allowed root started) trace)
    (hdone : ProbeDone root ok trace) (reason : Text) :
    Obeys (Allowed root started) (fun _ trace' => ProbeDone root ok trace')
      (failedReason sys reason) trace := by
  rw [failedReason]
  split
  · refine obeys_traced h fun _ => ⟨trivial, ?_⟩
    exact hdone.snoc (fun _ heq => by cases heq) fun _ _ _ heq => by cases heq
  · exact obeys_pure h hdone

theorem obeys_probeGroup (h : Disciplined (Allowed root started) trace)
    (hbefore : Unprobed root trace) :
    Obeys (Allowed root started) (fun reply trace' => ProbeDone root reply.toBool trace')
      (probeGroup sys (probePath root)) trace := by
  have hreply : Obeys (Allowed root started)
      (fun reply trace' => ProbeDone root reply.toBool
        (trace' ++ [TreeCall.removeGroup (probePath root)]))
      (probeReply sys (probePath root)) trace := by
    refine (obeys_create h (within_probe root)).bind fun reply trace' htrace' heq => ?_
    subst heq
    cases reply with
    | error reason => exact obeys_pure htrace' (hbefore.create _ _).done
    | ok value =>
      refine (obeys_probeAttach htrace' (hbefore.create _ _).wait).imp
        fun reply trace'' hprobe => ?_
      exact hprobe.done (hbefore.create _ _)
  refine hreply.bind fun reply trace' htrace' hdone => ?_
  refine (obeys_remove htrace' (within_probe root)).bind fun _ trace'' htrace'' heq => ?_
  subst heq
  exact obeys_pure htrace'' hdone

/-- What `initialize` decides: which mode is in force, by whether a probe could be attached. -/
structure Decided (requested : ProcessTreeMode) (root : Text) (initialized : Initialized)
    (trace : List TreeCall) : Prop where
  ok : initialized.ok = true ↔ requested ≠ .cgroup ∨ Probed root trace
  cgroup : Probed root trace → requested ≠ .processGroup ∧ Cleared root trace ∧
    initialized.controller.effectiveMode = .cgroup ∧
    initialized.controller.backend = some (.cgroupV2 root)
  fallBack : ¬Probed root trace → initialized.ok = true →
    initialized.controller.effectiveMode = .processGroup ∧
    initialized.controller.backend = some .processGroup
  degraded : initialized.ok = true →
    (initialized.controller.degraded = true ↔ requested = .autoDetect ∧ ¬Probed root trace)
  reaped : Reaped trace

theorem decided_fallBack (hrequested : requested ≠ .processGroup) (hprobed : ¬Probed root trace)
    (hreaped : Reaped trace) (kept reason : Text) :
    Decided requested root (fallBack requested kept reason) trace := by
  cases requested with
  | autoDetect =>
    exact {
      ok := ⟨fun _ => .inl (by decide), fun _ => rfl⟩
      cgroup := fun h => absurd h hprobed
      fallBack := fun _ _ => ⟨rfl, rfl⟩
      degraded := fun _ => ⟨fun _ => ⟨rfl, hprobed⟩, fun _ => rfl⟩
      reaped := hreaped }
  | cgroup =>
    exact {
      ok := ⟨fun h => (by cases h), fun h => h.elim (fun hne => absurd rfl hne) (absurd · hprobed)⟩
      cgroup := fun h => absurd h hprobed
      fallBack := fun _ h => (by cases h)
      degraded := fun h => (by cases h)
      reaped := hreaped }
  | processGroup => exact absurd rfl hrequested

theorem Reaped.extends (h : Reaped trace) (hextends : Extends trace trace') : Reaped trace' := by
  intro pid hpid
  have hbefore : .fork (some pid) ∈ trace := by
    obtain ⟨more, rfl, hmore⟩ := hextends
    exact (List.mem_append.1 hpid).resolve_right (hmore _)
  exact ⟨hextends.mem (h pid hbefore).1, hextends.mem (h pid hbefore).2⟩

theorem obeys_initializeIn (h : Disciplined (Allowed root started) trace)
    (hbefore : Unprobed root trace) (hrequested : requested ≠ .processGroup) :
    Obeys (Allowed root started)
      (fun initialized trace' => Decided requested root initialized trace')
      (initializeIn sys requested root) trace := by
  refine (obeys_create h (.inl rfl)).bind fun reply t₁ ht₁ heq => ?_
  subst heq
  have hcreated := hbefore.create root reply.toBool
  cases reply with
  | error reason =>
    refine obeys_pure ht₁ (decided_fallBack hrequested ?_ ?_ _ _)
    · exact fun ⟨pid, hpid⟩ => hcreated.attach pid true hpid
    · exact fun pid hpid => absurd hpid (hcreated.fork pid)
  | ok value =>
    refine (obeys_probeGroup ht₁ hcreated).bind fun reply t₂ ht₂ hdone => ?_
    cases reply with
    | error reason =>
      refine (obeys_failedReason ht₂ hdone reason).bind fun text t₃ ht₃ hdone' => ?_
      refine (obeys_remove ht₃ (.inl rfl)).bind fun _ t₄ ht₄ heq => ?_
      subst heq
      have hend : ProbeDone root false (t₃ ++ [TreeCall.removeGroup root]) :=
        hdone'.snoc (fun _ heq => by cases heq) fun _ _ _ heq => by cases heq
      exact obeys_pure ht₄ (decided_fallBack hrequested (fun hp => by cases hend.probed.2 hp)
        hend.reaped _ _)
    | ok value =>
      refine (obeys_clearRoot ht₂).bind fun _ t₃ ht₃ hcleared => ?_
      have hprobed : Probed root t₃ := by
        obtain ⟨pid, hpid⟩ := hdone.probed.1 rfl
        exact ⟨pid, hcleared.1.mem hpid⟩
      refine obeys_pure ht₃ {
        ok := ⟨fun _ => .inr hprobed, fun _ => rfl⟩
        cgroup := fun _ => ⟨hrequested, hcleared.2, rfl, rfl⟩
        fallBack := fun hnot => absurd hprobed hnot
        degraded := fun _ => ⟨fun hdegraded => ?_, fun hnot => absurd hprobed hnot.2⟩
        reaped := hdone.reaped.extends hcleared.1 }
      exact absurd rfl (of_decide_eq_true hdegraded).2

theorem obeys_initializeTree (requested : ProcessTreeMode) (configuredRoot instanceKey : Text)
    (hroot : root = instanceRoot configuredRoot instanceKey) :
    Obeys (Allowed root started)
      (fun initialized trace' => Decided requested root initialized trace')
      (initializeTree sys requested configuredRoot instanceKey) [] := by
  subst hroot
  have hprobed : ∀ root, ¬Probed root [] := fun root ⟨pid, hpid⟩ => by cases hpid
  rw [initializeTree]
  split
  · rename_i hgroup
    subst hgroup
    exact obeys_pure disciplined_nil {
      ok := ⟨fun _ => .inl (by decide), fun _ => rfl⟩
      cgroup := fun h => absurd h (hprobed _)
      fallBack := fun _ _ => ⟨rfl, rfl⟩
      degraded := fun _ => ⟨fun h => (by cases h), fun h => (by cases h.1)⟩
      reaped := fun _ hpid => (by cases hpid) }
  · rename_i hrequested
    have hask : Obeys (Allowed (instanceRoot configuredRoot instanceKey) started)
        (fun _ trace' => trace' = [.isV2Available (baseRoot configuredRoot)])
        (sys.available (baseRoot configuredRoot)) [] :=
      obeys_traced disciplined_nil fun _ => ⟨trivial, rfl⟩
    refine hask.bind fun available trace' htrace' heq => ?_
    subst heq
    split
    · refine obeys_initializeIn htrace' ?_ hrequested
      exact ⟨fun pid => by simp, fun pid ok => by simp, fun pid => by simp⟩
    · refine obeys_pure htrace' (decided_fallBack hrequested ?_ ?_ _ _)
      · rintro ⟨pid, hpid⟩
        simp at hpid
      · intro pid hpid
        simp at hpid

/-- A handle is for a group of the daemon's, or for a process group that it has started. -/
def Held (root : Text) (started : Nat → Prop) (backend : Option Backend)
    (handle : ProcessTreeHandle) : Prop :=
  match backend with
  | some (.cgroupV2 _) => handle.active = true ∨ handle.cgroupPath ≠ [] →
      Within root handle.cgroupPath
  | some .processGroup => handle.active = true → 0 < handle.pgid →
      ∃ leader : Nat, 0 < leader ∧ handle.pgid = leader ∧ started leader
  | none => True

theorem held_empty (root : Text) (started : Nat → Prop) (backend : Option Backend) :
    Held root started backend {} := by
  cases backend with
  | none => trivial
  | some backend =>
    cases backend with
    | processGroup => exact fun h => by cases h
    | cgroupV2 group => exact fun h => by rcases h with h | h <;> exact absurd h (by decide)

def Rooted (root : Text) (c : Controller) : Prop :=
  ∀ group, c.backend = some (.cgroupV2 group) → group = root

theorem obeys_attach {c : Controller} (h : Disciplined (Allowed root started) trace)
    (hrooted : Rooted root c) (pid : Nat) (hstarted : started pid) :
    Obeys (Allowed root started)
      (fun reply _ => ∀ handle, reply = .ok handle → Held root started c.backend handle)
      (attach sys c pid) trace := by
  rw [attach]
  cases hbackend : c.backend with
  | none => exact obeys_pure h fun _ _ => trivial
  | some backend =>
    cases backend with
    | processGroup =>
      refine obeys_pure h fun handle heq => ?_
      cases heq
      exact fun _ hpositive => ⟨pid, by simpa using hpositive, rfl, hstarted⟩
    | cgroupV2 group =>
      obtain rfl := hrooted group hbackend
      refine (obeys_create h (within_app group pid)).bind fun reply t₁ ht₁ heq => ?_
      cases reply with
      | error reason => exact obeys_pure ht₁ fun _ heq => by cases heq
      | ok value =>
        have hattach : Obeys (Allowed group started) (fun _ _ => True)
            (sys.attach (appGroup group pid) pid) t₁ :=
          obeys_traced ht₁ fun _ => ⟨.inr ⟨rfl, hstarted⟩, trivial⟩
        refine hattach.bind fun reply t₂ ht₂ _ => ?_
        cases reply with
        | error reason =>
          refine (obeys_remove ht₂ (within_app group pid)).bind fun _ t₃ ht₃ _ => ?_
          exact obeys_pure ht₃ fun _ heq => by cases heq
        | ok value =>
          refine obeys_pure ht₂ fun handle heq => ?_
          cases heq
          exact fun _ => within_app group pid

theorem obeys_killGroupOf (h : Disciplined (Allowed root started) trace)
    (hheld : Held root started (some .processGroup) handle)
    (hactive : ¬(!handle.active || decide (handle.pgid ≤ 0)) = true) (signo : Int) :
    Obeys (Allowed root started) (fun _ _ => True) (sys.killProcess (-handle.pgid) signo)
      trace := by
  rw [Bool.or_eq_true, not_or, Bool.not_eq_true', Bool.not_eq_false, decide_eq_true_iff,
    not_le] at hactive
  obtain ⟨leader, hpositive, hpgid, hstarted⟩ := hheld hactive.1 hactive.2
  exact obeys_traced h fun _ => ⟨.inr ⟨leader, hpositive, by rw [hpgid], hstarted⟩, trivial⟩

theorem obeys_collectHeld (h : Disciplined (Allowed root started) trace)
    (hheld : Held root started (some (.cgroupV2 group)) handle)
    (hactive : handle.active = true) :
    Obeys (Allowed root started)
      (fun reply trace' =>
        trace' = trace ++ [TreeCall.collectPids handle.cgroupPath reply.toOption])
      (sys.collect handle.cgroupPath) trace :=
  obeys_collect h (hheld (.inl hactive))

theorem obeys_signal {c : Controller} (h : Disciplined (Allowed root started) trace)
    (hheld : Held root started c.backend handle) (signo : Int) :
    Obeys (Allowed root started) (fun _ _ => True) (signal sys c handle signo) trace := by
  rw [signal]
  cases hbackend : c.backend with
  | none => exact obeys_pure h trivial
  | some backend =>
    rw [hbackend] at hheld
    cases backend with
    | processGroup =>
      dsimp only
      rw [groupSignal]
      split
      · exact obeys_pure h trivial
      · rename_i hactive
        exact obeys_killGroupOf h hheld hactive signo
    | cgroupV2 group =>
      dsimp only
      rw [cgroupSignal]
      split
      · exact obeys_pure h trivial
      · rename_i hactive
        refine (obeys_collectHeld h hheld (by simpa using hactive)).bind fun reply t₁ ht₁ heq => ?_
        subst heq
        cases reply with
        | error reason => exact obeys_pure ht₁ trivial
        | ok pids =>
          have hlatest : ∀ pid ∈ pids, pid ∈
              latest (trace ++ [TreeCall.collectPids handle.cgroupPath (some pids)]) := by
            rw [latest_collect]
            exact fun _ hpid => hpid
          exact (obeys_signalPids ht₁ signo none pids hlatest).imp fun _ _ _ => trivial

theorem obeys_contains {c : Controller} (h : Disciplined (Allowed root started) trace)
    (hheld : Held root started c.backend handle) (pid : Int) :
    Obeys (Allowed root started) (fun _ _ => True) (contains sys c handle pid) trace := by
  rw [contains]
  cases hbackend : c.backend with
  | none => exact obeys_pure h trivial
  | some backend =>
    rw [hbackend] at hheld
    cases backend with
    | processGroup =>
      dsimp only
      rw [groupContains]
      split
      · exact obeys_pure h trivial
      · have hask : Obeys (Allowed root started) (fun _ _ => True) (sys.groupOf pid) trace :=
          obeys_traced h fun _ => ⟨trivial, trivial⟩
        refine hask.bind fun reply t₁ ht₁ _ => ?_
        cases reply <;> exact obeys_pure ht₁ trivial
    | cgroupV2 group =>
      dsimp only
      rw [cgroupContains]
      split
      · exact obeys_pure h trivial
      · rename_i hactive
        rw [Bool.or_eq_true, not_or, Bool.not_eq_true', Bool.not_eq_false] at hactive
        refine (obeys_collectHeld h hheld hactive.1).bind fun reply t₁ ht₁ _ => ?_
        cases reply <;> exact obeys_pure ht₁ trivial

theorem obeys_empty {c : Controller} (h : Disciplined (Allowed root started) trace)
    (hheld : Held root started c.backend handle) :
    Obeys (Allowed root started) (fun _ _ => True) (empty sys c handle) trace := by
  rw [empty]
  cases hbackend : c.backend with
  | none => exact obeys_pure h trivial
  | some backend =>
    rw [hbackend] at hheld
    cases backend with
    | processGroup =>
      dsimp only
      rw [groupEmpty]
      split
      · exact obeys_pure h trivial
      · rename_i hactive
        refine (obeys_killGroupOf h hheld hactive 0).bind fun reply t₁ ht₁ _ => ?_
        cases reply <;> exact obeys_pure ht₁ trivial
    | cgroupV2 group =>
      dsimp only
      rw [cgroupEmpty]
      split
      · exact obeys_pure h trivial
      · rename_i hactive
        refine (obeys_collectHeld h hheld (by simpa using hactive)).bind fun reply t₁ ht₁ _ => ?_
        cases reply <;> exact obeys_pure ht₁ trivial

/-- Where the system answers as the files of the groups say, the backend answers as the walk over
them does. -/
theorem run_cgroupEmpty {fs : CgroupFs} {path : String} (s : Traced ω)
    (hcollect : (sys.collectPids handle.cgroupPath s.world).2.toOption =
      (collectPids fs path).toOption.map (·.pids)) :
    ((cgroupEmpty sys handle).run s).2 = PmTiny.cgroupEmpty fs ⟨handle.active, path⟩ := by
  rw [cgroupEmpty, PmTiny.cgroupEmpty]
  cases hactive : handle.active with
  | false => rfl
  | true =>
    rw [Bool.not_true, if_neg Bool.false_ne_true, Program.run_bind, if_pos rfl]
    have hreply : ((sys.collect handle.cgroupPath).run s).2 =
        (sys.collectPids handle.cgroupPath s.world).2 := rfl
    rw [hreply]
    cases hpids : (sys.collectPids handle.cgroupPath s.world).2 with
    | error reason =>
      cases hwalk : collectPids fs path with
      | error what => rfl
      | ok walk =>
        rw [hpids, hwalk] at hcollect
        cases hcollect
    | ok pids =>
      cases hwalk : collectPids fs path with
      | error what =>
        rw [hpids, hwalk] at hcollect
        cases hcollect
      | ok walk =>
        rw [hpids, hwalk] at hcollect
        cases hcollect
        rfl

theorem obeys_cleanup {c : Controller} (h : Disciplined (Allowed root started) trace)
    (hheld : Held root started c.backend handle) :
    Obeys (Allowed root started) (fun handle' _ => handle' = {}) (cleanup sys c handle) trace := by
  rw [cleanup]
  split
  · rename_i group hbackend
    rw [hbackend] at hheld
    rw [cgroupCleanup]
    split
    · exact obeys_pure h rfl
    · rename_i hpath
      refine (obeys_removeIfEmpty h (hheld (.inr hpath))).bind fun _ t₁ ht₁ _ => ?_
      exact obeys_pure ht₁ rfl
  · exact obeys_pure h rfl

def AllHeld (root : Text) (started : Nat → Prop) (c : Controller)
    (handles : List ProcessTreeHandle) : Prop :=
  ∀ handle ∈ handles, Held root started c.backend handle

theorem AllHeld.getD {c : Controller} (h : AllHeld root started c handles) (index : Nat) :
    Held root started c.backend (handles.getD index {}) := by
  rw [List.getD_eq_getElem?_getD]
  cases hget : handles[index]? with
  | none => exact held_empty root started c.backend
  | some handle => exact h handle (List.mem_of_getElem? hget)

theorem obeys_perform {c : Controller} (h : Disciplined (Allowed root started) trace)
    (hrooted : Rooted root c) (hheld : AllHeld root started c handles) (op : TreeOp)
    (hstarted : ∀ pid, op = .attach pid → started pid) :
    Obeys (Allowed root started) (fun handles' _ => AllHeld root started c handles')
      (perform sys c handles op) trace := by
  cases op with
  | attach pid =>
    refine (obeys_attach h hrooted pid (hstarted pid rfl)).bind fun reply t₁ ht₁ hreply => ?_
    cases reply with
    | error reason => exact obeys_pure ht₁ hheld
    | ok handle =>
      refine obeys_pure ht₁ fun other hother => ?_
      rcases List.mem_append.1 hother with hother | hother
      · exact hheld other hother
      · cases List.mem_singleton.1 hother
        exact hreply handle rfl
  | signal index signo =>
    exact (obeys_signal h (hheld.getD index) signo).bind fun _ t₁ ht₁ _ => obeys_pure ht₁ hheld
  | contains index pid =>
    exact (obeys_contains h (hheld.getD index) pid).bind fun _ t₁ ht₁ _ => obeys_pure ht₁ hheld
  | empty index =>
    exact (obeys_empty h (hheld.getD index)).bind fun _ t₁ ht₁ _ => obeys_pure ht₁ hheld
  | cleanup index =>
    refine (obeys_cleanup h (hheld.getD index)).bind fun handle t₁ ht₁ heq => ?_
    subst heq
    refine obeys_pure ht₁ fun other hother => ?_
    rcases List.mem_or_eq_of_mem_set hother with hother | rfl
    · exact hheld other hother
    · exact held_empty root started c.backend

theorem obeys_performAll {c : Controller} (h : Disciplined (Allowed root started) trace)
    (hrooted : Rooted root c) (hheld : AllHeld root started c handles) (ops : List TreeOp)
    (hstarted : ∀ pid, .attach pid ∈ ops → started pid) :
    Obeys (Allowed root started) (fun handles' _ => AllHeld root started c handles')
      (performAll sys c ops handles) trace := by
  induction ops generalizing handles trace with
  | nil => exact obeys_pure h hheld
  | cons op ops ih =>
    refine (obeys_perform h hrooted hheld op fun pid heq => ?_).bind
      fun handles' t₁ ht₁ hheld' => ?_
    · exact hstarted pid (heq ▸ List.mem_cons_self)
    · exact ih ht₁ hheld' fun pid hpid => hstarted pid (List.mem_cons_of_mem _ hpid)

theorem obeys_daemon (requested : ProcessTreeMode) (configuredRoot instanceKey : Text)
    (ops : List TreeOp) (hroot : root = instanceRoot configuredRoot instanceKey)
    (hstarted : ∀ pid, .attach pid ∈ ops → started pid) :
    Obeys (Allowed root started) (fun _ _ => True)
      (daemon sys requested configuredRoot instanceKey ops) [] := by
  refine (obeys_initializeTree requested configuredRoot instanceKey hroot).bind
    fun initialized t₁ ht₁ hdecided => ?_
  split
  · rename_i hok
    have hrooted : Rooted root initialized.controller := by
      intro group hgroup
      by_cases hprobed : Probed root t₁
      · rw [(hdecided.cgroup hprobed).2.2.2] at hgroup
        cases hgroup
        rfl
      · rw [(hdecided.fallBack hprobed hok).2] at hgroup
        cases hgroup
    have hnone : AllHeld root started initialized.controller [] := fun _ hmem => by cases hmem
    exact (obeys_performAll ht₁ hrooted hnone ops hstarted).imp fun _ _ _ => trivial
  · exact obeys_pure ht₁ trivial

end

/-- Groups and who is in them, as the test of the backend has them. -/
structure Hierarchy where
  groups : List (Text × List Int) := []
  nextPid : Nat := 100

def under (group path : Text) : Bool := path == group || (group ++ [slash]).isPrefixOf path

def childOf (group path : Text) : Bool :=
  (group ++ [slash]).isPrefixOf path && !(path.drop (group.length + 1)).contains slash

/-- A hierarchy that refuses nothing. -/
def hierarchy : System Hierarchy where
  isV2Available := fun _ w => (w, true)
  createGroup := fun path w =>
    (if w.groups.any (·.1 == path) then w else { w with groups := w.groups ++ [(path, [])] },
      .ok ())
  attachPid := fun group pid w =>
    ({ w with groups := w.groups.map fun entry =>
        if entry.1 = group then (group, entry.2 ++ [(pid : Int)]) else entry }, .ok ())
  collectPids := fun group w =>
    (w, .ok ((w.groups.filter (under group ·.1)).flatMap (·.2)))
  listChildGroups := fun group w => (w, .ok ((w.groups.map (·.1)).filter (childOf group)))
  removeGroup := fun path w => ({ w with groups := w.groups.filter (!under path ·.1) }, .ok ())
  signalPid := fun pid signo w =>
    (if signo = sigkill then
      { w with groups := w.groups.map fun entry => (entry.1, entry.2.filter (· ≠ pid)) }
    else w, none)
  fork := fun w => ({ w with nextPid := w.nextPid + 1 }, some w.nextPid)
  kill := fun _ _ w => (w, none)
  waitpid := fun _ w => (w, ())
  getpgid := fun _ w => (w, none)
  strerror := fun w => (w, [])
  children := fun group w groups hgroups child hchild => by
    cases hgroups
    have hof := List.of_mem_filter hchild
    rw [childOf, Bool.and_eq_true, List.isPrefixOf_iff_prefix] at hof
    obtain ⟨name, rfl⟩ := hof.1
    exact ⟨name, by rw [List.append_assoc, List.singleton_append]⟩

section
variable {ω : Type} (sys : System ω) (world : ω) (requested : ProcessTreeMode)
  (configuredRoot instanceKey : Text)

theorem confined (ops : List TreeOp) {s : Traced ω}
    (h : Leaves (daemon sys requested configuredRoot instanceKey ops) { world := world } s) :
    Disciplined (Allowed (instanceRoot configuredRoot instanceKey) fun pid => .attach pid ∈ ops)
      s.trace :=
  ((obeys_daemon requested configuredRoot instanceKey ops rfl fun _ hpid => hpid) _ trivial
    rfl).leaves h |>.2

theorem decides :
    Decided requested (instanceRoot configuredRoot instanceKey)
      ((initializeTree sys requested configuredRoot instanceKey).run { world := world }).2
      ((initializeTree sys requested configuredRoot instanceKey).run { world := world }).1.trace :=
  have hobeys : Obeys (Allowed (instanceRoot configuredRoot instanceKey) fun _ => False) _
      (initializeTree sys requested configuredRoot instanceKey) [] :=
    obeys_initializeTree requested configuredRoot instanceKey rfl
  (hobeys _ trivial rfl).run.2

/-- Whatever the system answers, and wherever the daemon is killed, its calls have kept to the
groups at its root, to who it has just found in them, to its probe while that was alive, and to the
process groups of what it has started. -/
theorem daemon_confined (ops : List TreeOp) {s : Traced ω}
    (h : Leaves (daemon sys requested configuredRoot instanceKey ops) { world := world } s) :
    Disciplined (Allowed (instanceRoot configuredRoot instanceKey) fun pid => .attach pid ∈ ops)
      s.trace :=
  confined sys world requested configuredRoot instanceKey ops h

/-- A daemon that starts one program, kills its tree and drops the group. -/
def oneProgram : List TreeOp := [.attach 7, .signal 0 sigkill, .empty 0, .cleanup 0]

theorem daemon_confined_program : ∃ s,
    Leaves (daemon hierarchy .cgroup [] (utf8 "/var/pm_tiny.lock") oneProgram) { world := {} } s ∧
      Disciplined (Allowed (instanceRoot [] (utf8 "/var/pm_tiny.lock")) fun pid =>
        .attach pid ∈ oneProgram) s.trace ∧ .signalPid 7 sigkill ∈ s.trace :=
  ⟨_, .run _ _, daemon_confined hierarchy {} .cgroup [] (utf8 "/var/pm_tiny.lock") oneProgram
    (.run _ _), by decide +kernel⟩

/-- `initialize` ends in the mode that it was asked for or falls back, by whether a process could be
attached to a group below the root; in cgroup mode it has cleared what an earlier daemon had left
there; and no probe is left behind. -/
theorem initialize_decides :
    Decided requested (instanceRoot configuredRoot instanceKey)
      ((initializeTree sys requested configuredRoot instanceKey).run { world := world }).2
      ((initializeTree sys requested configuredRoot instanceKey).run { world := world }).1.trace :=
  decides sys world requested configuredRoot instanceKey

end

/-- The group that a call is about. -/
def TreeCall.group : TreeCall → Option Text
  | .createGroup path _ => some path
  | .removeGroup path => some path
  | .attachPid group _ _ => some group
  | .collectPids group _ => some group
  | .listChildGroups group _ => some group
  | _ => none

theorem slash_not_mem_sanitize (value : Text) : slash ∉ sanitize value := by
  have hname : ∀ c ∈ value.map (fun c => if isNameByte c then c else 95), c ≠ slash := by
    intro c hc
    obtain ⟨before, -, rfl⟩ := List.mem_map.1 hc
    split
    · rename_i hname
      rintro rfl
      exact absurd hname (by decide)
    · decide
  intro hmem
  have hmem' := List.mem_of_mem_take hmem
  split at hmem'
  · exact absurd hmem' (by decide +kernel)
  · exact hname slash hmem' rfl

def Below (rest : Text) : Prop := rest = [] ∨ ∃ more, rest = slash :: more

theorem Within.below (h : Within root path) : ∃ rest, path = root ++ rest ∧ Below rest := by
  rcases h with rfl | ⟨rest, rfl⟩
  · exact ⟨[], (List.append_nil _).symm, .inl rfl⟩
  · exact ⟨slash :: rest, rfl, .inr ⟨rest, rfl⟩⟩

theorem Below.append (h : Below rest) (h' : Below rest') : Below (rest ++ rest') := by
  rcases h with rfl | ⟨more, rfl⟩
  · exact h'
  · exact .inr ⟨more ++ rest', rfl⟩

theorem takeWhile_name (hname : slash ∉ name) (h : Below rest) :
    (name ++ rest).takeWhile (· ≠ slash) = name := by
  have hall : ∀ c ∈ name, decide (c ≠ slash) = true := fun c hc =>
    decide_eq_true fun heq => hname (heq ▸ hc)
  rw [List.takeWhile_append_of_pos hall]
  rcases h with rfl | ⟨more, rfl⟩
  · rw [List.takeWhile_nil, List.append_nil]
  · rw [List.takeWhile_cons_of_neg (by simp), List.append_nil]

theorem not_within (hbase : baseRoot configured = baseRoot configured')
    (hnames : sanitize key ≠ sanitize key') (hpath : Within (instanceRoot configured key) path)
    (hpath' : Within (instanceRoot configured' key') path') : ¬Within path path' := by
  intro hwithin
  obtain ⟨rest, rfl, hrest⟩ := hpath.below
  obtain ⟨rest', rfl, hrest'⟩ := hpath'.below
  obtain ⟨more, heq, hmore⟩ := hwithin.below
  rw [instanceRoot, instanceRoot, hbase, List.append_assoc, List.append_assoc, List.append_assoc,
    List.append_assoc, List.append_assoc, List.append_cancel_left_eq, List.append_cancel_left_eq]
    at heq
  have htake := congrArg (List.takeWhile (· ≠ slash)) heq
  rw [takeWhile_name (slash_not_mem_sanitize key') hrest', ← List.append_assoc, List.append_assoc,
    takeWhile_name (slash_not_mem_sanitize key) (hrest.append hmore)] at htake
  exact hnames htake.symm

theorem within_of_disciplined (h : Disciplined (Allowed root started) trace) (hcall : call ∈ trace)
    (hgroup : call.group = some path) : Within root path := by
  obtain ⟨before, after, rfl⟩ := List.append_of_mem hcall
  have hallowed := h before call after rfl
  cases call with
  | createGroup other ok => cases hgroup; exact hallowed
  | removeGroup other => cases hgroup; exact hallowed
  | attachPid group pid ok =>
    cases hgroup
    rcases hallowed with ⟨rfl, -⟩ | ⟨rfl, -⟩
    · exact within_probe root
    · exact within_app root pid
  | collectPids group pids => cases hgroup; exact hallowed
  | listChildGroups group groups => cases hgroup; exact .inl hallowed
  | isV2Available root => cases hgroup
  | signalPid pid signo => cases hgroup
  | fork pid => cases hgroup
  | kill pid signo => cases hgroup
  | waitpid pid => cases hgroup
  | getpgid pid => cases hgroup
  | strerror => cases hgroup

/-- Two daemons whose instance names differ never work on the same group, nor on one above or below
a group of the other, whatever they do and wherever they are killed. -/
theorem daemons_apart {ω ω' : Type} (sys : System ω) (sys' : System ω') (world : ω) (world' : ω')
    (requested requested' : ProcessTreeMode) (configured configured' key key' : Text)
    (ops ops' : List TreeOp) {s : Traced ω} {s' : Traced ω'}
    (h : Leaves (daemon sys requested configured key ops) { world := world } s)
    (h' : Leaves (daemon sys' requested' configured' key' ops') { world := world' } s')
    (hbase : baseRoot configured = baseRoot configured') (hnames : sanitize key ≠ sanitize key') :
    ∀ call ∈ s.trace, ∀ call' ∈ s'.trace, ∀ path path', call.group = some path →
      call'.group = some path' → ¬Within path path' ∧ ¬Within path' path := by
  intro call hcall call' hcall' path path' hpath hpath'
  have hwithin := within_of_disciplined (confined sys world requested configured key ops h)
    hcall hpath
  have hwithin' := within_of_disciplined
    (confined sys' world' requested' configured' key' ops' h') hcall' hpath'
  exact ⟨not_within hbase hnames hwithin hwithin',
    not_within hbase.symm hnames.symm hwithin' hwithin⟩

theorem daemons_apart_homes : ∃ s s' : Traced Hierarchy,
    (∀ call ∈ s.trace, ∀ call' ∈ s'.trace, ∀ path path', call.group = some path →
      call'.group = some path' → ¬Within path path' ∧ ¬Within path' path) ∧
    s.trace.length = 16 ∧ s'.trace.length = 16 :=
  ⟨_, _, daemons_apart hierarchy hierarchy {} {} .cgroup .cgroup [] [] (utf8 "/home/a/lock")
    (utf8 "/home/b/lock") oneProgram oneProgram (.run _ _) (.run _ _) rfl (by decide +kernel),
    by decide +kernel, by decide +kernel⟩

theorem slash_not_mem_decimal (n : Nat) : slash ∉ decimal n := by
  intro hmem
  obtain ⟨c, hc, heq⟩ := List.mem_map.1 hmem
  have hdigit : c.isDigit = true := Nat.isDigit_of_mem_toDigits (by decide) (by decide) hc
  have hrange : 48 ≤ c.toNat ∧ c.toNat ≤ 57 := by
    simpa [Char.isDigit, UInt32.le_iff_toNat_le] using hdigit
  have hbyte := congrArg UInt8.toNat heq
  rw [UInt8.toNat_ofNat', show slash.toNat = 47 from rfl] at hbyte
  omega

theorem isAppGroup_appGroup (root : Text) (pid : Nat) : isAppGroup (appGroup root pid) = true := by
  have hname : slash ∉ utf8 "app-" ++ decimal pid := by
    rw [List.mem_append, not_or]
    exact ⟨by decide +kernel, slash_not_mem_decimal pid⟩
  have hsplit : utf8 "/app-" = slash :: utf8 "app-" := by decide +kernel
  have hbase : baseName (appGroup root pid) = utf8 "app-" ++ decimal pid := by
    rw [appGroup, hsplit, baseName, List.append_assoc, List.cons_append, List.reverse_append,
      List.reverse_cons, List.append_assoc, takeWhile_name (fun h => hname (List.mem_reverse.1 h)),
      List.reverse_reverse]
    exact .inr ⟨root.reverse, rfl⟩
  rw [isAppGroup, hbase]
  exact List.isPrefixOf_iff_prefix.2 (List.prefix_append _ _)

/-- A daemon whose instance name is that of another, on the same base, takes the other's groups for
what an earlier daemon has left: each that it lists is looked at, and who is found there is
killed. -/
theorem namesake_killed {ω : Type} (sys : System ω) (world : ω) (requested : ProcessTreeMode)
    (configured key key' : Text) {s : Traced ω}
    (hs : ((initializeTree sys requested configured key').run { world := world }).1 = s)
    (hnames : sanitize key = sanitize key')
    (hprobed : Probed (instanceRoot configured key') s.trace) :
    ∃ reply, .listChildGroups (instanceRoot configured key) reply ∈ s.trace ∧
      ∀ groups ∈ reply, ∀ pid, appGroup (instanceRoot configured key) pid ∈ groups →
        Killed (appGroup (instanceRoot configured key) pid) s.trace := by
  subst hs
  have hroot : instanceRoot configured key = instanceRoot configured key' := by
    rw [instanceRoot, instanceRoot, hnames]
  obtain ⟨reply, hreply, hkilled⟩ :=
    ((decides sys world requested configured key').cgroup hprobed).2.1
  rw [hroot]
  exact ⟨reply, hreply, fun groups hgroups pid hpid =>
    hkilled groups hgroups _ hpid (isAppGroup_appGroup _ pid)⟩

/-- Two lock files that differ from the 49th byte on, and a group of the first daemon. -/
def elderKey : Text := utf8 "/data/local/tmp/project/services/pm_tiny/instance/elder.lock"
def youngerKey : Text := utf8 "/data/local/tmp/project/services/pm_tiny/instance/younger.lock"
def elderGroups : Hierarchy where
  groups := [(instanceRoot [] elderKey, []), (appGroup (instanceRoot [] elderKey) 7, [7, 8])]

theorem namesake_killed_younger :
    let s := ((initializeTree hierarchy .autoDetect [] youngerKey).run { world := elderGroups }).1
    (∃ reply, .listChildGroups (instanceRoot [] elderKey) reply ∈ s.trace ∧
      ∀ groups ∈ reply, ∀ pid, appGroup (instanceRoot [] elderKey) pid ∈ groups →
        Killed (appGroup (instanceRoot [] elderKey) pid) s.trace) ∧
    elderKey ≠ youngerKey ∧ .signalPid 7 sigkill ∈ s.trace ∧ .signalPid 8 sigkill ∈ s.trace :=
  ⟨namesake_killed hierarchy elderGroups .autoDetect [] elderKey youngerKey rfl (by decide +kernel)
    ⟨100, by decide +kernel⟩, by decide +kernel, by decide +kernel, by decide +kernel⟩

end PmTiny.ProcessTree
