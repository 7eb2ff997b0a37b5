import PmTiny.Windows.Readiness

namespace PmTiny.Windows
set_option autoImplicit true

variable {s s' : Daemon} {ω : System}

open Daemon

def NamesValid (configs : List ProgramConfig) : Prop :=
  ∀ cfg ∈ configs, isValidProgramName cfg.name = true

theorem mem_insertConfig (h : c ∈ insertConfig cfg l) : c = cfg ∨ c ∈ l := by
  induction l with
  | nil => exact .inl (List.mem_singleton.1 h)
  | cons entry entries ih =>
    rw [insertConfig] at h
    split at h
    · exact (List.mem_cons.1 h).imp_right (List.mem_cons_of_mem entry)
    · split at h
      · exact List.mem_cons.1 h
      · rcases List.mem_cons.1 h with rfl | h
        · exact .inr List.mem_cons_self
        · exact (ih h).imp_right (List.mem_cons_of_mem entry)

theorem NamesValid.insert (h : NamesValid l) (hcfg : isValidProgramName cfg.name = true) :
    NamesValid (insertConfig cfg l) := by
  intro c hc
  rcases mem_insertConfig hc with rfl | hc
  · exact hcfg
  · exact h c hc

theorem NamesValid.erase (h : NamesValid l) (n : String) : NamesValid (eraseConfig n l) :=
  fun c hc => h c (List.mem_of_mem_filter hc)

theorem mem_configMapOf (h : c ∈ configMapOf l) : c ∈ l := by
  have hfold : ∀ (l entries : List ProgramConfig),
      c ∈ l.foldl (fun entries cfg => insertConfig cfg entries) entries → c ∈ l ∨ c ∈ entries := by
    intro l
    induction l with
    | nil => exact fun entries h => .inr h
    | cons cfg l ih =>
      intro entries h
      rcases ih _ h with hold | hnew
      · exact .inl (List.mem_cons_of_mem cfg hold)
      · rcases mem_insertConfig hnew with rfl | hold
        · exact .inl List.mem_cons_self
        · exact .inr hold
  exact (hfold l [] h).resolve_right List.not_mem_nil

theorem NamesValid.configMapOf (h : NamesValid l) : NamesValid (configMapOf l) :=
  fun c hc => h c (mem_configMapOf hc)

theorem loadProgramConfigs_valid (h : loadProgramConfigs ω t = .ok programs) :
    NamesValid programs := by
  rw [loadProgramConfigs] at h
  split at h
  · cases h
  · split at h
    · cases h
    · rename_i checked _
      rw [Persist.orderProgCfgs] at h
      split at h
      · cases h
      · rename_i hvalid
        split at h
        · cases h
        · cases h
          intro cfg hcfg
          obtain ⟨id, -, hid⟩ := List.mem_filterMap.1 hcfg
          have hmem := List.mem_of_getElem? hid
          rw [validateAndOrderProgCfgs] at hvalid
          split at hvalid
          · cases hvalid
          · rename_i hnames
            have hname := List.findSome?_eq_none_iff.1 hnames _ (List.mem_map_of_mem hmem)
            split at hname
            · assumption
            · cases hname

/-- The event is no create request, or one for a valid name. -/
def Event.createsValid (e : Event) : Bool :=
  match e.call with
  | .request (.start r) => r.mode ≠ .create || isValidProgramName r.name
  | _ => true

/-- The definitions in force and those that wait for a reload have valid names. -/
structure Daemon.Named (s : Daemon) : Prop where
  configMap : NamesValid s.configMap
  reloadPrograms : NamesValid s.reloadPrograms
  request : ∀ r, s.request = some (.start r) → r.mode = .create → isValidProgramName r.name = true

theorem Daemon.Fresh.named (h : s.Fresh) : s.Named := by
  obtain ⟨ω, t, programs, hload, hmap, -⟩ := h.configMap
  refine ⟨?_, ?_, fun r hr => ?_⟩
  · rw [hmap]
    exact (loadProgramConfigs_valid hload).configMapOf
  · rw [h.reloadPrograms]
    simp [NamesValid]
  · rw [h.idle.request] at hr
    cases hr

/-- A move that only a create request for an invalid name could make is the one exception. -/
theorem Daemon.Named.move (hs : s.Named) (hm : Move s s')
    (hK : ∀ e ∈ s'.history, e.createsValid = true) : s'.Named := by
  have hrequest : ∀ r, s'.request = some (.start r) → r.mode = .create →
      isValidProgramName r.name = true := by
    intro r hr hmode
    rcases hm.request_eq with he | he | ⟨request, he, hmem⟩
    · exact hs.request r (he ▸ hr) hmode
    · rw [he] at hr
      cases hr
    · rw [he] at hr
      cases hr
      have hvalid := hK _ (mem_since hm.moves hmem)
      simpa [Event.createsValid, hmode] using hvalid
  have hsame : s'.configMap = s.configMap → s'.reloadPrograms = s.reloadPrograms → s'.Named := by
    intro hmap hprograms
    exact ⟨hmap ▸ hs.configMap, hprograms ▸ hs.reloadPrograms, hrequest⟩
  cases hm with
  | outside hcore hstreams hnext hhistory hclosed => exact hsame (by rw [hcore]) (by rw [hcore])
  | stream h => exact hsame (by rw [h.core]) (by rw [h.core])
  | complete hqueue hp hlive hc hps =>
    refine ⟨?_, hs.reloadPrograms, hrequest⟩
    cases hc with
    | deleteConfig h ha => exact hs.configMap.erase _
    | _ => exact hs.configMap
  | define hqueue cfg hn hnew hrt hgraph hsource =>
    refine ⟨hs.configMap.insert ?_, hs.reloadPrograms, hrequest⟩
    cases hfound : findConfig cfg.name s.configMap with
    | some c =>
      rw [← Keyed.key_of_find hfound]
      exact hs.configMap c (Keyed.mem_of_find hfound)
    | none =>
      obtain ⟨r, hr, hmode, hname⟩ := hsource hfound
      rw [← hname]
      exact hs.request r hr hmode
  | commitDelete hqueue hdelete hp hend hrt hgraph =>
    exact ⟨hs.configMap.erase _, hs.reloadPrograms, hrequest⟩
  | rollback hqueue hn hrt hgraph => exact ⟨hs.configMap.erase _, hs.reloadPrograms, hrequest⟩
  | swap hqueue hidle hrt hconfigs =>
    exact ⟨hconfigs ▸ hs.reloadPrograms.configMapOf, hs.reloadPrograms, hrequest⟩
  | flags reloadPending reloadPrograms shouldStop shutdownScheduled hprograms =>
    refine ⟨hs.configMap, ?_, hrequest⟩
    rcases hprograms with hold | hold | ⟨ω, t, hload⟩
    · exact hold ▸ hs.reloadPrograms
    · rw [hold]
      exact fun cfg hcfg => absurd hcfg List.not_mem_nil
    · exact loadProgramConfigs_valid hload
  | note | edit | append | exit | terminate | setReady | manual | started | refused | start
  | dequeue | grant | dropRecord | ensure | request | answered | plan | created =>
    exact hsame rfl rfl

namespace Daemon

/-- Unless a client has created a program with an invalid name, every definition has a valid one. -/
theorem names_valid (h : Reachable ω s) (hcreate : ∀ e ∈ s.history, e.createsValid = true) :
    ∀ cfg ∈ s.configMap, isValidProgramName cfg.name = true :=
  (h.judged hcreate Fresh.named fun hs hm hK => hs.move hm hK).configMap

def createProgram (name : String) : Input :=
  .callback (.requests 1 [(1, .start { mode := .create, name := name, config :=
    { name := name, cwd := ".", executable := "x" } })])

theorem names_valid_created : ∃ s, Reachable (exitingSystem [oneShot "a" []]) s ∧
    (∃ cfg ∈ s.configMap, cfg.name = "api") ∧
    ∀ cfg ∈ s.configMap, isValidProgramName cfg.name = true := by
  obtain ⟨s, hs, htest⟩ := run_any (ω := exitingSystem [oneShot "a" []]) [createProgram "api"]
    (fun s => (s.configMap.any fun cfg => cfg.name = "api") && s.history.all Event.createsValid)
    (by decide +kernel)
  simp only [Bool.and_eq_true, List.any_eq_true, List.all_eq_true, decide_eq_true_iff] at htest
  exact ⟨s, hs, htest.1, names_valid hs htest.2⟩

/-- A create request puts a name in force that leads out of the directories. -/
theorem invalid_name_created : ∃ s, Reachable (exitingSystem [oneShot "a" []]) s ∧
    ∃ cfg ∈ s.configMap, cfg.name = "../prog" ∧ isValidProgramName cfg.name = false := by
  obtain ⟨s, hs, htest⟩ := run_any (ω := exitingSystem [oneShot "a" []]) [createProgram "../prog"]
    (fun s => s.configMap.any fun cfg => cfg.name = "../prog" && !isValidProgramName cfg.name)
    (by decide +kernel)
  obtain ⟨cfg, hcfg, hinvalid⟩ := List.any_eq_true.1 htest
  simp only [Bool.and_eq_true, decide_eq_true_iff, Bool.not_eq_true'] at hinvalid
  exact ⟨s, hs, cfg, hcfg, hinvalid⟩

end Daemon
end PmTiny.Windows
