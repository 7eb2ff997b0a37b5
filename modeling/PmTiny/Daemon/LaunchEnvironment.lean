import PmTiny.Lib.Keyed
import PmTiny.Persist.SaveLoad

namespace PmTiny.Launch
set_option autoImplicit true

/-- The part of an entry before the first equals sign, empty when it has none. -/
def envKey (entry : String) : String :=
  if '=' ∈ entry.toList then String.ofList (entry.toList.takeWhile (· ≠ '=')) else ""

def startsWith (text key : String) : Bool := text.toList.isPrefixOf key.toList

def isIdentityKey (key : String) : Bool :=
  key = "HOME" || key = "USER" || key = "LOGNAME" || key = "SHELL"

def removeInheritedKey (key : String) : Bool :=
  key = "PATH" || isIdentityKey key || startsWith "SUDO_" key || startsWith "LD_" key

/-- The fields of a user record that the daemon reads. -/
structure Passwd where
  pwName : String
  pwUid : Nat
  pwGid : Nat
  pwDir : String
  pwShell : String
  deriving DecidableEq, Repr

/-- The entries collected so far and the place of each key among them. -/
structure Composition where
  result : List String := []
  indices : String → Option Nat := fun _ => none

def Composition.apply (c : Composition) (entry : String) : Composition :=
  let key := envKey entry
  if key = "" ∨ startsWith "PM_TINY_" key then c
  else
    match c.indices key with
    | none =>
      { result := c.result ++ [entry]
        indices := Function.update c.indices key (some c.result.length) }
    | some index => { c with result := c.result.set index entry }

def accountEntries (user : Passwd) : List String :=
  (if user.pwDir ≠ "" then ["HOME=" ++ user.pwDir] else []) ++
    (if user.pwName ≠ "" then ["USER=" ++ user.pwName, "LOGNAME=" ++ user.pwName] else []) ++
    if user.pwShell ≠ "" then ["SHELL=" ++ user.pwShell] else []

def composeLaunchEnvironment (inherited explicitValues : List String) (targetUser : Option Passwd)
    (sanitizeForUserSwitch : Bool) : List String :=
  let c := inherited.foldl (fun c entry =>
    if sanitizeForUserSwitch && removeInheritedKey (envKey entry) then c else c.apply entry)
    ({} : Composition)
  let c := match targetUser with
    | none => c
    | some user =>
      if sanitizeForUserSwitch then (accountEntries user).foldl Composition.apply c else c
  (explicitValues.foldl Composition.apply c).result

/-- The account that a program is created for differs from the one that asked for it. -/
def crossUser (targetUser peerUser : Passwd) : Bool :=
  targetUser.pwUid ≠ peerUser.pwUid || targetUser.pwGid ≠ peerUser.pwGid

def createdEnvs (inherited : List String) (targetUser peerUser : Passwd) : List String :=
  if crossUser targetUser peerUser then
    composeLaunchEnvironment inherited [] (some targetUser) true
  else inherited

structure LaunchSettings where
  pmTinyHomeDir : String
  pmTinySockFile : String
  udsAbstractNamespace : Bool

def daemonEntries (settings : LaunchSettings) (name : String) : List String :=
  ["PM_TINY_APP_NAME=" ++ name, "PM_TINY_HOME=" ++ settings.pmTinyHomeDir,
    "PM_TINY_SOCK_FILE=" ++ settings.pmTinySockFile,
    "PM_TINY_UDS_ABSTRACT_NAMESPACE=" ++ if settings.udsAbstractNamespace then "1" else "0"]

/-- The environment that a spawn passes to `execve`. -/
def execEnvironment (settings : LaunchSettings) (name : String) (envs envVars : List String) :
    List String :=
  daemonEntries settings name ++ composeLaunchEnvironment envs envVars none false

def usable (entry : String) : Bool :=
  envKey entry ≠ "" && !startsWith "PM_TINY_" (envKey entry)

structure Indexed (c : Composition) : Prop where
  nodup : (c.result.map envKey).Nodup
  index : ∀ key i, c.indices key = some i ↔ ∃ entry, c.result[i]? = some entry ∧ envKey entry = key

theorem indexed_empty : Indexed {} := ⟨List.nodup_nil, by simp⟩

theorem apply_skip (c : Composition) (h : usable entry = false) : c.apply entry = c := by
  rw [Composition.apply]
  apply if_pos
  simpa [usable, or_iff_not_imp_left] using h

theorem set_eq_update (hn : (l.map envKey).Nodup) (hi : l[i]? = some old)
    (hk : envKey old = envKey entry) :
    l.set i entry = Keyed.update envKey (envKey entry) (fun _ => entry) l := by
  obtain ⟨hlt, rfl⟩ := List.getElem?_eq_some_iff.1 hi
  apply List.ext_getElem (by simp [Keyed.update])
  intro j hj hj'
  rw [List.getElem_set]
  simp only [Keyed.update, List.getElem_map]
  rw [List.length_set] at hj
  by_cases hij : i = j
  · subst hij
    rw [if_pos rfl, if_pos hk]
  · have hne : envKey l[j] ≠ envKey entry := by
      intro he
      have hi' : i < (l.map envKey).length := by simpa using hlt
      have hj' : j < (l.map envKey).length := by simpa using hj
      have hmap : (l.map envKey)[i] = (l.map envKey)[j] := by
        rw [List.getElem_map, List.getElem_map, hk, he]
      exact hij (hn.getElem_inj_iff.1 hmap)
    rw [if_neg hij, if_neg hne]

theorem Indexed.mem_iff (h : Indexed c) :
    key ∈ c.result.map envKey ↔ ∃ i, c.indices key = some i := by
  constructor
  · intro hk
    obtain ⟨entry, he, rfl⟩ := List.mem_map.1 hk
    obtain ⟨i, hi⟩ := List.mem_iff_getElem?.1 he
    exact ⟨i, (h.index _ i).2 ⟨entry, hi, rfl⟩⟩
  · rintro ⟨i, hi⟩
    obtain ⟨entry, he, rfl⟩ := (h.index key i).1 hi
    exact List.mem_map_of_mem (List.mem_of_getElem? he)

theorem Indexed.apply (h : Indexed c) (hu : usable entry = true) :
    (c.apply entry).result = Keyed.put envKey c.result entry ∧ Indexed (c.apply entry) := by
  have hskip : ¬(envKey entry = "" ∨ startsWith "PM_TINY_" (envKey entry) = true) := by
    simpa [usable] using hu
  rw [Composition.apply, if_neg hskip, Keyed.put]
  cases hidx : c.indices (envKey entry) with
  | none =>
    have hnew : envKey entry ∉ c.result.map envKey := fun hk => by
      obtain ⟨i, hi⟩ := h.mem_iff.1 hk
      rw [hidx] at hi
      cases hi
    refine ⟨by rw [if_neg hnew], ?_, fun key i => ?_⟩
    · have hput := Keyed.nodup_put (a := entry) h.nodup
      rwa [Keyed.put, if_neg hnew] at hput
    · simp only [List.getElem?_append]
      by_cases hkey : key = envKey entry
      · subst hkey
        simp only [Function.update_self, Option.some.injEq]
        constructor
        · rintro rfl
          exact ⟨entry, by simp, rfl⟩
        · rintro ⟨e, he, hek⟩
          split at he
          · exact absurd (hek ▸ List.mem_map_of_mem (List.mem_of_getElem? he)) hnew
          · rename_i hge
            have hlt := (List.getElem?_eq_some_iff.1 he).1
            simp only [List.length_singleton] at hlt
            omega
      · rw [Function.update_of_ne hkey, h.index]
        constructor
        · rintro ⟨e, he, hek⟩
          exact ⟨e, by rw [if_pos (List.getElem?_eq_some_iff.1 he).1]; exact he, hek⟩
        · rintro ⟨e, he, hek⟩
          split at he
          · exact ⟨e, he, hek⟩
          · have hmem := List.mem_of_getElem? he
            rw [List.mem_singleton] at hmem
            exact absurd (hek.symm.trans (congrArg envKey hmem)) hkey
  | some index =>
    have hold : envKey entry ∈ c.result.map envKey := h.mem_iff.2 ⟨index, hidx⟩
    obtain ⟨old, ho, hok⟩ := (h.index _ index).1 hidx
    have hset := set_eq_update h.nodup ho hok
    refine ⟨by rw [if_pos hold]; exact hset, ?_, fun key i => ?_⟩
    · have hput := Keyed.nodup_put (a := entry) h.nodup
      rw [Keyed.put, if_pos hold, ← hset] at hput
      exact hput
    · rw [h.index]
      simp only [List.getElem?_set]
      have hlt := (List.getElem?_eq_some_iff.1 ho).1
      by_cases hi : index = i
      · subst hi
        rw [if_pos rfl, if_pos hlt, ho]
        simp [hok]
      · rw [if_neg hi]

theorem Indexed.foldl_apply (h : Indexed c) (entries : List String) :
    (entries.foldl Composition.apply c).result =
        (entries.filter usable).foldl (Keyed.put envKey) c.result ∧
      Indexed (entries.foldl Composition.apply c) := by
  induction entries generalizing c with
  | nil => exact ⟨rfl, h⟩
  | cons entry entries ih =>
    rw [List.foldl_cons]
    cases hu : usable entry with
    | false =>
      rw [apply_skip c hu, List.filter_cons_of_neg (by simp [hu])]
      exact ih h
    | true =>
      obtain ⟨hput, hindexed⟩ := h.apply hu
      rw [List.filter_cons_of_pos hu, List.foldl_cons, ← hput]
      exact ih hindexed

/-- The entries that a composition stores, in the order in which it does. -/
def applied (inherited explicitValues : List String) (targetUser : Option Passwd)
    (sanitizeForUserSwitch : Bool) : List String :=
  (inherited.filter fun entry => !(sanitizeForUserSwitch && removeInheritedKey (envKey entry))) ++
    (match targetUser with
      | none => []
      | some user => if sanitizeForUserSwitch then accountEntries user else []) ++
    explicitValues

theorem foldl_filter (entries : List String) (skip : String → Bool) (c : Composition) :
    entries.foldl (fun c entry => if skip entry then c else c.apply entry) c =
      (entries.filter fun entry => !skip entry).foldl Composition.apply c := by
  induction entries generalizing c with
  | nil => rfl
  | cons entry entries ih =>
    rw [List.foldl_cons, ih]
    cases hs : skip entry with
    | true => simp [hs]
    | false => simp [hs]

theorem composeLaunchEnvironment_eq (inherited explicitValues : List String)
    (targetUser : Option Passwd) (sanitize : Bool) :
    composeLaunchEnvironment inherited explicitValues targetUser sanitize =
      ((applied inherited explicitValues targetUser sanitize).filter usable).foldl
        (Keyed.put envKey) [] := by
  rw [← (indexed_empty.foldl_apply _).1]
  cases targetUser with
  | none =>
    simp only [composeLaunchEnvironment, foldl_filter, applied, List.foldl_append, List.foldl_nil]
  | some user =>
    simp only [composeLaunchEnvironment, foldl_filter, applied, List.foldl_append]
    cases sanitize <;> rfl

theorem composed_nodup (inherited explicitValues : List String) (targetUser : Option Passwd)
    (sanitize : Bool) :
    ((composeLaunchEnvironment inherited explicitValues targetUser sanitize).map envKey).Nodup := by
  rw [composeLaunchEnvironment_eq]
  exact Keyed.nodup_foldl_put _ List.nodup_nil

theorem mem_composed :
    entry ∈ composeLaunchEnvironment inherited explicitValues targetUser sanitize ↔
      ∃ pre post, (applied inherited explicitValues targetUser sanitize).filter usable =
        pre ++ entry :: post ∧ ∀ e ∈ post, envKey e ≠ envKey entry := by
  rw [composeLaunchEnvironment_eq, Keyed.mem_foldl_put]
  simp

theorem usable_of_mem
    (h : entry ∈ composeLaunchEnvironment inherited explicitValues user sanitize) :
    usable entry = true := by
  obtain ⟨pre, post, he, -⟩ := mem_composed.1 h
  have hmem : entry ∈ (applied inherited explicitValues user sanitize).filter usable := by
    rw [he]
    simp
  exact (List.mem_filter.1 hmem).2

/-- A program's environment at a spawn: what is explicit, and below it what was stored with it. -/
theorem mem_spawned : entry ∈ composeLaunchEnvironment envs envVars none false ↔
    (∃ pre post, envVars.filter usable = pre ++ entry :: post ∧
      ∀ e ∈ post, envKey e ≠ envKey entry) ∨
      (∃ pre post, envs.filter usable = pre ++ entry :: post ∧
        ∀ e ∈ post, envKey e ≠ envKey entry) ∧
        ∀ e ∈ envVars.filter usable, envKey e ≠ envKey entry := by
  rw [composeLaunchEnvironment_eq]
  simp only [applied, Bool.false_and, Bool.not_false, List.filter_true, List.append_nil,
    List.filter_append, List.foldl_append]
  rw [Keyed.mem_foldl_put, Keyed.mem_foldl_put]
  simp

theorem envKey_of_toList {pre rest : List Char} (hpre : '=' ∉ pre)
    (h : entry.toList = pre ++ '=' :: rest) : envKey entry = String.ofList pre := by
  rw [envKey, h, if_pos (by simp), List.takeWhile_append_of_pos]
  · simp
  · intro a ha
    have hne : a ≠ '=' := fun he => hpre (he ▸ ha)
    simpa using hne

theorem envKey_entry (pre : List Char) (value : String) (hpre : '=' ∉ pre) :
    envKey (String.ofList (pre ++ ['=']) ++ value) = String.ofList pre := by
  have hlist : (String.ofList (pre ++ ['=']) ++ value).toList = pre ++ '=' :: value.toList := by
    simp
  exact envKey_of_toList hpre hlist

theorem accountEntries_keys (user : Passwd) : (accountEntries user).map envKey =
    (if user.pwDir ≠ "" then ["HOME"] else []) ++
      (if user.pwName ≠ "" then ["USER", "LOGNAME"] else []) ++
      if user.pwShell ≠ "" then ["SHELL"] else [] := by
  have hhome : envKey ("HOME=" ++ user.pwDir) = "HOME" :=
    envKey_entry ['H', 'O', 'M', 'E'] _ (by decide)
  have huser : envKey ("USER=" ++ user.pwName) = "USER" :=
    envKey_entry ['U', 'S', 'E', 'R'] _ (by decide)
  have hlogname : envKey ("LOGNAME=" ++ user.pwName) = "LOGNAME" :=
    envKey_entry ['L', 'O', 'G', 'N', 'A', 'M', 'E'] _ (by decide)
  have hshell : envKey ("SHELL=" ++ user.pwShell) = "SHELL" :=
    envKey_entry ['S', 'H', 'E', 'L', 'L'] _ (by decide)
  rw [accountEntries, List.map_append, List.map_append, apply_ite (List.map envKey),
    apply_ite (List.map envKey), apply_ite (List.map envKey)]
  simp only [List.map_cons, List.map_nil, hhome, huser, hlogname, hshell]

theorem accountEntries_nodup (user : Passwd) : ((accountEntries user).map envKey).Nodup := by
  rw [accountEntries_keys]
  split <;> split <;> split <;> decide

theorem accountEntries_identity (h : entry ∈ accountEntries user) :
    isIdentityKey (envKey entry) = true := by
  have hall : ∀ key ∈ (accountEntries user).map envKey, isIdentityKey key = true := by
    rw [accountEntries_keys]
    split <;> split <;> split <;> decide
  exact hall _ (List.mem_map_of_mem h)

theorem isIdentityKey_iff : isIdentityKey key = true ↔
    key = "HOME" ∨ key = "USER" ∨ key = "LOGNAME" ∨ key = "SHELL" := by
  simp [isIdentityKey, or_assoc]

theorem usable_of_identity (h : isIdentityKey (envKey entry) = true) : usable entry = true := by
  rw [isIdentityKey_iff] at h
  rw [usable]
  rcases h with h | h | h | h <;> rw [h] <;> decide

theorem usable_of_valid {cfg : Persist.ProgCfg} (h : Persist.validateStartConfig cfg = .ok ())
    (hv : v ∈ cfg.envVars) : usable v = true := by
  obtain ⟨hshared, hrules⟩ := Persist.validateStartConfig_eq_ok.1 h
  have hreserved := hshared.envVars v hv
  obtain ⟨-, hfirst, hequals⟩ := hrules.envVars v hv
  have hkey : envKey v = Persist.envKey v := if_pos hequals
  have hne : envKey v ≠ "" := by
    intro he
    have hnil := congrArg String.toList he
    rw [hkey, Persist.envKey, String.toList_ofList] at hnil
    cases hl : v.toList with
    | nil =>
      rw [hl] at hequals
      exact absurd hequals (by simp)
    | cons c rest =>
      rw [hl] at hnil hfirst
      have hc : c ≠ '=' := by simpa using hfirst
      simp [hc] at hnil
  rw [usable, Bool.and_eq_true]
  refine ⟨by simpa using hne, ?_⟩
  rw [hkey]
  simpa [Persist.reservedKey, startsWith] using hreserved

theorem createdEnvs_cross (h : crossUser target peer = true) :
    createdEnvs inherited target peer =
      composeLaunchEnvironment inherited [] (some target) true := if_pos h

theorem mem_sanitized (h : entry ∈ composeLaunchEnvironment inherited [] (some target) true) :
    removeInheritedKey (envKey entry) = false ∨ entry ∈ accountEntries target := by
  obtain ⟨pre, post, he, -⟩ := mem_composed.1 h
  have hmem : entry ∈ (applied inherited [] (some target) true).filter usable := by
    rw [he]
    simp
  have hmem' := (List.mem_filter.1 hmem).1
  simp only [applied, List.append_nil, List.mem_append, List.mem_filter] at hmem'
  rcases hmem' with ⟨-, hkept⟩ | hacc
  · exact .inl (by simpa using hkept)
  · exact .inr hacc

theorem account_sanitized (h : entry ∈ accountEntries target) :
    entry ∈ composeLaunchEnvironment inherited [] (some target) true := by
  obtain ⟨pre, post, he⟩ := List.append_of_mem h
  have hnd := accountEntries_nodup target
  rw [he, List.map_append, List.map_cons, List.nodup_append] at hnd
  have hpost : ∀ e ∈ post, envKey e ≠ envKey entry := fun e hm hk =>
    (List.nodup_cons.1 hnd.2.1).1 (hk ▸ List.mem_map_of_mem hm)
  have hu := usable_of_identity (accountEntries_identity h)
  rw [mem_composed]
  refine ⟨((inherited.filter fun e => !(true && removeInheritedKey (envKey e))) ++
    pre).filter usable,
    post.filter usable, ?_, fun e hm => hpost e (List.mem_filter.1 hm).1⟩
  simp only [applied, he, List.append_nil, if_true, List.filter_append]
  rw [List.filter_cons_of_pos hu]
  simp

theorem daemonEntries_keys (settings : LaunchSettings) (name : String) :
    (daemonEntries settings name).map envKey = ["PM_TINY_APP_NAME", "PM_TINY_HOME",
      "PM_TINY_SOCK_FILE", "PM_TINY_UDS_ABSTRACT_NAMESPACE"] := by
  have happ : envKey ("PM_TINY_APP_NAME=" ++ name) = "PM_TINY_APP_NAME" :=
    envKey_entry "PM_TINY_APP_NAME".toList _ (by decide)
  have hhome : envKey ("PM_TINY_HOME=" ++ settings.pmTinyHomeDir) = "PM_TINY_HOME" :=
    envKey_entry "PM_TINY_HOME".toList _ (by decide)
  have hsock : envKey ("PM_TINY_SOCK_FILE=" ++ settings.pmTinySockFile) = "PM_TINY_SOCK_FILE" :=
    envKey_entry "PM_TINY_SOCK_FILE".toList _ (by decide)
  have huds : envKey ("PM_TINY_UDS_ABSTRACT_NAMESPACE=" ++
      if settings.udsAbstractNamespace then "1" else "0") = "PM_TINY_UDS_ABSTRACT_NAMESPACE" :=
    envKey_entry "PM_TINY_UDS_ABSTRACT_NAMESPACE".toList _ (by decide)
  simp only [daemonEntries, List.map_cons, List.map_nil, happ, hhome, hsock, huds]

theorem daemonEntries_reserved (h : entry ∈ daemonEntries settings name) :
    startsWith "PM_TINY_" (envKey entry) = true := by
  have hall : ∀ key ∈ (daemonEntries settings name).map envKey,
      startsWith "PM_TINY_" key = true := by
    rw [daemonEntries_keys]
    decide
  exact hall _ (List.mem_map_of_mem h)

theorem not_reserved_of_usable (h : usable entry = true) :
    startsWith "PM_TINY_" (envKey entry) = false := by
  rw [usable, Bool.and_eq_true] at h
  simpa using h.2

theorem execEnvironment_nodup (settings : LaunchSettings) (name : String)
    (envs envVars : List String) :
    ((execEnvironment settings name envs envVars).map envKey).Nodup := by
  rw [execEnvironment, List.map_append, List.nodup_append]
  refine ⟨?_, composed_nodup .., ?_⟩
  · rw [daemonEntries_keys]
    decide
  · rintro key hd _ hc rfl
    obtain ⟨e, he, rfl⟩ := List.mem_map.1 hd
    obtain ⟨e', he', hk⟩ := List.mem_map.1 hc
    have hu := not_reserved_of_usable (usable_of_mem he')
    rw [hk, daemonEntries_reserved he] at hu
    cases hu

theorem daemonEntries_foreign (h : e ∈ daemonEntries settings name) :
    removeInheritedKey (envKey e) = false := by
  have hall : ∀ key ∈ (daemonEntries settings name).map envKey,
      removeInheritedKey key = false := by
    rw [daemonEntries_keys]
    decide
  exact hall _ (List.mem_map_of_mem h)

/-- A key that only an explicit entry may set. -/
def loaderKey (key : String) : Bool :=
  key = "PATH" || startsWith "SUDO_" key || startsWith "LD_" key

theorem removeInheritedKey_eq (key : String) :
    removeInheritedKey key = (isIdentityKey key || loaderKey key) := by
  rw [removeInheritedKey, loaderKey]
  cases isIdentityKey key <;> simp

theorem loaderKey_of_identity (h : isIdentityKey key = true) : loaderKey key = false := by
  rw [isIdentityKey_iff] at h
  rcases h with rfl | rfl | rfl | rfl <;> decide

theorem last_composed (inherited explicitValues : List String) (user : Option Passwd)
    (sanitize : Bool) :
    (∃ pre post, composeLaunchEnvironment inherited explicitValues user sanitize =
      pre ++ e :: post ∧ ∀ w ∈ post, envKey w ≠ envKey e) ↔
      e ∈ composeLaunchEnvironment inherited explicitValues user sanitize := by
  constructor
  · rintro ⟨pre, post, he, -⟩
    rw [he]
    simp
  · intro he
    obtain ⟨pre, post, hsplit⟩ := List.append_of_mem he
    have hnd := composed_nodup inherited explicitValues user sanitize
    rw [hsplit, List.map_append, List.map_cons, List.nodup_append] at hnd
    exact ⟨pre, post, hsplit, fun w hw hk =>
      (List.nodup_cons.1 hnd.2.1).1 (hk ▸ List.mem_map_of_mem hw)⟩

theorem mem_execEnvironment {cfg : Persist.ProgCfg}
    (hcfg : Persist.validateStartConfig cfg = .ok ()) (hcross : crossUser target peer = true) :
    e ∈ execEnvironment settings cfg.name (createdEnvs inherited target peer) cfg.envVars ↔
      e ∈ daemonEntries settings cfg.name ∨
        (∃ pre post, cfg.envVars = pre ++ e :: post ∧ ∀ w ∈ post, envKey w ≠ envKey e) ∨
        e ∈ composeLaunchEnvironment inherited [] (some target) true ∧
          ∀ v ∈ cfg.envVars, envKey v ≠ envKey e := by
  have hvars : cfg.envVars.filter usable = cfg.envVars :=
    List.filter_eq_self.2 fun v hv => usable_of_valid hcfg hv
  have hstored : (composeLaunchEnvironment inherited [] (some target) true).filter usable =
      composeLaunchEnvironment inherited [] (some target) true :=
    List.filter_eq_self.2 fun _ he => usable_of_mem he
  rw [execEnvironment, List.mem_append, createdEnvs_cross hcross, mem_spawned, hvars, hstored,
    last_composed]

/-- A program created for another user gets the daemon's own entries, its explicit ones, the
identity of its account, and of what is inherited nothing that could pass on the caller's. -/
theorem cross_user_environment (settings : LaunchSettings) (inherited : List String)
    (target peer : Passwd) (cfg : Persist.ProgCfg)
    (hcfg : Persist.validateStartConfig cfg = .ok ()) (hcross : crossUser target peer = true) :
    let env := execEnvironment settings cfg.name (createdEnvs inherited target peer) cfg.envVars
    (env.map envKey).Nodup ∧
      (∀ e ∈ env, startsWith "PM_TINY_" (envKey e) = true → e ∈ daemonEntries settings cfg.name) ∧
      (∀ e ∈ env, envKey e = "PATH" ∨ startsWith "SUDO_" (envKey e) = true ∨
        startsWith "LD_" (envKey e) = true → ∃ v ∈ cfg.envVars, envKey v = envKey e) ∧
      (∀ e ∈ env, isIdentityKey (envKey e) = true →
        e ∈ cfg.envVars ∨ e ∈ accountEntries target ∧ ∀ v ∈ cfg.envVars, envKey v ≠ envKey e) ∧
      (∀ e ∈ accountEntries target, (∀ v ∈ cfg.envVars, envKey v ≠ envKey e) → e ∈ env) ∧
      ∀ pre v post, cfg.envVars = pre ++ v :: post → (∀ w ∈ post, envKey w ≠ envKey v) →
        v ∈ env := by
  intro env
  have hmem : ∀ e, e ∈ env ↔ _ := fun e => mem_execEnvironment hcfg hcross
  refine ⟨execEnvironment_nodup .., fun e he hres => ?_, fun e he hkey => ?_, fun e he hid => ?_,
    fun e he hfree => ?_, fun pre v post hsplit hpost => ?_⟩
  · rcases (hmem e).1 he with hd | ⟨pre, post, hsplit, -⟩ | ⟨hs, -⟩
    · exact hd
    · have hv : e ∈ cfg.envVars := by
        rw [hsplit]
        simp
      rw [not_reserved_of_usable (usable_of_valid hcfg hv)] at hres
      cases hres
    · rw [not_reserved_of_usable (usable_of_mem hs)] at hres
      cases hres
  · have hloader : loaderKey (envKey e) = true := by
      simpa [loaderKey, or_assoc] using hkey
    rcases (hmem e).1 he with hd | ⟨pre, post, hsplit, -⟩ | ⟨hs, -⟩
    · have hforeign := daemonEntries_foreign hd
      rw [removeInheritedKey_eq, hloader, Bool.or_true] at hforeign
      cases hforeign
    · exact ⟨e, by rw [hsplit]; simp, rfl⟩
    · rcases mem_sanitized hs with hkept | hacc
      · rw [removeInheritedKey_eq, hloader, Bool.or_true] at hkept
        cases hkept
      · rw [loaderKey_of_identity (accountEntries_identity hacc)] at hloader
        cases hloader
  · rcases (hmem e).1 he with hd | ⟨pre, post, hsplit, -⟩ | ⟨hs, hfree⟩
    · have hforeign := daemonEntries_foreign hd
      rw [removeInheritedKey_eq, hid, Bool.true_or] at hforeign
      cases hforeign
    · exact .inl (by rw [hsplit]; simp)
    · rcases mem_sanitized hs with hkept | hacc
      · rw [removeInheritedKey_eq, hid, Bool.true_or] at hkept
        cases hkept
      · exact .inr ⟨hacc, hfree⟩
  · exact (hmem e).2 (.inr (.inr ⟨account_sanitized he, hfree⟩))
  · exact (hmem v).2 (.inr (.inl ⟨pre, post, hsplit, hpost⟩))

theorem cross_user_environment_root :
    let cfg : Persist.ProgCfg :=
      { name := "api", cwd := "/", executable := "/bin/api", envVars := ["PATH=/bin"] }
    let target : Passwd := ⟨"app", 1000, 1000, "/home/app", "/bin/sh"⟩
    let peer : Passwd := ⟨"root", 0, 0, "/root", "/bin/sh"⟩
    let env := execEnvironment ⟨"/run/pm", "/run/pm.sock", false⟩ cfg.name
      (createdEnvs ["LD_PRELOAD=x", "HOME=/root", "LANG=C"] target peer) cfg.envVars
    Persist.validateStartConfig cfg = .ok () ∧ crossUser target peer = true ∧
      "PATH=/bin" ∈ env ∧ "HOME=/home/app" ∈ env := by
  intro cfg target peer env
  have hcfg : Persist.validateStartConfig cfg = .ok () := by decide +kernel
  have hcross : crossUser target peer = true := by decide
  obtain ⟨-, -, -, -, haccount, hlast⟩ := cross_user_environment ⟨"/run/pm", "/run/pm.sock", false⟩
    ["LD_PRELOAD=x", "HOME=/root", "LANG=C"] target peer cfg hcfg hcross
  exact ⟨hcfg, hcross, hlast [] _ [] rfl (by simp), haccount _ (by decide) (by decide)⟩

end PmTiny.Launch
