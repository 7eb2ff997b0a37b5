import Mathlib.Data.List.Induction
import Mathlib.Data.List.TakeWhile
import Mathlib.Tactic.Linarith
import Mathlib.Tactic.Ring
import PmTiny.Core.RestartPolicy

namespace PmTiny
set_option autoImplicit true

/-- A call of `plan_automatic_restart`: the time, and how long the program has run. -/
abbrev RestartCall := Int × Int

/-- The state and the times of the grants so far, after one more call. -/
def runCall (config : RestartPolicyConfig) (acc : RestartPolicyState × List Int)
    (call : RestartCall) : RestartPolicyState × List Int :=
  let plan := planAutomaticRestart config acc.1 call.1 call.2
  (plan.2, if plan.1.restart then acc.2 ++ [call.1] else acc.2)

/-- The state and the times of the grants after a sequence of calls from a reset state. -/
def runCalls (config : RestartPolicyConfig) (calls : List RestartCall) :
    RestartPolicyState × List Int := calls.foldl (runCall config) ({}, [])

def planned (config : RestartPolicyConfig) (before : List RestartCall) (call : RestartCall) :
    RestartDecision :=
  (planAutomaticRestart config (runCalls config before).1 call.1 call.2).1

/-- The grants that lie within the last `window_ms`. -/
def recentGrants (config : RestartPolicyConfig) (nowMs : Int) (grants : List Int) : List Int :=
  grants.filter fun g => nowMs - g < config.windowMs

/-- Calls at nondecreasing times, none of which resets the state. -/
structure Unreset (config : RestartPolicyConfig) (calls : List RestartCall) : Prop where
  ordered : calls.Pairwise fun call call' => call.1 ≤ call'.1
  kept : ∀ call ∈ calls, ¬(config.resetAfterMs > 0 ∧ call.2 ≥ config.resetAfterMs)

/-- The values of the source's `int` fields that bound a delay or a count. -/
structure RestartPolicyConfig.FitsInt (config : RestartPolicyConfig) : Prop where
  delayMs : config.delayMs ≤ intMax
  maxDelayMs : config.maxDelayMs ≤ intMax
  maxAttempts : config.maxAttempts ≤ intMax

variable {config : RestartPolicyConfig}

theorem wrapInt_of_le {value : Int} (hpos : 0 ≤ value) (hle : value ≤ intMax) :
    wrapInt value = value := by
  have hint : intMax = 2147483647 := rfl
  exact Int.bmod_eq_of_le (by omega) (by omega)

theorem wrapInt_succ (value : Int) : wrapInt (wrapInt value + 1) = wrapInt (value + 1) :=
  Int.bmod_add_bmod

example : wrapInt (2 ^ 31) = -2 ^ 31 := by decide

theorem backoff_eq {maximumDelay delay : Int} (hpos : 0 ≤ delay) (hle : delay ≤ maximumDelay)
    (k : Nat) : backoff maximumDelay k delay = min maximumDelay (delay * 2 ^ k) := by
  induction k generalizing delay with
  | zero => rw [backoff, pow_zero, mul_one, min_eq_right hle]
  | succ k ih =>
    have hpow : (1 : Int) ≤ 2 ^ k := one_le_pow₀ (by norm_num)
    have hdouble : delay * 2 ^ (k + 1) = delay * 2 * 2 ^ k := by ring
    rw [backoff]
    split
    · rename_i hlt
      rw [ih (le_min (hpos.trans hle) (by omega)) (min_le_left _ _), hdouble]
      rcases le_total maximumDelay (delay * 2) with hcap | hcap
      · rw [min_eq_left hcap, min_eq_left (by nlinarith), min_eq_left (by nlinarith)]
      · rw [min_eq_right hcap]
    · have hmax : delay = maximumDelay := by omega
      rw [hmax,
        min_eq_left (by nlinarith [hmax, one_le_pow₀ (n := k + 1) (by norm_num : (1 : Int) ≤ 2)])]

/-- What the state knows of the grants: those that it has dropped are too old for every later
window. -/
structure KeepsGrants (config : RestartPolicyConfig) (nowMs : Int)
    (acc : RestartPolicyState × List Int) : Prop where
  sorted : acc.2.Pairwise (· ≤ ·)
  past : ∀ g ∈ acc.2, g ≤ nowMs
  dropped : ∃ old, acc.2 = old ++ acc.1.attemptsMs ∧ ∀ g ∈ old, config.windowMs ≤ nowMs - g
  few : acc.1.attemptsMs.length ≤ config.maxAttempts
  failures : acc.1.consecutiveFailures = wrapInt acc.2.length

theorem dropWhile_eq_filter {l : List Int} {p : Int → Bool} (hl : l.Pairwise (· ≤ ·))
    (hp : ∀ a b, a ≤ b → p b = true → p a = true) : l.dropWhile p = l.filter fun a => !p a := by
  induction l with
  | nil => rfl
  | cons a l ih =>
    obtain ⟨ha, hl⟩ := List.pairwise_cons.1 hl
    cases hpa : p a with
    | true => rw [List.dropWhile_cons_of_pos hpa, List.filter_cons_of_neg (by simp [hpa]), ih hl]
    | false =>
      rw [List.dropWhile_cons_of_neg (by simp [hpa]), List.filter_cons_of_pos (by simp [hpa]),
        List.filter_eq_self.2]
      intro b hb
      rw [Bool.not_eq_true', ← Bool.not_eq_true]
      intro hpb
      cases hpa.symm.trans (hp a b (ha b hb) hpb)

theorem KeepsGrants.recent {acc : RestartPolicyState × List Int} {nowMs later : Int}
    (h : KeepsGrants config nowMs acc) (hlater : nowMs ≤ later) :
    acc.1.attemptsMs.filter (fun t => later - t < config.windowMs) =
      recentGrants config later acc.2 := by
  obtain ⟨old, hold, hdropped⟩ := h.dropped
  have hnone : old.filter (fun g => decide (later - g < config.windowMs)) = [] := by
    rw [List.filter_eq_nil_iff]
    intro g hg
    have hfar := hdropped g hg
    simp only [decide_eq_true_iff]
    omega
  rw [recentGrants, hold, List.filter_append, hnone, List.nil_append]

theorem KeepsGrants.pruned {acc : RestartPolicyState × List Int} {nowMs later : Int}
    (h : KeepsGrants config nowMs acc) (hlater : nowMs ≤ later) :
    acc.1.attemptsMs.dropWhile (fun t => decide (later - t ≥ config.windowMs)) =
      recentGrants config later acc.2 := by
  obtain ⟨old, hold, -⟩ := h.dropped
  have hsorted := h.sorted
  rw [hold, List.pairwise_append] at hsorted
  rw [← h.recent hlater, dropWhile_eq_filter hsorted.2.1]
  · refine List.filter_congr fun g _ => ?_
    rw [Bool.eq_iff_iff]
    simp only [Bool.not_eq_true', decide_eq_false_iff_not, decide_eq_true_iff]
    omega
  · intro a b hab hb
    simp only [decide_eq_true_iff] at hb ⊢
    omega

theorem KeepsGrants.recent_length {acc : RestartPolicyState × List Int} {nowMs later : Int}
    (h : KeepsGrants config nowMs acc) (hlater : nowMs ≤ later) :
    (recentGrants config later acc.2).length ≤ config.maxAttempts := by
  have hle := (List.dropWhile_sublist (l := acc.1.attemptsMs)
    fun t => decide (later - t ≥ config.windowMs)).length_le
  have hfew := h.few
  rw [h.pruned hlater] at hle
  omega

def RestartPolicyConfig.baseDelay (config : RestartPolicyConfig) : Int := max 0 config.delayMs

def RestartPolicyConfig.maximumDelay (config : RestartPolicyConfig) : Int :=
  max config.baseDelay config.maxDelayMs

/-- A call that does not reset decides by the grants of the last window and by the wrapped number of
all grants. -/
theorem KeepsGrants.plan {acc : RestartPolicyState × List Int} {nowMs : Int} {call : RestartCall}
    (h : KeepsGrants config nowMs acc) (hlater : nowMs ≤ call.1) (hfits : config.FitsInt)
    (hwindow : 1 ≤ config.windowMs) (hmax : 1 ≤ config.maxAttempts)
    (hkept : ¬(config.resetAfterMs > 0 ∧ call.2 ≥ config.resetAfterMs)) :
    planAutomaticRestart config acc.1 call.1 call.2 =
      if config.maxAttempts ≤ (recentGrants config call.1 acc.2).length then
        ({ suppressed := true, attemptsInWindow := (recentGrants config call.1 acc.2).length },
          { acc.1 with attemptsMs := recentGrants config call.1 acc.2, suppressed := true })
      else
        ({ restart := true
           delayMs := min (backoff config.maximumDelay (wrapInt acc.2.length).toNat
             config.baseDelay) intMax
           attemptsInWindow := (recentGrants config call.1 acc.2).length + 1 },
          { attemptsMs := recentGrants config call.1 acc.2 ++ [call.1]
            consecutiveFailures := wrapInt (acc.2.length + 1)
            suppressed := false }) := by
  have hzero : max 0 config.windowMs = config.windowMs := max_eq_right (by omega)
  have hpositive : config.maxAttempts > 0 := by omega
  have hcount := (h.recent_length hlater).trans hfits.maxAttempts
  rw [planAutomaticRestart, if_neg hkept]
  simp only [hzero, h.pruned hlater, hpositive, true_and, h.failures, ge_iff_le, wrapInt_succ,
    wrapInt_of_le (Int.natCast_nonneg _) hcount]
  by_cases hmany : config.maxAttempts ≤ (recentGrants config call.1 acc.2).length
  · rw [if_pos hmany, if_pos hmany]
  · have hbound := hfits.maxAttempts
    rw [if_neg hmany, if_neg hmany, wrapInt_of_le (by omega : 0 ≤ ((recentGrants config call.1
      acc.2).length : Int) + 1) (by omega)]
    rfl

theorem keepsGrants_start (hmax : 1 ≤ config.maxAttempts) (nowMs : Int) :
    KeepsGrants config nowMs ({}, []) :=
  ⟨List.Pairwise.nil, fun _ hg => absurd hg List.not_mem_nil,
    ⟨[], rfl, fun _ hg => absurd hg List.not_mem_nil⟩, (show (0 : Int) ≤ 1 by decide).trans hmax,
    rfl⟩

theorem KeepsGrants.call {acc : RestartPolicyState × List Int} {nowMs : Int} {call : RestartCall}
    (h : KeepsGrants config nowMs acc) (hlater : nowMs ≤ call.1) (hfits : config.FitsInt)
    (hwindow : 1 ≤ config.windowMs) (hmax : 1 ≤ config.maxAttempts)
    (hkept : ¬(config.resetAfterMs > 0 ∧ call.2 ≥ config.resetAfterMs)) :
    KeepsGrants config call.1 (runCall config acc call) := by
  have hpast : ∀ g ∈ acc.2, g ≤ call.1 := fun g hg => (h.past g hg).trans hlater
  -- The grants that are dropped now were granted longer than one window ago.
  have hsplit : ∃ old, acc.2 = old ++ recentGrants config call.1 acc.2 ∧
      ∀ g ∈ old, config.windowMs ≤ call.1 - g := by
    obtain ⟨old, hold, hdropped⟩ := h.dropped
    refine ⟨old ++ acc.1.attemptsMs.takeWhile fun t =>
      decide (call.1 - t ≥ config.windowMs), ?_, ?_⟩
    · rw [← h.pruned hlater, List.append_assoc, List.takeWhile_append_dropWhile, ← hold]
    · intro g hg
      rcases List.mem_append.1 hg with hg | hg
      · have hfar := hdropped g hg
        omega
      · simpa using List.mem_takeWhile_imp hg
  obtain ⟨old, hold, hdropped⟩ := hsplit
  rw [runCall, h.plan hlater hfits hwindow hmax hkept]
  split
  · exact ⟨h.sorted, hpast, ⟨old, hold, hdropped⟩, h.recent_length hlater, h.failures⟩
  · refine ⟨?_, fun g hg => ?_, ⟨old, ?_, hdropped⟩, ?_, ?_⟩
    · simp only [if_true]
      refine List.pairwise_append.2 ⟨h.sorted, List.pairwise_singleton _ _, fun g hg g' hg' => ?_⟩
      rw [List.mem_singleton.1 hg']
      exact hpast g hg
    · simp only [if_true, List.mem_append, List.mem_singleton] at hg
      rcases hg with hg | rfl
      · exact hpast g hg
      · exact le_refl _
    · simp only [if_true]
      rw [← List.append_assoc, ← hold]
    · simp only [List.length_append, List.length_singleton]
      omega
    · simp

theorem runCalls_snoc (before : List RestartCall) (call : RestartCall) :
    runCalls config (before ++ [call]) = runCall config (runCalls config before) call := by
  rw [runCalls, List.foldl_append]
  rfl

theorem Unreset.split {before after : List RestartCall} {call : RestartCall}
    (h : Unreset config (before ++ call :: after)) :
    Unreset config before ∧ (∀ earlier ∈ before, earlier.1 ≤ call.1) ∧
      ¬(config.resetAfterMs > 0 ∧ call.2 ≥ config.resetAfterMs) := by
  obtain ⟨hordered, hkept⟩ := h
  obtain ⟨hbefore, -, hacross⟩ := List.pairwise_append.1 hordered
  refine ⟨⟨hbefore, fun earlier hearlier => ?_⟩, fun earlier hearlier => ?_, ?_⟩
  · exact hkept earlier (List.mem_append_left _ hearlier)
  · exact hacross earlier hearlier call List.mem_cons_self
  · exact hkept call (List.mem_append_right _ List.mem_cons_self)

theorem Unreset.keeps {calls : List RestartCall} (h : Unreset config calls)
    (hfits : config.FitsInt) (hwindow : 1 ≤ config.windowMs)
    (hmax : 1 ≤ config.maxAttempts) {nowMs : Int}
    (hnow : ∀ call ∈ calls, call.1 ≤ nowMs) : KeepsGrants config nowMs (runCalls config calls) := by
  induction calls using List.reverseRecOn generalizing nowMs with
  | nil => exact keepsGrants_start hmax nowMs
  | append_singleton before call ih =>
    obtain ⟨hbefore, hearlier, hkept⟩ := h.split
    have hcall := (ih hbefore hearlier).call (le_refl _) hfits hwindow hmax hkept
    have hle : call.1 ≤ nowMs := hnow call (List.mem_append_right _ List.mem_cons_self)
    rw [runCalls_snoc]
    obtain ⟨old, hold, hdropped⟩ := hcall.dropped
    refine ⟨hcall.sorted, fun g hg => (hcall.past g hg).trans hle, ⟨old, hold, fun g hg => ?_⟩,
      hcall.few, hcall.failures⟩
    have hfar := hdropped g hg
    omega

/-- The policy over a whole sequence of calls. The delays in the loop are the values of `backoff`
for each number of rounds. -/
structure Limited (config : RestartPolicyConfig) (calls : List RestartCall) : Prop where
  window : ∀ t, ((runCalls config calls).2.countP fun g => t ≤ g && g < t + config.windowMs) ≤
    config.maxAttempts
  suppressed : ∀ before call after, calls = before ++ call :: after →
    ((planned config before call).suppressed = true ↔ config.maxAttempts ≤
      (runCalls config before).2.countP fun g => call.1 - g < config.windowMs) ∧
    (planned config before call).restart = !(planned config before call).suppressed
  delay : ∀ before call after, calls = before ++ call :: after →
    (planned config before call).restart = true → (planned config before call).delayMs =
      min config.maximumDelay (config.baseDelay * 2 ^ (runCalls config before).2.length)
  increasing : ∀ before call between call' after,
    calls = before ++ call :: (between ++ call' :: after) →
    (planned config before call).restart = true →
    (planned config (before ++ call :: between) call').restart = true →
    (planned config before call).delayMs ≤
      (planned config (before ++ call :: between) call').delayMs
  bounded : ∀ k, 0 ≤ backoff config.maximumDelay k config.baseDelay ∧
    backoff config.maximumDelay k config.baseDelay * 2 < 2 ^ 63
  kept : ∀ before call after, calls = before ++ call :: after →
    (planned config before call).suppressed = true →
    (runCalls config (before ++ [call])).1.consecutiveFailures =
        (runCalls config before).1.consecutiveFailures ∧
      ((runCalls config (before ++ [call])).1.attemptsMs.filter fun t =>
          call.1 - t < config.windowMs) =
        (runCalls config before).1.attemptsMs.filter fun t => call.1 - t < config.windowMs

theorem baseDelay_nonneg (config : RestartPolicyConfig) : 0 ≤ config.baseDelay := le_max_left _ _

theorem backoff_config (config : RestartPolicyConfig) (k : Nat) :
    backoff config.maximumDelay k config.baseDelay =
      min config.maximumDelay (config.baseDelay * 2 ^ k) :=
  backoff_eq (baseDelay_nonneg config) (le_max_left _ _) k

theorem RestartPolicyConfig.FitsInt.maximumDelay (h : config.FitsInt) :
    config.maximumDelay ≤ intMax := by
  obtain ⟨hdelay, hmaximum⟩ := h
  have hint : 0 ≤ intMax := by decide
  exact max_le (max_le hint hdelay) hmaximum

theorem grants_length_le (before later : List RestartCall) :
    (runCalls config before).2.length ≤ (runCalls config (before ++ later)).2.length := by
  induction later using List.reverseRecOn with
  | nil => rw [List.append_nil]
  | append_singleton later call ih =>
    rw [← List.append_assoc, runCalls_snoc, runCall]
    simp only
    split
    · rw [List.length_append]
      exact ih.trans (Nat.le_add_right _ _)
    · exact ih

theorem Unreset.plan {before after : List RestartCall} {call : RestartCall}
    (h : Unreset config (before ++ call :: after)) (hfits : config.FitsInt)
    (hwindow : 1 ≤ config.windowMs) (hmax : 1 ≤ config.maxAttempts) :
    planAutomaticRestart config (runCalls config before).1 call.1 call.2 =
      if config.maxAttempts ≤ (recentGrants config call.1 (runCalls config before).2).length then
        ({ suppressed := true
           attemptsInWindow := (recentGrants config call.1 (runCalls config before).2).length },
          { (runCalls config before).1 with
            attemptsMs := recentGrants config call.1 (runCalls config before).2
            suppressed := true })
      else
        ({ restart := true
           delayMs := min (backoff config.maximumDelay
             (wrapInt (runCalls config before).2.length).toNat config.baseDelay) intMax
           attemptsInWindow := (recentGrants config call.1 (runCalls config before).2).length + 1 },
          { attemptsMs := recentGrants config call.1 (runCalls config before).2 ++ [call.1]
            consecutiveFailures := wrapInt ((runCalls config before).2.length + 1)
            suppressed := false }) := by
  obtain ⟨hbefore, hearlier, hkept⟩ := h.split
  exact (hbefore.keeps hfits hwindow hmax hearlier).plan (le_refl _) hfits hwindow hmax hkept

theorem Unreset.granted_iff {before after : List RestartCall} {call : RestartCall}
    (h : Unreset config (before ++ call :: after)) (hfits : config.FitsInt)
    (hwindow : 1 ≤ config.windowMs) (hmax : 1 ≤ config.maxAttempts) :
    (planned config before call).restart = true ↔
      (recentGrants config call.1 (runCalls config before).1.attemptsMs).length <
        config.maxAttempts := by
  obtain ⟨hbefore, hearlier, -⟩ := h.split
  have hrecent := (hbefore.keeps hfits hwindow hmax hearlier).recent (le_refl _)
  rw [planned, h.plan hfits hwindow hmax, show recentGrants config call.1
    (runCalls config before).1.attemptsMs = _ from hrecent]
  split
  · rename_i hmany
    exact iff_of_false Bool.false_ne_true (by omega)
  · rename_i hfew
    exact iff_of_true rfl (by omega)

theorem Unreset.granted_delay {before after : List RestartCall} {call : RestartCall}
    (h : Unreset config (before ++ call :: after)) (hfits : config.FitsInt)
    (hwindow : 1 ≤ config.windowMs) (hmax : 1 ≤ config.maxAttempts)
    (hrestart : (planned config before call).restart = true) :
    (planned config before call).delayMs = min config.maximumDelay
      (config.baseDelay * 2 ^ (wrapInt (runCalls config before).2.length).toNat) := by
  have hint : backoff config.maximumDelay (wrapInt (runCalls config before).2.length).toNat
      config.baseDelay ≤ intMax := by
    rw [backoff_config]
    exact (min_le_left _ _).trans hfits.maximumDelay
  rw [planned, h.plan hfits hwindow hmax] at hrestart ⊢
  split at hrestart
  · cases hrestart
  · rename_i hfew
    rw [if_neg hfew]
    simp only
    rw [min_eq_left hint, backoff_config]

/-- In every window of the configured length no more restarts are granted than the configured
number. -/
theorem Unreset.window {calls : List RestartCall} (h : Unreset config calls)
    (hfits : config.FitsInt) (hwindow : 1 ≤ config.windowMs)
    (hmax : 1 ≤ config.maxAttempts) (t : Int) :
    ((runCalls config calls).2.countP fun g => t ≤ g && g < t + config.windowMs) ≤
      config.maxAttempts := by
  induction calls using List.reverseRecOn with
  | nil =>
    rw [runCalls, List.foldl_nil, List.countP_nil]
    exact (show (0 : Int) ≤ 1 by decide).trans hmax
  | append_singleton before call ih =>
    have hold := ih h.split.1
    rw [runCalls_snoc, runCall, h.plan hfits hwindow hmax]
    split
    · exact hold
    · rename_i hfew
      simp only [if_true]
      rw [List.countP_append, List.countP_singleton]
      split
      · rename_i hin
        simp only [Bool.and_eq_true, decide_eq_true_iff] at hin
        -- A grant in a window that holds this call is younger than the window at the call.
        have hrecent :
          (runCalls config before).2.countP (fun g => t ≤ g && g < t + config.windowMs) ≤
            (recentGrants config call.1 (runCalls config before).2).length := by
          rw [recentGrants, ← List.countP_eq_length_filter]
          refine List.countP_mono_left fun g _ hg => ?_
          simp only [Bool.and_eq_true, decide_eq_true_iff] at hg ⊢
          omega
        omega
      · exact hold

def RestartPolicyConfig.Constant (config : RestartPolicyConfig) : Prop :=
  config.baseDelay = 0 ∨ config.baseDelay = config.maximumDelay

instance (config : RestartPolicyConfig) : Decidable config.Constant :=
  inferInstanceAs (Decidable (_ ∨ _))

/-- Where the delays grow, no call below the attempt limit finds that the counter has wrapped. -/
def CountFits (config : RestartPolicyConfig) (calls : List RestartCall) : Prop :=
  ∀ before call after, calls = before ++ call :: after →
    (recentGrants config call.1 (runCalls config before).1.attemptsMs).length <
      config.maxAttempts →
    0 ≤ (runCalls config before).1.consecutiveFailures ∨ config.Constant

theorem RestartPolicyConfig.Constant.delay (h : config.Constant) (k : Nat) :
    min config.maximumDelay (config.baseDelay * 2 ^ k) = config.baseDelay := by
  have hpow : (1 : Int) ≤ 2 ^ k := one_le_pow₀ (by norm_num)
  rcases h with hzero | hmax
  · rw [hzero, zero_mul]
    exact min_eq_right ((baseDelay_nonneg config).trans (le_max_left _ _))
  · rw [← hmax, min_eq_left (le_mul_of_one_le_right (baseDelay_nonneg config) hpow)]

theorem CountFits.split {before after : List RestartCall} {call : RestartCall}
    (h : CountFits config (before ++ call :: after)) : CountFits config before := by
  rintro first earlier rest rfl
  refine h first earlier (rest ++ call :: after) ?_
  rw [List.append_assoc, List.cons_append]

theorem Unreset.failures {before after : List RestartCall} {call : RestartCall}
    (h : Unreset config (before ++ call :: after)) (hfits : config.FitsInt)
    (hwindow : 1 ≤ config.windowMs) (hmax : 1 ≤ config.maxAttempts) :
    (runCalls config before).1.consecutiveFailures = wrapInt (runCalls config before).2.length := by
  obtain ⟨hbefore, hearlier, -⟩ := h.split
  exact (hbefore.keeps hfits hwindow hmax hearlier).failures

theorem CountFits.grants_le {calls : List RestartCall} (hcounted : CountFits config calls)
    (hgrows : ¬config.Constant) (h : Unreset config calls) (hfits : config.FitsInt)
    (hwindow : 1 ≤ config.windowMs) (hmax : 1 ≤ config.maxAttempts) :
    (runCalls config calls).2.length ≤ 2 ^ 31 := by
  induction calls using List.reverseRecOn with
  | nil => exact Nat.zero_le _
  | append_singleton before call ih =>
    have hbefore := ih hcounted.split h.split.1
    rw [runCalls_snoc, runCall]
    simp only
    split
    · rename_i hrestart
      have hlimit := (h.granted_iff hfits hwindow hmax).1 hrestart
      have hnonneg := (hcounted before call [] rfl hlimit).resolve_right hgrows
      rw [h.failures hfits hwindow hmax] at hnonneg
      have hne : (runCalls config before).2.length ≠ 2 ^ 31 := by
        intro heq
        rw [heq] at hnonneg
        exact absurd hnonneg (by decide)
      rw [List.length_append, List.length_singleton]
      omega
    · exact hbefore

theorem CountFits.granted_delay {before after : List RestartCall} {call : RestartCall}
    (hcounted : CountFits config (before ++ call :: after))
    (h : Unreset config (before ++ call :: after)) (hfits : config.FitsInt)
    (hwindow : 1 ≤ config.windowMs) (hmax : 1 ≤ config.maxAttempts)
    (hrestart : (planned config before call).restart = true) :
    (planned config before call).delayMs =
      min config.maximumDelay (config.baseDelay * 2 ^ (runCalls config before).2.length) := by
  rw [h.granted_delay hfits hwindow hmax hrestart]
  by_cases hconstant : config.Constant
  · rw [hconstant.delay, hconstant.delay]
  · have hlimit := (h.granted_iff hfits hwindow hmax).1 hrestart
    have hnonneg := (hcounted before call after rfl hlimit).resolve_right hconstant
    have hle := hcounted.split.grants_le hconstant h.split.1 hfits hwindow hmax
    rw [h.failures hfits hwindow hmax] at hnonneg
    have hfew : (runCalls config before).2.length < 2 ^ 31 := by
      refine lt_of_le_of_ne hle fun heq => ?_
      rw [heq] at hnonneg
      exact absurd hnonneg (by decide)
    have hint : intMax = 2147483647 := rfl
    rw [wrapInt_of_le (Int.natCast_nonneg _) (by omega), Int.toNat_natCast]

/-- A sequence of calls without a reset in which the counter does not wrap keeps to the restart
policy. -/
theorem CountFits.limited {calls : List RestartCall} (hcounted : CountFits config calls)
    (h : Unreset config calls) (hfits : config.FitsInt) (hwindow : 1 ≤ config.windowMs)
    (hmax : 1 ≤ config.maxAttempts) : Limited config calls where
  window := h.window hfits hwindow hmax
  suppressed := by
    rintro before call after rfl
    rw [planned, h.plan hfits hwindow hmax, List.countP_eq_length_filter, ← recentGrants]
    split
    · rename_i hmany
      exact ⟨iff_of_true rfl hmany, rfl⟩
    · rename_i hfew
      exact ⟨iff_of_false Bool.false_ne_true hfew, rfl⟩
  delay := by
    rintro before call after rfl hrestart
    exact hcounted.granted_delay h hfits hwindow hmax hrestart
  increasing := by
    rintro before call between call' after rfl hrestart hrestart'
    have hdelay := hcounted.granted_delay h hfits hwindow hmax hrestart
    have hsplit : before ++ call :: (between ++ call' :: after) =
        (before ++ call :: between) ++ call' :: after := by
      rw [List.append_assoc, List.cons_append]
    rw [hsplit] at h hcounted
    have hdelay' := hcounted.granted_delay h hfits hwindow hmax hrestart'
    have hpow : (2 : Int) ^ (runCalls config before).2.length ≤
        2 ^ (runCalls config (before ++ call :: between)).2.length :=
      pow_le_pow_right₀ (by norm_num) (grants_length_le before (call :: between))
    rw [hdelay, hdelay']
    exact min_le_min_left _ (mul_le_mul_of_nonneg_left hpow (baseDelay_nonneg config))
  bounded := by
    intro k
    have hmaximum := hfits.maximumDelay
    have hbase := baseDelay_nonneg config
    have hint : intMax = 2147483647 := rfl
    rw [backoff_config]
    refine ⟨le_min (hbase.trans (le_max_left _ _)) (by positivity), ?_⟩
    have hle := min_le_left config.maximumDelay (config.baseDelay * 2 ^ k)
    omega
  kept := by
    rintro before call after rfl hsuppressed
    have hplan := h.plan hfits hwindow hmax
    obtain ⟨hbefore, hearlier, -⟩ := h.split
    have hkeeps := hbefore.keeps hfits hwindow hmax hearlier
    rw [planned, hplan] at hsuppressed
    rw [runCalls_snoc, runCall, hplan]
    split at hsuppressed
    · rename_i hmany
      rw [if_pos hmany]
      refine ⟨rfl, ?_⟩
      rw [hkeeps.recent (le_refl _)]
      simp only [recentGrants, List.filter_filter, Bool.and_self]
    · cases hsuppressed

theorem Limited.counted {calls : List RestartCall} (hlimited : Limited config calls)
    (h : Unreset config calls) (hfits : config.FitsInt) (hwindow : 1 ≤ config.windowMs)
    (hmax : 1 ≤ config.maxAttempts) : CountFits config calls := by
  rintro before call after rfl hlimit
  by_contra hwrapped
  obtain ⟨hneg, hgrows⟩ := not_or.1 hwrapped
  have hrestart := (h.granted_iff hfits hwindow hmax).2 hlimit
  have hclosed := hlimited.delay before call after rfl hrestart
  rw [h.granted_delay hfits hwindow hmax hrestart, ← h.failures hfits hwindow hmax,
    Int.toNat_of_nonpos (by omega), pow_zero, mul_one,
    min_eq_right (show config.baseDelay ≤ config.maximumDelay from le_max_left _ _)] at hclosed
  rw [h.failures hfits hwindow hmax] at hneg
  obtain ⟨hzero, hmaximum⟩ := not_or.1 hgrows
  have hlt : config.baseDelay < config.maximumDelay :=
    lt_of_le_of_ne (le_max_left _ _) hmaximum
  -- A counter that has wrapped has been raised before.
  obtain ⟨k, hk⟩ : ∃ k, (runCalls config before).2.length = k + 1 := by
    refine Nat.exists_eq_succ_of_ne_zero fun hnone => ?_
    rw [hnone] at hneg
    exact hneg (by decide)
  have hpow : (1 : Int) ≤ 2 ^ k := one_le_pow₀ (by norm_num)
  have hdouble : config.baseDelay < config.baseDelay * 2 ^ (k + 1) := by
    have hbase := baseDelay_nonneg config
    rw [pow_succ]
    nlinarith [lt_of_le_of_ne hbase (Ne.symm hzero)]
  rw [hk] at hclosed
  exact absurd hclosed (lt_min hlt hdouble).ne

theorem runCalls_grants_le (config : RestartPolicyConfig) (calls : List RestartCall) :
    (runCalls config calls).2.length ≤ calls.length := by
  induction calls using List.reverseRecOn with
  | nil => exact Nat.zero_le _
  | append_singleton before call ih =>
    rw [runCalls_snoc, runCall, List.length_append, List.length_singleton]
    simp only
    split
    · rw [List.length_append, List.length_singleton]
      omega
    · omega

/-- The counter holds the grants of every sequence that is not longer than `2 ^ 31` calls. -/
theorem counted_of_length {calls : List RestartCall} (hlength : calls.length ≤ 2 ^ 31)
    (hfits : config.FitsInt) (hwindow : 1 ≤ config.windowMs) (hmax : 1 ≤ config.maxAttempts)
    (h : Unreset config calls) : CountFits config calls := by
  rintro before call after rfl -
  have hle := runCalls_grants_le config before
  have hint : intMax = 2147483647 := rfl
  rw [List.length_append, List.length_cons] at hlength
  left
  rw [h.failures hfits hwindow hmax, wrapInt_of_le (Int.natCast_nonneg _) (by omega)]
  exact Int.natCast_nonneg _

def crashLoopConfig : RestartPolicyConfig where
  delayMs := 1
  maxDelayMs := 2
  windowMs := 1
  maxAttempts := 1

def crashLoop (count : Nat) : List RestartCall := 
  (List.range count).map fun i : Nat => (2 * (i : Int), 0)

theorem crashLoop_succ (count : Nat) :
    crashLoop (count + 1) = crashLoop count ++ [(2 * (count : Int), 0)] := by
  rw [crashLoop, List.range_succ, List.map_append]
  rfl

theorem crashLoop_unreset (count : Nat) : Unreset crashLoopConfig (crashLoop count) where
  ordered := by
    rw [crashLoop, List.pairwise_map]
    refine List.pairwise_lt_range.imp fun hlt => ?_
    simp only
    omega
  kept := by
    intro call hcall
    obtain ⟨i, -, rfl⟩ := List.mem_map.1 hcall
    simp only
    decide

theorem crashLoopConfig_fitsInt : crashLoopConfig.FitsInt := ⟨by decide, by decide, by decide⟩

theorem crashLoop_grants (count : Nat) :
    (runCalls crashLoopConfig (crashLoop count)).2 = (crashLoop count).map Prod.fst := by
  induction count with
  | zero => rfl
  | succ count ih =>
    have hnone : recentGrants crashLoopConfig (2 * count) (runCalls crashLoopConfig
        (crashLoop count)).2 = [] := by
      rw [ih, recentGrants, List.filter_eq_nil_iff]
      intro g hg
      obtain ⟨call, hcall, rfl⟩ := List.mem_map.1 hg
      obtain ⟨i, hi, rfl⟩ := List.mem_map.1 hcall
      have hlt := List.mem_range.1 hi
      have hwindow : crashLoopConfig.windowMs = 1 := rfl
      rw [decide_eq_true_iff, hwindow]
      omega
    have h := crashLoop_unreset (count + 1)
    rw [crashLoop_succ] at h ⊢
    rw [runCalls_snoc, runCall, h.plan crashLoopConfig_fitsInt (by decide) (by decide), hnone,
      if_neg (by decide), List.map_append, ih]
    rfl

end PmTiny
