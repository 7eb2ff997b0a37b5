import Mathlib.Algebra.Group.Nat.Defs
import Mathlib.Tactic.Basic

namespace PmTiny
set_option autoImplicit true

def restartAttemptLimitReason : String := "restart attempt limit reached"

structure RestartPolicyConfig where
  delayMs : Int := 1000
  maxDelayMs : Int := 30000
  windowMs : Int := 60000
  maxAttempts : Int := 10
  resetAfterMs : Int := 60000
  deriving DecidableEq, Repr

structure RestartPolicyState where
  attemptsMs : List Int := []
  consecutiveFailures : Int := 0
  suppressed : Bool := false
  deriving DecidableEq, Repr

def RestartPolicyState.reset (_ : RestartPolicyState) : RestartPolicyState := {}

structure RestartDecision where
  restart : Bool := false
  suppressed : Bool := false
  delayMs : Int := 0
  attemptsInWindow : Int := 0
  deriving DecidableEq, Repr

/-- Double the delay once for each earlier failure, up to the maximum. -/
def backoff (maximumDelay : Int) : Nat → Int → Int
  | 0, delay => delay
  | i + 1, delay =>
    if delay < maximumDelay then backoff maximumDelay i (min maximumDelay (delay * 2)) else delay

def intMax : Int := 2147483647

/-- What an `int` holds after `value` was computed in it: compilers wrap the overflow. -/
def wrapInt (value : Int) : Int := Int.bmod value (2 ^ 32)

def planAutomaticRestart (config : RestartPolicyConfig) (state : RestartPolicyState)
    (nowMs runtimeMs : Int) : RestartDecision × RestartPolicyState :=
  let state :=
    if config.resetAfterMs > 0 ∧ runtimeMs ≥ config.resetAfterMs then state.reset else state
  let windowMs := max 0 config.windowMs
  let attempts := state.attemptsMs.dropWhile fun t => nowMs - t ≥ windowMs
  let state := { state with attemptsMs := attempts }
  let attemptsInWindow := wrapInt attempts.length
  if config.maxAttempts > 0 ∧ attemptsInWindow ≥ config.maxAttempts then
    ({ suppressed := true, attemptsInWindow }, { state with suppressed := true })
  else
    let baseDelay := max 0 config.delayMs
    let maximumDelay := max baseDelay config.maxDelayMs
    -- A counter that has wrapped is negative, and the loop then makes no round.
    let delay := backoff maximumDelay state.consecutiveFailures.toNat baseDelay
    ({ restart := true, delayMs := min delay intMax
       attemptsInWindow := wrapInt (attempts.length + 1) },
      { attemptsMs := attempts ++ [nowMs]
        consecutiveFailures := wrapInt (state.consecutiveFailures + 1), suppressed := false })

end PmTiny
