import EdgeLink.Client.RetransmitAge
import EdgeLink.Foundations.Clamp
import EdgeLink.Foundations.Run
import Mathlib.Algebra.Order.Group.MinMax
import Mathlib.Tactic.Linarith

/-!
# The congestion controller

`CongestionControl` of `transport/congestion.ts`, with the validation of its configuration
(`connection-config.ts`) and its construction (`buildCongestionControl` of
`pipeline/reliable-client.ts`). Arithmetic is exact, and `Math.round` rounds halves up.

* `adjust_bounds`: an adjustment gives a whole number within the bounds, moves the timer by at most
  the allowed share of it and a half, and does not shorten it under severe congestion.
* `adjustedTimer_above`, `adjustedTimer_below`: without severe congestion, the timer moves towards
  the nominal by a share of itself, which does not depend on the distance to the nominal.
* `calm_run_notFarther_iff`: the timer gets no farther from the nominal in exactly the runs in which
  each step is at most twice the distance, up to rounding; where each is shorter than that, the
  timer does not come back to a distance it has left.
-/

namespace EdgeLink

/-! ## Configuration -/

def CONGESTION_MIN_DELTA_TIMER : ℚ := 100
def CONGESTION_MAX_DELTA_TIMER : ℚ := 5000
def CONGESTION_TARGET_RTT : ℚ := 200
def CONGESTION_ADJUST_INTERVAL : ℚ := 5000
def CONGESTION_MAX_ADJUSTMENT : ℚ := 1 / 5
def CONGESTION_SMOOTHING_FACTOR : ℚ := 1 / 5
def CONGESTION_LOSS_THRESHOLD_LOW : ℚ := 1 / 100
def CONGESTION_LOSS_THRESHOLD_HIGH : ℚ := 1 / 20
def CONGESTION_RTT_MULTIPLIER_HIGH : ℚ := 3 / 2
def CONGESTION_INCREASE_FACTOR : ℚ := 19 / 20
def CONGESTION_DECREASE_FACTOR : ℚ := 3 / 2

/-- The numeric fields of the congestion options, with their ranges. -/
def congestionChecks : List (String × ℕ × ℕ) :=
  [("targetRTT", 50, 2000),
    ("nominalDeltaTimer", 100, 10000),
    ("minDeltaTimer", 50, 1000),
    ("maxDeltaTimer", 1000, 30000)]

/-- The minimum is above the maximum, both given. -/
def minTimerAboveMax (congestionControl : JsValue) : Bool :=
  match congestionControl.get "minDeltaTimer", congestionControl.get "maxDeltaTimer" with
  | .num (.finite min), .num (.finite max) => max < min
  | _, _ => false

/-- The congestion part of `validateConnectionConfig` for a client. -/
def validateCongestionControl (p : String) (congestionControl : JsValue) : Option String :=
  match congestionControl with
  | .undefined => none
  | .obj _ =>
    (congestionChecks.findSome? fun check =>
        numberRangeError congestionControl check.1 check.2.1 check.2.2
          (p ++ "congestionControl." ++ check.1))
      <|> booleanError congestionControl "enabled" (p ++ "congestionControl.enabled")
      <|> if minTimerAboveMax congestionControl then
          some (p ++ "congestionControl.minDeltaTimer must be <= maxDeltaTimer")
        else none
  | _ => some (p ++ "congestionControl must be an object")

/-- What the controller takes from its configuration. -/
structure CongestionSettings where
  enabled : Bool
  minDeltaTimer : ℚ
  maxDeltaTimer : ℚ
  targetRTT : ℚ
  adjustInterval : ℚ
  maxAdjustment : ℚ
  nominalDeltaTimer : ℚ
  alpha : ℚ
  deriving DecidableEq

/-- The state of the controller. -/
structure CongestionControl where
  currentDeltaTimer : ℚ
  lastAdjustment : Time
  avgRTT : ℚ := 0
  avgLoss : ℚ := 0
  hasRTTSample : Bool := false
  hasLossSample : Bool := false
  manualMode : Bool := false
  deriving DecidableEq

/-- `buildCongestionControl`: the settings of accepted options, on a client whose delta timer is
`deltaTimerTime`. -/
def buildCongestionControl (config : JsValue) (deltaTimerTime : ℚ) : CongestionSettings where
  enabled := booleanOr config "enabled" false
  minDeltaTimer := numberOr config "minDeltaTimer" CONGESTION_MIN_DELTA_TIMER
  maxDeltaTimer := numberOr config "maxDeltaTimer" CONGESTION_MAX_DELTA_TIMER
  targetRTT := numberOr config "targetRTT" CONGESTION_TARGET_RTT
  adjustInterval := numberOr config "adjustInterval" CONGESTION_ADJUST_INTERVAL
  maxAdjustment := numberOr config "maxAdjustment" CONGESTION_MAX_ADJUSTMENT
  nominalDeltaTimer := numberOr config "nominalDeltaTimer" deltaTimerTime
  alpha := numberOr config "smoothingFactor" CONGESTION_SMOOTHING_FACTOR

/-- A new controller. -/
def CongestionControl.new (config : JsValue) (now : Time) : CongestionControl where
  currentDeltaTimer := numberOr config "initialDeltaTimer" 1000
  lastAdjustment := now

/-! ## The controller -/

namespace CongestionControl

variable (s : CongestionSettings) (cc : CongestionControl)

/-- The moving average after a sample. -/
def smooth (alpha : ℚ) (hasSample : Bool) (average sample : ℚ) : ℚ :=
  if hasSample then alpha * sample + (1 - alpha) * average else sample

/-- Take in a round-trip time, unless it is negative or not finite. -/
def updateRTT (rtt : JsNumber) : CongestionControl :=
  match rtt with
  | .finite q =>
    if 0 ≤ q then
      { cc with avgRTT := smooth s.alpha cc.hasRTTSample cc.avgRTT q, hasRTTSample := true }
    else cc
  | _ => cc

/-- Take in a loss ratio, unless it is negative or not finite. -/
def updateLoss (packetLoss : JsNumber) : CongestionControl :=
  match packetLoss with
  | .finite q =>
    if 0 ≤ q then
      { cc with avgLoss := smooth s.alpha cc.hasLossSample cc.avgLoss q, hasLossSample := true }
    else cc
  | _ => cc

def updateMetrics (rtt packetLoss : JsNumber) : CongestionControl :=
  (cc.updateRTT s rtt).updateLoss s packetLoss

/-- An adjustment is due. -/
def shouldAdjust (now : Time) : Bool :=
  s.enabled && !cc.manualMode && (cc.hasRTTSample || cc.hasLossSample)
    && decide (s.adjustInterval ≤ (now - cc.lastAdjustment : ℤ))

/-- The nominal timer, within the bounds. -/
def nominal : ℚ := clamp s.minDeltaTimer s.maxDeltaTimer s.nominalDeltaTimer

def severeCongestion : Bool :=
  decide (CONGESTION_LOSS_THRESHOLD_HIGH < cc.avgLoss)
    || decide (s.targetRTT * CONGESTION_RTT_MULTIPLIER_HIGH < cc.avgRTT)

def veryHealthy : Bool :=
  decide (cc.avgLoss < CONGESTION_LOSS_THRESHOLD_LOW) && decide (0 < cc.avgRTT)
    && decide (cc.avgRTT < s.targetRTT * (4 / 5))

/-- What the regime makes of the timer. -/
def regimeTimer : ℚ :=
  let oldTimer := cc.currentDeltaTimer
  if severeCongestion s cc then oldTimer * CONGESTION_DECREASE_FACTOR
  else if veryHealthy s cc then
    if nominal s < oldTimer then oldTimer * CONGESTION_INCREASE_FACTOR
    else if oldTimer < nominal s then oldTimer * (21 / 20)
    else oldTimer
  else if nominal s < oldTimer then oldTimer * (49 / 50)
  else if oldTimer < nominal s then oldTimer * (51 / 50)
  else oldTimer

/-- With the nominal at the minimum, a very healthy link drives the timer to the minimum. -/
def proposedTimer : ℚ :=
  if nominal s = s.minDeltaTimer ∧ veryHealthy s cc ∧ ¬ severeCongestion s cc then
    cc.currentDeltaTimer * CONGESTION_INCREASE_FACTOR
  else regimeTimer s cc

/-- `Math.sign` -/
def mathSign (x : ℚ) : ℚ := if 0 < x then 1 else if x < 0 then -1 else 0

/-- Hold a change of the timer to `maxChange`. -/
def limitChange (maxChange oldTimer newTimer : ℚ) : ℚ :=
  if maxChange < |newTimer - oldTimer| then oldTimer + mathSign (newTimer - oldTimer) * maxChange
  else newTimer

/-- The timer that an adjustment sets. -/
def adjustedTimer : ℤ :=
  let oldTimer := cc.currentDeltaTimer
  let newTimer := limitChange (oldTimer * s.maxAdjustment) oldTimer (proposedTimer s cc)
  ⌊clamp s.minDeltaTimer s.maxDeltaTimer newTimer + 1 / 2⌋

def adjust (now : Time) : CongestionControl :=
  if shouldAdjust s cc now then
    { cc with currentDeltaTimer := adjustedTimer s cc, lastAdjustment := now }
  else cc

def setManualDeltaTimer (value : ℚ) : CongestionControl :=
  { cc with manualMode := true, currentDeltaTimer := value }

def enableAutoMode (now : Time) : CongestionControl :=
  { cc with manualMode := false, lastAdjustment := now }

end CongestionControl

inductive CongestionEvent where
  | updateMetrics (rtt packetLoss : JsNumber)
  | adjust (now : Time)
  | setManualDeltaTimer (value : ℚ)
  | enableAutoMode (now : Time)

def CongestionControl.step (s : CongestionSettings) (cc : CongestionControl) :
    CongestionEvent → CongestionControl
  | .updateMetrics rtt packetLoss => cc.updateMetrics s rtt packetLoss
  | .adjust now => cc.adjust s now
  | .setManualDeltaTimer value => cc.setManualDeltaTimer value
  | .enableAutoMode now => cc.enableAutoMode now

/-! ## Accepted settings -/

section Accepted

variable {p : String} {config : JsValue}

/-- Every numeric field of accepted options is left out or in its range. -/
theorem congestionRange_of_accepted (h : validateCongestionControl p config = none)
    (check : String × ℕ × ℕ) (hcheck : check ∈ congestionChecks) :
    config.get check.1 = .undefined ∨
      ∃ q : ℚ, config.get check.1 = .num (.finite q) ∧ check.2.1 ≤ q ∧ q ≤ check.2.2 := by
  unfold validateCongestionControl at h
  split at h
  · exact Or.inl rfl
  · rw [Option.orElse_eq_none] at h
    exact numberRangeError_eq_none.1 (List.findSome?_eq_none_iff.1 h.1 check hcheck)
  · nomatch h

/-- A field with a default in its range is read in its range. -/
theorem numberOr_mem_range (h : validateCongestionControl p config = none) {key : String}
    {min max : ℕ} (hcheck : (key, min, max) ∈ congestionChecks) (default : ℚ)
    (hmin : min ≤ default) (hmax : default ≤ max) :
    min ≤ numberOr config key default ∧ numberOr config key default ≤ max := by
  unfold numberOr
  rcases congestionRange_of_accepted h _ hcheck with hu | ⟨q, hq, hlo, hhi⟩
  · rw [hu]
    exact ⟨hmin, hmax⟩
  · rw [hq]
    exact ⟨hlo, hhi⟩

/-- Accepted bounds are in order: the ranges of the two meet in one second. -/
theorem minDeltaTimer_le_max (h : validateCongestionControl p config = none) (timer : ℚ) :
    50 ≤ (buildCongestionControl config timer).minDeltaTimer ∧
      (buildCongestionControl config timer).minDeltaTimer ≤
        (buildCongestionControl config timer).maxDeltaTimer := by
  have hminCheck : ("minDeltaTimer", 50, 1000) ∈ congestionChecks := by simp [congestionChecks]
  have hmaxCheck : ("maxDeltaTimer", 1000, 30000) ∈ congestionChecks := by simp [congestionChecks]
  obtain ⟨hmin, hmin'⟩ := numberOr_mem_range h hminCheck CONGESTION_MIN_DELTA_TIMER
    (by norm_num [CONGESTION_MIN_DELTA_TIMER]) (by norm_num [CONGESTION_MIN_DELTA_TIMER])
  obtain ⟨hmax, -⟩ := numberOr_mem_range h hmaxCheck CONGESTION_MAX_DELTA_TIMER
    (by norm_num [CONGESTION_MAX_DELTA_TIMER]) (by norm_num [CONGESTION_MAX_DELTA_TIMER])
  exact ⟨by exact_mod_cast hmin, hmin'.trans (by exact_mod_cast hmax)⟩

/-- The timers that the options give are whole numbers of milliseconds. -/
def IntegerTimers (config : JsValue) : Prop :=
  ∀ key ∈ ["nominalDeltaTimer", "minDeltaTimer", "maxDeltaTimer"],
    ∀ q : ℚ, config.get key = .num (.finite q) → ∃ n : ℤ, q = n

theorem numberOr_integer (h : IntegerTimers config) {key : String}
    (hkey : key ∈ ["nominalDeltaTimer", "minDeltaTimer", "maxDeltaTimer"]) {default : ℚ}
    (hdefault : ∃ n : ℤ, default = n) : ∃ n : ℤ, numberOr config key default = n := by
  unfold numberOr
  split
  next q hq => exact h key hkey q hq
  next => exact hdefault

theorem integer_bounds (h : IntegerTimers config) (timer : ℚ) :
    ∃ lo hi : ℤ, (buildCongestionControl config timer).minDeltaTimer = lo ∧
      (buildCongestionControl config timer).maxDeltaTimer = hi := by
  obtain ⟨lo, hlo⟩ : ∃ lo : ℤ, numberOr config "minDeltaTimer" CONGESTION_MIN_DELTA_TIMER = lo :=
    numberOr_integer h (by simp) ⟨100, by norm_num [CONGESTION_MIN_DELTA_TIMER]⟩
  obtain ⟨hi, hhi⟩ : ∃ hi : ℤ, numberOr config "maxDeltaTimer" CONGESTION_MAX_DELTA_TIMER = hi :=
    numberOr_integer h (by simp) ⟨5000, by norm_num [CONGESTION_MAX_DELTA_TIMER]⟩
  exact ⟨lo, hi, hlo, hhi⟩

end Accepted

namespace CongestionControl

variable {s : CongestionSettings} {cc : CongestionControl}

/-! ## The bounds of an adjustment -/

theorem limitChange_eq {c oldTimer newTimer : ℚ} (hc : 0 ≤ c) :
    limitChange c oldTimer newTimer = oldTimer + clamp (-c) c (newTimer - oldTimer) := by
  unfold limitChange mathSign
  split_ifs with h hpos hneg
  · rw [abs_of_pos hpos] at h
    rw [clamp_eq_min (by linarith) (by linarith), min_eq_left h.le, one_mul]
  · rw [abs_of_neg hneg] at h
    rw [clamp_eq_max (by linarith), max_eq_left (by linarith)]
    ring
  · have hzero : newTimer - oldTimer = 0 := le_antisymm (not_lt.1 hpos) (not_lt.1 hneg)
    rw [hzero, abs_zero] at h
    exact absurd hc (not_le.2 h)
  · rw [not_lt, abs_le] at h
    rw [clamp_eq_self h.1 h.2]
    ring

theorem abs_limitChange_sub_le {c oldTimer newTimer : ℚ} (hc : 0 ≤ c) :
    |limitChange c oldTimer newTimer - oldTimer| ≤ c := by
  rw [limitChange_eq hc, add_sub_cancel_left, abs_le]
  exact ⟨le_clamp .., clamp_le (by linarith)⟩

theorem proposedTimer_of_severe (h : severeCongestion s cc = true) :
    proposedTimer s cc = cc.currentDeltaTimer * CONGESTION_DECREASE_FACTOR := by
  simp [proposedTimer, regimeTimer, h]

/-- Under severe congestion the timer is not shortened, before it is rounded. -/
theorem le_limitChange_of_severe (h : severeCongestion s cc = true)
    (ht : 0 ≤ cc.currentDeltaTimer) (hm : 0 ≤ s.maxAdjustment) :
    cc.currentDeltaTimer ≤ limitChange (cc.currentDeltaTimer * s.maxAdjustment)
      cc.currentDeltaTimer (proposedTimer s cc) := by
  have hc := mul_nonneg ht hm
  rw [limitChange_eq hc, proposedTimer_of_severe h, CONGESTION_DECREASE_FACTOR]
  have hchange : 0 ≤ clamp (-(cc.currentDeltaTimer * s.maxAdjustment))
      (cc.currentDeltaTimer * s.maxAdjustment)
      (cc.currentDeltaTimer * (3 / 2) - cc.currentDeltaTimer) :=
    (le_min hc (by linarith)).trans (le_max_right ..)
  linarith

section Whole

variable {timer lo hi : ℤ}

theorem adjustedTimer_mem (hmin : s.minDeltaTimer = lo) (hmax : s.maxDeltaTimer = hi)
    (horder : s.minDeltaTimer ≤ s.maxDeltaTimer) :
    lo ≤ adjustedTimer s cc ∧ adjustedTimer s cc ≤ hi :=
  floor_half_mem (hmin.ge.trans (le_clamp ..)) ((clamp_le horder).trans hmax.le)

/-- The clamp does not lengthen the limited change, and rounding adds a half. -/
theorem abs_adjustedTimer_sub_le (htimer : cc.currentDeltaTimer = timer)
    (hlo : s.minDeltaTimer ≤ timer) (hhi : timer ≤ s.maxDeltaTimer)
    (hc : 0 ≤ timer * s.maxAdjustment) :
    |(adjustedTimer s cc : ℚ) - timer| ≤ s.maxAdjustment * timer + 1 / 2 := by
  set limited := limitChange (timer * s.maxAdjustment) timer (proposedTimer s cc) with hlimited
  have hchange : |limited - timer| ≤ timer * s.maxAdjustment := abs_limitChange_sub_le hc
  have hclamp := (abs_clamp_sub_le (x := limited) hlo hhi).trans hchange
  have hround := abs_floor_half_sub_le (clamp s.minDeltaTimer s.maxDeltaTimer limited)
  have hsum := abs_sub_le (⌊clamp s.minDeltaTimer s.maxDeltaTimer limited + 1 / 2⌋ : ℚ)
    (clamp s.minDeltaTimer s.maxDeltaTimer limited) timer
  rw [adjustedTimer, htimer, mul_comm s.maxAdjustment]
  linarith

theorem le_adjustedTimer_of_severe (h : severeCongestion s cc = true)
    (htimer : cc.currentDeltaTimer = timer) (hlo : s.minDeltaTimer ≤ timer)
    (hhi : timer ≤ s.maxDeltaTimer) (ht : (0 : ℚ) ≤ timer) (hm : 0 ≤ s.maxAdjustment) :
    timer ≤ adjustedTimer s cc := by
  have hle := le_limitChange_of_severe h (htimer ▸ ht) hm
  rw [htimer] at hle
  have hclamp : (timer : ℚ) ≤ clamp s.minDeltaTimer s.maxDeltaTimer
      (limitChange (timer * s.maxAdjustment) timer (proposedTimer s cc)) :=
    (clamp_eq_self hlo hhi).ge.trans (clamp_mono hle)
  rw [adjustedTimer, Int.le_floor, htimer]
  linarith

end Whole

/-- **The bounds of an adjustment.** From a whole timer within accepted bounds, with any smoothed
round-trip time and loss, an adjustment gives a whole timer within the bounds, at most
`maxAdjustment` of the old one and a half away, and not a shorter one under severe congestion. -/
theorem adjust_bounds {p : String} {config : JsValue} {deltaTimerTime : ℚ}
    (h : validateCongestionControl p config = none) (hint : IntegerTimers config)
    (hs : buildCongestionControl config deltaTimerTime = s) (hm : 0 ≤ s.maxAdjustment)
    {timer : ℤ} (htimer : cc.currentDeltaTimer = timer) (hlo : s.minDeltaTimer ≤ timer)
    (hhi : timer ≤ s.maxDeltaTimer) (now : Time) :
    ∃ timer' : ℤ, (cc.adjust s now).currentDeltaTimer = timer' ∧
      s.minDeltaTimer ≤ timer' ∧ timer' ≤ s.maxDeltaTimer ∧
      |(timer' : ℚ) - timer| ≤ s.maxAdjustment * timer + 1 / 2 ∧
      (severeCongestion s cc = true → timer ≤ timer') := by
  obtain ⟨hpos, horder⟩ := minDeltaTimer_le_max h deltaTimerTime
  obtain ⟨lo, hi, hmin, hmax⟩ := integer_bounds hint deltaTimerTime
  rw [hs] at hpos horder hmin hmax
  have ht : (0 : ℚ) ≤ timer := by linarith
  have hc : 0 ≤ timer * s.maxAdjustment := mul_nonneg ht hm
  unfold adjust
  split_ifs with hdue
  · obtain ⟨hge, hle⟩ : lo ≤ adjustedTimer s cc ∧ adjustedTimer s cc ≤ hi :=
      adjustedTimer_mem hmin hmax horder
    refine ⟨adjustedTimer s cc, rfl, ?_, ?_, abs_adjustedTimer_sub_le htimer hlo hhi hc,
      fun hsevere => le_adjustedTimer_of_severe hsevere htimer hlo hhi ht hm⟩
    · rw [hmin]
      exact_mod_cast hge
    · rw [hmax]
      exact_mod_cast hle
  · refine ⟨timer, htimer, hlo, hhi, ?_, fun _ => le_rfl⟩
    rw [sub_self, abs_zero]
    linarith

/-- A link whose smoothed round-trip time is `rtt`, without loss. -/
def atTimer (timer rtt : ℚ) : CongestionControl where
  currentDeltaTimer := timer
  lastAdjustment := 0
  avgRTT := rtt
  hasRTTSample := true

/-- Options that leave everything but the switch to its default. -/
def enabledOptions : JsValue := .obj [("enabled", .bool true)]

theorem adjust_bounds_severe :
    ∃ timer' : ℤ,
      ((atTimer 4900 400).adjust (buildCongestionControl enabledOptions 1000) 5000).currentDeltaTimer
        = timer' ∧ (100 : ℚ) ≤ timer' ∧ (timer' : ℚ) ≤ 5000 ∧
      |(timer' : ℚ) - (4900 : ℤ)| ≤ 1 / 5 * (4900 : ℤ) + 1 / 2 ∧ 4900 ≤ timer' := by
  have hnone : ∀ key ∈ ["nominalDeltaTimer", "minDeltaTimer", "maxDeltaTimer"],
      enabledOptions.get key = .undefined := by decide +kernel
  have hint : IntegerTimers enabledOptions := fun key hkey q hq =>
    nomatch (hnone key hkey).symm.trans hq
  have haccepted : validateCongestionControl "" enabledOptions = none := by decide +kernel
  have hm : 0 ≤ (buildCongestionControl enabledOptions 1000).maxAdjustment := by decide +kernel
  have hlo : (buildCongestionControl enabledOptions 1000).minDeltaTimer ≤ (4900 : ℤ) := by
    decide +kernel
  have hhi : ((4900 : ℤ) : ℚ) ≤ (buildCongestionControl enabledOptions 1000).maxDeltaTimer := by
    decide +kernel
  have htimer : (atTimer 4900 400).currentDeltaTimer = (4900 : ℤ) := by decide +kernel
  obtain ⟨timer', hset, hge, hle, hchange, hsevere⟩ :=
    adjust_bounds haccepted hint rfl hm htimer hlo hhi 5000
  exact ⟨timer', hset, hge, hle, hchange, hsevere (by decide +kernel)⟩

/-! ## The way to the nominal -/

/-- The share of the timer that an adjustment takes it towards the nominal. -/
def restoringRate (s : CongestionSettings) (cc : CongestionControl) : ℚ :=
  min (if veryHealthy s cc then 1 / 20 else 1 / 50) s.maxAdjustment

/-- How far an adjustment takes the timer towards the nominal and past it, before it is rounded:
not beyond the bound on the other side. -/
def restoringStep (s : CongestionSettings) (cc : CongestionControl) : ℚ :=
  min (cc.currentDeltaTimer * restoringRate s cc)
    (if nominal s < cc.currentDeltaTimer then cc.currentDeltaTimer - s.minDeltaTimer
      else s.maxDeltaTimer - cc.currentDeltaTimer)

/-- The timer is within the bounds. -/
def InBounds (s : CongestionSettings) (cc : CongestionControl) : Prop :=
  s.minDeltaTimer ≤ cc.currentDeltaTimer ∧ cc.currentDeltaTimer ≤ s.maxDeltaTimer

section Restoring

theorem limitChange_sub {c oldTimer a : ℚ} (hc : 0 ≤ c) (ha : 0 ≤ a) :
    limitChange c oldTimer (oldTimer - a) = oldTimer - min a c := by
  rw [limitChange_eq hc, clamp_eq_max (by linarith)]
  rcases le_total a c with h | h
  · rw [max_eq_right (by linarith), min_eq_left h]
    ring
  · rw [max_eq_left (by linarith), min_eq_right h]
    ring

theorem limitChange_add {c oldTimer a : ℚ} (hc : 0 ≤ c) (ha : 0 ≤ a) :
    limitChange c oldTimer (oldTimer + a) = oldTimer + min a c := by
  rw [limitChange_eq hc, clamp_eq_min (by linarith) (by linarith), min_comm, add_sub_cancel_left]

theorem proposedTimer_above (hsevere : severeCongestion s cc = false)
    (h : nominal s < cc.currentDeltaTimer) : proposedTimer s cc = cc.currentDeltaTimer -
      cc.currentDeltaTimer * (if veryHealthy s cc then 1 / 20 else 1 / 50) := by
  unfold proposedTimer regimeTimer CONGESTION_INCREASE_FACTOR
  rcases hhealthy : veryHealthy s cc with _ | _
  · simp only [hsevere, h, Bool.false_eq_true, false_and, and_false, if_false, if_true]
    ring
  · simp only [hsevere, h, Bool.false_eq_true, if_false, if_true, ite_self]
    ring

/-- The legacy override does not apply below the nominal, which is then not the minimum. -/
theorem proposedTimer_below (hsevere : severeCongestion s cc = false) (hb : InBounds s cc)
    (h : cc.currentDeltaTimer < nominal s) : proposedTimer s cc = cc.currentDeltaTimer +
      cc.currentDeltaTimer * (if veryHealthy s cc then 1 / 20 else 1 / 50) := by
  have hmin : nominal s ≠ s.minDeltaTimer := (hb.1.trans_lt h).ne'
  have hnot : ¬ nominal s < cc.currentDeltaTimer := not_lt.2 h.le
  unfold proposedTimer regimeTimer
  rcases hhealthy : veryHealthy s cc with _ | _
  · simp only [hsevere, hmin, h, hnot, Bool.false_eq_true, false_and, if_false, if_true]
    ring
  · simp only [hsevere, hmin, h, hnot, Bool.false_eq_true, false_and, if_false, if_true]
    ring

/-- At the nominal only the legacy override moves the timer, and that to below the minimum. -/
theorem proposedTimer_at (hsevere : severeCongestion s cc = false)
    (h : cc.currentDeltaTimer = nominal s) :
    proposedTimer s cc = cc.currentDeltaTimer ∨ nominal s = s.minDeltaTimer ∧
      proposedTimer s cc = cc.currentDeltaTimer - cc.currentDeltaTimer * (1 / 20) := by
  unfold proposedTimer CONGESTION_INCREASE_FACTOR
  split_ifs with hlegacy
  · exact Or.inr ⟨hlegacy.1, by ring⟩
  · left
    simp [regimeTimer, hsevere, h]

variable (hsevere : severeCongestion s cc = false) (hm : 0 ≤ s.maxAdjustment)
  (ht : 0 ≤ cc.currentDeltaTimer) (hb : InBounds s cc)

include hsevere hm ht hb

/-- From above the nominal, the timer goes down by the restoring step. -/
theorem adjustedTimer_above (h : nominal s < cc.currentDeltaTimer) :
    adjustedTimer s cc = ⌊cc.currentDeltaTimer - restoringStep s cc + 1 / 2⌋ := by
  set q : ℚ := if veryHealthy s cc then 1 / 20 else 1 / 50 with hq
  have hq0 : 0 ≤ q := by
    rw [hq]
    split_ifs <;> norm_num
  have hlimit : limitChange (cc.currentDeltaTimer * s.maxAdjustment) cc.currentDeltaTimer
      (proposedTimer s cc) = cc.currentDeltaTimer - cc.currentDeltaTimer * restoringRate s cc := by
    rw [proposedTimer_above hsevere h, limitChange_sub (mul_nonneg ht hm) (mul_nonneg ht hq0),
      restoringRate, mul_min_of_nonneg _ _ ht]
  have hstep : 0 ≤ cc.currentDeltaTimer * restoringRate s cc := mul_nonneg ht (le_min hq0 hm)
  have hclamp : clamp s.minDeltaTimer s.maxDeltaTimer
      (cc.currentDeltaTimer - cc.currentDeltaTimer * restoringRate s cc) =
        cc.currentDeltaTimer - restoringStep s cc := by
    rw [clamp_eq_max (by linarith [hb.2]), restoringStep, if_pos h, ← max_sub_sub_left,
      sub_sub_cancel, max_comm]
  rw [adjustedTimer, hlimit, hclamp]

/-- From below the nominal, the timer goes up by the restoring step. -/
theorem adjustedTimer_below (h : cc.currentDeltaTimer < nominal s) :
    adjustedTimer s cc = ⌊cc.currentDeltaTimer + restoringStep s cc + 1 / 2⌋ := by
  set q : ℚ := if veryHealthy s cc then 1 / 20 else 1 / 50 with hq
  have hq0 : 0 ≤ q := by
    rw [hq]
    split_ifs <;> norm_num
  have hlimit : limitChange (cc.currentDeltaTimer * s.maxAdjustment) cc.currentDeltaTimer
      (proposedTimer s cc) = cc.currentDeltaTimer + cc.currentDeltaTimer * restoringRate s cc := by
    rw [proposedTimer_below hsevere hb h, limitChange_add (mul_nonneg ht hm) (mul_nonneg ht hq0),
      restoringRate, mul_min_of_nonneg _ _ ht]
  have hstep : 0 ≤ cc.currentDeltaTimer * restoringRate s cc := mul_nonneg ht (le_min hq0 hm)
  have hclamp : clamp s.minDeltaTimer s.maxDeltaTimer
      (cc.currentDeltaTimer + cc.currentDeltaTimer * restoringRate s cc) =
        cc.currentDeltaTimer + restoringStep s cc := by
    rw [clamp_eq_min (hb.1.trans hb.2) (by linarith [hb.1]), restoringStep, if_neg (not_lt.2 h.le),
      ← min_add_add_left, add_sub_cancel, min_comm]
  rw [adjustedTimer, hlimit, hclamp]

theorem adjustedTimer_at (h : cc.currentDeltaTimer = nominal s) :
    adjustedTimer s cc = ⌊nominal s + 1 / 2⌋ := by
  have hclamp : clamp s.minDeltaTimer s.maxDeltaTimer
      (limitChange (cc.currentDeltaTimer * s.maxAdjustment) cc.currentDeltaTimer
        (proposedTimer s cc)) = nominal s := by
    rcases proposedTimer_at hsevere h with hsame | ⟨hmin, hlegacy⟩
    · have hlimit : limitChange (cc.currentDeltaTimer * s.maxAdjustment) cc.currentDeltaTimer
          cc.currentDeltaTimer = cc.currentDeltaTimer := by simp [limitChange, mathSign]
      rw [hsame, hlimit, clamp_eq_self hb.1 hb.2, h]
    · -- the override goes below the minimum, and the clamp comes back to it
      have hdown : 0 ≤ cc.currentDeltaTimer * (1 / 20) := by linarith
      have hle : 0 ≤ min (cc.currentDeltaTimer * (1 / 20)) (cc.currentDeltaTimer * s.maxAdjustment) :=
        le_min hdown (mul_nonneg ht hm)
      rw [hlegacy, limitChange_sub (mul_nonneg ht hm) hdown, clamp_eq_max (by linarith [hb.2]),
        max_eq_left (by linarith), hmin]
  rw [adjustedTimer, hclamp]

end Restoring

/-! ## Steps that get no farther from the nominal -/

/-- A step from `t` towards `n` is at most twice the distance, as far as rounding tells. -/
def StepFits (n t step : ℚ) : Prop :=
  (n < t → t - ⌊t⌋ - 1 / 2 < step ∧ step ≤ t - ⌈2 * n - t⌉ + 1 / 2) ∧
    (t < n → ⌈t⌉ - t - 1 / 2 ≤ step ∧ step < ⌊2 * n - t⌋ - t + 1 / 2) ∧
    (t = n → (⌊n⌋ : ℚ) = n)

/-- A step from `t` towards `n` is less than twice the distance, as far as rounding tells. -/
def StepShort (n t step : ℚ) : Prop :=
  (n < t → t - ⌊t⌋ - 1 / 2 < step ∧ step ≤ t - ⌊2 * n - t⌋ - 1 / 2) ∧
    (t < n → ⌈t⌉ - t - 1 / 2 ≤ step ∧ step < ⌈2 * n - t⌉ - t - 1 / 2) ∧
    (t = n → (⌊n⌋ : ℚ) = n)

instance (n t step : ℚ) : Decidable (StepFits n t step) :=
  inferInstanceAs (Decidable (_ ∧ _ ∧ _))

instance (n t step : ℚ) : Decidable (StepShort n t step) :=
  inferInstanceAs (Decidable (_ ∧ _ ∧ _))

instance (s : CongestionSettings) (cc : CongestionControl) : Decidable (InBounds s cc) :=
  inferInstanceAs (Decidable (_ ∧ _))

/-- The distance of the timer to the nominal. -/
def distance (s : CongestionSettings) (cc : CongestionControl) : ℚ :=
  |cc.currentDeltaTimer - nominal s|

/-- For whole timers: the step is at most twice the distance and a half, from below less. -/
theorem stepFits_intCast {n t : ℤ} {step : ℚ} (hstep : 0 ≤ step) :
    StepFits n t step ↔ (n < t → step ≤ 2 * (t - n) + 1 / 2) ∧
      (t < n → step < 2 * (n - t) + 1 / 2) := by
  have hmirror : (2 * n - t : ℚ) = ((2 * n - t : ℤ) : ℚ) := by push_cast; ring
  unfold StepFits
  rw [hmirror, Int.ceil_intCast, Int.floor_intCast, Int.floor_intCast, Int.ceil_intCast]
  push_cast
  constructor
  · rintro ⟨habove, hbelow, -⟩
    refine ⟨fun h => ?_, fun h => ?_⟩
    · linarith [(habove (by exact_mod_cast h)).2]
    · linarith [(hbelow (by exact_mod_cast h)).2]
  · rintro ⟨habove, hbelow⟩
    refine ⟨fun h => ⟨by linarith, ?_⟩, fun h => ⟨by linarith, ?_⟩, fun _ => by rw [Int.floor_intCast]⟩
    · linarith [habove (by exact_mod_cast h)]
    · linarith [hbelow (by exact_mod_cast h)]

/-- A step from `t` towards `n`, rounded. -/
def roundedStep (n t step : ℚ) : ℤ :=
  if n < t then ⌊t - step + 1 / 2⌋ else if t < n then ⌊t + step + 1 / 2⌋ else ⌊n + 1 / 2⌋

section Rounded

variable {n t step : ℚ}

theorem floor_half_eq_self_iff : (⌊n + 1 / 2⌋ : ℚ) = n ↔ (⌊n⌋ : ℚ) = n := by
  constructor
  · intro h
    rw [← h, Int.floor_intCast]
  · intro h
    obtain ⟨hlo, hhi⟩ := floor_half_mem h.le h.ge
    rw [← h]
    exact_mod_cast le_antisymm (h ▸ hhi) (h ▸ hlo)

theorem roundedStep_notFarther_iff :
    |(roundedStep n t step : ℚ) - n| ≤ |t - n| ↔ StepFits n t step := by
  unfold roundedStep StepFits
  rcases lt_trichotomy n t with h | rfl | h
  · simp only [h, h.not_gt, h.ne', if_true, false_imp_iff, true_imp_iff, and_true,
      abs_sub_le_iff_of_gt h]
    rw [← Int.ceil_le, Int.le_floor, ← Int.le_floor (a := t), floor_half_le]
    constructor
    · rintro ⟨hmirror, hstart⟩
      constructor <;> linarith
    · rintro ⟨hstart, hmirror⟩
      constructor <;> linarith
  · simp only [lt_irrefl, if_false, false_imp_iff, true_imp_iff, true_and, sub_self, abs_zero,
      abs_nonpos_iff, sub_eq_zero, floor_half_eq_self_iff]
  · simp only [h, h.not_gt, h.ne, if_true, if_false, false_imp_iff, true_imp_iff, and_true, true_and,
      abs_sub_le_iff_of_lt h]
    rw [← Int.ceil_le, Int.le_floor, ← Int.le_floor (a := 2 * n - t), floor_half_le]
    constructor
    · rintro ⟨hstart, hmirror⟩
      constructor <;> linarith
    · rintro ⟨hstart, hmirror⟩
      constructor <;> linarith

/-- A short step ends closer, or where it began. -/
theorem roundedStep_closer (h : StepShort n t step) :
    |(roundedStep n t step : ℚ) - n| < |t - n| ∨ (roundedStep n t step : ℚ) = t := by
  obtain ⟨habove, hbelow, hat⟩ := h
  unfold roundedStep
  rcases lt_trichotomy n t with h | rfl | h
  · obtain ⟨hstart, hmirror⟩ := habove h
    rw [if_pos h]
    have hle : ⌊t - step + 1 / 2⌋ ≤ ⌊t⌋ := floor_half_le.2 (by linarith)
    have hlt : ⌊2 * n - t⌋ + 1 ≤ ⌊t - step + 1 / 2⌋ := by
      rw [Int.le_floor]
      push_cast
      linarith
    have hge := Int.floor_lt.1 hlt
    rcases (Int.le_floor.1 hle).lt_or_eq with hmoved | hsame
    · left
      rw [abs_of_pos (sub_pos.2 h), abs_lt]
      constructor <;> linarith
    · exact Or.inr hsame
  · rw [if_neg (lt_irrefl _), if_neg (lt_irrefl _)]
    exact Or.inr (floor_half_eq_self_iff.2 (hat rfl))
  · obtain ⟨hstart, hmirror⟩ := hbelow h
    rw [if_neg h.not_gt, if_pos h]
    have hge : ⌈t⌉ ≤ ⌊t + step + 1 / 2⌋ := by
      rw [Int.le_floor]
      linarith
    have hlt : ⌊t + step + 1 / 2⌋ < ⌈2 * n - t⌉ := by
      rw [Int.floor_lt]
      linarith
    have hle := Int.lt_ceil.1 hlt
    rcases (Int.ceil_le.1 hge).lt_or_eq with hmoved | hsame
    · left
      rw [abs_of_neg (sub_neg.2 h), abs_lt]
      constructor <;> linarith
    · exact Or.inr hsame.symm

end Rounded

/-! ## Runs without severe congestion -/

section Calm

variable (s)

/-- No timer is set by hand, and adjustments find the timer within its bounds and no severe
congestion. -/
def Calm (cc : CongestionControl) : CongestionEvent → Prop
  | .adjust _ => InBounds s cc ∧ severeCongestion s cc = false
  | .setManualDeltaTimer _ => False
  | _ => True

/-- The timer gets no farther from the nominal. -/
def NotFarther (cc : CongestionControl) (e : CongestionEvent) : Prop :=
  distance s (step s cc e) ≤ distance s cc

/-- An adjustment that is due has a step of at most twice the distance. -/
def Fits (cc : CongestionControl) : CongestionEvent → Prop
  | .adjust now => shouldAdjust s cc now = true →
      StepFits (nominal s) cc.currentDeltaTimer (restoringStep s cc)
  | _ => True

/-- An adjustment that is due has a step of less than twice the distance. -/
def Short (cc : CongestionControl) : CongestionEvent → Prop
  | .adjust now => shouldAdjust s cc now = true →
      StepShort (nominal s) cc.currentDeltaTimer (restoringStep s cc)
  | _ => True

/-- The timer stays where it is. -/
def Unmoved (cc : CongestionControl) (e : CongestionEvent) : Prop :=
  (step s cc e).currentDeltaTimer = cc.currentDeltaTimer

variable {s} {e : CongestionEvent}

instance (s : CongestionSettings) (cc : CongestionControl) : ∀ e, Decidable (Calm s cc e)
  | .adjust _ => inferInstanceAs (Decidable (InBounds s cc ∧ severeCongestion s cc = false))
  | .setManualDeltaTimer _ => inferInstanceAs (Decidable False)
  | .updateMetrics _ _ => inferInstanceAs (Decidable True)
  | .enableAutoMode _ => inferInstanceAs (Decidable True)

instance (s : CongestionSettings) (cc : CongestionControl) : ∀ e, Decidable (Short s cc e)
  | .adjust now => inferInstanceAs (Decidable (shouldAdjust s cc now = true →
      StepShort (nominal s) cc.currentDeltaTimer (restoringStep s cc)))
  | .setManualDeltaTimer _ => inferInstanceAs (Decidable True)
  | .updateMetrics _ _ => inferInstanceAs (Decidable True)
  | .enableAutoMode _ => inferInstanceAs (Decidable True)

/-- An adjustment that is due sets the rounded step. -/
theorem adjust_of_due (hsevere : severeCongestion s cc = false) (hm : 0 ≤ s.maxAdjustment)
    (hmin : 0 ≤ s.minDeltaTimer) (hb : InBounds s cc) {now : Time}
    (hdue : shouldAdjust s cc now = true) : (cc.adjust s now).currentDeltaTimer =
      roundedStep (nominal s) cc.currentDeltaTimer (restoringStep s cc) := by
  have ht : 0 ≤ cc.currentDeltaTimer := hmin.trans hb.1
  rw [adjust, if_pos hdue, roundedStep]
  rcases lt_trichotomy (nominal s) cc.currentDeltaTimer with h | h | h
  · rw [if_pos h, adjustedTimer_above hsevere hm ht hb h]
  · rw [if_neg h.not_lt, if_neg h.not_gt, adjustedTimer_at hsevere hm ht hb h.symm]
  · rw [if_neg h.not_gt, if_pos h, adjustedTimer_below hsevere hm ht hb h]

theorem currentDeltaTimer_updateMetrics (rtt packetLoss : JsNumber) :
    (cc.updateMetrics s rtt packetLoss).currentDeltaTimer = cc.currentDeltaTimer := by
  have hrtt : (cc.updateRTT s rtt).currentDeltaTimer = cc.currentDeltaTimer := by
    unfold updateRTT
    split <;> [split_ifs <;> rfl; rfl]
  have hloss : ∀ cc : CongestionControl,
      (cc.updateLoss s packetLoss).currentDeltaTimer = cc.currentDeltaTimer := by
    intro cc
    unfold updateLoss
    split <;> [split_ifs <;> rfl; rfl]
  rw [updateMetrics, hloss, hrtt]

/-- Only an adjustment that is due moves the timer of a calm run. -/
theorem unmoved_or_adjusted (hm : 0 ≤ s.maxAdjustment) (hmin : 0 ≤ s.minDeltaTimer)
    (h : Calm s cc e) : (Unmoved s cc e ∧ Fits s cc e) ∨
      ∃ now, e = .adjust now ∧ shouldAdjust s cc now = true ∧ (step s cc e).currentDeltaTimer =
        roundedStep (nominal s) cc.currentDeltaTimer (restoringStep s cc) := by
  cases e with
  | updateMetrics rtt packetLoss =>
    exact Or.inl ⟨currentDeltaTimer_updateMetrics rtt packetLoss, trivial⟩
  | enableAutoMode now => exact Or.inl ⟨rfl, trivial⟩
  | setManualDeltaTimer value => exact h.elim
  | adjust now =>
    by_cases hdue : shouldAdjust s cc now = true
    · exact Or.inr ⟨now, rfl, hdue, adjust_of_due h.2 hm hmin h.1 hdue⟩
    · left
      refine ⟨?_, fun h => absurd h hdue⟩
      simp only [Unmoved, step, adjust, hdue]
      rfl

theorem notFarther_iff_fits (hm : 0 ≤ s.maxAdjustment) (hmin : 0 ≤ s.minDeltaTimer)
    (h : Calm s cc e) : NotFarther s cc e ↔ Fits s cc e := by
  rcases unmoved_or_adjusted hm hmin h with ⟨hsame, hfits⟩ | ⟨now, rfl, hdue, hset⟩
  · exact iff_of_true (by rw [NotFarther, distance, distance, hsame]) hfits
  · rw [NotFarther, distance, distance, hset, roundedStep_notFarther_iff]
    simp only [Fits, hdue, true_imp_iff]

/-- A calm step that is short ends closer to the nominal, or does not move the timer. -/
theorem closer_of_short (hm : 0 ≤ s.maxAdjustment) (hmin : 0 ≤ s.minDeltaTimer)
    (h : Calm s cc e) (hshort : Short s cc e) :
    distance s (step s cc e) < distance s cc ∨ Unmoved s cc e := by
  rcases unmoved_or_adjusted hm hmin h with ⟨hsame, -⟩ | ⟨now, rfl, hdue, hset⟩
  · exact Or.inr hsame
  · rw [distance, distance, Unmoved, hset]
    exact roundedStep_closer (hshort hdue)

/-- A calm run of short steps ends no farther from the nominal, and at the distance at which it
began only if it did not move the timer. -/
theorem run_closer_of_short (hm : 0 ≤ s.maxAdjustment) (hmin : 0 ≤ s.minDeltaTimer)
    {es : List CongestionEvent} (hcalm : Along (step s) (Calm s) cc es)
    (hshort : Along (step s) (Short s) cc es) :
    distance s (run (step s) cc es) ≤ distance s cc ∧
      (distance s (run (step s) cc es) = distance s cc → Along (step s) (Unmoved s) cc es) := by
  induction es generalizing cc with
  | nil => exact ⟨le_rfl, fun _ => trivial⟩
  | cons e es ih =>
    obtain ⟨hle, hkeep⟩ := ih hcalm.2 hshort.2
    rw [run_cons]
    rcases closer_of_short hm hmin hcalm.1 hshort.1 with hlt | hsame
    · exact ⟨hle.trans hlt.le, fun heq => absurd heq (hle.trans_lt hlt).ne⟩
    · have hdist : distance s (step s cc e) = distance s cc := by rw [distance, distance, hsame]
      rw [hdist] at hle hkeep
      exact ⟨hle, fun heq => ⟨hsame, hkeep heq⟩⟩

end Calm

/-- **When the timer converges.** In a run without severe congestion, the adjustments get no farther
from the nominal exactly when each that is due has a step of at most twice the distance. Where each
step is shorter than that, no stretch of the run ends at the distance to the nominal at which it
began, unless it did not move the timer. -/
theorem calm_run_notFarther_iff {p : String} {config : JsValue} {deltaTimerTime : ℚ}
    (h : validateCongestionControl p config = none)
    (hs : buildCongestionControl config deltaTimerTime = s) (hm : 0 ≤ s.maxAdjustment)
    {es : List CongestionEvent} (hcalm : Along (step s) (Calm s) cc es) :
    (Along (step s) (NotFarther s) cc es ↔ Along (step s) (Fits s) cc es) ∧
      (Along (step s) (Short s) cc es → ∀ before stretch after, es = before ++ (stretch ++ after) →
        distance s (run (step s) (run (step s) cc before) stretch) ≤
            distance s (run (step s) cc before) ∧
          (distance s (run (step s) (run (step s) cc before) stretch) =
              distance s (run (step s) cc before) →
            Along (step s) (Unmoved s) (run (step s) cc before) stretch)) := by
  obtain ⟨hmin, -⟩ := minDeltaTimer_le_max h deltaTimerTime
  rw [hs] at hmin
  have hmin' : 0 ≤ s.minDeltaTimer := by linarith
  refine ⟨?_, ?_⟩
  · exact Along.congr_of_invariant (I := fun _ => True)
      (fun cc e _ hcalm => ⟨notFarther_iff_fits hm hmin' hcalm, fun _ => trivial⟩) trivial hcalm
  · rintro hshort before stretch after rfl
    have hcalm' := (along_append.1 (along_append.1 hcalm).2).1
    have hshort' := (along_append.1 (along_append.1 hshort).2).1
    exact run_closer_of_short hm hmin' hcalm' hshort'

/-- A step of exactly twice the distance mirrors the timer around the nominal, again and again. -/
example :
    let s := buildCongestionControl enabledOptions 120
    (run (step s) (atTimer 123 50) [.adjust 5000]).currentDeltaTimer = 117 ∧
      (run (step s) (atTimer 123 50) [.adjust 5000, .adjust 10000]).currentDeltaTimer = 123 := by
  decide +kernel

/-- Two adjustments on a healthy link that bring the timer back from a congestion episode. -/
theorem calm_run_from_1300 :
    distance (buildCongestionControl enabledOptions 1000)
        (run (step (buildCongestionControl enabledOptions 1000)) (atTimer 1300 50)
          [.adjust 5000, .updateMetrics (.finite 60) (.finite 0), .adjust 10000]) ≤ 300 := by
  have hcalm : Along (step (buildCongestionControl enabledOptions 1000))
      (Calm (buildCongestionControl enabledOptions 1000)) (atTimer 1300 50)
      [.adjust 5000, .updateMetrics (.finite 60) (.finite 0), .adjust 10000] := by decide +kernel
  have hshort : Along (step (buildCongestionControl enabledOptions 1000))
      (Short (buildCongestionControl enabledOptions 1000)) (atTimer 1300 50)
      [.adjust 5000, .updateMetrics (.finite 60) (.finite 0), .adjust 10000] := by decide +kernel
  have haccepted : validateCongestionControl "" enabledOptions = none := by decide +kernel
  obtain ⟨hle, -⟩ := (calm_run_notFarther_iff haccepted rfl (by decide +kernel) hcalm).2 hshort
    [] [.adjust 5000, .updateMetrics (.finite 60) (.finite 0), .adjust 10000] [] rfl
  refine hle.trans ?_
  decide +kernel

/-- **The defect.** Ten milliseconds below the nominal, an adjustment on a healthy link takes the
timer forty above it, and the next one back below it, farther than before. -/
theorem adjust_crosses_nominal :
    validateCongestionControl "" enabledOptions = none ∧
      Calm (buildCongestionControl enabledOptions 1000) (atTimer 990 50) (.adjust 5000) ∧
      distance (buildCongestionControl enabledOptions 1000) (atTimer 990 50) = 10 ∧
      ((atTimer 990 50).adjust (buildCongestionControl enabledOptions 1000) 5000).currentDeltaTimer
        = 1040 ∧
      (run (step (buildCongestionControl enabledOptions 1000)) (atTimer 990 50)
        [.adjust 5000, .adjust 10000]).currentDeltaTimer = 988 ∧
      ¬ NotFarther (buildCongestionControl enabledOptions 1000) (atTimer 990 50) (.adjust 5000) := by
  unfold NotFarther
  decide +kernel

end CongestionControl

end EdgeLink
