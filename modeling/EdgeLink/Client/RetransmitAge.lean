import EdgeLink.Codec.PathRules
import EdgeLink.Server.Context
import Mathlib.Algebra.Order.Floor.Ring
import Mathlib.Data.Int.Log
import Mathlib.Data.Rat.Floor
import Mathlib.Tactic.NormNum

/-!
# The age at which queued packets expire

The reliability settings of a client: their validation (`connection-config.ts`), their defaults
(`reliable-client/context.ts`) and `effectiveRetransmitAge` (`reliable-client/reliability.ts`), the
age that decides which packets the retransmit queue drops.

* `numberRangeError_eq_none`: what the validation of a numeric field lets through.
* `effectiveRetransmitAge_bounds`: the age is at least the minimum, and at most the greater of the
  minimum and the maximum.
* `effectiveRetransmitAge_inBand_iff`: the validation compares the two bounds only when both are
  given, so the age leaves the band exactly when a maximum below the default minimum is given alone.
-/

namespace EdgeLink

/-! ## Numbers -/

/-- Round to an integer, ties to even. -/
def roundHalfEven (x : ℚ) : ℤ :=
  if x - ⌊x⌋ < 1 / 2 then ⌊x⌋
  else if 1 / 2 < x - ⌊x⌋ then ⌊x⌋ + 1
  else if ⌊x⌋ % 2 = 0 then ⌊x⌋ else ⌊x⌋ + 1

/-- Round to 53 significant bits, no finer than the least subnormal number. -/
def roundFinite (q : ℚ) : ℚ :=
  let e := max (Int.log 2 |q| - 52) (-1074)
  roundHalfEven (q / 2 ^ e) * 2 ^ e

/-- The double nearest to a real result, or an infinity when it overflows. -/
def roundDouble (q : ℚ) : JsNumber :=
  if 2 ^ 1024 ≤ roundFinite q then .posInf
  else if roundFinite q ≤ -2 ^ 1024 then .negInf
  else .finite (roundFinite q)

/-- One tenth is not a double; this is the nearest one. -/
example : roundDouble (1 / 10) = .finite (3602879701896397 / 36028797018963968) := by
  decide +kernel

/-- `a < b` of two numbers -/
def JsNumber.lt : JsNumber → JsNumber → Bool
  | .nan, _ => false
  | _, .nan => false
  | .finite a, .finite b => a < b
  | .posInf, _ => false
  | _, .negInf => false
  | _, _ => true

/-- `Math.min` -/
def mathMin (a b : JsNumber) : JsNumber :=
  if a = .nan ∨ b = .nan then .nan else if b.lt a then b else a

/-- `Math.max` -/
def mathMax (a b : JsNumber) : JsNumber :=
  if a = .nan ∨ b = .nan then .nan else if a.lt b then b else a

theorem mathRound_roundDouble_ne_nan (q : ℚ) : mathRound (roundDouble q) ≠ .nan := by
  unfold roundDouble
  split_ifs <;> simp [mathRound]

/-! ## Validation -/

/-- The error of a numeric field, if it is given and not a number in its range. -/
def numberRangeError (object : JsValue) (key : String) (min max : ℕ) (label : String) :
    Option String :=
  match object.get key with
  | .undefined => none
  | .num (.finite q) =>
    if q < min ∨ (max : ℚ) < q then
      some (label ++ " must be a number between " ++ toString min ++ " and " ++ toString max)
    else none
  | _ => some (label ++ " must be a number between " ++ toString min ++ " and " ++ toString max)

/-- The numeric fields of a client's reliability options, with their ranges. -/
def reliabilityChecks : List (String × ℕ × ℕ) :=
  [("retransmitQueueSize", 100, 50000),
    ("maxRetransmits", 1, 20),
    ("retransmitMaxAge", 1000, 300000),
    ("retransmitMinAge", 200, 30000),
    ("retransmitRttMultiplier", 2, 20),
    ("ackIdleDrainAge", 500, 30000),
    ("forceDrainAfterMs", 2000, 120000),
    ("recoveryBurstSize", 10, 1000),
    ("recoveryBurstIntervalMs", 50, 5000),
    ("recoveryAckGapMs", 500, 120000)]

/-- The error of a field that has to be a boolean when it is given. -/
def booleanError (object : JsValue) (key label : String) : Option String :=
  match object.get key with
  | .undefined => none
  | .bool _ => none
  | _ => some (label ++ " must be a boolean")

/-- The minimum is above the maximum, both given. -/
def minAboveMax (reliability : JsValue) : Bool :=
  match reliability.get "retransmitMinAge", reliability.get "retransmitMaxAge" with
  | .num (.finite min), .num (.finite max) => max < min
  | _, _ => false

/-- The reliability part of `validateConnectionConfig` for a client. -/
def validateReliability (p : String) (reliability : JsValue) : Option String :=
  match reliability with
  | .undefined => none
  | .obj _ =>
    (reliabilityChecks.findSome? fun check =>
        numberRangeError reliability check.1 check.2.1 check.2.2 (p ++ "reliability." ++ check.1))
      <|> booleanError reliability "forceDrainAfterAckIdle" (p ++ "reliability.forceDrainAfterAckIdle")
      <|> booleanError reliability "recoveryBurstEnabled" (p ++ "reliability.recoveryBurstEnabled")
      <|> if minAboveMax reliability then
          some (p ++ "reliability.retransmitMinAge must be <= retransmitMaxAge")
        else none
  | _ => some (p ++ "reliability must be an object")

section Validation

variable {p : String} {reliability : JsValue}

theorem numberRangeError_eq_none {object : JsValue} {key label : String} {min max : ℕ} :
    numberRangeError object key min max label = none ↔
      object.get key = .undefined ∨
        ∃ q : ℚ, object.get key = .num (.finite q) ∧ min ≤ q ∧ q ≤ max := by
  unfold numberRangeError
  split
  next h => simp [h]
  next q h => simp [h, not_or]
  next hu hq =>
    constructor
    · intro h
      nomatch h
    · rintro (h | ⟨q, h, -⟩)
      · exact absurd h hu
      · exact absurd h (hq q)

/-- Every numeric field of accepted options is left out or in its range. -/
theorem numberRange_of_accepted (h : validateReliability p reliability = none)
    (check : String × ℕ × ℕ) (hcheck : check ∈ reliabilityChecks) :
    reliability.get check.1 = .undefined ∨
      ∃ q : ℚ, reliability.get check.1 = .num (.finite q) ∧ check.2.1 ≤ q ∧ q ≤ check.2.2 := by
  unfold validateReliability at h
  split at h
  · exact Or.inl rfl
  · rw [Option.orElse_eq_none] at h
    exact numberRangeError_eq_none.1 (List.findSome?_eq_none_iff.1 h.1 check hcheck)
  · nomatch h

theorem minAboveMax_of_accepted (h : validateReliability p reliability = none) :
    minAboveMax reliability = false := by
  unfold validateReliability at h
  split at h
  · rfl
  · simp only [Option.orElse_eq_none] at h
    by_contra hmin
    simp [hmin] at h
  · nomatch h

end Validation

/-! ## Settings -/

structure ReliabilitySettings where
  retransmitMaxAge : ℚ
  retransmitMinAge : ℚ
  retransmitRttMultiplier : ℚ
  ackIdleDrainAge : ℚ
  forceDrainAfterAckIdle : Bool
  forceDrainAfterMs : ℚ
  recoveryBurstEnabled : Bool
  recoveryBurstSize : ℚ
  recoveryBurstIntervalMs : ℚ
  recoveryAckGapMs : ℚ
  deriving DecidableEq

/-- `cfg[key] ?? default` of accepted options, whose numeric fields are finite numbers. -/
def numberOr (cfg : JsValue) (key : String) (default : ℚ) : ℚ :=
  match cfg.get key with
  | .num (.finite q) => q
  | _ => default

/-- A boolean field of accepted options, or its default. -/
def booleanOr (cfg : JsValue) (key : String) (default : Bool) : Bool :=
  match cfg.get key with
  | .bool b => b
  | _ => default

/-- Half of the packets the server takes in an interval, at least one. -/
def recoveryCap (interval : ℚ) : ℚ :=
  let perMs := roundFinite (UDP_RATE_LIMIT_MAX_PACKETS / UDP_RATE_LIMIT_WINDOW)
  max 1 ⌊roundFinite (perMs * interval) / 2⌋

/-- The size and the interval of the recovery bursts, within the receiver's budget. -/
def clampRecoveryBurst (size intervalMs : ℚ) : ℚ × ℚ :=
  (max 1 (min size (recoveryCap (max 1 intervalMs))), max 1 intervalMs)

/-- The settings of accepted options. -/
def buildReliabilitySettings (cfg : JsValue) : ReliabilitySettings :=
  let burst := clampRecoveryBurst (numberOr cfg "recoveryBurstSize" 100)
    (numberOr cfg "recoveryBurstIntervalMs" 200)
  { retransmitMaxAge := numberOr cfg "retransmitMaxAge" 120000
    retransmitMinAge := numberOr cfg "retransmitMinAge" 10000
    retransmitRttMultiplier := numberOr cfg "retransmitRttMultiplier" 12
    ackIdleDrainAge := numberOr cfg "ackIdleDrainAge" 20000
    forceDrainAfterAckIdle := booleanOr cfg "forceDrainAfterAckIdle" false
    forceDrainAfterMs := numberOr cfg "forceDrainAfterMs" 45000
    recoveryBurstEnabled := booleanOr cfg "recoveryBurstEnabled" true
    recoveryBurstSize := burst.1
    recoveryBurstIntervalMs := burst.2
    recoveryAckGapMs := numberOr cfg "recoveryAckGapMs" 4000 }

/-! ## The age -/

/-- The age from which a queued packet expires, given the smoothed round-trip time and the time
since the last acknowledgement. -/
def effectiveRetransmitAge (r : ReliabilitySettings) (smoothedRtt : ℚ) (ackIdleMs : Time) :
    JsNumber :=
  let maxAge : JsNumber := .finite r.retransmitMaxAge
  let maxAge :=
    if 0 < smoothedRtt then
      let rttBasedAge := mathRound (roundDouble (smoothedRtt * r.retransmitRttMultiplier))
      mathMin maxAge (mathMax (.finite r.retransmitMinAge) rttBasedAge)
    else maxAge
  let maxAge :=
    if r.ackIdleDrainAge ≤ ackIdleMs then mathMin maxAge (.finite r.ackIdleDrainAge) else maxAge
  mathMax (.finite r.retransmitMinAge) maxAge

/-- The age is a number between the minimum and the maximum. -/
def InBand (r : ReliabilitySettings) (age : JsNumber) : Prop :=
  ∃ q : ℚ, age = .finite q ∧ r.retransmitMinAge ≤ q ∧ q ≤ r.retransmitMaxAge

section Bounds

variable {a b : ℚ} {n : JsNumber}

/-- The greater of a finite number and a number that is not NaN is not below the finite one. -/
theorem mathMax_finite_ne (hn : n ≠ .nan) :
    mathMax (.finite a) n = .posInf ∨ ∃ q, a ≤ q ∧ mathMax (.finite a) n = .finite q := by
  cases n with
  | nan => exact absurd rfl hn
  | posInf => exact Or.inl (by simp [mathMax, JsNumber.lt])
  | negInf => exact Or.inr ⟨a, le_rfl, by simp [mathMax, JsNumber.lt]⟩
  | finite c =>
    right
    by_cases hac : a < c
    · exact ⟨c, hac.le, by simp [mathMax, JsNumber.lt, hac]⟩
    · exact ⟨a, le_rfl, by simp [mathMax, JsNumber.lt, hac]⟩

theorem mathMin_finite_finite (a b : ℚ) :
    mathMin (.finite a) (.finite b) = .finite (min a b) := by
  rcases lt_or_ge b a with h | h
  · simp [mathMin, JsNumber.lt, h, min_eq_right h.le]
  · simp [mathMin, JsNumber.lt, not_lt.2 h, min_eq_left h]

theorem mathMax_finite_finite (a b : ℚ) :
    mathMax (.finite a) (.finite b) = .finite (max a b) := by
  rcases lt_or_ge a b with h | h
  · simp [mathMax, JsNumber.lt, h, max_eq_right h.le]
  · simp [mathMax, JsNumber.lt, not_lt.2 h, max_eq_left h]

/-- What the round-trip time makes of the maximum is a number not above it. -/
theorem mathMin_mathMax (hn : n ≠ .nan) :
    ∃ q ≤ b, mathMin (.finite b) (mathMax (.finite a) n) = .finite q := by
  rcases mathMax_finite_ne (a := a) hn with h | ⟨c, -, h⟩
  · exact ⟨b, le_rfl, by rw [h]; simp [mathMin, JsNumber.lt]⟩
  · exact ⟨min b c, min_le_left .., by rw [h, mathMin_finite_finite]⟩

end Bounds

/-- **The bounds of the age.** -/
theorem effectiveRetransmitAge_bounds (r : ReliabilitySettings) (smoothedRtt : ℚ)
    (ackIdleMs : Time) : ∃ q : ℚ, effectiveRetransmitAge r smoothedRtt ackIdleMs = .finite q ∧
      r.retransmitMinAge ≤ q ∧ q ≤ max r.retransmitMinAge r.retransmitMaxAge := by
  have hrtt : ∃ q ≤ r.retransmitMaxAge,
      (if 0 < smoothedRtt then
        mathMin (.finite r.retransmitMaxAge) (mathMax (.finite r.retransmitMinAge)
          (mathRound (roundDouble (smoothedRtt * r.retransmitRttMultiplier))))
      else .finite r.retransmitMaxAge) = .finite q := by
    split_ifs
    · exact mathMin_mathMax (mathRound_roundDouble_ne_nan _)
    · exact ⟨_, le_rfl, rfl⟩
  obtain ⟨q, hq, hrtt⟩ := hrtt
  unfold effectiveRetransmitAge
  dsimp only
  rw [hrtt]
  split_ifs
  · rw [mathMin_finite_finite, mathMax_finite_finite]
    exact ⟨_, rfl, le_max_left .., max_le_max le_rfl ((min_le_left ..).trans hq)⟩
  · rw [mathMax_finite_finite]
    exact ⟨_, rfl, le_max_left .., max_le_max le_rfl hq⟩

/-- The age is in the band exactly when the band is not empty. -/
theorem inBand_iff (r : ReliabilitySettings) (smoothedRtt : ℚ) (ackIdleMs : Time) :
    InBand r (effectiveRetransmitAge r smoothedRtt ackIdleMs) ↔
      r.retransmitMinAge ≤ r.retransmitMaxAge := by
  obtain ⟨q, hage, hmin, hmax⟩ := effectiveRetransmitAge_bounds r smoothedRtt ackIdleMs
  constructor
  · rintro ⟨q', -, hle, hge⟩
    exact hle.trans hge
  · intro h
    rw [max_eq_right h] at hmax
    exact ⟨q, hage, hmin, hmax⟩

/-- A maximum below the default minimum is given without a minimum. -/
def MaxAgeAlone (reliability : JsValue) : Prop :=
  reliability.get "retransmitMinAge" = .undefined ∧
    ∃ q : ℚ, q < 10000 ∧ reliability.get "retransmitMaxAge" = .num (.finite q)

/-- **When the age stays in its band**: for every accepted configuration but those that give a
maximum below the default minimum without giving the minimum, whatever the round-trip time and
the time since the last acknowledgement. -/
theorem effectiveRetransmitAge_inBand_iff {p : String} {reliability : JsValue}
    (h : validateReliability p reliability = none) (smoothedRtt : ℚ) (ackIdleMs : Time) :
    InBand (buildReliabilitySettings reliability)
        (effectiveRetransmitAge (buildReliabilitySettings reliability) smoothedRtt ackIdleMs) ↔
      ¬ MaxAgeAlone reliability := by
  rw [inBand_iff]
  change numberOr reliability "retransmitMinAge" 10000 ≤
    numberOr reliability "retransmitMaxAge" 120000 ↔ _
  have hmin := numberRange_of_accepted h ("retransmitMinAge", 200, 30000)
    (by simp [reliabilityChecks])
  have hmax := numberRange_of_accepted h ("retransmitMaxAge", 1000, 300000)
    (by simp [reliabilityChecks])
  have hpair := minAboveMax_of_accepted h
  unfold MaxAgeAlone numberOr
  unfold minAboveMax at hpair
  rcases hmin with hmin | ⟨a, hmin, -, ha⟩ <;> rcases hmax with hmax | ⟨b, hmax, -, -⟩ <;>
    simp only [hmin, hmax] at hpair ⊢
  · norm_num
    exact fun _ _ he => nomatch he
  · simp
  · simp only [reduceCtorEq, false_and, not_false_eq_true, iff_true]
    norm_num at ha
    linarith
  · simpa using hpair

/-- Options with a maximum only. -/
def maxAgeOnly (max : ℚ) : JsValue := .obj [("retransmitMaxAge", .num (.finite max))]

theorem effectiveRetransmitAge_inBand_minute :
    InBand (buildReliabilitySettings (maxAgeOnly 60000))
      (effectiveRetransmitAge (buildReliabilitySettings (maxAgeOnly 60000)) 50 30000) :=
  (effectiveRetransmitAge_inBand_iff (p := "") (by decide +kernel) 50 30000).2 fun h => by
    obtain ⟨-, q, hq, hmax⟩ := h
    simp only [maxAgeOnly, JsValue.get] at hmax
    simp at hmax
    linarith

/-- **The defect.** A maximum of one second is accepted, and every age is ten seconds at least. -/
theorem maxAge_below_default_minAge :
    validateReliability "" (maxAgeOnly 1000) = none ∧
      ¬ InBand (buildReliabilitySettings (maxAgeOnly 1000))
        (effectiveRetransmitAge (buildReliabilitySettings (maxAgeOnly 1000)) 0 0) := by
  refine ⟨by decide +kernel, fun h => ?_⟩
  have hle := (inBand_iff _ _ _).1 h
  have hmin : (buildReliabilitySettings (maxAgeOnly 1000)).retransmitMinAge = 10000 := by rfl
  have hmax : (buildReliabilitySettings (maxAgeOnly 1000)).retransmitMaxAge = 1000 := by rfl
  rw [hmin, hmax] at hle
  norm_num at hle

end EdgeLink
