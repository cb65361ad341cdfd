import EdgeLink.Foundations.OrderedMap
import EdgeLink.Reliability.ReplayWindow

/-!
# The sequence tracker

The receiver's reliability engine, `transport/reliability/sequence.ts`: it takes its baseline from
the first number that arrives, advances `expectedSeq` over contiguous numbers, remembers the
numbers that arrive ahead and schedules NAKs for the gaps, and gives up on a number after
`maxNakRounds` rounds. Timers are keys of `nakTimers`: a timer that is armed may fire at any time.

* `processSequence_cases` says once what an arrival does to `expectedSeq` and `receivedSeqs`.
* `nakTimerFired_cases` does it for a NAK timer.
* `mem_cleanupOldSequences`: which remembered numbers a clean-up keeps.
* `not_mem_advance`: the contiguous advance stops at a number that has not been received.
-/

namespace EdgeLink

open Serial

/-- What a tracker is created with; the defaults are those of the constructor. -/
structure SequenceTrackerConfig where
  maxOutOfOrder : ℕ := 100
  maxGapTracking : ℕ := max (maxOutOfOrder * 4) 1024
  behindResyncThreshold : ℕ := maxGapTracking * 2
  maxNakRounds : ℕ := 5
  deriving DecidableEq

structure SequenceTracker where
  config : SequenceTrackerConfig
  expectedSeq : Option Seq
  receivedSeqs : Finset Seq
  /-- the numbers whose NAK timer is armed, oldest timer first -/
  nakTimers : List Seq
  /-- the NAK rounds spent on a number -/
  nakAttempts : OrderedMap Seq ℕ
  /-- the numbers that wait for the next NAK flush -/
  pendingNAKs : List Seq
  /-- whether the flush timer is armed -/
  nakFlushTimer : Bool
  abandonedCount : ℕ
  deriving DecidableEq

/-- What the tracker tells its caller about an arrival. -/
structure ProcessSequenceResult where
  inOrder : Bool := false
  missing : List Seq := []
  duplicate : Bool := false
  resynced : Bool := false
  lateArrival : Bool := false
  deriving DecidableEq

namespace SequenceTracker

def new (config : SequenceTrackerConfig) : SequenceTracker where
  config := config
  expectedSeq := none
  receivedSeqs := ∅
  nakTimers := []
  nakAttempts := .empty
  pendingNAKs := []
  nakFlushTimer := false
  abandonedCount := 0

/-- Drop the timer, the attempt counter and the pending NAK of a number. -/
def cancelNAK (t : SequenceTracker) (sequence : Seq) : SequenceTracker :=
  { t with
    nakTimers := t.nakTimers.filter (· ≠ sequence)
    nakAttempts := t.nakAttempts.delete sequence
    pendingNAKs := t.pendingNAKs.filter (· ≠ sequence) }

/-- Forget the numbers more than `maxOutOfOrder` behind `expectedSeq`. -/
def cleanupOldSequences (t : SequenceTracker) : SequenceTracker :=
  match t.expectedSeq with
  | none => t
  | some expectedSeq =>
    let cutoff := expectedSeq - BitVec.ofNat 32 t.config.maxOutOfOrder
    { t with receivedSeqs := t.receivedSeqs.filter fun seq => ¬ isBehind seq cutoff }

/-- The walk over contiguous numbers already received, with the number it stops at. The fuel
bounds the number of iterations (`not_mem_advance`). -/
def advance : ℕ → SequenceTracker → Seq → SequenceTracker × Seq
  | 0, t, expectedSeq => (t, expectedSeq)
  | fuel + 1, t, expectedSeq =>
    if expectedSeq ∈ t.receivedSeqs then advance fuel (t.cancelNAK expectedSeq) (expectedSeq + 1)
    else (t, expectedSeq)

/-- Move `expectedSeq` past the number it stands at and past everything contiguous. -/
def advanceExpected (t : SequenceTracker) (expectedSeq : Seq) : SequenceTracker :=
  let r := advance t.receivedSeqs.card t (expectedSeq + 1)
  cleanupOldSequences { r.1 with expectedSeq := some r.2 }

/-- Give up on a number. -/
def abandonSequence (t : SequenceTracker) (sequence : Seq) : SequenceTracker :=
  let t := t.cancelNAK sequence
  let t := { t with
    receivedSeqs := insert sequence t.receivedSeqs
    abandonedCount := t.abandonedCount + 1 }
  if t.expectedSeq = some sequence then t.advanceExpected sequence else t

/-- The oldest number with an armed timer, by pairwise serial comparison. -/
def oldestTimer : List Seq → Option Seq → Option Seq
  | [], oldestSeq => oldestSeq
  | s :: rest, none => oldestTimer rest (some s)
  | s :: rest, some oldestSeq => oldestTimer rest (some (if isBehind s oldestSeq then s else oldestSeq))

/-- Arm the NAK timer of a missing number, evicting the oldest timer when the tracker is full. -/
def scheduleNAK (t : SequenceTracker) (sequence : Seq) : SequenceTracker :=
  if sequence ∈ t.nakTimers then t
  else
    let t :=
      if t.config.maxGapTracking ≤ t.nakTimers.length then
        match oldestTimer t.nakTimers none with
        | some oldestSeq => t.cancelNAK oldestSeq
        | none => t
      else t
    { t with nakTimers := t.nakTimers ++ [sequence] }

/-- Cancel every timer and forget every pending NAK. -/
def clearNAKTimers (t : SequenceTracker) : SequenceTracker :=
  { t with nakTimers := [], nakAttempts := .empty, pendingNAKs := [], nakFlushTimer := false }

/-- Take a new baseline after a discontinuity. -/
def resync (t : SequenceTracker) (sequence : Seq) : SequenceTracker :=
  { t.clearNAKTimers with receivedSeqs := {sequence}, expectedSeq := some (sequence + 1) }

/-- Forget everything. -/
def reset (t : SequenceTracker) : SequenceTracker :=
  { t.clearNAKTimers with receivedSeqs := ∅, expectedSeq := none }

/-- The walk over the `gap` numbers from `candidate` on: the missing ones, with a NAK scheduled
for each. -/
def recordGap : ℕ → SequenceTracker → Seq → SequenceTracker × List Seq
  | 0, t, _ => (t, [])
  | gap + 1, t, candidate =>
    if candidate ∈ t.receivedSeqs then recordGap gap t (candidate + 1)
    else
      let r := recordGap gap (t.scheduleNAK candidate) (candidate + 1)
      (r.1, candidate :: r.2)

/-- A number ahead of the expected one. -/
def processAhead (t : SequenceTracker) (expectedSeq sequence : Seq) :
    SequenceTracker × ProcessSequenceResult :=
  let gapSize := dist expectedSeq sequence
  if t.config.maxGapTracking < gapSize then
    (t.resync sequence, { inOrder := true, resynced := true })
  else
    let r := recordGap gapSize t expectedSeq
    (r.1.cleanupOldSequences, { missing := r.2 })

/-- A number behind the expected one. -/
def processBehind (t : SequenceTracker) (expectedSeq sequence : Seq) :
    SequenceTracker × ProcessSequenceResult :=
  if t.config.behindResyncThreshold < dist sequence expectedSeq then
    (t.resync sequence, { inOrder := true, resynced := true })
  else
    ({ t with receivedSeqs := insert sequence t.receivedSeqs }.cancelNAK sequence,
      { lateArrival := true })

/-- Record an arrival that is not behind the window: nothing is left to NAK for it. -/
def recordArrival (t : SequenceTracker) (sequence : Seq) : SequenceTracker :=
  let t := { t with receivedSeqs := insert sequence t.receivedSeqs }.cancelNAK sequence
  if t.config.maxGapTracking * 2 < t.receivedSeqs.card then t.cleanupOldSequences else t

/-- Process a received sequence number. -/
def processSequence (t : SequenceTracker) (sequence : Seq) :
    SequenceTracker × ProcessSequenceResult :=
  match t.expectedSeq with
  | none =>
    -- the baseline is the first number that arrives, whatever was sent before it
    ({ t with
        receivedSeqs := insert sequence t.receivedSeqs
        expectedSeq := some (sequence + 1) }, { inOrder := true })
  | some expectedSeq =>
    if sequence ∈ t.receivedSeqs then (t, { duplicate := true })
    else if isBehind sequence expectedSeq then t.processBehind expectedSeq sequence
    else
      let t := t.recordArrival sequence
      if sequence = expectedSeq then (t.advanceExpected expectedSeq, { inOrder := true })
      else if isAhead sequence expectedSeq then t.processAhead expectedSeq sequence
      else (t, {})

/-- The NAK timer of a number fires: the tracker afterwards, and whether the number was given
up. A timer that is not armed does not fire. -/
def nakTimerFired (t : SequenceTracker) (sequence : Seq) : SequenceTracker × Bool :=
  if sequence ∈ t.nakTimers then
    let t := { t with nakTimers := t.nakTimers.filter (· ≠ sequence) }
    if sequence ∈ t.receivedSeqs then (t, false)
    else
      let attempts := (t.nakAttempts.get? sequence).getD 0 + 1
      if t.config.maxNakRounds < attempts then (t.abandonSequence sequence, true)
      else
        let t := { t with
          nakAttempts := t.nakAttempts.set sequence attempts
          pendingNAKs := if sequence ∈ t.pendingNAKs then t.pendingNAKs
            else t.pendingNAKs ++ [sequence]
          nakFlushTimer := true }
        (t.scheduleNAK sequence, false)
  else (t, false)

/-- The flush timer fires: the tracker afterwards, and the batch of numbers to NAK. -/
def nakFlushFired (t : SequenceTracker) : SequenceTracker × List Seq :=
  if t.nakFlushTimer then
    ({ t with nakFlushTimer := false, pendingNAKs := [] },
      t.pendingNAKs.filter (· ∉ t.receivedSeqs))
  else (t, [])

/-! ## What the NAK bookkeeping leaves alone -/

section Frame

variable (t : SequenceTracker) (s : Seq)

@[simp] theorem config_cancelNAK : (t.cancelNAK s).config = t.config := rfl

@[simp] theorem expectedSeq_cancelNAK : (t.cancelNAK s).expectedSeq = t.expectedSeq := rfl

@[simp] theorem receivedSeqs_cancelNAK : (t.cancelNAK s).receivedSeqs = t.receivedSeqs := rfl

theorem mem_nakTimers_cancelNAK {x : Seq} :
    x ∈ (t.cancelNAK s).nakTimers ↔ x ∈ t.nakTimers ∧ x ≠ s := by
  simp [cancelNAK]

@[simp] theorem config_cleanupOldSequences : t.cleanupOldSequences.config = t.config := by
  unfold cleanupOldSequences
  split <;> rfl

@[simp] theorem expectedSeq_cleanupOldSequences :
    t.cleanupOldSequences.expectedSeq = t.expectedSeq := by
  unfold cleanupOldSequences
  split
  next h => rfl
  next h => exact h.symm ▸ h

@[simp] theorem nakTimers_cleanupOldSequences :
    t.cleanupOldSequences.nakTimers = t.nakTimers := by
  unfold cleanupOldSequences
  split <;> rfl

/-- A clean-up keeps the numbers that are not behind the cut-off. -/
theorem mem_cleanupOldSequences {e x : Seq} (h : t.expectedSeq = some e) :
    x ∈ t.cleanupOldSequences.receivedSeqs ↔
      x ∈ t.receivedSeqs ∧ ¬ isBehind x (e - BitVec.ofNat 32 t.config.maxOutOfOrder) := by
  unfold cleanupOldSequences
  rw [h]
  exact Finset.mem_filter

theorem cleanupOldSequences_subset : t.cleanupOldSequences.receivedSeqs ⊆ t.receivedSeqs := by
  unfold cleanupOldSequences
  split
  · exact subset_rfl
  · exact Finset.filter_subset _ _

theorem scheduleNAK_frame :
    (t.scheduleNAK s).config = t.config ∧ (t.scheduleNAK s).expectedSeq = t.expectedSeq ∧
      (t.scheduleNAK s).receivedSeqs = t.receivedSeqs := by
  unfold scheduleNAK
  split_ifs
  · exact ⟨rfl, rfl, rfl⟩
  · dsimp only
    split <;> exact ⟨rfl, rfl, rfl⟩
  · exact ⟨rfl, rfl, rfl⟩

@[simp] theorem config_scheduleNAK : (t.scheduleNAK s).config = t.config :=
  (scheduleNAK_frame t s).1

@[simp] theorem expectedSeq_scheduleNAK : (t.scheduleNAK s).expectedSeq = t.expectedSeq :=
  (scheduleNAK_frame t s).2.1

@[simp] theorem receivedSeqs_scheduleNAK : (t.scheduleNAK s).receivedSeqs = t.receivedSeqs :=
  (scheduleNAK_frame t s).2.2

/-- Scheduling arms no timer but the one asked for. -/
theorem mem_nakTimers_scheduleNAK {x : Seq} (h : x ∈ (t.scheduleNAK s).nakTimers) :
    x ∈ t.nakTimers ∨ x = s := by
  unfold scheduleNAK at h
  split_ifs at h with h1 h2
  · exact Or.inl h
  · dsimp only at h
    split at h
    · rw [List.mem_append, mem_nakTimers_cancelNAK, List.mem_singleton] at h
      exact h.imp_left And.left
    · rwa [List.mem_append, List.mem_singleton] at h
  · rwa [List.mem_append, List.mem_singleton] at h

end Frame

theorem recordGap_frame (gap : ℕ) (t : SequenceTracker) (candidate : Seq) :
    (recordGap gap t candidate).1.config = t.config ∧
      (recordGap gap t candidate).1.expectedSeq = t.expectedSeq ∧
      (recordGap gap t candidate).1.receivedSeqs = t.receivedSeqs := by
  induction gap generalizing t candidate with
  | zero => exact ⟨rfl, rfl, rfl⟩
  | succ gap ih =>
    rw [recordGap]
    split_ifs
    · exact ih t _
    · simpa using ih (t.scheduleNAK candidate) (candidate + 1)

/-- The walk over a gap arms timers for numbers of the gap only. -/
theorem mem_nakTimers_recordGap {gap : ℕ} {t : SequenceTracker} {o candidate x : Seq}
    (hlt : dist o candidate + gap < 2 ^ 32)
    (h : x ∈ (recordGap gap t candidate).1.nakTimers) :
    x ∈ t.nakTimers ∨ (dist o candidate ≤ dist o x ∧ dist o x < dist o candidate + gap) := by
  induction gap generalizing t candidate with
  | zero => exact Or.inl h
  | succ gap ih =>
    have hnext : dist o (candidate + 1) = dist o candidate + 1 := by
      have := dist_add_dist o candidate (candidate + 1)
      have := dist_lt o (candidate + 1)
      rw [dist_add_one] at *
      omega
    rw [recordGap] at h
    split_ifs at h with hc
    · rcases ih (by omega) h with h | h
      · exact Or.inl h
      · exact Or.inr ⟨by omega, by omega⟩
    · rcases ih (by omega) h with h | h
      · rcases mem_nakTimers_scheduleNAK _ _ h with h | rfl
        · exact Or.inl h
        · exact Or.inr ⟨le_rfl, by omega⟩
      · exact Or.inr ⟨by omega, by omega⟩

/-! ## The contiguous advance -/

theorem advance_frame (fuel : ℕ) (t : SequenceTracker) (e : Seq) :
    (advance fuel t e).1.config = t.config ∧
      (advance fuel t e).1.receivedSeqs = t.receivedSeqs := by
  induction fuel generalizing t e with
  | zero => exact ⟨rfl, rfl⟩
  | succ fuel ih =>
    rw [advance]
    split_ifs
    · simpa using ih (t.cancelNAK e) (e + 1)
    · exact ⟨rfl, rfl⟩

/-- The walk passes only numbers that were received, and cancels their timers: from `e` it gets
to `e + n`, where it stops unless it runs out of fuel, and the timers left are armed ones of
numbers it did not pass. -/
theorem advance_spec (fuel : ℕ) (t : SequenceTracker) (e : Seq) :
    ∃ n ≤ fuel, (advance fuel t e).2 = e + BitVec.ofNat 32 n ∧
      (∀ i < n, e + BitVec.ofNat 32 i ∈ t.receivedSeqs) ∧
      (n = fuel ∨ e + BitVec.ofNat 32 n ∉ t.receivedSeqs) ∧
      ∀ x ∈ (advance fuel t e).1.nakTimers,
        x ∈ t.nakTimers ∧ ∀ i < n, x ≠ e + BitVec.ofNat 32 i := by
  induction fuel generalizing t e with
  | zero => exact ⟨0, le_rfl, by simp [advance], by simp, Or.inl rfl, fun x hx => ⟨hx, by simp⟩⟩
  | succ fuel ih =>
    rw [advance]
    split_ifs with h
    · obtain ⟨n, hn, h2, hrec, hstop, htim⟩ := ih (t.cancelNAK e) (e + 1)
      have hshift := add_one_add_ofNat e
      rw [hshift] at hstop
      refine ⟨n + 1, by omega, by rw [h2, hshift], fun i hi => ?_, hstop.imp_left (by omega),
        fun x hx => ?_⟩
      · cases i with
        | zero => simpa using h
        | succ i => rw [← hshift]; exact hrec i (by omega)
      · obtain ⟨hx, hpass⟩ := htim x hx
        rw [mem_nakTimers_cancelNAK] at hx
        refine ⟨hx.1, fun i hi => ?_⟩
        cases i with
        | zero => simpa using hx.2
        | succ i => rw [← hshift]; exact hpass i (by omega)
    · exact ⟨0, by omega, by simp, by simp, Or.inr (by simpa using h), fun x hx => ⟨hx, by simp⟩⟩

/-- The fuel of the walk is enough: it stops at a number that has not been received. -/
theorem not_mem_advance {t : SequenceTracker} (hcard : t.receivedSeqs.card < 2 ^ 32) (e : Seq) :
    (advance t.receivedSeqs.card t e).2 ∉ t.receivedSeqs := by
  obtain ⟨n, hn, h2, hrec, hstop, -⟩ := advance_spec t.receivedSeqs.card t e
  rw [h2]
  rcases hstop with rfl | hstop
  · -- as many numbers were passed as were received, so these are all of them
    have hinj : Set.InjOn (fun i => e + BitVec.ofNat 32 i)
        (Finset.range t.receivedSeqs.card : Set ℕ) := by
      intro i hi j hj hij
      simp only [Finset.coe_range, Set.mem_Iio] at hi hj
      exact add_ofNat_injOn e (by omega) (by omega) hij
    have hsub : (Finset.range t.receivedSeqs.card).image (fun i => e + BitVec.ofNat 32 i)
        ⊆ t.receivedSeqs := by
      intro x hx
      obtain ⟨i, hi, rfl⟩ := Finset.mem_image.1 hx
      exact hrec i (Finset.mem_range.1 hi)
    have heq := Finset.eq_of_subset_of_card_le hsub (by
      rw [Finset.card_image_of_injOn hinj, Finset.card_range])
    intro hmem
    obtain ⟨i, hi, hii⟩ := Finset.mem_image.1 (heq.ge hmem)
    have hlt := Finset.mem_range.1 hi
    have := add_ofNat_injOn e (by omega) hcard hii
    omega
  · exact hstop

/-- **The advance of `expectedSeq`**: it moves past `e` and past the `n` received numbers that
follow, a clean-up relative to the new place follows, and no timer is armed for a number that was
passed. -/
theorem advanceExpected_spec (t : SequenceTracker) (e : Seq) :
    ∃ n, (t.advanceExpected e).expectedSeq = some (e + BitVec.ofNat 32 (n + 1)) ∧
      (∀ i < n, e + BitVec.ofNat 32 (i + 1) ∈ t.receivedSeqs) ∧
      (∀ x, x ∈ (t.advanceExpected e).receivedSeqs ↔ x ∈ t.receivedSeqs ∧
        ¬ isBehind x (e + BitVec.ofNat 32 (n + 1) - BitVec.ofNat 32 t.config.maxOutOfOrder)) ∧
      (∀ x ∈ (t.advanceExpected e).nakTimers,
        x ∈ t.nakTimers ∧ ∀ i < n, x ≠ e + BitVec.ofNat 32 (i + 1)) := by
  obtain ⟨n, -, h2, hrec, -, htim⟩ := advance_spec t.receivedSeqs.card t (e + 1)
  obtain ⟨hcfg, hrcv⟩ := advance_frame t.receivedSeqs.card t (e + 1)
  simp only [add_one_add_ofNat] at h2 hrec htim
  refine ⟨n, ?_, hrec, fun x => ?_, fun x hx => ?_⟩
  · simp only [advanceExpected, expectedSeq_cleanupOldSequences, h2]
  · rw [advanceExpected, mem_cleanupOldSequences _ (congrArg some h2)]
    simp only [hcfg, hrcv]
  · rw [advanceExpected, nakTimers_cleanupOldSequences] at hx
    exact htim x hx

theorem config_advanceExpected (t : SequenceTracker) (e : Seq) :
    (t.advanceExpected e).config = t.config := by
  simp only [advanceExpected, config_cleanupOldSequences,
    (advance_frame t.receivedSeqs.card t (e + 1)).1]

/-! ## What an arrival does -/

section Arrival

variable {t : SequenceTracker} {e s : Seq}

theorem recordArrival_frame (t : SequenceTracker) (s : Seq) :
    (t.recordArrival s).config = t.config ∧ (t.recordArrival s).expectedSeq = t.expectedSeq ∧
      (t.recordArrival s).nakTimers = t.nakTimers.filter (· ≠ s) ∧
      (t.recordArrival s).receivedSeqs ⊆ insert s t.receivedSeqs := by
  unfold recordArrival
  dsimp only
  split_ifs
  · refine ⟨by simp, by simp, by simp [cancelNAK], ?_⟩
    exact (cleanupOldSequences_subset _).trans (by simp)
  · exact ⟨rfl, rfl, rfl, by simp⟩

/-- Recording an arrival keeps the numbers that a clean-up would keep. -/
theorem mem_recordArrival (he : t.expectedSeq = some e) {x : Seq}
    (hx : x ∈ insert s t.receivedSeqs)
    (hb : ¬ isBehind x (e - BitVec.ofNat 32 t.config.maxOutOfOrder)) :
    x ∈ (t.recordArrival s).receivedSeqs := by
  unfold recordArrival
  dsimp only
  split_ifs
  · rw [mem_cleanupOldSequences _ (e := e) (by simpa using he)]
    exact ⟨hx, hb⟩
  · exact hx

theorem processSequence_first (h : t.expectedSeq = none) (s : Seq) :
    t.processSequence s = ({ t with
      receivedSeqs := insert s t.receivedSeqs
      expectedSeq := some (s + 1) }, { inOrder := true }) := by
  simp only [processSequence, h]

/-- **What an arrival does** to a tracker with a baseline: it is a duplicate, it makes the tracker
take a new baseline, it is late, it is in order, it is ahead within the gap limit, or it is
exactly half the number space away. -/
theorem processSequence_cases (he : t.expectedSeq = some e) (s : Seq) :
    (s ∈ t.receivedSeqs ∧ t.processSequence s = (t, { duplicate := true })) ∨
    (s ∉ t.receivedSeqs ∧
      ((isBehind s e ∧ t.config.behindResyncThreshold < dist s e) ∨
        (isAhead s e ∧ t.config.maxGapTracking < dist e s)) ∧
      t.processSequence s = (t.resync s, { inOrder := true, resynced := true })) ∨
    (s ∉ t.receivedSeqs ∧ isBehind s e ∧ dist s e ≤ t.config.behindResyncThreshold ∧
      t.processSequence s =
        ({ t with receivedSeqs := insert s t.receivedSeqs }.cancelNAK s,
          { lateArrival := true })) ∨
    (s ∉ t.receivedSeqs ∧ s = e ∧
      t.processSequence s = ((t.recordArrival s).advanceExpected e, { inOrder := true })) ∨
    (s ∉ t.receivedSeqs ∧ isAhead s e ∧ dist e s ≤ t.config.maxGapTracking ∧
      t.processSequence s =
        ((recordGap (dist e s) (t.recordArrival s) e).1.cleanupOldSequences,
          { missing := (recordGap (dist e s) (t.recordArrival s) e).2 })) ∨
    (s ∉ t.receivedSeqs ∧ dist e s = 0x80000000 ∧
      t.processSequence s = (t.recordArrival s, {})) := by
  have hcfg := (recordArrival_frame t s).1
  by_cases hdup : s ∈ t.receivedSeqs
  · exact Or.inl ⟨hdup, by simp [processSequence, he, hdup]⟩
  refine Or.inr ?_
  by_cases hb : isBehind s e
  · by_cases hfar : t.config.behindResyncThreshold < dist s e
    · refine Or.inl ⟨hdup, Or.inl ⟨hb, hfar⟩, ?_⟩
      simp [processSequence, processBehind, he, hdup, hb, hfar]
    · refine Or.inr (Or.inl ⟨hdup, hb, Nat.le_of_not_lt hfar, ?_⟩)
      simp [processSequence, processBehind, he, hdup, hb, hfar]
  by_cases hse : s = e
  · refine Or.inr (Or.inr (Or.inl ⟨hdup, hse, ?_⟩))
    subst hse
    simp [processSequence, he, hdup, isBehind]
  by_cases ha : isAhead s e
  · by_cases hfar : t.config.maxGapTracking < dist e s
    · refine Or.inl ⟨hdup, Or.inr ⟨ha, hfar⟩, ?_⟩
      have hres : (t.recordArrival s).resync s = t.resync s := by
        unfold recordArrival cleanupOldSequences
        dsimp only
        split_ifs
        · split <;> rfl
        · rfl
      simp [processSequence, processAhead, he, hdup, hb, hse, ha, hcfg, hfar, hres]
    · refine Or.inr (Or.inr (Or.inr (Or.inl ⟨hdup, ha, Nat.le_of_not_lt hfar, ?_⟩)))
      simp [processSequence, processAhead, he, hdup, hb, hse, ha, hcfg, hfar]
  · refine Or.inr (Or.inr (Or.inr (Or.inr ⟨hdup, ?_, ?_⟩)))
    · have h0 : dist e s ≠ 0 := fun h => hse (dist_eq_zero.1 h).symm
      have hlap := dist_add_dist_comm (a := e) (b := s) fun h => hse h.symm
      unfold isBehind at hb
      unfold isAhead at ha
      have := dist_lt e s
      omega
    · simp [processSequence, he, hdup, hb, hse, ha]

end Arrival

/-! ## What a timer does -/

/-- **What a NAK timer does**: nothing when it is not armed or its number has arrived, the number
is given up, or the number is due in the next batch and its timer is armed again. -/
theorem nakTimerFired_cases (t : SequenceTracker) (q : Seq) :
    (q ∉ t.nakTimers ∧ t.nakTimerFired q = (t, false)) ∨
    (q ∈ t.nakTimers ∧ q ∈ t.receivedSeqs ∧ t.nakTimerFired q =
      ({ t with nakTimers := t.nakTimers.filter (· ≠ q) }, false)) ∨
    (q ∈ t.nakTimers ∧ q ∉ t.receivedSeqs ∧
      t.config.maxNakRounds ≤ (t.nakAttempts.get? q).getD 0 ∧ t.nakTimerFired q =
      (abandonSequence { t with nakTimers := t.nakTimers.filter (· ≠ q) } q, true)) ∨
    (q ∈ t.nakTimers ∧ q ∉ t.receivedSeqs ∧
      (t.nakAttempts.get? q).getD 0 < t.config.maxNakRounds ∧ t.nakTimerFired q =
      (scheduleNAK { t with
        nakTimers := t.nakTimers.filter (· ≠ q)
        nakAttempts := t.nakAttempts.set q ((t.nakAttempts.get? q).getD 0 + 1)
        pendingNAKs := if q ∈ t.pendingNAKs then t.pendingNAKs else t.pendingNAKs ++ [q]
        nakFlushTimer := true } q, false)) := by
  by_cases h : q ∈ t.nakTimers
  · by_cases hr : q ∈ t.receivedSeqs
    · exact Or.inr (Or.inl ⟨h, hr, by simp [nakTimerFired, h, hr]⟩)
    · by_cases ha : t.config.maxNakRounds ≤ (t.nakAttempts.get? q).getD 0
      · refine Or.inr (Or.inr (Or.inl ⟨h, hr, ha, ?_⟩))
        simp [nakTimerFired, h, hr, Nat.lt_succ_of_le ha]
      · refine Or.inr (Or.inr (Or.inr ⟨h, hr, Nat.lt_of_not_le ha, ?_⟩))
        have hround : ¬ t.config.maxNakRounds < (t.nakAttempts.get? q).getD 0 + 1 := by omega
        simp only [nakTimerFired, h, hr, hround, if_true, if_false]
  · exact Or.inl ⟨h, by simp [nakTimerFired, h]⟩

@[simp] theorem nakFlushFired_frame (t : SequenceTracker) :
    t.nakFlushFired.1.config = t.config ∧ t.nakFlushFired.1.expectedSeq = t.expectedSeq ∧
      t.nakFlushFired.1.receivedSeqs = t.receivedSeqs ∧
      t.nakFlushFired.1.nakTimers = t.nakTimers := by
  unfold nakFlushFired
  split_ifs <;> exact ⟨rfl, rfl, rfl, rfl⟩

end SequenceTracker

end EdgeLink
