import Mathlib.Data.List.Basic
import Mathlib.Data.List.Infix
import Mathlib.Order.Lattice

/-!
# The delta batcher

The outbound buffer and its send loop: `domain/delta-batcher.ts`, and the producer's side of it in
`app/connection/process-delta.ts`. A flush takes the front of the buffer and hands it to the sender.
The batch stays in the buffer until the send ends, and is removed by its length then.

The send is asynchronous. `flushDeltaBatch` runs up to the `await` and leaves the suspended call in
`flight`; `sendEnded` is the rest. The buffered deltas are of any type `δ`: the batcher never looks
into them.

* `Flushed`: all that a flush, by whichever timer, can do; `flushed_enqueue` says it of an arrival.
* `ended_sendEnded`: the three ways in which a send can end.
* `Sized`: a batch in flight is small and not longer than the buffer.
-/

namespace EdgeLink

/-- The buffer is trimmed when it has this length. -/
def MAX_DELTAS_BUFFER_SIZE : ℕ := 1000

/-- `DELTA_BUFFER_DROP_RATIO` of the capacity. -/
def DELTA_BUFFER_DROP : ℕ := MAX_DELTAS_BUFFER_SIZE / 2

def DELTA_SEND_MAX_RETRIES : ℕ := 1

def SMART_BATCH_MIN_DELTAS : ℕ := 1

def SMART_BATCH_MAX_DELTAS : ℕ := 50

/-- The batch size for an estimate of the deltas that fit into a packet. -/
def calculateMaxDeltasPerBatch (raw : ℕ) : ℕ :=
  max SMART_BATCH_MIN_DELTAS (min SMART_BATCH_MAX_DELTAS raw)

/-- A call of `flushDeltaBatch` that waits for its send. -/
structure Flight (δ : Type*) where
  batch : List δ
  actualBatchSize : ℕ
  retryCount : ℕ
  deriving DecidableEq

/-- The arguments of the flush that the retry timer will make. -/
structure PendingRetry where
  batchSize : ℕ
  retryCount : ℕ
  deriving DecidableEq

/-- The part of a connection's state that the send loop reads and writes. -/
structure InstanceState (δ : Type*) where
  deltas : List δ
  /-- a flush is due although the batch is not full -/
  timer : Bool
  batchSendInFlight : Bool
  /-- the suspended flush -/
  flight : Option (Flight δ)
  pendingRetry : Option PendingRetry
  /-- the flushes that `setImmediate` still has to make -/
  immediates : ℕ
  readyToSend : Bool
  subscribing : Bool
  socketRecoveryInProgress : Bool
  stopped : Bool
  maxDeltasPerBatch : ℕ
  droppedDeltaBatches : ℕ
  droppedDeltaCount : ℕ
  deriving DecidableEq

namespace InstanceState

variable {δ : Type*}

/-- A client that has started and has sent nothing yet. -/
def new : InstanceState δ where
  deltas := []
  timer := false
  batchSendInFlight := false
  flight := none
  pendingRetry := none
  immediates := 0
  readyToSend := true
  subscribing := false
  socketRecoveryInProgress := false
  stopped := false
  maxDeltasPerBatch := calculateMaxDeltasPerBatch 5
  droppedDeltaBatches := 0
  droppedDeltaCount := 0

/-! ## The send loop -/

/-- Up to the send. -/
def flushDeltaBatch (s : InstanceState δ) (batchSize retryCount : ℕ) : InstanceState δ :=
  if s.batchSendInFlight ∨ s.pendingRetry.isSome ∨ s.stopped ∨ ¬ s.readyToSend ∨
      s.socketRecoveryInProgress then s
  else if batchSize = 0 ∨ s.deltas.length = 0 then { s with timer := false }
  else
    let actualBatchSize := min batchSize (min s.deltas.length s.maxDeltasPerBatch)
    { s with
      batchSendInFlight := true
      flight := some ⟨s.deltas.take actualBatchSize, actualBatchSize, retryCount⟩ }

/-- A flush with the default arguments. -/
def flush (s : InstanceState δ) : InstanceState δ := s.flushDeltaBatch s.deltas.length 0

/-- Arm the retry timer, unless it is armed. -/
def scheduleBatchRetry (s : InstanceState δ) (batchSize retryCount : ℕ) : InstanceState δ :=
  if s.pendingRetry.isSome ∨ s.stopped then s
  else { s with pendingRetry := some ⟨batchSize, retryCount⟩ }

/-- Retry a failed batch, or drop it when its attempts are used up. -/
def handleBatchSendFailure (s : InstanceState δ) (actualBatchSize retryCount : ℕ) :
    InstanceState δ :=
  let nextRetryCount := retryCount + 1
  if nextRetryCount ≤ DELTA_SEND_MAX_RETRIES then s.scheduleBatchRetry actualBatchSize nextRetryCount
  else
    { s with
      deltas := s.deltas.drop actualBatchSize
      timer := false
      droppedDeltaBatches := s.droppedDeltaBatches + 1
      droppedDeltaCount := s.droppedDeltaCount + actualBatchSize }

/-- The batch has been sent. -/
def batchSent (s : InstanceState δ) (actualBatchSize : ℕ) : InstanceState δ :=
  { s with deltas := s.deltas.drop actualBatchSize, timer := false }

/-- A flush ends, one way or the other, and has the rest of the buffer flushed. -/
def sendSettled (s : InstanceState δ) : InstanceState δ :=
  let s := { s with batchSendInFlight := false, flight := none }
  if s.deltas.length > 0 ∧ s.pendingRetry.isNone ∧ ¬ s.stopped then
    { s with immediates := s.immediates + 1 }
  else s

/-- What a suspended flush does when its send succeeds or fails. -/
def sendEnded (s : InstanceState δ) (success : Bool) : InstanceState δ :=
  match s.flight with
  | none => s
  | some f =>
    (if success then s.batchSent f.actualBatchSize
      else s.handleBatchSendFailure f.actualBatchSize f.retryCount).sendSettled

/-- The retry timer fires. -/
def retryTimerFired (s : InstanceState δ) : InstanceState δ :=
  match s.pendingRetry with
  | none => s
  | some r => { s with pendingRetry := none }.flushDeltaBatch r.batchSize r.retryCount

/-- The periodic flush timer fires. -/
def deltaTimerFired (s : InstanceState δ) : InstanceState δ :=
  if s.stopped then s
  else
    let s := { s with timer := true }
    if s.deltas.length > 0 then s.flush else s

/-- A flush that `setImmediate` makes. -/
def immediateFired (s : InstanceState δ) : InstanceState δ :=
  if s.immediates = 0 then s else { s with immediates := s.immediates - 1 }.flush

/-! ## The producer's side -/

/-- Drop the oldest deltas when the buffer is over its capacity. -/
def enforceBufferCap (s : InstanceState δ) : InstanceState δ :=
  if s.deltas.length < MAX_DELTAS_BUFFER_SIZE then s
  else
    { s with
      deltas := s.deltas.drop DELTA_BUFFER_DROP
      droppedDeltaCount := s.droppedDeltaCount + DELTA_BUFFER_DROP
      droppedDeltaBatches := s.droppedDeltaBatches + 1 }

/-- Flush when a batch is full or the timer has fired. -/
def maybeFlush (s : InstanceState δ) : InstanceState δ :=
  if (s.maxDeltasPerBatch ≤ s.deltas.length ∨ s.timer) ∧ s.pendingRetry.isNone then s.flush else s

/-- Buffer a delta. -/
def enqueue (s : InstanceState δ) (outboundDelta : δ) : InstanceState δ :=
  let s := s.enforceBufferCap
  { s with deltas := s.deltas ++ [outboundDelta] }.maybeFlush

/-- The number of deltas that the cap is about to drop. -/
def overflow (s : InstanceState δ) : ℕ :=
  if s.deltas.length < MAX_DELTAS_BUFFER_SIZE then 0 else DELTA_BUFFER_DROP

/-! ## What the operations do -/

/-- What a flush may do: it leaves the buffer alone, and may start to send the front of it. -/
structure Flushed (s s' : InstanceState δ) : Prop where
  deltas : s'.deltas = s.deltas
  droppedDeltaCount : s'.droppedDeltaCount = s.droppedDeltaCount
  maxDeltasPerBatch : s'.maxDeltasPerBatch = s.maxDeltasPerBatch
  flight : (s'.flight = s.flight ∧ s'.batchSendInFlight = s.batchSendInFlight) ∨
    (s.batchSendInFlight = false ∧ s'.batchSendInFlight = true ∧
      ∃ n k, n ≤ s.deltas.length ∧ n ≤ s.maxDeltasPerBatch ∧
        s'.flight = some ⟨s.deltas.take n, n, k⟩)

/-- The ways in which a suspended flush can end. -/
inductive Ended (s : InstanceState δ) (f : Flight δ) : Bool → InstanceState δ → Prop
  | sent {s' : InstanceState δ} (deltas : s'.deltas = s.deltas.drop f.actualBatchSize)
      (count : s'.droppedDeltaCount = s.droppedDeltaCount) : Ended s f true s'
  | retry {s' : InstanceState δ} (attempt : f.retryCount < DELTA_SEND_MAX_RETRIES)
      (deltas : s'.deltas = s.deltas)
      (count : s'.droppedDeltaCount = s.droppedDeltaCount) : Ended s f false s'
  | gaveUp {s' : InstanceState δ} (attempt : DELTA_SEND_MAX_RETRIES ≤ f.retryCount)
      (deltas : s'.deltas = s.deltas.drop f.actualBatchSize)
      (count : s'.droppedDeltaCount = s.droppedDeltaCount + f.actualBatchSize) :
      Ended s f false s'

/-- A batch in flight is not longer than the buffer, and small. -/
structure Sized (s : InstanceState δ) : Prop where
  batchSendInFlight : s.batchSendInFlight = s.flight.isSome
  maxDeltasPerBatch : s.maxDeltasPerBatch ≤ SMART_BATCH_MAX_DELTAS
  flight : ∀ f, s.flight = some f → f.actualBatchSize ≤ s.deltas.length ∧
    f.actualBatchSize ≤ SMART_BATCH_MAX_DELTAS ∧ f.batch.length = f.actualBatchSize

section Lemmas

variable {s s' s'' : InstanceState δ} {f : Flight δ}

theorem Flushed.refl (s : InstanceState δ) : Flushed s s := ⟨rfl, rfl, rfl, Or.inl ⟨rfl, rfl⟩⟩

/-- Bookkeeping before a flush changes nothing that counts. -/
theorem Flushed.congr (h : Flushed s' s'') (hd : s'.deltas = s.deltas)
    (hc : s'.droppedDeltaCount = s.droppedDeltaCount)
    (hm : s'.maxDeltasPerBatch = s.maxDeltasPerBatch) (hf : s'.flight = s.flight)
    (hi : s'.batchSendInFlight = s.batchSendInFlight) : Flushed s s'' where
  deltas := h.deltas.trans hd
  droppedDeltaCount := h.droppedDeltaCount.trans hc
  maxDeltasPerBatch := h.maxDeltasPerBatch.trans hm
  flight := by
    have hflight := h.flight
    rwa [hf, hi, hd, hm] at hflight

theorem flushed_flushDeltaBatch (s : InstanceState δ) (batchSize retryCount : ℕ) :
    Flushed s (s.flushDeltaBatch batchSize retryCount) := by
  rw [flushDeltaBatch]
  split_ifs with hbusy hempty
  · exact .refl s
  · exact ⟨rfl, rfl, rfl, Or.inl ⟨rfl, rfl⟩⟩
  · have hidle : s.batchSendInFlight = false :=
      Bool.eq_false_iff.2 fun h => hbusy (Or.inl h)
    refine ⟨rfl, rfl, rfl, Or.inr ⟨hidle, rfl, _, retryCount, ?_, ?_, rfl⟩⟩
    · exact (min_le_right _ _).trans (min_le_left _ _)
    · exact (min_le_right _ _).trans (min_le_right _ _)

theorem flushed_flush (s : InstanceState δ) : Flushed s s.flush := flushed_flushDeltaBatch ..

theorem flushed_retryTimerFired (s : InstanceState δ) : Flushed s s.retryTimerFired := by
  rw [retryTimerFired]
  split
  · exact .refl s
  next r _ =>
    exact (flushed_flushDeltaBatch { s with pendingRetry := none } r.batchSize
      r.retryCount).congr rfl rfl rfl rfl rfl

theorem flushed_deltaTimerFired (s : InstanceState δ) : Flushed s s.deltaTimerFired := by
  rw [deltaTimerFired]
  dsimp only
  split_ifs
  · exact .refl s
  · exact (flushed_flush { s with timer := true }).congr rfl rfl rfl rfl rfl
  · exact ⟨rfl, rfl, rfl, Or.inl ⟨rfl, rfl⟩⟩

theorem flushed_immediateFired (s : InstanceState δ) : Flushed s s.immediateFired := by
  rw [immediateFired]
  split_ifs
  · exact .refl s
  · exact (flushed_flush { s with immediates := s.immediates - 1 }).congr rfl rfl rfl rfl rfl

theorem flushed_maybeFlush (s : InstanceState δ) : Flushed s s.maybeFlush := by
  rw [maybeFlush]
  split_ifs
  · exact flushed_flush s
  · exact .refl s

/-- Buffering a delta trims the front, appends the delta, and may flush. -/
theorem flushed_enqueue (s : InstanceState δ) (d : δ) :
    Flushed { s with
      deltas := s.deltas.drop s.overflow ++ [d]
      droppedDeltaCount := s.droppedDeltaCount + s.overflow } (s.enqueue d) := by
  refine (flushed_maybeFlush { s.enforceBufferCap with
    deltas := s.enforceBufferCap.deltas ++ [d] }).congr ?_ ?_ ?_ ?_ ?_
  all_goals
    simp only [enforceBufferCap, overflow]
    split_ifs <;> simp

theorem sendSettled_frame (s : InstanceState δ) :
    s.sendSettled.deltas = s.deltas ∧ s.sendSettled.droppedDeltaCount = s.droppedDeltaCount ∧
      s.sendSettled.maxDeltasPerBatch = s.maxDeltasPerBatch ∧ s.sendSettled.flight = none ∧
      s.sendSettled.batchSendInFlight = false := by
  rw [sendSettled]
  dsimp only
  split_ifs <;> exact ⟨rfl, rfl, rfl, rfl, rfl⟩

theorem maxDeltasPerBatch_handleBatchSendFailure (s : InstanceState δ) (n k : ℕ) :
    (s.handleBatchSendFailure n k).maxDeltasPerBatch = s.maxDeltasPerBatch := by
  rw [handleBatchSendFailure, scheduleBatchRetry]
  split_ifs <;> rfl

theorem ended_handleBatchSendFailure (s : InstanceState δ) (f : Flight δ) :
    Ended s f false (s.handleBatchSendFailure f.actualBatchSize f.retryCount) := by
  rw [handleBatchSendFailure, scheduleBatchRetry]
  split_ifs with hk
  · exact .retry hk rfl rfl
  · exact .retry hk rfl rfl
  · exact .gaveUp (by omega) rfl rfl

theorem Ended.congr {success : Bool} (h : Ended s f success s') (hd : s''.deltas = s'.deltas)
    (hc : s''.droppedDeltaCount = s'.droppedDeltaCount) : Ended s f success s'' := by
  cases h with
  | sent deltas count => exact .sent (hd.trans deltas) (hc.trans count)
  | retry attempt deltas count => exact .retry attempt (hd.trans deltas) (hc.trans count)
  | gaveUp attempt deltas count => exact .gaveUp attempt (hd.trans deltas) (hc.trans count)

/-- What the end of a send does. -/
theorem ended_sendEnded (hf : s.flight = some f) (success : Bool) :
    Ended s f success (s.sendEnded success) ∧ (s.sendEnded success).flight = none ∧
      (s.sendEnded success).batchSendInFlight = false ∧
      (s.sendEnded success).maxDeltasPerBatch = s.maxDeltasPerBatch := by
  rw [sendEnded, hf]
  dsimp only
  cases success with
  | true =>
    obtain ⟨hd, hc, hm, hflight⟩ := (s.batchSent f.actualBatchSize).sendSettled_frame
    exact ⟨.sent hd hc, hflight.1, hflight.2, hm⟩
  | false =>
    obtain ⟨hd, hc, hm, hflight⟩ :=
      (s.handleBatchSendFailure f.actualBatchSize f.retryCount).sendSettled_frame
    exact ⟨(ended_handleBatchSendFailure s f).congr hd hc, hflight.1, hflight.2,
      hm.trans (maxDeltasPerBatch_handleBatchSendFailure ..)⟩

/-! ### The batch in flight fits the buffer -/

theorem calculateMaxDeltasPerBatch_le (raw : ℕ) :
    calculateMaxDeltasPerBatch raw ≤ SMART_BATCH_MAX_DELTAS :=
  max_le (by decide) (min_le_left _ _)

theorem sized_new : Sized (new : InstanceState δ) where
  batchSendInFlight := rfl
  maxDeltasPerBatch := calculateMaxDeltasPerBatch_le 5
  flight := by simp [new]

theorem Sized.flushed (h : Sized s) (hs : Flushed s s') : Sized s' := by
  obtain ⟨hd, -, hm, ⟨hf, hi⟩ | ⟨-, hi, n, k, hn, hmax, hf⟩⟩ := hs
  · refine ⟨by rw [hi, hf, h.batchSendInFlight], hm ▸ h.maxDeltasPerBatch, fun f he => ?_⟩
    rw [hd]
    exact h.flight f (hf ▸ he)
  · refine ⟨by rw [hi, hf]; rfl, hm ▸ h.maxDeltasPerBatch, fun f he => ?_⟩
    obtain rfl := Option.some.inj (hf.symm.trans he)
    rw [hd]
    exact ⟨hn, hmax.trans h.maxDeltasPerBatch, by simpa using hn⟩

/-- Trimming leaves at least half of the capacity. -/
theorem overflow_cases (s : InstanceState δ) :
    s.overflow = 0 ∨ s.overflow = 500 ∧ 1000 ≤ s.deltas.length := by
  rw [overflow]
  split_ifs with h
  · exact Or.inl rfl
  · exact Or.inr ⟨rfl, not_lt.1 h⟩

/-- The buffer after an arrival, before it is flushed. -/
theorem Sized.push (h : Sized s) (d : δ) : Sized { s with
    deltas := s.deltas.drop s.overflow ++ [d]
    droppedDeltaCount := s.droppedDeltaCount + s.overflow } := by
  refine ⟨h.batchSendInFlight, h.maxDeltasPerBatch, fun f he => ?_⟩
  obtain ⟨hlen, hmax, hbatch⟩ := h.flight f he
  refine ⟨?_, hmax, hbatch⟩
  simp only [List.length_append, List.length_drop, List.length_singleton]
  have hsmall : f.actualBatchSize ≤ 50 := hmax
  rcases s.overflow_cases with h0 | h500 <;> omega

theorem Sized.enqueue (h : Sized s) (d : δ) : Sized (s.enqueue d) :=
  (h.push d).flushed (flushed_enqueue s d)

theorem Sized.sendEnded (h : Sized s) (success : Bool) : Sized (s.sendEnded success) := by
  cases hf : s.flight with
  | none => rwa [InstanceState.sendEnded, hf]
  | some f =>
    obtain ⟨-, hnone, hidle, hm⟩ := ended_sendEnded hf success
    refine ⟨by rw [hnone, hidle]; rfl, hm ▸ h.maxDeltasPerBatch, fun f he => ?_⟩
    rw [hnone] at he
    cases he

end Lemmas

end InstanceState

end EdgeLink
