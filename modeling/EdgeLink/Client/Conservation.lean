import EdgeLink.Client.ProcessDelta
import Mathlib.Data.List.Count
import Mathlib.Data.List.Range

/-!
# Conservation of the buffered deltas

The send loop with its producer, over whole runs (`Ledger`). Every delta that is pushed gets a
number, and the ledger writes down which numbers have been sent and which have been dropped.

* `conserved`: as long as a batch that is sent successfully is still the front of the buffer when
  its send ends (`Allowed`), every delta is in exactly one place: buffered, sent, or dropped and
  counted.
* `trimmed_batch`: trimming the buffer while a batch is in flight makes its deltas dropped and sent.
-/

namespace EdgeLink

/-- The send loop of a connection, with a record of what has become of the deltas. -/
structure Ledger where
  inst : InstanceState (ℕ × Delta)
  recentOutboundDeltas : OrderedMap String Time
  /-- the number of deltas pushed so far, which is the number of the next one -/
  pushed : ℕ
  /-- the deltas of the batches whose send succeeded -/
  sent : List ℕ
  /-- the deltas that were removed and counted as dropped -/
  dropped : List ℕ
  deriving DecidableEq

inductive LedgerEvent
  | processDelta (now : Time) (delta : Delta)
  | deltaTimer
  | retryTimer
  | immediate
  | sendEnded (success : Bool)
  /-- a send updates the estimate of the batch size -/
  | updateSmartBatch (raw : ℕ)
  | cleanupDedupeMap (now : Time)
  | readyToSend (ready : Bool)
  | subscribing (subscribing : Bool)
  | socketRecovery (inProgress : Bool)

namespace Ledger

def new : Ledger := ⟨.new, .empty, 0, [], []⟩

/-- The numbers of the buffered deltas. -/
def buffer (s : Ledger) : List ℕ := s.inst.deltas.map Prod.fst

/-- The numbers of the first `n` buffered deltas. -/
def front (s : Ledger) (n : ℕ) : List ℕ := s.buffer.take n

/-- A delta arrives. -/
def arrive (opts : ProducerOptions) (s : Ledger) (now : Time) (delta : Delta) : Ledger :=
  let r := processDelta opts (s.pushed, ·) s.inst s.recentOutboundDeltas now delta
  let s' := { s with inst := r.1, recentOutboundDeltas := r.2 }
  match buffered opts s.inst s.recentOutboundDeltas now delta with
  | none => s'
  | some _ => { s' with
      pushed := s.pushed + 1
      dropped := s.dropped ++ s.front s.inst.overflow }

/-- The send of the batch in flight ends. -/
def sendEnded (s : Ledger) (success : Bool) : Ledger :=
  let s' := { s with inst := s.inst.sendEnded success }
  match s.inst.flight with
  | none => s'
  | some f =>
    if success then { s' with sent := s.sent ++ f.batch.map Prod.fst }
    else if DELTA_SEND_MAX_RETRIES ≤ f.retryCount then
      { s' with dropped := s.dropped ++ s.front f.actualBatchSize }
    else s'

def step (opts : ProducerOptions) (s : Ledger) : LedgerEvent → Ledger
  | .processDelta now delta => s.arrive opts now delta
  | .deltaTimer => { s with inst := s.inst.deltaTimerFired }
  | .retryTimer => { s with inst := s.inst.retryTimerFired }
  | .immediate => { s with inst := s.inst.immediateFired }
  | .sendEnded success => s.sendEnded success
  | .updateSmartBatch raw =>
    { s with inst := { s.inst with maxDeltasPerBatch := calculateMaxDeltasPerBatch raw } }
  | .cleanupDedupeMap now =>
    { s with recentOutboundDeltas := EdgeLink.cleanupDedupeMap s.recentOutboundDeltas now }
  | .readyToSend ready => { s with inst := { s.inst with readyToSend := ready } }
  | .subscribing subscribing => { s with inst := { s.inst with subscribing := subscribing } }
  | .socketRecovery inProgress =>
    { s with inst := { s.inst with socketRecoveryInProgress := inProgress } }

/-- Every delta pushed is buffered, sent or dropped, and only one of these; what is dropped is
counted. -/
structure Conserved (s : Ledger) : Prop where
  partition : (s.buffer ++ s.sent ++ s.dropped).Perm (List.range s.pushed)
  counted : s.inst.droppedDeltaCount = s.dropped.length

/-- The condition on a step: a batch that has been sent is still the front of the buffer. -/
def Allowed (s : Ledger) : LedgerEvent → Prop
  | .sendEnded true => ∀ f ∈ s.inst.flight, f.batch <+: s.inst.deltas
  | _ => True

instance (s : Ledger) (e : LedgerEvent) : Decidable (s.Allowed e) := by
  unfold Allowed
  split <;> infer_instance

/-! ## Every step conserves the deltas -/

/-- The invariant of the send loop. -/
structure Inv (s : Ledger) : Prop where
  sized : s.inst.Sized
  conserved : s.Conserved

variable {s : Ledger} {opts : ProducerOptions}

theorem count_front_add (s : Ledger) (n a : ℕ) :
    (s.front n).count a + (s.buffer.drop n).count a = s.buffer.count a := by
  rw [front, ← List.count_append, List.take_append_drop]

/-- Nothing happens to the ledger. -/
theorem Conserved.of_same (h : s.Conserved) {s' : Ledger} (hd : s'.inst.deltas = s.inst.deltas)
    (hc : s'.inst.droppedDeltaCount = s.inst.droppedDeltaCount) (hp : s'.pushed = s.pushed)
    (hs : s'.sent = s.sent) (hx : s'.dropped = s.dropped) : s'.Conserved where
  partition := by
    rw [buffer, hd, hs, hx, hp]
    exact h.partition
  counted := by rw [hc, hx, h.counted]

/-- The front of the buffer moves to the deltas sent. -/
theorem Conserved.send (h : s.Conserved) {s' : Ledger} {n : ℕ}
    (hd : s'.inst.deltas = s.inst.deltas.drop n)
    (hc : s'.inst.droppedDeltaCount = s.inst.droppedDeltaCount) (hp : s'.pushed = s.pushed)
    (hs : s'.sent = s.sent ++ s.front n) (hx : s'.dropped = s.dropped) : s'.Conserved where
  partition := by
    rw [buffer, hd, hs, hx, hp, List.map_drop]
    refine (List.perm_iff_count.2 fun a => ?_).trans h.partition
    have := s.count_front_add n a
    simp only [List.count_append, buffer] at this ⊢
    omega
  counted := by rw [hc, hx, h.counted]

/-- The front of the buffer moves to the deltas dropped. -/
theorem Conserved.drop (h : s.Conserved) {s' : Ledger} {n : ℕ} (hn : n ≤ s.inst.deltas.length)
    (hd : s'.inst.deltas = s.inst.deltas.drop n)
    (hc : s'.inst.droppedDeltaCount = s.inst.droppedDeltaCount + n) (hp : s'.pushed = s.pushed)
    (hs : s'.sent = s.sent) (hx : s'.dropped = s.dropped ++ s.front n) : s'.Conserved where
  partition := by
    rw [buffer, hd, hs, hx, hp, List.map_drop]
    refine (List.perm_iff_count.2 fun a => ?_).trans h.partition
    have := s.count_front_add n a
    simp only [List.count_append, buffer] at this ⊢
    omega
  counted := by
    rw [hc, hx, h.counted, List.length_append, front, List.length_take, buffer, List.length_map,
      min_eq_left hn]

/-- A new delta is appended to the buffer. -/
theorem Conserved.push (h : s.Conserved) {s' : Ledger} {d : Delta}
    (hd : s'.inst.deltas = s.inst.deltas ++ [(s.pushed, d)])
    (hc : s'.inst.droppedDeltaCount = s.inst.droppedDeltaCount) (hp : s'.pushed = s.pushed + 1)
    (hs : s'.sent = s.sent) (hx : s'.dropped = s.dropped) : s'.Conserved where
  partition := by
    rw [buffer, hd, hs, hx, hp, List.map_append, List.range_succ]
    refine (List.perm_iff_count.2 fun a => ?_).trans (h.partition.append_right [s.pushed])
    simp only [List.count_append, buffer, List.map_cons, List.map_nil]
    omega
  counted := by rw [hc, hx, h.counted]

theorem Inv.flushed (h : s.Inv) {inst : InstanceState (ℕ × Delta)} (hf : s.inst.Flushed inst) :
    Inv { s with inst := inst } :=
  ⟨h.sized.flushed hf, h.conserved.of_same hf.deltas hf.droppedDeltaCount rfl rfl rfl⟩

theorem Inv.arrive (h : s.Inv) (now : Time) (delta : Delta) : (s.arrive opts now delta).Inv := by
  have hinst := processDelta_fst opts (s.pushed, ·) s.inst s.recentOutboundDeltas now delta
  rw [Ledger.arrive]
  dsimp only
  cases hb : buffered opts s.inst s.recentOutboundDeltas now delta with
  | none =>
    rw [hb] at hinst
    exact ⟨hinst ▸ h.sized, h.conserved.of_same (by rw [hinst]; rfl) (by rw [hinst]; rfl) rfl rfl
      rfl⟩
  | some out =>
    rw [hb] at hinst
    have hflush := InstanceState.flushed_enqueue s.inst (s.pushed, out)
    refine ⟨hinst ▸ h.sized.enqueue _, ?_⟩
    -- the cap drops the front, then the delta is appended
    have hcap : Conserved { s with
        inst := { s.inst with
          deltas := s.inst.deltas.drop s.inst.overflow
          droppedDeltaCount := s.inst.droppedDeltaCount + s.inst.overflow }
        dropped := s.dropped ++ s.front s.inst.overflow } := by
      refine h.conserved.drop ?_ rfl rfl rfl rfl rfl
      rcases s.inst.overflow_cases with h0 | h500 <;> omega
    refine hcap.push (d := out) ?_ ?_ rfl rfl rfl
    · exact (congrArg _ hinst).trans hflush.deltas
    · exact (congrArg _ hinst).trans hflush.droppedDeltaCount

theorem Inv.sendEnded (h : s.Inv) {success : Bool} (hallowed : s.Allowed (.sendEnded success)) :
    (s.sendEnded success).Inv := by
  cases hf : s.inst.flight with
  | none =>
    have hinst : s.inst.sendEnded success = s.inst := by rw [InstanceState.sendEnded, hf]
    rw [Ledger.sendEnded, hf]
    exact ⟨by rw [hinst]; exact h.sized, h.conserved.of_same (by rw [hinst]) (by rw [hinst]) rfl rfl
      rfl⟩
  | some f =>
    obtain ⟨hlen, -, hbatch⟩ := h.sized.flight f hf
    obtain ⟨hend, -⟩ := InstanceState.ended_sendEnded hf success
    rw [Ledger.sendEnded, hf]
    dsimp only
    refine ⟨by split_ifs <;> exact h.sized.sendEnded success, ?_⟩
    generalize s.inst.sendEnded success = inst' at hend ⊢
    cases hend with
    | sent hd hc =>
      have hfront : f.batch.map Prod.fst = s.front f.actualBatchSize := by
        have hpre := List.prefix_iff_eq_take.1 (hallowed f hf)
        rw [hpre, hbatch, front, buffer, List.map_take]
      exact h.conserved.send hd hc rfl (congrArg _ hfront) rfl
    | retry hk hd hc =>
      rw [if_neg Bool.false_ne_true, if_neg (not_le.2 hk)]
      exact h.conserved.of_same hd hc rfl rfl rfl
    | gaveUp hk hd hc =>
      rw [if_neg Bool.false_ne_true, if_pos hk]
      exact h.conserved.drop hlen hd hc rfl rfl rfl

theorem Inv.step (h : s.Inv) {e : LedgerEvent} (he : s.Allowed e) : (s.step opts e).Inv := by
  cases e with
  | processDelta now delta => exact h.arrive now delta
  | deltaTimer => exact h.flushed s.inst.flushed_deltaTimerFired
  | retryTimer => exact h.flushed s.inst.flushed_retryTimerFired
  | immediate => exact h.flushed s.inst.flushed_immediateFired
  | sendEnded success => exact h.sendEnded he
  | updateSmartBatch raw =>
    refine ⟨⟨h.sized.batchSendInFlight, ?_, h.sized.flight⟩, h.conserved.of_same rfl rfl rfl rfl rfl⟩
    exact InstanceState.calculateMaxDeltasPerBatch_le raw
  | cleanupDedupeMap now =>
    have hstep : s.step opts (.cleanupDedupeMap now) = { s with
      recentOutboundDeltas := EdgeLink.cleanupDedupeMap s.recentOutboundDeltas now } := rfl
    rw [hstep]
    exact ⟨h.sized, h.conserved.of_same rfl rfl rfl rfl rfl⟩
  | readyToSend | subscribing | socketRecovery =>
    exact ⟨⟨h.sized.batchSendInFlight, h.sized.maxDeltasPerBatch, h.sized.flight⟩,
      h.conserved.of_same rfl rfl rfl rfl rfl⟩

theorem inv_new : new.Inv := ⟨InstanceState.sized_new, List.Perm.refl [], rfl⟩

/-- **Conservation.** In every run in which each batch that is sent successfully is still the front
of the buffer when its send ends, every delta ever pushed is buffered, sent or dropped, exactly one
of these, and the numbers add up. -/
theorem conserved (opts : ProducerOptions) (es : List LedgerEvent)
    (h : Along (step opts) Allowed new es) :
    (run (step opts) new es).Conserved ∧
      (run (step opts) new es).pushed = (run (step opts) new es).inst.deltas.length +
        (run (step opts) new es).sent.length + (run (step opts) new es).inst.droppedDeltaCount := by
  have hinv : (run (step opts) new es).Inv :=
    h.invariant (I := Inv) (fun s e hs he => hs.step he) inv_new
  refine ⟨hinv.conserved, ?_⟩
  have hlen := hinv.conserved.partition.length_eq
  rw [List.length_append, List.length_append, List.length_range, buffer, List.length_map] at hlen
  rw [hinv.conserved.counted]
  exact hlen.symm

/-! ## Runs -/

/-- A delta with one value. -/
def speedDelta : Delta :=
  ⟨some "vessels.self", [{ values := [⟨"navigation.speedOverGround", .bool true⟩] }]⟩

/-- One delta, sent by the timer. -/
theorem conserved_one_batch :
    let s := run (step plainOptions) new [.processDelta 0 speedDelta, .deltaTimer, .sendEnded true]
    s.Conserved ∧ s.pushed = s.inst.deltas.length + s.sent.length + s.inst.droppedDeltaCount :=
  conserved plainOptions [.processDelta 0 speedDelta, .deltaTimer, .sendEnded true]
    (by decide +kernel)

/-- The buffer after `n` arrivals. -/
def arrivals (n : ℕ) : List (ℕ × Delta) := (List.range n).map (·, speedDelta)

/-- The arrival of the delta with number `n`, two seconds after the one before. -/
def arrival (n : ℕ) : LedgerEvent := .processDelta (2000 * n) speedDelta

/-- The first batch of five is in flight, and `n` deltas have arrived. -/
def filled (n : ℕ) : Ledger where
  inst := { (InstanceState.new : InstanceState (ℕ × Delta)) with
    deltas := arrivals n
    batchSendInFlight := true
    flight := some ⟨arrivals 5, 5, 0⟩ }
  recentOutboundDeltas := .single (buildOutboundDedupeKey plainOptions speedDelta) (2000 * n - 2000)
  pushed := n
  sent := []
  dropped := []

/-- A delta that was last seen two seconds ago is admitted and remembered anew. -/
theorem admitDelta_speedDelta (n : ℕ) :
    admitDelta plainOptions (filled n).recentOutboundDeltas (2000 * n) speedDelta =
      ((filled (n + 1)).recentOutboundDeltas, some speedDelta) := by
  have hout : outboundDelta plainOptions speedDelta = some speedDelta := by decide +kernel
  have hlast : ¬ (2000 * (n : ℤ) - (2000 * n - 2000) ≤ OUTBOUND_DUPLICATE_SUPPRESS_MS) := by
    rw [OUTBOUND_DUPLICATE_SUPPRESS_MS]
    omega
  have hnext : 2000 * ((n + 1 : ℕ) : ℤ) - 2000 = 2000 * n := by omega
  have hsuppress : suppressDuplicate plainOptions (filled n).recentOutboundDeltas speedDelta
      (2000 * n) = ((filled (n + 1)).recentOutboundDeltas, false) := by
    simp only [suppressDuplicate, filled, OrderedMap.get?_single_self, if_neg hlast,
      suppressDuplicate.remember, OrderedMap.set_single_self, hnext]
    rfl
  rw [admitDelta, hout]
  simp only [hsuppress]
  rfl

theorem length_arrivals (n : ℕ) : (arrivals n).length = n := by simp [arrivals]

/-- While the batch is in flight, an arrival below the capacity is only buffered. -/
theorem step_filled {n : ℕ} (h : n < 1000) :
    step plainOptions (filled n) (arrival n) = filled (n + 1) := by
  have hadmit := admitDelta_speedDelta n
  have hbuffered : buffered plainOptions (filled n).inst (filled n).recentOutboundDeltas (2000 * n)
      speedDelta = some speedDelta := congrArg Prod.snd hadmit
  have hcap : (filled n).inst.enforceBufferCap = (filled n).inst :=
    if_pos (by rw [filled, length_arrivals]; exact h)
  have henqueue : (filled n).inst.enqueue (n, speedDelta) = (filled (n + 1)).inst := by
    rw [InstanceState.enqueue, hcap, InstanceState.maybeFlush, InstanceState.flush,
      InstanceState.flushDeltaBatch]
    simp [filled, arrivals, List.range_succ]
  have hprocess : processDelta plainOptions ((filled n).pushed, ·) (filled n).inst
      (filled n).recentOutboundDeltas (2000 * n) speedDelta =
        ((filled (n + 1)).inst, (filled (n + 1)).recentOutboundDeltas) := by
    have hready : ¬ (¬ (filled n).inst.readyToSend ∨ (filled n).inst.subscribing) := by
      simp [filled, InstanceState.new]
    rw [processDelta, if_neg hready, hadmit]
    exact congrArg (·, _) henqueue
  have hfront : (filled n).front (filled n).inst.overflow = [] := by
    rw [InstanceState.overflow, if_pos (by rw [filled, length_arrivals]; exact h)]
    rfl
  rw [arrival, step, arrive, hprocess, hbuffered, hfront]
  rfl

theorem run_filled (n : ℕ) (hn : n ≤ 1000) :
    run (step plainOptions) (filled 5) ((List.range' 5 (n - 5)).map arrival) = filled (max 5 n) := by
  induction n with
  | zero => rfl
  | succ n ih =>
    by_cases h5 : n < 5
    · rw [max_eq_left (by omega), show n + 1 - 5 = 0 by omega]
      rfl
    · rw [show n + 1 - 5 = n - 5 + 1 by omega, List.range'_1_concat, List.map_append, run_append,
        ih (by omega), max_eq_right (by omega), max_eq_right (by omega),
        show 5 + (n - 5) = n by omega]
      exact step_filled (by omega)

theorem Conserved.not_both (h : s.Conserved) {a : ℕ} (hs : a ∈ s.sent) : a ∉ s.dropped := by
  have hnodup := (h.partition.nodup_iff.2 List.nodup_range)
  exact fun hx => List.disjoint_of_nodup_append hnodup (List.mem_append_right _ hs) hx

/-- **Conservation fails** when the cap trims the buffer while a batch is in flight: deltas arrive
faster than a slow send of the first batch, the buffer is trimmed, the send succeeds, and the deltas
of the batch are counted as dropped although they have been sent. -/
theorem trimmed_batch :
    let es := (List.range 1001).map arrival ++ [.sendEnded true]
    let s := run (step plainOptions) new es
    s.inst.flight = none ∧ 0 ∈ s.sent ∧ 0 ∈ s.dropped ∧ ¬ s.Conserved := by
  have hfirst : run (step plainOptions) new ((List.range' 0 5).map arrival) = filled 5 := by
    decide +kernel
  have hlast : let s := run (step plainOptions) (filled 1000) [arrival 1000, .sendEnded true]
      s.inst.flight = none ∧ 0 ∈ s.sent ∧ 0 ∈ s.dropped := by
    decide +kernel
  have hsplit : (List.range 1001).map arrival ++ [.sendEnded true] =
      (List.range' 0 5).map arrival ++
        ((List.range' 5 995).map arrival ++ [arrival 1000, .sendEnded true]) := by
    rw [List.range_eq_range', show 1001 = 5 + 995 + 1 by rfl, List.range'_1_concat,
      ← List.range'_append_1]
    simp
  dsimp only
  rw [hsplit, run_append, hfirst, run_append, run_filled 1000 le_rfl,
    max_eq_right (show 5 ≤ 1000 by omega)]
  obtain ⟨hidle, hsent, hdropped⟩ := hlast
  exact ⟨hidle, hsent, hdropped, fun h => h.not_both hsent hdropped⟩

end Ledger

end EdgeLink
