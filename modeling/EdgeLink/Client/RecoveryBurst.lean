import EdgeLink.Client.AckOrder
import EdgeLink.Client.RetransmitAge

/-!
# Acknowledgements, negative acknowledgements and recovery bursts

The handlers of `transport/pipeline/reliable-client/reliability.ts` with their awaits. A negative
acknowledgement and a recovery burst both take packets out of the retransmit queue in one turn, and
then send them one after the other; a send may fail, and the socket may be gone between two sends.
An event of the model is one turn. `receiveNAK` publishes the packets it abandons in
`metrics.packetsAbandoned`; `runRecoveryBurst` does not.

* `abandonedCount_retransmit`: a retransmission of distinct numbers abandons those whose attempts
  are used up.
* `unpublished_step`: an event never lowers what is abandoned and not published, and raises it
  exactly when it runs a burst that asks for a packet whose attempts are used up.
* `published_iff`: so the published count is right exactly after the runs without such a burst.
-/

namespace EdgeLink

/-- The reliability state of a client pipeline. Packets are opaque. -/
structure ReliabilityState (α : Type*) where
  /-- the retransmit queue and `lastAckedSeq` -/
  ack : AckState α
  lastAckAt : Time
  /-- an address to answer to is known -/
  lastAckRinfo : Bool
  /-- the burst interval is armed -/
  recoveryDrainTimer : Bool
  socketUdp : Bool
  /-- `metrics.packetsAbandoned` -/
  packetsAbandoned : Option ℕ
  /-- the `receiveNAK` handlers that await a send, with the packets still to be sent -/
  naks : List (List α)
  /-- the burst that awaits a send, with the packets still to be sent -/
  burst : Option (List α)

inductive ReliabilityEvent (α : Type*)
  /-- a packet has been sent and is queued -/
  | dataSent (now : Time) (sequence : Seq) (packet : α)
  /-- the queue is pruned, after a send or while the metrics are collected -/
  | prune (now : Time) (smoothedRtt : ℚ)
  /-- a negative acknowledgement arrives; `none` when its payload does not parse -/
  | receiveNAK (now : Time) (missingSeqs : Option (List Seq))
  /-- the send that the handler at `i` awaits ends -/
  | nakSent (i : ℕ) (success : Bool)
  /-- an acknowledgement arrives, with or without a sender's address -/
  | receiveACK (now : Time) (ackedSeq : Option Seq) (rinfo : Bool) (smoothedRtt : ℚ)
  /-- the burst interval fires -/
  | recoveryTimer (now : Time)
  /-- the send that the burst awaits ends -/
  | burstSent (success : Bool)
  /-- the socket is replaced or lost -/
  | socket (open' : Bool)
  /-- the pipeline stops its bursts -/
  | stopRecoveryBurst

namespace ReliabilityState

variable {α : Type*}

/-- A new pipeline, on metrics that may have counted before. -/
def new (maxSize maxRetransmits : ℕ) (now : Time) (socketUdp : Bool) (packetsAbandoned : Option ℕ) :
    ReliabilityState α where
  ack := ⟨.new maxSize maxRetransmits, none⟩
  lastAckAt := now
  lastAckRinfo := false
  recoveryDrainTimer := false
  socketUdp := socketUdp
  packetsAbandoned := packetsAbandoned
  naks := []
  burst := none

/-- The retransmit queue. -/
def retransmitQueue (s : ReliabilityState α) : RetransmitQueue α := s.ack.retransmitQueue

/-- Another retransmit queue. -/
def setQueue (s : ReliabilityState α) (q : RetransmitQueue α) : ReliabilityState α :=
  { s with ack := { s.ack with retransmitQueue := q } }

/-- `recoveryDrainInFlight` -/
def recoveryDrainInFlight (s : ReliabilityState α) : Bool := s.burst.isSome

def stopRecoveryBurst (s : ReliabilityState α) : ReliabilityState α :=
  { s with recoveryDrainTimer := false }

/-- Drop everything after a long silence, or else what has grown too old. The ages of the entries
are whole numbers, so that the fraction of the bound does not matter. -/
def pruneRetransmitQueue (r : ReliabilitySettings) (s : ReliabilityState α) (now : Time)
    (smoothedRtt : ℚ) : ReliabilityState α :=
  let ackIdleMs := now - s.lastAckAt
  if r.forceDrainAfterAckIdle ∧ r.forceDrainAfterMs ≤ ackIdleMs ∧ 0 < s.retransmitQueue.queue.size then
    s.setQueue s.retransmitQueue.clear
  else
    match effectiveRetransmitAge r smoothedRtt ackIdleMs with
    | .finite maxAge => s.setQueue (s.retransmitQueue.expireOld now ⌊maxAge⌋)
    | _ => s

/-- The numbers a burst asks for: none while another one is in flight, or without an address or a
socket. -/
def pendingSeqs (r : ReliabilitySettings) (s : ReliabilityState α) (now : Time) : List Seq :=
  if s.recoveryDrainInFlight ∨ ¬ s.lastAckRinfo then []
  else s.retransmitQueue.getOldestSequences now ⌊r.recoveryBurstSize⌋₊ ⌈r.recoveryBurstIntervalMs⌉

/-- `runRecoveryBurst`, up to its first await. -/
def runRecoveryBurst (r : ReliabilitySettings) (s : ReliabilityState α) (now : Time) :
    ReliabilityState α :=
  if s.recoveryDrainInFlight ∨ ¬ s.lastAckRinfo then s
  else if s.pendingSeqs r now = [] then s.stopRecoveryBurst
  else if ¬ s.socketUdp then s.stopRecoveryBurst
  else
    let result := s.retransmitQueue.retransmit now (s.pendingSeqs r now)
    let s := s.setQueue result.1
    match result.2.map fun t => t.2.1 with
    | [] => s
    | toRetransmit => { s with burst := some toRetransmit }

/-- The burst goes on after a send, to the next packet or to its end. -/
def burstSent (s : ReliabilityState α) (success : Bool) : ReliabilityState α :=
  match s.burst with
  | none => s
  | some toRetransmit =>
    if ¬ success then { s.stopRecoveryBurst with burst := none }
    else
      match toRetransmit.tail with
      | [] => { s with burst := none }
      | rest =>
        if ¬ s.socketUdp then { s.stopRecoveryBurst with burst := none }
        else { s with burst := some rest }

/-- A burst is due when acknowledgements come back after a silence, from a known address, and
packets are queued. -/
def NeedsBurst (r : ReliabilitySettings) (s : ReliabilityState α) (ackGapMs : Time) (rinfo : Bool) :
    Prop :=
  r.recoveryBurstEnabled ∧ rinfo ∧ r.recoveryAckGapMs ≤ ackGapMs ∧ 0 < s.retransmitQueue.queue.size

instance (r : ReliabilitySettings) (s : ReliabilityState α) (ackGapMs : Time) (rinfo : Bool) :
    Decidable (s.NeedsBurst r ackGapMs rinfo) := by
  unfold NeedsBurst
  infer_instance

/-- The interval is armed and the address noted. -/
def armBurst (s : ReliabilityState α) : ReliabilityState α :=
  { s with lastAckRinfo := true, recoveryDrainTimer := true }

def startRecoveryBurstIfNeeded (r : ReliabilitySettings) (s : ReliabilityState α) (now : Time)
    (ackGapMs : Time) (rinfo : Bool) : ReliabilityState α :=
  if s.NeedsBurst r ackGapMs rinfo then s.armBurst.runRecoveryBurst r now else s

/-- `receiveACK`, but for the burst that ends it. -/
def processACK (r : ReliabilitySettings) (s : ReliabilityState α) (now : Time) (ackedSeq : Seq)
    (rinfo : Bool) (smoothedRtt : ℚ) : ReliabilityState α :=
  pruneRetransmitQueue r
    { s with
      ack := s.ack.receiveACK ackedSeq
      lastAckAt := now
      lastAckRinfo := rinfo || s.lastAckRinfo } now smoothedRtt

def receiveACK (r : ReliabilitySettings) (s : ReliabilityState α) (now : Time) (ackedSeq : Seq)
    (rinfo : Bool) (smoothedRtt : ℚ) : ReliabilityState α :=
  (s.processACK r now ackedSeq rinfo smoothedRtt).startRecoveryBurstIfNeeded r now
    (now - s.lastAckAt) rinfo

/-- `receiveNAK`, up to its first await. -/
def receiveNAK (s : ReliabilityState α) (now : Time) (missingSeqs : List Seq) :
    ReliabilityState α :=
  let result := s.retransmitQueue.retransmit now missingSeqs
  let abandoned := result.1.abandonedCount - s.retransmitQueue.abandonedCount
  let s := s.setQueue result.1
  let s :=
    if 0 < abandoned then
      { s with packetsAbandoned := some (s.packetsAbandoned.getD 0 + abandoned) }
    else s
  match result.2.map fun t => t.2.1 with
  | [] => s
  | toRetransmit => { s with naks := s.naks ++ [toRetransmit] }

/-- The handler at `i` goes on after a send; a failed send ends it. -/
def nakSent (s : ReliabilityState α) (i : ℕ) (success : Bool) : ReliabilityState α :=
  match s.naks[i]? with
  | none => s
  | some toRetransmit =>
    if ¬ success ∨ toRetransmit.tail = [] then { s with naks := s.naks.eraseIdx i }
    else { s with naks := s.naks.set i toRetransmit.tail }

def step (r : ReliabilitySettings) (s : ReliabilityState α) : ReliabilityEvent α → ReliabilityState α
  | .dataSent now sequence packet => s.setQueue (s.retransmitQueue.add now sequence packet)
  | .prune now smoothedRtt => s.pruneRetransmitQueue r now smoothedRtt
  | .receiveNAK now missingSeqs => missingSeqs.elim s (s.receiveNAK now)
  | .nakSent i success => s.nakSent i success
  | .receiveACK now ackedSeq rinfo smoothedRtt =>
    ackedSeq.elim s fun ackedSeq => s.receiveACK r now ackedSeq rinfo smoothedRtt
  | .recoveryTimer now => if s.recoveryDrainTimer then s.runRecoveryBurst r now else s
  | .burstSent success => s.burstSent success
  | .socket open' => { s with socketUdp := open' }
  | .stopRecoveryBurst => s.stopRecoveryBurst

/-- No handler is running. -/
def Idle (s : ReliabilityState α) : Prop := s.naks = [] ∧ s.burst = none

instance [DecidableEq α] (s : ReliabilityState α) : Decidable s.Idle := by
  unfold Idle
  infer_instance

/-- The published count has grown from `start` by the packets the queue has abandoned. -/
def Published (start : Option ℕ) (s : ReliabilityState α) : Prop :=
  s.packetsAbandoned.getD 0 = start.getD 0 + s.retransmitQueue.abandonedCount

instance (start : Option ℕ) (s : ReliabilityState α) : Decidable (s.Published start) := by
  unfold Published
  infer_instance

/-- A burst started now asks for no packet whose attempts are used up. -/
def Affordable (r : ReliabilitySettings) (s : ReliabilityState α) (now : Time) : Prop :=
  s.socketUdp → ∀ seq ∈ s.pendingSeqs r now, ∀ entry ∈ s.retransmitQueue.queue.get? seq,
    entry.attempts < s.retransmitQueue.maxRetransmits

/-- The condition on a step: the burst that it runs, if any, is affordable. -/
def StepAffordable (r : ReliabilitySettings) (s : ReliabilityState α) : ReliabilityEvent α → Prop
  | .receiveACK now (some ackedSeq) rinfo smoothedRtt =>
    let s' := s.processACK r now ackedSeq rinfo smoothedRtt
    s'.NeedsBurst r (now - s.lastAckAt) rinfo → s'.armBurst.Affordable r now
  | .recoveryTimer now => s.recoveryDrainTimer → s.Affordable r now
  | _ => True

/-! ## What is abandoned and not published -/

section Unpublished

variable {r : ReliabilitySettings} {s s' : ReliabilityState α} {now : Time}

/-- How far the published count is behind the queue's. -/
def unpublished (s : ReliabilityState α) : ℤ :=
  s.retransmitQueue.abandonedCount - s.packetsAbandoned.getD 0

/-- Neither count has changed. -/
def SameCounts (s s' : ReliabilityState α) : Prop :=
  s'.retransmitQueue.abandonedCount = s.retransmitQueue.abandonedCount ∧
    s'.packetsAbandoned = s.packetsAbandoned

theorem SameCounts.unpublished (h : SameCounts s s') : s'.unpublished = s.unpublished := by
  rw [ReliabilityState.unpublished, ReliabilityState.unpublished, h.1, h.2]

theorem SameCounts.trans {s'' : ReliabilityState α} (h : SameCounts s s') (h' : SameCounts s' s'') :
    SameCounts s s'' := ⟨h'.1.trans h.1, h'.2.trans h.2⟩

theorem sameCounts_pruneRetransmitQueue (r : ReliabilitySettings) (s : ReliabilityState α)
    (now : Time) (smoothedRtt : ℚ) : SameCounts s (s.pruneRetransmitQueue r now smoothedRtt) := by
  unfold pruneRetransmitQueue
  dsimp only
  split_ifs
  · exact ⟨rfl, rfl⟩
  · split <;> exact ⟨rfl, rfl⟩

theorem sameCounts_processACK (r : ReliabilitySettings) (s : ReliabilityState α) (now : Time)
    (ackedSeq : Seq) (rinfo : Bool) (smoothedRtt : ℚ) :
    SameCounts s (s.processACK r now ackedSeq rinfo smoothedRtt) := by
  refine SameCounts.trans ?_ (sameCounts_pruneRetransmitQueue ..)
  obtain ⟨p, hp⟩ :=
    s.ack.retransmitQueue.acknowledgeRange_eq_filter s.ack.lastAckedSeq ackedSeq
  refine ⟨?_, rfl⟩
  change (s.ack.retransmitQueue.acknowledgeRange s.ack.lastAckedSeq ackedSeq).abandonedCount = _
  rw [hp]
  rfl

theorem sameCounts_dataSent (s : ReliabilityState α) (now : Time) (sequence : Seq) (packet : α) :
    SameCounts s (s.setQueue (s.retransmitQueue.add now sequence packet)) := by
  refine ⟨?_, rfl⟩
  change (s.retransmitQueue.add now sequence packet).abandonedCount = _
  rw [RetransmitQueue.add, RetransmitQueue.evictOldest]
  split_ifs
  · split <;> rfl
  · rfl

theorem sameCounts_nakSent (s : ReliabilityState α) (i : ℕ) (success : Bool) :
    SameCounts s (s.nakSent i success) := by
  unfold nakSent
  split
  · exact ⟨rfl, rfl⟩
  · split_ifs <;> exact ⟨rfl, rfl⟩

theorem sameCounts_burstSent (s : ReliabilityState α) (success : Bool) :
    SameCounts s (s.burstSent success) := by
  unfold burstSent
  split
  · exact ⟨rfl, rfl⟩
  · split_ifs
    · split <;> exact ⟨rfl, rfl⟩
    · split <;> exact ⟨rfl, rfl⟩
    · exact ⟨rfl, rfl⟩

/-- A negative acknowledgement publishes what it abandons. -/
theorem unpublished_receiveNAK (s : ReliabilityState α) (now : Time) (missingSeqs : List Seq) :
    (s.receiveNAK now missingSeqs).unpublished = s.unpublished := by
  have hle := s.retransmitQueue.abandonedCount_le_retransmit now missingSeqs
  have hcounts : (s.receiveNAK now missingSeqs).retransmitQueue.abandonedCount =
        (s.retransmitQueue.retransmit now missingSeqs).1.abandonedCount ∧
      (s.receiveNAK now missingSeqs).packetsAbandoned.getD 0 = s.packetsAbandoned.getD 0 +
        ((s.retransmitQueue.retransmit now missingSeqs).1.abandonedCount -
          s.retransmitQueue.abandonedCount) := by
    unfold receiveNAK
    dsimp only
    split_ifs with habandoned
    · split <;> exact ⟨rfl, rfl⟩
    · have hzero : (s.retransmitQueue.retransmit now missingSeqs).1.abandonedCount -
          s.retransmitQueue.abandonedCount = 0 := Nat.eq_zero_of_not_pos habandoned
      rw [hzero]
      split <;> exact ⟨rfl, rfl⟩
  rw [unpublished, unpublished, hcounts.1, hcounts.2]
  omega

theorem nodup_pendingSeqs (r : ReliabilitySettings) (s : ReliabilityState α) (now : Time) :
    (s.pendingSeqs r now).Nodup := by
  unfold pendingSeqs
  split_ifs
  · exact List.nodup_nil
  · exact RetransmitQueue.nodup_getOldestSequences ..

/-- **A burst** publishes nothing: it is behind by the spent packets it asks for. -/
theorem unpublished_runRecoveryBurst (r : ReliabilitySettings) (s : ReliabilityState α) (now : Time) :
    s.unpublished ≤ (s.runRecoveryBurst r now).unpublished ∧
      ((s.runRecoveryBurst r now).unpublished = s.unpublished ↔ s.Affordable r now) := by
  unfold runRecoveryBurst
  split_ifs with hflight hpending hsocket
  · refine ⟨le_rfl, iff_of_true rfl ?_⟩
    intro _ seq hseq
    rw [pendingSeqs, if_pos hflight] at hseq
    nomatch hseq
  · refine ⟨le_rfl, iff_of_true rfl ?_⟩
    intro _ seq hseq
    rw [hpending] at hseq
    nomatch hseq
  · -- The burst takes its packets out, and the spent ones among them are dropped.
    have hcount : (s.retransmitQueue.retransmit now (s.pendingSeqs r now)).1.abandonedCount = _ :=
      RetransmitQueue.abandonedCount_retransmit (s.nodup_pendingSeqs r now)
    have hzero : (s.pendingSeqs r now).countP s.retransmitQueue.Spent = 0 ↔ s.Affordable r now := by
      simp only [List.countP_eq_zero, Bool.not_eq_true, RetransmitQueue.spent_eq_false_iff]
      exact ⟨fun h _ => h, fun h => h hsocket⟩
    have hafter : ∀ s' : ReliabilityState α, s'.retransmitQueue =
        (s.retransmitQueue.retransmit now (s.pendingSeqs r now)).1 →
        s'.packetsAbandoned = s.packetsAbandoned →
        s.unpublished ≤ s'.unpublished ∧ (s'.unpublished = s.unpublished ↔ s.Affordable r now) := by
      intro s' hqueue hpublished
      rw [unpublished, unpublished, hqueue, hcount, hpublished, ← hzero]
      push_cast
      omega
    dsimp only
    split
    · exact hafter _ rfl rfl
    · exact hafter _ rfl rfl
  · exact ⟨le_rfl, iff_of_true rfl fun h => absurd h hsocket⟩

/-- **One event.** -/
theorem unpublished_step (r : ReliabilitySettings) (s : ReliabilityState α)
    (e : ReliabilityEvent α) : s.unpublished ≤ (s.step r e).unpublished ∧
      ((s.step r e).unpublished = s.unpublished ↔ s.StepAffordable r e) := by
  have hsame : ∀ s', SameCounts s s' →
      s.unpublished ≤ s'.unpublished ∧ (s'.unpublished = s.unpublished ↔ True) :=
    fun s' h => ⟨h.unpublished.ge, iff_of_true h.unpublished trivial⟩
  cases e with
  | dataSent now sequence packet => exact hsame _ (sameCounts_dataSent ..)
  | prune now smoothedRtt => exact hsame _ (sameCounts_pruneRetransmitQueue ..)
  | receiveNAK now missingSeqs =>
    cases missingSeqs with
    | none => exact hsame _ ⟨rfl, rfl⟩
    | some missingSeqs =>
      have h := s.unpublished_receiveNAK now missingSeqs
      exact ⟨h.ge, iff_of_true h trivial⟩
  | nakSent i success => exact hsame _ (sameCounts_nakSent ..)
  | receiveACK now ackedSeq rinfo smoothedRtt =>
    cases ackedSeq with
    | none => exact hsame _ ⟨rfl, rfl⟩
    | some ackedSeq =>
      have hack := (s.sameCounts_processACK r now ackedSeq rinfo smoothedRtt).unpublished
      simp only [step, Option.elim_some, receiveACK, startRecoveryBurstIfNeeded, StepAffordable]
      split_ifs with hneeds
      · have hburst := unpublished_runRecoveryBurst r
          (s.processACK r now ackedSeq rinfo smoothedRtt).armBurst now
        have harm : (s.processACK r now ackedSeq rinfo smoothedRtt).armBurst.unpublished =
          s.unpublished := hack
        rw [harm] at hburst
        simpa only [hneeds, forall_true_left] using hburst
      · exact ⟨hack.ge, iff_of_true hack fun h => absurd h hneeds⟩
  | recoveryTimer now =>
    simp only [step, StepAffordable]
    split_ifs with htimer
    · simpa only [htimer, forall_true_left] using unpublished_runRecoveryBurst r s now
    · exact ⟨le_rfl, iff_of_true rfl fun h => absurd h htimer⟩
  | burstSent success => exact hsame _ (sameCounts_burstSent ..)
  | socket open' => exact hsame _ ⟨rfl, rfl⟩
  | stopRecoveryBurst => exact hsame _ ⟨rfl, rfl⟩

end Unpublished

/-- **When unrecoverable loss is reported.** After a run of a new pipeline the published count has
grown by what the queue has abandoned exactly when no step of the run was a burst that asked for a
packet whose attempts were used up. -/
theorem published_iff (r : ReliabilitySettings) (maxSize maxRetransmits : ℕ) (now : Time)
    (socketUdp : Bool) (start : Option ℕ) (es : List (ReliabilityEvent α)) :
    Published start
        (run (step r) (new maxSize maxRetransmits now socketUdp start : ReliabilityState α) es) ↔
      Along (step r) (StepAffordable r) (new maxSize maxRetransmits now socketUdp start) es := by
  rw [← (run_eq_iff_along (unpublished_step r) _ es).2]
  simp only [Published, unpublished, retransmitQueue, new, RetransmitQueue.new]
  push_cast
  omega

/-- The default settings. -/
def defaultSettings : ReliabilitySettings := buildReliabilitySettings .undefined

/-- A packet is sent and the link falls silent; when an acknowledgement of an earlier packet comes
back, the bursts send the packet three times, and the fourth one drops it. -/
def silentDrop : List (ReliabilityEvent ℕ) :=
  [.dataSent 0 7 0, .receiveACK 5000 (some 3) true 0, .burstSent true, .recoveryTimer 5200,
    .burstSent true, .recoveryTimer 5400, .burstSent true, .recoveryTimer 5600]

/-- **The defect.** With no handler running, a packet has been abandoned and none published. -/
theorem silentDrop_unpublished :
    Idle (run (step defaultSettings) (new 5000 3 0 true none) silentDrop) ∧
      (run (step defaultSettings) (new 5000 3 0 true none)
        silentDrop).retransmitQueue.abandonedCount = 1 ∧
      (run (step defaultSettings) (new 5000 3 0 true none) silentDrop).packetsAbandoned = none ∧
      ¬ Published none (run (step defaultSettings) (new 5000 3 0 true none) silentDrop) := by
  decide +kernel

end ReliabilityState

end EdgeLink
