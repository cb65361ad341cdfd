import EdgeLink.Client.ProcessDelta
import EdgeLink.Reliability.RetransmitQueue
import Mathlib.Data.List.Nodup

/-!
# Transmission of the buffered deltas

The send loop together with `sendDelta` and the retransmit queue, over whole runs (`Transmitter`).
`sendDelta` queues a packet before it sends it, so that a NAK can make up for a failed send; the
send loop, when the send fails, sends the batch again in a packet of its own. Every delta that is
pushed gets a number, and a packet is written down with the numbers that it contains.

* `Inv`: packets that contain a common delta are one packet, and a buffered delta is in a packet
  only while that packet is being sent.
* `delivered_once`: as long as a failed send of a queued packet is the end of its batch
  (`FailsForGood`), no two packets handed to the network contain a common delta.
* `delivered_twice`: a failed send, the retry of its batch, and a NAK.
-/

namespace EdgeLink

/-- A DATA packet, with the numbers of the buffered deltas that it contains. -/
structure QueuedPacket where
  sequence : Seq
  items : List ℕ
  deriving DecidableEq

/-- The send loop of a connection with its pipeline, and a record of what the socket was given. -/
structure Transmitter where
  inst : InstanceState (ℕ × Delta)
  recentOutboundDeltas : OrderedMap String Time
  /-- the number of deltas pushed so far, which is the number of the next one -/
  pushed : ℕ
  /-- the packet of the batch in flight has been queued, and its send has not ended; there was no
  socket if this is `false` -/
  sending : Option Bool
  /-- `packetBuilder.getCurrentSequence()` -/
  currentSequence : Seq
  retransmitQueue : RetransmitQueue QueuedPacket
  lastAckedSeq : Option Seq
  /-- the packets handed to the network, first transmissions and retransmissions -/
  handed : List QueuedPacket

inductive TransmitterEvent
  | processDelta (now : Time) (delta : Delta)
  | deltaTimer
  | retryTimer
  | immediate
  /-- a send updates the estimate of the batch size -/
  | updateSmartBatch (raw : ℕ)
  | cleanupDedupeMap (now : Time)
  | readyToSend (ready : Bool)
  | subscribing (subscribing : Bool)
  | socketRecovery (inProgress : Bool)
  /-- `prepareDeltaPayload` leaves nothing to send -/
  | payloadDropped
  /-- serialising, compressing, encrypting or building fails -/
  | buildFailed
  /-- the packet of the batch in flight is built, queued and given to the socket, if there is one -/
  | packetBuilt (now : Time) (socket : Bool)
  /-- `udpSendAsync` ends -/
  | udpEnded (success : Bool)
  /-- a `sendDelta` of something that is not buffered -/
  | otherPacket (now : Time) (socket : Bool)
  /-- a NAK; `count` retransmissions are handed over before one of them fails -/
  | receiveNAK (now : Time) (missingSeqs : List Seq) (count : ℕ)
  /-- a recovery burst; `count` as above -/
  | runRecoveryBurst (now : Time) (burstSize : ℕ) (intervalMs : Time) (count : ℕ)
  | receiveACK (ackedSeq : Seq)
  | expireOld (now maxAge : Time)
  | forceDrain

/-- The numbers of a batch. -/
def Flight.numbers (f : Flight (ℕ × Delta)) : List ℕ := f.batch.map Prod.fst

namespace Transmitter

def new (sequence : Seq) : Transmitter where
  inst := .new
  recentOutboundDeltas := .empty
  pushed := 0
  sending := none
  currentSequence := sequence
  retransmitQueue := .new
  lastAckedSeq := none
  handed := []

/-- The numbers of the buffered deltas. -/
def buffer (s : Transmitter) : List ℕ := s.inst.deltas.map Prod.fst

/-- The packets that have been handed to the network or may still be. -/
def packets (s : Transmitter) : List QueuedPacket := s.handed ++ s.retransmitQueue.packets

/-- A delta arrives. -/
def arrive (opts : ProducerOptions) (s : Transmitter) (now : Time) (delta : Delta) : Transmitter :=
  let r := processDelta opts (s.pushed, ·) s.inst s.recentOutboundDeltas now delta
  let s' := { s with inst := r.1, recentOutboundDeltas := r.2 }
  match buffered opts s.inst s.recentOutboundDeltas now delta with
  | none => s'
  | some _ => { s' with pushed := s.pushed + 1 }

/-- The end of `buildQueuedPacket`, the queueing, and the call of `udpSendAsync`. -/
def transmit (s : Transmitter) (now : Time) (items : List ℕ) (socket : Bool) : Transmitter :=
  let packet : QueuedPacket := ⟨s.currentSequence, items⟩
  { s with
    currentSequence := s.currentSequence + 1
    retransmitQueue := s.retransmitQueue.add now s.currentSequence packet
    handed := if socket then s.handed ++ [packet] else s.handed }

/-- The send of the batch in flight ends. -/
def sendEnded (s : Transmitter) (success : Bool) : Transmitter :=
  { s with inst := s.inst.sendEnded success, sending := none }

/-- Packets are taken out of the queue and handed to the network. -/
def retransmit (s : Transmitter) (now : Time) (sequences : List Seq) (count : ℕ) : Transmitter :=
  let r := s.retransmitQueue.retransmit now sequences
  { s with
    retransmitQueue := r.1
    handed := s.handed ++ (r.2.take count).map fun t => t.2.1 }

/-- `receiveACK` -/
def receiveACK (s : Transmitter) (ackedSeq : Seq) : Transmitter :=
  { s with
    retransmitQueue := s.retransmitQueue.acknowledgeRange s.lastAckedSeq ackedSeq
    lastAckedSeq := match s.lastAckedSeq with
      | none => some ackedSeq
      | some last => if isAhead ackedSeq last then some ackedSeq else some last }

def step (opts : ProducerOptions) (s : Transmitter) : TransmitterEvent → Transmitter
  | .processDelta now delta => s.arrive opts now delta
  | .deltaTimer => { s with inst := s.inst.deltaTimerFired }
  | .retryTimer => { s with inst := s.inst.retryTimerFired }
  | .immediate => { s with inst := s.inst.immediateFired }
  | .updateSmartBatch raw =>
    { s with inst := { s.inst with maxDeltasPerBatch := calculateMaxDeltasPerBatch raw } }
  | .cleanupDedupeMap now =>
    { s with recentOutboundDeltas := EdgeLink.cleanupDedupeMap s.recentOutboundDeltas now }
  | .readyToSend ready => { s with inst := { s.inst with readyToSend := ready } }
  | .subscribing subscribing => { s with inst := { s.inst with subscribing := subscribing } }
  | .socketRecovery inProgress =>
    { s with inst := { s.inst with socketRecoveryInProgress := inProgress } }
  | .payloadDropped => if s.sending.isNone then s.sendEnded true else s
  | .buildFailed => if s.sending.isNone then s.sendEnded false else s
  | .packetBuilt now socket =>
    match s.inst.flight, s.sending with
    | some f, none => { s.transmit now f.numbers socket with sending := some socket }
    | _, _ => s
  | .udpEnded success =>
    match s.sending with
    | none => s
    | some socket => s.sendEnded (success && socket)
  | .otherPacket now socket => s.transmit now [] socket
  | .receiveNAK now missingSeqs count => s.retransmit now missingSeqs count
  | .runRecoveryBurst now burstSize intervalMs count =>
    s.retransmit now (s.retransmitQueue.getOldestSequences now burstSize intervalMs) count
  | .receiveACK ackedSeq => s.receiveACK ackedSeq
  | .expireOld now maxAge =>
    { s with retransmitQueue := s.retransmitQueue.expireOld now maxAge }
  | .forceDrain => { s with retransmitQueue := s.retransmitQueue.clear }

/-- The batch in flight is not sent again: its attempts are used up, or it has been dropped from the
buffer; or no packet with one of its deltas has been handed over or is still queued. -/
def GivenUp (s : Transmitter) : Prop :=
  ∀ f ∈ s.inst.flight, DELTA_SEND_MAX_RETRIES ≤ f.retryCount ∨ ¬ f.batch <+: s.inst.deltas ∨
    ∀ p ∈ s.packets, ∀ d ∈ f.numbers, d ∉ p.items

/-- The condition on a step: a failed send of a queued packet is the end of its batch. -/
def FailsForGood (s : Transmitter) : TransmitterEvent → Prop
  | .udpEnded success => ∀ socket ∈ s.sending, (success && socket) = false → s.GivenUp
  | _ => True

instance (s : Transmitter) : Decidable s.GivenUp := by
  unfold GivenUp
  infer_instance

instance (s : Transmitter) (e : TransmitterEvent) : Decidable (s.FailsForGood e) := by
  unfold FailsForGood
  split <;> infer_instance

/-! ## Every step keeps the packets apart -/

/-- **The invariant.** Packets with a common delta are one packet; a buffered delta is in a packet
only while that packet is being sent; and the deltas of the batch in flight are in none before. -/
structure Inv (s : Transmitter) : Prop where
  sized : s.inst.Sized
  nodup : s.buffer.Nodup
  fresh : ∀ d ∈ s.buffer, d < s.pushed
  flightFresh : ∀ f, s.inst.flight = some f → ∀ d ∈ f.numbers, d < s.pushed
  packetFresh : ∀ p ∈ s.packets, ∀ d ∈ p.items, d < s.pushed
  once : ∀ p ∈ s.packets, ∀ q ∈ s.packets, ∀ d ∈ p.items, d ∈ q.items → p = q
  batch : ∀ f, s.inst.flight = some f → f.batch <+: s.inst.deltas ∨ ∀ d ∈ f.numbers, d ∉ s.buffer
  unsent : s.sending = none → ∀ f, s.inst.flight = some f → ∀ p ∈ s.packets, ∀ d ∈ f.numbers,
    d ∉ p.items
  waiting : ∀ d ∈ s.buffer, ∀ p ∈ s.packets, d ∈ p.items →
    s.sending.isSome ∧ ∃ f, s.inst.flight = some f ∧ d ∈ f.numbers

variable {s : Transmitter} {opts : ProducerOptions}

theorem inv_new (sequence : Seq) : (new sequence).Inv where
  sized := InstanceState.sized_new
  nodup := List.nodup_nil
  fresh _ hd := nomatch hd
  flightFresh _ hf := nomatch hf
  packetFresh _ hp := nomatch hp
  once _ hp := nomatch hp
  batch _ hf := nomatch hf
  unsent _ _ hf := nomatch hf
  waiting _ hd := nomatch hd

theorem flight_none_of_idle (h : s.inst.Sized) (hidle : s.inst.batchSendInFlight = false) :
    s.inst.flight = none := by
  have := h.batchSendInFlight
  rw [hidle] at this
  exact Option.isNone_iff_eq_none.1 (by simpa using this.symm)

/-- A flush takes deltas that are in no packet. -/
theorem Inv.flushed (h : s.Inv) {inst : InstanceState (ℕ × Delta)} (hf : s.inst.Flushed inst) :
    Inv { s with inst := inst } := by
  have hbuffer : buffer { s with inst := inst } = s.buffer :=
    congrArg (List.map Prod.fst) hf.deltas
  obtain ⟨hsame, -⟩ | ⟨hidle, -, n, k, -, -, hnew⟩ := hf.flight
  · refine ⟨h.sized.flushed hf, hbuffer ▸ h.nodup, hbuffer ▸ h.fresh, hsame ▸ h.flightFresh,
      h.packetFresh, h.once, fun f hflight => ?_, hsame ▸ h.unsent, fun d hd => ?_⟩
    · rw [hbuffer, hf.deltas]
      exact h.batch f (hsame ▸ hflight)
    · dsimp only
      rw [hsame]
      exact h.waiting d (hbuffer ▸ hd)
  · have hnone := flight_none_of_idle h.sized hidle
    -- Nothing was in flight, so no buffered delta is in a packet.
    have hapart : ∀ d ∈ s.buffer, ∀ p ∈ s.packets, d ∉ p.items := by
      intro d hd p hp hdp
      obtain ⟨-, f, hflight, -⟩ := h.waiting d hd p hp hdp
      rw [hnone] at hflight
      nomatch hflight
    have hfront : ∀ f, inst.flight = some f → ∀ d ∈ f.numbers, d ∈ s.buffer := by
      intro f hflight d hd
      obtain rfl := Option.some.inj (hnew.symm.trans hflight)
      rw [Flight.numbers, List.map_take] at hd
      exact List.mem_of_mem_take hd
    refine ⟨h.sized.flushed hf, hbuffer ▸ h.nodup, hbuffer ▸ h.fresh,
      fun f hflight d hd => h.fresh d (hfront f hflight d hd), h.packetFresh, h.once,
      fun f hflight => .inl ?_, fun _ f hflight p hp d hd => hapart d (hfront f hflight d hd) p hp,
      fun d hd p hp hdp => absurd hdp (hapart d (hbuffer ▸ hd) p hp)⟩
    obtain rfl := Option.some.inj (hnew.symm.trans hflight)
    rw [hf.deltas]
    exact List.take_prefix n _

theorem numbers_of_leading {f : Flight (ℕ × Delta)} (h : s.Inv) (hf : s.inst.flight = some f)
    (hleading : f.batch <+: s.inst.deltas) : f.numbers = s.buffer.take f.actualBatchSize := by
  rw [Flight.numbers, List.prefix_iff_eq_take.1 hleading, (h.sized.flight f hf).2.2, List.map_take]
  rfl

/-- The batch in flight is not what is left behind it. -/
theorem Inv.not_mem_drop (h : s.Inv) {f : Flight (ℕ × Delta)} (hf : s.inst.flight = some f) {n d : ℕ}
    (hn : f.actualBatchSize ≤ n) (hd : d ∈ f.numbers) : d ∉ s.buffer.drop n := by
  rcases h.batch f hf with hleading | hgone
  · rw [numbers_of_leading h hf hleading] at hd
    exact fun hdrop => List.disjoint_take_drop h.nodup hn hd hdrop
  · exact fun hdrop => hgone d hd (List.mem_of_mem_drop hdrop)

/-- The buffer is trimmed if need be, and a new delta is appended. -/
theorem Inv.push (h : s.Inv) (out : Delta) : Inv { s with
    inst := { s.inst with
      deltas := s.inst.deltas.drop s.inst.overflow ++ [(s.pushed, out)]
      droppedDeltaCount := s.inst.droppedDeltaCount + s.inst.overflow }
    pushed := s.pushed + 1 } := by
  have hbuffer : ∀ d, d ∈ (s.inst.deltas.drop s.inst.overflow ++ [(s.pushed, out)]).map Prod.fst →
      d ∈ s.buffer.drop s.inst.overflow ∨ d = s.pushed := by
    intro d hd
    rw [List.map_append, List.map_drop] at hd
    exact (List.mem_append.1 hd).imp_right List.mem_singleton.1
  have hsmall : ∀ f, s.inst.flight = some f → f.actualBatchSize ≤ 50 :=
    fun f hf => (h.sized.flight f hf).2.1
  refine ⟨⟨h.sized.batchSendInFlight, h.sized.maxDeltasPerBatch, fun f hf => ?_⟩, ?_, ?_, ?_, ?_,
    h.once, fun f hf => ?_, h.unsent, fun d hd p hp hdp => ?_⟩
  · obtain ⟨hlen, hmax, hbatch⟩ := h.sized.flight f hf
    refine ⟨?_, hmax, hbatch⟩
    simp only [List.length_append, List.length_drop, List.length_singleton]
    have := hsmall f hf
    rcases s.inst.overflow_cases with h0 | h500 <;> omega
  · rw [buffer]
    simp only [List.map_append, List.map_drop, List.map_cons, List.map_nil]
    refine List.Nodup.append (h.nodup.sublist (List.drop_sublist _ _)) (List.nodup_singleton _) ?_
    intro d hd hd'
    rw [List.mem_singleton.1 hd'] at hd
    exact absurd (h.fresh _ (List.mem_of_mem_drop hd)) (Nat.lt_irrefl _)
  · intro d hd
    rcases hbuffer d hd with hd | rfl
    · exact Nat.lt_succ_of_lt (h.fresh d (List.mem_of_mem_drop hd))
    · exact Nat.lt_succ_self _
  · exact fun f hf d hd => Nat.lt_succ_of_lt (h.flightFresh f hf d hd)
  · exact fun p hp d hd => Nat.lt_succ_of_lt (h.packetFresh p hp d hd)
  · -- Trimming drops the whole batch, and otherwise the batch stays in front.
    rcases s.inst.overflow_cases with h0 | ⟨h500, -⟩
    · rcases h.batch f hf with hleading | hgone
      · left
        simp only [h0, List.drop_zero]
        exact hleading.trans (List.prefix_append _ _)
      · right
        intro d hd hd'
        rcases hbuffer d hd' with hd' | rfl
        · exact hgone d hd (List.mem_of_mem_drop hd')
        · exact absurd (h.flightFresh f hf _ hd) (Nat.lt_irrefl _)
    · right
      intro d hd hd'
      rcases hbuffer d hd' with hd' | rfl
      · have := hsmall f hf
        exact h.not_mem_drop hf (by omega) hd hd'
      · exact absurd (h.flightFresh f hf _ hd) (Nat.lt_irrefl _)
  · rcases hbuffer d hd with hd | rfl
    · exact h.waiting d (List.mem_of_mem_drop hd) p hp hdp
    · exact absurd (h.packetFresh p hp _ hdp) (Nat.lt_irrefl _)

/-- What the duplicate suppression remembers does not matter. -/
theorem Inv.remembered (h : s.Inv) (recent : OrderedMap String Time) :
    Inv { s with recentOutboundDeltas := recent } :=
  ⟨h.sized, h.nodup, h.fresh, h.flightFresh, h.packetFresh, h.once, h.batch, h.unsent, h.waiting⟩

theorem Inv.arrive (h : s.Inv) (now : Time) (delta : Delta) : (s.arrive opts now delta).Inv := by
  have hinst := processDelta_fst opts (s.pushed, ·) s.inst s.recentOutboundDeltas now delta
  rw [Transmitter.arrive]
  dsimp only
  cases hb : buffered opts s.inst s.recentOutboundDeltas now delta with
  | none =>
    rw [hb] at hinst
    rw [hinst]
    exact h.remembered _
  | some out =>
    rw [hb] at hinst
    have hnext := (h.push out).flushed (InstanceState.flushed_enqueue s.inst (s.pushed, out))
    rw [hinst]
    exact hnext.remembered _

/-- The packets may become fewer. -/
theorem Inv.mono (h : s.Inv) {s' : Transmitter} (hinst : s'.inst = s.inst)
    (hpushed : s'.pushed = s.pushed) (hsending : s'.sending = s.sending)
    (hpackets : ∀ p ∈ s'.packets, p ∈ s.packets) : s'.Inv := by
  have hbuffer : s'.buffer = s.buffer := by rw [buffer, hinst]; rfl
  refine ⟨hinst ▸ h.sized, hbuffer ▸ h.nodup, ?_, ?_, ?_, ?_, ?_, ?_, ?_⟩
  · rw [hbuffer, hpushed]
    exact h.fresh
  · rw [hinst, hpushed]
    exact h.flightFresh
  · rw [hpushed]
    exact fun p hp => h.packetFresh p (hpackets p hp)
  · exact fun p hp q hq => h.once p (hpackets p hp) q (hpackets q hq)
  · rw [hinst, hbuffer]
    exact h.batch
  · rw [hinst, hsending]
    exact fun hs f hf p hp => h.unsent hs f hf p (hpackets p hp)
  · rw [hbuffer, hinst, hsending]
    exact fun d hd p hp => h.waiting d hd p (hpackets p hp)

theorem mem_packets_transmit {now : Time} {items : List ℕ} {socket : Bool} {p : QueuedPacket}
    (hp : p ∈ (s.transmit now items socket).packets) :
    p = ⟨s.currentSequence, items⟩ ∨ p ∈ s.packets := by
  rw [packets, transmit] at hp
  rcases List.mem_append.1 hp with hhanded | hqueued
  · cases socket with
    | false => exact .inr (List.mem_append_left _ hhanded)
    | true =>
      rcases List.mem_append.1 hhanded with hhanded | hnew
      · exact .inr (List.mem_append_left _ hhanded)
      · exact .inl (List.mem_singleton.1 hnew)
  · exact (RetransmitQueue.mem_packets_add hqueued).imp_right (List.mem_append_right _)

theorem mem_packets_retransmit {now : Time} {sequences : List Seq} {count : ℕ} {p : QueuedPacket}
    (hp : p ∈ (s.retransmit now sequences count).packets) : p ∈ s.packets := by
  rw [packets, retransmit] at hp
  rcases List.mem_append.1 hp with hhanded | hqueued
  · rcases List.mem_append.1 hhanded with hhanded | hagain
    · exact List.mem_append_left _ hhanded
    · obtain ⟨r, hr, rfl⟩ := List.mem_map.1 hagain
      exact List.mem_append_right _ (RetransmitQueue.retransmit_queued (List.mem_of_mem_take hr))
  · exact List.mem_append_right _ (RetransmitQueue.mem_packets_retransmit hqueued)

/-- The packet of the batch in flight contains deltas that no packet has contained. -/
theorem Inv.packetBuilt (h : s.Inv) {f : Flight (ℕ × Delta)} (hf : s.inst.flight = some f)
    (hsending : s.sending = none) (now : Time) (socket : Bool) :
    Inv { s.transmit now f.numbers socket with sending := some socket } := by
  have hunsent := h.unsent hsending f hf
  refine ⟨h.sized, h.nodup, h.fresh, h.flightFresh, fun p hp d hd => ?_,
    fun p hp q hq d hdp hdq => ?_, h.batch, nofun, fun d hd p hp hdp => ⟨rfl, f, hf, ?_⟩⟩
  · rcases mem_packets_transmit hp with rfl | hp
    · exact h.flightFresh f hf d hd
    · exact h.packetFresh p hp d hd
  · rcases mem_packets_transmit hp with rfl | hp <;> rcases mem_packets_transmit hq with rfl | hq
    · rfl
    · exact absurd hdq (hunsent q hq d hdp)
    · exact absurd hdp (hunsent p hp d hdq)
    · exact h.once p hp q hq d hdp hdq
  · rcases mem_packets_transmit hp with rfl | hp
    · exact hdp
    · have := (h.waiting d hd p hp hdp).1
      rw [hsending] at this
      nomatch this

theorem Inv.otherPacket (h : s.Inv) (now : Time) (socket : Bool) :
    (s.transmit now [] socket).Inv := by
  refine ⟨h.sized, h.nodup, h.fresh, h.flightFresh, fun p hp d hd => ?_,
    fun p hp q hq d hdp hdq => ?_, h.batch, fun hsending f hf p hp d hd => ?_,
    fun d hd p hp hdp => ?_⟩
  · rcases mem_packets_transmit hp with rfl | hp
    · nomatch hd
    · exact h.packetFresh p hp d hd
  · rcases mem_packets_transmit hp with rfl | hp
    · nomatch hdp
    · rcases mem_packets_transmit hq with rfl | hq
      · nomatch hdq
      · exact h.once p hp q hq d hdp hdq
  · rcases mem_packets_transmit hp with rfl | hp
    · exact List.not_mem_nil
    · exact h.unsent hsending f hf p hp d hd
  · rcases mem_packets_transmit hp with rfl | hp
    · nomatch hdp
    · exact h.waiting d hd p hp hdp

/-- **The end of a send.** What stays in the buffer is in no packet. -/
theorem Inv.sendEnded (h : s.Inv) {success : Bool}
    (hgood : success = false → s.sending.isSome → s.GivenUp) : (s.sendEnded success).Inv := by
  cases hf : s.inst.flight with
  | none =>
    have hinst : s.inst.sendEnded success = s.inst := by rw [InstanceState.sendEnded, hf]
    rw [Transmitter.sendEnded, hinst]
    refine ⟨h.sized, h.nodup, h.fresh, h.flightFresh, h.packetFresh, h.once, h.batch,
      fun _ f hf' => ?_, fun d hd p hp hdp => ?_⟩
    · cases hf.symm.trans hf'
    · obtain ⟨-, f, hf', -⟩ := h.waiting d hd p hp hdp
      cases hf.symm.trans hf'
  | some f =>
    obtain ⟨hend, hnone, -, -⟩ := InstanceState.ended_sendEnded hf success
    have hsized := h.sized.sendEnded success
    rw [Transmitter.sendEnded]
    generalize s.inst.sendEnded success = inst at hend hnone hsized ⊢
    -- It is enough that what is left is part of the buffer, and apart from the packets.
    have hrest : (∃ n, inst.deltas = s.inst.deltas.drop n) ∧
        ∀ d ∈ inst.deltas.map Prod.fst, ∀ p ∈ s.packets, d ∉ p.items := by
      have hdropped : inst.deltas = s.inst.deltas.drop f.actualBatchSize →
          ∀ d ∈ inst.deltas.map Prod.fst, ∀ p ∈ s.packets, d ∉ p.items := by
        intro hd d hmem p hp hdp
        rw [hd, List.map_drop] at hmem
        obtain ⟨-, f', hf', hdf⟩ := h.waiting d (List.mem_of_mem_drop hmem) p hp hdp
        obtain rfl := Option.some.inj (hf.symm.trans hf')
        exact h.not_mem_drop hf (Nat.le_refl _) hdf hmem
      cases hend with
      | sent hd hc => exact ⟨⟨_, hd⟩, hdropped hd⟩
      | gaveUp hk hd hc => exact ⟨⟨_, hd⟩, hdropped hd⟩
      | retry hk hd hc =>
        refine ⟨⟨0, hd⟩, fun d hmem p hp hdp => ?_⟩
        rw [hd] at hmem
        obtain ⟨hsending, f', hf', hdf⟩ := h.waiting d hmem p hp hdp
        obtain rfl := Option.some.inj (hf.symm.trans hf')
        rcases hgood rfl hsending f hf with hused | hgone | hdead
        · exact absurd hused (Nat.not_le.2 hk)
        · exact ((h.batch f hf).resolve_left hgone) d hdf hmem
        · exact hdead p hp d hdf hdp
    obtain ⟨⟨n, hn⟩, hapart⟩ := hrest
    have hsub : ∀ d ∈ inst.deltas.map Prod.fst, d ∈ s.buffer := by
      intro d hd
      rw [hn, List.map_drop] at hd
      exact List.mem_of_mem_drop hd
    refine ⟨hsized, ?_, fun d hd => h.fresh d (hsub d hd), fun f hf' => ?_, h.packetFresh, h.once,
      fun f hf' => ?_, fun _ f hf' => ?_, fun d hd p hp hdp => absurd hdp (hapart d hd p hp)⟩
    · rw [buffer, hn, List.map_drop]
      exact h.nodup.sublist (List.drop_sublist _ _)
    · cases hnone.symm.trans hf'
    · cases hnone.symm.trans hf'
    · cases hnone.symm.trans hf'

theorem Inv.step (h : s.Inv) {e : TransmitterEvent} (he : s.FailsForGood e) :
    (s.step opts e).Inv := by
  cases e with
  | processDelta now delta => exact h.arrive now delta
  | deltaTimer => exact h.flushed s.inst.flushed_deltaTimerFired
  | retryTimer => exact h.flushed s.inst.flushed_retryTimerFired
  | immediate => exact h.flushed s.inst.flushed_immediateFired
  | updateSmartBatch raw =>
    exact ⟨⟨h.sized.batchSendInFlight, InstanceState.calculateMaxDeltasPerBatch_le raw,
      h.sized.flight⟩, h.nodup, h.fresh, h.flightFresh, h.packetFresh, h.once, h.batch, h.unsent,
      h.waiting⟩
  | cleanupDedupeMap now =>
    have hstep : s.step opts (.cleanupDedupeMap now) = { s with
      recentOutboundDeltas := EdgeLink.cleanupDedupeMap s.recentOutboundDeltas now } := rfl
    rw [hstep]
    exact h.remembered _
  | readyToSend | subscribing | socketRecovery =>
    exact ⟨⟨h.sized.batchSendInFlight, h.sized.maxDeltasPerBatch, h.sized.flight⟩, h.nodup,
      h.fresh, h.flightFresh, h.packetFresh, h.once, h.batch, h.unsent, h.waiting⟩
  | payloadDropped =>
    rw [Transmitter.step]
    split
    · exact h.sendEnded nofun
    · exact h
  | buildFailed =>
    rw [Transmitter.step]
    split
    · next hnone =>
      refine h.sendEnded fun _ hsome => ?_
      rw [Option.isNone_iff_eq_none.1 hnone] at hsome
      nomatch hsome
    · exact h
  | packetBuilt now socket =>
    rw [Transmitter.step]
    split
    · next f hf hsending => exact h.packetBuilt hf hsending now socket
    · exact h
  | udpEnded success =>
    rw [Transmitter.step]
    split
    · exact h
    · next socket hsending => exact h.sendEnded fun hfailed _ => he socket hsending hfailed
  | otherPacket now socket => exact h.otherPacket now socket
  | receiveNAK now missingSeqs count => exact h.mono rfl rfl rfl fun _ => mem_packets_retransmit
  | runRecoveryBurst now burstSize intervalMs count =>
    exact h.mono rfl rfl rfl fun _ => mem_packets_retransmit
  | receiveACK ackedSeq =>
    refine h.mono rfl rfl rfl fun p hp => ?_
    rcases List.mem_append.1 hp with hhanded | hqueued
    · exact List.mem_append_left _ hhanded
    · exact List.mem_append_right _ (RetransmitQueue.mem_packets_acknowledgeRange hqueued)
  | expireOld now maxAge =>
    refine h.mono rfl rfl rfl fun p hp => ?_
    rcases List.mem_append.1 hp with hhanded | hqueued
    · exact List.mem_append_left _ hhanded
    · exact List.mem_append_right _ (RetransmitQueue.mem_packets_expireOld hqueued)
  | forceDrain =>
    refine h.mono rfl rfl rfl fun p hp => ?_
    rcases List.mem_append.1 hp with hhanded | hqueued
    · exact List.mem_append_left _ hhanded
    · nomatch hqueued

/-- **At most one packet.** In every run in which a failed send of a queued packet is the end of its
batch, packets handed to the network that contain a common delta are one packet, with one number. -/
theorem delivered_once (opts : ProducerOptions) (sequence : Seq) {events : List TransmitterEvent}
    (h : Along (step opts) FailsForGood (new sequence) events) :
    ∀ p ∈ (run (step opts) (new sequence) events).handed,
      ∀ q ∈ (run (step opts) (new sequence) events).handed, ∀ d ∈ p.items, d ∈ q.items → p = q := by
  have hinv : (run (step opts) (new sequence) events).Inv :=
    h.invariant (I := Inv) (fun s e hs he => hs.step he) (inv_new sequence)
  exact fun p hp q hq d =>
    hinv.once p (List.mem_append_left _ hp) q (List.mem_append_left _ hq) d

/-! ## Runs -/

/-- A delta with one value. -/
def anchorDelta : Delta :=
  ⟨some "vessels.self", [{ values := [⟨"navigation.anchor.set", .bool true⟩] }]⟩

/-- Two deltas are sent one after the other, and the first packet is sent again after a NAK. -/
def resent : List TransmitterEvent :=
  [.processDelta 0 anchorDelta, .deltaTimer, .packetBuilt 0 true, .udpEnded true,
    .processDelta 2000 anchorDelta, .deltaTimer, .packetBuilt 2000 true, .udpEnded true,
    .receiveNAK 2100 [0] 1]

/-- The first delta is handed over twice, in one packet. -/
theorem delivered_once_resent :
    (run (step plainOptions) (new 0) resent).handed = [⟨0, [0]⟩, ⟨1, [1]⟩, ⟨0, [0]⟩] ∧
      ∀ p ∈ (run (step plainOptions) (new 0) resent).handed,
        ∀ q ∈ (run (step plainOptions) (new 0) resent).handed,
          ∀ d ∈ p.items, d ∈ q.items → p = q :=
  ⟨by decide +kernel, delivered_once plainOptions 0 (by decide +kernel)⟩

/-- The socket is gone when the packet of a batch has been queued. The batch is sent again, in a
packet of its own; the first packet is missing at the server, which asks for it. -/
def failedSend : List TransmitterEvent :=
  [.processDelta 0 anchorDelta, .deltaTimer, .packetBuilt 0 false, .udpEnded false,
    .retryTimer, .packetBuilt 200 true, .udpEnded true, .receiveNAK 300 [0] 1]

/-- **Twice delivered.** One buffered delta is handed to the network under two numbers. -/
theorem delivered_twice :
    (run (step plainOptions) (new 0) failedSend).handed = [⟨1, [0]⟩, ⟨0, [0]⟩] ∧
      ¬ ∀ p ∈ (run (step plainOptions) (new 0) failedSend).handed,
        ∀ q ∈ (run (step plainOptions) (new 0) failedSend).handed,
          ∀ d ∈ p.items, d ∈ q.items → p.sequence = q.sequence := by
  decide +kernel

end Transmitter

end EdgeLink
