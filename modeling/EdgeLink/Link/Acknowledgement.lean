import EdgeLink.Reliability.RetransmitQueue
import EdgeLink.Server.Handlers

/-!
# Acknowledgements and the retransmit queue

One client with its retransmit queue, the server with its sessions, and a network that loses,
duplicates, delays and reorders datagrams in both directions and lets them arrive from any source
port (`Arq`). An acknowledgement says that everything before the number that a tracker expects has
been seen; that is true of what the tracker has counted, but a tracker starts counting at the first
number that happens to arrive.

* `TrackerInv`: everything queued before the expected number has been seen.
* `released_seen`: as long as a tracker that takes a new baseline leaves nothing unseen behind it
  (`Covered`), an acknowledgement releases only packets that the server has seen.
* `first_packet_lost`: when the first packet is lost, the acknowledgement of the second releases it.
-/

namespace EdgeLink

open Serial

/-! ## A tracker and the numbers of one client -/

/-- The arrival of `s` makes the tracker take a new baseline. -/
def TakesBaseline (t : SequenceTracker) (s : Seq) : Prop :=
  match t.expectedSeq with
  | none => True
  | some e => s ∉ t.receivedSeqs ∧
      ((isBehind s e ∧ t.config.behindResyncThreshold < dist s e) ∨
        (isAhead s e ∧ t.config.maxGapTracking < dist e s))

instance (t : SequenceTracker) (s : Seq) : Decidable (TakesBaseline t s) := by
  unfold TakesBaseline
  split <;> infer_instance

/-- The invariant of a tracker that is fed the first `n` numbers from `o` on: what it has counted or
remembers ahead is in `S`, and everything before the number it expects is in `Q`. -/
structure TrackerInv (o : Seq) (n : ℕ) (Q S : Seq → Prop) (t : SequenceTracker) : Prop where
  idle : t.expectedSeq = none → t.receivedSeqs = ∅ ∧ t.nakTimers = []
  expected : ∀ e, t.expectedSeq = some e → 1 ≤ dist o e ∧ dist o e ≤ n
  before : ∀ e, t.expectedSeq = some e → ∀ q, dist o q < dist o e → Q q
  received : ∀ x ∈ t.receivedSeqs, dist o x < n
  ahead : ∀ x ∈ t.receivedSeqs, ∀ e, t.expectedSeq = some e → dist o e ≤ dist o x → S x
  timers : ∀ x ∈ t.nakTimers, dist o x < n

theorem dist_succ {o x : Seq} (h : dist o x < 2 ^ 31) : dist o (x + 1) = dist o x + 1 := by
  have := dist_lt o (x + 1)
  rcases dist_add_dist o x (x + 1) with h' | h' <;> rw [dist_add_one] at h' <;> omega

section Tracker

variable {o e s : Seq} {n : ℕ} {Q S : Seq → Prop} {t t' : SequenceTracker}

theorem trackerInv_idle (o : Seq) (n : ℕ) (Q S : Seq → Prop) (h : t.expectedSeq = none)
    (hr : t.receivedSeqs = ∅) (ht : t.nakTimers = []) : TrackerInv o n Q S t where
  idle _ := ⟨hr, ht⟩
  expected := by simp [h]
  before := by simp [h]
  received := by simp [hr]
  ahead := by simp [hr]
  timers := by simp [ht]

theorem TrackerInv.mono {m : ℕ} {Q' S' : Seq → Prop} (h : TrackerInv o n Q S t) (hn : n ≤ m)
    (hQ : ∀ q, dist o q < n → Q q → Q' q) (hS : ∀ x, S x → S' x) : TrackerInv o m Q' S' t where
  idle := h.idle
  expected e he := ⟨(h.expected e he).1, (h.expected e he).2.trans hn⟩
  before e he q hq := hQ q (hq.trans_le (h.expected e he).2) (h.before e he q hq)
  received x hx := (h.received x hx).trans_le hn
  ahead x hx e he hle := hS x (h.ahead x hx e he hle)
  timers x hx := (h.timers x hx).trans_le hn

/-- A tracker that expects the same number, and remembers and has armed no more, is still fine. -/
theorem TrackerInv.of_le (h : TrackerInv o n Q S t) (he : t'.expectedSeq = t.expectedSeq)
    (hr : t'.receivedSeqs ⊆ t.receivedSeqs) (ht : ∀ x ∈ t'.nakTimers, dist o x < n)
    (hidle : t'.expectedSeq = none → t'.nakTimers = []) : TrackerInv o n Q S t' where
  idle hnone := ⟨Finset.subset_empty.1 ((h.idle (he ▸ hnone)).1 ▸ hr), hidle hnone⟩
  expected e' he' := h.expected e' (he ▸ he')
  before e' he' := h.before e' (he ▸ he')
  received x hx := h.received x (hr hx)
  ahead x hx e' he' := h.ahead x (hr hx) e' (he ▸ he')
  timers := ht

/-- A tracker may remember a number that it has counted, or that has been seen. -/
theorem TrackerInv.remember (h : TrackerInv o n Q S t) (he : t.expectedSeq = some e)
    (hs : dist o s < n) (hS : dist o e ≤ dist o s → S s)
    (hr : t'.receivedSeqs ⊆ insert s t.receivedSeqs) (he' : t'.expectedSeq = t.expectedSeq)
    (ht : ∀ x ∈ t'.nakTimers, x ∈ t.nakTimers) : TrackerInv o n Q S t' where
  idle hnone := by rw [he', he] at hnone; cases hnone
  expected e' h' := h.expected e' (he' ▸ h')
  before e' h' := h.before e' (he' ▸ h')
  received x hx := by
    rcases Finset.mem_insert.1 (hr hx) with rfl | hx
    · exact hs
    · exact h.received x hx
  ahead x hx e'' h'' hle := by
    rw [he', he] at h''
    obtain rfl := Option.some.inj h''
    rcases Finset.mem_insert.1 (hr hx) with rfl | hx
    · exact hS hle
    · exact h.ahead x hx e he hle
  timers x hx := h.timers x (ht x hx)

/-- A new baseline behind which nothing is left. -/
theorem trackerInv_baseline (hn : n ≤ 2 ^ 31) (hs : dist o s < n) (hSQ : ∀ x, S x → Q x) (hS : S s)
    (hbase : ∀ q, dist o q < dist o s → Q q) (he : t'.expectedSeq = some (s + 1))
    (hr : t'.receivedSeqs = {s}) (ht : t'.nakTimers = []) : TrackerInv o n Q S t' where
  idle hnone := by rw [he] at hnone; cases hnone
  expected e' h' := by
    rw [he] at h'
    rw [← Option.some.inj h', dist_succ (by omega)]
    omega
  before e' h' q hq := by
    rw [he] at h'
    rw [← Option.some.inj h', dist_succ (by omega)] at hq
    rcases Nat.lt_succ_iff_lt_or_eq.1 hq with hlt | heq
    · exact hbase q hlt
    · exact dist_right_injective o heq ▸ hSQ s hS
  received := by simpa [hr] using hs
  ahead := by simpa [hr] using fun _ _ _ => hS
  timers := by simp [ht]

/-- The expected number has been seen: the tracker moves past it, and past what it remembers. -/
theorem TrackerInv.advanceExpected (h : TrackerInv o n Q S t) (hn : n ≤ 2 ^ 31)
    (hSQ : ∀ x, S x → Q x) (he : t.expectedSeq = some e) (hen : dist o e < n) (hS : S e) :
    TrackerInv o n Q S (t.advanceExpected e) := by
  obtain ⟨m, hexp, hrec, hmem, htim⟩ := SequenceTracker.advanceExpected_spec t e
  have hseen : ∀ j ≤ m, S (e + BitVec.ofNat 32 j) ∧ dist o (e + BitVec.ofNat 32 j) = dist o e + j ∧
      dist o e + j < n := by
    intro j
    induction j with
    | zero => exact fun _ => ⟨by simpa using hS, by simp, hen⟩
    | succ j ih =>
      intro hj
      obtain ⟨-, hpos, hlt⟩ := ih (by omega)
      have hnext : dist o (e + BitVec.ofNat 32 (j + 1)) = dist o e + (j + 1) := by
        rw [BitVec.ofNat_add, ← BitVec.add_assoc]
        exact (dist_succ (by omega)).trans (by omega)
      have hr := hrec j (by omega)
      have hn' := h.received _ hr
      exact ⟨h.ahead _ hr e he (by omega), hnext, by omega⟩
  have hend : dist o (e + BitVec.ofNat 32 (m + 1)) = dist o e + (m + 1) := by
    obtain ⟨-, hpos, hlt⟩ := hseen m le_rfl
    rw [BitVec.ofNat_add, ← BitVec.add_assoc]
    exact (dist_succ (by omega)).trans (by omega)
  have hm := (hseen m le_rfl).2.2
  refine ⟨fun hnone => ?_, fun e' h' => ?_, fun e' h' q hq => ?_, fun x hx => ?_,
    fun x hx e' h' hle => ?_, fun x hx => ?_⟩
  · rw [hexp] at hnone
    cases hnone
  · rw [hexp] at h'
    rw [← Option.some.inj h', hend]
    omega
  · rw [hexp] at h'
    rw [← Option.some.inj h', hend] at hq
    by_cases hlt : dist o q < dist o e
    · exact h.before e he q hlt
    · obtain ⟨hSj, hpos, -⟩ := hseen (dist o q - dist o e) (by omega)
      have heq : e + BitVec.ofNat 32 (dist o q - dist o e) = q :=
        dist_right_injective o (by omega)
      exact hSQ q (heq ▸ hSj)
  · exact h.received x ((hmem x).1 hx).1
  · rw [hexp] at h'
    rw [← Option.some.inj h', hend] at hle
    exact h.ahead x ((hmem x).1 hx).1 e he (by omega)
  · exact h.timers x (htim x hx).1

/-- **What an arrival preserves.** -/
theorem TrackerInv.processSequence (h : TrackerInv o n Q S t) (hn : n ≤ 2 ^ 31)
    (hSQ : ∀ x, S x → Q x) (hs : dist o s < n)
    (hacc : ¬ ((t.processSequence s).2.duplicate = true ∨
      (t.processSequence s).2.lateArrival = true) → S s)
    (hbase : TakesBaseline t s → ∀ q, dist o q < dist o s → Q q) :
    TrackerInv o n Q S (t.processSequence s).1 := by
  cases he : t.expectedSeq with
  | none =>
    obtain ⟨hr, ht⟩ := h.idle he
    rw [SequenceTracker.processSequence_first he] at hacc ⊢
    refine trackerInv_baseline hn hs hSQ (hacc (by simp)) (hbase ?_) rfl ?_ ht
    · rw [TakesBaseline, he]
      trivial
    · simp [hr]
  | some e =>
    obtain ⟨hcfg, hexp, htim, hrec⟩ := SequenceTracker.recordArrival_frame t s
    have hfilter : ∀ x ∈ (t.recordArrival s).nakTimers, x ∈ t.nakTimers := by
      rw [htim]
      exact fun x hx => List.mem_of_mem_filter hx
    rcases SequenceTracker.processSequence_cases he s with
      ⟨-, hp⟩ | ⟨hd, hfar, hp⟩ | ⟨-, hb, -, hp⟩ | ⟨-, rfl, hp⟩ | ⟨-, ha, -, hp⟩ | ⟨-, -, hp⟩ <;>
      rw [hp] at hacc ⊢
    · exact h
    · refine trackerInv_baseline hn hs hSQ (hacc (by simp)) (hbase ?_) rfl rfl rfl
      rw [TakesBaseline, he]
      exact ⟨hd, hfar⟩
    · refine h.remember he hs (fun hle => ?_) subset_rfl rfl fun x hx => ?_
      · obtain ⟨h0, h1⟩ := hb
        have := (h.expected e he).2
        rcases dist_from o s e with ⟨-, hpos⟩ | ⟨-, hpos⟩ <;> omega
      · exact List.mem_of_mem_filter hx
    · have hS := hacc (by simp)
      have h' := h.remember he hs (fun _ => hS) hrec hexp hfilter
      exact h'.advanceExpected hn hSQ (hexp.trans he) hs hS
    · have hS := hacc (by simp)
      have h' := h.remember he hs (fun _ => hS) hrec hexp hfilter
      obtain ⟨-, hgexp, hgrec⟩ := SequenceTracker.recordGap_frame (dist e s) (t.recordArrival s) e
      have hpos := dist_from o e s
      refine h'.of_le ?_ ?_ (fun x hx => ?_) fun hnone => ?_
      · rw [SequenceTracker.expectedSeq_cleanupOldSequences, hgexp]
      · exact (SequenceTracker.cleanupOldSequences_subset _).trans hgrec.subset
      · rw [SequenceTracker.nakTimers_cleanupOldSequences] at hx
        obtain ⟨h0, h1⟩ := ha
        have hen := (h.expected e he).2
        rcases SequenceTracker.mem_nakTimers_recordGap (o := o) (by omega) hx with hx | ⟨-, hlt⟩
        · exact h'.timers x hx
        · omega
      · rw [SequenceTracker.expectedSeq_cleanupOldSequences, hgexp, hexp, he] at hnone
        cases hnone
    · exact h.remember he hs (fun _ => hacc (by simp)) hrec hexp hfilter

/-- **What a NAK timer preserves.** -/
theorem TrackerInv.nakTimerFired (h : TrackerInv o n Q S t) (hn : n ≤ 2 ^ 31)
    (hSQ : ∀ x, S x → Q x) (habandoned : (t.nakTimerFired s).2 = true → S s) :
    TrackerInv o n Q S (t.nakTimerFired s).1 := by
  have hfilter : ∀ x ∈ t.nakTimers.filter (· ≠ s), x ∈ t.nakTimers :=
    fun x hx => List.mem_of_mem_filter hx
  rcases t.nakTimerFired_cases s with
    ⟨-, hp⟩ | ⟨hmem, -, hp⟩ | ⟨hmem, -, -, hp⟩ | ⟨hmem, -, -, hp⟩ <;> rw [hp] at habandoned ⊢
  · exact h
  · refine h.of_le rfl subset_rfl (fun x hx => h.timers x (hfilter x hx)) fun hnone => ?_
    rw [(h.idle hnone).2]
    rfl
  · have hS := habandoned rfl
    rcases Option.eq_none_or_eq_some t.expectedSeq with he | ⟨e, he⟩
    · rw [(h.idle he).2] at hmem
      cases hmem
    · rw [SequenceTracker.abandonSequence]
      dsimp only
      have h' : TrackerInv o n Q S { SequenceTracker.cancelNAK
          { t with nakTimers := t.nakTimers.filter (· ≠ s) } s with
            receivedSeqs := insert s t.receivedSeqs
            abandonedCount := t.abandonedCount + 1 } :=
        h.remember he (h.timers s hmem) (fun _ => hS) subset_rfl rfl
          fun x hx => hfilter x (List.mem_of_mem_filter hx)
      split_ifs with hes
      · exact h'.advanceExpected hn hSQ hes (h.timers s hmem) hS
      · exact h'
  · refine h.of_le ?_ ?_ (fun x hx => ?_) fun hnone => ?_
    · rw [SequenceTracker.expectedSeq_scheduleNAK]
    · rw [SequenceTracker.receivedSeqs_scheduleNAK]
    · rcases SequenceTracker.mem_nakTimers_scheduleNAK _ _ hx with hx | rfl
      · exact h.timers x (hfilter x hx)
      · exact h.timers x hmem
    · rw [SequenceTracker.expectedSeq_scheduleNAK] at hnone
      have hempty := (h.idle hnone).2
      rw [hempty] at hmem
      cases hmem

theorem TrackerInv.nakFlushFired (h : TrackerInv o n Q S t) :
    TrackerInv o n Q S t.nakFlushFired.1 := by
  obtain ⟨-, he, hr, ht⟩ := t.nakFlushFired_frame
  refine h.of_le he hr.subset (fun x hx => h.timers x (ht ▸ hx)) fun hnone => ?_
  rw [ht]
  exact (h.idle (he ▸ hnone)).2

end Tracker

/-! ## The client, the server and the network -/

/-- A client and a server, with everything that is in flight. -/
structure Arq where
  server : Server
  queue : RetransmitQueue DataPacket
  lastAckedSeq : Option Seq
  /-- the next sequence number of the client -/
  sequence : Seq
  /-- the packets built so far -/
  sent : List DataPacket
  /-- the acknowledgements sent so far -/
  acks : List Seq
  /-- the numbers that the server has accepted, or abandoned after its NAK rounds -/
  seen : List Seq

/-- What can happen to a client and a server. -/
inductive ArqEvent where
  | sendData (now : Time) (tagEpoch : Option ℕ) (payload : Option (List Delta))
  /-- a packet of the client arrives, from any source port -/
  | deliver (now : Time) (source : Peer) (index : ℕ)
  /-- anything else happens to the server, HELLOs included -/
  | atServer (ev : ServerEvent)
  /-- an acknowledgement arrives at the client -/
  | receiveAck (index : ℕ)
  | receiveNak (now : Time) (missing : List Seq)
  | recoveryBurst (now : Time) (size : ℕ) (interval : Time)
  | prune (now maxAge : Time)
  | forceDrain

namespace Arq

def new (initialSequence : Seq) : Arq := ⟨Server.new, .new, none, initialSequence, [], [], []⟩

/-- What an event is to the server. -/
def serverEvent (s : Arq) : ArqEvent → Option ServerEvent
  | .deliver now source index => (s.sent[index]?).map (.arrive now source)
  | .atServer (.arrive ..) => none
  | .atServer ev => some ev
  | _ => none

/-- The acknowledgements among what the server puts out. -/
def acksOf (out : List ServerOutput) : List Seq :=
  out.filterMap fun o => match o with
    | .ack _ sequence => some sequence
    | _ => none

/-- The numbers accepted or abandoned among what the server puts out. -/
def seenOf (out : List ServerOutput) : List Seq :=
  out.filterMap fun o => match o with
    | .accepted data _ => some data.packet.sequence
    | .abandoned _ sequence => some sequence
    | _ => none

/-- The server takes an event. -/
def serve (cfg : ServerConfig) (s : Arq) (ev : ServerEvent) : Arq :=
  { s with
    server := s.server.step cfg ev
    acks := s.acks ++ acksOf (s.server.output cfg ev)
    seen := s.seen ++ seenOf (s.server.output cfg ev) }

/-- The client processes an acknowledgement. -/
def receiveACK (s : Arq) (ackedSeq : Seq) : Arq :=
  { s with
    queue := s.queue.acknowledgeRange s.lastAckedSeq ackedSeq
    lastAckedSeq := match s.lastAckedSeq with
      | none => some ackedSeq
      | some last => if isAhead ackedSeq last then some ackedSeq else some last }

/-- What an event is to the client. -/
def client (s : Arq) : ArqEvent → Arq
  | .sendData now tagEpoch payload =>
    let packet : DataPacket := ⟨s.sent.length, s.sequence, tagEpoch, payload⟩
    { s with
      queue := s.queue.add now s.sequence packet
      sequence := s.sequence + 1
      sent := s.sent ++ [packet] }
  | .receiveAck index => match s.acks[index]? with
    | some ackedSeq => s.receiveACK ackedSeq
    | none => s
  | .receiveNak now missing => { s with queue := (s.queue.retransmit now missing).1 }
  | .recoveryBurst now size interval =>
    let pendingSeqs := s.queue.getOldestSequences now size interval
    { s with queue := (s.queue.retransmit now pendingSeqs).1 }
  | .prune now maxAge => { s with queue := s.queue.expireOld now maxAge }
  | .forceDrain => { s with queue := s.queue.clear }
  | _ => s

def step (cfg : ServerConfig) (s : Arq) (ev : ArqEvent) : Arq :=
  match s.serverEvent ev with
  | some sev => s.serve cfg sev
  | none => s.client ev

/-- The packets that an acknowledgement releases have been seen. -/
def ReleasesSeen (cfg : ServerConfig) (s : Arq) (ev : ArqEvent) : Prop :=
  match ev with
  | .receiveAck _ => ∀ q ∈ s.queue.seqs, q ∉ (s.step cfg ev).queue.seqs → q ∈ s.seen
  | _ => True

instance (cfg : ServerConfig) (s : Arq) (ev : ArqEvent) : Decidable (s.ReleasesSeen cfg ev) :=
  match ev with
  | .receiveAck _ => List.decidableBAll _ _
  | .sendData .. | .deliver .. | .atServer _ | .receiveNak .. | .recoveryBurst .. | .prune ..
  | .forceDrain => isTrue trivial

/-- Everything before `x` that the client still has in its queue has been seen. -/
def SeenBefore (s : Arq) (x : Seq) : Prop := ∀ q ∈ s.queue.seqs, isBehind q x → q ∈ s.seen

instance (s : Arq) (x : Seq) : Decidable (s.SeenBefore x) := List.decidableBAll _ _

/-- A tracker that is about to take a new baseline leaves nothing unseen behind it. -/
def Covered (cfg : ServerConfig) (s : Arq) (ev : ServerEvent) : Prop :=
  match ev with
  | .resume now index => ∀ data ∈ s.server.pending[index]?,
      ∀ session ∈ (getOrCreateSession cfg s.server.ctx now data.peer).2,
        PassesGate s.server.ctx now data →
          TakesBaseline session.sequenceTracker data.packet.sequence →
            s.SeenBefore data.packet.sequence
  | _ => True

instance (cfg : ServerConfig) (s : Arq) (ev : ServerEvent) : Decidable (s.Covered cfg ev) := by
  unfold Covered
  cases ev <;> infer_instance

/-- The condition on a step: baselines are covered, and at most `2 ^ 31` packets are built. -/
def Allowed (cfg : ServerConfig) (s : Arq) (ev : ArqEvent) : Prop :=
  (∀ sev ∈ s.serverEvent ev, s.Covered cfg sev) ∧
    match ev with
    | .sendData .. => s.sent.length < 2 ^ 31
    | _ => True

instance (cfg : ServerConfig) (s : Arq) (ev : ArqEvent) : Decidable (s.Allowed cfg ev) := by
  unfold Allowed
  cases ev <;> infer_instance

end Arq

/-! ## The trackers of all sessions -/

/-- Every session has a tracker with `P`. -/
def AllTrackers (P : SequenceTracker → Prop) (m : OrderedMap Peer ClientSession) : Prop :=
  ∀ p session, m.get? p = some session → P session.sequenceTracker

section AllTrackers

variable {P : SequenceTracker → Prop} {m : OrderedMap Peer ClientSession} {p : Peer}
  {session session' : ClientSession}

theorem AllTrackers.set (h : AllTrackers P m) (hs : P session.sequenceTracker) :
    AllTrackers P (m.set p session) :=
  OrderedMap.forall_get?_set (fun q session' _ => h q session') hs

theorem tracker_eq_of_core (h : session'.core = session.core) :
    session'.sequenceTracker = session.sequenceTracker := congrArg (·.2.1) h

theorem AllTrackers.opened {ctx : ServerContext} (h : AllTrackers P ctx.clientSessions)
    (hnew : ∀ config, P (.new config)) (cfg : ServerConfig) (now : Time) (p : Peer) :
    AllTrackers P (getOrCreateSession cfg ctx now p).1.clientSessions ∧
      ∀ session, (getOrCreateSession cfg ctx now p).2 = some session →
        P session.sequenceTracker :=
  forall_getOrCreateSession h (hnew _) fun _ hs => hs

end AllTrackers

/-! ## What the server preserves -/

/-- The number before the expected one. -/
theorem dist_pred {o e : Seq} (h : 1 ≤ dist o e) : dist o (e - 1) + 1 = dist o e := by
  have hstep : dist (e - 1) e = 1 := by
    have := dist_add_one (e - 1)
    rwa [BitVec.sub_add_cancel] at this
  have h1 := dist_lt o (e - 1)
  have h2 := dist_lt o e
  rcases dist_add_dist o (e - 1) e with h' | h' <;> omega

/-- An acknowledgement that is backed by a tracker: nothing up to it is unseen. -/
def Backed (o : Seq) (n : ℕ) (Q : Seq → Prop) (a : Seq) : Prop :=
  dist o a < n ∧ ∀ q, dist o q ≤ dist o a → Q q

theorem TrackerInv.backed {o e : Seq} {n : ℕ} {Q S : Seq → Prop} {t : SequenceTracker}
    (h : TrackerInv o n Q S t) (he : t.expectedSeq = some e) : Backed o n Q (e - 1) := by
  obtain ⟨h1, h2⟩ := h.expected e he
  have hpred := dist_pred h1
  exact ⟨by omega, fun q hq => h.before e he q (by omega)⟩

theorem Arq.mem_acksOf {out : List ServerOutput} {a : Seq} :
    a ∈ Arq.acksOf out ↔ ∃ p, ServerOutput.ack p a ∈ out := by
  rw [Arq.acksOf, List.mem_filterMap]
  constructor
  · rintro ⟨o, ho, ha⟩
    cases o <;> simp at ha
    exact ⟨_, ha ▸ ho⟩
  · rintro ⟨p, ho⟩
    exact ⟨_, ho, rfl⟩

theorem Arq.mem_seenOf_accepted {out : List ServerOutput} {data : PendingData} {epoch : ℚ}
    (h : ServerOutput.accepted data epoch ∈ out) : data.packet.sequence ∈ Arq.seenOf out :=
  List.mem_filterMap.2 ⟨_, h, rfl⟩

theorem Arq.mem_seenOf_abandoned {out : List ServerOutput} {p : Peer} {x : Seq}
    (h : ServerOutput.abandoned p x ∈ out) : x ∈ Arq.seenOf out :=
  List.mem_filterMap.2 ⟨_, h, rfl⟩

/-- What a resumed handler acknowledges is what the tracker of its session has counted. -/
theorem ResumeSession.acknowledges {data : PendingData} {g : ReplayGuard} {pass : Prop}
    {session session' : ClientSession} {out : List ServerOutput} {p : Peer} {a : Seq}
    (h : ResumeSession data g pass session session' out) (ha : ServerOutput.ack p a ∈ out) :
    ∃ e, session'.sequenceTracker.expectedSeq = some e ∧ a = e - 1 := by
  have hack : ∀ acks : List ServerOutput, (∀ o ∈ acks, Acknowledges session' o) →
      ServerOutput.ack p a ∈ acks →
        ∃ e, session'.sequenceTracker.expectedSeq = some e ∧ a = e - 1 := by
    intro acks hacks ha
    obtain ⟨e, he, ho⟩ := hacks _ ha
    exact ⟨e, he, (ServerOutput.ack.inj ho).2⟩
  have hpassed : ServerOutput.ack p a ∉ passedOutput data g ++ [.tracked data g.epoch] := by
    rw [passedOutput]
    split_ifs <;> simp
  cases h with
  | gated _ hacks => exact hack _ hacks ha
  | duplicate _ _ _ hacks =>
    exact hack _ hacks ((List.mem_append.1 ha).resolve_left hpassed)
  | accepted _ _ _ hrequests =>
    rcases hrequests with rfl | rfl <;>
      simp only [List.mem_append, List.mem_singleton, reduceCtorEq, or_false] at ha hpassed
    all_goals tauto
  | dispatched _ _ _ hrequests =>
    rcases hrequests with rfl | rfl <;>
      simp only [List.mem_append, List.mem_singleton, reduceCtorEq, or_false] at ha hpassed
    all_goals tauto

/-- What a resumed handler preserves of the tracker of its session. -/
theorem ResumeSession.tracker {data : PendingData} {g : ReplayGuard} {pass : Prop}
    {session session' : ClientSession} {out : List ServerOutput} {o : Seq} {n : ℕ}
    {Q S : Seq → Prop} (h : ResumeSession data g pass session session' out)
    (ht : TrackerInv o n Q S session.sequenceTracker) (hn : n ≤ 2 ^ 31) (hSQ : ∀ x, S x → Q x)
    (hs : dist o data.packet.sequence < n) (hacc : ∀ x ∈ Arq.seenOf out, S x)
    (hbase : pass → TakesBaseline session.sequenceTracker data.packet.sequence →
      ∀ q, dist o q < dist o data.packet.sequence → Q q) :
    TrackerInv o n Q S session'.sequenceTracker := by
  cases h with
  | gated hcore => exact tracker_eq_of_core hcore ▸ ht
  | duplicate hpass hres hcore =>
    rw [show session'.sequenceTracker = _ from congrArg (·.2.1) hcore]
    exact ht.processSequence hn hSQ hs (fun hnot => absurd hres hnot) (hbase hpass)
  | accepted hpass _ hcore =>
    rw [show session'.sequenceTracker = _ from congrArg (·.2.1) hcore]
    exact ht.processSequence hn hSQ hs
      (fun _ => hacc _ (Arq.mem_seenOf_accepted
        (List.mem_append_right _ (List.mem_singleton_self _)))) (hbase hpass)
  | dispatched hpass _ hcore =>
    rw [show session'.sequenceTracker = _ from congrArg (·.2.1) hcore]
    exact ht.processSequence hn hSQ hs
      (fun _ => hacc _ (Arq.mem_seenOf_accepted
        (List.mem_append_left _ (List.mem_append_right _ (List.mem_singleton_self _))))) (hbase hpass)

namespace Arq

variable {cfg : ServerConfig} {o : Seq} {s : Arq} {ev : ServerEvent}

/-- A number that is queued only if it has been seen. -/
def Safe (s : Arq) (q : Seq) : Prop := q ∈ s.queue.seqs → q ∈ s.seen

/-- The invariant, given the first number of the client. -/
structure Inv (o : Seq) (s : Arq) : Prop where
  short : s.sent.length ≤ 2 ^ 31
  next : s.sequence = o + BitVec.ofNat 32 s.sent.length
  numbers : ∀ packet ∈ s.sent, dist o packet.sequence < s.sent.length
  queued : ∀ q ∈ s.queue.seqs, dist o q < s.sent.length
  trackers : AllTrackers (TrackerInv o s.sent.length s.Safe (· ∈ s.seen))
    s.server.ctx.clientSessions
  acks : ∀ a ∈ s.acks, Backed o s.sent.length s.Safe a
  last : ∀ l, s.lastAckedSeq = some l → dist o l < s.sent.length
  pending : ∀ data ∈ s.server.pending, dist o data.packet.sequence < s.sent.length

theorem sendPeriodicACK_acknowledges {now : Time} {session : ClientSession} {p : Peer} {a : Seq}
    (h : ServerOutput.ack p a ∈ (sendPeriodicACK cfg session now).2) :
    ∃ e, session.sequenceTracker.expectedSeq = some e ∧ a = e - 1 := by
  rw [sendPeriodicACK] at h
  split at h
  · cases h
  next e he =>
    dsimp only at h
    split_ifs at h
    · cases h
    · cases h
    · simp only [List.mem_singleton, ServerOutput.ack.injEq] at h
      exact ⟨e, he, h.2⟩

/-- What the server puts out, and the sessions it leaves: the trackers are fine, and so are the
acknowledgements. -/
def Served (o : Seq) (n : ℕ) (Q S : Seq → Prop) (m : OrderedMap Peer ClientSession)
    (out : List ServerOutput) : Prop :=
  AllTrackers (TrackerInv o n Q S) m ∧ ∀ p a, ServerOutput.ack p a ∈ out → Backed o n Q a

theorem served_onSession {n : ℕ} {Q S : Seq → Prop} {server : Server} {p : Peer}
    {f : ClientSession → ClientSession × List ServerOutput}
    (h : AllTrackers (TrackerInv o n Q S) server.ctx.clientSessions)
    (hf : ∀ session, server.ctx.clientSessions.get? p = some session →
      TrackerInv o n Q S (f session).1.sequenceTracker ∧
        ∀ p a, ServerOutput.ack p a ∈ (f session).2 → Backed o n Q a) :
    Served o n Q S (server.onSession p f).1.ctx.clientSessions (server.onSession p f).2 := by
  rw [Server.onSession]
  split
  · exact ⟨h, by simp⟩
  next session hs => exact ⟨h.set (hf session hs).1, (hf session hs).2⟩

section Serving

variable {server : Server} {n : ℕ} {Q S : Seq → Prop} {now : Time} {p : Peer}

theorem trackerInv_new (config : SequenceTrackerConfig) : TrackerInv o n Q S (.new config) :=
  trackerInv_idle o _ _ _ rfl rfl rfl

theorem served_hello (hold : AllTrackers (TrackerInv o n Q S) server.ctx.clientSessions)
    (hello : Hello) :
    Served o n Q S (server.step cfg (.hello now p hello)).ctx.clientSessions
      (server.output cfg (.hello now p hello)) := by
  obtain ⟨hk, hs⟩ := hold.opened trackerInv_new cfg now p
  refine ⟨?_, fun q a ha => ?_⟩
  · rcases handleHelloPacket_session cfg server.ctx now p hello with he | ⟨s₁, s', h1, he, hc⟩
    · exact (show (server.step cfg (.hello now p hello)).ctx.clientSessions = _ from he) ▸ hk
    · refine (show (server.step cfg (.hello now p hello)).ctx.clientSessions = _ from he) ▸
        hk.set ?_
      rcases hc with hc | hc
      · exact tracker_eq_of_core hc ▸ hs s₁ h1
      · rw [show s'.sequenceTracker = _ from congrArg (·.2.1) hc]
        exact trackerInv_idle o _ _ _ rfl rfl rfl
  · rcases handleHelloPacket_requests (show _ ∈ (handleHelloPacket ..).2 from ha) with
      ⟨_, hr⟩ | ⟨_, hr⟩ <;> cases hr

theorem served_arrive (hold : AllTrackers (TrackerInv o n Q S) server.ctx.clientSessions)
    (packet : DataPacket) :
    Served o n Q S (server.step cfg (.arrive now p packet)).ctx.clientSessions
      (server.output cfg (.arrive now p packet)) := by
  refine ⟨?_, by simp [Server.output, Server.handle]⟩
  obtain ⟨-, hs, -⟩ := arriveData_cases cfg server.ctx now p packet
  rcases hs with he | ⟨s₁, s', h1, he, hc⟩
  · exact (show (server.step cfg (.arrive now p packet)).ctx.clientSessions = _ from he) ▸ hold
  · exact (show (server.step cfg (.arrive now p packet)).ctx.clientSessions = _ from he) ▸
      hold.set (tracker_eq_of_core hc ▸ hold p s₁ h1)

/-- A resumed handler, where what it accepts counts as seen and a baseline that it takes is
safe. -/
theorem served_resume {index : ℕ} (hold : AllTrackers (TrackerInv o n Q S) server.ctx.clientSessions)
    (hn : n ≤ 2 ^ 31) (hSQ : ∀ x, S x → Q x)
    (hout : ∀ x ∈ seenOf (server.output cfg (.resume now index)), S x)
    (hnumber : ∀ data ∈ server.pending, dist o data.packet.sequence < n)
    (hbase : ∀ data ∈ server.pending[index]?,
      ∀ session ∈ (getOrCreateSession cfg server.ctx now data.peer).2,
        PassesGate server.ctx now data →
          TakesBaseline session.sequenceTracker data.packet.sequence →
            ∀ q, dist o q < dist o data.packet.sequence → Q q) :
    Served o n Q S (server.step cfg (.resume now index)).ctx.clientSessions
      (server.output cfg (.resume now index)) := by
  cases hd : server.pending[index]? with
  | none =>
    have he := Server.handle_resume_none hd cfg now
    rw [Server.step, Server.output, he]
    exact ⟨hold, by simp⟩
  | some data =>
    have he := Server.handle_resume_some hd cfg now
    rw [Server.output, he] at hout
    rw [Server.step, Server.output, he]
    obtain ⟨hk, hs⟩ := hold.opened trackerInv_new cfg now data.peer
    rcases resumeData_session cfg server.ctx now data with
      ⟨-, hm, ho⟩ | ⟨s₁, s', h1, hm, hres⟩
    · dsimp only
      rw [hm, ho]
      exact ⟨hk, by simp⟩
    · have ht := hres.tracker (hs s₁ h1) hn hSQ (hnumber data (List.mem_of_getElem? hd)) hout
        (hbase data hd s₁ h1)
      dsimp only
      rw [hm]
      refine ⟨hk.set ht, fun q a ha => ?_⟩
      obtain ⟨e, hexp, rfl⟩ := hres.acknowledges ha
      exact ht.backed hexp

theorem served_ackTick (hold : AllTrackers (TrackerInv o n Q S) server.ctx.clientSessions) :
    Served o n Q S (server.step cfg (.ackTick now p)).ctx.clientSessions
      (server.output cfg (.ackTick now p)) := by
  refine served_onSession hold fun session hs => ⟨?_, fun p a ha => ?_⟩
  · exact tracker_eq_of_core (core_sendPeriodicACK cfg session now) ▸ hold p session hs
  · obtain ⟨e, he, rfl⟩ := sendPeriodicACK_acknowledges ha
    exact (hold _ session hs).backed he

/-- A number that a NAK timer abandons counts as seen. -/
theorem served_nakTimer {sequence : Seq}
    (hold : AllTrackers (TrackerInv o n Q S) server.ctx.clientSessions)
    (hn : n ≤ 2 ^ 31) (hSQ : ∀ x, S x → Q x)
    (hout : ∀ x ∈ seenOf (server.output cfg (.nakTimer p sequence)), S x) :
    Served o n Q S (server.step cfg (.nakTimer p sequence)).ctx.clientSessions
      (server.output cfg (.nakTimer p sequence)) := by
  refine served_onSession hold fun session hs => ⟨?_, fun p a ha => ?_⟩
  · refine (hold p session hs).nakTimerFired hn hSQ fun habandoned => hout _ ?_
    refine mem_seenOf_abandoned (p := session.key) ?_
    simp only [Server.output, Server.handle, Server.onSession, hs, sessionNakTimer, habandoned,
      if_true]
    exact List.mem_singleton_self _
  · simp only [sessionNakTimer] at ha
    split_ifs at ha
    · simp at ha
    · cases ha

theorem served_nakFlush (hold : AllTrackers (TrackerInv o n Q S) server.ctx.clientSessions) :
    Served o n Q S (server.step cfg (.nakFlush p)).ctx.clientSessions
      (server.output cfg (.nakFlush p)) := by
  refine served_onSession hold fun session hs => ⟨(hold p session hs).nakFlushFired, ?_⟩
  intro q a ha
  obtain ⟨chunk, -, hchunk⟩ := List.mem_map.1 ha
  cases hchunk

theorem served_expire (hold : AllTrackers (TrackerInv o n Q S) server.ctx.clientSessions) :
    Served o n Q S (server.step cfg (.expire now)).ctx.clientSessions
      (server.output cfg (.expire now)) := by
  refine ⟨fun p session hp => ?_, by simp [Server.output, Server.handle]⟩
  have hp' := OrderedMap.get?_filter server.ctx.clientSessions _ p ▸ hp
  exact hold p session (Option.filter_eq_some_iff.1 hp').1

end Serving

/-- **What the server preserves**, for the sets of what is safe and what has been seen after the
step. -/
theorem Inv.served (h : s.Inv o) (hcov : s.Covered cfg ev) :
    Served o s.sent.length (s.serve cfg ev).Safe (· ∈ (s.serve cfg ev).seen)
      (s.server.step cfg ev).ctx.clientSessions (s.server.output cfg ev) := by
  set Q' := (s.serve cfg ev).Safe
  set S' : Seq → Prop := (· ∈ (s.serve cfg ev).seen)
  have hseen : ∀ x ∈ s.seen, S' x := fun x hx => List.mem_append_left _ hx
  have hout : ∀ x ∈ seenOf (s.server.output cfg ev), S' x := fun x hx => List.mem_append_right _ hx
  have hSQ : ∀ x, S' x → Q' x := fun x hx _ => hx
  have hold : AllTrackers (TrackerInv o s.sent.length Q' S') s.server.ctx.clientSessions :=
    fun p session hs => (h.trackers p session hs).mono le_rfl
      (fun q _ hq hmem => hseen q (hq hmem)) hseen
  cases ev with
  | hello => exact served_hello hold _
  | arrive => exact served_arrive hold _
  | resume now index =>
    refine served_resume hold h.short hSQ hout h.pending fun data hd s₁ h1 hpass hbase q hq hmem => ?_
    -- the number lies before the packet's own, on the path from the first number
    refine hseen q (hcov data hd s₁ h1 hpass hbase q hmem ?_)
    have hn := h.pending data (List.mem_of_getElem? hd)
    have hshort := h.short
    rcases dist_from o q data.packet.sequence with ⟨-, hpos⟩ | ⟨hlt, -⟩
    · exact ⟨by omega, by omega⟩
    · omega
  | ackTick => exact served_ackTick hold
  | nakTimer => exact served_nakTimer hold h.short hSQ hout
  | nakFlush => exact served_nakFlush hold
  | expire => exact served_expire hold

theorem Inv.serve (h : s.Inv o) (hcov : s.Covered cfg ev)
    (harrive : ∀ now p packet, ev = .arrive now p packet → packet ∈ s.sent) :
    (s.serve cfg ev).Inv o := by
  obtain ⟨htrackers, hacks⟩ := h.served hcov
  refine ⟨h.short, h.next, h.numbers, h.queued, htrackers, fun a ha => ?_, h.last,
    fun data hdata => ?_⟩
  · rcases List.mem_append.1 ha with ha | ha
    · obtain ⟨hlt, hsafe⟩ := h.acks a ha
      exact ⟨hlt, fun q hq hmem => List.mem_append_left _ (hsafe q hq hmem)⟩
    · obtain ⟨p, hp⟩ := mem_acksOf.1 ha
      exact hacks p a hp
  · rcases mem_pending_step hdata with hold | ⟨now, rfl, -⟩
    · exact h.pending data hold
    · exact h.numbers _ (harrive now data.peer data.packet rfl)

/-! ## What the client preserves -/

/-- A step after which nothing more is queued. -/
theorem Inv.of_queue (h : s.Inv o) {queue : RetransmitQueue DataPacket}
    (hq : ∀ x ∈ queue.seqs, x ∈ s.queue.seqs) {last : Option Seq}
    (hlast : ∀ l, last = some l → dist o l < s.sent.length) :
    Inv o { s with queue := queue, lastAckedSeq := last } where
  short := h.short
  next := h.next
  numbers := h.numbers
  queued x hx := h.queued x (hq x hx)
  trackers p session hs := (h.trackers p session hs).mono le_rfl
    (fun _ _ hsafe hmem => hsafe (hq _ hmem)) fun _ hx => hx
  acks a ha := ⟨(h.acks a ha).1, fun q hle hmem => (h.acks a ha).2 q hle (hq q hmem)⟩
  last := hlast
  pending := h.pending

theorem Inv.receiveACK (h : s.Inv o) {a : Seq} (ha : dist o a < s.sent.length) :
    (s.receiveACK a).Inv o := by
  refine h.of_queue (fun x hx => RetransmitQueue.mem_seqs_acknowledgeRange hx) fun l hl => ?_
  split at hl
  · exact Option.some.inj hl ▸ ha
  next last he =>
    split_ifs at hl
    · exact Option.some.inj hl ▸ ha
    · exact h.last l (he.trans hl)

theorem Inv.sendData (h : s.Inv o) (hshort : s.sent.length < 2 ^ 31) (now : Time)
    (tagEpoch : Option ℕ) (payload : Option (List Delta)) :
    (s.client (.sendData now tagEpoch payload)).Inv o := by
  have hnum : dist o s.sequence = s.sent.length := by
    rw [h.next]
    exact dist_add_ofNat o (by omega)
  have hlen : (s.client (.sendData now tagEpoch payload)).sent.length = s.sent.length + 1 := by
    simp [client]
  -- the number just queued is beyond everything that has been counted
  have hsafe : ∀ q, dist o q < s.sent.length → s.Safe q →
      (s.client (.sendData now tagEpoch payload)).Safe q := by
    intro q hq hs hmem
    rcases RetransmitQueue.mem_seqs_add hmem with rfl | hmem
    · omega
    · exact hs hmem
  refine ⟨by omega, ?_, fun packet hp => ?_, fun q hq => ?_, fun p session hs => ?_,
    fun a ha => ?_, fun l hl => ?_, fun data hdata => ?_⟩
  · rw [hlen, BitVec.ofNat_add, ← BitVec.add_assoc, ← h.next]
    rfl
  · rw [hlen]
    rcases List.mem_append.1 hp with hp | hp
    · exact (h.numbers packet hp).trans (Nat.lt_succ_self _)
    · obtain rfl := List.mem_singleton.1 hp
      dsimp only
      omega
  · rw [hlen]
    rcases RetransmitQueue.mem_seqs_add hq with rfl | hq
    · omega
    · exact (h.queued q hq).trans (Nat.lt_succ_self _)
  · exact (h.trackers p session hs).mono (by omega) hsafe fun _ hx => hx
  · obtain ⟨hlt, hback⟩ := h.acks a ha
    exact ⟨by omega, fun q hq => hsafe q (by omega) (hback q hq)⟩
  · have := h.last l hl
    omega
  · have := h.pending data hdata
    omega

/-- **What the client preserves.** -/
theorem Inv.client {e : ArqEvent} (h : s.Inv o) (he : s.Allowed cfg e) : (s.client e).Inv o := by
  cases e with
  | sendData now tagEpoch payload => exact h.sendData he.2 now tagEpoch payload
  | deliver now source index => exact h
  | atServer ev => exact h
  | receiveAck index =>
    rw [Arq.client]
    split
    next a ha => exact h.receiveACK (h.acks a (List.mem_of_getElem? ha)).1
    · exact h
  | receiveNak now missing =>
    exact h.of_queue (fun x hx => RetransmitQueue.mem_seqs_retransmit hx) h.last
  | recoveryBurst now size interval =>
    exact h.of_queue (fun x hx => RetransmitQueue.mem_seqs_retransmit hx) h.last
  | prune now maxAge => exact h.of_queue (fun x hx => RetransmitQueue.mem_seqs_expireOld hx) h.last
  | forceDrain =>
    refine h.of_queue (fun x hx => absurd hx ?_) h.last
    simp [RetransmitQueue.clear, RetransmitQueue.seqs]

theorem Inv.step {e : ArqEvent} (h : s.Inv o) (he : s.Allowed cfg e) : (s.step cfg e).Inv o := by
  rw [Arq.step]
  split
  next sev hsev =>
    refine h.serve (he.1 sev hsev) ?_
    rintro now p packet rfl
    cases e with
    | deliver now' source index =>
      obtain ⟨packet', hp, heq⟩ := Option.map_eq_some_iff.1 hsev
      cases heq
      exact List.mem_of_getElem? hp
    | atServer ev => cases ev <;> cases hsev
    | _ => cases hsev
  · exact h.client he

theorem inv_new (o : Seq) : (Arq.new o).Inv o where
  short := by simp [Arq.new]
  next := by simp [Arq.new]
  numbers := by simp [Arq.new]
  queued := by simp [Arq.new, RetransmitQueue.new, RetransmitQueue.seqs]
  trackers := by simp [Arq.new, Server.new, createServerContext, AllTrackers]
  acks := by simp [Arq.new]
  last := by simp [Arq.new]
  pending := by simp [Arq.new, Server.new]

/-- **No acknowledgement releases a packet that the server never saw**, along every run in which a
tracker that takes a new baseline leaves nothing unseen behind it, and at most `2 ^ 31` packets are
built. -/
theorem released_seen (cfg : ServerConfig) (initialSequence : Seq) (es : List ArqEvent)
    (h : Along (Arq.step cfg) (Arq.Allowed cfg) (Arq.new initialSequence) es) :
    Along (Arq.step cfg) (Arq.ReleasesSeen cfg) (Arq.new initialSequence) es := by
  refine Along.of_invariant (fun s e hs he => ⟨?_, hs.step he⟩) (inv_new initialSequence) h
  cases e with
  | receiveAck index =>
    intro q hq hremoved
    simp only [Arq.step, serverEvent, Arq.client] at hremoved
    split at hremoved
    next a ha =>
      obtain ⟨-, hback⟩ := hs.acks a (List.mem_of_getElem? ha)
      have hshort := hs.short
      exact hback q (RetransmitQueue.acknowledged_dist
        (fun x hx => (hs.queued x hx).trans_le hshort)
        (fun l hl => (hs.last l hl).trans_le hshort) hq hremoved) hq
    · exact absurd hq hremoved
  | _ => trivial

/-- Two packets that arrive in order, and the acknowledgement of both. -/
theorem released_seen_in_order :
    let p : Peer := ⟨"10.0.0.1", 4446⟩
    Along (Arq.step {}) (Arq.ReleasesSeen {}) (Arq.new 100)
      [.sendData 0 none (some []), .sendData 1 none (some []), .deliver 2 p 0,
        .atServer (.resume 3 0), .deliver 4 p 1, .atServer (.resume 5 0),
        .atServer (.ackTick 6 p), .receiveAck 0] :=
  released_seen {} 100 _ (by decide +kernel)

/-- The first packet is lost and the second arrives: the tracker starts at the second, and its
acknowledgement releases the first. -/
theorem first_packet_lost :
    let p : Peer := ⟨"10.0.0.1", 4446⟩
    ¬ Along (Arq.step {}) (Arq.ReleasesSeen {}) (Arq.new 100)
      [.sendData 0 none (some []), .sendData 1 none (some []), .deliver 2 p 1,
        .atServer (.resume 3 0), .atServer (.ackTick 4 p), .receiveAck 0] := by
  decide +kernel

end Arq

end EdgeLink
