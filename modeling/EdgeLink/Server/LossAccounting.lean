import EdgeLink.Client.RetransmitAge
import EdgeLink.Reliability.TrackerRuns
import EdgeLink.Server.ReplayProtection

/-!
# Loss accounting

The loss window of a session (`updateLossWindow`, the restart of a session by a HELLO) and its
evaluation by `aggregatePacketLoss` of `reliable-server/metrics-publish.ts`. The window counts what
has passed the sequence tracker since the number it counts from, its base; the span from there to
the highest number is what the server expects to have received.

A run is one of the whole server, with the periodic evaluation of the windows, and with the numbers
that each session has dispatched since its base was set (`LossAccounts`).

* `Accounted` is the invariant of a session: tracker and loss window describe the same numbers.
* `Accounted.accept`, `Accounted.nakTimer`: what an accepted number and a fired timer preserve.
* `received_le_expected`: along every run, the window counts exactly the numbers dispatched, all of
  them in its span.
-/

namespace EdgeLink

open Serial

/-! ## The evaluation of the windows -/

/-- The numbers that a session expects to have received: the span of its window. -/
def ClientSession.totalExpected (session : ClientSession) : ℕ :=
  match session.lossBaseSeq, session.lossHighestSeq with
  | some base, some highest => (dist base highest + 1) % 2 ^ 32
  | _, _ => 0

/-- The session's part of the period starts afresh. -/
def advanceLossBaseline (session : ClientSession) : ClientSession :=
  if session.lossBaseSeq = none then session
  else
    { session with
      lastLossExpected := session.totalExpected
      lastLossReceived := session.lossReceivedCount }

/-- The packet loss of the period over all sessions, given the last one known. -/
def aggregatePacketLoss (ctx : ServerContext) (packetLoss : ℚ) : ServerContext × ℚ :=
  let sessions := ctx.clientSessions.values.filter fun session =>
    session.lossBaseSeq.isSome && session.lossHighestSeq.isSome
  let aggPeriodExpected :=
    (sessions.map fun session => session.totalExpected - session.lastLossExpected).sum
  let aggPeriodReceived :=
    (sessions.map fun session => session.lossReceivedCount - session.lastLossReceived).sum
  let packetLoss :=
    if 0 < aggPeriodExpected then
      max 0 (roundFinite (((aggPeriodExpected : ℚ) - aggPeriodReceived) / aggPeriodExpected))
    else packetLoss
  ({ ctx with clientSessions := ctx.clientSessions.mapVal fun _ => advanceLossBaseline }, packetLoss)

/-! ## Runs -/

/-- A server, the packet loss it has published last, and the numbers that each peer's session has
dispatched since its base was set: one for every packet handed to its payload. -/
structure LossAccounts where
  server : Server
  packetLoss : ℚ
  dispatched : Peer → List Seq

inductive LossEvent where
  | server (ev : ServerEvent)
  /-- the metrics are published -/
  | publish

/-- A dispatched packet sets the base of its session: there is none, or the tracker resyncs. -/
def setsBase (ctx : ServerContext) (data : PendingData) : Bool :=
  match ctx.clientSessions.get? data.peer with
  | none => true
  | some session => session.lossBaseSeq.isNone ||
      (session.sequenceTracker.processSequence data.packet.sequence).2.resynced

/-- How far a session has come from its base when `s` arrives, over the number it expects. -/
def ClientSession.advance (session : ClientSession) (s : Seq) : ℕ :=
  match session.lossBaseSeq, session.sequenceTracker.expectedSeq with
  | some base, some expectedSeq => dist base expectedSeq + dist expectedSeq s
  | _, _ => 0

namespace LossAccounts

def new : LossAccounts := ⟨Server.new, 0, fun _ => []⟩

/-- Note a dispatched packet. -/
def note (ctx : ServerContext) (dispatched : Peer → List Seq) (data : PendingData) :
    Peer → List Seq :=
  Function.update dispatched data.peer
    (if setsBase ctx data then [data.packet.sequence]
    else dispatched data.peer ++ [data.packet.sequence])

def step (cfg : ServerConfig) (a : LossAccounts) : LossEvent → LossAccounts
  | .server ev =>
    { a with
      server := a.server.step cfg ev
      dispatched := (acceptedData (a.server.output cfg ev)).foldl (note a.server.ctx) a.dispatched }
  | .publish =>
    let r := aggregatePacketLoss a.server.ctx a.packetLoss
    { a with server := { a.server with ctx := r.1 }, packetLoss := r.2 }

/-- A session has come less than half the number space from its base. -/
def WithinHalf (cfg : ServerConfig) (a : LossAccounts) : LossEvent → Prop
  | .server ev => ∀ data ∈ acceptedData (a.server.output cfg ev),
      setsBase a.server.ctx data = false →
        ∀ session ∈ a.server.ctx.clientSessions.get? data.peer,
          session.advance data.packet.sequence < 2 ^ 31
  | .publish => True

instance (cfg : ServerConfig) (a : LossAccounts) (ev : LossEvent) :
    Decidable (a.WithinHalf cfg ev) := by
  cases ev <;> unfold WithinHalf <;> infer_instance

end LossAccounts

/-! ## The invariant of a session -/

/-- The position `m` is the last one of a log that is settled, and it is accepted. -/
structure LastAccepted (l : TrackerLog) (m : ℕ) : Prop where
  mem : m ∈ l.accepted
  le : ∀ p ∈ l.accepted ++ l.abandoned, p ≤ m

/-- **The invariant of a session**, given what it has dispatched since its base was set: neither
tracker nor window has a base, or both have the same one, and the window counts what the tracker
has accepted. -/
inductive Accounted (session : ClientSession) (dispatched : List Seq) : Prop
  | idle (hidle : (TrackerLog.fresh session.sequenceTracker).Idle)
      (hbase : session.lossBaseSeq = none)
  | live {l : TrackerLog} {e : Seq} {m : ℕ} (htracker : l.tracker = session.sequenceTracker)
      (hlive : l.Live e) (hlast : LastAccepted l m) (hhalf : m < 2 ^ 31)
      (hbase : session.lossBaseSeq = some l.baseline)
      (hhighest : session.lossHighestSeq = some (l.number m))
      (hcount : session.lossReceivedCount = l.accepted.length)
      (hdispatched : dispatched = l.accepted.map l.number)

/-! ## Positions -/

section Positions

variable {l : TrackerLog} {e s : Seq} {m p q : ℕ}

theorem dist_baseline_number (h : p < 2 ^ 32) : dist l.baseline (l.number p) = p :=
  dist_add_ofNat _ h

/-- Numbers less than half the space from the baseline are ordered as their positions are. -/
theorem isAhead_number (hp : p < 2 ^ 31) (hq : q < 2 ^ 31) :
    isAhead (l.number p) (l.number q) ↔ q < p := by
  have hbp := dist_baseline_number (l := l) (p := p) (by omega)
  have hbq := dist_baseline_number (l := l) (p := q) (by omega)
  unfold isAhead
  rcases dist_from l.baseline (l.number q) (l.number p) with ⟨hle, heq⟩ | ⟨hlt, heq⟩ <;> omega

/-- The number that the tracker expects is at most one beyond the last accepted one. -/
theorem LastAccepted.advanced_le (h : l.Live e) (hlast : LastAccepted l m) : l.advanced ≤ m + 1 := by
  by_contra hlt
  have hsettled : m + 1 ∈ l.Settled := h.tracks.settled (by omega)
  have := hlast.le (m + 1) hsettled
  omega

/-- One more position is accepted. -/
theorem LastAccepted.append {l' : TrackerLog} (hlast : LastAccepted l m)
    (haccepted : l'.accepted = l.accepted ++ [p]) (habandoned : l'.abandoned = l.abandoned) :
    LastAccepted l' (max m p) where
  mem := by
    rw [haccepted]
    rcases max_choice m p with h | h <;> rw [h]
    · exact List.mem_append_left _ hlast.mem
    · exact List.mem_append_right _ (List.mem_singleton_self p)
  le r hr := by
    rw [haccepted, habandoned] at hr
    have hcases : r ∈ l.accepted ++ l.abandoned ∨ r = p := by
      simp only [List.mem_append, List.mem_singleton] at hr ⊢
      tauto
    rcases hcases with hr | rfl
    · exact (hlast.le r hr).trans (le_max_left m p)
    · exact le_max_right m r

/-- A gap lies before the last accepted position. -/
theorem LastAccepted.le_of_gap (hlast : LastAccepted l m) (h : Gap l.Settled p) : p ≤ m := by
  obtain ⟨-, r, hr, hlt⟩ := h
  exact hlt.le.trans (hlast.le r hr)

/-- An arrival that is not accepted, or accepted near enough, is no half turn away. -/
theorem TrackerLog.Live.nearExpected (h : l.Live e)
    (hacc : ¬ TrackerLog.Drops l.tracker s → ¬ l.Rebaselines (.arrives s) → dist e s < 2 ^ 31) :
    l.NearExpected (.arrives s) := by
  have hexp := h.tracks.window.expected
  have hsane := h.tracks.sane
  intro e' he' hhalf
  obtain rfl : e = e' := Option.some.inj (hexp.symm.trans he')
  have hback : dist s e = 2 ^ 31 := by
    have := dist_add_dist_comm (a := e) (b := s) (fun h => by simp [h] at hhalf)
    omega
  rcases SequenceTracker.processSequence_cases hexp s with
    ⟨hs, -⟩ | ⟨-, hfar, -⟩ | ⟨-, hb, -, -⟩ | ⟨-, rfl, -⟩ | ⟨-, ha, -, -⟩ | ⟨-, -, heq⟩
  · have hnear := h.tracks.window.near s hs
    unfold SequenceTrackerConfig.reach at hnear
    omega
  · rcases hfar with ⟨hb, -⟩ | ⟨ha, -⟩
    · exact absurd hb.2 (by omega)
    · exact absurd ha.2 (by omega)
  · exact absurd hb.2 (by omega)
  · simp at hhalf
  · exact absurd ha.2 (by omega)
  · have hdrop : ¬ TrackerLog.Drops l.tracker s := by simp [TrackerLog.Drops, heq]
    have := hacc hdrop (TrackerLog.not_rebaselines hexp heq rfl)
    omega

end Positions

/-! ## What a session preserves -/

/-- What the accounting reads of a session. -/
def ClientSession.account (session : ClientSession) :
    SequenceTracker × Option Seq × Option Seq × ℕ :=
  (session.sequenceTracker, session.lossBaseSeq, session.lossHighestSeq, session.lossReceivedCount)

section Accounted

variable {session session' : ClientSession} {dispatched : List Seq} {s : Seq}

theorem Accounted.congr (h : Accounted session dispatched) (heq : session'.account = session.account) :
    Accounted session' dispatched := by
  obtain ⟨htracker, hbase, hhighest, hcount⟩ : session'.sequenceTracker = session.sequenceTracker ∧
      session'.lossBaseSeq = session.lossBaseSeq ∧ session'.lossHighestSeq = session.lossHighestSeq ∧
      session'.lossReceivedCount = session.lossReceivedCount := by
    simpa [ClientSession.account] using heq
  cases h with
  | idle hidle hnone => exact .idle (htracker ▸ hidle) (hbase.trans hnone)
  | live ht hlive hlast hhalf hb hh hc hd =>
    exact .live (ht.trans htracker.symm) hlive hlast hhalf (hbase.trans hb) (hhighest.trans hh)
      (hcount.trans hc) hd

/-- A session that has just been opened. -/
theorem accounted_newSession (cfg : ServerConfig) (now : Time) (p : Peer) (dispatched : List Seq) :
    Accounted (newSession cfg now p) dispatched := by
  have hidle : (TrackerLog.fresh (newSession cfg now p).sequenceTracker).Idle :=
    ⟨sane_of_defaults cfg.maxNakRounds, rfl, rfl, rfl, rfl, rfl, rfl⟩
  exact .idle hidle rfl

theorem Accounted.sane (h : Accounted session dispatched) :
    session.sequenceTracker.config.Sane := by
  cases h with
  | idle hidle => exact hidle.sane
  | live ht hlive => exact ht ▸ hlive.tracks.sane

/-- A session after a HELLO with a higher epoch. -/
theorem Accounted.restart (h : Accounted session dispatched) :
    Accounted (restartSession session) dispatched :=
  .idle (TrackerLog.idle_reset h.sane) rfl

/-- The tracker takes `s` as its baseline, and the window as its base. -/
theorem accounted_opened {t : SequenceTracker} (htracker : session.sequenceTracker = t)
    {e : Seq} (hlive : (TrackerLog.opened t s).Live e) (hbase : session.lossBaseSeq = some s)
    (hhighest : session.lossHighestSeq = some s) (hcount : session.lossReceivedCount = 1) :
    Accounted session [s] := by
  have hzero : (TrackerLog.opened t s).number 0 = s := by simp [TrackerLog.number, TrackerLog.opened]
  have hlast : LastAccepted (TrackerLog.opened t s) 0 := ⟨List.mem_singleton_self 0, by
    simp [TrackerLog.opened]⟩
  refine .live htracker.symm hlive hlast (by omega) hbase (by rw [hzero, hhighest]) hcount ?_
  show [s] = [(TrackerLog.opened t s).number 0]
  rw [hzero]

theorem tracker_step_arrives (l : TrackerLog) (s : Seq) :
    (l.step (.arrives s)).tracker = (l.tracker.processSequence s).1 := by
  rw [TrackerLog.step]
  split_ifs <;> rfl

/-- A fired NAK timer settles no position after the last one accepted. -/
theorem Accounted.nakTimer (h : Accounted session dispatched) (q : Seq) :
    Accounted { session with sequenceTracker := (session.sequenceTracker.nakTimerFired q).1 }
      dispatched := by
  cases h with
  | idle hidle hnone =>
    refine .idle ?_ hnone
    obtain ⟨s, hev, -⟩ | ⟨-, hi⟩ := hidle.step (.nakTimer q)
    · nomatch hev
    · exact hi.log ▸ hi
  | @live l e m ht hlive hlast hhalf hb hh hc hd =>
    rw [← ht]
    have hdom : l.NearExpected (.nakTimer q) := trivial
    obtain ⟨hev, -⟩ | ⟨⟨e', hlive'⟩, -⟩ := hlive.outcome (hlive.step_outcome hdom)
    · nomatch hev
    refine .live (l := l.step (.nakTimer q)) rfl hlive' ⟨hlast.mem, fun p hp => ?_⟩ hhalf hb hh hc hd
    obtain hp | hp := List.mem_append.1 hp
    · exact hlast.le p (List.mem_append_left _ hp)
    -- the number given up was missing before one that has arrived
    have habandoned : p ∈ (if (l.tracker.nakTimerFired q).2 then l.abandoned ++ [l.position q]
        else l.abandoned) := hp
    split_ifs at habandoned with hgave
    · obtain hp | hp := List.mem_append.1 habandoned
      · exact hlast.le p (List.mem_append_right _ hp)
      · have hq : q ∈ l.tracker.nakTimers := by
          by_contra hq
          simp [SequenceTracker.nakTimerFired, hq] at hgave
        rw [List.mem_singleton.1 hp]
        exact hlast.le_of_gap (hlive.timer_iff.1 hq)
    · exact hlast.le p (List.mem_append_right _ habandoned)

theorem Accounted.nakFlush (h : Accounted session dispatched) :
    Accounted { session with sequenceTracker := session.sequenceTracker.nakFlushFired.1 }
      dispatched := by
  cases h with
  | idle hidle hnone =>
    refine .idle ?_ hnone
    obtain ⟨s, hev, -⟩ | ⟨-, hi⟩ := hidle.step .nakFlush
    · nomatch hev
    · exact hi.log ▸ hi
  | @live l e m ht hlive hlast hhalf hb hh hc hd =>
    rw [← ht]
    have hdom : l.NearExpected .nakFlush := trivial
    obtain ⟨hev, -⟩ | ⟨⟨e', hlive'⟩, -⟩ := hlive.outcome (hlive.step_outcome hdom)
    · nomatch hev
    exact .live (l := l.step .nakFlush) rfl hlive' ⟨hlast.mem, hlast.le⟩ hhalf hb hh hc hd

/-- A duplicate or a late arrival is neither dispatched nor counted. -/
theorem Accounted.drop (h : Accounted session dispatched)
    (hdrop : TrackerLog.Drops session.sequenceTracker s) :
    Accounted { session with sequenceTracker := (session.sequenceTracker.processSequence s).1 }
      dispatched := by
  cases h with
  | idle hidle hnone =>
    have hexp : session.sequenceTracker.expectedSeq = none := hidle.expected
    rw [TrackerLog.Drops, SequenceTracker.processSequence_first hexp] at hdrop
    simp at hdrop
  | @live l e m ht hlive hlast hhalf hb hh hc hd =>
    rw [← ht] at hdrop ⊢
    have hdom : l.NearExpected (.arrives s) := hlive.nearExpected fun hnot => absurd hdrop hnot
    have ho := hlive.step_outcome hdom
    have htracker := tracker_step_arrives l s
    obtain ⟨hev, -⟩ | ⟨⟨e', hlive'⟩, -⟩ := hlive.outcome ho
    · cases hev
    generalize l.step (.arrives s) = l' at ho htracker hlive'
    cases ho with
    | duplicate => exact .live htracker hlive' hlast hhalf hb hh hc hd
    | late => exact .live htracker hlive' ⟨hlast.mem, hlast.le⟩ hhalf hb hh hc hd
    | resynced _ _ _ hnot => exact absurd hdrop hnot
    | accepted _ _ hnot => exact absurd hdrop hnot

/-- While the tracker has a base, its expected number is `advanced` positions from the base of the
window. -/
theorem advance_eq {l : TrackerLog} {e : Seq} {m : ℕ} (ht : l.tracker = session.sequenceTracker)
    (hlive : l.Live e) (hlast : LastAccepted l m) (hhalf : m < 2 ^ 31)
    (hb : session.lossBaseSeq = some l.baseline) (s : Seq) : session.advance s = l.position s := by
  have hadvanced := hlast.advanced_le hlive
  have hexp : session.sequenceTracker.expectedSeq = some e := ht ▸ hlive.tracks.window.expected
  have hbase : dist l.baseline e = l.advanced := by
    rw [hlive.number]
    exact dist_baseline_number (by omega)
  simp only [ClientSession.advance, hb, hexp]
  rw [hbase, TrackerLog.position_eq hlive.number]

/-- **What a dispatched packet preserves**, as long as the session has come less than half the
number space. -/
theorem Accounted.accept (h : Accounted session dispatched)
    (hnot : ¬ TrackerLog.Drops session.sequenceTracker s)
    (hhalf : session.lossBaseSeq.isNone = false →
      (session.sequenceTracker.processSequence s).2.resynced = false →
        session.advance s < 2 ^ 31)
    (haccount : session'.account = ((session.sequenceTracker.processSequence s).1,
      (updateLossWindow session s (session.sequenceTracker.processSequence s).2.resynced).account.2)) :
    Accounted session' (if session.lossBaseSeq.isNone ||
        (session.sequenceTracker.processSequence s).2.resynced then [s] else dispatched ++ [s]) := by
  obtain ⟨htracker, hloss⟩ := Prod.ext_iff.1 haccount
  cases h with
  | idle hidle hnone =>
    rw [hnone, Option.isNone_none, Bool.true_or, if_pos rfl]
    rw [updateLossWindow, if_pos (Or.inr hnone)] at hloss
    obtain ⟨s', hev, hstep, hlive⟩ | ⟨hev, -⟩ := hidle.step (.arrives s)
    · obtain rfl : s = s' := by cases hev; rfl
      obtain ⟨hbase, hhighest, hcount⟩ := by simpa [ClientSession.account] using hloss
      exact accounted_opened htracker (hstep ▸ hlive) hbase hhighest hcount
    · exact absurd rfl (hev s)
  | @live l e m ht hlive hlast hm hb hh hc hd =>
    have hadvance := advance_eq ht hlive hlast hm hb s
    have hposition := TrackerLog.position_eq hlive.number s
    rw [← ht] at hnot hhalf htracker hloss ⊢
    have hdom : l.NearExpected (.arrives s) := hlive.nearExpected fun _ hre => by
      have := hhalf (by simp [hb]) (Bool.eq_false_iff.2 fun h => hre (Or.inr h))
      omega
    obtain ⟨hev, -⟩ | ⟨⟨e', hlive'⟩, -⟩ := hlive.outcome (hlive.step_outcome hdom)
    · nomatch hev
    rw [hb, Option.isNone_some, Bool.false_or]
    by_cases hre : (l.tracker.processSequence s).2.resynced = true
    · -- tracker and window both start again at `s`
      rw [if_pos hre]
      rw [updateLossWindow, if_pos (Or.inl hre)] at hloss
      have hstep : l.step (.arrives s) = TrackerLog.opened (l.tracker.processSequence s).1 s :=
        if_pos (Or.inr hre)
      obtain ⟨hbase, hhighest, hcount⟩ := by simpa [ClientSession.account] using hloss
      exact accounted_opened htracker (hstep ▸ hlive') hbase hhighest hcount
    · have hexp : l.tracker.expectedSeq ≠ none := by simp [hlive.tracks.window.expected]
      have hkeeps : ¬ l.Rebaselines (.arrives s) := fun h => h.elim hexp hre
      have hstep : l.step (.arrives s) = { l.moved (l.tracker.processSequence s).1 with
          accepted := l.accepted ++ [l.position s] } := by
        rw [TrackerLog.step, if_neg hkeeps, if_neg hnot]
      have hp : l.position s < 2 ^ 31 := by
        have := hhalf (by simp [hb]) (Bool.eq_false_iff.2 hre)
        omega
      have hahead : isAhead s (l.number m) ↔ m < l.position s := by
        have := isAhead_number (l := l) hp hm
        rwa [l.number_position] at this
      rw [if_neg hre]
      rw [updateLossWindow, if_neg (by simp [hre, hb])] at hloss
      obtain ⟨hbase, hhighest, hcount⟩ := by simpa [ClientSession.account] using hloss
      simp only [hh, Option.getD_some, hahead] at hhighest
      rw [hstep] at hlive'
      refine .live htracker.symm hlive' (hlast.append rfl rfl) (max_lt hm hp) (hbase.trans hb) ?_ ?_ ?_
      · rw [hhighest]
        split_ifs with hlt
        · rw [max_eq_right hlt.le]
          exact congrArg some (l.number_position s).symm
        · rw [max_eq_left (not_lt.1 hlt)]
          rfl
      · rw [hcount, hc, List.length_append, List.length_singleton]
      · rw [hd, List.map_append, List.map_singleton]
        exact congrArg (l.accepted.map l.number ++ [·]) (l.number_position s).symm

end Accounted

/-! ## What the handlers do to the account of a session -/

section Handlers

variable {cfg : ServerConfig} {ctx : ServerContext} {now : Time} {p : Peer} {data : PendingData}
  {g : ReplayGuard} {s s' : ClientSession}

@[simp] theorem account_ackDuplicate (s : ClientSession) (now : Time) :
    (ackDuplicate s now).1.account = s.account := by
  unfold ackDuplicate
  split <;> rfl

@[simp] theorem account_requestFullStatus (cfg : ServerConfig) (s : ClientSession) :
    (requestFullStatus cfg s).1.account = s.account := by
  unfold requestFullStatus
  split_ifs <;> rfl

@[simp] theorem account_sendPeriodicACK (cfg : ServerConfig) (s : ClientSession) (now : Time) :
    (sendPeriodicACK cfg s now).1.account = s.account := by
  unfold sendPeriodicACK
  split
  · rfl
  · dsimp only
    split_ifs <;> rfl

@[simp] theorem account_primeSessionRequests (cfg : ServerConfig) (s : ClientSession) :
    (primeSessionRequests cfg s).1.account = s.account := by
  rw [primeSessionRequests, account_requestFullStatus]
  rfl

@[simp] theorem account_decodeAndDispatchPayload (ctx : ServerContext) (now : Time)
    (s : ClientSession) (data : PendingData) :
    (decodeAndDispatchPayload ctx now s data).2.1.account = s.account := by
  unfold decodeAndDispatchPayload
  split <;> rfl

@[simp] theorem account_advanceLossBaseline (s : ClientSession) :
    (advanceLossBaseline s).account = s.account := by
  unfold advanceLossBaseline
  split_ifs <;> rfl

/-- The window after a packet depends on the window before it alone. -/
theorem account_updateLossWindow (h : s'.account.2 = s.account.2) (seq : Seq) (resynced : Bool) :
    (updateLossWindow s' seq resynced).account =
      (s'.sequenceTracker, (updateLossWindow s seq resynced).account.2) := by
  obtain ⟨hbase, hhighest, hcount⟩ : s'.lossBaseSeq = s.lossBaseSeq ∧
      s'.lossHighestSeq = s.lossHighestSeq ∧ s'.lossReceivedCount = s.lossReceivedCount := by
    simpa [ClientSession.account] using h
  by_cases hset : resynced = true ∨ s.lossBaseSeq = none
  · rw [updateLossWindow, updateLossWindow, hbase, if_pos hset, if_pos hset]
    rfl
  · rw [updateLossWindow, updateLossWindow, hbase, if_neg hset, if_neg hset]
    simp only [ClientSession.account, hhighest, hcount]

/-- A HELLO with a higher epoch restarts the session; no other touches its account. -/
theorem parseHelloInfo_account (ctx : ServerContext) (now : Time) (s : ClientSession)
    (hello : Hello) :
    (parseHelloInfo ctx now s hello).2.account = s.account ∨
      (parseHelloInfo ctx now s hello).2.account = (restartSession s).account := by
  unfold parseHelloInfo
  split
  · split_ifs
    · dsimp only
      split_ifs
      · exact Or.inr rfl
      · exact Or.inl rfl
    · exact Or.inl rfl
  · exact Or.inl rfl

theorem handleHelloPacket_account (cfg : ServerConfig) (ctx : ServerContext) (now : Time)
    (p : Peer) (hello : Hello) :
    let r := getOrCreateSession cfg ctx now p
    let sessions := (handleHelloPacket cfg ctx now p hello).1.clientSessions
    sessions = r.1.clientSessions ∨
      ∃ s s', r.2 = some s ∧ sessions = r.1.clientSessions.set p s' ∧
        (s'.account = s.account ∨ s'.account = (restartSession s).account) := by
  dsimp only
  unfold handleHelloPacket
  dsimp only
  split
  · exact Or.inl rfl
  next s hs =>
    split_ifs
    · exact Or.inl rfl
    · refine Or.inr ⟨s, (primeSessionRequests cfg
        (parseHelloInfo (getOrCreateSession cfg ctx now p).1 now s hello).2).1, hs, ?_, ?_⟩
      · simp [setSession]
      · rw [account_primeSessionRequests]
        exact parseHelloInfo_account _ now s hello

theorem arriveData_account (cfg : ServerConfig) (ctx : ServerContext) (now : Time) (p : Peer)
    (packet : DataPacket) :
    (arriveData cfg ctx now p packet).1.clientSessions = ctx.clientSessions ∨
      ∃ s s', ctx.clientSessions.get? p = some s ∧
        (arriveData cfg ctx now p packet).1.clientSessions = ctx.clientSessions.set p s' ∧
          s'.account = s.account := by
  unfold arriveData dataRateLimited
  dsimp only
  split_ifs
  all_goals try exact Or.inl rfl
  all_goals
    split
    next s hs =>
      refine Or.inr ⟨s, _, hs, rfl, ?_⟩
      dsimp only [ClientSession.account]
      split_ifs <;> rfl
    next => exact Or.inl rfl

theorem acceptedData_of_data? {out : List ServerOutput} (h : ∀ o ∈ out, o.data? = none) :
    acceptedData out = [] := by
  refine List.filterMap_eq_nil_iff.2 fun o ho => Option.eq_none_iff_forall_ne_some.2 fun data hd => ?_
  obtain ⟨epoch, hdata⟩ := ServerOutput.data?_of_accepted? hd
  rw [h o ho] at hdata
  cases hdata

theorem acceptedData_of_silent {out : List ServerOutput} (h : ∀ o ∈ out, o.Silent data g) :
    acceptedData out = [] :=
  List.filterMap_eq_nil_iff.2 fun o ho => (h o ho).accepted

/-- How a resumed handler for `data` takes the session of its peer from `s` to `s'`, with what it
has dispatched. -/
inductive ResumeAccount (data : PendingData) (s s' : ClientSession) : List PendingData → Prop
  | gated (haccount : s'.account = s.account) : ResumeAccount data s s' []
  | dropped (hdrop : TrackerLog.Drops s.sequenceTracker data.packet.sequence)
      (haccount : s'.account = ((s.sequenceTracker.processSequence data.packet.sequence).1,
        s.account.2)) : ResumeAccount data s s' []
  | dispatched (hnot : ¬ TrackerLog.Drops s.sequenceTracker data.packet.sequence)
      (haccount : s'.account = ((s.sequenceTracker.processSequence data.packet.sequence).1,
        (updateLossWindow s data.packet.sequence
          (s.sequenceTracker.processSequence data.packet.sequence).2.resynced).account.2)) :
      ResumeAccount data s s' [data]

theorem ResumeAccount.congr {s₁ s₁' : ClientSession} {accepted : List PendingData}
    (h : ResumeAccount data s s' accepted) (hs : s.account = s₁.account)
    (hs' : s₁'.account = s'.account) : ResumeAccount data s₁ s₁' accepted := by
  have htracker : s.sequenceTracker = s₁.sequenceTracker := congrArg (·.1) hs
  have hloss : s.account.2 = s₁.account.2 := congrArg (·.2) hs
  cases h with
  | gated h => exact .gated (hs'.trans (h.trans hs))
  | dropped hdrop h => exact .dropped (htracker ▸ hdrop) (htracker ▸ hloss ▸ hs'.trans h)
  | dispatched hnot h =>
    refine .dispatched (htracker ▸ hnot) (hs'.trans (h.trans ?_))
    rw [htracker, account_updateLossWindow hloss]

theorem trackDataSequence_account (cfg : ServerConfig) (ctx : ServerContext) (now : Time)
    (s : ClientSession) (data : PendingData) :
    let res := trackDataSequence cfg ctx now s data
    res.1.clientSessions = ctx.clientSessions ∧
      ResumeAccount data s res.2.1 (acceptedData res.2.2.2) := by
  dsimp only
  obtain ⟨hsessions, hcases⟩ := trackDataSequence_cases cfg ctx now s data
  refine ⟨hsessions, ?_⟩
  generalize (getReplayGuard ctx now data.peer).2 = g at hcases
  generalize trackDataSequence cfg ctx now s data = t at hcases
  have hsilent := acceptedData_of_silent (passedOutput_silent data g)
  have happend : ∀ out out' : List ServerOutput,
      acceptedData (out ++ out') = acceptedData out ++ acceptedData out' :=
    fun _ _ => List.filterMap_append
  rcases hcases with ⟨-, hres⟩ | ⟨-, ⟨-, -, hres⟩ | ⟨-, ⟨hdrop, hres⟩ | ⟨hnot, hres⟩⟩⟩ <;> rw [hres]
  · exact .gated rfl
  · rw [acceptedData_of_silent (ackDuplicate_silent s now data g)]
    exact .gated (account_ackDuplicate s now)
  · dsimp only
    rw [happend, hsilent, acceptedData_of_silent (ackDuplicate_silent _ now data g)]
    exact .dropped hdrop (account_ackDuplicate _ now)
  · dsimp only
    rw [happend, happend, hsilent, acceptedData_of_silent (requestFullStatus_silent cfg _ data g)]
    refine .dispatched hnot ?_
    rw [account_updateLossWindow (s := s)]
    · exact congrArg (·, _) (congrArg (·.1) (account_requestFullStatus cfg _))
    · rw [account_requestFullStatus]
      rfl

/-- **What a resumed handler does to the account of a session.** -/
theorem resumeData_account (cfg : ServerConfig) (ctx : ServerContext) (now : Time)
    (data : PendingData) :
    let r := getOrCreateSession cfg ctx now data.peer
    let res := resumeData cfg ctx now data
    (r.2 = none ∧ res.1.clientSessions = r.1.clientSessions ∧ acceptedData res.2 = []) ∨
      ∃ s s', r.2 = some s ∧ res.1.clientSessions = r.1.clientSessions.set data.peer s' ∧
        ResumeAccount data s s' (acceptedData res.2) := by
  dsimp only
  unfold resumeData
  dsimp only
  split
  next hs => exact Or.inl ⟨hs, rfl, rfl⟩
  next s hs =>
    generalize hlimited : (if data.existingDataSession = true then s else
      { s with rateLimitCount := 1, rateLimitWindowStart := now } : ClientSession) = limited
    have haccount : limited.account = s.account := by
      rw [← hlimited]
      split_ifs <;> rfl
    obtain ⟨hsessions, hres⟩ := trackDataSequence_account cfg
      (getOrCreateSession cfg ctx now data.peer).1 now limited data
    generalize trackDataSequence cfg (getOrCreateSession cfg ctx now data.peer).1 now limited
      data = t at hsessions hres
    obtain ⟨ctx', session', passed, out⟩ := t
    dsimp only at hsessions hres ⊢
    split_ifs
    · have hdispatch : acceptedData (decodeAndDispatchPayload ctx' now session' data).2.2 = [] := by
        unfold decodeAndDispatchPayload
        split <;> rfl
      refine Or.inr ⟨s, (decodeAndDispatchPayload ctx' now session' data).2.1, hs, ?_, ?_⟩
      · rw [setSession, (decodeAndDispatchPayload_frame ctx' now session' data).2, hsessions]
      · rw [acceptedData, List.filterMap_append, ← acceptedData, ← acceptedData, hdispatch,
          List.append_nil]
        exact hres.congr haccount (account_decodeAndDispatchPayload ctx' now session' data)
    · refine Or.inr ⟨s, session', hs, ?_, hres.congr haccount rfl⟩
      rw [setSession, hsessions]

end Handlers

/-! ## The table of sessions -/

/-- Every session of the table is accounted for. -/
def Accounts (dispatched : Peer → List Seq) (m : OrderedMap Peer ClientSession) : Prop :=
  ∀ p session, m.get? p = some session → Accounted session (dispatched p)

section Accounts

variable {dispatched : Peer → List Seq} {m : OrderedMap Peer ClientSession} {p : Peer}
  {ctx : ServerContext} {session : ClientSession} {cfg : ServerConfig} {now : Time}

/-- One session is written, with what it has dispatched. -/
theorem Accounts.update {seqs : List Seq} (h : Accounts dispatched m) (hs : Accounted session seqs) :
    Accounts (Function.update dispatched p seqs) (m.set p session) := by
  refine OrderedMap.forall_get?_set (fun q session' hq hget => ?_) ?_
  · rw [Function.update_of_ne hq]
    exact h q session' hget
  · rwa [Function.update_self]

theorem Accounts.set (h : Accounts dispatched m) (hs : Accounted session (dispatched p)) :
    Accounts dispatched (m.set p session) := by
  have := h.update (p := p) hs
  rwa [Function.update_eq_self] at this

theorem Accounts.opened (h : Accounts dispatched ctx.clientSessions) (cfg : ServerConfig)
    (now : Time) (p : Peer) :
    Accounts dispatched (getOrCreateSession cfg ctx now p).1.clientSessions ∧
      ∀ session, (getOrCreateSession cfg ctx now p).2 = some session →
        Accounted session (dispatched p) :=
  forall_getOrCreateSession h (accounted_newSession cfg now p _) fun _ hs => hs.congr rfl

/-- Whether a packet sets the base is decided by the session that the handler finds or opens. -/
theorem setsBase_eq {data : PendingData}
    (hs : (getOrCreateSession cfg ctx now data.peer).2 = some session) :
    setsBase ctx data = (session.lossBaseSeq.isNone ||
      (session.sequenceTracker.processSequence data.packet.sequence).2.resynced) := by
  rcases (get?_getOrCreateSession hs).2 with ⟨hnone, rfl⟩ | ⟨s', hs', rfl⟩
  · simp only [setsBase, hnone]
    rfl
  · simp only [setsBase, hs']

end Accounts

namespace LossAccounts

variable {cfg : ServerConfig} {a : LossAccounts}

/-- **The invariant**: every session is accounted for. -/
def Inv (a : LossAccounts) : Prop := Accounts a.dispatched a.server.ctx.clientSessions

theorem inv_new : new.Inv := fun p session h => by
  simp [new, Server.new, createServerContext] at h

/-- A step of one session that puts out no dispatched packet. -/
theorem Inv.onSession (h : a.Inv) (p : Peer) {f : ClientSession → ClientSession × List ServerOutput}
    (hf : ∀ session seqs, Accounted session seqs → Accounted (f session).1 seqs) :
    Accounts a.dispatched (a.server.onSession p f).1.ctx.clientSessions := by
  unfold Server.onSession
  split
  · exact h
  next session hs => exact h.set (hf session _ (h p session hs))

theorem Inv.resume (h : a.Inv) {now : Time} {index : ℕ}
    (hhalf : a.WithinHalf cfg (.server (.resume now index))) :
    (a.step cfg (.server (.resume now index))).Inv := by
  cases hd : a.server.pending[index]? with
  | none =>
    have he := Server.handle_resume_none hd cfg now
    rw [Inv, step, Server.step, Server.output, he]
    exact h
  | some data =>
    have he := Server.handle_resume_some hd cfg now
    rw [WithinHalf, Server.output, he] at hhalf
    rw [Inv, step, Server.step, Server.output, he]
    obtain ⟨hk, hopen⟩ := h.opened cfg now data.peer
    rcases resumeData_account cfg a.server.ctx now data with
      ⟨-, hm, hout⟩ | ⟨s, s', hs, hm, hres⟩
    · dsimp only
      rw [hm, hout]
      exact hk
    · have hold := hopen s hs
      have hsets := setsBase_eq hs
      dsimp only at hhalf ⊢
      rw [hm]
      generalize acceptedData (resumeData cfg a.server.ctx now data).2 = out at hhalf hres ⊢
      cases hres with
      | gated haccount => exact hk.set (hold.congr haccount)
      | dropped hdrop haccount => exact hk.set ((hold.drop hdrop).congr haccount)
      | dispatched hnot haccount =>
        refine hk.update ?_
        rw [hsets]
        refine hold.accept hnot (fun hbase hre => ?_) haccount
        have hkeeps : setsBase a.server.ctx data = false := by rw [hsets, hbase, hre]; rfl
        rcases (get?_getOrCreateSession hs).2 with ⟨-, rfl⟩ | ⟨s₀, hs₀, rfl⟩
        · cases hbase
        · exact hhalf data (List.mem_singleton_self data) hkeeps s₀ hs₀

/-- **Every step keeps the invariant.** -/
theorem Inv.step (h : a.Inv) (ev : LossEvent) (hhalf : a.WithinHalf cfg ev) :
    (a.step cfg ev).Inv := by
  have silent : ∀ ev, (∀ o ∈ a.server.output cfg ev, o.data? = none) →
      Accounts a.dispatched (a.server.step cfg ev).ctx.clientSessions →
        (a.step cfg (.server ev)).Inv := by
    intro ev hout hm
    rw [Inv, LossAccounts.step, acceptedData_of_data? hout]
    exact hm
  cases ev with
  | publish =>
    intro p session hp
    rw [LossAccounts.step, aggregatePacketLoss] at hp
    dsimp only at hp
    rw [OrderedMap.get?_mapVal] at hp
    obtain ⟨s, hs, rfl⟩ := Option.map_eq_some_iff.1 hp
    exact (h p s hs).congr (account_advanceLossBaseline s)
  | server ev =>
    cases ev with
    | hello now p hello =>
      refine silent _ (handleHelloPacket_data? cfg _ now p hello) ?_
      obtain ⟨hk, hopen⟩ := h.opened cfg now p
      rcases handleHelloPacket_account cfg a.server.ctx now p hello with hm | ⟨s, s', hs, hm, hc⟩
      · exact (show (a.server.step cfg (.hello now p hello)).ctx.clientSessions = _ from hm) ▸ hk
      · refine (show (a.server.step cfg (.hello now p hello)).ctx.clientSessions = _ from hm) ▸
          hk.set ?_
        rcases hc with hc | hc
        · exact (hopen s hs).congr hc
        · exact (hopen s hs).restart.congr hc
    | arrive now p packet =>
      refine silent _ (by simp [Server.output, Server.handle]) ?_
      rcases arriveData_account cfg a.server.ctx now p packet with hm | ⟨s, s', hs, hm, hc⟩
      · exact (show (a.server.step cfg (.arrive now p packet)).ctx.clientSessions = _ from hm) ▸ h
      · exact (show (a.server.step cfg (.arrive now p packet)).ctx.clientSessions = _ from hm) ▸
          h.set ((h p s hs).congr hc)
    | resume now index => exact h.resume hhalf
    | ackTick now p =>
      refine silent _ (onSession_data? (sendPeriodicACK_data? cfg now) p).2 ?_
      exact h.onSession p fun session seqs hs => hs.congr (account_sendPeriodicACK cfg session now)
    | nakTimer p sequence =>
      refine silent _ (onSession_data? (sessionNakTimer_data? sequence) p).2 ?_
      exact h.onSession p fun session seqs hs => hs.nakTimer sequence
    | nakFlush p =>
      refine silent _ (onSession_data? sessionNakFlush_data? p).2 ?_
      exact h.onSession p fun session seqs hs => hs.nakFlush
    | expire now =>
      refine silent _ (by simp [Server.output, Server.handle]) fun p session hp => ?_
      have hp' := OrderedMap.get?_filter a.server.ctx.clientSessions _ p ▸ hp
      exact h p session (Option.filter_eq_some_iff.1 hp').1

end LossAccounts

/-! ## The accounting -/

/-- **The window of a session** that is accounted for: it counts the numbers dispatched, each of
them once and within its span. -/
theorem Accounted.window {session : ClientSession} {dispatched : List Seq} {base : Seq}
    (h : Accounted session dispatched) (hbase : session.lossBaseSeq = some base) :
    ∃ highest, session.lossHighestSeq = some highest ∧
      session.lossReceivedCount = dispatched.toFinset.card ∧
      (∀ s ∈ dispatched, dist base s ≤ dist base highest) ∧
      session.totalExpected = dist base highest + 1 ∧
      session.lossReceivedCount ≤ session.totalExpected := by
  cases h with
  | idle _ hnone => rw [hnone] at hbase; cases hbase
  | @live l e m ht hlive hlast hm hb hh hc hd =>
    obtain rfl : l.baseline = base := Option.some.inj (hb.symm.trans hbase)
    have hle : ∀ p ∈ l.accepted, p ≤ m := fun p hp => hlast.le p (List.mem_append_left _ hp)
    have hnodup : l.accepted.Nodup := (List.nodup_append.1 hlive.nodup).1
    have hdist : ∀ p ∈ l.accepted, dist l.baseline (l.number p) = p := fun p hp =>
      dist_baseline_number (by have := hle p hp; omega)
    have hspan : dist l.baseline (l.number m) = m := hdist m hlast.mem
    have hexpected : session.totalExpected = m + 1 := by
      simp only [ClientSession.totalExpected, hb, hh, hspan]
      exact Nat.mod_eq_of_lt (by omega)
    refine ⟨l.number m, hh, ?_, ?_, by rw [hexpected, hspan], ?_⟩
    · have hinj : (l.accepted.map l.number).Nodup := List.Nodup.map_on
        (fun p hp q hq hpq => by rw [← hdist p hp, ← hdist q hq, hpq]) hnodup
      rw [hd, List.toFinset_card_of_nodup hinj, List.length_map, hc]
    · intro s hs
      rw [hd] at hs
      obtain ⟨p, hp, rfl⟩ := List.mem_map.1 hs
      rw [hdist p hp, hspan]
      exact hle p hp
    · -- distinct positions up to `m`
      have hsubset : l.accepted ⊆ List.range (m + 1) := fun p hp =>
        List.mem_range.2 (Nat.lt_succ_of_le (hle p hp))
      rw [hc, hexpected]
      exact (hnodup.subperm hsubset).length_le.trans_eq List.length_range

namespace LossAccounts

/-- **The loss window counts the distinct packets of its span**: along every run of a server in
which no session comes half the number space from its base, the count of each session with a base
is that of the distinct numbers dispatched since the base was set; they lie between the base and
the highest number, and the count is at most the span that is expected. -/
theorem received_le_expected (cfg : ServerConfig) (es : List LossEvent)
    (hhalf : Along (step cfg) (WithinHalf cfg) new es) (p : Peer) (session : ClientSession)
    (hs : (run (step cfg) new es).server.ctx.clientSessions.get? p = some session) (base : Seq)
    (hbase : session.lossBaseSeq = some base) :
    ∃ highest, session.lossHighestSeq = some highest ∧
      session.lossReceivedCount = ((run (step cfg) new es).dispatched p).toFinset.card ∧
      (∀ s ∈ (run (step cfg) new es).dispatched p, dist base s ≤ dist base highest) ∧
      session.totalExpected = dist base highest + 1 ∧
      session.lossReceivedCount ≤ session.totalExpected := by
  have hinv : (run (step cfg) new es).Inv :=
    Along.invariant (I := Inv) (fun _ ev h hstep => h.step ev hstep) inv_new hhalf
  exact (hinv p session hs).window hbase

/-- A boat behind a cellular link. -/
def lossPeer : Peer := ⟨"198.51.100.4", 40000⟩

/-- A packet arrives and is processed at once. -/
def delivered (sequence : Seq) : List LossEvent :=
  [.server (.arrive 0 lossPeer ⟨0, sequence, none, some []⟩), .server (.resume 0 0)]

/-- Over the wrap of the numbers: a gap, a number that is given up and arrives after all, an
evaluation of the windows, a late packet, a duplicate and a second gap. -/
def wrappedSession : List LossEvent :=
  delivered 0xfffffffe ++ delivered 1 ++ [.server (.nakTimer lossPeer 0xffffffff),
    .server (.nakTimer lossPeer 0xffffffff), .publish] ++ delivered 0 ++ delivered 0xffffffff ++
    delivered 1 ++ delivered 3

def wrappedAccounts : LossAccounts :=
  run (step { authenticatedHeaders := false, maxNakRounds := 1 }) new wrappedSession

theorem received_le_expected_wrap : ∃ session,
    wrappedAccounts.server.ctx.clientSessions.get? lossPeer = some session ∧
    session.lossReceivedCount = (wrappedAccounts.dispatched lossPeer).toFinset.card ∧
    wrappedAccounts.dispatched lossPeer = [0xfffffffe, 1, 0, 3] ∧
    session.lossReceivedCount ≤ session.totalExpected := by
  have hbase : (wrappedAccounts.server.ctx.clientSessions.get? lossPeer).map (·.lossBaseSeq) =
      some (some 0xfffffffe) := by decide +kernel
  obtain ⟨session, hs, hbase⟩ := Option.map_eq_some_iff.1 hbase
  obtain ⟨-, -, hcount, -, -, hle⟩ := received_le_expected _ wrappedSession (by decide +kernel)
    lossPeer session hs _ hbase
  exact ⟨session, hs, hcount, by decide +kernel, hle⟩

end LossAccounts

end EdgeLink
