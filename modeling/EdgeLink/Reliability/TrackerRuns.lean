import EdgeLink.Foundations.Run
import EdgeLink.Reliability.TrackerSteps

/-!
# Runs of the tracker

A tracker in any order of arrivals, timer firings, flushes and resets, with the log of its current
baseline (`TrackerLog`): the positions it has reported as new, those it has given up on, the NAK
batches it has emitted and the timer firings that found their number missing. The log is written
from what the tracker tells its caller and nothing else.

* `Outcome` says once what a step does to tracker and log (`step_outcome`).
* `Live` is the invariant: the tracker represents the settled positions of the log.
* `drops_settled`, `dropped_before_baseline`: which arrivals are dropped although they were never
  delivered.
* `represents_run`: the representation invariant, over every run.
* `settled_once`: a number is new at most once, and never after it was abandoned.
-/

namespace EdgeLink

open Serial SequenceTracker

inductive TrackerEvent
  | arrives (sequence : Seq)
  /-- the NAK timer of a number fires -/
  | nakTimer (sequence : Seq)
  /-- the flush timer fires -/
  | nakFlush
  | reset
  deriving DecidableEq

/-- A tracker with the log of its current baseline; positions count from there. -/
structure TrackerLog where
  tracker : SequenceTracker
  /-- the number the tracker took its baseline from -/
  baseline : Seq
  /-- how many positions `expectedSeq` is beyond the baseline -/
  advanced : ℕ
  /-- the positions of the numbers reported as new, the baseline included -/
  accepted : List ℕ
  /-- the positions `onGapAbandoned` was called for -/
  abandoned : List ℕ
  /-- the batches `onLossDetected` was called with -/
  batches : List (List ℕ)
  /-- the positions whose timer has fired and found them missing, once for every firing -/
  fired : List ℕ
  /-- `abandonedCount` when the baseline was taken -/
  abandonedBefore : ℕ
  deriving DecidableEq

namespace TrackerLog

/-- The log of a tracker without a baseline. -/
def fresh (t : SequenceTracker) : TrackerLog where
  tracker := t
  baseline := 0
  advanced := 0
  accepted := []
  abandoned := []
  batches := []
  fired := []
  abandonedBefore := t.abandonedCount

/-- The log of a new tracker. -/
def new (c : SequenceTrackerConfig) : TrackerLog := fresh (SequenceTracker.new c)

/-- The log of a tracker that has just taken its baseline from `s`. -/
def opened (t : SequenceTracker) (s : Seq) : TrackerLog where
  tracker := t
  baseline := s
  advanced := 1
  accepted := [0]
  abandoned := []
  batches := []
  fired := []
  abandonedBefore := t.abandonedCount

/-- The number at a position. -/
def number (l : TrackerLog) (p : ℕ) : Seq := l.baseline + BitVec.ofNat 32 p

/-- The position of a number, counted on from `expectedSeq`. -/
def position (l : TrackerLog) (x : Seq) : ℕ := l.advanced + dist (l.number l.advanced) x

/-- The positions that are accepted or abandoned. -/
def Settled (l : TrackerLog) : Set ℕ := {p | p ∈ l.accepted ++ l.abandoned}

/-- The log with the tracker after a step and its `expectedSeq`. -/
def moved (l : TrackerLog) (t : SequenceTracker) : TrackerLog :=
  { l with
    tracker := t
    advanced := match t.expectedSeq with
      | some expectedSeq => l.position expectedSeq
      | none => l.advanced }

/-- The step gives the tracker a new baseline, or none. -/
def Rebaselines (l : TrackerLog) : TrackerEvent → Prop
  | .arrives s => l.tracker.expectedSeq = none ∨ (l.tracker.processSequence s).2.resynced
  | .reset => True
  | _ => False

instance (l : TrackerLog) (ev : TrackerEvent) : Decidable (l.Rebaselines ev) := by
  cases ev <;> unfold Rebaselines <;> infer_instance

/-- The verdict on an arrival that makes the caller drop it. -/
def Drops (t : SequenceTracker) (s : Seq) : Prop :=
  (t.processSequence s).2.duplicate ∨ (t.processSequence s).2.lateArrival

instance (t : SequenceTracker) (s : Seq) : Decidable (Drops t s) := by
  unfold Drops
  infer_instance

def step (l : TrackerLog) : TrackerEvent → TrackerLog
  | .arrives s =>
    let t := (l.tracker.processSequence s).1
    if l.Rebaselines (.arrives s) then opened t s
    else if Drops l.tracker s then { l with tracker := t }
    else { l.moved t with accepted := l.accepted ++ [l.position s] }
  | .nakTimer q =>
    let r := l.tracker.nakTimerFired q
    { l.moved r.1 with
      fired := if q ∈ l.tracker.nakTimers ∧ q ∉ l.tracker.receivedSeqs then
        l.fired ++ [l.position q] else l.fired
      abandoned := if r.2 then l.abandoned ++ [l.position q] else l.abandoned }
  | .nakFlush =>
    let r := l.tracker.nakFlushFired
    { l with
      tracker := r.1
      batches := if r.2 = [] then l.batches else l.batches ++ [r.2.map l.position] }
  | .reset => fresh l.tracker.reset

/-- An arrival is less than half the number space away from `expectedSeq`. -/
def NearExpected (l : TrackerLog) : TrackerEvent → Prop
  | .arrives s => ∀ e, l.tracker.expectedSeq = some e → dist e s ≠ 0x80000000
  | _ => True

instance (l : TrackerLog) (ev : TrackerEvent) : Decidable (l.NearExpected ev) := by
  cases ev with
  | arrives s =>
    unfold NearExpected
    exact match l.tracker.expectedSeq with
      | none => isTrue (by simp)
      | some e => decidable_of_iff (dist e s ≠ 0x80000000) (by simp)
  | _ => exact isTrue trivial

/-! ## Positions and numbers -/

section Positions

variable (l : TrackerLog)

@[simp] theorem number_position (x : Seq) : l.number (l.position x) = x := by
  rw [position, number, BitVec.ofNat_add, ← BitVec.add_assoc]
  exact add_ofNat_dist (l.number l.advanced) x

variable {l}

theorem dist_number {p : ℕ} (h : l.advanced ≤ p) (h' : p < l.advanced + 2 ^ 32) :
    dist (l.number l.advanced) (l.number p) = p - l.advanced := by
  have hp : l.number p = l.number l.advanced + BitVec.ofNat 32 (p - l.advanced) := by
    rw [number, number, BitVec.add_assoc, ← BitVec.ofNat_add, Nat.add_sub_cancel' h]
  rw [hp, dist_add_ofNat _ (by omega)]

theorem dist_number_back {p : ℕ} (h : p ≤ l.advanced) (h' : l.advanced < p + 2 ^ 32) :
    dist (l.number p) (l.number l.advanced) = l.advanced - p := by
  have hp : l.number l.advanced = l.number p + BitVec.ofNat 32 (l.advanced - p) := by
    rw [number, number, BitVec.add_assoc, ← BitVec.ofNat_add, Nat.add_sub_cancel' h]
  rw [hp, dist_add_ofNat _ (by omega)]

theorem position_eq {e : Seq} (he : e = l.number l.advanced) (x : Seq) :
    l.position x = l.advanced + dist e x := by
  rw [he]
  rfl

end Positions

/-! ## The invariant -/

/-- The tracker has no baseline: it remembers nothing and has no timer armed. -/
structure Idle (l : TrackerLog) : Prop where
  sane : l.tracker.config.Sane
  expected : l.tracker.expectedSeq = none
  received : l.tracker.receivedSeqs = ∅
  timers : l.tracker.nakTimers = []
  attempts : l.tracker.nakAttempts = .empty
  pending : l.tracker.pendingNAKs = []
  log : l = fresh l.tracker

/-- **The invariant of a tracker with a baseline**: it expects the number `e` at the position the
log has come to, and represents the settled positions, each of which was settled once. -/
structure Live (l : TrackerLog) (e : Seq) : Prop where
  number : e = l.number l.advanced
  tracks : Tracks l.tracker e l.advanced l.Settled
  nodup : (l.accepted ++ l.abandoned).Nodup

/-- The invariant of a tracker. -/
def Inv (l : TrackerLog) : Prop := l.Idle ∨ ∃ e, l.Live e

/-- **What a step does** to the log of a tracker that expects `e`. -/
inductive Outcome (l : TrackerLog) (e : Seq) : TrackerEvent → TrackerLog → Prop
  /-- the number is remembered, and nothing changes -/
  | duplicate {s : Seq} (hs : s ∈ l.tracker.receivedSeqs)
      (hdrop : Drops l.tracker s) : Outcome l e (.arrives s) l
  /-- the number lies behind and is remembered from now on -/
  | late {s : Seq} (hs : s ∉ l.tracker.receivedSeqs) (hb : isBehind s e)
      (hd : dist s e ≤ l.tracker.config.behindResyncThreshold) (hdrop : Drops l.tracker s) :
      Outcome l e (.arrives s) { l with tracker :=
        { l.tracker with receivedSeqs := insert s l.tracker.receivedSeqs } }
  /-- the number is too far away, and becomes the new baseline -/
  | resynced {s : Seq} (hs : s ∉ l.tracker.receivedSeqs)
      (hd : isBehind s e → l.tracker.config.behindResyncThreshold < dist s e)
      (hre : l.Rebaselines (.arrives s)) (hdrop : ¬ Drops l.tracker s) :
      Outcome l e (.arrives s) (opened (l.tracker.resync s) s)
  /-- the number is new, and its position is settled -/
  | accepted {s : Seq} {t : SequenceTracker} (hs : s ∉ l.tracker.receivedSeqs)
      (hd : dist e s ≤ l.tracker.config.maxGapTracking) (hdrop : ¬ Drops l.tracker s)
      (ht : Tracks.Settles l.tracker t e l.advanced l.Settled s)
      (hcount : t.abandonedCount = l.tracker.abandonedCount) :
      Outcome l e (.arrives s) { l.moved t with accepted := l.accepted ++ [l.position s] }
  /-- a timer that is not armed does not fire -/
  | unarmed {q : Seq} (hq : q ∉ l.tracker.nakTimers) : Outcome l e (.nakTimer q) l
  /-- the number has had its rounds, and its position is settled -/
  | gaveUp {q : Seq} {t : SequenceTracker} (hq : q ∈ l.tracker.nakTimers)
      (hatt : l.tracker.config.maxNakRounds ≤ (l.tracker.nakAttempts.get? q).getD 0)
      (ht : Tracks.Settles l.tracker t e l.advanced l.Settled q)
      (hcount : t.abandonedCount = l.tracker.abandonedCount + 1) :
      Outcome l e (.nakTimer q) { l.moved t with
        fired := l.fired ++ [l.position q], abandoned := l.abandoned ++ [l.position q] }
  /-- one more round, and the timer is armed again -/
  | rearmed {q : Seq} (hq : q ∈ l.tracker.nakTimers)
      (hatt : (l.tracker.nakAttempts.get? q).getD 0 < l.tracker.config.maxNakRounds) :
      Outcome l e (.nakTimer q) { l with
        tracker := (Tracks.rearming l.tracker q).scheduleNAK q
        fired := l.fired ++ [l.position q] }
  /-- the pending numbers go out in one batch -/
  | flushed : Outcome l e .nakFlush { l with
      tracker := l.tracker.nakFlushFired.1
      batches := if l.tracker.nakFlushFired.2 = [] then l.batches
        else l.batches ++ [l.tracker.nakFlushFired.2.map l.position] }
  | reset : Outcome l e .reset (fresh l.tracker.reset)

theorem moved_of_expected {l : TrackerLog} {e : Seq} (he : e = l.number l.advanced)
    {t : SequenceTracker} (ht : t.expectedSeq = some e) : l.moved t = { l with tracker := t } := by
  rw [moved, ht]
  dsimp only
  rw [position_eq he, dist_self, Nat.add_zero]

theorem not_rebaselines {l : TrackerLog} {e s : Seq} (he : l.tracker.expectedSeq = some e)
    {r : SequenceTracker × ProcessSequenceResult} (hr : l.tracker.processSequence s = r)
    (hres : r.2.resynced = false) : ¬ l.Rebaselines (.arrives s) := by
  rintro (h | h)
  · rw [he] at h
    exact Option.some_ne_none e h
  · rw [hr, hres] at h
    exact Bool.false_ne_true h

/-- **Every step has one of these outcomes.** -/
theorem Live.step_outcome {l : TrackerLog} {e : Seq} (h : l.Live e) {ev : TrackerEvent}
    (hdom : l.NearExpected ev) : Outcome l e ev (l.step ev) := by
  have hexp := h.tracks.window.expected
  cases ev with
  | arrives s =>
    rcases processSequence_cases hexp s with
      ⟨hs, heq⟩ | ⟨hs, hd, heq⟩ | ⟨hs, hb, hd, heq⟩ | ⟨hs, rfl, heq⟩ | ⟨hs, ha, hd, heq⟩ |
      ⟨hs, hd, heq⟩
    · have hdrop : Drops l.tracker s := Or.inl (by rw [heq])
      have hre := not_rebaselines hexp heq rfl
      have hstep : l.step (.arrives s) = l := by
        rw [step, if_neg hre, if_pos hdrop, heq]
      rw [hstep]
      exact .duplicate hs hdrop
    · have hre : l.Rebaselines (.arrives s) := Or.inr (by rw [heq])
      have hstep : l.step (.arrives s) = opened (l.tracker.resync s) s := by
        rw [step, if_pos hre, heq]
      rw [hstep]
      refine .resynced hs (fun hb => hd.elim And.right fun ha => ?_) hre ?_
      · exact absurd ha.1 (Ahead.not_ahead (isAhead_iff_ahead.1 hb))
      · simp [Drops, heq]
    · have hdrop : Drops l.tracker s := Or.inr (by rw [heq])
      have hre := not_rebaselines hexp heq rfl
      have hstep : l.step (.arrives s) = { l with tracker :=
          { l.tracker with receivedSeqs := insert s l.tracker.receivedSeqs } } := by
        rw [step, if_neg hre, if_pos hdrop, heq, (h.tracks.late hb hd).2]
      rw [hstep]
      exact .late hs hb hd hdrop
    · have hdrop : ¬ Drops l.tracker s := by simp [Drops, heq]
      have hre := not_rebaselines hexp heq rfl
      rw [step, if_neg hre, if_neg hdrop, heq]
      exact .accepted hs (by simp) hdrop h.tracks.inOrder.1 h.tracks.inOrder.2
    · have hdrop : ¬ Drops l.tracker s := by simp [Drops, heq]
      have hre := not_rebaselines hexp heq rfl
      obtain ⟨hset, hcount, -⟩ := h.tracks.ahead (Ahead.ne (isAhead_iff_ahead.1 ha)).symm hd
      rw [step, if_neg hre, if_neg hdrop, heq]
      exact .accepted hs hd hdrop hset hcount
    · exact absurd hd (hdom e hexp)
  | nakTimer q =>
    rcases nakTimerFired_cases l.tracker q with ⟨hq, heq⟩ | ⟨hq, hr, -⟩ | ⟨hq, hr, hatt, heq⟩ |
      ⟨hq, hr, hatt, heq⟩
    · have hstep : l.step (.nakTimer q) = l := by
        simp only [step, heq, moved_of_expected h.number hexp, hq, false_and, if_false,
          Bool.false_eq_true]
      rw [hstep]
      exact .unarmed hq
    · exact absurd hr (h.tracks.not_mem_of_timer hq)
    · have hstep : l.step (.nakTimer q) = { l.moved (abandonSequence { l.tracker with
          nakTimers := l.tracker.nakTimers.filter (· ≠ q) } q) with
          fired := l.fired ++ [l.position q], abandoned := l.abandoned ++ [l.position q] } := by
        simp only [step, heq, hq, hr, not_false_eq_true, and_self, if_true]
      rw [hstep]
      exact .gaveUp hq hatt (h.tracks.gaveUp hq).1 (h.tracks.gaveUp hq).2
    · have hstep : l.step (.nakTimer q) = { l with
          tracker := (Tracks.rearming l.tracker q).scheduleNAK q
          fired := l.fired ++ [l.position q] } := by
        have hexp' : ((Tracks.rearming l.tracker q).scheduleNAK q).expectedSeq = some e :=
          (h.tracks.rearmed hq).1.window.expected
        simp only [step, heq]
        rw [← Tracks.rearming, moved_of_expected h.number hexp']
        simp only [hq, hr, not_false_eq_true, and_self, if_true, Bool.false_eq_true, if_false]
      rw [hstep]
      exact .rearmed hq hatt
  | nakFlush => exact .flushed
  | reset => exact .reset

/-! ## The invariant is kept -/

section Kept

variable {l l' : TrackerLog} {e : Seq} {ev : TrackerEvent}

theorem mem_settled {p : ℕ} : p ∈ l.Settled ↔ p ∈ l.accepted ∨ p ∈ l.abandoned := List.mem_append

theorem Live.received_iff (h : l.Live e) {x : Seq}
    (hx : dist e x ≤ l.tracker.config.maxGapTracking) :
    x ∈ l.tracker.receivedSeqs ↔ l.position x ∈ l.Settled := by
  rw [h.tracks.window.received x hx, position_eq h.number]

theorem Live.timer_iff (h : l.Live e) {x : Seq} :
    x ∈ l.tracker.nakTimers ↔ Gap l.Settled (l.position x) := by
  rw [h.tracks.naks.timers x, position_eq h.number]

/-- Settling one more position keeps the invariant. -/
theorem Live.settles (h : l.Live e) {t : SequenceTracker} {q : Seq}
    (ht : Tracks.Settles l.tracker t e l.advanced l.Settled q) (htracker : l'.tracker = t)
    (hbase : l'.baseline = l.baseline) (hadv : l'.advanced = (l.moved t).advanced)
    (hset : l'.Settled = insert (l.position q) l.Settled)
    (hnd : (l'.accepted ++ l'.abandoned).Nodup) :
    ∃ e', dist e e' ≤ l.tracker.config.maxGapTracking + 1 ∧ l'.Live e' := by
  obtain ⟨e', hle, htracks⟩ := ht.tracks
  have hpos : l'.advanced = l.position e' := by
    rw [hadv, moved, htracks.window.expected]
  refine ⟨e', hle, ?_, ?_, hnd⟩
  · rw [hpos, TrackerLog.number, hbase]
    exact (l.number_position e').symm
  · rw [htracker, hpos, hset, position_eq h.number, position_eq h.number]
    exact htracks

theorem Live.opened {t : SequenceTracker} {s : Seq} (ht : Tracks t (s + 1) 1 {0}) :
    (opened t s).Live (s + 1) where
  number := rfl
  tracks := by
    have hset : (TrackerLog.opened t s).Settled = {0} := by
      ext p
      simp [Settled, TrackerLog.opened]
    rw [hset]
    exact ht
  nodup := List.nodup_singleton 0

theorem idle_reset {t : SequenceTracker} (h : t.config.Sane) : (fresh t.reset).Idle :=
  ⟨h, rfl, rfl, rfl, rfl, rfl, rfl⟩

/-- Every outcome but a reset leaves a tracker with a baseline; one that takes no new baseline
moves `expectedSeq` forward, by no more than a window. -/
theorem Live.outcome (h : l.Live e) (ho : Outcome l e ev l') :
    (ev = .reset ∧ l'.Idle) ∨ ((∃ e', l'.Live e') ∧ (ev ≠ .reset) ∧
      (¬ l.Rebaselines ev →
        ∃ e', dist e e' ≤ l.tracker.config.maxGapTracking + 1 ∧ l'.Live e')) := by
  have hsame : l'.Live e → (∃ e', l'.Live e') ∧ (¬ l.Rebaselines ev →
      ∃ e', dist e e' ≤ l.tracker.config.maxGapTracking + 1 ∧ l'.Live e') := fun hl =>
    ⟨⟨e, hl⟩, fun _ => ⟨e, by simp, hl⟩⟩
  cases ho with
  | duplicate hs hdrop => exact Or.inr ⟨(hsame h).1, nofun, (hsame h).2⟩
  | @late s hs hb hd hdrop =>
    have hl := hsame ⟨h.number, (h.tracks.late hb hd).2 ▸ (h.tracks.late hb hd).1, h.nodup⟩
    exact Or.inr ⟨hl.1, nofun, hl.2⟩
  | @resynced s hs hd hre hdrop =>
    exact Or.inr ⟨⟨s + 1, .opened (Tracks.resync h.tracks.window.sane s)⟩, nofun,
      fun hno => absurd hre hno⟩
  | @accepted s t hs hd hdrop ht hcount =>
    have hfresh : l.position s ∉ l.Settled := mt (h.received_iff hd).2 hs
    obtain ⟨e', hle, hl⟩ : ∃ e', dist e e' ≤ l.tracker.config.maxGapTracking + 1 ∧
        Live { l.moved t with accepted := l.accepted ++ [l.position s] } e' :=
      h.settles ht rfl rfl rfl
      (by ext p; simp [Settled, moved, or_assoc, or_comm])
      (by
        have hperm : (l.accepted ++ [l.position s] ++ l.abandoned).Perm
            (l.position s :: (l.accepted ++ l.abandoned)) := by
          rw [List.append_assoc]
          exact List.perm_middle
        exact hperm.nodup_iff.2 (List.nodup_cons.2 ⟨hfresh, h.nodup⟩))
    exact Or.inr ⟨⟨e', hl⟩, nofun, fun _ => ⟨e', hle, hl⟩⟩
  | unarmed hq => exact Or.inr ⟨(hsame h).1, nofun, (hsame h).2⟩
  | @gaveUp q t hq hatt ht hcount =>
    have hfresh : l.position q ∉ l.Settled := (h.timer_iff.1 hq).1
    obtain ⟨e', hle, hl⟩ : ∃ e', dist e e' ≤ l.tracker.config.maxGapTracking + 1 ∧
        Live { l.moved t with
          fired := l.fired ++ [l.position q], abandoned := l.abandoned ++ [l.position q] } e' :=
      h.settles ht rfl rfl rfl
      (by ext p; simp [Settled, moved, ← or_assoc, or_comm])
      (by
        show (l.accepted ++ (l.abandoned ++ [l.position q])).Nodup
        rw [← List.append_assoc]
        exact h.nodup.append (List.nodup_singleton _) (List.disjoint_singleton.2 hfresh))
    exact Or.inr ⟨⟨e', hl⟩, nofun, fun _ => ⟨e', hle, hl⟩⟩
  | @rearmed q hq hatt =>
    have hl := hsame ⟨h.number, (h.tracks.rearmed hq).1, h.nodup⟩
    exact Or.inr ⟨hl.1, nofun, hl.2⟩
  | flushed =>
    have hl := hsame ⟨h.number, h.tracks.flushed.1, h.nodup⟩
    exact Or.inr ⟨hl.1, nofun, hl.2⟩
  | reset => exact Or.inl ⟨rfl, idle_reset h.tracks.window.sane⟩

/-- A tracker without a baseline takes it from the first arrival, and does nothing before. -/
theorem Idle.step (h : l.Idle) (ev : TrackerEvent) : (∃ s, ev = .arrives s ∧
      l.step ev = TrackerLog.opened (l.tracker.processSequence s).1 s ∧
      (l.step ev).Live (s + 1)) ∨
    ((∀ s, ev ≠ .arrives s) ∧ (l.step ev).Idle) := by
  cases ev with
  | arrives s =>
    refine Or.inl ⟨s, rfl, ?_⟩
    have hstep : l.step (.arrives s) = TrackerLog.opened (l.tracker.processSequence s).1 s := by
      have hre : l.Rebaselines (.arrives s) := Or.inl h.expected
      rw [TrackerLog.step, if_pos hre]
    refine ⟨hstep, hstep ▸ .opened ?_⟩
    rw [processSequence_first h.expected]
    exact .opened h.sane rfl (by simp [h.received]) h.timers h.attempts h.pending
  | nakTimer q =>
    refine Or.inr ⟨(by simp), ?_⟩
    have hstep : l.step (.nakTimer q) = l := by
      simp only [TrackerLog.step, nakTimerFired, h.timers, List.not_mem_nil, if_false, false_and,
        moved, h.expected, Bool.false_eq_true]
    rwa [hstep]
  | nakFlush =>
    refine Or.inr ⟨(by simp), ?_⟩
    have hbatch : l.tracker.nakFlushFired.2 = [] := by
      unfold nakFlushFired
      split_ifs
      · simp [h.pending]
      · rfl
    obtain ⟨hcfg, hexp, hrcv, htim⟩ := nakFlushFired_frame l.tracker
    have hcount : l.tracker.nakFlushFired.1.abandonedCount = l.tracker.abandonedCount := by
      unfold nakFlushFired
      split_ifs <;> rfl
    have hstep : l.step .nakFlush = fresh l.tracker.nakFlushFired.1 := by
      calc l.step .nakFlush
        _ = { fresh l.tracker with tracker := l.tracker.nakFlushFired.1 } := by
          rw [← h.log, TrackerLog.step, hbatch, if_pos rfl]
        _ = fresh l.tracker.nakFlushFired.1 := by simp only [fresh, hcount]
    rw [hstep]
    refine ⟨hcfg ▸ h.sane, hexp.trans h.expected, hrcv.trans h.received, htim.trans h.timers,
      ?_, ?_, rfl⟩
    · simp only [fresh, nakFlushFired]
      split_ifs <;> exact h.attempts
    · simp only [fresh, nakFlushFired]
      split_ifs
      · rfl
      · exact h.pending
  | reset => exact Or.inr ⟨(by simp), idle_reset h.sane⟩

/-- **Every step keeps the invariant.** -/
theorem Inv.step (h : l.Inv) (hdom : l.NearExpected ev) : (l.step ev).Inv := by
  rcases h with h | ⟨e, h⟩
  · rcases h.step ev with ⟨s, -, -, hl⟩ | ⟨-, hi⟩
    · exact Or.inr ⟨s + 1, hl⟩
    · exact Or.inl hi
  · rcases h.outcome (h.step_outcome hdom) with ⟨-, hi⟩ | ⟨hl, -⟩
    · exact Or.inl hi
    · exact Or.inr hl

/-- No step touches the configuration. -/
theorem Inv.config_step (h : l.Inv) (hdom : l.NearExpected ev) :
    (l.step ev).tracker.config = l.tracker.config := by
  rcases h with h | ⟨e, h⟩
  · cases ev with
    | arrives s =>
      have hre : l.Rebaselines (.arrives s) := Or.inl h.expected
      rw [TrackerLog.step, if_pos hre, processSequence_first h.expected]
      rfl
    | nakTimer q =>
      simp [TrackerLog.step, nakTimerFired, h.timers, moved]
    | nakFlush => exact (nakFlushFired_frame l.tracker).1
    | reset => rfl
  · have ho := h.step_outcome hdom
    generalize l.step ev = l' at ho
    cases ho with
    | accepted hs hd hdrop ht hcount => exact ht.config
    | gaveUp hq hatt ht hcount => exact ht.config
    | rearmed hq hatt => exact config_scheduleNAK _ _
    | flushed => exact (nakFlushFired_frame l.tracker).1
    | _ => rfl

theorem inv_new {c : SequenceTrackerConfig} (hc : c.Sane) : (new c).Inv :=
  Or.inl ⟨hc, rfl, rfl, rfl, rfl, rfl, rfl⟩

theorem inv_run {c : SequenceTrackerConfig} (hc : c.Sane) {es : List TrackerEvent}
    (hes : Along TrackerLog.step NearExpected (new c) es) : (run TrackerLog.step (new c) es).Inv :=
  Along.invariant (fun _ _ h hdom => Inv.step h hdom) (inv_new hc) hes

theorem config_run {c : SequenceTrackerConfig} (hc : c.Sane) {es : List TrackerEvent}
    (hes : Along TrackerLog.step NearExpected (new c) es) :
    (run TrackerLog.step (new c) es).tracker.config = c :=
  (Along.invariant (I := fun l => l.Inv ∧ l.tracker.config = c)
    (fun _ _ h hdom => ⟨h.1.step hdom, (h.1.config_step hdom).trans h.2⟩)
    ⟨inv_new hc, rfl⟩ hes).2

end Kept

/-! ## What is dropped -/

/-- An arrival that the caller drops has been accepted or abandoned since the tracker took its
baseline. -/
def DropsSettled (l : TrackerLog) : TrackerEvent → Prop
  | .arrives s => Drops l.tracker s → ∃ p ∈ l.accepted ++ l.abandoned, l.number p = s
  | _ => True

instance (l : TrackerLog) (ev : TrackerEvent) : Decidable (l.DropsSettled ev) := by
  cases ev <;> unfold DropsSettled <;> infer_instance

/-- An arrival from before the baseline, near enough not to become a baseline itself. -/
def PrecedesBaseline (l : TrackerLog) : TrackerEvent → Prop
  | .arrives s =>
    match l.tracker.expectedSeq with
    | none => False
    | some e => isBehind s e ∧ l.advanced < dist s e ∧
        (s ∈ l.tracker.receivedSeqs ∨ dist s e ≤ l.tracker.config.behindResyncThreshold)
  | _ => False

instance (l : TrackerLog) (ev : TrackerEvent) : Decidable (l.PrecedesBaseline ev) := by
  cases ev with
  | arrives s =>
    unfold PrecedesBaseline
    exact match l.tracker.expectedSeq with
      | none => inferInstanceAs (Decidable False)
      | some e => inferInstanceAs (Decidable (_ ∧ _ ∧ _))
  | _ => exact isFalse id

section Dropped

variable {l : TrackerLog} {e s : Seq}

/-- A number behind the expected one that is no farther than the baseline has been settled. -/
theorem Live.settled_behind (h : l.Live e) (hd : dist s e ≠ 0) (hle : dist s e ≤ l.advanced) :
    ∃ p ∈ l.accepted ++ l.abandoned, l.number p = s := by
  refine ⟨l.advanced - dist s e, h.tracks.settled (by omega), ?_⟩
  have hback := dist_number_back (l := l) (p := l.advanced - dist s e) (by omega)
    (by have := dist_lt s e; omega)
  rw [← h.number] at hback
  exact dist_left_injective e (by omega)

/-- No settled position has the number of an arrival from before the baseline. -/
theorem Live.not_settled_before (h : l.Live e) (hb : isBehind s e) (hlt : l.advanced < dist s e) :
    ¬ ∃ p ∈ l.accepted ++ l.abandoned, l.number p = s := by
  rintro ⟨p, hp, rfl⟩
  have hmax := h.tracks.window.bounded p hp
  have hsane := h.tracks.sane
  unfold isBehind at hb
  rcases Nat.lt_or_ge p l.advanced with hpa | hpa
  · have hback := dist_number_back hpa.le (by omega)
    rw [← h.number] at hback
    omega
  · have hd := dist_number hpa (by omega)
    rw [← h.number] at hd
    rcases dist_add_dist e (l.number p) e with hlap | hlap <;> rw [dist_self] at hlap <;> omega

/-- The verdict on an arrival is sound exactly when it does not precede the baseline. -/
theorem Live.dropsSettled_iff (h : l.Live e) {ev : TrackerEvent} (hdom : l.NearExpected ev) :
    l.DropsSettled ev ↔ ¬ l.PrecedesBaseline ev := by
  have hsane := h.tracks.sane
  have hexp := h.tracks.window.expected
  cases ev with
  | arrives s =>
    have hprec : l.PrecedesBaseline (.arrives s) ↔ isBehind s e ∧ l.advanced < dist s e ∧
        (s ∈ l.tracker.receivedSeqs ∨ dist s e ≤ l.tracker.config.behindResyncThreshold) := by
      simp only [PrecedesBaseline, hexp]
    rw [hprec]
    have ho := h.step_outcome hdom
    generalize hl' : l.step (.arrives s) = l' at ho
    cases ho with
    | duplicate hs hdrop =>
      have hse : dist s e ≠ 0 := fun h0 => h.tracks.not_mem_expected (dist_eq_zero.1 h0 ▸ hs)
      rcases h.tracks.window.near s hs with hin | hbehind
      · have hmem := (h.received_iff hin).1 hs
        refine iff_of_true (fun _ => ⟨l.position s, hmem, l.number_position s⟩) fun hb => ?_
        have hb := hb.1
        unfold isBehind at hb
        rcases dist_add_dist e s e with hlap | hlap <;> rw [dist_self] at hlap <;> omega
      · unfold SequenceTrackerConfig.reach at hbehind
        rcases Nat.lt_or_ge l.advanced (dist s e) with hlt | hle
        · have hb : isBehind s e := ⟨hse, by omega⟩
          exact iff_of_false (fun hd => h.not_settled_before hb hlt (hd hdrop))
            (not_not_intro ⟨hb, hlt, Or.inl hs⟩)
        · exact iff_of_true (fun _ => h.settled_behind hse hle) fun hb => by omega
    | late hs hb hd hdrop =>
      rcases Nat.lt_or_ge l.advanced (dist s e) with hlt | hle
      · exact iff_of_false (fun hd => h.not_settled_before hb hlt (hd hdrop))
          (not_not_intro ⟨hb, hlt, Or.inr hd⟩)
      · exact iff_of_true (fun _ => h.settled_behind hb.1 hle) fun hb => by omega
    | resynced hs hd hre hdrop =>
      refine iff_of_true (fun hd => absurd hd hdrop) ?_
      rintro ⟨hb, -, hmem | hle⟩
      · exact hs hmem
      · exact absurd (hd hb) (by omega)
    | accepted hs hd hdrop =>
      refine iff_of_true (fun hd => absurd hd hdrop) ?_
      rintro ⟨hb, -⟩
      unfold isBehind at hb
      rcases dist_add_dist e s e with hlap | hlap <;> rw [dist_self] at hlap <;> omega
  | _ => exact iff_of_true trivial id

end Dropped

/-- **The tracker drops what it has seen**, exactly while no number from before its baseline
arrives: along every run, each arrival reported as a duplicate or as late was accepted or
abandoned before if and only if none precedes the baseline and is near enough not to become a
baseline itself. -/
theorem drops_settled {c : SequenceTrackerConfig} (hc : c.Sane) (es : List TrackerEvent)
    (hes : Along TrackerLog.step NearExpected (new c) es) :
    Along TrackerLog.step DropsSettled (new c) es ↔
      Along TrackerLog.step (fun l ev => ¬ l.PrecedesBaseline ev) (new c) es := by
  refine Along.congr_of_invariant (I := Inv) (fun l ev hl hdom => ⟨?_, fun _ => hl.step hdom⟩)
    (inv_new hc) hes
  rcases hl with hi | ⟨e, hl⟩
  · cases ev with
    | arrives s =>
      have hdrop : ¬ Drops l.tracker s := by
        rw [Drops, processSequence_first hi.expected]
        simp
      refine iff_of_true (fun hd => absurd hd hdrop) ?_
      simp [PrecedesBaseline, hi.expected]
    | _ => exact iff_of_true trivial id
  · exact hl.dropsSettled_iff hdom

/-- The start of a session whose first two packets arrive in the opposite order. -/
def reorderedStart : List TrackerEvent := [.arrives 5, .arrives 4]

theorem dropped_before_baseline :
    Along TrackerLog.step NearExpected (new {}) reorderedStart ∧
      ¬ Along TrackerLog.step DropsSettled (new {}) reorderedStart := by
  decide +kernel

/-- A run with a gap, a retransmission, a duplicate and a late copy, after which all is settled. -/
theorem drops_settled_gap :
    Along TrackerLog.step DropsSettled (new {})
      [.arrives 5, .arrives 7, .nakTimer 6, .nakFlush, .arrives 6, .arrives 7, .arrives 5] :=
  (drops_settled (by decide) _ (by decide +kernel)).2 (by decide +kernel)

/-! ## The representation invariant -/

/-- The number has a timer, an attempt counter or a pending NAK. -/
def HasNakState (t : SequenceTracker) (x : Seq) : Prop :=
  x ∈ t.nakTimers ∨ x ∈ t.nakAttempts.keys ∨ x ∈ t.pendingNAKs

/-- **The representation invariant** of a tracker that expects `e`. -/
structure WellFormed (l : TrackerLog) (e : Seq) : Prop where
  /-- `e` is `advanced` steps beyond the baseline, and not received -/
  expected : e = l.number l.advanced ∧ e ∉ l.tracker.receivedSeqs
  /-- every number from the baseline up to `e` was accepted or abandoned -/
  settled : ∀ p < l.advanced, p ∈ l.accepted ∨ p ∈ l.abandoned
  /-- what has arrived or lies behind has no NAK state -/
  quiet : ∀ x, x ∈ l.tracker.receivedSeqs ∨ isBehind x e → ¬ HasNakState l.tracker x
  /-- what is missing before a received number ahead has an armed timer -/
  armed : ∀ b ∈ l.tracker.receivedSeqs, isAhead b e → ∀ x, dist e x < dist e b →
    x ∉ l.tracker.receivedSeqs → x ∈ l.tracker.nakTimers
  /-- timers are kept for numbers, one for each -/
  timers : l.tracker.nakTimers.Nodup
  few : l.tracker.nakTimers.length ≤ l.tracker.config.maxGapTracking

/-- A tracker without a baseline holds nothing. -/
structure Empty (t : SequenceTracker) : Prop where
  received : t.receivedSeqs = ∅
  quiet : ∀ x, ¬ HasNakState t x

/-- The tracker's invariant, with and without a baseline. -/
def Represents (l : TrackerLog) : Prop :=
  match l.tracker.expectedSeq with
  | some e => l.WellFormed e
  | none => Empty l.tracker

/-- A step that does not reset the tracker nor give it a new baseline leaves `expectedSeq` where
it is or moves it ahead. -/
def MovesForward (l : TrackerLog) (ev : TrackerEvent) : Prop :=
  ¬ l.Rebaselines ev → ∀ e, l.tracker.expectedSeq = some e →
    ∃ e', (l.step ev).tracker.expectedSeq = some e' ∧ (e' = e ∨ isAhead e' e)

/-- The calls of `scheduleNAK` that a step makes, with the trackers they are made on. -/
def scheduleNAKCalls (t : SequenceTracker) : TrackerEvent → List (SequenceTracker × Seq)
  | .arrives s =>
    match t.expectedSeq with
    | none => []
    | some e =>
      if s ∈ t.receivedSeqs ∨ isBehind s e ∨ s = e ∨ ¬ isAhead s e ∨
        t.config.maxGapTracking < dist e s then []
      else recordGapCalls (dist e s) (t.recordArrival s) e
  | .nakTimer q =>
    if q ∈ t.nakTimers ∧ q ∉ t.receivedSeqs ∧
        (t.nakAttempts.get? q).getD 0 < t.config.maxNakRounds then [(Tracks.rearming t q, q)]
    else []
  | _ => []

section Represents

variable {l : TrackerLog} {e : Seq} {ev : TrackerEvent}

theorem Live.not_hasNakState {x : Seq} (hq : l.tracker.Quiet x) : ¬ HasNakState l.tracker x := by
  rintro (h | h | h)
  · exact hq.1 h
  · exact hq.2.1 h
  · exact hq.2.2 h

theorem Live.wellFormed (h : l.Live e) : l.WellFormed e where
  expected := ⟨h.number, h.tracks.not_mem_expected⟩
  settled _ hp := mem_settled.1 (h.tracks.settled hp)
  quiet x hx := by
    rcases hx with hx | hx
    · exact not_hasNakState (h.tracks.quiet hx)
    · exact not_hasNakState (h.tracks.quiet_of_isBehind hx)
  armed b hb hahead x hx hmem := by
    have hsane := h.tracks.sane
    -- a received number ahead is in the window, so that its position is settled
    have hin : dist e b ≤ l.tracker.config.maxGapTracking := by
      rcases h.tracks.window.near b hb with hin | hbehind
      · exact hin
      · unfold isAhead at hahead
        unfold SequenceTrackerConfig.reach at hbehind
        rcases dist_add_dist e b e with hlap | hlap <;> rw [dist_self] at hlap <;> omega
    refine (h.tracks.naks.timers x).2 ⟨?_, l.advanced + dist e b, ?_, by omega⟩
    · exact mt (h.tracks.window.received x (by omega)).2 hmem
    · exact (h.tracks.window.received b hin).1 hb
  timers := h.tracks.naks.nodup
  few := h.tracks.length_nakTimers

theorem Idle.empty (h : l.Idle) : Empty l.tracker where
  received := h.received
  quiet x := by
    rintro (hx | hx | hx)
    · exact List.not_mem_nil (h.timers ▸ hx)
    · exact List.not_mem_nil (h.attempts ▸ hx : x ∈ (OrderedMap.empty : OrderedMap Seq ℕ).keys)
    · exact List.not_mem_nil (h.pending ▸ hx)

theorem Inv.represents (h : l.Inv) : l.Represents := by
  unfold Represents
  rcases h with h | ⟨e, h⟩
  · rw [h.expected]
    exact h.empty
  · rw [h.tracks.window.expected]
    exact h.wellFormed

theorem Inv.movesForward (h : l.Inv) (hdom : l.NearExpected ev) : l.MovesForward ev := by
  intro hno e he
  rcases h with h | ⟨e₀, h⟩
  · rw [h.expected] at he
    exact absurd he nofun
  · obtain rfl : e₀ = e := Option.some.inj (h.tracks.window.expected.symm.trans he)
    rcases h.outcome (h.step_outcome hdom) with ⟨rfl, -⟩ | ⟨-, -, hl⟩
    · exact absurd trivial hno
    · obtain ⟨e', hle, hl⟩ := hl hno
      have hsane := h.tracks.sane
      refine ⟨e', hl.tracks.window.expected, ?_⟩
      rcases Nat.eq_zero_or_pos (dist e₀ e') with h0 | h0
      · exact Or.inl (dist_eq_zero.1 h0).symm
      · exact Or.inr ⟨by omega, by omega⟩

theorem Inv.not_evicts (h : l.Inv) : ∀ a ∈ scheduleNAKCalls l.tracker ev, ¬ a.1.Evicts a.2 := by
  rcases h with h | ⟨e, h⟩
  · cases ev <;> simp [scheduleNAKCalls, h.expected, h.timers]
  · cases ev with
    | arrives s =>
      simp only [scheduleNAKCalls, h.tracks.window.expected]
      split_ifs with hs
      · exact fun a ha => absurd ha List.not_mem_nil
      · simp only [not_or, not_not, Nat.not_lt] at hs
        exact (h.tracks.ahead hs.2.2.1 hs.2.2.2.2).2.2
    | nakTimer q =>
      simp only [scheduleNAKCalls]
      split_ifs with hq
      · intro a ha
        rw [List.mem_singleton.1 ha]
        exact h.tracks.not_evicts_rearming hq.1
      · exact fun a ha => absurd ha List.not_mem_nil
    | nakFlush => exact fun a ha => absurd ha List.not_mem_nil
    | reset => exact fun a ha => absurd ha List.not_mem_nil

end Represents

/-- **The representation invariant holds over every run**: in the state reached; and at each step
`expectedSeq` moves forward only and no timer is evicted. -/
theorem represents_run {c : SequenceTrackerConfig} (hc : c.Sane) (es : List TrackerEvent)
    (hes : Along TrackerLog.step NearExpected (new c) es) :
    (run TrackerLog.step (new c) es).tracker.config = c ∧
      (run TrackerLog.step (new c) es).Represents ∧
      Along TrackerLog.step (fun l ev => l.MovesForward ev ∧
        ∀ a ∈ scheduleNAKCalls l.tracker ev, ¬ a.1.Evicts a.2) (new c) es := by
  refine ⟨config_run hc hes, (inv_run hc hes).represents, ?_⟩
  exact Along.of_invariant (I := Inv)
    (fun l ev hl hdom => ⟨⟨hl.movesForward hdom, hl.not_evicts⟩, hl.step hdom⟩) (inv_new hc) hes

/-- A run over the wrap of the numbers, with a gap that is NAKed and then given up. -/
theorem represents_run_wrap :
    (run TrackerLog.step (new { maxNakRounds := 1 })
      [.arrives 0xfffffffe, .arrives 1, .nakTimer 0xffffffff, .nakFlush, .nakTimer 0xffffffff,
        .arrives 0]).Represents :=
  (represents_run (by decide) _ (by decide +kernel)).2.1

/-! ## New at most once -/

/-- **A number is new at most once** between two baselines, and an abandoned number never is: the
numbers accepted and abandoned since the baseline are all different, as long as `expectedSeq` has
come less than half the number space. -/
theorem settled_once {c : SequenceTrackerConfig} (hc : c.Sane) (es : List TrackerEvent)
    (hes : Along TrackerLog.step NearExpected (new c) es)
    (hadv : (run TrackerLog.step (new c) es).advanced < 2 ^ 31) :
    (((run TrackerLog.step (new c) es).accepted ++
      (run TrackerLog.step (new c) es).abandoned).map
        (run TrackerLog.step (new c) es).number).Nodup := by
  have hinv := inv_run hc hes
  generalize run TrackerLog.step (new c) es = l at hinv hadv
  rcases hinv with h | ⟨e, h⟩
  · rw [h.log]
    exact List.nodup_nil
  · have hsane := h.tracks.sane
    refine List.Nodup.map_on (fun p hp q hq hpq => ?_) h.nodup
    have hp := h.tracks.window.bounded p hp
    have hq := h.tracks.window.bounded q hq
    exact add_ofNat_injOn l.baseline (by omega) (by omega) hpq

/-- Over the wrap of the numbers: one of two missing numbers is given up and then arrives. -/
def wrappedRun : List TrackerEvent :=
  [.arrives 0xfffffffe, .arrives 1, .nakTimer 0xffffffff, .nakTimer 0xffffffff,
    .arrives 0xffffffff, .arrives 0, .arrives 1]

theorem settled_once_wrap :
    (((run TrackerLog.step (new { maxNakRounds := 1 }) wrappedRun).accepted ++
      (run TrackerLog.step (new { maxNakRounds := 1 }) wrappedRun).abandoned).map
        (run TrackerLog.step (new { maxNakRounds := 1 }) wrappedRun).number).Nodup :=
  settled_once (by decide) wrappedRun (by decide +kernel) (by decide +kernel)

end TrackerLog

end EdgeLink
