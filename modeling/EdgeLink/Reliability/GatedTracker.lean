import EdgeLink.Foundations.Run
import EdgeLink.Reliability.Sequence

/-!
# The tracker behind the replay window

The server passes a DATA sequence number to the tracker only when the peer's replay window accepts
it (`trackDataSequence` in `reliable-server/data-handler.ts`). This module studies the pair fed
with one stream. The tracker may NAK a number it regards as missing; the retransmission it asks
for is of use only if the window accepts it.

* `Spans` says where the numbers lie that a tracker remembers: the `k` numbers from `expectedSeq`
  on, or not far behind. Every operation of the tracker keeps it (`Spans.advanceExpected`,
  `Spans.abandonSequence`, `Spans.recordGap`, ...).
* `Nested` is the invariant of the pair: the window's highest number ends the tracker's span, the
  span is no longer than the window, and in the span the window remembers only numbers the tracker
  has received.
* `missing_accepted`: as long as no arrival is at one of the boundaries where the two windows
  disagree (`AgreedArrival`), every missing number would be accepted.
-/

namespace EdgeLink

open Serial

namespace SequenceTracker

/-- The configuration of a server session's tracker. -/
def serverConfig (maxNakRounds : ℕ) : SequenceTrackerConfig := { maxNakRounds := maxNakRounds }

/-- The numbers a tracker regards as missing: not received, and between `expectedSeq` and a
buffered number ahead of it. -/
def Missing (t : SequenceTracker) (s : Seq) : Prop :=
  ∃ e, t.expectedSeq = some e ∧ s ∉ t.receivedSeqs ∧
    ∃ b ∈ t.receivedSeqs, isAhead b e ∧ dist e s < dist e b

/-! ## Where the remembered numbers lie -/

/-- A server session's tracker that expects `e` remembers numbers among the `k` from `e` on and
numbers at most `2048` behind `e`, and has timers armed for the former only. -/
structure Spans (t : SequenceTracker) (e : Seq) (k : ℕ) : Prop where
  config : ∃ n, t.config = serverConfig n
  expected : t.expectedSeq = some e
  received : ∀ b ∈ t.receivedSeqs, dist e b < k ∨ (0 < dist b e ∧ dist b e ≤ 2048)
  timers : ∀ q ∈ t.nakTimers, dist e q < k

/-- `t'` is a later state of `t`: it expects a number `m` further on, and of the span it has
forgotten nothing that lies ahead. -/
def Advances (t t' : SequenceTracker) (e : Seq) (k : ℕ) : Prop :=
  ∃ m ≤ k, ∃ e', dist e e' = m ∧ Spans t' e' (k - m) ∧
    ∀ x ∈ t.receivedSeqs, dist e' x < k - m → x ∈ t'.receivedSeqs

section Spans

variable {t : SequenceTracker} {e s : Seq} {k : ℕ}

/-- A number of the span is not behind the cut-off of a clean-up. -/
theorem not_isBehind_cutoff {e' x : Seq} (hk : dist e' x ≤ 1024) :
    ¬ isBehind x (e' - BitVec.ofNat 32 100) := by
  have hc := dist_sub_ofNat e' (n := 100) (by decide)
  have h1 := dist_add_dist (e' - BitVec.ofNat 32 100) e' x
  have h2 := dist_add_dist x (e' - BitVec.ofNat 32 100) x
  have := dist_lt (e' - BitVec.ofNat 32 100) x
  rw [dist_self] at h2
  unfold isBehind
  omega

/-- A clean-up drops what lies far behind. -/
theorem isBehind_cutoff {e' x : Seq} (h : 100 < dist x e') (h' : dist x e' ≤ 4096) :
    isBehind x (e' - BitVec.ofNat 32 100) := by
  have hc := dist_sub_ofNat e' (n := 100) (by decide)
  have h1 := dist_add_dist x (e' - BitVec.ofNat 32 100) e'
  have := dist_lt x (e' - BitVec.ofNat 32 100)
  unfold isBehind
  omega

theorem Spans.mono {k' : ℕ} (h : Spans t e k) (hk : k ≤ k') : Spans t e k' where
  config := h.config
  expected := h.expected
  received b hb := (h.received b hb).imp_left (by omega)
  timers q hq := (h.timers q hq).trans_le hk

/-- The span depends on the expected number, the received ones and the timers only. -/
theorem Spans.of_frame (h : Spans t e k) {t' : SequenceTracker} (hcfg : t'.config = t.config)
    (hexp : t'.expectedSeq = t.expectedSeq) (hrcv : t'.receivedSeqs = t.receivedSeqs)
    (htim : ∀ q ∈ t'.nakTimers, q ∈ t.nakTimers) : Spans t' e k where
  config := hcfg ▸ h.config
  expected := hexp.trans h.expected
  received b hb := h.received b (hrcv ▸ hb)
  timers q hq := h.timers q (htim q hq)

theorem Spans.maxOutOfOrder (h : Spans t e k) : t.config.maxOutOfOrder = 100 := by
  obtain ⟨n, hn⟩ := h.config
  rw [hn]
  rfl

/-- What the span and the clean-up leave of a number that was remembered. -/
theorem Spans.cleanup (h : Spans t e k) : Spans t.cleanupOldSequences e k where
  config := by simpa using h.config
  expected := by simpa using h.expected
  received b hb := h.received b (cleanupOldSequences_subset _ hb)
  timers q hq := h.timers q (by simpa using hq)

theorem Spans.mem_cleanup (h : Spans t e k) (hk : k ≤ 1024) {x : Seq} (hx : x ∈ t.receivedSeqs)
    (hxk : dist e x < k) : x ∈ t.cleanupOldSequences.receivedSeqs := by
  rw [mem_cleanupOldSequences _ h.expected, h.maxOutOfOrder]
  exact ⟨hx, not_isBehind_cutoff (by omega)⟩

theorem Spans.recordArrival (h : Spans t e k) (hs : dist e s < k) :
    Spans (t.recordArrival s) e k := by
  obtain ⟨hcfg, hexp, htim, hrcv⟩ := recordArrival_frame t s
  refine ⟨hcfg ▸ h.config, hexp ▸ h.expected, fun b hb => ?_, fun q hq => ?_⟩
  · rcases Finset.mem_insert.1 (hrcv hb) with rfl | hb
    · exact Or.inl hs
    · exact h.received b hb
  · rw [htim] at hq
    exact h.timers q (List.mem_of_mem_filter hq)

theorem Spans.mem_recordArrival (h : Spans t e k) (hk : k ≤ 1024) {x : Seq}
    (hx : x ∈ insert s t.receivedSeqs) (hxk : dist e x < k) :
    x ∈ (t.recordArrival s).receivedSeqs := by
  refine SequenceTracker.mem_recordArrival h.expected hx ?_
  rw [h.maxOutOfOrder]
  exact not_isBehind_cutoff (by omega)

/-- Scheduling the NAKs of a gap inside the span keeps the span. -/
theorem Spans.recordGap (h : Spans t e k) {gap : ℕ} (hgap : gap ≤ k) (hk : k ≤ 1024) :
    Spans (recordGap gap t e).1 e k := by
  obtain ⟨hcfg, hexp, hrcv⟩ := recordGap_frame gap t e
  refine ⟨hcfg ▸ h.config, hexp ▸ h.expected, fun b hb => h.received b (hrcv ▸ hb), fun q hq => ?_⟩
  rcases mem_nakTimers_recordGap (o := e) (by rw [dist_self]; omega) hq with hq | ⟨-, hq⟩
  · exact h.timers q hq
  · rw [dist_self] at hq
    omega

theorem Spans.scheduleNAK (h : Spans t e k) {q : Seq} (hq : dist e q < k) :
    Spans (t.scheduleNAK q) e k := by
  refine ⟨by simpa using h.config, by simpa using h.expected,
    fun b hb => h.received b (by simpa using hb), fun x hx => ?_⟩
  rcases mem_nakTimers_scheduleNAK _ _ hx with hx | rfl
  · exact h.timers x hx
  · exact hq

/-- A new baseline leaves an empty span. -/
theorem Spans.resync (h : Spans t e k) (s : Seq) : Spans (t.resync s) (s + 1) 0 where
  config := h.config
  expected := rfl
  received b hb := by
    obtain rfl := Finset.mem_singleton.1 hb
    exact Or.inr (by rw [dist_add_one]; omega)
  timers q hq := by cases hq

/-- The advance stays inside the span. -/
theorem Spans.advanceExpected (h : Spans t e k) (hk : k ≤ 1024) (he : e ∈ t.receivedSeqs)
    (het : e ∉ t.nakTimers) : Advances t (t.advanceExpected e) e k := by
  obtain ⟨n, hexp, hrec, hrcv, htim⟩ := advanceExpected_spec t e
  have hpass : ∀ i < n + 1, e + BitVec.ofNat 32 i ∈ t.receivedSeqs := by
    intro i hi
    cases i with
    | zero => simpa using he
    | succ i => exact hrec i (by omega)
  have hnk : n + 1 ≤ k := by
    -- the walk cannot pass the first number after the span, which has not been received
    by_contra hlt
    have hd := dist_add_ofNat e (n := k) (by omega)
    have hlap := dist_add_dist e (e + BitVec.ofNat 32 k) e
    rw [dist_self] at hlap
    rcases h.received _ (hpass k (by omega)) with hr | hr <;> omega
  have hd := dist_add_ofNat e (n := n + 1) (by omega)
  set e' := e + BitVec.ofNat 32 (n + 1) with he'
  rw [h.maxOutOfOrder] at hrcv
  refine ⟨n + 1, hnk, e', hd, ⟨?_, hexp, fun b hb => ?_, fun q hq => ?_⟩, fun x hx hxk => ?_⟩
  · simpa [config_advanceExpected] using h.config
  · obtain ⟨hb, hcut⟩ := (hrcv b).1 hb
    have hlap := dist_add_dist b e' b
    rw [dist_self] at hlap
    have hfrom := dist_from e e' b
    have hback := dist_add_dist b e e'
    have := dist_lt b e'
    have hcut' : dist b e' ≤ 100 ∨ 4096 < dist b e' := by
      by_contra hc
      exact hcut (isBehind_cutoff (by omega) (by omega))
    rcases h.received b hb with hr | hr <;> omega
  · obtain ⟨hq, hnot⟩ := htim q hq
    have hqk := h.timers q hq
    have hne : ∀ i < n + 1, q ≠ e + BitVec.ofNat 32 i := by
      intro i hi
      cases i with
      | zero => rintro rfl; exact het (by simpa using hq)
      | succ i => exact hnot i (by omega)
    have hge : n + 1 ≤ dist e q := by
      by_contra hlt
      exact hne (dist e q) (by omega) (add_ofNat_dist e q).symm
    have hfrom := dist_from e e' q
    omega
  · exact (hrcv x).2 ⟨hx, not_isBehind_cutoff (by omega)⟩

/-- Giving up on a number of the span, with the advance that may follow. -/
theorem Spans.abandonSequence (h : Spans t e k) (hk : k ≤ 1024) {q : Seq} (hq : dist e q < k) :
    Advances t (t.abandonSequence q) e k := by
  set t₁ : SequenceTracker := { t.cancelNAK q with
    receivedSeqs := insert q t.receivedSeqs
    abandonedCount := t.abandonedCount + 1 } with ht₁
  have h₁ : Spans t₁ e k := by
    refine ⟨h.config, h.expected, fun b hb => ?_, fun x hx => ?_⟩
    · rcases Finset.mem_insert.1 hb with rfl | hb
      · exact Or.inl hq
      · exact h.received b hb
    · exact h.timers x ((mem_nakTimers_cancelNAK t q).1 hx).1
  have hmem : ∀ x ∈ t.receivedSeqs, x ∈ t₁.receivedSeqs := fun x => Finset.mem_insert_of_mem
  have heq : t.abandonSequence q = if t₁.expectedSeq = some q then t₁.advanceExpected q else t₁ := rfl
  rw [heq]
  split_ifs with hexp
  · obtain rfl : e = q := Option.some.inj (h₁.expected.symm.trans hexp)
    obtain ⟨m, hm, e', hd, hs, hkeep⟩ := h₁.advanceExpected hk (Finset.mem_insert_self _ _)
      fun hx => ((mem_nakTimers_cancelNAK t e).1 hx).2 rfl
    exact ⟨m, hm, e', hd, hs, fun x hx => hkeep x (hmem x hx)⟩
  · exact ⟨0, by omega, e, dist_self e, h₁, fun x hx _ => hmem x hx⟩

/-- A NAK timer keeps the span, up to an advance. -/
theorem Spans.nakTimerFired (h : Spans t e k) (hk : k ≤ 1024) (q : Seq) :
    Advances t (t.nakTimerFired q).1 e k := by
  have hfilter : Spans { t with nakTimers := t.nakTimers.filter (· ≠ q) } e k :=
    h.of_frame rfl rfl rfl fun _ => List.mem_of_mem_filter
  rcases nakTimerFired_cases t q with ⟨-, heq⟩ | ⟨-, -, heq⟩ | ⟨hq, -, -, heq⟩ | ⟨hq, -, -, heq⟩ <;>
    rw [heq]
  · exact ⟨0, by omega, e, dist_self e, h, fun x hx _ => hx⟩
  · exact ⟨0, by omega, e, dist_self e, hfilter, fun x hx _ => hx⟩
  · exact hfilter.abandonSequence hk (h.timers q hq)
  · refine ⟨0, by omega, e, dist_self e, ?_, fun x hx _ => by simpa using hx⟩
    refine Spans.scheduleNAK ?_ (h.timers q hq)
    exact hfilter.of_frame rfl rfl rfl fun _ hx => hx

/-- An arrival that the tracker buffers leaves the expected number missing. -/
theorem Spans.missing_of_ahead (h : Spans t e k) (he : e ∉ t.receivedSeqs)
    (hs : s ∉ t.receivedSeqs) (ha : isAhead s e) (hle : dist e s ≤ 1024) :
    (t.processSequence s).1.Missing e := by
  obtain ⟨n, hcfg⟩ := h.config
  have hgap : t.config.maxGapTracking = 1024 := by rw [hcfg]; rfl
  have hlap := dist_add_dist e s e
  rw [dist_self] at hlap
  rcases processSequence_cases h.expected s with ⟨hdup, -⟩ | ⟨-, hfar, -⟩ | ⟨-, hb, -⟩ |
    ⟨-, rfl, -⟩ | ⟨-, -, -, heq⟩ | ⟨-, hopp, -⟩
  · exact absurd hdup hs
  · unfold isBehind isAhead at hfar
    omega
  · unfold isBehind at hb
    omega
  · exact absurd rfl (isAhead_iff_ahead.1 ha).ne
  · obtain ⟨hcfg', hexp', htim', hrcv'⟩ := recordArrival_frame t s
    obtain ⟨hcfg'', hexp'', hrcv''⟩ := recordGap_frame (dist e s) (t.recordArrival s) e
    rw [heq]
    refine ⟨e, ?_, fun hmem => ?_, s, ?_, ha, by rw [dist_self]; exact Nat.pos_of_ne_zero ha.1⟩
    · rw [expectedSeq_cleanupOldSequences, hexp'', hexp', h.expected]
    · have := hrcv' (hrcv'' ▸ cleanupOldSequences_subset _ hmem)
      rcases Finset.mem_insert.1 this with rfl | hmem
      · exact absurd rfl (isAhead_iff_ahead.1 ha).ne
      · exact he hmem
    · have hcut : ¬ isBehind s (e - BitVec.ofNat 32 100) := not_isBehind_cutoff hle
      rw [mem_cleanupOldSequences _ (by rw [hexp'', hexp', h.expected]), hrcv'', hcfg'', hcfg',
        h.maxOutOfOrder]
      refine ⟨SequenceTracker.mem_recordArrival h.expected (Finset.mem_insert_self _ _) ?_, hcut⟩
      rwa [h.maxOutOfOrder]
  · omega

end Spans

end SequenceTracker

open SequenceTracker

/-! ## The pair -/

/-- A replay window and the tracker behind it. -/
structure GatedTracker where
  window : ReplayWindow
  tracker : SequenceTracker

namespace GatedTracker

/-- A fresh window and a fresh tracker of a server session. -/
def new (maxNakRounds : ℕ) : GatedTracker :=
  ⟨.new REPLAY_WINDOW_SIZE, .new (serverConfig maxNakRounds)⟩

/-- The window first; the tracker only if the window accepts. -/
def trackDataSequence (g : GatedTracker) (sequence : Seq) : GatedTracker :=
  let r := g.window.accept sequence
  ⟨r.2, if r.1 then (g.tracker.processSequence sequence).1 else g.tracker⟩

/-- What can happen to the pair. -/
inductive Event where
  | data (sequence : Seq)
  | nakTimer (sequence : Seq)
  | nakFlush

def step (g : GatedTracker) : Event → GatedTracker
  | .data sequence => g.trackDataSequence sequence
  | .nakTimer sequence => { g with tracker := (g.tracker.nakTimerFired sequence).1 }
  | .nakFlush => { g with tracker := g.tracker.nakFlushFired.1 }

/-- The arrivals at which the two windows agree. A number that the window accepts is not exactly
`maxGapTracking` ahead of the expected one, where the tracker still buffers and the window already
forgets; it is not exactly half the number space ahead; and where it advances the window without a
resync of the tracker, it does not pass over a number that the window remembers from an earlier
lap. -/
def AgreedArrival (g : GatedTracker) : Event → Prop
  | .data s => g.window.Fresh s → ∀ e ∈ g.tracker.expectedSeq,
      dist e s ≠ g.tracker.config.maxGapTracking ∧ dist e s ≠ 0x80000000 ∧
      ∀ h ∈ g.window.highest, isAhead s h → dist e s < g.tracker.config.maxGapTracking →
        ∀ x ∈ g.window.seen, dist h x = 0 ∨ dist h s ≤ dist h x
  | _ => True

/-- The invariant of a pair that has accepted a number: `h` is the window's highest one, the
tracker expects `e`, and its span ends with `h`. -/
structure Nested (g : GatedTracker) (e h : Seq) : Prop where
  size : g.window.size = REPLAY_WINDOW_SIZE
  highest : g.window.highest = some h
  spans : Spans g.tracker e (dist e (h + 1))
  span_le : dist e (h + 1) ≤ 1024
  seen : ∀ x ∈ g.window.seen, dist e x < dist e (h + 1) → x ∈ g.tracker.receivedSeqs

/-- The invariant of the pair: nothing has been accepted yet, or the windows nest. -/
def Agrees (g : GatedTracker) : Prop :=
  (g.window = .new REPLAY_WINDOW_SIZE ∧ ∃ n, g.tracker = .new (serverConfig n)) ∨
    ∃ e h, Nested g e h

/-- Advancing the tracker keeps the windows nested. -/
theorem Nested.of_advances {w : ReplayWindow} {t t' : SequenceTracker} {e h : Seq}
    (hn : Nested ⟨w, t⟩ e h) (ha : Advances t t' e (dist e (h + 1))) :
    ∃ e', Nested ⟨w, t'⟩ e' h := by
  obtain ⟨m, hm, e', hd, hs, hkeep⟩ := ha
  have hk : dist e' (h + 1) = dist e (h + 1) - m := by
    have := dist_from e e' (h + 1)
    omega
  refine ⟨e', hn.size, hn.highest, hk ▸ hs, ?_, fun x hx hxk => ?_⟩
  · have := hn.span_le
    omega
  · have hxk' : dist e x < dist e (h + 1) := by
      have := dist_add_dist e e' x
      omega
    exact hkeep x (hn.seen x hx hxk') (by omega)

/-- A missing number lies in the span, where the window has not seen it. -/
theorem Nested.fresh_of_missing {g : GatedTracker} {e h s : Seq} (hn : Nested g e h)
    (hs : g.tracker.Missing s) : g.window.Fresh s := by
  obtain ⟨e', he', hnot, b, hb, hahead, hlt⟩ := hs
  obtain rfl : e = e' := Option.some.inj (hn.spans.expected.symm.trans he')
  have hbk : dist e b < dist e (h + 1) := by
    rcases hn.spans.received b hb with hb | hb
    · exact hb
    · have hlap := dist_add_dist e b e
      rw [dist_self] at hlap
      unfold isAhead at hahead
      omega
  have hle := hn.span_le
  rw [ReplayWindow.fresh_iff hn.highest, hn.size]
  refine Or.inr ⟨?_, fun hx => hnot (hn.seen s hx (by omega))⟩
  have hh := dist_add_dist e h (h + 1)
  have hsh := dist_add_dist e s h
  have := dist_lt e h
  have := dist_lt s h
  rw [dist_add_one] at hh
  unfold REPLAY_WINDOW_SIZE
  omega

section Arrival

variable {g : GatedTracker} {e h s : Seq}

/-- Where an accepted number lies relative to the span: it starts a lap of its own, it is in the
span, or it is at most a window behind `expectedSeq`. -/
theorem Nested.pos_cases (hn : Nested g e h) (hs : g.window.Fresh s) :
    (isAhead s h ∧ dist e (h + 1) ≤ dist e s ∧ dist h s + dist e (h + 1) = dist e s + 1) ∨
    (¬ isAhead s h ∧ dist e s < dist e (h + 1)) ∨
    (¬ isAhead s h ∧ 0 < dist s e ∧ dist s e ≤ 1024) := by
  have hle := hn.span_le
  have hh := dist_add_dist e h (h + 1)
  have hs0 := dist_add_dist e s e
  have hhs := dist_add_dist e h s
  have hsh := dist_add_dist h s h
  have := dist_lt e h
  have := dist_lt e s
  have := dist_lt h s
  have := dist_lt s h
  have := dist_lt s e
  rw [dist_add_one] at hh
  rw [dist_self] at hs0 hsh
  rcases (ReplayWindow.fresh_iff hn.highest).1 hs with ha | ⟨hd, -⟩
  · refine Or.inl ⟨ha, ?_⟩
    unfold isAhead at ha
    omega
  · rw [hn.size] at hd
    unfold REPLAY_WINDOW_SIZE at hd
    unfold isAhead
    omega

/-- The window after an accepted number `s`, beside a tracker that has recorded it. -/
theorem Nested.recordArrival {w' : ReplayWindow} {h' : Seq} (hn : Nested g e h)
    (hsize : w'.size = REPLAY_WINDOW_SIZE) (hhigh : w'.highest = some h')
    (hspan : dist e (h + 1) ≤ dist e (h' + 1)) (hle : dist e (h' + 1) ≤ 1024)
    (hs : dist e s < dist e (h' + 1))
    (hseen : ∀ x ∈ w'.seen, dist e x < dist e (h' + 1) → x ∈ insert s g.tracker.receivedSeqs) :
    Nested ⟨w', g.tracker.recordArrival s⟩ e h' := by
  have hspans := hn.spans.mono hspan
  exact ⟨hsize, hhigh, hspans.recordArrival hs, hle,
    fun x hx hxk => hspans.mem_recordArrival hle (hseen x hx hxk) hxk⟩

/-- The tracker's update for a number in the span keeps the windows nested. -/
theorem Nested.processSequence {w' : ReplayWindow} {h' : Seq} (hn : Nested g e h)
    (hsize : w'.size = REPLAY_WINDOW_SIZE) (hhigh : w'.highest = some h')
    (hspan : dist e (h + 1) ≤ dist e (h' + 1)) (hle : dist e (h' + 1) ≤ 1024)
    (hs : dist e s < dist e (h' + 1))
    (hseen : ∀ x ∈ w'.seen, dist e x < dist e (h' + 1) → x ∈ insert s g.tracker.receivedSeqs) :
    ∃ e', Nested ⟨w', (g.tracker.processSequence s).1⟩ e' h' := by
  have hrec := hn.recordArrival hsize hhigh hspan hle hs hseen
  obtain ⟨n, hcfg⟩ := hn.spans.config
  have hgap : g.tracker.config.maxGapTracking = 1024 := by rw [hcfg]; rfl
  have hlap := dist_add_dist e s e
  have := dist_lt e s
  rw [dist_self] at hlap
  rcases processSequence_cases hn.spans.expected s with ⟨hdup, heq⟩ | ⟨-, hfar, heq⟩ |
    ⟨-, hb, -, heq⟩ | ⟨-, rfl, heq⟩ | ⟨-, ha, -, heq⟩ | ⟨-, hopp, heq⟩ <;> rw [heq]
  · refine ⟨e, hsize, hhigh, hn.spans.mono hspan, hle, fun x hx hxk => ?_⟩
    have := hseen x hx hxk
    rwa [Finset.insert_eq_of_mem hdup] at this
  · unfold isBehind isAhead at hfar
    omega
  · unfold isBehind at hb
    omega
  · refine hrec.of_advances (hrec.spans.advanceExpected hle ?_ ?_)
    · exact (hn.spans.mono hspan).mem_recordArrival hle (Finset.mem_insert_self _ _) hs
    · rw [(recordArrival_frame _ _).2.2.1]
      simp
  · have hgaps := (hrec.spans.recordGap hs.le hle).cleanup
    refine ⟨e, hsize, hhigh, hgaps, hle, fun x hx hxk => ?_⟩
    refine (hrec.spans.recordGap hs.le hle).mem_cleanup hle ?_ hxk
    rw [(recordGap_frame _ _ _).2.2]
    exact hrec.seen x hx hxk
  · omega

/-- A number that the window accepts more than a span ahead of the expected one makes the tracker
start over behind it. -/
theorem Nested.processSequence_far (hn : Nested g e h) (ha : isAhead s h)
    (hspan : dist e (h + 1) ≤ dist e s) (hdist : dist h s + dist e (h + 1) = dist e s + 1)
    (hfar : 1024 < dist e s) (hopp : dist e s ≠ 0x80000000) :
    (g.tracker.processSequence s).1 = g.tracker.resync s := by
  obtain ⟨n, hcfg⟩ := hn.spans.config
  have hgap : g.tracker.config.maxGapTracking = 1024 := by rw [hcfg]; rfl
  have hthr : g.tracker.config.behindResyncThreshold = 2048 := by rw [hcfg]; rfl
  have hle := hn.span_le
  have hback := dist_add_dist e s e
  unfold isAhead at ha
  rw [dist_self] at hback
  rcases processSequence_cases hn.spans.expected s with ⟨hdup, heq⟩ | ⟨-, -, heq⟩ |
    ⟨-, hb, hb', heq⟩ | ⟨-, rfl, heq⟩ | ⟨-, -, hle', heq⟩ | ⟨-, hopp', heq⟩
  · rcases hn.spans.received s hdup with hr | hr <;> omega
  · rw [heq]
  · -- the window has not moved that far behind the expected number
    omega
  · rw [dist_self] at hfar
    omega
  · omega
  · exact absurd hopp' hopp

/-- A number that advances the window: the span grows up to it, or starts over behind it. -/
theorem Nested.accept_ahead {w' : ReplayWindow} (hn : Nested g e h) (ha : isAhead s h)
    (hsize : w'.size = REPLAY_WINDOW_SIZE) (hhigh : w'.highest = some s)
    (hseen : w'.seen ⊆ insert s g.window.seen) (hspan : dist e (h + 1) ≤ dist e s)
    (hdist : dist h s + dist e (h + 1) = dist e s + 1)
    (hne : dist e s ≠ 1024) (hopp : dist e s ≠ 0x80000000)
    (hlap : dist e s < 1024 → ∀ x ∈ g.window.seen, dist h x = 0 ∨ dist h s ≤ dist h x) :
    ∃ e', Nested ⟨w', (g.tracker.processSequence s).1⟩ e' s := by
  by_cases hnear : dist e s < 1024
  · have hk : dist e (s + 1) = dist e s + 1 := by
      have hstep := dist_add_dist e s (s + 1)
      have := dist_lt e (s + 1)
      rw [dist_add_one] at hstep
      omega
    refine hn.processSequence hsize hhigh (by omega) (by omega) (by omega) fun x hx hxk => ?_
    rcases Finset.mem_insert.1 (hseen hx) with rfl | hx
    · exact Finset.mem_insert_self _ _
    -- a remembered number is in the old span, or `s` itself
    by_cases hold : dist e x < dist e (h + 1)
    · exact Finset.mem_insert_of_mem (hn.seen x hx hold)
    · have hx' := hlap hnear x hx
      have hh := dist_add_dist e h (h + 1)
      have hhx := dist_from e h x
      have := dist_lt e h
      rw [dist_add_one] at hh
      have : dist e x = dist e s := by omega
      exact dist_right_injective e this ▸ Finset.mem_insert_self _ _
  · rw [hn.processSequence_far ha hspan hdist (by omega) hopp]
    refine ⟨s + 1, hsize, hhigh, ?_, by rw [dist_self]; omega, ?_⟩
    · rw [dist_self]
      exact hn.spans.resync s
    · rw [dist_self]
      exact fun x _ hx => absurd hx (Nat.not_lt_zero _)

/-- A number behind the span, a duplicate or a late arrival, leaves the span as it is. -/
theorem Nested.accept_behind {w' : ReplayWindow} (hn : Nested g e h)
    (hsize : w'.size = REPLAY_WINDOW_SIZE) (hhigh : w'.highest = some h)
    (hseen : w'.seen ⊆ insert s g.window.seen) (hpos : 0 < dist s e) (hpos' : dist s e ≤ 1024) :
    Nested ⟨w', (g.tracker.processSequence s).1⟩ e h := by
  have hle := hn.span_le
  obtain ⟨n, hcfg⟩ := hn.spans.config
  have hthr : g.tracker.config.behindResyncThreshold = 2048 := by rw [hcfg]; rfl
  have hlap := dist_add_dist e s e
  rw [dist_self] at hlap
  rcases processSequence_cases hn.spans.expected s with ⟨hdup, heq⟩ | ⟨-, hfar, heq⟩ |
    ⟨-, -, -, heq⟩ | ⟨-, rfl, heq⟩ | ⟨-, ha, -, heq⟩ | ⟨-, hopp, heq⟩ <;> rw [heq]
  · refine ⟨hsize, hhigh, hn.spans, hle, fun x hx hxk => ?_⟩
    rcases Finset.mem_insert.1 (hseen hx) with rfl | hx
    · exact hdup
    · exact hn.seen x hx hxk
  · unfold isBehind isAhead at hfar
    omega
  · refine ⟨hsize, hhigh, ?_, hle, fun x hx hxk => ?_⟩
    · refine ⟨hn.spans.config, hn.spans.expected, fun b hb => ?_, fun q hq => ?_⟩
      · rcases Finset.mem_insert.1 hb with rfl | hb
        · exact Or.inr ⟨hpos, by omega⟩
        · exact hn.spans.received b hb
      · exact hn.spans.timers q ((mem_nakTimers_cancelNAK _ _).1 hq).1
    · rcases Finset.mem_insert.1 (hseen hx) with rfl | hx
      · exact Finset.mem_insert_self _ _
      · exact Finset.mem_insert_of_mem (hn.seen x hx hxk)
  · rw [dist_self] at hpos
    omega
  · unfold isAhead at ha
    omega
  · omega

/-- **An arrival at which the windows agree keeps them nested.** -/
theorem Nested.data (hn : Nested g e h) (hA : AgreedArrival g (.data s)) :
    ∃ e' h', Nested (g.trackDataSequence s) e' h' := by
  by_cases hf : g.window.Fresh s
  swap
  · -- a rejected number changes neither part
    refine ⟨e, h, ?_⟩
    rw [trackDataSequence, ReplayWindow.accept_not_fresh hf]
    exact hn
  have hacc : (g.window.accept s).1 = true := ReplayWindow.accept_eq_true.2 hf
  have hsize : (g.window.accept s).2.size = REPLAY_WINDOW_SIZE := by
    rw [ReplayWindow.size_accept, hn.size]
  have hhigh := ReplayWindow.highest_accept hf
  have hseen := ReplayWindow.seen_accept_subset g.window s
  simp only [hn.highest] at hhigh
  simp only [trackDataSequence, hacc, if_true]
  rcases hn.pos_cases hf with ⟨ha, hspan, hdist⟩ | ⟨hna, hpos⟩ | ⟨hna, hpos, hpos'⟩
  · obtain ⟨n, hcfg⟩ := hn.spans.config
    have hgap : g.tracker.config.maxGapTracking = 1024 := by rw [hcfg]; rfl
    obtain ⟨hne, hopp, hlap⟩ := hA hf e hn.spans.expected
    rw [hgap] at hne hlap
    rw [if_pos ha] at hhigh
    obtain ⟨e', he'⟩ := hn.accept_ahead ha hsize hhigh hseen hspan hdist hne hopp
      (hlap h hn.highest ha)
    exact ⟨e', s, he'⟩
  · -- the number fills a hole of the span
    rw [if_neg hna] at hhigh
    obtain ⟨e', he'⟩ := hn.processSequence hsize hhigh le_rfl hn.span_le hpos fun x hx hxk => by
      rcases Finset.mem_insert.1 (hseen hx) with rfl | hx
      · exact Finset.mem_insert_self _ _
      · exact Finset.mem_insert_of_mem (hn.seen x hx hxk)
    exact ⟨e', h, he'⟩
  · rw [if_neg hna] at hhigh
    exact ⟨e, h, hn.accept_behind hsize hhigh hseen hpos hpos'⟩

end Arrival

/-- A pair that has accepted nothing takes its baseline from the first arrival. -/
theorem nested_first (n : ℕ) (s : Seq) :
    Nested ((new n).trackDataSequence s) (s + 1) s := by
  refine ⟨rfl, rfl, ?_, by rw [dist_self]; omega, ?_⟩
  · rw [dist_self]
    refine ⟨⟨n, rfl⟩, rfl, fun b hb => ?_, fun q hq => by cases hq⟩
    obtain rfl : b = s := by simpa [trackDataSequence, new, ReplayWindow.accept, ReplayWindow.new,
      processSequence, SequenceTracker.new] using hb
    exact Or.inr (by rw [dist_add_one]; omega)
  · rw [dist_self]
    exact fun x _ hx => absurd hx (Nat.not_lt_zero _)

/-- Every step whose arrival the windows agree on keeps them in agreement. -/
theorem agrees_step (g : GatedTracker) (ev : Event) (hg : Agrees g) (hA : AgreedArrival g ev) :
    Agrees (step g ev) := by
  rcases hg with ⟨hw, n, ht⟩ | ⟨e, h, hn⟩
  · obtain rfl : g = new n := by cases g; simp_all [new]
    cases ev with
    | data s => exact Or.inr ⟨s + 1, s, nested_first n s⟩
    | nakTimer q => exact Or.inl ⟨rfl, n, rfl⟩
    | nakFlush => exact Or.inl ⟨rfl, n, rfl⟩
  · refine Or.inr ?_
    cases ev with
    | data s => exact hn.data hA
    | nakTimer q =>
      obtain ⟨e', he'⟩ := hn.of_advances (hn.spans.nakTimerFired hn.span_le q)
      exact ⟨e', h, he'⟩
    | nakFlush =>
      obtain ⟨hcfg, hexp, hrcv, htim⟩ := nakFlushFired_frame g.tracker
      refine ⟨e, h, hn.size, hn.highest, hn.spans.of_frame hcfg hexp hrcv (htim ▸ fun _ hq => hq),
        hn.span_le, fun x hx hxk => ?_⟩
      rw [step, hrcv]
      exact hn.seen x hx hxk

theorem Agrees.fresh_of_missing {g : GatedTracker} {s : Seq} (hg : Agrees g)
    (hs : g.tracker.Missing s) : g.window.Fresh s := by
  rcases hg with ⟨hw, -⟩ | ⟨e, h, hn⟩
  · exact ReplayWindow.fresh_of_empty (by rw [hw]; rfl) s
  · exact hn.fresh_of_missing hs

/-- **The tracker and the window agree.** In every run whose arrivals are not at one of the
boundaries where the two differ, the window would accept every number the tracker regards as
missing. -/
theorem missing_accepted (maxNakRounds : ℕ) (es : List Event)
    (h : Along step AgreedArrival (new maxNakRounds) es) (s : Seq)
    (hs : (run step (new maxNakRounds) es).tracker.Missing s) :
    ((run step (new maxNakRounds) es).window.accept s).1 = true := by
  have hinit : Agrees (new maxNakRounds) := Or.inl ⟨rfl, maxNakRounds, rfl⟩
  exact ReplayWindow.accept_eq_true.2 ((h.invariant agrees_step hinit).fresh_of_missing hs)

/-- The agreement on a run: the numbers `0` and `2` arrive, and `1` is missing. -/
theorem missing_accepted_one :
    ((run step (new 5) [.data 0, .data 2]).window.accept 1).1 = true := by
  have hexp : (step (new 5) (.data 0)).tracker.expectedSeq = some 1 := by decide +kernel
  have hhigh : (step (new 5) (.data 0)).window.highest = some 0 := by decide +kernel
  have hseen : (step (new 5) (.data 0)).window.seen = {0} := by decide +kernel
  have h : Along step AgreedArrival (new 5) [.data 0, .data 2] := by
    refine ⟨fun _ e he => (nomatch he), fun _ e he => ?_, trivial⟩
    obtain rfl : 1 = e := Option.some.inj (hexp.symm.trans he)
    refine ⟨by decide +kernel, by decide +kernel, fun h hh _ _ x hx => ?_⟩
    obtain rfl : 0 = h := Option.some.inj (hhigh.symm.trans hh)
    rw [hseen, Finset.mem_singleton] at hx
    exact Or.inl (by rw [hx, dist_self])
  exact missing_accepted 5 _ h 1 ⟨1, by decide +kernel, by decide +kernel, 2, by decide +kernel⟩

/-- **The windows disagree at the limit.** After `0` the number `1025` arrives, `1024` ahead of the
expected `1`: the tracker buffers it and goes on to NAK `1`, which is `1024` behind the window's
highest number, so the window would reject it. -/
theorem missing_not_accepted :
    ¬ ∀ (maxNakRounds : ℕ) (es : List Event) (s : Seq),
      (run step (new maxNakRounds) es).tracker.Missing s →
        ((run step (new maxNakRounds) es).window.accept s).1 = true := by
  intro h
  have hacc : ((step (new 5) (.data 0)).window.accept 1025).1 = true := by decide +kernel
  have hspans : Spans (step (new 5) (.data 0)).tracker 1 0 := (nested_first 5 0).spans
  have h1 : 1 ∉ (step (new 5) (.data 0)).tracker.receivedSeqs := by decide +kernel
  have h2 : 1025 ∉ (step (new 5) (.data 0)).tracker.receivedSeqs := by decide +kernel
  have htr : (run step (new 5) [.data 0, .data 1025]).tracker =
      ((step (new 5) (.data 0)).tracker.processSequence 1025).1 := by
    rw [run_cons, run_cons, run_nil]
    generalize step (new 5) (.data 0) = g at hacc
    rw [step, trackDataSequence, hacc, if_pos rfl]
  have hmiss : (run step (new 5) [.data 0, .data 1025]).tracker.Missing 1 := by
    rw [htr]
    generalize (step (new 5) (.data 0)).tracker = t at hspans h1 h2
    exact hspans.missing_of_ahead h1 h2 (by decide) (by decide)
  have hrej := h 5 [.data 0, .data 1025] 1 hmiss
  revert hrej
  decide +kernel

end GatedTracker

end EdgeLink
