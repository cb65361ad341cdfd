import EdgeLink.Foundations.Gaps
import EdgeLink.Reliability.Sequence

/-!
# What a tracker represents

A tracker counts a stream from its baseline on: the number at position `p` is `p` steps after the
baseline, and the numbers accepted or given up on so far are a set `S` of positions. The
collections of `transport/reliability/sequence.ts` are one representation of `S`, around the least
position `n` outside it (`Tracks`): the received numbers near `expectedSeq` are those of `S`, and
exactly the gaps of `S` have an armed timer.

* `Tracks.opened`: a first arrival or a new baseline settles position `0`.
* `Tracks.inOrder`, `Tracks.ahead`, `Tracks.late`: an arrival settles one position, or none.
* `Tracks.gaveUp`, `Tracks.rearmed`: a NAK timer gives a gap up, or is armed again.
* `not_evicts_of_dist_lt`, `Tracks.not_evicts_rearming`: a gap has room for its timer, so that
  none has to be evicted.
-/

namespace EdgeLink

open Serial

/-- The window of the tracker, on both sides of `expectedSeq`, spans less than half the numbers. -/
def SequenceTrackerConfig.Sane (c : SequenceTrackerConfig) : Prop :=
  c.maxOutOfOrder + c.maxGapTracking + c.behindResyncThreshold + 2 < 2 ^ 31

instance (c : SequenceTrackerConfig) : Decidable c.Sane := by
  unfold SequenceTrackerConfig.Sane
  infer_instance

/-- The farthest a remembered number may lie behind `expectedSeq`. -/
def SequenceTrackerConfig.reach (c : SequenceTrackerConfig) : ℕ :=
  c.maxOutOfOrder + c.behindResyncThreshold + 1

/-- The configuration of a session's tracker is sane, whatever its number of NAK rounds. -/
theorem sane_of_defaults (maxNakRounds : ℕ) :
    ({ maxNakRounds := maxNakRounds } : SequenceTrackerConfig).Sane := by
  simp only [SequenceTrackerConfig.Sane]
  decide

section Cutoff

variable {c : SequenceTrackerConfig} {e x : Seq}

/-- A clean-up keeps the numbers ahead that are within the gap limit. -/
theorem SequenceTrackerConfig.Sane.not_isBehind_cutoff (h : c.Sane)
    (hx : dist e x ≤ c.maxGapTracking) : ¬ isBehind x (e - BitVec.ofNat 32 c.maxOutOfOrder) := by
  unfold Sane at h
  have hc := dist_sub_ofNat e (n := c.maxOutOfOrder) (by omega)
  have h1 := dist_add_dist (e - BitVec.ofNat 32 c.maxOutOfOrder) e x
  have h2 := dist_add_dist x (e - BitVec.ofNat 32 c.maxOutOfOrder) x
  have := dist_lt (e - BitVec.ofNat 32 c.maxOutOfOrder) x
  rw [dist_self] at h2
  unfold isBehind
  omega

/-- A clean-up drops what lies far behind, also just after a move over a whole window. -/
theorem SequenceTrackerConfig.Sane.isBehind_cutoff (h : c.Sane) (hx : c.reach < dist x e)
    (hx' : dist x e ≤ c.reach + c.maxGapTracking + 1) :
    isBehind x (e - BitVec.ofNat 32 c.maxOutOfOrder) := by
  unfold Sane at h
  unfold reach at hx hx'
  have hc := dist_sub_ofNat e (n := c.maxOutOfOrder) (by omega)
  have h1 := dist_add_dist x (e - BitVec.ofNat 32 c.maxOutOfOrder) e
  have := dist_lt x (e - BitVec.ofNat 32 c.maxOutOfOrder)
  unfold isBehind
  omega

end Cutoff

namespace SequenceTracker

/-! ## Numbers without NAK state -/

/-- The number has no timer, no attempt counter and no pending NAK. -/
def Quiet (t : SequenceTracker) (s : Seq) : Prop :=
  s ∉ t.nakTimers ∧ s ∉ t.nakAttempts.keys ∧ s ∉ t.pendingNAKs

instance (t : SequenceTracker) (s : Seq) : Decidable (t.Quiet s) := by
  unfold Quiet
  infer_instance

theorem cancelNAK_of_quiet {t : SequenceTracker} {s : Seq} (h : t.Quiet s) :
    t.cancelNAK s = t := by
  obtain ⟨htim, hatt, hpend⟩ := h
  have hne : ∀ l : List Seq, s ∉ l → l.filter (· ≠ s) = l := fun l hl =>
    List.filter_eq_self.2 fun x hx => decide_eq_true fun hxs => hl (hxs ▸ hx)
  rw [cancelNAK, hne _ htim, hne _ hpend, OrderedMap.delete_of_not_mem hatt]

/-- The walk over received numbers that have no NAK state leaves the tracker alone. -/
theorem advance_of_quiet {t : SequenceTracker} (h : ∀ x ∈ t.receivedSeqs, t.Quiet x) (fuel : ℕ)
    (e : Seq) : (advance fuel t e).1 = t := by
  induction fuel generalizing e with
  | zero => rfl
  | succ fuel ih =>
    rw [advance]
    split_ifs with hmem
    · rw [cancelNAK_of_quiet (h e hmem)]
      exact ih (e + 1)
    · rfl

/-- **The advance over quiet numbers** moves `expectedSeq` to the next number that has not been
received, forgets what lies far behind that place, and does nothing else. -/
theorem advanceExpected_of_quiet {t : SequenceTracker} (h : ∀ x ∈ t.receivedSeqs, t.Quiet x)
    {y : Seq} (hy : y ∉ t.receivedSeqs) (e : Seq) :
    ∃ m, (∀ i < m, e + BitVec.ofNat 32 (i + 1) ∈ t.receivedSeqs) ∧
      e + BitVec.ofNat 32 (m + 1) ∉ t.receivedSeqs ∧
      t.advanceExpected e = { t with
        expectedSeq := some (e + BitVec.ofNat 32 (m + 1))
        receivedSeqs := t.receivedSeqs.filter fun x =>
          ¬ isBehind x (e + BitVec.ofNat 32 (m + 1) - BitVec.ofNat 32 t.config.maxOutOfOrder) } := by
  have hcard : t.receivedSeqs.card < 2 ^ 32 := by
    -- counted from the number after `y`, every received number comes before `y`
    have hlen := length_le_of_dist_lt (a := y + 1) t.receivedSeqs.nodup_toList (m := 2 ^ 32 - 1)
      (fun x hx => by
        have hne : x ≠ y := fun hxy => hy (hxy ▸ Finset.mem_toList.1 hx)
        have h1 := dist_from y (y + 1) x
        have h0 : dist y x ≠ 0 := fun hd => hne (dist_eq_zero.1 hd).symm
        have := dist_lt y x
        rw [dist_add_one] at h1
        omega)
    rw [Finset.length_toList] at hlen
    omega
  obtain ⟨m, -, h2, hrec, -, -⟩ := advance_spec t.receivedSeqs.card t (e + 1)
  have hstop := not_mem_advance hcard (e + 1)
  simp only [add_one_add_ofNat] at h2 hrec
  rw [h2] at hstop
  refine ⟨m, hrec, hstop, ?_⟩
  rw [advanceExpected, h2, advance_of_quiet h]
  rfl

/-! ## The representation -/

/-- The received numbers are the positions of `S` near `n`, the position of the expected number
`e`. -/
structure Window (t : SequenceTracker) (e : Seq) (n : ℕ) (S : Set ℕ) : Prop where
  sane : t.config.Sane
  expected : t.expectedSeq = some e
  bounded : ∀ p ∈ S, p ≤ n + t.config.maxGapTracking
  received : ∀ x, dist e x ≤ t.config.maxGapTracking → (x ∈ t.receivedSeqs ↔ n + dist e x ∈ S)
  near : ∀ x ∈ t.receivedSeqs, dist e x ≤ t.config.maxGapTracking ∨ dist x e ≤ t.config.reach

/-- The NAK state is that of the positions with `P`: exactly these have an armed timer, and no
other has a counter or a pending NAK. -/
structure NakState (t : SequenceTracker) (e : Seq) (n : ℕ) (P : ℕ → Prop) : Prop where
  timers : ∀ x, x ∈ t.nakTimers ↔ P (n + dist e x)
  nodup : t.nakTimers.Nodup
  attempts : ∀ x ∈ t.nakAttempts.keys, x ∈ t.nakTimers
  pending : ∀ x ∈ t.pendingNAKs, x ∈ t.nakTimers

/-- **The tracker represents** the set `S` of settled positions: it expects the number `e` at the
least open position `n`, and the gaps of `S` are what it NAKs. -/
structure Tracks (t : SequenceTracker) (e : Seq) (n : ℕ) (S : Set ℕ) : Prop where
  window : Window t e n S
  naks : NakState t e n (Gap S)
  least : IsLeast Sᶜ n

section Represents

variable {t : SequenceTracker} {e s x : Seq} {n : ℕ} {S : Set ℕ} {P Q : ℕ → Prop}

/-- Positions do not depend on the place they are counted from. -/
theorem dist_shift {m : ℕ} (hm : m ≤ dist e x) :
    dist (e + BitVec.ofNat 32 m) x + m = dist e x := by
  have hd := dist_add_ofNat e (n := m) (hm.trans_lt (dist_lt e x))
  have hfrom := dist_from e (e + BitVec.ofNat 32 m) x
  omega

theorem Window.of_frame (h : Window t e n S) {t' : SequenceTracker} (hcfg : t'.config = t.config)
    (hexp : t'.expectedSeq = t.expectedSeq)
    (hrcv : ∀ x, dist e x ≤ t.config.maxGapTracking → (x ∈ t'.receivedSeqs ↔ x ∈ t.receivedSeqs))
    (hnear : ∀ x ∈ t'.receivedSeqs, x ∈ t.receivedSeqs ∨ dist x e ≤ t.config.reach) :
    Window t' e n S where
  sane := hcfg ▸ h.sane
  expected := hexp.trans h.expected
  bounded := hcfg ▸ h.bounded
  received x hx := by
    rw [hcfg] at hx
    rw [hrcv x hx, h.received x hx]
  near x hx := by
    rw [hcfg]
    rcases hnear x hx with hx | hx
    · exact h.near x hx
    · exact Or.inr hx

theorem Window.cleanup (h : Window t e n S) : Window t.cleanupOldSequences e n S := by
  refine h.of_frame (by simp) (by simp) (fun x hx => ?_) fun x hx =>
    Or.inl (cleanupOldSequences_subset _ hx)
  rw [mem_cleanupOldSequences _ h.expected]
  exact and_iff_left (h.sane.not_isBehind_cutoff hx)

/-- Recording a number within the gap limit settles its position. -/
theorem Window.insert (h : Window t e n S) {t' : SequenceTracker} (hcfg : t'.config = t.config)
    (hexp : t'.expectedSeq = t.expectedSeq) (hs : dist e s ≤ t.config.maxGapTracking)
    (hrcv : ∀ x, dist e x ≤ t.config.maxGapTracking →
      (x ∈ t'.receivedSeqs ↔ x = s ∨ x ∈ t.receivedSeqs))
    (hsub : t'.receivedSeqs ⊆ Insert.insert s t.receivedSeqs) :
    Window t' e n (Insert.insert (n + dist e s) S) where
  sane := hcfg ▸ h.sane
  expected := hexp.trans h.expected
  bounded p hp := by
    rw [hcfg]
    rcases Set.mem_insert_iff.1 hp with rfl | hp
    · omega
    · exact h.bounded p hp
  received x hx := by
    rw [hcfg] at hx
    rw [hrcv x hx, Set.mem_insert_iff, h.received x hx]
    refine or_congr_left ⟨fun hxs => by rw [hxs], fun hd => ?_⟩
    exact dist_right_injective e (by omega)
  near x hx := by
    rw [hcfg]
    rcases Finset.mem_insert.1 (hsub hx) with rfl | hx
    · exact Or.inl hs
    · exact h.near x hx

/-- A number the window does not reach has not been received. -/
theorem Window.not_mem (h : Window t e n S) (hx : t.config.maxGapTracking < dist e x)
    (hx' : t.config.reach < dist x e) : x ∉ t.receivedSeqs := by
  intro hmem
  rcases h.near x hmem with h | h <;> omega

/-- The window of a tracker that has moved `expectedSeq` and cleaned up. -/
theorem Window.shift (h : Window t e n S) {m : ℕ} (hm : m ≤ t.config.maxGapTracking) :
    Window { t with
      expectedSeq := some (e + BitVec.ofNat 32 (m + 1))
      receivedSeqs := t.receivedSeqs.filter fun x =>
        ¬ isBehind x (e + BitVec.ofNat 32 (m + 1) - BitVec.ofNat 32 t.config.maxOutOfOrder) }
      (e + BitVec.ofNat 32 (m + 1)) (n + (m + 1)) S := by
  have hsane := h.sane
  unfold SequenceTrackerConfig.Sane at hsane
  have hdm := dist_add_ofNat e (n := m + 1) (by omega)
  refine ⟨h.sane, rfl, fun p hp => ?_, fun x hx => ?_, fun x hx => ?_⟩
  · have := h.bounded p hp
    dsimp only
    omega
  · have hcut := h.sane.not_isBehind_cutoff hx
    dsimp only at hx ⊢
    rw [Finset.mem_filter, and_iff_left hcut]
    have hfrom := dist_from e (e + BitVec.ofNat 32 (m + 1)) x
    have hlap := dist_add_dist e x e
    have := dist_lt e x
    have := dist_lt x e
    have := dist_lt (e + BitVec.ofNat 32 (m + 1)) x
    rw [dist_self] at hlap
    rcases Nat.lt_or_ge t.config.maxGapTracking (dist e x) with hfar | hin
    · -- what the window moves over at its far end is open
      refine iff_of_false (h.not_mem hfar ?_) fun hS => ?_
      · unfold SequenceTrackerConfig.reach
        omega
      · have := h.bounded _ hS
        omega
    · rw [h.received x hin]
      rw [show n + (m + 1) + dist (e + BitVec.ofNat 32 (m + 1)) x = n + dist e x by omega]
  · obtain ⟨hx, hcut⟩ := Finset.mem_filter.1 hx
    dsimp only
    by_contra hfar
    rw [not_or, Nat.not_le, Nat.not_le] at hfar
    refine hcut (h.sane.isBehind_cutoff hfar.2 ?_)
    have hback := dist_add_dist x e (e + BitVec.ofNat 32 (m + 1))
    have hfrom := dist_from e (e + BitVec.ofNat 32 (m + 1)) x
    have hlap := dist_add_dist x (e + BitVec.ofNat 32 (m + 1)) x
    have := dist_lt x (e + BitVec.ofNat 32 (m + 1))
    rw [dist_self] at hlap
    have hnear := h.near x hx
    unfold SequenceTrackerConfig.reach at hfar hnear ⊢
    omega

/-- The number after the window has not been received. -/
theorem Window.not_mem_end (h : Window t e n S) :
    e + BitVec.ofNat 32 (t.config.maxGapTracking + 1) ∉ t.receivedSeqs := by
  have hsane := h.sane
  unfold SequenceTrackerConfig.Sane at hsane
  have hd := dist_add_ofNat e (n := t.config.maxGapTracking + 1) (by omega)
  have hlap := dist_add_dist e (e + BitVec.ofNat 32 (t.config.maxGapTracking + 1)) e
  rw [dist_self] at hlap
  refine h.not_mem (by omega) ?_
  unfold SequenceTrackerConfig.reach
  omega

/-- Dropping the NAK state of a number takes its position out. -/
theorem NakState.cancelNAK (h : NakState t e n P) (s : Seq) :
    NakState (t.cancelNAK s) e n fun p => P p ∧ p ≠ n + dist e s where
  timers x := by
    rw [mem_nakTimers_cancelNAK, h.timers x]
    refine and_congr_right fun _ => not_congr ⟨fun hxs => by rw [hxs], fun hd => ?_⟩
    exact dist_right_injective e (by omega)
  nodup := h.nodup.filter _
  attempts x hx := by
    obtain ⟨hne, hx⟩ := OrderedMap.mem_keys_delete.1 hx
    exact (mem_nakTimers_cancelNAK _ _).2 ⟨h.attempts x hx, hne⟩
  pending x hx := by
    obtain ⟨hx, hne⟩ := List.mem_filter.1 hx
    exact (mem_nakTimers_cancelNAK _ _).2 ⟨h.pending x hx, of_decide_eq_true hne⟩

theorem NakState.congr (h : NakState t e n P) (hPQ : ∀ p, P p ↔ Q p) : NakState t e n Q where
  timers x := (h.timers x).trans (hPQ _)
  nodup := h.nodup
  attempts := h.attempts
  pending := h.pending

/-- The NAK state does not depend on the received numbers nor on the expected one. -/
theorem NakState.of_frame (h : NakState t e n P) {t' : SequenceTracker}
    (htim : t'.nakTimers = t.nakTimers) (hatt : t'.nakAttempts = t.nakAttempts)
    (hpend : t'.pendingNAKs = t.pendingNAKs) : NakState t' e n P where
  timers := htim ▸ h.timers
  nodup := htim ▸ h.nodup
  attempts := htim ▸ hatt ▸ h.attempts
  pending := htim ▸ hpend ▸ h.pending

/-- The NAK state seen from a later place, which none of its positions precedes. -/
theorem NakState.shift (h : NakState t e n P) {m : ℕ} (hP : ∀ p, P p → n + m ≤ p)
    (hP' : ∀ p, P p → p < n + 2 ^ 32) (hm : m < 2 ^ 32) :
    NakState t (e + BitVec.ofNat 32 m) (n + m) P where
  timers x := by
    rw [h.timers x]
    have hd := dist_add_ofNat e hm
    have hfrom := dist_from e (e + BitVec.ofNat 32 m) x
    have heq : ∀ hle : m ≤ dist e x,
        n + dist e x = n + m + dist (e + BitVec.ofNat 32 m) x := fun hle => by
      have := dist_shift (e := e) hle
      omega
    constructor
    · intro hp
      have := hP _ hp
      rwa [← heq (by omega)]
    · intro hp
      have := hP' _ hp
      rwa [heq (by omega)]
  nodup := h.nodup
  attempts := h.attempts
  pending := h.pending

theorem NakState.quiet (h : NakState t e n P) (hx : ¬ P (n + dist e x)) : t.Quiet x := by
  have htim : x ∉ t.nakTimers := fun hmem => hx ((h.timers x).1 hmem)
  exact ⟨htim, fun hmem => htim (h.attempts x hmem), fun hmem => htim (h.pending x hmem)⟩

end Represents

/-! ## Room for the timers -/

/-- Arming the timer of `s` evicts another one. -/
def Evicts (t : SequenceTracker) (s : Seq) : Prop :=
  s ∉ t.nakTimers ∧ t.config.maxGapTracking ≤ t.nakTimers.length

instance (t : SequenceTracker) (s : Seq) : Decidable (t.Evicts s) := by
  unfold Evicts
  infer_instance

/-- The calls of `scheduleNAK` that a walk over a gap makes, with the trackers they are made on. -/
def recordGapCalls : ℕ → SequenceTracker → Seq → List (SequenceTracker × Seq)
  | 0, _, _ => []
  | gap + 1, t, candidate =>
    if candidate ∈ t.receivedSeqs then recordGapCalls gap t (candidate + 1)
    else (t, candidate) :: recordGapCalls gap (t.scheduleNAK candidate) (candidate + 1)

theorem scheduleNAK_of_not_evicts {t : SequenceTracker} {s : Seq} (h : ¬ t.Evicts s) :
    t.scheduleNAK s = { t with
      nakTimers := if s ∈ t.nakTimers then t.nakTimers else t.nakTimers ++ [s] } := by
  unfold scheduleNAK
  by_cases hs : s ∈ t.nakTimers
  · simp only [hs, if_true]
  · have hroom : ¬ t.config.maxGapTracking ≤ t.nakTimers.length := fun hfull => h ⟨hs, hfull⟩
    simp only [hs, if_false, if_neg hroom]

/-- There is room for one more number of a window that is no longer than the gap limit. -/
theorem not_evicts_of_dist_lt {t : SequenceTracker} {o s : Seq} (hnd : t.nakTimers.Nodup)
    (htim : ∀ x ∈ t.nakTimers, dist o x < t.config.maxGapTracking)
    (hs : dist o s < t.config.maxGapTracking) : ¬ t.Evicts s := by
  rintro ⟨hmem, hfull⟩
  have hlen := length_le_of_dist_lt (List.nodup_cons.2 ⟨hmem, hnd⟩)
    (List.forall_mem_cons.2 ⟨hs, htim⟩)
  rw [List.length_cons] at hlen
  omega

/-- **The walk over a gap** inside the window arms the timers of what is missing in it, one by one
and without evicting any. -/
theorem recordGap_spec {o : Seq} {g : ℕ} {t : SequenceTracker} {c : Seq}
    (hlt : t.config.maxGapTracking < 2 ^ 32) (hnd : t.nakTimers.Nodup)
    (htim : ∀ x ∈ t.nakTimers, dist o x < t.config.maxGapTracking)
    (hgap : dist o c + g ≤ t.config.maxGapTracking) :
    ∃ l : List Seq, (recordGap g t c).1 = { t with nakTimers := l } ∧ l.Nodup ∧
      (∀ x, x ∈ l ↔ x ∈ t.nakTimers ∨ (x ∉ t.receivedSeqs ∧
        dist o c ≤ dist o x ∧ dist o x < dist o c + g)) ∧
      ∀ a ∈ recordGapCalls g t c, ¬ a.1.Evicts a.2 := by
  induction g generalizing t c with
  | zero =>
    refine ⟨t.nakTimers, rfl, hnd, fun x => ?_, fun a ha => absurd ha List.not_mem_nil⟩
    exact ⟨Or.inl, fun h => h.elim id fun h => by omega⟩
  | succ g ih =>
    have hnext : dist o (c + 1) = dist o c + 1 := by
      have := dist_add_dist o c (c + 1)
      have := dist_lt o (c + 1)
      rw [dist_add_one] at *
      omega
    rw [recordGap, recordGapCalls]
    by_cases hc : c ∈ t.receivedSeqs
    · simp only [if_pos hc]
      obtain ⟨l, heq, hl, hmem, hcalls⟩ := ih (c := c + 1) hlt hnd htim (by omega)
      refine ⟨l, heq, hl, fun x => (hmem x).trans (or_congr_right (and_congr_right fun hx => ?_)),
        hcalls⟩
      have hne : dist o x ≠ dist o c := fun hd =>
        hx (dist_right_injective o hd ▸ hc)
      omega
    · simp only [if_neg hc]
      have hroom : ¬ t.Evicts c := not_evicts_of_dist_lt hnd htim (by omega)
      have hsched := scheduleNAK_of_not_evicts hroom
      have hmem' : ∀ x, x ∈ (t.scheduleNAK c).nakTimers ↔
          x ∈ t.nakTimers ∨ x = c := by
        intro x
        rw [hsched]
        dsimp only
        split_ifs with h
        · exact ⟨Or.inl, fun hx => hx.elim id fun hx => hx ▸ h⟩
        · rw [List.mem_append, List.mem_singleton]
      have hnd' : (t.scheduleNAK c).nakTimers.Nodup := by
        rw [hsched]
        dsimp only
        split_ifs with h
        · exact hnd
        · exact hnd.append (List.nodup_singleton _) (List.disjoint_singleton.2 h)
      obtain ⟨l, heq, hl, hmem, hcalls⟩ := ih (t := t.scheduleNAK c)
        (c := c + 1) (by simpa using hlt) hnd'
        (fun x hx => by
          rw [config_scheduleNAK]
          rcases (hmem' x).1 hx with hx | rfl
          · exact htim x hx
          · omega)
        (by rw [config_scheduleNAK]; omega)
      refine ⟨l, by rw [heq, hsched], hl, fun x => ?_,
        List.forall_mem_cons.2 ⟨hroom, hcalls⟩⟩
      rw [hmem x, hmem', receivedSeqs_scheduleNAK, hnext, or_assoc]
      refine or_congr_right ⟨?_, ?_⟩
      · rintro (rfl | ⟨hx, hlo, hhi⟩)
        · exact ⟨hc, le_rfl, by omega⟩
        · exact ⟨hx, by omega, by omega⟩
      · rintro ⟨hx, hlo, hhi⟩
        by_cases hd : dist o x = dist o c
        · exact Or.inl (dist_right_injective o hd)
        · exact Or.inr ⟨hx, by omega, by omega⟩

namespace Tracks

/-! ## Consequences -/

section Consequences

variable {t : SequenceTracker} {e x : Seq} {n : ℕ} {S : Set ℕ}

theorem sane (h : Tracks t e n S) :
    t.config.maxOutOfOrder + t.config.maxGapTracking + t.config.behindResyncThreshold + 2 < 2 ^ 31 :=
  h.window.sane

/-- The gaps lie in the window. -/
theorem lt_of_gap (h : Tracks t e n S) {p : ℕ} (hp : Gap S p) :
    n ≤ p ∧ p < n + t.config.maxGapTracking := by
  obtain ⟨q, hq, hlt⟩ := hp.2
  exact ⟨le_of_gap h.least hp, hlt.trans_le (h.window.bounded q hq)⟩

theorem dist_lt_of_timer (h : Tracks t e n S) (hx : x ∈ t.nakTimers) :
    dist e x < t.config.maxGapTracking := by
  have := (h.lt_of_gap ((h.naks.timers x).1 hx)).2
  omega

theorem not_mem_of_timer (h : Tracks t e n S) (hx : x ∈ t.nakTimers) : x ∉ t.receivedSeqs := by
  rw [h.window.received x (h.dist_lt_of_timer hx).le]
  exact ((h.naks.timers x).1 hx).1

theorem quiet (h : Tracks t e n S) (hx : x ∈ t.receivedSeqs) : t.Quiet x :=
  h.naks.quiet fun hp => h.not_mem_of_timer ((h.naks.timers x).2 hp) hx

theorem not_mem_expected (h : Tracks t e n S) : e ∉ t.receivedSeqs := by
  rw [h.window.received e (by simp), dist_self]
  exact h.least.1

/-- Nothing is left to NAK for a number behind the expected one. -/
theorem quiet_of_isBehind (h : Tracks t e n S) (hx : isBehind x e) : t.Quiet x := by
  refine h.naks.quiet fun hp => ?_
  have := h.dist_lt_of_timer ((h.naks.timers x).2 hp)
  have := h.sane
  unfold isBehind at hx
  rcases dist_add_dist e x e with hlap | hlap <;> rw [dist_self] at hlap <;> omega

/-- There are never more timers than gaps are tracked. -/
theorem length_nakTimers (h : Tracks t e n S) :
    t.nakTimers.length ≤ t.config.maxGapTracking :=
  length_le_of_dist_lt h.naks.nodup fun _ hx => h.dist_lt_of_timer hx

/-- The positions before the expected one are settled. -/
theorem settled (h : Tracks t e n S) {p : ℕ} (hp : p < n) : p ∈ S := by
  by_contra hmem
  exact absurd (h.least.2 hmem) (by omega)

end Consequences

/-! ## A new baseline -/

/-- A tracker without NAK state that has received one number and expects the next. -/
theorem opened {t : SequenceTracker} {s : Seq} (hsane : t.config.Sane)
    (hexp : t.expectedSeq = some (s + 1)) (hrcv : t.receivedSeqs = {s})
    (htim : t.nakTimers = []) (hatt : t.nakAttempts = .empty) (hpend : t.pendingNAKs = []) :
    Tracks t (s + 1) 1 {0} where
  window := by
    refine ⟨hsane, hexp, fun p hp => ?_, fun x hx => ?_, fun x hx => Or.inr ?_⟩
    · rw [Set.mem_singleton_iff] at hp
      omega
    · unfold SequenceTrackerConfig.Sane at hsane
      have hlap := dist_from s (s + 1) x
      rw [dist_add_one] at hlap
      rw [hrcv, Finset.mem_singleton, Set.mem_singleton_iff]
      constructor
      · rintro rfl
        rw [dist_self] at hlap
        omega
      · omega
    · rw [hrcv, Finset.mem_singleton] at hx
      rw [hx, dist_add_one]
      unfold SequenceTrackerConfig.reach
      omega
  naks := by
    refine ⟨fun x => ?_, htim ▸ List.nodup_nil, ?_, ?_⟩
    · rw [htim]
      refine iff_of_false (List.not_mem_nil) fun hgap => ?_
      obtain ⟨-, q, hq, hlt⟩ := hgap
      rw [Set.mem_singleton_iff] at hq
      omega
    · rw [hatt]
      exact fun x hx => absurd hx (List.not_mem_nil)
    · rw [hpend]
      exact fun x hx => absurd hx (List.not_mem_nil)
  least := by
    refine ⟨by simp, fun p hp => ?_⟩
    rw [Set.mem_compl_iff, Set.mem_singleton_iff] at hp
    omega

theorem resync {t : SequenceTracker} (hsane : t.config.Sane) (s : Seq) :
    Tracks (t.resync s) (s + 1) 1 {0} :=
  opened hsane rfl rfl rfl rfl rfl

/-! ## The advance -/

section Steps

variable {t : SequenceTracker} {e s : Seq} {n : ℕ} {S : Set ℕ}

/-- **The advance of a tracker**: once the least open position was settled, `expectedSeq` moves to
the next open one, at most one position beyond the gap limit, and nothing else is touched but the
numbers far behind. -/
theorem advanceExpected (hwin : Window t e n S) (hnak : NakState t e n (Gap S))
    (hbefore : ∀ p < n, p ∈ S) (hn : n ∈ S) :
    ∃ m R, m ≤ t.config.maxGapTracking ∧
      t.advanceExpected e = { t with
        expectedSeq := some (e + BitVec.ofNat 32 (m + 1)), receivedSeqs := R } ∧
      Tracks (t.advanceExpected e) (e + BitVec.ofNat 32 (m + 1)) (n + (m + 1)) S := by
  have hsane := hwin.sane
  unfold SequenceTrackerConfig.Sane at hsane
  have hquiet : ∀ x ∈ t.receivedSeqs, t.Quiet x := by
    refine fun x hx => hnak.quiet fun hp => hp.1 ?_
    obtain ⟨q, hq, hlt⟩ := hp.2
    have := hwin.bounded q hq
    exact (hwin.received x (by omega)).1 hx
  obtain ⟨m, hrec, hstop, heq⟩ := advanceExpected_of_quiet hquiet hwin.not_mem_end e
  -- the walk ends in the window, or right after it
  have hm : m ≤ t.config.maxGapTracking := by
    by_contra hlt
    exact hwin.not_mem_end (hrec t.config.maxGapTracking (by omega))
  have hmem : ∀ k ≤ m, n + k ∈ S := by
    intro k hk
    cases k with
    | zero => exact hn
    | succ k =>
      have hd := dist_add_ofNat e (n := k + 1) (by omega)
      have := (hwin.received _ (by omega)).1 (hrec k (by omega))
      rwa [hd] at this
  have hdm := dist_add_ofNat e (n := m + 1) (by omega)
  have hopen : n + (m + 1) ∉ S := by
    intro hS
    have hle := hwin.bounded _ hS
    exact hstop ((hwin.received _ (by omega)).2 (by rwa [hdm]))
  have hleast : IsLeast Sᶜ (n + (m + 1)) := by
    refine ⟨hopen, fun p hp => ?_⟩
    by_contra hlt
    rcases Nat.lt_or_ge p n with hpn | hpn
    · exact hp (hbefore p hpn)
    · refine hp ?_
      have := hmem (p - n) (by omega)
      rwa [Nat.add_sub_cancel' hpn] at this
  refine ⟨m, _, hm, heq, heq ▸ ⟨hwin.shift hm, ?_, hleast⟩⟩
  refine (hnak.shift (fun p hp => le_of_gap hleast hp) (fun p hp => ?_) (by omega)).of_frame
    rfl rfl rfl
  obtain ⟨q, hq, hlt⟩ := hp.2
  have := hwin.bounded q hq
  omega

/-! ## Arrivals -/

/-- The tracker after the number `s` was settled, seen from the one before: nothing is left to NAK
for `s`, and `expectedSeq` has moved over what is contiguous. -/
structure Settles (t t' : SequenceTracker) (e : Seq) (n : ℕ) (S : Set ℕ) (s : Seq) : Prop where
  config : t'.config = t.config
  attempts : t'.nakAttempts = t.nakAttempts.delete s
  pending : t'.pendingNAKs = t.pendingNAKs.filter (· ≠ s)
  tracks : ∃ e', dist e e' ≤ t.config.maxGapTracking + 1 ∧
    Tracks t' e' (n + dist e e') (Insert.insert (n + dist e s) S)

/-- Recording an arrival drops its NAK state, and at most some far numbers. -/
theorem recordArrival_eq (h : Window t e n S) (hs : dist e s ≤ t.config.maxGapTracking) :
    ∃ R, t.recordArrival s = { t.cancelNAK s with receivedSeqs := R } ∧
      Window (t.recordArrival s) e n (Insert.insert (n + dist e s) S) := by
  have heq : ∃ R, t.recordArrival s = { t.cancelNAK s with receivedSeqs := R } := by
    unfold recordArrival cleanupOldSequences
    dsimp only
    split_ifs
    · split
      · exact ⟨_, rfl⟩
      · exact ⟨_, rfl⟩
    · exact ⟨_, rfl⟩
  obtain ⟨hcfg, hexp, -, hsub⟩ := recordArrival_frame t s
  obtain ⟨R, hR⟩ := heq
  refine ⟨R, hR, h.insert hcfg hexp hs (fun x hx => ?_) hsub⟩
  constructor
  · exact fun hmem => Finset.mem_insert.1 (hsub hmem)
  · exact fun hmem => mem_recordArrival h.expected (Finset.mem_insert.2 hmem)
      (h.sane.not_isBehind_cutoff hx)

/-- A number that is behind the window and not remembered is only remembered again. -/
theorem late (h : Tracks t e n S) (hs : isBehind s e)
    (hd : dist s e ≤ t.config.behindResyncThreshold) :
    Tracks ({ t with receivedSeqs := Insert.insert s t.receivedSeqs }.cancelNAK s) e n S ∧
      { t with receivedSeqs := Insert.insert s t.receivedSeqs }.cancelNAK s =
        { t with receivedSeqs := Insert.insert s t.receivedSeqs } := by
  have hq : { t with receivedSeqs := Insert.insert s t.receivedSeqs }.Quiet s :=
    h.quiet_of_isBehind hs
  have hsane := h.sane
  rw [cancelNAK_of_quiet hq]
  refine ⟨⟨h.window.of_frame rfl rfl (fun x hx => ?_) fun x hx => ?_,
    h.naks.of_frame rfl rfl rfl, h.least⟩, rfl⟩
  · refine Finset.mem_insert.trans (or_iff_right ?_)
    rintro rfl
    unfold isBehind at hs
    rcases dist_add_dist e x e with hlap | hlap <;> rw [dist_self] at hlap <;> omega
  · unfold SequenceTrackerConfig.reach
    rcases Finset.mem_insert.1 hx with rfl | hx
    · exact Or.inr (by omega)
    · exact Or.inl hx

/-- The number expected next settles its position, and `expectedSeq` moves on. -/
theorem inOrder (h : Tracks t e n S) :
    Settles t ((t.recordArrival e).advanceExpected e) e n S e ∧
      ((t.recordArrival e).advanceExpected e).abandonedCount = t.abandonedCount := by
  have hsane := h.sane
  obtain ⟨R, heq, hwin⟩ := recordArrival_eq h.window (s := e) (by simp)
  have hnak : NakState (t.recordArrival e) e n (Gap (Insert.insert (n + dist e e) S)) := by
    rw [heq]
    refine ((h.naks.cancelNAK e).congr fun p => ?_).of_frame rfl rfl rfl
    rw [dist_self, Nat.add_zero, gap_insert_of_gap (gap_of_lt_isLeast h.least)]
  obtain ⟨m, R', hm, hadv, htracks⟩ := advanceExpected hwin hnak
    (fun p hp => Set.mem_insert_of_mem _ (h.settled hp)) (Set.mem_insert_iff.2 (by simp))
  have hcfg : (t.recordArrival e).config = t.config := (recordArrival_frame t e).1
  rw [hcfg] at hm
  have hd := dist_add_ofNat e (n := m + 1) (by omega)
  refine ⟨⟨?_, ?_, ?_, e + BitVec.ofNat 32 (m + 1), ?_, by rwa [hd]⟩, ?_⟩
  · rw [hadv]
    exact hcfg
  · rw [hadv, heq]
    rfl
  · rw [hadv, heq]
    rfl
  · omega
  · rw [hadv, heq]
    rfl

/-- A number ahead within the gap limit settles its position and opens the gaps before it. -/
theorem ahead (h : Tracks t e n S) (hs : s ≠ e) (hd : dist e s ≤ t.config.maxGapTracking) :
    Settles t ((recordGap (dist e s) (t.recordArrival s) e).1.cleanupOldSequences) e n S s ∧
      ((recordGap (dist e s) (t.recordArrival s) e).1.cleanupOldSequences).abandonedCount =
        t.abandonedCount ∧
      ∀ a ∈ recordGapCalls (dist e s) (t.recordArrival s) e, ¬ a.1.Evicts a.2 := by
  have hsane := h.sane
  obtain ⟨R, heq, hwin⟩ := recordArrival_eq h.window hd
  have hcfg : (t.recordArrival s).config = t.config := (recordArrival_frame t s).1
  have hnak : NakState (t.recordArrival s) e n fun p => Gap S p ∧ p ≠ n + dist e s := by
    rw [heq]
    exact (h.naks.cancelNAK s).of_frame rfl rfl rfl
  obtain ⟨l, hrec, hnd, hmem, hcalls⟩ := recordGap_spec (o := e) (g := dist e s)
    (t := t.recordArrival s) (c := e) (by rw [hcfg]; omega) hnak.nodup
    (fun x hx => by
      rw [hcfg]
      have := (h.lt_of_gap ((hnak.timers x).1 hx).1).2
      omega)
    (by rw [dist_self, hcfg]; omega)
  have hwin' : Window (recordGap (dist e s) (t.recordArrival s) e).1.cleanupOldSequences e n
      (Insert.insert (n + dist e s) S) := by
    refine Window.cleanup ?_
    rw [hrec]
    exact hwin.of_frame rfl rfl (fun _ _ => Iff.rfl) fun _ hx => Or.inl hx
  have hclean : (recordGap (dist e s) (t.recordArrival s) e).1.cleanupOldSequences =
      { t.cancelNAK s with
        receivedSeqs := (recordGap (dist e s) (t.recordArrival s) e).1.cleanupOldSequences.receivedSeqs
        nakTimers := l } := by
    rw [hrec, heq]
    unfold cleanupOldSequences
    dsimp only
    split <;> rfl
  have hpos : dist e s ≠ 0 := fun h0 => hs (dist_eq_zero.1 h0).symm
  refine ⟨⟨by rw [hclean]; rfl, by rw [hclean]; rfl, by rw [hclean]; rfl, e, by simp, ?_⟩,
    by rw [hclean]; rfl, hcalls⟩
  rw [dist_self, Nat.add_zero]
  refine ⟨hwin', ?_, isLeast_insert_of_ne h.least (by omega)⟩
  have htim : ∀ x, x ∈ l ↔ Gap (Insert.insert (n + dist e s) S) (n + dist e x) := by
    intro x
    rw [hmem x, hnak.timers x, gap_insert, dist_self, Nat.zero_add]
    constructor
    · rintro (⟨hgap, hne⟩ | ⟨hx, -, hlt⟩)
      · exact ⟨hne, Or.inl hgap⟩
      · rw [hwin.received x (by rw [hcfg]; omega), Set.mem_insert_iff, not_or] at hx
        exact ⟨hx.1, Or.inr ⟨hx.2, by omega⟩⟩
    · rintro ⟨hne, hgap | ⟨hx, hlt⟩⟩
      · exact Or.inl ⟨hgap, hne⟩
      · refine Or.inr ⟨?_, Nat.zero_le _, by omega⟩
        rw [hwin.received x (by rw [hcfg]; omega), Set.mem_insert_iff, not_or]
        exact ⟨hne, hx⟩
  have hsub : ∀ x ∈ (t.recordArrival s).nakTimers, x ∈ l := fun x hx => (hmem x).2 (Or.inl hx)
  rw [hclean]
  refine ⟨htim, hnd, fun x hx => hsub x (hnak.attempts x ?_), fun x hx => hsub x (hnak.pending x ?_)⟩
  · rwa [heq]
  · rwa [heq]

/-! ## Timers -/

/-- The tracker that has put `q` among the received numbers to give up on it. -/
def givingUp (t : SequenceTracker) (q : Seq) : SequenceTracker :=
  { t.cancelNAK q with
    receivedSeqs := Insert.insert q t.receivedSeqs
    abandonedCount := t.abandonedCount + 1 }

/-- The timer that fired has been deleted already: deleting it again changes nothing. -/
theorem abandonSequence_fired (t : SequenceTracker) (q : Seq) :
    abandonSequence { t with nakTimers := t.nakTimers.filter (· ≠ q) } q =
      if t.expectedSeq = some q then (givingUp t q).advanceExpected q else givingUp t q := by
  simp only [abandonSequence, givingUp, cancelNAK, List.filter_filter, Bool.and_self]

/-- **A number given up** settles its position as an arrival does. -/
theorem gaveUp {q : Seq} (h : Tracks t e n S) (hq : q ∈ t.nakTimers) :
    Settles t (abandonSequence { t with nakTimers := t.nakTimers.filter (· ≠ q) } q) e n S q ∧
      (abandonSequence { t with nakTimers := t.nakTimers.filter (· ≠ q) } q).abandonedCount =
        t.abandonedCount + 1 := by
  have hsane := h.sane
  have hgap := (h.naks.timers q).1 hq
  have hdq := h.dist_lt_of_timer hq
  have hwin : Window (givingUp t q) e n (Insert.insert (n + dist e q) S) :=
    h.window.insert rfl rfl hdq.le (fun x _ => Finset.mem_insert) subset_rfl
  have hnak : NakState (givingUp t q) e n (Gap (Insert.insert (n + dist e q) S)) := by
    refine ((h.naks.cancelNAK q).congr fun p => ?_).of_frame rfl rfl rfl
    rw [gap_insert_of_gap hgap.of_lt]
  rw [abandonSequence_fired, h.window.expected]
  by_cases hqe : e = q
  · subst hqe
    rw [if_pos rfl]
    obtain ⟨m, R', hm, hadv, htracks⟩ := advanceExpected hwin hnak
      (fun p hp => Set.mem_insert_of_mem _ (h.settled hp)) (Set.mem_insert_iff.2 (by simp))
    have hm : m ≤ t.config.maxGapTracking := hm
    have hd := dist_add_ofNat e (n := m + 1) (by omega)
    exact ⟨⟨by rw [hadv]; rfl, by rw [hadv]; rfl, by rw [hadv]; rfl,
      e + BitVec.ofNat 32 (m + 1), by omega, by rwa [hd]⟩, by rw [hadv]; rfl⟩
  · rw [if_neg fun heq => hqe (Option.some.inj heq)]
    refine ⟨⟨rfl, rfl, rfl, e, by simp, ?_⟩, rfl⟩
    rw [dist_self, Nat.add_zero]
    refine ⟨hwin, hnak, isLeast_insert_of_ne h.least fun hp => hqe ?_⟩
    exact dist_eq_zero.1 (by omega)

/-- The tracker whose timer for `q` fired and is to be armed again. -/
def rearming (t : SequenceTracker) (q : Seq) : SequenceTracker :=
  { t with
    nakTimers := t.nakTimers.filter (· ≠ q)
    nakAttempts := t.nakAttempts.set q ((t.nakAttempts.get? q).getD 0 + 1)
    pendingNAKs := if q ∈ t.pendingNAKs then t.pendingNAKs else t.pendingNAKs ++ [q]
    nakFlushTimer := true }

theorem not_evicts_rearming {q : Seq} (h : Tracks t e n S) (hq : q ∈ t.nakTimers) :
    ¬ (rearming t q).Evicts q :=
  not_evicts_of_dist_lt (h.naks.nodup.filter _)
    (fun _ hx => h.dist_lt_of_timer (List.mem_of_mem_filter hx)) (h.dist_lt_of_timer hq)

/-- **A NAK round**: the timer is armed again, and one more attempt is counted. -/
theorem rearmed {q : Seq} (h : Tracks t e n S) (hq : q ∈ t.nakTimers) :
    Tracks ((rearming t q).scheduleNAK q) e n S ∧
      (rearming t q).scheduleNAK q = { rearming t q with
        nakTimers := t.nakTimers.filter (· ≠ q) ++ [q] } := by
  have hnot : q ∉ (rearming t q).nakTimers := fun hmem =>
    of_decide_eq_true (List.mem_filter.1 hmem).2 rfl
  have heq : (rearming t q).scheduleNAK q = { rearming t q with
      nakTimers := t.nakTimers.filter (· ≠ q) ++ [q] } := by
    rw [scheduleNAK_of_not_evicts (h.not_evicts_rearming hq), if_neg hnot]
    rfl
  have hmem : ∀ x, x ∈ t.nakTimers.filter (· ≠ q) ++ [q] ↔ x ∈ t.nakTimers := by
    intro x
    rw [List.mem_append, List.mem_filter, List.mem_singleton, decide_eq_true_eq]
    by_cases hx : x = q
    · simp [hx, hq]
    · simp [hx]
  refine ⟨heq ▸ ⟨h.window.of_frame rfl rfl (fun _ _ => Iff.rfl) fun _ hx => Or.inl hx,
    ⟨fun x => (hmem x).trans (h.naks.timers x), ?_, fun x hx => (hmem x).2 ?_,
      fun x hx => (hmem x).2 ?_⟩, h.least⟩, heq⟩
  · exact (h.naks.nodup.filter _).append (List.nodup_singleton q)
      (List.disjoint_singleton.2 hnot)
  · rcases OrderedMap.mem_keys_set.1 hx with rfl | hx
    · exact hq
    · exact h.naks.attempts x hx
  · simp only [rearming] at hx
    split_ifs at hx
    · exact h.naks.pending x hx
    · rcases List.mem_append.1 hx with hx | hx
      · exact h.naks.pending x hx
      · rwa [List.mem_singleton.1 hx]

/-- The flush of a tracker emits what is pending: nothing that has arrived is. -/
theorem flushed (h : Tracks t e n S) :
    Tracks t.nakFlushFired.1 e n S ∧
      t.nakFlushFired = if t.nakFlushTimer then
        ({ t with nakFlushTimer := false, pendingNAKs := [] }, t.pendingNAKs) else (t, []) := by
  have hall : t.pendingNAKs.filter (· ∉ t.receivedSeqs) = t.pendingNAKs :=
    List.filter_eq_self.2 fun x hx =>
      decide_eq_true (h.not_mem_of_timer (h.naks.pending x hx))
  have heq : t.nakFlushFired = if t.nakFlushTimer then
      ({ t with nakFlushTimer := false, pendingNAKs := [] }, t.pendingNAKs) else (t, []) := by
    rw [nakFlushFired, hall]
  refine ⟨?_, heq⟩
  rw [heq]
  split_ifs
  · exact ⟨h.window.of_frame rfl rfl (fun _ _ => Iff.rfl) fun _ hx => Or.inl hx,
      ⟨h.naks.timers, h.naks.nodup, h.naks.attempts, fun x hx => absurd hx List.not_mem_nil⟩,
      h.least⟩
  · exact h

end Steps

end Tracks

end SequenceTracker

end EdgeLink
