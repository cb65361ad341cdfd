import EdgeLink.Reliability.TrackerRuns

/-!
# The NAK budget

How often a tracker asks for a missing number, over any run between two baselines. A timer that
finds its number missing is a round; the rounds of a number are counted while it is a gap and
nowhere else (`Rounds`), so that a number has no more than `maxNakRounds` of them before it is
given up.

* `Rounds.step`: every step keeps the count.
* `nakBudget_run`: a number is in at most `maxNakRounds` batches, it is abandoned once, when its
  timer fires after its last round, and `expectedSeq` stands at a number that is open.
-/

namespace EdgeLink

open Serial SequenceTracker

namespace TrackerLog

/-- **The count of the rounds**: the tracker's counters are the firings of the log, and a batch was
asked for by a firing. -/
structure Rounds (l : TrackerLog) : Prop where
  counts : ∀ x ∈ l.tracker.nakTimers,
    (l.tracker.nakAttempts.get? x).getD 0 = l.fired.count (l.position x)
  few : ∀ x ∈ l.tracker.nakTimers, l.fired.count (l.position x) ≤ l.tracker.config.maxNakRounds
  accepted : ∀ p ∈ l.accepted, l.fired.count p ≤ l.tracker.config.maxNakRounds
  abandoned : ∀ p ∈ l.abandoned, l.fired.count p = l.tracker.config.maxNakRounds + 1
  fired : ∀ p ∈ l.fired, p ∈ l.Settled ∨ Gap l.Settled p
  batches : ∀ p, l.batches.countP (p ∈ ·) +
    (if p ∈ l.tracker.pendingNAKs.map l.position then 1 else 0) ≤
      min (l.fired.count p) l.tracker.config.maxNakRounds
  counted : l.tracker.abandonedCount = l.abandonedBefore + l.abandoned.length

section Kept

variable {l l' : TrackerLog} {e e' q x : Seq} {ev : TrackerEvent}

theorem position_injective (l : TrackerLog) : Function.Injective l.position := by
  intro x y h
  have := congrArg l.number h
  rwa [number_position, number_position] at this

/-- A number keeps its position while `expectedSeq` moves towards it. -/
theorem position_moved (hbase : l'.baseline = l.baseline) (hle : l.advanced ≤ l'.advanced)
    (hlt : l'.position x < l.advanced + 2 ^ 32) : l'.position x = l.position x := by
  have hx : l.number (l'.position x) = x := by
    rw [number, ← hbase]
    exact l'.number_position x
  have hpos : l.advanced ≤ l'.position x := hle.trans (Nat.le_add_right _ _)
  have hd := dist_number hpos hlt
  rw [hx] at hd
  have hx : l.position x = l.advanced + (l'.position x - l.advanced) := by
    rw [← hd]
    rfl
  omega

/-- A position that is neither settled nor a gap has had no round. -/
theorem Rounds.count_eq_zero (hr : l.Rounds) {p : ℕ} (hp : p ∉ l.Settled)
    (hgap : ¬ Gap l.Settled p) : l.fired.count p = 0 :=
  List.count_eq_zero.2 fun hmem => (hr.fired p hmem).elim hp hgap

/-- The rounds of an open position. -/
theorem Rounds.counts_open (h : l.Live e) (hr : l.Rounds) (hx : l.position x ∉ l.Settled) :
    (l.tracker.nakAttempts.get? x).getD 0 = l.fired.count (l.position x) ∧
      l.fired.count (l.position x) ≤ l.tracker.config.maxNakRounds := by
  by_cases hmem : x ∈ l.tracker.nakTimers
  · exact ⟨hr.counts x hmem, hr.few x hmem⟩
  · have hkey : x ∉ l.tracker.nakAttempts.keys := mt (h.tracks.naks.attempts x) hmem
    rw [hr.count_eq_zero hx (mt h.timer_iff.2 hmem), OrderedMap.get?_eq_none.2 hkey]
    exact ⟨rfl, Nat.zero_le _⟩

/-- What is still to NAK after a position was settled: open numbers, at the positions they had. -/
theorem Live.timer_settles (h : l.Live e) (h' : l'.Live e') (hbase : l'.baseline = l.baseline)
    (hle : l.advanced ≤ l'.advanced)
    (hfar : l'.advanced ≤ l.advanced + l.tracker.config.maxGapTracking + 1)
    (hcfg : l'.tracker.config = l.tracker.config)
    (hset : l'.Settled = insert (l.position q) l.Settled) (hx : x ∈ l'.tracker.nakTimers) :
    l'.position x = l.position x ∧ x ≠ q ∧ l.position x ∉ l.Settled := by
  have hsane := h.tracks.sane
  have hd := h'.tracks.dist_lt_of_timer hx
  rw [hcfg] at hd
  have hpos : l'.position x = l.position x := by
    refine position_moved hbase hle ?_
    rw [position_eq h'.number]
    omega
  have hopen : l.position x ∉ insert (l.position q) l.Settled := by
    rw [← hset, ← hpos]
    exact (h'.timer_iff.1 hx).1
  rw [Set.mem_insert_iff, not_or] at hopen
  exact ⟨hpos, fun hxq => hopen.1 (hxq ▸ rfl), hopen.2⟩

/-- What a position's settling adds to the log: it is accepted, or it is given up as its timer fires
after its last round. -/
def LogsSettled (l l' : TrackerLog) (q : Seq) : Prop :=
  (l'.fired = l.fired ∧ l'.accepted = l.accepted ++ [l.position q] ∧
      l'.abandoned = l.abandoned) ∨
    (l.tracker.config.maxNakRounds ≤ (l.tracker.nakAttempts.get? q).getD 0 ∧
      l'.fired = l.fired ++ [l.position q] ∧ l'.accepted = l.accepted ∧
      l'.abandoned = l.abandoned ++ [l.position q])

/-- The rounds of the other positions are those before. -/
theorem LogsSettled.count_of_ne (hk : LogsSettled l l' q) {p : ℕ} (hp : p ≠ l.position q) :
    l'.fired.count p = l.fired.count p := by
  rcases hk with ⟨hf, -⟩ | ⟨-, hf, -⟩
  · rw [hf]
  · rw [hf, List.count_append, List.count_singleton, if_neg (by simpa using Ne.symm hp),
      Nat.add_zero]

theorem LogsSettled.count_le (hk : LogsSettled l l' q) (p : ℕ) :
    l.fired.count p ≤ l'.fired.count p := by
  rcases hk with ⟨hf, -⟩ | ⟨-, hf, -⟩
  · rw [hf]
  · rw [hf, List.count_append]
    exact Nat.le_add_right _ _

/-- A position that is settled already is not settled again. -/
theorem ne_of_settled {p : ℕ} (hq : l.position q ∉ l.Settled) (hp : p ∈ l.Settled) :
    p ≠ l.position q := fun hpq => hq (hpq ▸ hp)

/-- An accepted position had no more than its rounds. -/
theorem LogsSettled.accepted (hk : LogsSettled l l' q) (hr : l.Rounds)
    (hq : l.position q ∉ l.Settled)
    (hfew : l.fired.count (l.position q) ≤ l.tracker.config.maxNakRounds) :
    ∀ p ∈ l'.accepted, l'.fired.count p ≤ l.tracker.config.maxNakRounds := by
  intro p hp
  have hother := hk.count_of_ne (p := p)
  rcases hk with ⟨hf, hacc, -⟩ | ⟨-, -, hacc, -⟩
  · rw [hf]
    rw [hacc] at hp
    rcases List.mem_append.1 hp with hp | hp
    · exact hr.accepted p hp
    · rw [List.mem_singleton.1 hp]
      exact hfew
  · rw [hacc] at hp
    rw [hother (ne_of_settled hq (mem_settled.2 (Or.inl hp)))]
    exact hr.accepted p hp

/-- A position that is given up has had its rounds, and the firing that gives it up. -/
theorem LogsSettled.abandoned (hk : LogsSettled l l' q) (hr : l.Rounds)
    (hq : l.position q ∉ l.Settled)
    (hcount : (l.tracker.nakAttempts.get? q).getD 0 = l.fired.count (l.position q))
    (hfew : l.fired.count (l.position q) ≤ l.tracker.config.maxNakRounds) :
    ∀ p ∈ l'.abandoned, l'.fired.count p = l.tracker.config.maxNakRounds + 1 := by
  intro p hp
  have hother := hk.count_of_ne (p := p)
  rcases hk with ⟨hf, -, hab⟩ | ⟨hrounds, hf, -, hab⟩
  · rw [hf]
    exact hr.abandoned p (hab ▸ hp)
  · rw [hab] at hp
    rcases List.mem_append.1 hp with hp | hp
    · rw [hother (ne_of_settled hq (mem_settled.2 (Or.inr hp)))]
      exact hr.abandoned p hp
    · rw [List.mem_singleton.1 hp, hf, List.count_append, List.count_singleton_self]
      omega

/-- The positions with a round are settled or gaps still. -/
theorem LogsSettled.fired (hk : LogsSettled l l' q) (hr : l.Rounds)
    (hset : l'.Settled = insert (l.position q) l.Settled) :
    ∀ p ∈ l'.fired, p ∈ l'.Settled ∨ Gap l'.Settled p := by
  intro p hp
  by_cases hpq : p = l.position q
  · exact Or.inl (hset ▸ hpq ▸ Set.mem_insert _ _)
  · have hp : p ∈ l.fired := by
      rw [← List.count_pos_iff, ← hk.count_of_ne hpq]
      exact List.count_pos_iff.2 hp
    rw [hset]
    rcases hr.fired p hp with hp | hp
    · exact Or.inl (Set.mem_insert_of_mem _ hp)
    · exact Or.inr (gap_insert.2 ⟨hpq, Or.inl hp⟩)

/-- How far `expectedSeq` moves when a position is settled. -/
theorem Live.advanced_settles (h : l.Live e) {t : SequenceTracker}
    (ht : Tracks.Settles l.tracker t e l.advanced l.Settled q) (h' : l'.Live e')
    (htracker : l'.tracker = t) (hadv : l'.advanced = (l.moved t).advanced) :
    l'.advanced = l.advanced + dist e e' ∧ dist e e' ≤ l.tracker.config.maxGapTracking + 1 := by
  obtain ⟨e₁, hfar, htracks⟩ := ht.tracks
  obtain rfl : e' = e₁ := by
    have hexpected := h'.tracks.window.expected
    rw [htracker, htracks.window.expected] at hexpected
    exact (Option.some.inj hexpected).symm
  refine ⟨?_, hfar⟩
  rw [hadv, moved, htracks.window.expected]
  exact position_eq h.number e'

/-- **Settling a position keeps the count**, whether it was accepted or given up after its last
round. -/
theorem Rounds.settles (h : l.Live e) (hr : l.Rounds) {t : SequenceTracker}
    (ht : Tracks.Settles l.tracker t e l.advanced l.Settled q) (h' : l'.Live e')
    (htracker : l'.tracker = t) (hbase : l'.baseline = l.baseline)
    (hadv : l'.advanced = (l.moved t).advanced)
    (hset : l'.Settled = insert (l.position q) l.Settled) (hq : l.position q ∉ l.Settled)
    (hbatches : l'.batches = l.batches)
    (hcount : t.abandonedCount = l'.abandonedBefore + l'.abandoned.length)
    (hkind : LogsSettled l l' q) : l'.Rounds := by
  obtain ⟨hadv, hfar⟩ := h.advanced_settles ht h' htracker hadv
  subst htracker
  have hcfg := ht.config
  have htim : ∀ x ∈ l'.tracker.nakTimers,
      l'.position x = l.position x ∧ x ≠ q ∧ l.position x ∉ l.Settled := fun x hx =>
    h.timer_settles h' hbase (by omega) (by omega) hcfg hset hx
  have hne : ∀ x, x ≠ q → l.position x ≠ l.position q := fun x hx hp =>
    hx (l.position_injective hp)
  obtain ⟨hqcount, hqfew⟩ := hr.counts_open h hq
  refine ⟨fun x hx => ?_, fun x hx => ?_, hcfg ▸ hkind.accepted hr hq hqfew,
    hcfg ▸ hkind.abandoned hr hq hqcount hqfew, hkind.fired hr hset, fun p => ?_, hcount⟩
  · obtain ⟨hpos, hxq, hopen⟩ := htim x hx
    rw [ht.attempts, OrderedMap.get?_delete, if_neg hxq, hpos, hkind.count_of_ne (hne x hxq)]
    exact (hr.counts_open h hopen).1
  · obtain ⟨hpos, hxq, hopen⟩ := htim x hx
    rw [hpos, hkind.count_of_ne (hne x hxq), hcfg]
    exact (hr.counts_open h hopen).2
  · -- what is still pending was pending, at the same position
    have hpend : p ∈ l'.tracker.pendingNAKs.map l'.position →
        p ∈ l.tracker.pendingNAKs.map l.position := by
      rintro hp
      obtain ⟨x, hx, rfl⟩ := List.mem_map.1 hp
      rw [(htim x (h'.tracks.naks.pending x hx)).1]
      rw [ht.pending] at hx
      exact List.mem_map_of_mem (List.mem_of_mem_filter hx)
    have hold := hr.batches p
    have hmin := hkind.count_le p
    rw [hbatches, hcfg]
    split_ifs at hold ⊢ with h1 h2
    · omega
    · exact absurd (hpend h1) h2
    · omega
    · omega

theorem rounds_opened (t : SequenceTracker) (s : Seq) (htim : t.nakTimers = [])
    (hpend : t.pendingNAKs = []) : (opened t s).Rounds where
  counts x hx := absurd (htim ▸ hx) List.not_mem_nil
  few x hx := absurd (htim ▸ hx) List.not_mem_nil
  accepted _ _ := Nat.zero_le _
  abandoned _ hp := absurd hp List.not_mem_nil
  fired _ hp := absurd hp List.not_mem_nil
  batches p := by
    have hpend : (opened t s).tracker.pendingNAKs = [] := hpend
    rw [hpend]
    simp [opened]
  counted := rfl

/-- Without a baseline there is nothing to count. -/
theorem Idle.rounds (h : l.Idle) : l.Rounds := by
  have hlog := h.log
  refine ⟨fun x hx => absurd (h.timers ▸ hx) List.not_mem_nil,
    fun x hx => absurd (h.timers ▸ hx) List.not_mem_nil, ?_, ?_, ?_, fun p => ?_, ?_⟩
  · rw [hlog]
    exact fun _ hp => absurd hp List.not_mem_nil
  · rw [hlog]
    exact fun _ hp => absurd hp List.not_mem_nil
  · rw [hlog]
    exact fun _ hp => absurd hp List.not_mem_nil
  · rw [h.pending, hlog]
    exact Nat.zero_le _
  · rw [hlog]
    rfl

/-- The rounds after one more of a position. -/
theorem count_fired (l : TrackerLog) (q : Seq) (p : ℕ) :
    (l.fired ++ [l.position q]).count p = l.fired.count p + if p = l.position q then 1 else 0 := by
  rw [List.count_append, List.count_singleton]
  simp only [beq_iff_eq, eq_comm (a := p)]

/-- One more round asks for the position once more. -/
theorem Rounds.batches_rearmed (hr : l.Rounds) (hq : q ∈ l.tracker.nakTimers)
    (hatt : (l.tracker.nakAttempts.get? q).getD 0 < l.tracker.config.maxNakRounds) (p : ℕ) :
    l.batches.countP (p ∈ ·) +
        (if p ∈ (Tracks.rearming l.tracker q).pendingNAKs.map l.position then 1 else 0) ≤
      min ((l.fired ++ [l.position q]).count p) l.tracker.config.maxNakRounds := by
  have hqcount := hr.counts q hq
  have hold := hr.batches p
  have hpend : p ∈ (Tracks.rearming l.tracker q).pendingNAKs.map l.position →
      p = l.position q ∨ p ∈ l.tracker.pendingNAKs.map l.position := by
    simp only [Tracks.rearming]
    split_ifs
    · exact Or.inr
    · rw [List.map_append, List.mem_append, List.map_singleton, List.mem_singleton]
      exact Or.symm
  rw [count_fired]
  generalize (Tracks.rearming l.tracker q).pendingNAKs = pending at hpend ⊢
  by_cases hpq : p = l.position q
  · subst hpq
    rw [if_pos rfl]
    split_ifs at hold ⊢ <;> omega
  · rw [if_neg hpq]
    split_ifs at hold ⊢ with h1 h2
    · omega
    · exact absurd ((hpend h1).resolve_left hpq) h2
    · omega
    · omega

/-- One more round of a gap. -/
theorem Rounds.rearmed (h : l.Live e) (hr : l.Rounds) (hq : q ∈ l.tracker.nakTimers)
    (hatt : (l.tracker.nakAttempts.get? q).getD 0 < l.tracker.config.maxNakRounds) :
    Rounds { l with
      tracker := (Tracks.rearming l.tracker q).scheduleNAK q
      fired := l.fired ++ [l.position q] } := by
  obtain ⟨htracks, heq⟩ := h.tracks.rearmed hq
  have hqcount := hr.counts q hq
  have hopen := (h.timer_iff.1 hq).1
  have htim : ∀ x, x ∈ ((Tracks.rearming l.tracker q).scheduleNAK q).nakTimers →
      x ∈ l.tracker.nakTimers := fun x hx =>
    (h.tracks.naks.timers x).2 ((htracks.naks.timers x).1 hx)
  refine ⟨fun x hx => ?_, fun x hx => ?_, fun p hp => ?_, fun p hp => ?_, fun p hp => ?_,
    fun p => ?_, ?_⟩
  · show (((Tracks.rearming l.tracker q).scheduleNAK q).nakAttempts.get? x).getD 0 =
      (l.fired ++ [l.position q]).count (l.position x)
    rw [count_fired, heq]
    simp only [Tracks.rearming, OrderedMap.get?_set]
    by_cases hxq : x = q
    · rw [if_pos hxq, hxq, if_pos rfl, ← hqcount]
      rfl
    · rw [if_neg hxq, if_neg fun hp => hxq (l.position_injective hp), hr.counts x (htim x hx)]
      rfl
  · show (l.fired ++ [l.position q]).count (l.position x) ≤ _
    have hfew := hr.few x (htim x hx)
    rw [count_fired, heq]
    show _ ≤ l.tracker.config.maxNakRounds
    split_ifs with hp
    · rw [hp]
      omega
    · exact hfew
  · show (l.fired ++ [l.position q]).count p ≤ _
    rw [count_fired, if_neg (ne_of_settled hopen (mem_settled.2 (Or.inl hp))), heq]
    exact hr.accepted p hp
  · show (l.fired ++ [l.position q]).count p = _
    rw [count_fired, if_neg (ne_of_settled hopen (mem_settled.2 (Or.inr hp))), heq]
    exact hr.abandoned p hp
  · rcases List.mem_append.1 hp with hp | hp
    · exact hr.fired p hp
    · rw [List.mem_singleton.1 hp]
      exact Or.inr (h.timer_iff.1 hq)
  · rw [heq]
    exact hr.batches_rearmed hq hatt p
  · show ((Tracks.rearming l.tracker q).scheduleNAK q).abandonedCount = _
    rw [heq]
    exact hr.counted

/-- A flush turns what is pending into one batch. -/
theorem Rounds.flushed (h : l.Live e) (hr : l.Rounds) : Rounds { l with
    tracker := l.tracker.nakFlushFired.1
    batches := if l.tracker.nakFlushFired.2 = [] then l.batches
      else l.batches ++ [l.tracker.nakFlushFired.2.map l.position] } := by
  rw [h.tracks.flushed.2]
  split_ifs with htimer hnil hnil
  · refine ⟨hr.counts, hr.few, hr.accepted, hr.abandoned, hr.fired, fun p => ?_, hr.counted⟩
    have hold := hr.batches p
    simp only at hnil ⊢
    rw [hnil] at hold
    exact hold
  · refine ⟨hr.counts, hr.few, hr.accepted, hr.abandoned, hr.fired, fun p => ?_, hr.counted⟩
    have hold := hr.batches p
    show List.countP _ (l.batches ++ [l.tracker.pendingNAKs.map l.position]) +
      (if p ∈ List.map l.position [] then 1 else 0) ≤ _
    rw [List.countP_append, List.countP_singleton, List.map_nil, if_neg List.not_mem_nil,
      Nat.add_zero]
    simpa only [decide_eq_true_eq] using hold
  · exact hr
  · exact absurd rfl hnil

/-- Every outcome keeps the count. -/
theorem Rounds.outcome (h : l.Live e) (hr : l.Rounds) (ho : Outcome l e ev l') : l'.Rounds := by
  have hlive := h.outcome ho
  cases ho with
  | duplicate => exact hr
  | late hs hb hd hdrop =>
    exact ⟨hr.counts, hr.few, hr.accepted, hr.abandoned, hr.fired, hr.batches, hr.counted⟩
  | resynced => exact rounds_opened _ _ rfl rfl
  | @accepted s t hs hd hdrop ht hcount =>
    rcases hlive with ⟨hno, -⟩ | ⟨⟨e', hl⟩, -⟩
    · exact absurd hno (by simp)
    exact hr.settles h ht hl rfl rfl rfl
      (by ext p; simp [Settled, moved, or_assoc, or_comm]) (mt (h.received_iff hd).2 hs) rfl
      (hcount.trans hr.counted) (Or.inl ⟨rfl, rfl, rfl⟩)
  | unarmed => exact hr
  | @gaveUp q t hq hatt ht hcount =>
    rcases hlive with ⟨hno, -⟩ | ⟨⟨e', hl⟩, -⟩
    · exact absurd hno (by simp)
    refine hr.settles h ht hl rfl rfl rfl
      (by ext p; simp [Settled, moved, ← or_assoc, or_comm]) (h.timer_iff.1 hq).1 rfl ?_
      (Or.inr ⟨hatt, rfl, rfl, rfl⟩)
    show t.abandonedCount = l.abandonedBefore + (l.abandoned ++ [l.position q]).length
    rw [hcount, hr.counted, List.length_append]
    rfl
  | rearmed hq hatt => exact hr.rearmed h hq hatt
  | flushed => exact hr.flushed h
  | reset => exact (idle_reset h.tracks.window.sane).rounds

/-- **Every step keeps the count.** -/
theorem Inv.rounds_step (h : l.Inv) (hr : l.Rounds) (hdom : l.NearExpected ev) :
    (l.step ev).Rounds := by
  rcases h with h | ⟨e, h⟩
  · rcases h.step ev with ⟨s, -, heq, -⟩ | ⟨-, hi⟩
    · rw [heq, processSequence_first h.expected]
      exact rounds_opened _ _ h.timers h.pending
    · exact hi.rounds
  · exact hr.outcome h (h.step_outcome hdom)

end Kept

/-! ## The budget -/

/-- **The NAK budget** of the current baseline. -/
structure NakBudget (l : TrackerLog) : Prop where
  /-- a number is in no more batches than it has rounds -/
  rounds : ∀ p, l.batches.countP (p ∈ ·) ≤ l.tracker.config.maxNakRounds
  /-- it is abandoned by the firing after its last round, if that finds it missing -/
  abandoned : ∀ p, p ∈ l.abandoned ↔ l.fired.count p = l.tracker.config.maxNakRounds + 1
  /-- there is no firing after that -/
  last : ∀ p, l.fired.count p ≤ l.tracker.config.maxNakRounds + 1
  once : l.abandoned.Nodup
  /-- every abandonment is counted -/
  counted : l.tracker.abandonedCount = l.abandonedBefore + l.abandoned.length
  /-- `expectedSeq` has moved past everything contiguous, and stands at an open number -/
  closed : ∀ e, l.tracker.expectedSeq = some e → e = l.number l.advanced ∧
    e ∉ l.tracker.receivedSeqs ∧ IsLeast {p | p ∉ l.accepted ∧ p ∉ l.abandoned} l.advanced
  /-- that number will be requested again as soon as anything beyond it has arrived -/
  requested : ∀ e, l.tracker.expectedSeq = some e →
    ∀ b ∈ l.tracker.receivedSeqs, isAhead b e → e ∈ l.tracker.nakTimers

section Budget

variable {l : TrackerLog} {e : Seq}

theorem Live.nakBudget (h : l.Live e) (hr : l.Rounds) : l.NakBudget := by
  have hcount : ∀ p, p ∉ l.abandoned → l.fired.count p ≤ l.tracker.config.maxNakRounds := by
    intro p hp
    by_cases hacc : p ∈ l.accepted
    · exact hr.accepted p hacc
    · by_cases hgap : Gap l.Settled p
      · have hin := h.tracks.lt_of_gap hgap
        have hsane := h.tracks.sane
        have hpos : l.position (l.number p) = p := by
          rw [position, dist_number hin.1 (by omega)]
          omega
        rw [← hpos]
        exact hr.few _ (h.timer_iff.2 (hpos.symm ▸ hgap))
      · rw [hr.count_eq_zero (fun hmem => (mem_settled.1 hmem).elim hacc hp) hgap]
        exact Nat.zero_le _
  refine ⟨fun p => ?_, fun p => ⟨hr.abandoned p, fun hp => ?_⟩, fun p => ?_,
    h.nodup.of_append_right, hr.counted, fun e' he' => ?_, fun e' he' b hb hahead => ?_⟩
  · have := hr.batches p
    omega
  · by_contra hno
    have := hcount p hno
    omega
  · by_cases hp : p ∈ l.abandoned
    · exact (hr.abandoned p hp).le
    · have := hcount p hp
      omega
  · obtain rfl : e = e' := Option.some.inj (h.tracks.window.expected.symm.trans he')
    refine ⟨h.number, h.tracks.not_mem_expected, ?_⟩
    have hset : {p | p ∉ l.accepted ∧ p ∉ l.abandoned} = l.Settledᶜ := by
      ext p
      rw [Set.mem_compl_iff, mem_settled, not_or]
      rfl
    rw [hset]
    exact h.tracks.least
  · obtain rfl : e = e' := Option.some.inj (h.tracks.window.expected.symm.trans he')
    refine h.wellFormed.armed b hb hahead e ?_ h.tracks.not_mem_expected
    rw [dist_self]
    exact Nat.pos_of_ne_zero hahead.1

theorem Idle.nakBudget (h : l.Idle) : l.NakBudget := by
  have hlog := h.log
  have hno : ∀ e, l.tracker.expectedSeq = some e → False := fun e he => by
    rw [h.expected] at he
    exact Option.some_ne_none e he.symm
  refine ⟨?_, ?_, ?_, ?_, h.rounds.counted, fun e he => (hno e he).elim,
    fun e he => (hno e he).elim⟩
  · rw [hlog]
    exact fun p => Nat.zero_le _
  · rw [hlog]
    exact fun p => iff_of_false List.not_mem_nil (Nat.succ_ne_zero _).symm
  · rw [hlog]
    exact fun p => Nat.zero_le _
  · rw [hlog]
    exact List.nodup_nil

end Budget

/-- **The NAK budget holds over every run**: after any arrivals, timer firings, flushes and
resets, every missing number was in at most `maxNakRounds` batches, was abandoned once or not at
all, and `expectedSeq` is at a number that is neither received nor abandoned. -/
theorem nakBudget_run {c : SequenceTrackerConfig} (hc : c.Sane) (es : List TrackerEvent)
    (hes : Along TrackerLog.step NearExpected (new c) es) :
    (run TrackerLog.step (new c) es).tracker.config = c ∧
      (run TrackerLog.step (new c) es).NakBudget := by
  refine ⟨config_run hc hes, ?_⟩
  have hinv : (run TrackerLog.step (new c) es).Inv ∧ (run TrackerLog.step (new c) es).Rounds :=
    Along.invariant (I := fun l => l.Inv ∧ l.Rounds)
      (fun _ _ h hdom => ⟨h.1.step hdom, h.1.rounds_step h.2 hdom⟩)
      ⟨inv_new hc, Idle.rounds ⟨hc, rfl, rfl, rfl, rfl, rfl, rfl⟩⟩ hes
  rcases hinv with ⟨h | ⟨e, h⟩, hr⟩
  · exact h.nakBudget
  · exact h.nakBudget hr

theorem nakBudget_run_wrap :
    (run TrackerLog.step (new { maxNakRounds := 1 }) wrappedRun).NakBudget :=
  (nakBudget_run (by decide) wrappedRun (by decide +kernel)).2

end TrackerLog

end EdgeLink
