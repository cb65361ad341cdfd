import EdgeLink.Reliability.RetransmitQueue

/-!
# The retransmission budget

A retransmit queue under any mixture of its operations. Two paths use up a packet's attempts, the
negative acknowledgements and the recovery bursts, while acknowledgements, age, capacity and clears
take entries out in between. `Budget` numbers the packets as they are added, so that a packet is
told from a later one under the same sequence number, and logs every packet that is handed out.

* `Budget.Inv`: the queue is within its capacity, and an entry's attempts are the times its packet
  has been handed out.
* `Inv.retransmit`, `Took.length_gone`: what a retransmission takes out of the queue it counts as
  abandoned, one by one.
* `retransmission_budget`: the three bounds, over every run.
-/

namespace EdgeLink

/-- A queue of numbered packets, with the log of the packets handed out. -/
structure Budget where
  retransmitQueue : RetransmitQueue ℕ
  /-- how many packets have been added, the number of the next one -/
  added : ℕ
  /-- the packets handed out for retransmission, in order -/
  handed : List ℕ

inductive BudgetEvent
  | add (now : Time) (sequence : Seq)
  | receiveNAK (now : Time) (missingSeqs : List Seq)
  | runRecoveryBurst (now : Time) (burstSize : ℕ) (intervalMs : Time)
  | acknowledgeRange (previousAckSeq : Option Seq) (cumulativeSeq : Seq)
  | expireOld (now maxAge : Time)
  | clear
  deriving DecidableEq

/-- The event asks for retransmissions. -/
def BudgetEvent.Retransmits : BudgetEvent → Prop
  | .receiveNAK .. => True
  | .runRecoveryBurst .. => True
  | _ => False

namespace Budget

def new (maxSize maxRetransmits : ℕ) : Budget := ⟨.new maxSize maxRetransmits, 0, []⟩

/-- Take packets out for retransmission. -/
def retransmit (s : Budget) (now : Time) (sequences : List Seq) : Budget :=
  let r := s.retransmitQueue.retransmit now sequences
  { s with retransmitQueue := r.1, handed := s.handed ++ r.2.map fun t => t.2.1 }

def step (s : Budget) : BudgetEvent → Budget
  | .add now sequence =>
    { s with
      retransmitQueue := s.retransmitQueue.add now sequence s.added
      added := s.added + 1 }
  | .receiveNAK now missingSeqs => s.retransmit now missingSeqs
  | .runRecoveryBurst now burstSize intervalMs =>
    s.retransmit now (s.retransmitQueue.getOldestSequences now burstSize intervalMs)
  | .acknowledgeRange previousAckSeq cumulativeSeq =>
    { s with
      retransmitQueue := s.retransmitQueue.acknowledgeRange previousAckSeq cumulativeSeq }
  | .expireOld now maxAge =>
    { s with retransmitQueue := s.retransmitQueue.expireOld now maxAge }
  | .clear => { s with retransmitQueue := s.retransmitQueue.clear }

/-- The packets that an event takes out of the queue. -/
def removed (s : Budget) (e : BudgetEvent) : List ℕ :=
  s.retransmitQueue.packets.filter fun i => i ∉ (s.step e).retransmitQueue.packets

/-! ## The invariant -/

/-- What holds of the queue and the log. -/
structure Inv (s : Budget) : Prop where
  capacity : 1 ≤ s.retransmitQueue.maxSize
  size : s.retransmitQueue.queue.size ≤ s.retransmitQueue.maxSize
  /-- queued and handed out packets have been added -/
  fresh : ∀ k entry, s.retransmitQueue.queue.get? k = some entry → entry.packet < s.added
  logged : ∀ i ∈ s.handed, i < s.added
  /-- no packet is queued twice -/
  unique : ∀ k k' entry entry', s.retransmitQueue.queue.get? k = some entry →
    s.retransmitQueue.queue.get? k' = some entry' → entry.packet = entry'.packet → k = k'
  /-- an entry's attempts are those of its packet -/
  attempts : ∀ k entry, s.retransmitQueue.queue.get? k = some entry →
    entry.attempts = s.handed.count entry.packet
  bounded : ∀ i, s.handed.count i ≤ s.retransmitQueue.maxRetransmits

namespace Inv

variable {s : Budget}

theorem initial {maxSize : ℕ} (h : 1 ≤ maxSize) (maxRetransmits : ℕ) :
    Inv (new maxSize maxRetransmits) where
  capacity := h
  size := Nat.zero_le _
  fresh _ _ hk := nomatch hk
  logged _ hi := nomatch hi
  unique _ _ _ _ hk := nomatch hk
  attempts _ _ hk := nomatch hk
  bounded i := by simp [new]

/-- Entries may be taken out. -/
theorem filter (h : Inv s) (p : Seq → QueueEntry ℕ → Bool) :
    Inv { s with retransmitQueue :=
      { s.retransmitQueue with queue := s.retransmitQueue.queue.filter p } } := by
  have hsub : ∀ k entry, (s.retransmitQueue.queue.filter p).get? k = some entry →
      s.retransmitQueue.queue.get? k = some entry := by
    intro k entry hk
    rw [OrderedMap.get?_filter] at hk
    exact (Option.filter_eq_some_iff.1 hk).1
  exact {
    capacity := h.capacity
    size := (OrderedMap.size_filter_le ..).trans h.size
    fresh := fun k entry hk => h.fresh k entry (hsub k entry hk)
    logged := h.logged
    unique := fun k k' entry entry' hk hk' =>
      h.unique k k' entry entry' (hsub k entry hk) (hsub k' entry' hk')
    attempts := fun k entry hk => h.attempts k entry (hsub k entry hk)
    bounded := h.bounded }

theorem acknowledgeRange (h : Inv s) (previousAckSeq : Option Seq) (cumulativeSeq : Seq) :
    Inv (s.step (.acknowledgeRange previousAckSeq cumulativeSeq)) := by
  obtain ⟨p, hp⟩ := s.retransmitQueue.acknowledgeRange_eq_filter previousAckSeq cumulativeSeq
  rw [step, hp]
  exact h.filter p

theorem clear (h : Inv s) : Inv (s.step .clear) where
  capacity := h.capacity
  size := Nat.zero_le _
  fresh _ _ hk := nomatch hk
  logged := h.logged
  unique _ _ _ _ hk := nomatch hk
  attempts _ _ hk := nomatch hk
  bounded := h.bounded

/-- There is room for one more entry. -/
def Room (s : Budget) : Prop := s.retransmitQueue.queue.size < s.retransmitQueue.maxSize

/-- A queue with room takes the next packet, which replaces what is under its number. -/
theorem push (h : Inv s) (hroom : Room s) (now : Time) (sequence : Seq) :
    Inv { s with
      retransmitQueue := { s.retransmitQueue with
        queue := s.retransmitQueue.queue.set sequence ⟨s.added, now, now, 0⟩ }
      added := s.added + 1 } where
  capacity := h.capacity
  size := by
    rw [OrderedMap.size_set]
    unfold Room at hroom
    split_ifs
    · exact hroom
    · exact h.size
  fresh k entry hk := by
    rw [OrderedMap.get?_set] at hk
    split_ifs at hk
    · rw [← Option.some.inj hk]
      exact Nat.lt_succ_self _
    · exact (h.fresh k entry hk).trans (Nat.lt_succ_self _)
  logged i hi := (h.logged i hi).trans (Nat.lt_succ_self _)
  unique k k' entry entry' hk hk' heq := by
    rw [OrderedMap.get?_set] at hk hk'
    split_ifs at hk hk' with hks hks'
    · exact hks.trans hks'.symm
    · obtain rfl := Option.some.inj hk
      exact absurd heq (h.fresh k' entry' hk').ne'
    · obtain rfl := Option.some.inj hk'
      exact absurd heq (h.fresh k entry hk).ne
    · exact h.unique k k' entry entry' hk hk' heq
  attempts k entry hk := by
    rw [OrderedMap.get?_set] at hk
    split_ifs at hk
    · obtain rfl := Option.some.inj hk
      exact (List.count_eq_zero.2 fun hi => (h.logged _ hi).false).symm
    · exact h.attempts k entry hk
  bounded := h.bounded

theorem add (h : Inv s) (now : Time) (sequence : Seq) : Inv (s.step (.add now sequence)) := by
  rw [step, RetransmitQueue.add]
  split_ifs with hfull
  · obtain ⟨k, hk, hevict⟩ := RetransmitQueue.evictOldest_eq_delete (h.capacity.trans hfull)
    have hone := OrderedMap.size_delete_add_one hk
    have hsize := h.size
    rw [hevict]
    exact (h.filter fun k' _ => k' ≠ k).push (Nat.lt_of_succ_le (hone.le.trans hsize)) now sequence
  · exact h.push (Nat.lt_of_not_le hfull) now sequence

end Inv

/-! ## Handing packets out -/

theorem retransmit_cons (s : Budget) (now : Time) (seq : Seq) (sequences : List Seq) :
    s.retransmit now (seq :: sequences) = (s.retransmit now [seq]).retransmit now sequences := by
  simp [retransmit, RetransmitQueue.retransmit_cons, RetransmitQueue.retransmit_nil]

/-- What a requested number does to the queue and the log. -/
theorem retransmit_cases (s : Budget) (now : Time) (seq : Seq) :
    s.retransmit now [seq] = s ∨
      (∃ entry, s.retransmitQueue.queue.get? seq = some entry ∧
        s.retransmitQueue.maxRetransmits ≤ entry.attempts ∧
        s.retransmit now [seq] = { s with retransmitQueue := { s.retransmitQueue with
          queue := s.retransmitQueue.queue.delete seq
          abandonedCount := s.retransmitQueue.abandonedCount + 1
          lastAbandonedSeq := some seq } }) ∨
      ∃ entry, s.retransmitQueue.queue.get? seq = some entry ∧
        entry.attempts < s.retransmitQueue.maxRetransmits ∧
        s.retransmit now [seq] = { s with
          retransmitQueue := { s.retransmitQueue with
            queue := s.retransmitQueue.queue.set seq
              { entry with attempts := entry.attempts + 1, timestamp := now } }
          handed := s.handed ++ [entry.packet] } := by
  rcases s.retransmitQueue.retransmitOne_cases now seq with
    ⟨-, h⟩ | ⟨entry, hentry, hmax, h⟩ | ⟨entry, hentry, hmax, h⟩
  · left
    simp [retransmit, RetransmitQueue.retransmit_cons, RetransmitQueue.retransmit_nil, h]
  · refine Or.inr (Or.inl ⟨entry, hentry, hmax, ?_⟩)
    simp [retransmit, RetransmitQueue.retransmit_cons, RetransmitQueue.retransmit_nil, h]
  · refine Or.inr (Or.inr ⟨entry, hentry, hmax, ?_⟩)
    simp [retransmit, RetransmitQueue.retransmit_cons, RetransmitQueue.retransmit_nil, h]

/-- What a retransmission that leads from `s` to `s'` has done. -/
structure Took (s s' : Budget) : Prop where
  maxSize : s'.retransmitQueue.maxSize = s.retransmitQueue.maxSize
  maxRetransmits : s'.retransmitQueue.maxRetransmits = s.retransmitQueue.maxRetransmits
  /-- an entry that is gone is counted as abandoned -/
  conserved : s'.retransmitQueue.abandonedCount + s'.retransmitQueue.queue.size =
    s.retransmitQueue.abandonedCount + s.retransmitQueue.queue.size
  queued : ∀ i ∈ s'.retransmitQueue.packets, i ∈ s.retransmitQueue.packets
  logged : s.handed <+: s'.handed
  /-- a packet that is gone has used its attempts up -/
  spent : ∀ i ∈ s.retransmitQueue.packets, i ∉ s'.retransmitQueue.packets →
    s'.handed.count i = s.retransmitQueue.maxRetransmits

namespace Took

variable {s s' s'' : Budget}

theorem refl (s : Budget) : Took s s :=
  ⟨rfl, rfl, rfl, fun _ hi => hi, List.prefix_rfl, fun _ hi hn => absurd hi hn⟩

theorem trans (h : Took s s') (h' : Took s' s'') (hinv : Inv s'') : Took s s'' where
  maxSize := h'.maxSize.trans h.maxSize
  maxRetransmits := h'.maxRetransmits.trans h.maxRetransmits
  conserved := h'.conserved.trans h.conserved
  queued i hi := h.queued i (h'.queued i hi)
  logged := h.logged.trans h'.logged
  spent i hi hgone := by
    by_cases hmid : i ∈ s'.retransmitQueue.packets
    · exact (h'.spent i hmid hgone).trans h.maxRetransmits
    · have hle := h'.logged.sublist.count_le i
      have hmax := hinv.bounded i
      rw [h'.maxRetransmits, h.maxRetransmits] at hmax
      exact le_antisymm hmax ((h.spent i hi hmid).ge.trans hle)

/-- The packets that are gone are as many as have been abandoned. -/
theorem length_gone (h : Took s s') (hs : Inv s) (hs' : Inv s') :
    s'.retransmitQueue.abandonedCount = s.retransmitQueue.abandonedCount +
      (s.retransmitQueue.packets.filter fun i => i ∉ s'.retransmitQueue.packets).length := by
  have hnodup := OrderedMap.nodup_map_values hs.unique
  have hnodup' := OrderedMap.nodup_map_values hs'.unique
  have hstay : (s.retransmitQueue.packets.filter fun i => i ∈ s'.retransmitQueue.packets).Perm
      s'.retransmitQueue.packets := by
    refine (List.perm_ext_iff_of_nodup (hnodup.filter _) hnodup').2 fun i => ?_
    simp only [List.mem_filter, decide_eq_true_eq]
    exact ⟨And.right, fun hi => ⟨h.queued i hi, hi⟩⟩
  have hsplit := (List.filter_append_perm (fun i => decide (i ∈ s'.retransmitQueue.packets))
    s.retransmitQueue.packets).length_eq
  have hlen : ∀ q : RetransmitQueue ℕ, q.packets.length = q.queue.size := fun q => by
    simp [RetransmitQueue.packets, OrderedMap.values, OrderedMap.size]
  rw [List.length_append, hstay.length_eq, hlen, hlen] at hsplit
  simp only [decide_not]
  have := h.conserved
  omega

end Took

section Retransmit

variable {s : Budget} {now : Time} {seq : Seq}

/-- An entry may be dropped and counted. -/
theorem Inv.abandon (h : Inv s) (seq : Seq) (n : ℕ) (last : Option Seq) :
    Inv { s with retransmitQueue := { s.retransmitQueue with
      queue := s.retransmitQueue.queue.delete seq
      abandonedCount := n
      lastAbandonedSeq := last } } := by
  have hfilter := h.filter fun k _ => k ≠ seq
  exact ⟨hfilter.capacity, hfilter.size, hfilter.fresh, hfilter.logged, hfilter.unique,
    hfilter.attempts, hfilter.bounded⟩

/-- A packet is handed out once more. -/
theorem Inv.hand (h : Inv s) {entry : QueueEntry ℕ}
    (hentry : s.retransmitQueue.queue.get? seq = some entry)
    (hmax : entry.attempts < s.retransmitQueue.maxRetransmits) (now : Time) :
    Inv { s with
      retransmitQueue := { s.retransmitQueue with
        queue := s.retransmitQueue.queue.set seq
          { entry with attempts := entry.attempts + 1, timestamp := now } }
      handed := s.handed ++ [entry.packet] } := by
  have hcount := h.attempts seq entry hentry
  -- An entry afterwards is one from before, with as many attempts as its packet.
  have hcases : ∀ k e, (s.retransmitQueue.queue.set seq
      { entry with attempts := entry.attempts + 1, timestamp := now }).get? k = some e →
      ∃ e', s.retransmitQueue.queue.get? k = some e' ∧ e'.packet = e.packet ∧
        e.attempts = (s.handed ++ [entry.packet]).count e.packet := by
    intro k e hk
    rw [OrderedMap.get?_set] at hk
    split_ifs at hk with hks
    · obtain rfl := Option.some.inj hk
      obtain rfl := hks
      exact ⟨entry, hentry, rfl, by simp [hcount]⟩
    · refine ⟨e, hk, rfl, ?_⟩
      have hne : entry.packet ≠ e.packet := fun heq => hks (h.unique _ _ _ _ hk hentry heq.symm)
      simp [hne, h.attempts k e hk]
  refine ⟨h.capacity, ?_, ?_, ?_, ?_, ?_, ?_⟩
  · dsimp only
    rw [OrderedMap.size_set, if_neg (by simp [hentry])]
    exact h.size
  · intro k e hk
    obtain ⟨e', hk', hpacket, -⟩ := hcases k e hk
    rw [← hpacket]
    exact h.fresh k e' hk'
  · intro i hi
    rcases List.mem_append.1 hi with hi | hi
    · exact h.logged i hi
    · obtain rfl := List.mem_singleton.1 hi
      exact h.fresh seq entry hentry
  · intro k k' e e' hk hk' heq
    obtain ⟨_, hk, hpacket, -⟩ := hcases k e hk
    obtain ⟨_, hk', hpacket', -⟩ := hcases k' e' hk'
    exact h.unique k k' _ _ hk hk' ((hpacket.trans heq).trans hpacket'.symm)
  · intro k e hk
    obtain ⟨_, -, -, hattempts⟩ := hcases k e hk
    exact hattempts
  · intro i
    have hi := h.bounded i
    by_cases heq : entry.packet = i
    · subst heq
      simp only [List.count_append, List.count_singleton_self]
      omega
    · simpa [heq] using hi

/-- **One requested number** keeps the invariant. -/
theorem Inv.retransmitOne (h : Inv s) (now : Time) (seq : Seq) :
    Inv (s.retransmit now [seq]) ∧ Took s (s.retransmit now [seq]) := by
  rcases s.retransmit_cases now seq with heq | ⟨entry, hentry, hmax, heq⟩ | ⟨entry, hentry, hmax, heq⟩
  · rw [heq]
    exact ⟨h, Took.refl s⟩
  · rw [heq]
    refine ⟨h.abandon seq _ _, rfl, rfl, ?_, ?_, List.prefix_rfl, ?_⟩
    · have hone := OrderedMap.size_delete_add_one (OrderedMap.mem_keys.2 ⟨entry, hentry⟩)
      dsimp only
      omega
    · exact fun i hi => RetransmitQueue.mem_packets_filter (q := s.retransmitQueue) hi
    · intro i hi hgone
      obtain ⟨k, e, hk, rfl⟩ := RetransmitQueue.mem_packets.1 hi
      have hks : k = seq := by
        by_contra hne
        refine hgone (RetransmitQueue.mem_packets.2 ⟨k, e, ?_, rfl⟩)
        dsimp only
        rw [OrderedMap.get?_delete, if_neg hne, hk]
      subst hks
      obtain rfl := Option.some.inj (hentry.symm.trans hk)
      exact le_antisymm (h.bounded _) (hmax.trans (h.attempts _ _ hentry).le)
  · rw [heq]
    refine ⟨h.hand hentry hmax now, rfl, rfl, ?_, ?_, List.prefix_append .., ?_⟩
    · dsimp only
      rw [OrderedMap.size_set, if_neg (by simp [hentry])]
    · intro i hi
      rcases RetransmitQueue.mem_packets_set hi with rfl | hi
      · exact RetransmitQueue.mem_packets.2 ⟨seq, entry, hentry, rfl⟩
      · exact hi
    · intro i hi hgone
      obtain ⟨k, e, hk, rfl⟩ := RetransmitQueue.mem_packets.1 hi
      refine absurd (RetransmitQueue.mem_packets.2 ?_) hgone
      by_cases hks : k = seq
      · subst hks
        obtain rfl := Option.some.inj (hentry.symm.trans hk)
        exact ⟨k, _, OrderedMap.get?_set_self .., rfl⟩
      · exact ⟨k, e, by dsimp only; rw [OrderedMap.get?_set_of_ne _ hks, hk], rfl⟩

/-- **A retransmission** keeps the invariant. -/
theorem Inv.retransmit (h : Inv s) (now : Time) (sequences : List Seq) :
    Inv (s.retransmit now sequences) ∧ Took s (s.retransmit now sequences) := by
  induction sequences generalizing s with
  | nil =>
    have hnil : s.retransmit now [] = s := by
      simp [Budget.retransmit, RetransmitQueue.retransmit_nil]
    rw [hnil]
    exact ⟨h, Took.refl s⟩
  | cons seq sequences ih =>
    obtain ⟨hone, htook⟩ := h.retransmitOne now seq
    obtain ⟨hrest, htook'⟩ := ih hone
    rw [retransmit_cons]
    exact ⟨hrest, htook.trans htook' hrest⟩

end Retransmit

/-! ## Runs -/

section Runs

variable {s : Budget}

theorem Inv.step (h : Inv s) (e : BudgetEvent) : Inv (s.step e) := by
  cases e with
  | add now sequence => exact h.add now sequence
  | receiveNAK now missingSeqs => exact (h.retransmit now missingSeqs).1
  | runRecoveryBurst now burstSize intervalMs => exact (h.retransmit now _).1
  | acknowledgeRange previousAckSeq cumulativeSeq =>
    exact h.acknowledgeRange previousAckSeq cumulativeSeq
  | expireOld now maxAge => exact h.filter _
  | clear => exact h.clear

/-- An event that asks for retransmissions is one. -/
theorem Inv.took (h : Inv s) {e : BudgetEvent} (he : e.Retransmits) : Took s (s.step e) := by
  cases e with
  | receiveNAK now missingSeqs => exact (h.retransmit now missingSeqs).2
  | runRecoveryBurst now burstSize intervalMs => exact (h.retransmit now _).2
  | _ => exact he.elim

/-- Any other event leaves the queue's bounds and the count of the abandoned packets alone. -/
theorem step_frame (s : Budget) {e : BudgetEvent} (he : ¬ e.Retransmits) :
    (s.step e).retransmitQueue.maxSize = s.retransmitQueue.maxSize ∧
      (s.step e).retransmitQueue.maxRetransmits = s.retransmitQueue.maxRetransmits ∧
      (s.step e).retransmitQueue.abandonedCount = s.retransmitQueue.abandonedCount := by
  cases e with
  | add now sequence =>
    rw [step, RetransmitQueue.add, RetransmitQueue.evictOldest]
    split_ifs
    · split <;> exact ⟨rfl, rfl, rfl⟩
    · exact ⟨rfl, rfl, rfl⟩
  | receiveNAK now missingSeqs => exact absurd trivial he
  | runRecoveryBurst now burstSize intervalMs => exact absurd trivial he
  | acknowledgeRange previousAckSeq cumulativeSeq =>
    obtain ⟨p, hp⟩ := s.retransmitQueue.acknowledgeRange_eq_filter previousAckSeq cumulativeSeq
    rw [step, hp]
    exact ⟨rfl, rfl, rfl⟩
  | expireOld now maxAge => exact ⟨rfl, rfl, rfl⟩
  | clear => exact ⟨rfl, rfl, rfl⟩

theorem bounds_step (h : Inv s) (e : BudgetEvent) :
    (s.step e).retransmitQueue.maxSize = s.retransmitQueue.maxSize ∧
      (s.step e).retransmitQueue.maxRetransmits = s.retransmitQueue.maxRetransmits := by
  by_cases he : e.Retransmits
  · exact ⟨(h.took he).maxSize, (h.took he).maxRetransmits⟩
  · exact ⟨(s.step_frame he).1, (s.step_frame he).2.1⟩

theorem run_inv {maxSize : ℕ} (h : 1 ≤ maxSize) (maxRetransmits : ℕ) (es : List BudgetEvent) :
    Inv (run step (new maxSize maxRetransmits) es) ∧
      (run step (new maxSize maxRetransmits) es).retransmitQueue.maxSize = maxSize ∧
      (run step (new maxSize maxRetransmits) es).retransmitQueue.maxRetransmits =
        maxRetransmits := by
  refine run_invariant (I := fun s => Inv s ∧ s.retransmitQueue.maxSize = maxSize ∧
    s.retransmitQueue.maxRetransmits = maxRetransmits) ?_ ⟨Inv.initial h _, rfl, rfl⟩ es
  rintro s e ⟨hs, hsize, hmax⟩
  obtain ⟨hsize', hmax'⟩ := bounds_step hs e
  exact ⟨hs.step e, hsize'.trans hsize, hmax'.trans hmax⟩

/-- **The retransmission budget.** After every run the queue is within its capacity and no packet
has been handed out more often than `maxRetransmits`; and of every next event, the abandoned count
grows by the number of packets the event takes out when it asks for retransmissions, each of which
has been handed out `maxRetransmits` times, and does not grow when it asks for none. -/
theorem retransmission_budget {maxSize : ℕ} (h : 1 ≤ maxSize) (maxRetransmits : ℕ)
    (es : List BudgetEvent) (e : BudgetEvent) :
    (run step (new maxSize maxRetransmits) es).retransmitQueue.queue.size ≤ maxSize ∧
      (∀ i, (run step (new maxSize maxRetransmits) es).handed.count i ≤ maxRetransmits) ∧
      (e.Retransmits →
        ((run step (new maxSize maxRetransmits) es).step e).retransmitQueue.abandonedCount =
          (run step (new maxSize maxRetransmits) es).retransmitQueue.abandonedCount +
            ((run step (new maxSize maxRetransmits) es).removed e).length ∧
        ∀ i ∈ (run step (new maxSize maxRetransmits) es).removed e,
          ((run step (new maxSize maxRetransmits) es).step e).handed.count i = maxRetransmits) ∧
      (¬ e.Retransmits →
        ((run step (new maxSize maxRetransmits) es).step e).retransmitQueue.abandonedCount =
          (run step (new maxSize maxRetransmits) es).retransmitQueue.abandonedCount) := by
  obtain ⟨hinv, hsize, hmax⟩ := run_inv h maxRetransmits es
  refine ⟨hinv.size.trans hsize.le, fun i => (hinv.bounded i).trans hmax.le, ?_,
    fun he => (step_frame _ he).2.2⟩
  intro he
  have htook := hinv.took he
  refine ⟨htook.length_gone hinv (hinv.step e), fun i hi => ?_⟩
  obtain ⟨hi, hgone⟩ := List.mem_filter.1 hi
  exact (htook.spent i hi (of_decide_eq_true hgone)).trans hmax

/-- A packet is handed out once by a negative acknowledgement, and abandoned by the burst. -/
theorem retransmission_budget_burst :
    (run step (new 2 1) [.add 0 7, .receiveNAK 1 [7, 9]]).handed.count 0 ≤ 1 ∧
      ((run step (new 2 1) [.add 0 7, .receiveNAK 1 [7, 9]]).step
        (.runRecoveryBurst 2 5 0)).retransmitQueue.abandonedCount =
          (run step (new 2 1) [.add 0 7, .receiveNAK 1 [7, 9]]).retransmitQueue.abandonedCount + 1 :=
  ⟨(retransmission_budget (by decide) 1 [.add 0 7, .receiveNAK 1 [7, 9]] .clear).2.1 0,
    ((retransmission_budget (by decide) 1 [.add 0 7, .receiveNAK 1 [7, 9]]
      (.runRecoveryBurst 2 5 0)).2.2.1 trivial).1⟩

end Runs

end Budget

end EdgeLink
