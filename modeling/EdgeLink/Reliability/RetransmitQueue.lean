import EdgeLink.Foundations.OrderedMap
import EdgeLink.Foundations.MapAccum
import EdgeLink.Reliability.ReplayWindow
import Mathlib.Data.List.ReduceOption
import Mathlib.Data.List.Sort

/-!
# The retransmit queue

The client's store of packets that may have to be sent again,
`transport/reliability/retransmit-queue.ts`. Acknowledgements are cumulative, in serial order.

* `mem_seqs_add`, `mem_seqs_retransmit`: what the other operations do to the numbers queued.
* `acknowledged_dist`: an acknowledgement of `cumulativeSeq` removes numbers that are not beyond it,
  counted from any origin that all the numbers in play are less than half a lap ahead of.
-/

namespace EdgeLink

open Serial

structure QueueEntry (α : Type*) where
  packet : α
  timestamp : Time
  originalTimestamp : Time
  attempts : ℕ

structure RetransmitQueue (α : Type*) where
  maxSize : ℕ
  maxRetransmits : ℕ
  queue : OrderedMap Seq (QueueEntry α)
  /-- the packets dropped after `maxRetransmits` -/
  abandonedCount : ℕ
  lastAbandonedSeq : Option Seq

namespace RetransmitQueue

variable {α : Type*}

def new (maxSize : ℕ := 5000) (maxRetransmits : ℕ := 3) : RetransmitQueue α where
  maxSize := maxSize
  maxRetransmits := maxRetransmits
  queue := .empty
  abandonedCount := 0
  lastAbandonedSeq := none

/-- The numbers queued. -/
def seqs (q : RetransmitQueue α) : List Seq := q.queue.keys

/-- Evict the entry that was queued first by its time. -/
def evictOldest (q : RetransmitQueue α) : RetransmitQueue α :=
  match q.queue.oldestBy (·.originalTimestamp) with
  | some oldestKey => { q with queue := q.queue.delete oldestKey }
  | none => q

/-- Queue a packet, at the expense of the oldest one when the queue is full. -/
def add (q : RetransmitQueue α) (now : Time) (sequence : Seq) (packet : α) : RetransmitQueue α :=
  let q := if q.maxSize ≤ q.queue.size then q.evictOldest else q
  { q with queue := q.queue.set sequence ⟨packet, now, now, 0⟩ }

/-- The older of two numbers, by serial comparison. -/
def older (oldest : Option Seq) (candidate : Seq) : Option Seq :=
  match oldest with
  | none => some candidate
  | some oldest => some (if dist candidate oldest < 0x80000000 then candidate else oldest)

/-- The oldest number queued, by pairwise serial comparison. -/
def oldestOutstandingSeq (q : RetransmitQueue α) : Option Seq := q.seqs.foldl older none

/-- Remove everything up to a number. -/
def acknowledge (q : RetransmitQueue α) (cumulativeSeq : Seq) : RetransmitQueue α :=
  match q.oldestOutstandingSeq with
  | none => q
  | some oldestOutstanding =>
    let distanceStartToEnd := dist oldestOutstanding cumulativeSeq
    if 0x80000000 ≤ distanceStartToEnd then q
    else
      let kept := fun seq (_ : QueueEntry α) => ¬ dist oldestOutstanding seq ≤ distanceStartToEnd
      { q with queue := q.queue.filter fun seq entry => kept seq entry }

/-- Remove the numbers after one acknowledgement and up to the next. -/
def acknowledgeRange (q : RetransmitQueue α) (previousAckSeq : Option Seq) (cumulativeSeq : Seq) :
    RetransmitQueue α :=
  match previousAckSeq with
  | none => q.acknowledge cumulativeSeq
  | some prevSeq =>
    if prevSeq = cumulativeSeq then q
    else
      let distanceStartToEnd := dist prevSeq cumulativeSeq
      if 0x80000000 ≤ distanceStartToEnd then q
      else
        let kept := fun seq (_ : QueueEntry α) =>
          ¬ (0 < dist prevSeq seq ∧ dist prevSeq seq ≤ distanceStartToEnd)
        { q with queue := q.queue.filter fun seq entry => kept seq entry }

/-- Take one packet out for retransmission, or drop it when its attempts are used up. -/
def retransmitOne (now : Time) (q : RetransmitQueue α) (seq : Seq) :
    RetransmitQueue α × Option (Seq × α × ℕ) :=
  match q.queue.get? seq with
  | none => (q, none)
  | some entry =>
    if q.maxRetransmits ≤ entry.attempts then
      ({ q with
        queue := q.queue.delete seq
        abandonedCount := q.abandonedCount + 1
        lastAbandonedSeq := some seq }, none)
    else
      let entry := { entry with attempts := entry.attempts + 1, timestamp := now }
      ({ q with queue := q.queue.set seq entry }, some (seq, entry.packet, entry.attempts))

/-- The packets to retransmit, with their numbers and attempts. -/
def retransmit (q : RetransmitQueue α) (now : Time) (sequences : List Seq) :
    RetransmitQueue α × List (Seq × α × ℕ) :=
  let r := mapAccum (retransmitOne now) q sequences
  (r.1, r.2.reduceOption)

/-- The numbers that have been queued longest, without those retransmitted only just now. -/
def getOldestSequences (q : RetransmitQueue α) (now : Time) (limit : ℕ) (minRetransmitAge : Time) :
    List Seq :=
  let eligible := q.queue.entries.filter fun e =>
    ¬ (0 < minRetransmitAge ∧ 0 < e.2.attempts ∧ now - minRetransmitAge < e.2.timestamp)
  let sorted := eligible.insertionSort fun a b => a.2.originalTimestamp ≤ b.2.originalTimestamp
  (sorted.take limit).map Prod.fst

/-- Drop the entries older than an age. -/
def expireOld (q : RetransmitQueue α) (now maxAge : Time) : RetransmitQueue α :=
  { q with queue := q.queue.filter fun _ entry => ¬ maxAge < now - entry.originalTimestamp }

/-- Drop everything. -/
def clear (q : RetransmitQueue α) : RetransmitQueue α := { q with queue := .empty }

/-! ## What an operation does to the queue -/

section Cases

variable {q : RetransmitQueue α} {now : Time} {seq : Seq}

/-- An acknowledgement only takes entries out. -/
theorem acknowledgeRange_eq_filter (q : RetransmitQueue α) (previousAckSeq : Option Seq)
    (cumulativeSeq : Seq) : ∃ p : Seq → QueueEntry α → Bool,
      q.acknowledgeRange previousAckSeq cumulativeSeq = { q with queue := q.queue.filter p } := by
  have hsame : ∃ p : Seq → QueueEntry α → Bool, q = { q with queue := q.queue.filter p } :=
    ⟨fun _ _ => true, by rw [OrderedMap.filter_eq_self fun _ _ => rfl]⟩
  cases previousAckSeq with
  | none =>
    rw [acknowledgeRange, acknowledge]
    split
    · exact hsame
    · dsimp only
      split_ifs
      · exact hsame
      · exact ⟨_, rfl⟩
  | some prev =>
    rw [acknowledgeRange]
    dsimp only
    split_ifs
    · exact hsame
    · exact hsame
    · exact ⟨_, rfl⟩

/-- A full queue that is not empty loses one entry for the new one. -/
theorem evictOldest_eq_delete (h : 0 < q.queue.size) :
    ∃ k ∈ q.queue.keys, q.evictOldest = { q with queue := q.queue.delete k } := by
  obtain ⟨k, hk, holdest⟩ := OrderedMap.exists_oldestBy h QueueEntry.originalTimestamp
  exact ⟨k, hk, by rw [evictOldest, holdest]⟩

/-- What becomes of a requested number: it is not queued, its entry is dropped because its attempts
are used up, or its packet is handed out once more. -/
theorem retransmitOne_cases (q : RetransmitQueue α) (now : Time) (seq : Seq) :
    (q.queue.get? seq = none ∧ retransmitOne now q seq = (q, none)) ∨
      (∃ entry, q.queue.get? seq = some entry ∧ q.maxRetransmits ≤ entry.attempts ∧
        retransmitOne now q seq =
          ({ q with
            queue := q.queue.delete seq
            abandonedCount := q.abandonedCount + 1
            lastAbandonedSeq := some seq }, none)) ∨
      ∃ entry, q.queue.get? seq = some entry ∧ entry.attempts < q.maxRetransmits ∧
        retransmitOne now q seq =
          ({ q with
            queue := q.queue.set seq { entry with attempts := entry.attempts + 1, timestamp := now } },
            some (seq, entry.packet, entry.attempts + 1)) := by
  rw [retransmitOne]
  split
  next h => exact Or.inl ⟨h, rfl⟩
  next entry h =>
    split_ifs with hmax
    · exact Or.inr (Or.inl ⟨entry, h, hmax, rfl⟩)
    · exact Or.inr (Or.inr ⟨entry, h, Nat.lt_of_not_le hmax, rfl⟩)

theorem retransmit_nil (q : RetransmitQueue α) (now : Time) : q.retransmit now [] = (q, []) := rfl

theorem retransmit_cons (q : RetransmitQueue α) (now : Time) (seq : Seq) (sequences : List Seq) :
    q.retransmit now (seq :: sequences) =
      (((retransmitOne now q seq).1.retransmit now sequences).1,
        (retransmitOne now q seq).2.toList ++
          ((retransmitOne now q seq).1.retransmit now sequences).2) := by
  simp only [retransmit, mapAccum_cons]
  cases (retransmitOne now q seq).2 with
  | none => rfl
  | some t => rfl

/-- The number's packet is queued and its attempts are used up. -/
def Spent (q : RetransmitQueue α) (seq : Seq) : Bool :=
  (q.queue.get? seq).any fun entry => q.maxRetransmits ≤ entry.attempts

theorem spent_eq_false_iff :
    q.Spent seq = false ↔ ∀ entry ∈ q.queue.get? seq, entry.attempts < q.maxRetransmits := by
  unfold Spent
  cases q.queue.get? seq with
  | none => simp
  | some entry => simp

/-- A requested number does nothing to the others, and is counted when it is spent. -/
theorem retransmitOne_frame (q : RetransmitQueue α) (now : Time) (seq : Seq) :
    (retransmitOne now q seq).1.abandonedCount =
        q.abandonedCount + (if q.Spent seq then 1 else 0) ∧
      ∀ x, x ≠ seq → (retransmitOne now q seq).1.Spent x = q.Spent x := by
  rcases q.retransmitOne_cases now seq with
    ⟨hget, h⟩ | ⟨entry, hget, hmax, h⟩ | ⟨entry, hget, hmax, h⟩
  · rw [h]
    exact ⟨by simp [Spent, hget], fun _ _ => rfl⟩
  · rw [h]
    refine ⟨by simp [Spent, hget, hmax], fun x hx => ?_⟩
    simp only [Spent]
    rw [OrderedMap.get?_delete, if_neg hx]
  · rw [h]
    refine ⟨by simp [Spent, hget, hmax], fun x hx => ?_⟩
    simp only [Spent]
    rw [OrderedMap.get?_set_of_ne _ hx]

/-- A retransmission of distinct numbers abandons those that are spent. -/
theorem abandonedCount_retransmit {sequences : List Seq} (hnodup : sequences.Nodup) :
    (q.retransmit now sequences).1.abandonedCount = q.abandonedCount + sequences.countP q.Spent := by
  induction sequences generalizing q with
  | nil => rfl
  | cons seq sequences ih =>
    obtain ⟨hseq, hnodup⟩ := List.nodup_cons.1 hnodup
    obtain ⟨hcount, hother⟩ := q.retransmitOne_frame now seq
    have hsame : sequences.countP (retransmitOne now q seq).1.Spent = sequences.countP q.Spent :=
      List.countP_congr fun x hx => by rw [hother x fun e => hseq (e ▸ hx)]
    rw [retransmit_cons]
    dsimp only
    rw [ih hnodup, hcount, hsame, List.countP_cons]
    omega

/-- No retransmission lowers the count. -/
theorem abandonedCount_le_retransmit (q : RetransmitQueue α) (now : Time) (sequences : List Seq) :
    q.abandonedCount ≤ (q.retransmit now sequences).1.abandonedCount := by
  induction sequences generalizing q with
  | nil => exact le_rfl
  | cons seq sequences ih =>
    rw [retransmit_cons]
    refine le_trans ?_ (ih _)
    rw [(q.retransmitOne_frame now seq).1]
    exact Nat.le_add_right ..

theorem nodup_getOldestSequences (q : RetransmitQueue α) (now : Time) (limit : ℕ)
    (minRetransmitAge : Time) : (q.getOldestSequences now limit minRetransmitAge).Nodup := by
  unfold getOldestSequences
  refine List.Nodup.sublist ((List.take_sublist ..).map _) ?_
  rw [((List.perm_insertionSort ..).map _).nodup_iff]
  exact q.queue.nodup.sublist (List.filter_sublist.map _)

end Cases

/-! ## The numbers queued -/

section Keys

variable {q : RetransmitQueue α} {now : Time} {s x : Seq} {packet : α}

theorem mem_seqs_evictOldest (h : x ∈ q.evictOldest.seqs) : x ∈ q.seqs := by
  rw [evictOldest] at h
  split at h
  · exact (OrderedMap.mem_keys_delete.1 h).2
  · exact h

theorem mem_seqs_add (h : x ∈ (q.add now s packet).seqs) : x = s ∨ x ∈ q.seqs := by
  refine (OrderedMap.mem_keys_set.1 h).imp_right fun h => ?_
  split_ifs at h
  · exact mem_seqs_evictOldest h
  · exact h

theorem mem_seqs_retransmitOne (h : x ∈ (retransmitOne now q s).1.seqs) : x ∈ q.seqs := by
  rw [retransmitOne] at h
  split at h
  · exact h
  next entry he =>
    split_ifs at h
    · exact (OrderedMap.mem_keys_delete.1 h).2
    · rcases OrderedMap.mem_keys_set.1 h with rfl | h
      · exact OrderedMap.mem_keys.2 ⟨entry, he⟩
      · exact h

theorem mem_seqs_retransmit {sequences : List Seq} (h : x ∈ (q.retransmit now sequences).1.seqs) :
    x ∈ q.seqs :=
  mapAccum_invariant (I := fun r : RetransmitQueue α => x ∈ r.seqs → x ∈ q.seqs)
    (fun _ _ hr h => hr (mem_seqs_retransmitOne h)) id sequences h

theorem mem_seqs_expireOld {maxAge : Time} (h : x ∈ (q.expireOld now maxAge).seqs) : x ∈ q.seqs :=
  OrderedMap.mem_keys_filter h

theorem older_cases {oldest : Option Seq} {c : Seq} (h : older oldest c = some x) :
    x = c ∨ oldest = some x := by
  cases oldest with
  | none => exact Or.inl (Option.some.inj h).symm
  | some o =>
    rw [older] at h
    split_ifs at h
    · exact Or.inl (Option.some.inj h).symm
    · exact Or.inr h

theorem oldestOutstandingSeq_mem (h : q.oldestOutstandingSeq = some s) : s ∈ q.seqs := by
  have fold : ∀ (l : List Seq) (oldest : Option Seq), l.foldl older oldest = some s →
      s ∈ l ∨ oldest = some s := by
    intro l
    induction l with
    | nil => exact fun _ h => Or.inr h
    | cons c l ih =>
      intro oldest h
      rcases ih _ h with hs | hs
      · exact Or.inl (List.mem_cons_of_mem _ hs)
      · rcases older_cases hs with rfl | hs
        · exact Or.inl List.mem_cons_self
        · exact Or.inr hs
  exact (fold q.seqs none h).resolve_right (by simp)

/-- What is within half a lap ahead of a number `a` less than half a lap from `o` keeps its
distance from `o`. -/
theorem dist_add_of_lt {o a b : Seq} (ha : dist o a < 2 ^ 31) (hab : dist a b < 2 ^ 31) :
    dist o b = dist o a + dist a b := by
  have := dist_lt o b
  rcases dist_add_dist o a b with h | h <;> omega

/-- **What an acknowledgement removes** is not beyond it. -/
theorem acknowledged_dist {o cum : Seq} {previousAckSeq : Option Seq}
    (hseqs : ∀ x ∈ q.seqs, dist o x < 2 ^ 31)
    (hprev : ∀ p, previousAckSeq = some p → dist o p < 2 ^ 31)
    (hx : x ∈ q.seqs) (hremoved : x ∉ (q.acknowledgeRange previousAckSeq cum).seqs) :
    dist o x ≤ dist o cum := by
  have hle : ∀ a, dist o a < 2 ^ 31 → dist a cum < 2 ^ 31 → dist a x ≤ dist a cum →
      dist o x ≤ dist o cum := by
    intro a ha hcum hxc
    have h1 := dist_add_of_lt ha hcum
    have h2 := dist_add_of_lt ha (hxc.trans_lt hcum)
    omega
  cases previousAckSeq with
  | none =>
    rw [acknowledgeRange, acknowledge] at hremoved
    split at hremoved
    · exact absurd hx hremoved
    next oldest ho =>
      dsimp only at hremoved
      split_ifs at hremoved with hfar
      · exact absurd hx hremoved
      · have hxc := of_decide_eq_false
          (OrderedMap.not_mem_filter (p := fun seq => ¬ dist oldest seq ≤ dist oldest cum) hx hremoved)
        exact hle oldest (hseqs _ (oldestOutstandingSeq_mem ho)) (by omega) (not_not.1 hxc)
  | some prev =>
    rw [acknowledgeRange] at hremoved
    dsimp only at hremoved
    split_ifs at hremoved with hsame hfar
    · exact absurd hx hremoved
    · exact absurd hx hremoved
    · have hxc := of_decide_eq_false (OrderedMap.not_mem_filter
        (p := fun seq => ¬ (0 < dist prev seq ∧ dist prev seq ≤ dist prev cum)) hx hremoved)
      exact hle prev (hprev prev rfl) (by omega) (not_not.1 hxc).2

theorem mem_seqs_acknowledgeRange {previousAckSeq : Option Seq} {cum : Seq}
    (h : x ∈ (q.acknowledgeRange previousAckSeq cum).seqs) : x ∈ q.seqs := by
  obtain ⟨p, hp⟩ := q.acknowledgeRange_eq_filter previousAckSeq cum
  rw [hp] at h
  exact OrderedMap.mem_keys_filter h

end Keys

/-! ## The packets queued -/

/-- The packets queued, in the order of their numbers' first arrival. -/
def packets (q : RetransmitQueue α) : List α := q.queue.values.map QueueEntry.packet

section Packets

variable {q : RetransmitQueue α} {now : Time} {s : Seq} {packet x : α}

theorem mem_packets :
    x ∈ q.packets ↔ ∃ seq entry, q.queue.get? seq = some entry ∧ entry.packet = x := by
  rw [packets, List.mem_map]
  constructor
  · rintro ⟨entry, hentry, rfl⟩
    obtain ⟨seq, hseq⟩ := OrderedMap.mem_values.1 hentry
    exact ⟨seq, entry, hseq, rfl⟩
  · rintro ⟨seq, entry, hseq, rfl⟩
    exact ⟨entry, OrderedMap.mem_values.2 ⟨seq, hseq⟩, rfl⟩

theorem mem_packets_filter {p : Seq → QueueEntry α → Bool}
    (h : x ∈ packets { q with queue := q.queue.filter p }) : x ∈ q.packets := by
  obtain ⟨seq, entry, hseq, rfl⟩ := mem_packets.1 h
  rw [OrderedMap.get?_filter] at hseq
  exact mem_packets.2 ⟨seq, entry, (Option.filter_eq_some_iff.1 hseq).1, rfl⟩

theorem mem_packets_set {entry : QueueEntry α}
    (h : x ∈ packets { q with queue := q.queue.set s entry }) : x = entry.packet ∨ x ∈ q.packets := by
  obtain ⟨seq, e, hseq, rfl⟩ := mem_packets.1 h
  rw [OrderedMap.get?_set] at hseq
  split_ifs at hseq
  · exact Or.inl (congrArg QueueEntry.packet (Option.some.inj hseq)).symm
  · exact Or.inr (mem_packets.2 ⟨seq, e, hseq, rfl⟩)

theorem mem_packets_add (h : x ∈ (q.add now s packet).packets) : x = packet ∨ x ∈ q.packets := by
  rw [add] at h
  refine (mem_packets_set h).imp_right fun h => ?_
  split_ifs at h
  · rw [evictOldest] at h
    split at h
    · exact mem_packets_filter h
    · exact h
  · exact h

theorem mem_packets_acknowledgeRange {previousAckSeq : Option Seq} {cum : Seq}
    (h : x ∈ (q.acknowledgeRange previousAckSeq cum).packets) : x ∈ q.packets := by
  obtain ⟨p, hp⟩ := q.acknowledgeRange_eq_filter previousAckSeq cum
  rw [hp] at h
  exact mem_packets_filter h

theorem mem_packets_expireOld {maxAge : Time} (h : x ∈ (q.expireOld now maxAge).packets) :
    x ∈ q.packets := mem_packets_filter h

/-- Retransmitting a packet leaves it queued, or drops it. -/
theorem mem_packets_retransmitOne (h : x ∈ (retransmitOne now q s).1.packets) : x ∈ q.packets := by
  rw [retransmitOne] at h
  split at h
  · exact h
  next entry he =>
    split_ifs at h
    · exact mem_packets_filter h
    · rcases mem_packets_set h with rfl | h
      · exact mem_packets.2 ⟨s, entry, he, rfl⟩
      · exact h

theorem retransmitOne_queued {r : Seq × α × ℕ} (h : (retransmitOne now q s).2 = some r) :
    r.2.1 ∈ q.packets := by
  rw [retransmitOne] at h
  split at h
  · nomatch h
  next entry he =>
    split_ifs at h
    rw [← Option.some.inj h]
    exact mem_packets.2 ⟨s, entry, he, rfl⟩

theorem mem_packets_retransmit {sequences : List Seq}
    (h : x ∈ (q.retransmit now sequences).1.packets) : x ∈ q.packets :=
  mapAccum_invariant (I := fun r : RetransmitQueue α => x ∈ r.packets → x ∈ q.packets)
    (fun _ _ hr h => hr (mem_packets_retransmitOne h)) id sequences h

/-- **What is retransmitted** was queued. -/
theorem retransmit_queued {sequences : List Seq} {r : Seq × α × ℕ}
    (h : r ∈ (q.retransmit now sequences).2) : r.2.1 ∈ q.packets := by
  have hall := mapAccum_forall (I := fun t : RetransmitQueue α => ∀ y ∈ t.packets, y ∈ q.packets)
    (P := fun out => ∀ r ∈ out, r.2.1 ∈ q.packets) (f := retransmitOne now)
    (fun t seq ht => ⟨fun y hy => ht y (mem_packets_retransmitOne hy),
      fun r hr => ht _ (retransmitOne_queued hr)⟩) (fun _ hy => hy) sequences
  exact hall _ (List.reduceOption_mem_iff.1 h) r rfl

end Packets

end RetransmitQueue

end EdgeLink
