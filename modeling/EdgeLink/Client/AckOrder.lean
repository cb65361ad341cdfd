import EdgeLink.Client.Transmission

/-!
# Acknowledgements in any order

`receiveACK` of `transport/pipeline/reliable-client/reliability.ts` removes what lies between the
last acknowledgement and the new one, and moves the last one on when the new one is ahead of it.
`AckState` is the part of the client it works on.

* `position_of_near`: acknowledgements within a quarter lap of the last one have positions in half
  a lap, so that serial order is the order of their positions.
* `receiveACK_of_not_ahead`, `receiveACK_of_ahead`: what one acknowledgement does.
* `run_receiveACK`: what a list of acknowledgements does is decided by its greatest one.
* `acks_order_independent`: so neither their order nor their repetition matters.
-/

namespace EdgeLink

open Serial

/-- The queue of the packets not acknowledged, and the last acknowledgement. -/
structure AckState (α : Type*) where
  retransmitQueue : RetransmitQueue α
  lastAckedSeq : Option Seq

/-- What an acknowledgement is applied to in the client. -/
def Transmitter.ackState (s : Transmitter) : AckState QueuedPacket :=
  ⟨s.retransmitQueue, s.lastAckedSeq⟩

namespace AckState

variable {α : Type*}

/-- `receiveACK`: the queue loses what the acknowledgement covers, and the last acknowledgement
moves forward only. -/
def receiveACK (s : AckState α) (ackedSeq : Seq) : AckState α where
  retransmitQueue := s.retransmitQueue.acknowledgeRange s.lastAckedSeq ackedSeq
  lastAckedSeq :=
    match s.lastAckedSeq with
    | none => some ackedSeq
    | some last => if isAhead ackedSeq last then some ackedSeq else some last

/-- The client's acknowledgement step is this one. -/
theorem ackState_receiveACK (s : Transmitter) (ackedSeq : Seq) :
    (s.receiveACK ackedSeq).ackState = s.ackState.receiveACK ackedSeq := rfl

/-! ## Positions -/

/-- `a` is less than a quarter lap before or after `b`. -/
def Near (b a : Seq) : Prop := dist b a < 2 ^ 30 ∨ dist a b < 2 ^ 30

instance (b a : Seq) : Decidable (Near b a) := by unfold Near; infer_instance

/-- The number a quarter lap before `b`, from which positions around `b` are counted. -/
def origin (b : Seq) : Seq := b - BitVec.ofNat 32 (2 ^ 30)

theorem dist_origin (b : Seq) : dist (origin b) b = 2 ^ 30 := dist_sub_ofNat b (by decide)

theorem near_self (b : Seq) : Near b b := Or.inl (by simp)

theorem position_of_near {b a : Seq} (h : Near b a) : dist (origin b) a < 2 ^ 31 := by
  have hb := dist_origin b
  rcases h with h | h
  · have := dist_from (origin b) b a
    omega
  · have := dist_from (origin b) a b
    have := dist_lt (origin b) a
    omega

section Positions

variable {o a b x : Seq}

/-- Serial order is the order of the positions. -/
theorem isAhead_iff_position (ha : dist o a < 2 ^ 31) (hb : dist o b < 2 ^ 31) :
    isAhead a b ↔ dist o b < dist o a := by
  have hfrom := dist_from o b a
  constructor
  · rintro ⟨hne, hlt⟩
    omega
  · intro h
    exact ⟨by omega, by omega⟩

/-- A range of numbers is a range of positions. -/
theorem range_iff_position (h : dist o b < dist o a) :
    (0 < dist b x ∧ dist b x ≤ dist b a) ↔ dist o b < dist o x ∧ dist o x ≤ dist o a := by
  have hx := dist_from o b x
  have ha := dist_from o b a
  have := dist_lt o x
  have := dist_lt o a
  omega

end Positions

/-! ## One acknowledgement -/

section Step

variable {s : AckState α} {a last : Seq}

/-- **An acknowledgement that is not ahead** of the last one changes nothing. -/
theorem receiveACK_of_not_ahead (hlast : s.lastAckedSeq = some last) (h : ¬ isAhead a last) :
    s.receiveACK a = s := by
  obtain ⟨q, _⟩ := s
  obtain rfl : _ = some last := hlast
  rw [receiveACK, RetransmitQueue.acknowledgeRange]
  dsimp only
  rw [if_neg h]
  by_cases hsame : last = a
  · rw [if_pos hsame]
  · have hfar : 0x80000000 ≤ dist last a := by
      by_contra hnear
      exact h ⟨fun e => hsame (dist_eq_zero.1 e), by omega⟩
    rw [if_neg hsame, if_pos hfar]

/-- An acknowledgement that is ahead removes the numbers up to it. -/
theorem receiveACK_of_ahead (hlast : s.lastAckedSeq = some last) (h : isAhead a last) :
    s.receiveACK a =
      ⟨{ s.retransmitQueue with
          queue := s.retransmitQueue.queue.filter fun x _ =>
            ¬ (0 < dist last x ∧ dist last x ≤ dist last a) }, some a⟩ := by
  obtain ⟨q, _⟩ := s
  obtain rfl : _ = some last := hlast
  have hsame : last ≠ a := fun e => h.1 (dist_eq_zero.2 e)
  have hnear : ¬ 0x80000000 ≤ dist last a := by
    have := h.2
    omega
  rw [receiveACK, RetransmitQueue.acknowledgeRange]
  dsimp only
  rw [if_pos h, if_neg hsame, if_neg hnear]

end Step

/-! ## A list of acknowledgements -/

section Run

variable {q : RetransmitQueue α} {o b : Seq}

/-- The state when the numbers after `b` and up to `g` have been removed from the queue `q`; what
is in the range is told by the positions. -/
def acknowledged (q : RetransmitQueue α) (o b g : Seq) : AckState α where
  retransmitQueue :=
    { q with queue := q.queue.filter fun x _ => ¬ (dist o b < dist o x ∧ dist o x ≤ dist o g) }
  lastAckedSeq := some g

theorem acknowledged_self (q : RetransmitQueue α) (o b : Seq) :
    acknowledged q o b b = ⟨q, some b⟩ := by
  rw [acknowledged, OrderedMap.filter_eq_self fun e _ => decide_eq_true (by omega)]

/-- Removing up to `g`, then up to `a` beyond it, removes up to `a`. -/
theorem receiveACK_acknowledged {g a : Seq} (hbg : dist o b ≤ dist o g) (hg : dist o g < 2 ^ 31)
    (ha : dist o a < 2 ^ 31) :
    (acknowledged q o b g).receiveACK a =
      acknowledged q o b (if dist o g < dist o a then a else g) := by
  by_cases hlt : dist o g < dist o a
  · rw [receiveACK_of_ahead rfl ((isAhead_iff_position ha hg).2 hlt), if_pos hlt, acknowledged,
      acknowledged]
    dsimp only
    congr 2
    refine OrderedMap.filter_filter _ fun x _ => ?_
    simp only [range_iff_position hlt, ← Bool.decide_and]
    exact decide_eq_decide.2 (by omega)
  · rw [receiveACK_of_not_ahead rfl (mt (isAhead_iff_position ha hg).1 hlt), if_neg hlt]

/-- **A run of acknowledgements**: the numbers up to the greatest are removed. -/
theorem run_receiveACK {g : Seq} {acks : List Seq} (hbg : dist o b ≤ dist o g)
    (hg : dist o g < 2 ^ 31) (hacks : ∀ a ∈ acks, dist o a < 2 ^ 31) :
    ∃ m ∈ g :: acks, (∀ a ∈ g :: acks, dist o a ≤ dist o m) ∧
      run receiveACK (acknowledged q o b g) acks = acknowledged q o b m := by
  induction acks generalizing g with
  | nil => exact ⟨g, by simp, by simp, rfl⟩
  | cons a acks ih =>
    have ha := hacks a List.mem_cons_self
    have hrest := fun c hc => hacks c (List.mem_cons_of_mem _ hc)
    rw [run_cons, receiveACK_acknowledged hbg hg ha]
    split_ifs with hlt
    · obtain ⟨m, hm, hmax, hrun⟩ := ih (by omega) ha hrest
      refine ⟨m, List.mem_cons_of_mem _ hm, ?_, hrun⟩
      intro c hc
      rcases List.mem_cons.1 hc with rfl | hc
      · exact hlt.le.trans (hmax a List.mem_cons_self)
      · exact hmax c hc
    · obtain ⟨m, hm, hmax, hrun⟩ := ih hbg hg hrest
      refine ⟨m, ?_, ?_, hrun⟩
      · rcases List.mem_cons.1 hm with rfl | hm
        · exact List.mem_cons_self
        · exact List.mem_cons_of_mem _ (List.mem_cons_of_mem _ hm)
      · intro c hc
        have hgm := hmax g List.mem_cons_self
        rcases List.mem_cons.1 hc with rfl | hc
        · exact hgm
        · rcases List.mem_cons.1 hc with rfl | hc
          · omega
          · exact hmax c (List.mem_cons_of_mem _ hc)

/-- **Acknowledgements are order independent.** For acknowledgements within a quarter lap of the
last one there is a greatest among them and the last one. Delivering them in any order, any number
of times, is delivering the greatest one alone; this removes exactly the numbers after the last
acknowledgement and up to the greatest. And an acknowledgement not ahead of the last one never
changes anything. -/
theorem acks_order_independent (q : RetransmitQueue α) (last : Seq) (acks : Multiset Seq)
    (hacks : ∀ a ∈ acks, Near last a) :
    (∃ greatest, (greatest = last ∨ greatest ∈ acks) ∧
      (∀ a, a = last ∨ a ∈ acks → ¬ isAhead a greatest) ∧
      (∀ deliveries : List Seq, (∀ a, a ∈ deliveries ↔ a ∈ acks) →
        run receiveACK ⟨q, some last⟩ deliveries = receiveACK ⟨q, some last⟩ greatest) ∧
      receiveACK ⟨q, some last⟩ greatest =
        ⟨{ q with queue := q.queue.filter fun x _ =>
            ¬ (0 < dist last x ∧ dist last x ≤ dist last greatest) }, some greatest⟩) ∧
    ∀ (s : AckState α) (prev a : Seq), s.lastAckedSeq = some prev → ¬ isAhead a prev →
      s.receiveACK a = s := by
  refine ⟨?_, fun s prev a hprev ha => receiveACK_of_not_ahead hprev ha⟩
  have hpos : ∀ a, a = last ∨ a ∈ acks → dist (origin last) a < 2 ^ 31 := by
    rintro a (rfl | ha)
    · exact position_of_near (near_self a)
    · exact position_of_near (hacks a ha)
  have hrun : ∀ deliveries : List Seq, (∀ a, a ∈ deliveries ↔ a ∈ acks) →
      ∃ m, (m = last ∨ m ∈ acks) ∧
        (∀ a, a = last ∨ a ∈ acks → dist (origin last) a ≤ dist (origin last) m) ∧
        run receiveACK ⟨q, some last⟩ deliveries = acknowledged q (origin last) last m := by
    intro deliveries hsame
    obtain ⟨m, hm, hmax, hend⟩ := run_receiveACK (q := q) (b := last) le_rfl (hpos last (Or.inl rfl))
      fun a ha => hpos a (Or.inr ((hsame a).1 ha))
    simp only [List.mem_cons, hsame] at hm hmax
    rw [acknowledged_self] at hend
    exact ⟨m, hm, hmax, hend⟩
  obtain ⟨g, hg, hmax, -⟩ := hrun acks.toList (by simp)
  have hlast := hmax last (Or.inl rfl)
  -- What the greatest one alone does, in positions.
  have hone : receiveACK ⟨q, some last⟩ g = acknowledged q (origin last) last g := by
    have h := receiveACK_acknowledged (q := q) (b := last) le_rfl (hpos last (Or.inl rfl)) (hpos g hg)
    rw [acknowledged_self] at h
    rw [h]
    split_ifs with hlt
    · rfl
    · rw [dist_right_injective (origin last) (le_antisymm (Nat.le_of_not_lt hlt) hlast)]
  refine ⟨g, hg, ?_, ?_, ?_⟩
  · intro a ha hahead
    have := (isAhead_iff_position (hpos a ha) (hpos g hg)).1 hahead
    have := hmax a ha
    omega
  · intro deliveries hsame
    obtain ⟨m, hm, hm', hend⟩ := hrun deliveries hsame
    rw [hend, hone, dist_right_injective (origin last) (le_antisymm (hm' g hg) (hmax m hm))]
  · rw [hone, acknowledged]
    rcases hlast.eq_or_lt with heq | hlt
    · obtain rfl := dist_right_injective _ heq
      simp only [dist_self, nonpos_iff_eq_zero]
      congr 3
      funext x _
      exact decide_eq_decide.2 (by omega)
    · simp only [range_iff_position hlt]

/-- A queue whose numbers lie on both sides of a lap's end, not in order. -/
def wrapQueue : RetransmitQueue Unit := ((RetransmitQueue.new.add 0 2 ()).add 0 4294967295 ()).add 0 0 ()

/-- Three acknowledgements over a lap's end, in two orders. -/
theorem acks_order_independent_wrap :
    run receiveACK ⟨wrapQueue, some 4294967294⟩ [1, 4294967295, 0, 1] =
      run receiveACK ⟨wrapQueue, some 4294967294⟩ [0, 4294967295, 1] := by
  have hnear : ∀ a ∈ ({1, 4294967295, 0} : Multiset Seq), Near 4294967294 a := by
    intro a ha
    simp only [Multiset.insert_eq_cons, Multiset.mem_cons, Multiset.mem_singleton] at ha
    rcases ha with rfl | rfl | rfl <;> decide
  obtain ⟨⟨g, -, -, hrun, -⟩, -⟩ := acks_order_independent wrapQueue 4294967294 _ hnear
  have hfirst := hrun [1, 4294967295, 0, 1] (by simp only [List.mem_cons, Multiset.insert_eq_cons,
    Multiset.mem_cons, Multiset.mem_singleton, List.not_mem_nil]; grind)
  have hsecond := hrun [0, 4294967295, 1] (by simp only [List.mem_cons, Multiset.insert_eq_cons,
    Multiset.mem_cons, Multiset.mem_singleton, List.not_mem_nil]; grind)
  rw [hfirst, hsecond]

end Run

end AckState

end EdgeLink
