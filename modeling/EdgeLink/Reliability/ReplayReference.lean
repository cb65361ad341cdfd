import EdgeLink.Foundations.MapAccum
import EdgeLink.Reliability.ReplayWindow
import Mathlib.Data.Finset.Max

/-!
# The replay window over an unbounded number line

`ReferenceWindow` is what the anti-replay window stands for: sequence numbers that never wrap,
every accepted one remembered for good, and a number fresh when it is ahead of the highest
accepted one, or less than `size` behind it and not accepted before. The window of the code sees
the low 32 bits only, and forgets lazily: it prunes on an advance, and only once it remembers more
than `size` numbers.

* `Tracks` relates the two. Between two prunings the window advances fewer than `size` times, so
  with jumps of at most `MAX_JUMP` a remembered number stays less than a lap behind the highest,
  and the true number behind it is determined.
* `Tracks.advance`, `Tracks.fill`: both ways a number is accepted keep the relation.
* `accept_refines`: along a stream in reach the two accept the same arrivals.
-/

namespace EdgeLink

open Serial

/-! ## The reference -/

/-- The window over true numbers: the numbers it has accepted, none ever dropped. -/
structure ReferenceWindow where
  size : ℕ
  accepted : Finset ℕ

namespace ReferenceWindow

/-- Nothing accepted yet. -/
def new (size : ℕ) : ReferenceWindow := ⟨size, ∅⟩

/-- The highest accepted number. -/
def highest (r : ReferenceWindow) : Option ℕ := r.accepted.max

/-- Check an arriving number and record it. -/
def accept (r : ReferenceWindow) (t : ℕ) : Bool × ReferenceWindow :=
  match r.highest with
  | none => (true, { r with accepted := insert t r.accepted })
  | some highest =>
    if highest < t ∨ (highest - t ≤ r.size - 1 ∧ t ∉ r.accepted) then
      (true, { r with accepted := insert t r.accepted })
    else (false, r)

/-- How far ahead of the highest accepted number an arrival may be. -/
def MAX_JUMP : ℕ := 2 ^ 21

/-- The arrival is at most `MAX_JUMP` ahead of, and less than half a lap behind, the highest
accepted number. -/
def InReach (r : ReferenceWindow) (t : ℕ) : Prop :=
  ∀ highest ∈ r.highest, t ≤ highest + MAX_JUMP ∧ highest < t + 2 ^ 31

instance (r : ReferenceWindow) (t : ℕ) : Decidable (r.InReach t) := by
  unfold InReach
  cases r.highest with
  | none => exact isTrue fun _ h => nomatch h
  | some h => exact decidable_of_iff (t ≤ h + MAX_JUMP ∧ h < t + 2 ^ 31) (by simp)

theorem le_highest {r : ReferenceWindow} {h : ℕ} (hh : r.highest = some h) {x : ℕ}
    (hx : x ∈ r.accepted) : x ≤ h :=
  Finset.le_max_of_eq hx hh

theorem highest_insert {r : ReferenceWindow} {h : ℕ} (hh : r.highest = some h) (t : ℕ) :
    highest { r with accepted := insert t r.accepted } = some (max t h) := by
  have hm : r.accepted.max = (h : WithBot ℕ) := hh
  change (insert t r.accepted).max = ((max t h : ℕ) : WithBot ℕ)
  rw [Finset.max_insert, hm]
  exact (WithBot.coe_max t h).symm

end ReferenceWindow

/-! ## The relation -/

namespace ReplayWindow

/-- The window after the arrivals of a stream, of which it sees the low 32 bits. -/
def acceptLow (w : ReplayWindow) (t : ℕ) : Bool × ReplayWindow := w.accept (BitVec.ofNat 32 t)

/-- What the window knows of the true numbers, when it has advanced `advances` times since it was
last pruned. -/
structure Tracks (w : ReplayWindow) (r : ReferenceWindow) (h advances : ℕ) : Prop where
  /-- Both have the same highest number. -/
  highest : w.highest = some (BitVec.ofNat 32 h)
  highest' : r.highest = some h
  size : w.size = REPLAY_WINDOW_SIZE
  size' : r.size = REPLAY_WINDOW_SIZE
  /-- A remembered number is that of an accepted one, and no older than the advances allow. -/
  known : ∀ s ∈ w.seen, ∃ x ∈ r.accepted, s = BitVec.ofNat 32 x ∧ x ≤ h ∧
    h < x + REPLAY_WINDOW_SIZE + advances * ReferenceWindow.MAX_JUMP
  /-- Each advance has left a number behind. -/
  counted : advances < w.seen.card
  few : advances < REPLAY_WINDOW_SIZE
  /-- What was accepted in the window is remembered. -/
  kept : ∀ x ∈ r.accepted, h < x + REPLAY_WINDOW_SIZE → BitVec.ofNat 32 x ∈ w.seen

namespace Tracks

variable {w : ReplayWindow} {r : ReferenceWindow} {h advances t : ℕ}

/-- A remembered number is less than half a lap behind the highest. -/
theorem known' (hw : Tracks w r h advances) {s : Seq} (hs : s ∈ w.seen) :
    ∃ x ∈ r.accepted, s = BitVec.ofNat 32 x ∧ x ≤ h ∧ h + ReferenceWindow.MAX_JUMP < x + 2 ^ 32 := by
  obtain ⟨x, hx, hsx, hxh, hnear⟩ := hw.known s hs
  refine ⟨x, hx, hsx, hxh, ?_⟩
  have hfew := hw.few
  simp only [ReferenceWindow.MAX_JUMP, REPLAY_WINDOW_SIZE] at *
  omega

/-- The two sets agree on a number less than half a lap from the highest that is in the window. -/
theorem mem_seen_iff (hw : Tracks w r h advances) (ht : t ≤ h) (hwin : h < t + REPLAY_WINDOW_SIZE) :
    BitVec.ofNat 32 t ∈ w.seen ↔ t ∈ r.accepted := by
  constructor
  · intro hs
    obtain ⟨x, hx, hsx, hxh, hnear⟩ := hw.known' hs
    have hdt := dist_ofNat (w := 32) ht (by simp only [REPLAY_WINDOW_SIZE] at hwin; omega)
    have hdx := dist_ofNat (w := 32) hxh (by omega)
    rw [hsx, hdx] at hdt
    obtain rfl : x = t := by omega
    exact hx
  · exact fun hx => hw.kept t hx hwin

/-- A number the window has not reached yet is not remembered. -/
theorem not_mem_seen_of_lt (hw : Tracks w r h advances) (ht : h < t)
    (hjump : t ≤ h + ReferenceWindow.MAX_JUMP) : BitVec.ofNat 32 t ∉ w.seen := by
  intro hs
  obtain ⟨x, hx, hsx, hxh, hnear⟩ := hw.known' hs
  have hd := dist_ofNat (w := 32) (a := x) (b := t) (by omega) (by omega)
  rw [hsx, dist_self] at hd
  omega

/-- The window advances to `t`: what it remembers is not pruned, or pruned down to the window. -/
theorem advance (hw : Tracks w r h advances) (ht : h < t)
    (hjump : t ≤ h + ReferenceWindow.MAX_JUMP) :
    ∃ n, Tracks
      (pruneIfNeeded { w with
        highest := some (BitVec.ofNat 32 t), seen := insert (BitVec.ofNat 32 t) w.seen })
      { r with accepted := insert t r.accepted } t n := by
  have hnew := hw.not_mem_seen_of_lt ht hjump
  have hcard := Finset.card_insert_of_notMem hnew
  have hmax := ReferenceWindow.highest_insert hw.highest' t
  rw [max_eq_left ht.le] at hmax
  have hkept : ∀ x ∈ insert t r.accepted, t < x + REPLAY_WINDOW_SIZE →
      BitVec.ofNat 32 x ∈ insert (BitVec.ofNat 32 t) w.seen := by
    intro x hx hnear
    rcases Finset.mem_insert.1 hx with rfl | hx
    · exact Finset.mem_insert_self _ _
    · exact Finset.mem_insert_of_mem (hw.kept x hx (by omega))
  unfold pruneIfNeeded
  dsimp only
  split_ifs with hfull
  · -- Nothing is pruned: one more advance, one more number remembered.
    refine ⟨advances + 1, rfl, hmax, hw.size, hw.size', ?_, ?_, ?_, hkept⟩
    · intro s hs
      rcases Finset.mem_insert.1 hs with rfl | hs
      · exact ⟨t, Finset.mem_insert_self _ _, rfl, le_rfl, by
          simp only [REPLAY_WINDOW_SIZE]; omega⟩
      · obtain ⟨x, hx, hsx, hxh, hnear⟩ := hw.known s hs
        refine ⟨x, Finset.mem_insert_of_mem hx, hsx, by omega, ?_⟩
        rw [Nat.add_mul, Nat.one_mul]
        omega
    · have := hw.counted
      simp only [hcard]
      omega
    · have := hw.counted
      rw [hw.size, hcard] at hfull
      omega
  · -- Only the window is left.
    refine ⟨0, rfl, hmax, hw.size, hw.size', ?_, ?_, by decide, ?_⟩
    · intro s hs
      obtain ⟨hs, hnear⟩ := Finset.mem_filter.1 hs
      rcases Finset.mem_insert.1 hs with rfl | hs
      · exact ⟨t, Finset.mem_insert_self _ _, rfl, le_rfl, by
          simp only [REPLAY_WINDOW_SIZE]; omega⟩
      · obtain ⟨x, hx, hsx, hxh, hlap⟩ := hw.known' hs
        rw [hsx, dist_ofNat (by omega) (by omega), hw.size] at hnear
        exact ⟨x, Finset.mem_insert_of_mem hx, hsx, by omega, by omega⟩
    · refine Finset.card_pos.2 ⟨BitVec.ofNat 32 t, Finset.mem_filter.2 ?_⟩
      exact ⟨Finset.mem_insert_self _ _, by simpa using w.size_pos⟩
    · intro x hx hnear
      refine Finset.mem_filter.2 ⟨hkept x hx hnear, ?_⟩
      have hxt : x ≤ t := by
        rcases Finset.mem_insert.1 hx with rfl | hx
        · exact le_rfl
        · exact (ReferenceWindow.le_highest hw.highest' hx).trans ht.le
      rw [dist_ofNat hxt (by simp only [REPLAY_WINDOW_SIZE] at hnear; omega), hw.size]
      omega

/-- A number in the window is recorded. -/
theorem fill (hw : Tracks w r h advances) (ht : t ≤ h) (hwin : h < t + REPLAY_WINDOW_SIZE) :
    Tracks { w with seen := insert (BitVec.ofNat 32 t) w.seen }
      { r with accepted := insert t r.accepted } h advances where
  highest := hw.highest
  highest' := by rw [ReferenceWindow.highest_insert hw.highest' t, max_eq_right ht]
  size := hw.size
  size' := hw.size'
  known s hs := by
    rcases Finset.mem_insert.1 hs with rfl | hs
    · exact ⟨t, Finset.mem_insert_self _ _, rfl, ht, by omega⟩
    · obtain ⟨x, hx, hrest⟩ := hw.known s hs
      exact ⟨x, Finset.mem_insert_of_mem hx, hrest⟩
  counted := hw.counted.trans_le (Finset.card_le_card (Finset.subset_insert _ _))
  few := hw.few
  kept x hx hnear := by
    rcases Finset.mem_insert.1 hx with rfl | hx
    · exact Finset.mem_insert_self _ _
    · exact Finset.mem_insert_of_mem (hw.kept x hx hnear)

end Tracks

/-- The two windows agree so far. -/
def Agree (w : ReplayWindow) (r : ReferenceWindow) : Prop :=
  (w = .new REPLAY_WINDOW_SIZE ∧ r = .new REPLAY_WINDOW_SIZE) ∨ ∃ h n, Tracks w r h n

/-- The first number opens both. -/
theorem tracks_first (t : ℕ) :
    Tracks ((ReplayWindow.new REPLAY_WINDOW_SIZE).acceptLow t).2
      ((ReferenceWindow.new REPLAY_WINDOW_SIZE).accept t).2 t 0 where
  highest := rfl
  highest' := rfl
  size := rfl
  size' := rfl
  known s hs := by
    obtain rfl := Finset.mem_singleton.1 hs
    exact ⟨t, Finset.mem_insert_self _ _, rfl, le_rfl, by simp only [REPLAY_WINDOW_SIZE]; omega⟩
  counted := Nat.zero_lt_one
  few := by decide
  kept x hx _ := by
    obtain rfl : x = t := by simpa [ReferenceWindow.accept, ReferenceWindow.highest,
      ReferenceWindow.new] using hx
    exact Finset.mem_singleton_self _

/-- An arrival in reach gets the same answer from both. -/
theorem Agree.step {w : ReplayWindow} {r : ReferenceWindow} {t : ℕ} (hw : Agree w r)
    (hreach : r.InReach t) :
    (w.acceptLow t).1 = (r.accept t).1 ∧ Agree (w.acceptLow t).2 (r.accept t).2 := by
  rcases hw with ⟨rfl, rfl⟩ | ⟨h, n, hw⟩
  · exact ⟨rfl, Or.inr ⟨t, 0, tracks_first t⟩⟩
  obtain ⟨hjump, hlate⟩ := hreach h hw.highest'
  unfold acceptLow accept ReferenceWindow.accept
  rw [hw.highest, hw.highest']
  dsimp only
  rcases lt_or_ge h t with ht | ht
  · have hahead : isAhead (BitVec.ofNat 32 t) (BitVec.ofNat 32 h) := by
      have hd := dist_ofNat (w := 32) ht.le (by simp only [ReferenceWindow.MAX_JUMP] at hjump; omega)
      simp only [ReferenceWindow.MAX_JUMP] at hjump
      exact ⟨by omega, by omega⟩
    rw [if_pos hahead, if_pos (Or.inl ht)]
    exact ⟨rfl, Or.inr ⟨t, hw.advance ht hjump⟩⟩
  · have hback := dist_ofNat (w := 32) ht (by omega)
    have hahead : ¬ isAhead (BitVec.ofNat 32 t) (BitVec.ofNat 32 h) := by
      rintro ⟨hne, hlt⟩
      rcases eq_or_lt_of_le ht with rfl | ht
      · exact hne (dist_self _)
      · rw [dist_ofNat_of_lt ht (by omega)] at hlt
        omega
    have hsize := hw.size
    have hsize' := hw.size'
    rw [if_neg hahead, hback]
    by_cases hwin : h < t + REPLAY_WINDOW_SIZE
    · rw [if_neg (by omega)]
      by_cases hs : t ∈ r.accepted
      · rw [if_pos ((hw.mem_seen_iff ht hwin).2 hs), if_neg (by simp [hs, ht])]
        exact ⟨rfl, Or.inr ⟨h, n, hw⟩⟩
      · have hfill := hw.fill ht hwin
        rw [hw.highest] at hfill
        rw [if_neg (mt (hw.mem_seen_iff ht hwin).1 hs), if_pos (Or.inr ⟨by omega, hs⟩)]
        exact ⟨rfl, Or.inr ⟨h, n, hfill⟩⟩
    · have hold : ¬ h - t ≤ r.size - 1 := by
        simp only [REPLAY_WINDOW_SIZE] at hwin hsize'
        omega
      rw [if_pos (by omega), if_neg (by simp [hold, ht])]
      exact ⟨rfl, Or.inr ⟨h, n, hw⟩⟩

end ReplayWindow

/-! ## The refinement -/

/-- What the window answers to a stream of true numbers, of which it sees the low 32 bits. -/
def windowAnswers (ts : List ℕ) : List Bool :=
  (mapAccum (fun w t => (ReplayWindow.acceptLow w t).swap) (.new REPLAY_WINDOW_SIZE) ts).2

/-- What the reference answers to it. -/
def referenceAnswers (ts : List ℕ) : List Bool :=
  (mapAccum (fun r t => (ReferenceWindow.accept r t).swap) (.new REPLAY_WINDOW_SIZE) ts).2

/-- Every arrival of the stream is in reach of the highest number accepted before it. -/
def StreamInReach (ts : List ℕ) : Prop :=
  Along (fun r t => (ReferenceWindow.accept r t).2) ReferenceWindow.InReach
    (.new REPLAY_WINDOW_SIZE) ts

instance (ts : List ℕ) : Decidable (StreamInReach ts) := by
  unfold StreamInReach
  infer_instance

/-- **The window refines the reference.** Along every stream in reach, over any number of laps,
the window accepts an arrival exactly when its true number is ahead of the highest one accepted,
or at most `size - 1` behind it and not accepted before. -/
theorem accept_refines {ts : List ℕ} (h : StreamInReach ts) :
    windowAnswers ts = referenceAnswers ts := by
  refine mapAccum_lockstep (I := ReplayWindow.Agree) (C := ReferenceWindow.InReach) ?_ ?_ h
  · exact fun _ _ _ hw hreach => hw.step hreach
  · exact Or.inl ⟨rfl, rfl⟩

/-- A stream over a lap's end, with a late number, a repeated one and one that is too old. -/
theorem accept_refines_wrap :
    StreamInReach [2 ^ 32 - 2, 2 ^ 32 + 1, 2 ^ 32 - 1, 2 ^ 32 + 1, 2 ^ 32 + 2 ^ 20, 2 ^ 32] ∧
      windowAnswers [2 ^ 32 - 2, 2 ^ 32 + 1, 2 ^ 32 - 1, 2 ^ 32 + 1, 2 ^ 32 + 2 ^ 20, 2 ^ 32] =
        referenceAnswers [2 ^ 32 - 2, 2 ^ 32 + 1, 2 ^ 32 - 1, 2 ^ 32 + 1, 2 ^ 32 + 2 ^ 20, 2 ^ 32] ∧
      windowAnswers [2 ^ 32 - 2, 2 ^ 32 + 1, 2 ^ 32 - 1, 2 ^ 32 + 1, 2 ^ 32 + 2 ^ 20, 2 ^ 32] =
        [true, true, true, false, true, false] := by
  refine ⟨by decide +kernel, accept_refines (by decide +kernel), by decide +kernel⟩

end EdgeLink
