import EdgeLink.Foundations.Serial
import Mathlib.Data.Finset.Basic
import Mathlib.Data.Finset.Card
import Mathlib.Tactic.Basic

/-!
# The anti-replay window

Sequence numbers are 32-bit numbers in serial order (`Seq`, `isAhead`, `isBehind`). The window of
`transport/reliability/replay-window.ts` remembers the highest number it has accepted and which
numbers below it were accepted, and accepts a number when it is ahead of the highest one, or less
than `size` behind it and not remembered (`Fresh`, `accept_eq_true`).

* `accept_not_fresh`: a rejected number changes nothing.
* `mem_seen_accept_self`, `mem_seen_accept`: an accepted number is remembered, and stays
  remembered while it is in the window.
* `seen_accept_subset`: nothing else is remembered.
-/

namespace EdgeLink

open Serial

/-- A sequence number. -/
abbrev Seq := BitVec 32

instance : LawfulBEq Seq := inferInstance

/-- `seq` is ahead of `reference` in serial number space. -/
def isAhead (seq reference : Seq) : Prop :=
  dist reference seq ≠ 0 ∧ dist reference seq < 0x80000000

/-- `seq` is behind `reference` in serial number space. -/
def isBehind (seq reference : Seq) : Prop :=
  dist seq reference ≠ 0 ∧ dist seq reference < 0x80000000

instance (a b : Seq) : Decidable (isAhead a b) := by unfold isAhead; infer_instance

instance (a b : Seq) : Decidable (isBehind a b) := by unfold isBehind; infer_instance

theorem isAhead_iff_ahead {a b : Seq} : isAhead a b ↔ Ahead b a := Iff.rfl

/-- One step forward is at distance one. -/
@[simp] theorem dist_add_one (a : Seq) : dist a (a + 1) = 1 := dist_add_ofNat a (n := 1) (by decide)

/-- The number of positions the window covers. -/
def REPLAY_WINDOW_SIZE : ℕ := 1024

/-- A sliding replay window: the highest accepted number, if any, and the numbers remembered as
accepted. -/
structure ReplayWindow where
  highest : Option Seq
  seen : Finset Seq
  size : ℕ
  size_pos : 0 < size

namespace ReplayWindow

/-- The constructor: a size that is not positive is replaced by the default. -/
def new (size : ℕ) : ReplayWindow where
  highest := none
  seen := ∅
  size := if 0 < size then size else REPLAY_WINDOW_SIZE
  size_pos := by split_ifs with h <;> [exact h; decide]

/-- No number has been accepted yet. -/
def isEmpty (w : ReplayWindow) : Bool := w.highest.isNone

/-- Forget everything. -/
def reset (w : ReplayWindow) : ReplayWindow := { w with highest := none, seen := ∅ }

/-- Drop the numbers that have fallen out of the window, once more than `size` are remembered. -/
def pruneIfNeeded (w : ReplayWindow) : ReplayWindow :=
  match w.highest with
  | none => w
  | some highest =>
    if w.seen.card ≤ w.size then w
    else { w with seen := w.seen.filter fun s => dist s highest < w.size }

/-- Check a received number and record it: whether it is fresh, and the window afterwards. -/
def accept (w : ReplayWindow) (seq : Seq) : Bool × ReplayWindow :=
  match w.highest with
  | none => (true, { w with highest := some seq, seen := {seq} })
  | some highest =>
    if isAhead seq highest then
      (true, pruneIfNeeded { w with highest := some seq, seen := insert seq w.seen })
    else if w.size ≤ dist seq highest then (false, w)
    else if seq ∈ w.seen then (false, w)
    else (true, { w with seen := insert seq w.seen })

/-- The numbers the window accepts. -/
def Fresh (w : ReplayWindow) (seq : Seq) : Prop :=
  ∀ highest, w.highest = some highest →
    isAhead seq highest ∨ (dist seq highest < w.size ∧ seq ∉ w.seen)

theorem fresh_of_empty {w : ReplayWindow} (h : w.highest = none) (seq : Seq) : w.Fresh seq := by
  intro highest hh
  rw [h] at hh
  cases hh

theorem fresh_iff {w : ReplayWindow} {highest : Seq} (h : w.highest = some highest) {seq : Seq} :
    w.Fresh seq ↔ isAhead seq highest ∨ (dist seq highest < w.size ∧ seq ∉ w.seen) := by
  constructor
  · exact fun hf => hf highest h
  · intro hf highest' hh
    obtain rfl := Option.some.inj (h.symm.trans hh)
    exact hf

theorem accept_eq_true {w : ReplayWindow} {seq : Seq} :
    (w.accept seq).1 = true ↔ w.Fresh seq := by
  unfold accept
  split
  next h => simp [fresh_of_empty h seq]
  next highest h =>
    rw [fresh_iff h]
    split_ifs with h1 h2 h3
    · simp [h1]
    · simp [h1, Nat.not_lt.2 h2]
    · simp [h1, h3]
    · simp [h3, Nat.lt_of_not_le h2]

instance (w : ReplayWindow) (seq : Seq) : Decidable (w.Fresh seq) :=
  decidable_of_iff _ accept_eq_true

/-- A rejected number leaves the window as it was. -/
theorem accept_not_fresh {w : ReplayWindow} {seq : Seq} (h : ¬ w.Fresh seq) :
    w.accept seq = (false, w) := by
  have hb : ¬ (w.accept seq).1 = true := fun e => h (accept_eq_true.1 e)
  revert hb
  unfold accept
  split
  · simp
  · split_ifs <;> simp

@[simp] theorem highest_pruneIfNeeded (w : ReplayWindow) :
    w.pruneIfNeeded.highest = w.highest := by
  unfold pruneIfNeeded
  split
  · rfl
  · split_ifs <;> rfl

@[simp] theorem size_pruneIfNeeded (w : ReplayWindow) : w.pruneIfNeeded.size = w.size := by
  unfold pruneIfNeeded
  split
  · rfl
  · split_ifs <;> rfl

theorem seen_pruneIfNeeded_subset (w : ReplayWindow) : w.pruneIfNeeded.seen ⊆ w.seen := by
  unfold pruneIfNeeded
  split
  · exact subset_rfl
  · split_ifs
    · exact subset_rfl
    · exact Finset.filter_subset _ _

theorem mem_seen_pruneIfNeeded {w : ReplayWindow} {highest x : Seq}
    (h : w.highest = some highest) (hx : x ∈ w.seen) (hd : dist x highest < w.size) :
    x ∈ w.pruneIfNeeded.seen := by
  unfold pruneIfNeeded
  rw [h]
  dsimp only
  split_ifs
  · exact hx
  · exact Finset.mem_filter.2 ⟨hx, hd⟩

@[simp] theorem size_accept (w : ReplayWindow) (seq : Seq) : (w.accept seq).2.size = w.size := by
  unfold accept
  split
  · rfl
  · split_ifs <;> simp

/-- The high-water mark after an accepted number. -/
theorem highest_accept {w : ReplayWindow} {seq : Seq} (h : w.Fresh seq) :
    (w.accept seq).2.highest =
      match w.highest with
      | none => some seq
      | some highest => some (if isAhead seq highest then seq else highest) := by
  unfold accept
  split
  next h0 => simp
  next highest h0 =>
    simp only [h0]
    have hf := (fresh_iff h0).1 h
    split_ifs with h1 h2 h3
    · simp
    · exact absurd (hf.resolve_left h1).1 (by omega)
    · exact absurd h3 (hf.resolve_left h1).2
    · rfl

/-- Only the accepted number is added to the numbers remembered. -/
theorem seen_accept_subset (w : ReplayWindow) (seq : Seq) :
    (w.accept seq).2.seen ⊆ insert seq w.seen := by
  unfold accept
  split
  · simp
  · split_ifs
    · exact seen_pruneIfNeeded_subset _
    · exact Finset.subset_insert _ _
    · exact Finset.subset_insert _ _
    · exact subset_rfl

/-- An accepted number is remembered. -/
theorem mem_seen_accept_self {w : ReplayWindow} {seq : Seq} (h : w.Fresh seq) :
    seq ∈ (w.accept seq).2.seen := by
  unfold accept
  split
  next => simp
  next highest h0 =>
    have hf := (fresh_iff h0).1 h
    split_ifs with h1 h2 h3
    · refine mem_seen_pruneIfNeeded rfl (Finset.mem_insert_self _ _) ?_
      simpa using w.size_pos
    · exact absurd (hf.resolve_left h1).1 (by omega)
    · exact h3
    · exact Finset.mem_insert_self _ _

/-- A remembered number that is still in the window stays remembered. -/
theorem mem_seen_accept {w : ReplayWindow} {seq x highest : Seq} (h0 : w.highest ≠ none)
    (hx : x ∈ w.seen) (h : (w.accept seq).2.highest = some highest)
    (hd : dist x highest < w.size) : x ∈ (w.accept seq).2.seen := by
  revert h
  unfold accept
  split
  next hn => exact absurd hn h0
  next h1 hh =>
    split_ifs with ha
    · intro h
      rw [highest_pruneIfNeeded] at h
      exact mem_seen_pruneIfNeeded h (Finset.mem_insert_of_mem hx) hd
    · exact fun _ => hx
    · exact fun _ => hx
    · exact fun _ => Finset.mem_insert_of_mem hx

end ReplayWindow

end EdgeLink
