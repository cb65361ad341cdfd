import EdgeLink.Foundations.Run
import EdgeLink.Reliability.ReplayWindow

/-!
# What the replay window remembers

A window of any size under any arrivals and resets, with the numbers it has accepted since the last
reset (`ReplayHistory`). Each is logged with how far it has been left behind since, laps included,
which the window itself cannot tell: it sees distances modulo `2 ^ 32`.

* `Remembers` is the invariant. A pruning leaves nothing outside the window and an advance without
  one leaves at most `size` numbers, of which one is the highest, so that at most `size - 1`
  remembered numbers lie outside the window. A number that fills a gap lies inside.
* `remembers_window`: no number in the window is forgotten, and at most `2 * size - 1` are kept.
-/

namespace EdgeLink

open Serial

inductive ReplayEvent where
  | arrives (seq : Seq)
  | reset

/-- A window with the numbers accepted since the last reset, each with how far the highest number
has come beyond it. -/
structure ReplayHistory where
  window : ReplayWindow
  accepted : List (Seq × ℕ)

namespace ReplayHistory

def new (size : ℕ) : ReplayHistory := ⟨.new size, []⟩

/-- How far a window advances at an arrival. -/
def advance (w : ReplayWindow) (seq : Seq) : ℕ :=
  match w.highest with
  | none => 0
  | some highest => if isAhead seq highest then dist highest seq else 0

/-- How far behind the highest number an accepted arrival comes in. -/
def lag (w : ReplayWindow) (seq : Seq) : ℕ :=
  match w.highest with
  | none => 0
  | some highest => if isAhead seq highest then 0 else dist seq highest

def step (l : ReplayHistory) : ReplayEvent → ReplayHistory
  | .arrives seq =>
    let r := l.window.accept seq
    if r.1 then
      ⟨r.2, (l.accepted.map fun e => (e.1, e.2 + advance l.window seq)) ++ [(seq, lag l.window seq)]⟩
    else ⟨r.2, l.accepted⟩
  | .reset => ⟨l.window.reset, []⟩

/-! ## The invariant -/

/-- The numbers that the window remembers although they lie outside it. -/
def stale (w : ReplayWindow) (top : Seq) : Finset Seq :=
  w.seen.filter fun s => w.size ≤ dist s top

/-- **The invariant of a window with a highest number.** -/
structure Remembers (l : ReplayHistory) (top : Seq) : Prop where
  highest : l.window.highest = some top
  /-- the log agrees with the distances, up to whole laps -/
  distance : ∀ e ∈ l.accepted, dist e.1 top = e.2 % 2 ^ 32
  /-- what has never been left outside the window is remembered -/
  kept : ∀ e ∈ l.accepted, e.2 < l.window.size → e.2 < 2 ^ 32 → e.1 ∈ l.window.seen
  few : (stale l.window top).card < l.window.size

/-- The invariant of a window. -/
def Inv (l : ReplayHistory) : Prop :=
  (l.window.highest = none ∧ l.window.seen = ∅ ∧ l.accepted = []) ∨ ∃ top, l.Remembers top

section Windows

variable {w : ReplayWindow} {seq top : Seq}

/-- No more than `size` numbers lie in the window. -/
theorem card_seen_le (w : ReplayWindow) (top : Seq) :
    w.seen.card ≤ w.size + (stale w top).card := by
  have hinside : (w.seen.filter fun s => dist s top < w.size).card ≤ w.size := by
    have hmap : Set.MapsTo (fun s => dist s top)
        (w.seen.filter fun s => dist s top < w.size) (Finset.range w.size) := by
      intro s hs
      exact Finset.mem_coe.2 (Finset.mem_range.2 (Finset.mem_filter.1 hs).2)
    have hcard := Finset.card_le_card_of_injOn _ hmap
      fun a _ b _ hab => dist_left_injective top hab
    rwa [Finset.card_range] at hcard
  have hsplit := Finset.card_filter_add_card_filter_not (s := w.seen) fun s => dist s top < w.size
  simp only [not_lt] at hsplit
  calc w.seen.card
      = (w.seen.filter fun s => dist s top < w.size).card + (stale w top).card := hsplit.symm
    _ ≤ w.size + (stale w top).card := Nat.add_le_add_right hinside _

/-- After an advance fewer than `size` numbers are remembered outside the window. -/
theorem card_stale_pruneIfNeeded (hhighest : w.highest = some seq) (hmem : seq ∈ w.seen) :
    (stale w.pruneIfNeeded seq).card < w.size := by
  have hpos := w.size_pos
  unfold ReplayWindow.pruneIfNeeded
  rw [hhighest]
  dsimp only
  split_ifs with hroom
  · have hsub : stale w seq ⊆ w.seen.erase seq := by
      intro s hs
      obtain ⟨hs, hfar⟩ := Finset.mem_filter.1 hs
      refine Finset.mem_erase.2 ⟨?_, hs⟩
      rintro rfl
      rw [dist_self] at hfar
      omega
    have hcard := Finset.card_le_card hsub
    rw [Finset.card_erase_of_mem hmem] at hcard
    have hne := Finset.card_pos.2 ⟨seq, hmem⟩
    omega
  · rw [stale, Finset.card_eq_zero.2 (Finset.filter_eq_empty_iff.2 fun s hs => ?_)]
    · exact hpos
    · exact not_le.2 (Finset.mem_filter.1 hs).2

end Windows

theorem inv_new (size : ℕ) : (new size).Inv := Or.inl ⟨rfl, rfl, rfl⟩

/-- The window advances: everything logged is left farther behind. -/
theorem Remembers.advance {l : ReplayHistory} {top : Seq} (h : l.Remembers top) (seq : Seq) :
    Remembers
      ⟨ReplayWindow.pruneIfNeeded
          { l.window with highest := some seq, seen := insert seq l.window.seen },
        (l.accepted.map fun e => (e.1, e.2 + dist top seq)) ++ [(seq, 0)]⟩ seq := by
  set w : ReplayWindow := { l.window with highest := some seq, seen := insert seq l.window.seen }
    with hw
  have hdistance : ∀ e ∈ (l.accepted.map fun e => (e.1, e.2 + dist top seq)) ++ [(seq, 0)],
      dist e.1 seq = e.2 % 2 ^ 32 := by
    intro e he
    rcases List.mem_append.1 he with he | he
    · obtain ⟨⟨x, n⟩, he', rfl⟩ := List.mem_map.1 he
      have hd : dist x top = n % 2 ^ 32 := h.distance _ he'
      have hsum := dist_add_dist x top seq
      have hlt := dist_lt x seq
      dsimp only
      omega
    · obtain rfl := List.mem_singleton.1 he
      exact dist_self seq
  refine ⟨ReplayWindow.highest_pruneIfNeeded w, hdistance, fun e he hsize hlap => ?_, ?_⟩
  · rw [ReplayWindow.size_pruneIfNeeded] at hsize
    refine ReplayWindow.mem_seen_pruneIfNeeded rfl ?_ ?_
    · rcases List.mem_append.1 he with he | he
      · obtain ⟨⟨x, n⟩, he', rfl⟩ := List.mem_map.1 he
        have hn : n < l.window.size := (Nat.le_add_right n _).trans_lt hsize
        have hnlap : n < 2 ^ 32 := (Nat.le_add_right n _).trans_lt hlap
        exact Finset.mem_insert_of_mem (h.kept (x, n) he' hn hnlap)
      · obtain rfl := List.mem_singleton.1 he
        exact Finset.mem_insert_self _ _
    · rw [hdistance e he, Nat.mod_eq_of_lt hlap]
      exact hsize
  · rw [ReplayWindow.size_pruneIfNeeded]
    exact card_stale_pruneIfNeeded rfl (Finset.mem_insert_self _ _)

/-- A number in the window is recorded. -/
theorem Remembers.fill {l : ReplayHistory} {top seq : Seq} (h : l.Remembers top)
    (hnear : dist seq top < l.window.size) :
    Remembers ⟨{ l.window with highest := some top, seen := insert seq l.window.seen },
      (l.accepted.map fun e => (e.1, e.2 + 0)) ++ [(seq, dist seq top)]⟩ top where
  highest := rfl
  distance e he := by
    rcases List.mem_append.1 he with he | he
    · obtain ⟨e', he', rfl⟩ := List.mem_map.1 he
      exact h.distance e' he'
    · obtain rfl := List.mem_singleton.1 he
      exact (Nat.mod_eq_of_lt (dist_lt seq top)).symm
  kept e he hsize hlap := by
    rcases List.mem_append.1 he with he | he
    · obtain ⟨e', he', rfl⟩ := List.mem_map.1 he
      exact Finset.mem_insert_of_mem (h.kept e' he' hsize hlap)
    · obtain rfl := List.mem_singleton.1 he
      exact Finset.mem_insert_self _ _
  few := by
    have hsame : stale { l.window with highest := some top, seen := insert seq l.window.seen } top =
        stale l.window top := by
      rw [stale, Finset.filter_insert, if_neg (not_le.2 hnear)]
      rfl
    rw [hsame]
    exact h.few

/-- The first number after a reset. -/
theorem remembers_first {w : ReplayWindow} (seq : Seq) :
    Remembers ⟨{ w with highest := some seq, seen := {seq} }, [(seq, 0)]⟩ seq where
  highest := rfl
  distance e he := by
    obtain rfl := List.mem_singleton.1 he
    exact dist_self seq
  kept e he _ _ := by
    obtain rfl := List.mem_singleton.1 he
    exact Finset.mem_singleton_self _
  few := by
    have hnone : stale { w with highest := some seq, seen := {seq} } seq = ∅ := by
      refine Finset.filter_eq_empty_iff.2 fun s hs => ?_
      obtain rfl := Finset.mem_singleton.1 hs
      rw [dist_self]
      exact not_le.2 w.size_pos
    rw [hnone]
    exact w.size_pos

theorem Inv.step {l : ReplayHistory} (h : l.Inv) (ev : ReplayEvent) : (l.step ev).Inv := by
  cases ev with
  | reset => exact Or.inl ⟨rfl, rfl, rfl⟩
  | arrives seq =>
    rcases h with ⟨hnone, -, hlog⟩ | ⟨top, h⟩
    · refine Or.inr ⟨seq, ?_⟩
      simp only [ReplayHistory.step, ReplayWindow.accept, hnone, lag, hlog, if_true, List.map_nil,
        List.nil_append]
      exact remembers_first seq
    · have htop := h.highest
      simp only [ReplayHistory.step, ReplayWindow.accept, ReplayHistory.advance, lag, htop]
      by_cases hahead : isAhead seq top
      · simp only [if_pos hahead, if_true]
        exact Or.inr ⟨seq, h.advance seq⟩
      by_cases hold : l.window.size ≤ dist seq top
      · simp only [if_neg hahead, if_pos hold, Bool.false_eq_true, if_false]
        exact Or.inr ⟨top, h⟩
      by_cases hseen : seq ∈ l.window.seen
      · simp only [if_neg hahead, if_neg hold, if_pos hseen, Bool.false_eq_true, if_false]
        exact Or.inr ⟨top, h⟩
      · simp only [if_neg hahead, if_neg hold, if_neg hseen, if_true]
        exact Or.inr ⟨top, h.fill (not_le.1 hold)⟩

theorem size_step (l : ReplayHistory) (ev : ReplayEvent) :
    (l.step ev).window.size = l.window.size := by
  cases ev with
  | reset => rfl
  | arrives seq =>
    rw [step]
    split_ifs <;> exact ReplayWindow.size_accept _ _

/-- **What the window remembers.** In every state of a window of any size, over any arrivals and
resets: a number accepted since the last reset that is less than `size` behind the highest, and has
never been left a whole lap behind it, is remembered; and at most `2 * size - 1` numbers are. -/
theorem remembers_window (size : ℕ) (hsize : 1 ≤ size) (es : List ReplayEvent) :
    (∀ top seq behind, (run step (new size) es).window.highest = some top →
      (seq, behind) ∈ (run step (new size) es).accepted → behind < 2 ^ 32 →
      dist seq top < size → seq ∈ (run step (new size) es).window.seen) ∧
    (run step (new size) es).window.seen.card ≤ 2 * size - 1 := by
  have hinv : (run step (new size) es).Inv := run_invariant (fun _ e h => h.step e) (inv_new size) es
  have hsame : (run step (new size) es).window.size = size := by
    have hnew : (new size).window.size = size := if_pos hsize
    exact run_invariant (I := fun l => l.window.size = size)
      (fun l e h => (size_step l e).trans h) hnew es
  generalize run step (new size) es = l at hinv hsame
  subst hsame
  rcases hinv with ⟨hnone, hseen, -⟩ | ⟨top, h⟩
  · refine ⟨fun top _ _ htop => ?_, ?_⟩
    · rw [hnone] at htop
      nomatch htop
    · rw [hseen]
      exact Nat.zero_le _
  · constructor
    · intro top' seq behind htop hmem hlap hnear
      obtain rfl := Option.some.inj (h.highest.symm.trans htop)
      rw [h.distance _ hmem, Nat.mod_eq_of_lt hlap] at hnear
      exact h.kept _ hmem hnear hlap
    · have hcard := card_seen_le l.window top
      have hfew := h.few
      omega

/-- A window of size 2 that crosses the wrap. -/
theorem remembers_window_wrap :
    let l := run step (new 2) [.arrives 0xffffffff, .arrives 3, .arrives 2]
    2 ∈ l.window.seen ∧ l.window.seen.card ≤ 3 :=
  ⟨(remembers_window 2 (by decide) [.arrives 0xffffffff, .arrives 3, .arrives 2]).1 3 2 1
      (by decide +kernel) (by decide +kernel) (by decide) (by decide),
    (remembers_window 2 (by decide) [.arrives 0xffffffff, .arrives 3, .arrives 2]).2⟩

end ReplayHistory

end EdgeLink
