import Mathlib.Data.List.Induction
import Mathlib.Data.List.Sort

/-!
# The largest entries of a sequence

The entries of a sequence ranked by a key: the greatest first, and equals in the order in which they
came. The first places of the ranking can be kept up while the entries come.

* `ranking_concat`: a new entry goes behind those that are at least as large.
* `take_rankInsert`: an entry that is behind the first places never comes back.
* `rankInsert_concat_of_lt`, `rankInsert_of_forall_le`: the place of an entry is found from the end.
* `foldl_eq_ranking`: the rule for a loop that keeps up the first places.
-/

namespace EdgeLink

variable {α κ : Type*} [LinearOrder κ] (key : α → κ)

/-- The entries with the greatest key first, equals in their order. -/
def ranking (l : List α) : List α := l.insertionSort fun a b => key b ≤ key a

/-- Put an entry behind those that are at least as large. -/
def rankInsert (a : α) (l : List α) : List α := l.orderedInsert (fun a b => key b < key a) a

/-- The greatest come first. -/
def Ranked (l : List α) : Prop := l.Pairwise fun a b => key b ≤ key a

@[simp] theorem rankInsert_nil (a : α) : rankInsert key a [] = [a] := rfl

theorem rankInsert_cons (a b : α) (l : List α) :
    rankInsert key a (b :: l) = if key b < key a then a :: b :: l else b :: rankInsert key a l :=
  List.orderedInsert_cons ..

@[simp] theorem length_rankInsert (a : α) (l : List α) :
    (rankInsert key a l).length = l.length + 1 :=
  List.orderedInsert_length ..

@[simp] theorem length_ranking (l : List α) : (ranking key l).length = l.length :=
  List.length_insertionSort ..

theorem ranked_ranking (l : List α) : Ranked key (ranking key l) := by
  have htotal : Std.Total fun a b : α => key b ≤ key a := ⟨fun a b => le_total (key b) (key a)⟩
  have htrans : IsTrans α fun a b : α => key b ≤ key a := ⟨fun _ _ _ hab hbc => hbc.trans hab⟩
  exact List.pairwise_insertionSort _ l

variable {key}

/-- An entry goes to the end of those that are at least as large. -/
theorem rankInsert_of_forall_le {a : α} {l : List α} (h : ∀ b ∈ l, key a ≤ key b) :
    rankInsert key a l = l ++ [a] := by
  induction l with
  | nil => rfl
  | cons b l ih =>
    rw [List.forall_mem_cons] at h
    rw [rankInsert_cons, if_neg (not_lt.2 h.1), ih h.2, List.cons_append]

/-- An entry goes before a smaller one at the end. -/
theorem rankInsert_concat_of_lt {a b : α} (h : key b < key a) (l : List α) :
    rankInsert key a (l ++ [b]) = rankInsert key a l ++ [b] := by
  induction l with
  | nil => simp [rankInsert_cons, h]
  | cons c l ih =>
    rw [List.cons_append, rankInsert_cons, rankInsert_cons, ih]
    split_ifs <;> simp

/-- An entry takes its place at the end of a ranking unless the last one is smaller. -/
theorem Ranked.rankInsert_concat {a b : α} {l : List α} (hl : Ranked key (l ++ [b]))
    (h : key a ≤ key b) : rankInsert key a (l ++ [b]) = l ++ [b] ++ [a] := by
  obtain ⟨-, -, hlast⟩ := List.pairwise_append.1 hl
  apply rankInsert_of_forall_le
  intro c hc
  rcases List.mem_append.1 hc with hc | hc
  · exact h.trans (hlast c hc b (List.mem_singleton_self b))
  · rw [List.mem_singleton.1 hc]
    exact h

theorem Ranked.of_append {l l' : List α} (h : Ranked key (l ++ l')) : Ranked key l :=
  (List.pairwise_append.1 h).1

theorem Ranked.take {l : List α} (h : Ranked key l) (n : ℕ) : Ranked key (l.take n) :=
  h.sublist (List.take_sublist n l)

/-- Two entries find their places in either order. -/
theorem rankInsert_orderedInsert (a b : α) (l : List α) :
    rankInsert key a (l.orderedInsert (fun a b => key b ≤ key a) b) =
      (rankInsert key a l).orderedInsert (fun a b => key b ≤ key a) b := by
  induction l with
  | nil =>
    rcases lt_or_ge (key b) (key a) with h | h
    · simp [rankInsert_cons, h]
    · simp [rankInsert_cons, h]
  | cons c l ih =>
    rw [List.orderedInsert_cons, rankInsert_cons]
    by_cases hb : key c ≤ key b <;> by_cases hc : key c < key a
    · rw [if_pos hb, if_pos hc, rankInsert_cons, rankInsert_cons, if_pos hc,
        List.orderedInsert_cons, List.orderedInsert_cons, if_pos hb]
      by_cases hba : key b < key a
      · rw [if_pos hba, if_neg (not_le.2 hba)]
      · rw [if_neg hba, if_pos (not_lt.1 hba)]
    · have hba : ¬ key b < key a := fun h => hc (hb.trans_lt h)
      rw [if_pos hb, if_neg hc, rankInsert_cons, rankInsert_cons, if_neg hba, if_neg hc,
        List.orderedInsert_cons, if_pos hb]
    · have hab : ¬ key a ≤ key b := fun h => hb (hc.le.trans h)
      rw [if_neg hb, if_pos hc, rankInsert_cons, if_pos hc, List.orderedInsert_cons, if_neg hab,
        List.orderedInsert_cons, if_neg hb]
    · rw [if_neg hb, if_neg hc, rankInsert_cons, if_neg hc, List.orderedInsert_cons, if_neg hb, ih]

/-- A new entry goes behind those that are at least as large. -/
theorem ranking_concat (l : List α) (a : α) :
    ranking key (l ++ [a]) = rankInsert key a (ranking key l) := by
  induction l with
  | nil => rfl
  | cons b l ih =>
    have hcons : ∀ l : List α, ranking key (b :: l) =
        (ranking key l).orderedInsert (fun a b => key b ≤ key a) b := fun _ => rfl
    rw [List.cons_append, hcons, hcons, ih, rankInsert_orderedInsert]

/-- What is behind the first places does not count for them. -/
theorem take_rankInsert (a : α) (l : List α) (n : ℕ) :
    (rankInsert key a (l.take n)).take n = (rankInsert key a l).take n := by
  induction l generalizing n with
  | nil => simp
  | cons b l ih =>
    cases n with
    | zero => simp
    | succ n =>
      rw [List.take_succ_cons, rankInsert_cons, rankInsert_cons]
      split_ifs
      · have hfront : b :: l.take n = (b :: l).take (n + 1) := rfl
        rw [hfront, List.take_succ_cons, List.take_take, min_eq_left n.le_succ, List.take_succ_cons]
      · rw [List.take_succ_cons, List.take_succ_cons, ih]

/-- **The rule for the first places.** A loop that gives every entry its place among the first `n`,
and drops what is behind them, ends with the first `n` of the ranking. -/
theorem foldl_eq_ranking {step : List α → α → List α} {n : ℕ}
    (hstep : ∀ top a, Ranked key top → top.length ≤ n → step top a = (rankInsert key a top).take n)
    (l : List α) : l.foldl step [] = (ranking key l).take n := by
  induction l using List.reverseRecOn with
  | nil => simp [ranking]
  | append_singleton l a ih =>
    rw [List.foldl_append, ih, List.foldl_cons, List.foldl_nil, ranking_concat,
      ← take_rankInsert a _ n]
    apply hstep
    · exact (ranked_ranking key l).take n
    · rw [List.length_take]
      exact min_le_left ..

end EdgeLink
