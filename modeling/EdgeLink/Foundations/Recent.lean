import Mathlib.Data.List.DropRight

/-!
# The last entries of a sequence

A history that is trimmed from the front keeps the last entries of what has been put into it, which
is `List.rtake`.

* `tail_rtake_succ`, `length_rtake`: the entries of a history.
* `rtake_push`: to trim after each entry is to trim once.
-/

namespace EdgeLink

variable {α : Type*} {l : List α} {n : ℕ}

theorem rtake_eq_drop (l : List α) (n : ℕ) : l.rtake n = l.drop (l.length - n) := rfl

@[simp] theorem length_rtake (l : List α) (n : ℕ) : (l.rtake n).length = min n l.length := by
  rw [rtake_eq_drop, List.length_drop]
  omega

theorem rtake_of_length_le (h : l.length ≤ n) : l.rtake n = l := by
  rw [rtake_eq_drop, Nat.sub_eq_zero_of_le h, List.drop_zero]

theorem rtake_sublist (l : List α) (n : ℕ) : (l.rtake n).Sublist l := List.drop_sublist _ _

/-- A longer history begins with one entry more. -/
theorem tail_rtake_succ (h : n < l.length) : (l.rtake (n + 1)).tail = l.rtake n := by
  rw [rtake_eq_drop, rtake_eq_drop, List.tail_drop]
  congr 1
  omega

/-- To trim a trimmed history after an entry is to trim the whole history. -/
theorem rtake_push (l : List α) (a : α) (n : ℕ) :
    (l.rtake n ++ [a]).rtake n = (l ++ [a]).rtake n := by
  cases n with
  | zero => simp
  | succ n =>
    rw [List.rtake_concat_succ, List.rtake_concat_succ]
    congr 1
    rw [rtake_eq_drop, rtake_eq_drop, rtake_eq_drop, List.length_drop, List.drop_drop]
    congr 1
    omega

end EdgeLink
