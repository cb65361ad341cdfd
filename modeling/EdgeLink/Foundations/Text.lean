import Mathlib.Data.Int.Notation
import Mathlib.Data.List.Basic
import Mathlib.Data.Nat.Notation

/-!
# Decimal texts

Decimal numbers can be read back: a number is determined by its digits, which are no separators, so
that texts that end in one can be read back too.
-/

namespace EdgeLink

theorem repr_injective {m n : ℕ} (h : m.repr = n.repr) : m = n := by
  have hdigits := congrArg String.toList h
  rw [Nat.toList_repr, Nat.toList_repr] at hdigits
  rw [← Nat.ofDigitChars_ten_toDigits (n := m), hdigits, Nat.ofDigitChars_ten_toDigits]

theorem isDigit_of_mem_repr {n : ℕ} {c : Char} (h : c ∈ n.repr.toList) : c.isDigit = true := by
  rw [Nat.toList_repr] at h
  exact Nat.isDigit_of_mem_toDigits (by decide) (by decide) h

theorem colon_notMem_repr (n : ℕ) : ':' ∉ n.repr.toList :=
  fun h => absurd (isDigit_of_mem_repr h) (by decide)

theorem int_repr_injective {m n : ℤ} (h : m.repr = n.repr) : m = n := by
  have hminus : ∀ k l : ℕ, "-" ++ k.repr ≠ l.repr := by
    intro k l heq
    refine absurd (isDigit_of_mem_repr (n := l) (c := '-') ?_) (by decide)
    rw [← heq]
    simp
  cases m with
  | ofNat m =>
    cases n with
    | ofNat n => exact congrArg Int.ofNat (repr_injective h)
    | negSucc n => exact absurd h.symm (hminus _ _)
  | negSucc m =>
    cases n with
    | ofNat n => exact absurd h (hminus _ _)
    | negSucc n =>
      have hsucc : (m + 1).repr = (n + 1).repr := by simpa [Int.repr, String.ext_iff] using h
      exact congrArg Int.negSucc (Nat.succ.inj (repr_injective hsucc))

theorem isDigit_of_mem_int_repr {n : ℤ} {c : Char} (h : c ∈ n.repr.toList) :
    c = '-' ∨ c.isDigit = true := by
  cases n with
  | ofNat n => exact Or.inr (isDigit_of_mem_repr h)
  | negSucc n =>
    rw [Int.repr, String.toList_append, List.mem_append] at h
    exact h.imp (by simp) isDigit_of_mem_repr

/-- A list splits in one way at the last occurrence of an element. -/
theorem append_cons_inj_of_notMem {α : Type*} {c : α} {l l' m m' : List α} (hm : c ∉ m)
    (hm' : c ∉ m') (h : l ++ c :: m = l' ++ c :: m') : l = l' ∧ m = m' := by
  induction l generalizing l' with
  | nil =>
    cases l' with
    | nil => exact ⟨rfl, List.tail_eq_of_cons_eq h⟩
    | cons a l' =>
      refine absurd ?_ hm
      rw [List.tail_eq_of_cons_eq h]
      exact List.mem_append_right _ List.mem_cons_self
  | cons a l ih =>
    cases l' with
    | nil =>
      refine absurd ?_ hm'
      rw [← List.tail_eq_of_cons_eq h]
      exact List.mem_append_right _ List.mem_cons_self
    | cons b l' =>
      obtain ⟨rfl, hl⟩ := List.cons_eq_cons.1 h
      obtain ⟨rfl, rfl⟩ := ih hl
      exact ⟨rfl, rfl⟩

end EdgeLink
