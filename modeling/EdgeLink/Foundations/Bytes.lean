import Mathlib.Algebra.Order.Ring.Nat
import Mathlib.Data.List.Induction
import Mathlib.Data.Nat.Notation
import Mathlib.Tactic.Common

/-!
# Big-endian numbers

Numbers as byte strings of a fixed width, most significant byte first.

* `toBE w n` is the number `n` modulo `256 ^ w` in `w` bytes, `ofBE` reads a byte string.
* `ofBE_toBE`, `toBE_ofBE`: the two are inverse to each other.
-/

namespace EdgeLink

abbrev Bytes := List UInt8

/-- The last `w` bytes of a number, most significant first. -/
def toBE : ℕ → ℕ → Bytes
  | 0, _ => []
  | w + 1, n => toBE w (n / 256) ++ [UInt8.ofNat n]

/-- The number that a byte string denotes. -/
def ofBE (bytes : Bytes) : ℕ := bytes.foldl (fun n b => n * 256 + b.toNat) 0

@[simp] theorem length_toBE (w n : ℕ) : (toBE w n).length = w := by
  induction w generalizing n with
  | zero => rfl
  | succ w ih => rw [toBE, List.length_append, ih, List.length_singleton]

@[simp] theorem ofBE_nil : ofBE [] = 0 := rfl

theorem ofBE_concat (bytes : Bytes) (b : UInt8) :
    ofBE (bytes ++ [b]) = ofBE bytes * 256 + b.toNat := by
  rw [ofBE, List.foldl_append]
  rfl

/-- Reading gives the number modulo `256 ^ w`. -/
theorem ofBE_toBE_mod (w n : ℕ) : ofBE (toBE w n) = n % 256 ^ w := by
  induction w generalizing n with
  | zero => rw [toBE, ofBE_nil, pow_zero, Nat.mod_one]
  | succ w ih =>
    have hdiv : n % 256 ^ (w + 1) / 256 = n / 256 % 256 ^ w := by
      rw [pow_succ, mul_comm, Nat.mod_mul_right_div_self]
    have hmod : n % 256 ^ (w + 1) % 256 = n % 256 :=
      Nat.mod_mod_of_dvd n (Dvd.intro_left _ (pow_succ 256 w).symm)
    rw [toBE, ofBE_concat, ih, UInt8.toNat_ofNat', ← hdiv]
    show n % 256 ^ (w + 1) / 256 * 256 + n % 256 = n % 256 ^ (w + 1)
    rw [← hmod]
    exact Nat.div_add_mod' ..

theorem ofBE_toBE {w n : ℕ} (h : n < 256 ^ w) : ofBE (toBE w n) = n := by
  rw [ofBE_toBE_mod, Nat.mod_eq_of_lt h]

/-- Writing what was read gives the bytes back. -/
theorem toBE_ofBE (bytes : Bytes) : toBE bytes.length (ofBE bytes) = bytes := by
  induction bytes using List.reverseRecOn with
  | nil => rfl
  | append_singleton bytes b ih =>
    have hb : b.toNat < 256 := b.toNat_lt
    have hdiv : (ofBE bytes * 256 + b.toNat) / 256 = ofBE bytes := by omega
    have hlast : UInt8.ofNat (ofBE bytes * 256 + b.toNat) = b := by
      apply UInt8.toNat_inj.1
      rw [UInt8.toNat_ofNat']
      omega
    rw [List.length_append, List.length_singleton, toBE, ofBE_concat, hdiv, ih, hlast]

theorem toBE_injective {w m n : ℕ} (hm : m < 256 ^ w) (hn : n < 256 ^ w)
    (h : toBE w m = toBE w n) : m = n := by
  rw [← ofBE_toBE hm, h, ofBE_toBE hn]

theorem ofBE_lt (bytes : Bytes) : ofBE bytes < 256 ^ bytes.length := by
  have h := ofBE_toBE_mod bytes.length (ofBE bytes)
  rw [toBE_ofBE] at h
  rw [h]
  exact Nat.mod_lt _ (Nat.pow_pos (by decide))

end EdgeLink
