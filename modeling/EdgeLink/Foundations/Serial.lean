import Mathlib.Data.BitVec
import Mathlib.Data.List.Range
import Mathlib.Data.List.Perm.Subperm
import Mathlib.Tactic.Linarith

/-!
# Serial number arithmetic

Numbers of `w` bits that wrap around, ordered as in the serial number arithmetic of sequence
numbers: `b` is ahead of `a` when the increments that lead from `a` to `b` are fewer than half
the numbers. Everything is stated through the forward distance `dist a b`, a natural number, so
that facts about positions on the circle become linear arithmetic:

* `dist_add_dist`: a detour over `b` is as long as the direct way, or one lap longer;
* `dist_from`: the distance between two numbers, from their distances to a common origin;
* `dist_add_dist_comm`: the two ways between distinct numbers make one lap;
* `dist_add_ofNat`: counting `n` steps forward from `a` is at distance `n`.
* `length_le_of_dist_lt`: distinct numbers within `m` steps of `a` are at most `m`.
-/

namespace EdgeLink.Serial

variable {w : ℕ}

/-- The forward distance from `a` to `b`: how many increments lead from `a` to `b`. -/
def dist (a b : BitVec w) : ℕ := (b - a).toNat

/-- `b` is strictly ahead of `a` in serial order. -/
def Ahead (a b : BitVec w) : Prop := dist a b ≠ 0 ∧ dist a b < 2 ^ (w - 1)

instance (a b : BitVec w) : Decidable (Ahead a b) := by unfold Ahead; infer_instance

theorem dist_eq (a b : BitVec w) :
    dist a b = if a.toNat ≤ b.toNat then b.toNat - a.toNat else b.toNat + 2 ^ w - a.toNat := by
  have ha := a.isLt
  have hb := b.isLt
  rw [dist, BitVec.toNat_sub]
  split_ifs with h
  · rw [show 2 ^ w - a.toNat + b.toNat = (b.toNat - a.toNat) + 2 ^ w by omega, Nat.add_mod_right]
    exact Nat.mod_eq_of_lt (by omega)
  · rw [Nat.mod_eq_of_lt (by omega)]
    omega

theorem dist_lt (a b : BitVec w) : dist a b < 2 ^ w := (b - a).isLt

@[simp] theorem dist_self (a : BitVec w) : dist a a = 0 := by simp [dist_eq]

theorem dist_eq_zero {a b : BitVec w} : dist a b = 0 ↔ a = b := by
  constructor
  · intro h
    have ha := a.isLt
    have hb := b.isLt
    rw [dist_eq] at h
    apply BitVec.eq_of_toNat_eq
    split_ifs at h <;> omega
  · rintro rfl
    exact dist_self a

/-- The way over `b` is the direct way from `a` to `c`, or one lap more. -/
theorem dist_add_dist (a b c : BitVec w) :
    dist a b + dist b c = dist a c ∨ dist a b + dist b c = dist a c + 2 ^ w := by
  have ha := a.isLt
  have hb := b.isLt
  have hc := c.isLt
  simp only [dist_eq]
  split_ifs <;> omega

/-- The distance between two numbers, read off from their distances from `o`. -/
theorem dist_from (o a b : BitVec w) :
    (dist o a ≤ dist o b ∧ dist a b + dist o a = dist o b) ∨
      (dist o b < dist o a ∧ dist a b + dist o a = dist o b + 2 ^ w) := by
  have hb := dist_lt o b
  have hab := dist_lt a b
  rcases dist_add_dist o a b with h | h
  · exact Or.inl ⟨by omega, by omega⟩
  · exact Or.inr ⟨by omega, by omega⟩

/-- The two ways between distinct numbers make one lap. -/
theorem dist_add_dist_comm {a b : BitVec w} (h : a ≠ b) : dist a b + dist b a = 2 ^ w := by
  have h0 : dist a b ≠ 0 := fun e => h (dist_eq_zero.1 e)
  rcases dist_add_dist a b a with e | e <;> rw [dist_self] at e <;> omega

theorem dist_right_injective (a : BitVec w) {b c : BitVec w} (h : dist a b = dist a c) :
    b = c := by
  have hbc := dist_add_dist a b c
  have := dist_lt b c
  exact dist_eq_zero.1 (by omega)

theorem dist_left_injective (c : BitVec w) {a b : BitVec w} (h : dist a c = dist b c) :
    a = b := by
  have hab := dist_add_dist a b c
  have := dist_lt a b
  exact dist_eq_zero.1 (by omega)

/-- Counting `n` steps forward from `a`. -/
theorem dist_add_ofNat (a : BitVec w) {n : ℕ} (hn : n < 2 ^ w) :
    dist a (a + BitVec.ofNat w n) = n := by
  rw [dist, BitVec.add_comm, BitVec.add_sub_cancel, BitVec.toNat_ofNat, Nat.mod_eq_of_lt hn]

/-- Every number is reached from `a` by counting its distance. -/
theorem add_ofNat_dist (a b : BitVec w) : a + BitVec.ofNat w (dist a b) = b :=
  dist_right_injective a (dist_add_ofNat a (dist_lt a b))

/-- Counting `n` steps backward from `a`. -/
theorem dist_sub_ofNat (a : BitVec w) {n : ℕ} (hn : n < 2 ^ w) :
    dist (a - BitVec.ofNat w n) a = n := by
  have h := dist_add_ofNat (a - BitVec.ofNat w n) hn
  rwa [BitVec.sub_add_cancel] at h

theorem add_one_add_ofNat (a : BitVec w) (n : ℕ) :
    a + 1 + BitVec.ofNat w n = a + BitVec.ofNat w (n + 1) := by
  rw [BitVec.add_assoc, BitVec.ofNat_add, BitVec.add_comm 1]
  rfl

/-- Fewer steps than a lap lead to different numbers. -/
theorem add_ofNat_injOn (a : BitVec w) {n m : ℕ} (hn : n < 2 ^ w) (hm : m < 2 ^ w)
    (h : a + BitVec.ofNat w n = a + BitVec.ofNat w m) : n = m := by
  rw [← dist_add_ofNat a hn, ← dist_add_ofNat a hm, h]

/-- Distinct numbers within `m` steps of `a` are at most `m` many. -/
theorem length_le_of_dist_lt {a : BitVec w} {l : List (BitVec w)} (hnd : l.Nodup) {m : ℕ}
    (h : ∀ x ∈ l, dist a x < m) : l.length ≤ m := by
  have hmap : (l.map (dist a)).Nodup := hnd.map fun _ _ => dist_right_injective a
  have hsub : l.map (dist a) ⊆ List.range m := by
    intro d hd
    obtain ⟨x, hx, rfl⟩ := List.mem_map.1 hd
    exact List.mem_range.2 (h x hx)
  simpa using (List.subperm_of_subset hmap hsub).length_le

/-- The distance between numbers that have been cut to `w` bits. -/
theorem dist_ofNat {a b : ℕ} (h : a ≤ b) (hlt : b - a < 2 ^ w) :
    dist (BitVec.ofNat w a) (BitVec.ofNat w b) = b - a := by
  have hb : BitVec.ofNat w b = BitVec.ofNat w a + BitVec.ofNat w (b - a) := by
    rw [← BitVec.ofNat_add, Nat.add_sub_cancel' h]
  rw [hb, dist_add_ofNat _ hlt]

/-- The distance back over fewer steps than a lap. -/
theorem dist_ofNat_of_lt {a b : ℕ} (h : b < a) (hlt : a - b < 2 ^ w) :
    dist (BitVec.ofNat w a) (BitVec.ofNat w b) = 2 ^ w - (a - b) := by
  have hback := dist_ofNat h.le hlt
  have hne : BitVec.ofNat w b ≠ BitVec.ofNat w a := by
    intro heq
    rw [heq, dist_self] at hback
    omega
  have := dist_add_dist_comm hne
  omega

section Ahead

variable {a b : BitVec w}

theorem Ahead.ne (h : Ahead a b) : a ≠ b := fun e => h.1 (dist_eq_zero.2 e)

/-- Serial order is antisymmetric. -/
theorem Ahead.not_ahead (h : Ahead a b) : ¬ Ahead b a := by
  intro h'
  have hw := dist_add_dist_comm h.ne
  obtain ⟨h0, h1⟩ := h
  obtain ⟨-, h1'⟩ := h'
  cases w with
  | zero => have := dist_lt a b; omega
  | succ w => rw [pow_succ] at hw; simp only [Nat.add_sub_cancel] at h1 h1'; omega

end Ahead

end EdgeLink.Serial
