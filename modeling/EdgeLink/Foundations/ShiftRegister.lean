import Mathlib.Algebra.CharP.Two
import Mathlib.Algebra.Polynomial.Div
import Mathlib.Data.BitVec
import Mathlib.Algebra.Field.ZMod
import Mathlib.Tactic.LinearCombination

/-!
# Cyclic redundancy checks

A register of `w` bits into which a message is shifted bit by bit, most significant bit first:
whenever the bit that leaves the register differs from the bit that comes in, the polynomial `g` is
added. Registers stand for polynomials over the field with two elements, `g` for the generator
without its leading term.

* `poly_feedBits`: the register holds the remainder of the message modulo the generator.
* `feedBits_xor`: feeding is linear.
* `feedBits_eq_table`: several bits are fed at once with a table of what the top bits become.
-/

namespace EdgeLink

open Polynomial

variable {w : ℕ}

/-- One bit enters the register. -/
def feedBit (g c : BitVec w) (bit : Bool) : BitVec w :=
  if c.msb ^^ bit then (c <<< 1) ^^^ g else c <<< 1

/-- The bits of a message enter the register. -/
def feedBits (g c : BitVec w) (bits : List Bool) : BitVec w := bits.foldl (feedBit g) c

@[simp] theorem feedBits_nil (g c : BitVec w) : feedBits g c [] = c := rfl

@[simp] theorem feedBits_cons (g c : BitVec w) (bit : Bool) (bits : List Bool) :
    feedBits g c (bit :: bits) = feedBits g (feedBit g c bit) bits := rfl

theorem feedBits_append (g c : BitVec w) (bits bits' : List Bool) :
    feedBits g c (bits ++ bits') = feedBits g (feedBits g c bits) bits' := List.foldl_append

/-! ## Registers as polynomials -/

/-- A bit as an element of the field. -/
def toField (b : Bool) : ZMod 2 := if b then 1 else 0

theorem toField_xor (a b : Bool) : toField (a ^^ b) = toField a + toField b := by
  cases a <;> cases b <;> decide

theorem toField_injective {a b : Bool} (h : toField a = toField b) : a = b := by
  revert a b
  decide

section Polynomial

/-- The polynomial of a register. -/
noncomputable def poly (c : BitVec w) : (ZMod 2)[X] :=
  ∑ i ∈ Finset.range w, C (toField (c.getLsbD i)) * X ^ i

/-- The generator: `g` with its leading term. -/
noncomputable def generator (g : BitVec w) : (ZMod 2)[X] := X ^ w + poly g

/-- The polynomial of a message, its first bit the highest coefficient. -/
noncomputable def messagePoly (bits : List Bool) : (ZMod 2)[X] :=
  bits.foldl (fun p bit => p * X + C (toField bit)) 0

theorem coeff_poly (c : BitVec w) (i : ℕ) : (poly c).coeff i = toField (c.getLsbD i) := by
  rw [poly, finsetSum_coeff]
  simp only [coeff_C_mul_X_pow]
  by_cases hi : i < w
  · simp [hi]
  · simp [hi, BitVec.getLsbD_of_ge c i (Nat.le_of_not_lt hi), toField]

theorem poly_injective {a b : BitVec w} (h : poly a = poly b) : a = b := by
  refine BitVec.eq_of_getLsbD_eq fun i _ => toField_injective ?_
  rw [← coeff_poly, ← coeff_poly, h]

theorem degree_poly_lt (c : BitVec w) : (poly c).degree < w := by
  refine (degree_lt_iff_coeff_zero _ _).2 fun i hi => ?_
  rw [coeff_poly, BitVec.getLsbD_of_ge c i hi]
  rfl

theorem poly_xor (a b : BitVec w) : poly (a ^^^ b) = poly a + poly b := by
  ext i
  rw [coeff_add, coeff_poly, coeff_poly, coeff_poly, BitVec.getLsbD_xor, toField_xor]

/-- The bit that leaves the register goes to the place above it. -/
theorem poly_shiftLeft_one (c : BitVec w) :
    poly (c <<< 1) + C (toField c.msb) * X ^ w = poly c * X := by
  ext i
  rw [coeff_add, coeff_C_mul_X_pow, coeff_poly]
  cases i with
  | zero =>
    rw [coeff_mul_X_zero]
    by_cases hw : w = 0
    · subst hw
      simp [BitVec.of_length_zero, toField]
    · simp [toField, Ne.symm hw]
  | succ i =>
    rw [coeff_mul_X, coeff_poly, BitVec.getLsbD_shiftLeft]
    by_cases hi : i + 1 < w
    · simp [hi, hi.ne]
    · by_cases hiw : i + 1 = w
      · subst hiw
        simp [toField, BitVec.msb_eq_getLsbD_last]
      · simp [hi, hiw, BitVec.getLsbD_of_ge c i (by omega), toField]

/-- One bit: the register is multiplied by `X`, the bit enters above it, and a multiple of the
generator is taken away. -/
theorem poly_feedBit (g c : BitVec w) (bit : Bool) :
    poly (feedBit g c bit) + C (toField (c.msb ^^ bit)) * generator g =
      poly c * X + C (toField bit) * X ^ w := by
  have hshift := poly_shiftLeft_one c
  have htwo : (2 : (ZMod 2)[X]) = 0 := CharTwo.two_eq_zero
  rw [feedBit, generator]
  cases hmsb : c.msb <;> cases bit <;>
    simp only [hmsb, Bool.xor_self, Bool.xor_false, Bool.xor_true, Bool.not_false,
      Bool.false_eq_true, if_true, if_false, toField, map_zero, map_one, zero_mul, one_mul,
      add_zero, poly_xor] at hshift ⊢
  · exact hshift
  · linear_combination hshift + (poly g) * htwo
  · linear_combination hshift + (poly g) * htwo
  · linear_combination hshift - X ^ w * htwo

theorem monic_generator (g : BitVec w) : (generator g).Monic :=
  monic_X_pow_add (degree_poly_lt g)

theorem messagePoly_append (bits : List Bool) (bit : Bool) :
    messagePoly (bits ++ [bit]) = messagePoly bits * X + C (toField bit) := by
  rw [messagePoly, List.foldl_append]
  rfl

/-- What the register holds, up to a multiple of the generator. -/
theorem generator_dvd_feedBits (g c : BitVec w) (bits : List Bool) :
    generator g ∣ poly c * X ^ bits.length + messagePoly bits * X ^ w -
      poly (feedBits g c bits) := by
  induction bits using List.reverseRecOn with
  | nil => simp [messagePoly]
  | append_singleton bits bit ih =>
    obtain ⟨q, hq⟩ := ih
    have hbit := poly_feedBit g (feedBits g c bits) bit
    rw [feedBits_append, feedBits_cons, feedBits_nil, messagePoly_append, List.length_append,
      List.length_singleton, pow_succ]
    refine ⟨q * X + C (toField ((feedBits g c bits).msb ^^ bit)), ?_⟩
    linear_combination X * hq - hbit

/-- **The register holds a remainder**: that of the initial register, followed by the message,
modulo the generator. -/
theorem poly_feedBits (g c : BitVec w) (bits : List Bool) :
    poly (feedBits g c bits) =
      (poly c * X ^ bits.length + messagePoly bits * X ^ w) %ₘ generator g := by
  obtain ⟨q, hq⟩ := generator_dvd_feedBits g c bits
  refine ((div_modByMonic_unique q _ (monic_generator g) ⟨?_, ?_⟩).2).symm
  · linear_combination -hq
  · have hlt : (poly g).degree < (X ^ w : (ZMod 2)[X]).degree := by
      rw [degree_X_pow]
      exact degree_poly_lt g
    rw [generator, degree_add_eq_left_of_degree_lt hlt, degree_X_pow]
    exact degree_poly_lt _

end Polynomial

/-! ## Several bits at once -/

/-- Feeding is linear. -/
theorem feedBit_xor (g a b : BitVec w) (x y : Bool) :
    feedBit g (a ^^^ b) (x ^^ y) = feedBit g a x ^^^ feedBit g b y := by
  refine poly_injective ?_
  have hboth := poly_feedBit g (a ^^^ b) (x ^^ y)
  have ha := poly_feedBit g a x
  have hb := poly_feedBit g b y
  have hcoeff : toField ((a ^^^ b).msb ^^ (x ^^ y)) =
      toField (a.msb ^^ x) + toField (b.msb ^^ y) := by
    rw [BitVec.msb_xor]
    simp only [toField_xor]
    ring
  rw [hcoeff, poly_xor, toField_xor x y, map_add, map_add] at hboth
  rw [poly_xor]
  linear_combination hboth - ha - hb

theorem feedBits_xor (g a b : BitVec w) {bits bits' : List Bool}
    (hlength : bits.length = bits'.length) :
    feedBits g (a ^^^ b) (bits.zipWith xor bits') = feedBits g a bits ^^^ feedBits g b bits' := by
  induction bits generalizing a b bits' with
  | nil =>
    obtain rfl := List.length_eq_zero_iff.1 hlength.symm
    rfl
  | cons x bits ih =>
    cases bits' with
    | nil => nomatch hlength
    | cons y bits' =>
      rw [List.zipWith_cons_cons, feedBits_cons, feedBits_cons, feedBits_cons, feedBit_xor,
        ih _ _ (Nat.succ.inj hlength)]

/-- Bits that meet their equals at the top of the register only shift it. -/
theorem feedBits_of_getMsbD (g : BitVec w) {c : BitVec w} {bits : List Bool}
    (h : ∀ i (hi : i < bits.length), c.getMsbD i = bits[i]) :
    feedBits g c bits = c <<< bits.length := by
  induction bits generalizing c with
  | nil => simp
  | cons bit bits ih =>
    have hfirst : (c.msb ^^ bit) = false := by
      have h0 := h 0 (Nat.succ_pos _)
      rw [BitVec.msb, h0]
      simp
    have hshift : feedBit g c bit = c <<< 1 := by
      rw [feedBit, hfirst]
      rfl
    have hnext : ∀ i (hi : i < bits.length), (c <<< 1).getMsbD i = bits[i] := by
      intro i hi
      have hi' := h (i + 1) (Nat.succ_lt_succ hi)
      rw [BitVec.getMsbD_shiftLeft]
      exact hi'
    rw [feedBits_cons, hshift, ih hnext, ← BitVec.shiftLeft_add, List.length_cons, Nat.add_comm]

/-- **The table rule.** A register `t` with the sum of the top bits of `c` and the bits of the
message at its top, and nothing below, is all that feeding depends on beyond a shift. -/
theorem feedBits_eq_table (g : BitVec w) {c t : BitVec w} {bits : List Bool}
    (htop : ∀ i (hi : i < bits.length), t.getMsbD i = (c.getMsbD i ^^ bits[i]))
    (hbelow : t <<< bits.length = 0#w) :
    feedBits g c bits =
      c <<< bits.length ^^^ feedBits g t (List.replicate bits.length false) := by
  have hzip : bits.zipWith xor (List.replicate bits.length false) = bits := by
    refine List.ext_getElem (by simp) fun i h1 h2 => ?_
    simp
  have hsplit : c = (c ^^^ t) ^^^ t := by
    rw [BitVec.xor_assoc, BitVec.xor_self, BitVec.xor_zero]
  have hmeet : ∀ i (hi : i < bits.length), (c ^^^ t).getMsbD i = bits[i] := by
    intro i hi
    rw [BitVec.getMsbD_xor, htop i hi]
    cases c.getMsbD i <;> cases bits[i] <;> rfl
  calc feedBits g c bits
      = feedBits g ((c ^^^ t) ^^^ t) (bits.zipWith xor (List.replicate bits.length false)) := by
        rw [← hsplit, hzip]
    _ = feedBits g (c ^^^ t) bits ^^^ feedBits g t (List.replicate bits.length false) :=
        feedBits_xor g _ _ (by simp)
    _ = (c ^^^ t) <<< bits.length ^^^ feedBits g t (List.replicate bits.length false) := by
        rw [feedBits_of_getMsbD g hmeet]
    _ = c <<< bits.length ^^^ feedBits g t (List.replicate bits.length false) := by
        rw [BitVec.shiftLeft_xor_distrib, hbelow, BitVec.xor_zero]

end EdgeLink
