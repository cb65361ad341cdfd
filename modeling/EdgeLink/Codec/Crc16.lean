import EdgeLink.Codec.Packet
import EdgeLink.Foundations.ShiftRegister

/-!
# The header CRC

`CRC16_TABLE` and `crc16` of `codec/packet/constants.ts` in the 32-bit integers of JavaScript's
bit operations. The entries of the table are shifted without a mask and cut to 16 bits at the end;
the loop over the message masks once for each byte. `crcCcitt` is the specification: the bits of the
message enter a register of 16 bits one by one.

* `crc16_eq`: the integers hold the CRC that the packet codec is modelled with.
* `crc16_spec`: the table-driven CRC is the bitwise one, and the remainder of a polynomial division.
-/

namespace EdgeLink

namespace Crc16

/-! ## The code -/

/-- One round of the loop that fills the table. -/
def tableRound (crc : BitVec 32) : BitVec 32 :=
  if crc &&& 0x8000 ≠ 0 then (crc <<< 1) ^^^ 0x1021 else crc <<< 1

/-- An entry of the table. -/
def tableEntry (i : ℕ) : BitVec 16 :=
  ((tableRound^[8] (BitVec.ofNat 32 i <<< 8)) &&& 0xffff#32).setWidth 16

def CRC16_TABLE : List (BitVec 16) := (List.range 256).map tableEntry

/-- One round of the loop over the message. -/
def crc16Round (crc : BitVec 32) (b : UInt8) : BitVec 32 :=
  let i := (crc.sshiftRight 8 ^^^ BitVec.ofNat 32 b.toNat) &&& 0xff#32
  ((crc <<< 8) ^^^ ((CRC16_TABLE[i.toNat]?).getD 0).setWidth 32) &&& 0xffff#32

/-- The loop over the message. -/
def crc16Loop (crc : BitVec 32) (data : Bytes) : BitVec 32 := data.foldl crc16Round crc

def crc16 (data : Bytes) : BitVec 32 := crc16Loop 0xffff data

/-! ## The specification -/

/-- The bits of a byte, the most significant one first. -/
def byteBits (b : UInt8) : List Bool := (List.range 8).map b.toBitVec.getMsbD

def messageBits (data : Bytes) : List Bool := data.flatMap byteBits

/-- The CRC with polynomial `0x1021`, bit by bit, from a register on. -/
def crcCcitt (crc : BitVec 16) (data : Bytes) : BitVec 16 := feedBits 0x1021 crc (messageBits data)

theorem crcCcitt_append (crc : BitVec 16) (data more : Bytes) :
    crcCcitt crc (data ++ more) = crcCcitt (crcCcitt crc data) more := by
  rw [crcCcitt, messageBits, List.flatMap_append, feedBits_append]
  rfl

open Polynomial in
/-- The generator of this CRC. -/
theorem generator_ccitt :
    generator (0x1021 : BitVec 16) = X ^ 16 + X ^ 12 + X ^ 5 + 1 := by
  have hbits : poly (0x1021 : BitVec 16) = X ^ 12 + X ^ 5 + 1 := by
    rw [poly]
    simp [Finset.sum_range_succ, toField]
    ring
  rw [generator, hbits]
  ring

/-! ## The table -/

theorem tableRound_eq (crc : BitVec 32) :
    (tableRound crc).setWidth 16 = feedBit 0x1021 (crc.setWidth 16) false := by
  have hbit : crc &&& 0x8000 ≠ 0 ↔ (crc.setWidth 16).msb = true := by
    rw [show (0x8000 : BitVec 32) = BitVec.twoPow 32 15 from rfl, BitVec.and_twoPow,
      BitVec.msb_setWidth]
    cases crc.getLsbD 15 <;> decide
  have hshift : (crc <<< 1).setWidth 16 = crc.setWidth 16 <<< 1 := by
    ext i hi
    simp [BitVec.getElem_setWidth, BitVec.getElem_shiftLeft]
  rw [tableRound, feedBit, Bool.xor_false]
  split_ifs with h h' h'
  · rw [BitVec.setWidth_xor, hshift]
    rfl
  · exact absurd (hbit.1 h) h'
  · exact absurd (hbit.2 h') h
  · exact hshift

theorem tableEntry_eq (i : UInt8) :
    tableEntry i.toNat =
      feedBits 0x1021 (BitVec.ofNat 16 i.toNat <<< 8) (List.replicate 8 false) := by
  have hrounds : ∀ n crc, (tableRound^[n] crc).setWidth 16 =
      feedBits 0x1021 (crc.setWidth 16) (List.replicate n false) := by
    intro n
    induction n with
    | zero => exact fun _ => rfl
    | succ n ih =>
      intro crc
      rw [Function.iterate_succ_apply, ih, tableRound_eq]
      rfl
  have hstart : (BitVec.ofNat 32 i.toNat <<< 8).setWidth 16 = BitVec.ofNat 16 i.toNat <<< 8 := by
    apply BitVec.eq_of_toNat_eq
    simp [Nat.shiftLeft_eq]
  rw [tableEntry, BitVec.setWidth_and, hrounds, hstart]
  exact BitVec.and_allOnes ..

theorem getElem?_table (i : UInt8) : CRC16_TABLE[i.toNat]? = some (tableEntry i.toNat) := by
  rw [CRC16_TABLE, List.getElem?_map, List.getElem?_range i.toNat_lt]
  rfl

/-! ## The loop -/

/-- The byte at which the table is read. -/
def tableIndex (c : BitVec 16) (b : UInt8) : UInt8 := ⟨c.extractLsb' 8 8 ^^^ b.toBitVec⟩

theorem ofNat_toNat_eq (b : UInt8) (w : ℕ) : BitVec.ofNat w b.toNat = b.toBitVec.setWidth w := by
  apply BitVec.eq_of_toNat_eq
  rw [BitVec.toNat_ofNat, BitVec.toNat_setWidth]
  rfl

theorem getLsbD_mask {n : ℕ} (hn : n ≤ 32) (i : ℕ) :
    ((BitVec.allOnes n).setWidth 32).getLsbD i = decide (i < n) := by
  rw [BitVec.getLsbD_setWidth, BitVec.getLsbD_allOnes, Bool.and_eq_right_iff_imp]
  intro h
  exact decide_eq_true ((of_decide_eq_true h).trans_le hn)

theorem toNat_index (c : BitVec 16) (b : UInt8) :
    (((c.setWidth 32).sshiftRight 8 ^^^ BitVec.ofNat 32 b.toNat) &&& 0xff#32).toNat =
      (tableIndex c b).toNat := by
  have hmsb : (c.setWidth 32).msb = false := by simp [BitVec.msb_setWidth]
  have hmask := getLsbD_mask (n := 8) (by decide)
  have hbits : ((c.setWidth 32).sshiftRight 8 ^^^ BitVec.ofNat 32 b.toNat) &&& 0xff#32 =
      (tableIndex c b).toBitVec.setWidth 32 := by
    rw [BitVec.sshiftRight_eq_of_msb_false hmsb, ofNat_toNat_eq]
    refine BitVec.eq_of_getLsbD_eq fun i hi => ?_
    rw [BitVec.getLsbD_and, show (0xff#32).getLsbD i = decide (i < 8) from hmask i]
    by_cases h8 : i < 8
    · have : 8 + i < 32 := by omega
      simp [tableIndex, hi, h8, this]
    · simp [tableIndex, h8, BitVec.getLsbD_of_ge b.toBitVec i (by omega)]
  rw [hbits, BitVec.toNat_setWidth, Nat.mod_eq_of_lt]
  · rfl
  · have := (tableIndex c b).toNat_lt
    exact this.trans (by decide)

theorem mask_setWidth (c e : BitVec 16) :
    ((c.setWidth 32 <<< 8) ^^^ e.setWidth 32) &&& 0xffff#32 = ((c <<< 8) ^^^ e).setWidth 32 := by
  have hmask := getLsbD_mask (n := 16) (by decide)
  refine BitVec.eq_of_getLsbD_eq fun i hi => ?_
  rw [BitVec.getLsbD_and, show (0xffff#32).getLsbD i = decide (i < 16) from hmask i]
  by_cases h16 : i < 16
  · have h24 : i - 8 < 32 := by omega
    simp only [BitVec.getLsbD_xor, BitVec.getLsbD_shiftLeft, BitVec.getLsbD_setWidth, hi, h16, h24,
      decide_true, Bool.true_and, Bool.and_true]
  · simp [h16, BitVec.getLsbD_of_ge e i (by omega)]
/-- Eight bits enter the register at once through the table. -/
theorem feedBits_byteBits (c : BitVec 16) (b : UInt8) :
    feedBits 0x1021 c (byteBits b) = (c <<< 8) ^^^ tableEntry (tableIndex c b).toNat := by
  have hlength : (byteBits b).length = 8 := by simp [byteBits]
  have htop : ∀ i (hi : i < (byteBits b).length),
      (BitVec.ofNat 16 (tableIndex c b).toNat <<< 8).getMsbD i =
        (c.getMsbD i ^^ (byteBits b)[i]) := by
    intro i hi
    have hi8 : i < 8 := hlength ▸ hi
    have hi' : 7 - i < 16 ∧ 7 - i < 8 ∧ 8 + (7 - i) < 16 ∧ i < 16 := by omega
    rw [ofNat_toNat_eq, show (tableIndex c b).toBitVec = c.extractLsb' 8 8 ^^^ b.toBitVec from rfl]
    simp only [byteBits, List.getElem_map, List.getElem_range, BitVec.getMsbD,
      BitVec.getLsbD_shiftLeft, BitVec.getLsbD_setWidth, BitVec.getLsbD_xor,
      BitVec.getLsbD_extractLsb']
    rw [show 16 - 1 - i = 8 + (7 - i) by omega, show 8 - 1 - i = 7 - i by omega]
    simp [hi8, hi']
  have hbelow : BitVec.ofNat 16 (tableIndex c b).toNat <<< 8 <<< (byteBits b).length = 0#16 := by
    rw [hlength, ← BitVec.shiftLeft_add]
    exact BitVec.shiftLeft_eq_zero (by decide)
  rw [feedBits_eq_table _ htop hbelow, tableEntry_eq, hlength]

theorem crc16Round_eq (c : BitVec 16) (b : UInt8) :
    crc16Round (c.setWidth 32) b = (feedBits 0x1021 c (byteBits b)).setWidth 32 := by
  rw [feedBits_byteBits, ← mask_setWidth, crc16Round, toNat_index, getElem?_table, Option.getD_some]

/-- The integers of the loop hold the register. -/
theorem crc16Loop_eq (c : BitVec 16) (data : Bytes) :
    crc16Loop (c.setWidth 32) data = (crcCcitt c data).setWidth 32 := by
  induction data generalizing c with
  | nil => rfl
  | cons b data ih =>
    calc crc16Loop (c.setWidth 32) (b :: data)
        = crc16Loop (crc16Round (c.setWidth 32) b) data := rfl
      _ = (crcCcitt (feedBits 0x1021 c (byteBits b)) data).setWidth 32 := by
          rw [crc16Round_eq, ih]
      _ = (crcCcitt c (b :: data)).setWidth 32 := by
          rw [crcCcitt, crcCcitt, messageBits, messageBits, List.flatMap_cons, feedBits_append]

/-- The integers of the loop hold the CRC with which the packet codec is modelled. -/
theorem crc16_eq (data : Bytes) : crc16 data = (EdgeLink.crc16 data).setWidth 32 := by
  have hround : ∀ (c : BitVec 16) (b : UInt8),
      (c <<< 8) ^^^ crc16Entry (UInt8.ofNat (c >>> 8).toNat ^^^ b) =
        feedBits 0x1021 c (byteBits b) := by
    intro c b
    have hindex : UInt8.ofNat (c >>> 8).toNat ^^^ b = tableIndex c b := by
      apply UInt8.toBitVec_inj.1
      rw [UInt8.toBitVec_xor]
      rfl
    have hentry : ∀ i : UInt8, crc16Entry i = tableEntry i.toNat := by
      intro i
      rw [tableEntry_eq]
      simp [crc16Entry, feedBits, feedBit, List.range_succ, List.replicate]
    rw [feedBits_byteBits, hindex, hentry]
  have hloop : ∀ (bytes : Bytes) (c : BitVec 16),
      bytes.foldl (fun (crc : BitVec 16) b => (crc <<< 8) ^^^
        crc16Entry (UInt8.ofNat (crc >>> 8).toNat ^^^ b)) c = crcCcitt c bytes := by
    intro bytes
    induction bytes with
    | nil => exact fun c => rfl
    | cons b bytes ih =>
      intro c
      rw [List.foldl_cons, ih, hround, crcCcitt, crcCcitt, messageBits, messageBits,
        List.flatMap_cons, feedBits_append]
  rw [EdgeLink.crc16, hloop]
  exact crc16Loop_eq 0xffff data

open Polynomial in
/-- **The header CRC.** The table-driven CRC is the bitwise one, which is the remainder of the
message divided by `X ^ 16 + X ^ 12 + X ^ 5 + 1`; and that of a concatenation is the CRC of the
second part, started from the CRC of the first. -/
theorem crc16_spec (data more : Bytes) :
    crc16 data = (crcCcitt 0xffff data).setWidth 32 ∧
    poly (crcCcitt 0xffff data) =
      (poly (0xffff : BitVec 16) * X ^ (messageBits data).length +
        messagePoly (messageBits data) * X ^ 16) %ₘ (X ^ 16 + X ^ 12 + X ^ 5 + 1) ∧
    crc16 (data ++ more) = crc16Loop (crc16 data) more ∧
    crc16 (data ++ more) = (crcCcitt (crcCcitt 0xffff data) more).setWidth 32 := by
  have hbitwise : ∀ bytes, crc16 bytes = (crcCcitt 0xffff bytes).setWidth 32 :=
    fun bytes => crc16Loop_eq 0xffff bytes
  refine ⟨hbitwise data, ?_, ?_, ?_⟩
  · rw [← generator_ccitt]
    exact poly_feedBits ..
  · rw [crc16, crc16Loop, List.foldl_append]
    rfl
  · rw [hbitwise, crcCcitt_append]

end Crc16

end EdgeLink
