import EdgeLink.Foundations.Bytes

/-!
# Capture files

The classic format of libpcap with little-endian numbers: a global header of 24 bytes, and for each
packet a header of 16 bytes and the captured bytes.

* `PcapFile.read` is a reader of the format, with the checks of one.
* `PcapFile.read_write`: a file of well-formed records is read back as it has been written.
-/

namespace EdgeLink

/-! ## Little-endian numbers -/

/-- The last `w` bytes of a number, least significant first. -/
def toLE (w n : ℕ) : Bytes := (toBE w n).reverse

/-- The number that a byte string denotes, least significant byte first. -/
def ofLE (bytes : Bytes) : ℕ := ofBE bytes.reverse

@[simp] theorem length_toLE (w n : ℕ) : (toLE w n).length = w := by simp [toLE]

theorem ofLE_toLE {w n : ℕ} (h : n < 256 ^ w) : ofLE (toLE w n) = n := by
  rw [ofLE, toLE, List.reverse_reverse, ofBE_toBE h]

/-- A number at the front of a byte string. -/
def readLE (w : ℕ) (bytes : Bytes) : Option (ℕ × Bytes) :=
  if bytes.length < w then none else some (ofLE (bytes.take w), bytes.drop w)

theorem readLE_append {w n : ℕ} (h : n < 256 ^ w) (rest : Bytes) :
    readLE w (toLE w n ++ rest) = some (n, rest) := by
  have hlength : ¬(toLE w n ++ rest).length < w := by simp
  have htake : (toLE w n ++ rest).take w = toLE w n := by
    rw [List.take_append_of_le_length (by simp), List.take_of_length_le (by simp)]
  have hdrop : (toLE w n ++ rest).drop w = rest := by
    rw [List.drop_append_of_le_length (by simp), List.drop_of_length_le (by simp), List.nil_append]
  rw [readLE, if_neg hlength, htake, hdrop, ofLE_toLE h]

/-! ## Files -/

/-- A captured packet. -/
structure PcapRecord where
  seconds : ℕ
  microseconds : ℕ
  /-- how long the packet was -/
  originalLength : ℕ
  data : Bytes
  deriving DecidableEq

structure PcapFile where
  /-- the longest packet that is captured whole -/
  snapLength : ℕ
  linkType : ℕ
  records : List PcapRecord
  deriving DecidableEq

namespace PcapRecord

/-- A record that a reader accepts. -/
structure WellFormed (snapLength : ℕ) (r : PcapRecord) : Prop where
  seconds : r.seconds < 2 ^ 32
  microseconds : r.microseconds < 1000000
  originalLength : r.originalLength < 2 ^ 32
  captured : r.data.length ≤ snapLength
  within : r.data.length ≤ r.originalLength

def write (r : PcapRecord) : Bytes :=
  toLE 4 r.seconds ++ (toLE 4 r.microseconds ++
    (toLE 4 r.data.length ++ (toLE 4 r.originalLength ++ r.data)))

/-- A record at the front of a byte string. -/
def read (snapLength : ℕ) (bytes : Bytes) : Option (PcapRecord × Bytes) := do
  let (seconds, bytes) ← readLE 4 bytes
  let (microseconds, bytes) ← readLE 4 bytes
  let (capturedLength, bytes) ← readLE 4 bytes
  let (originalLength, bytes) ← readLE 4 bytes
  guard (microseconds < 1000000 ∧ capturedLength ≤ snapLength ∧ capturedLength ≤ originalLength ∧
    capturedLength ≤ bytes.length)
  return (⟨seconds, microseconds, originalLength, bytes.take capturedLength⟩,
    bytes.drop capturedLength)

theorem read_write {snapLength : ℕ} {r : PcapRecord} (h : r.WellFormed snapLength)
    (hsnap : snapLength < 2 ^ 32) (rest : Bytes) :
    read snapLength (r.write ++ rest) = some (r, rest) := by
  have hseconds := h.seconds
  have hmicroseconds := h.microseconds
  have horiginal := h.originalLength
  have hcaptured := h.captured
  have hwithin := h.within
  have htake : (r.data ++ rest).take r.data.length = r.data := by simp
  have hdrop : (r.data ++ rest).drop r.data.length = rest := by simp
  have hguard : r.microseconds < 1000000 ∧ r.data.length ≤ snapLength ∧
      r.data.length ≤ r.originalLength ∧ r.data.length ≤ (r.data ++ rest).length :=
    ⟨hmicroseconds, hcaptured, hwithin, by simp⟩
  rw [read, write]
  simp only [List.append_assoc]
  rw [readLE_append (by omega), Option.bind_eq_bind, Option.bind_some]
  dsimp only
  rw [readLE_append (by omega), Option.bind_some]
  dsimp only
  rw [readLE_append (by omega), Option.bind_some]
  dsimp only
  rw [readLE_append (by omega), Option.bind_some]
  simp [guard, hguard, htake, hdrop]

theorem length_write (r : PcapRecord) : r.write.length = 16 + r.data.length := by
  simp only [write, List.length_append, length_toLE]
  omega

end PcapRecord

/-- The records up to the end, at most `fuel` of them. -/
def readRecords (snapLength : ℕ) : ℕ → Bytes → Option (List PcapRecord)
  | _, [] => some []
  | 0, _ :: _ => none
  | fuel + 1, b :: bytes =>
    (PcapRecord.read snapLength (b :: bytes)).bind fun r =>
      (readRecords snapLength fuel r.2).map fun rs => r.1 :: rs

theorem readRecords_write {snapLength : ℕ} (hsnap : snapLength < 2 ^ 32) {rs : List PcapRecord}
    (h : ∀ r ∈ rs, r.WellFormed snapLength) {fuel : ℕ} (hfuel : rs.length ≤ fuel) :
    readRecords snapLength fuel (rs.flatMap PcapRecord.write) = some rs := by
  induction rs generalizing fuel with
  | nil => cases fuel <;> rfl
  | cons r rs ih =>
    obtain ⟨hr, hrs⟩ := List.forall_mem_cons.1 h
    obtain ⟨fuel, rfl⟩ : ∃ k, fuel = k + 1 :=
      Nat.exists_eq_add_of_le' (Nat.le_trans (by simp) hfuel)
    have hne : r.write ++ rs.flatMap PcapRecord.write ≠ [] := by
      intro hnil
      have hlength := congrArg List.length hnil
      rw [List.length_append, PcapRecord.length_write, List.length_nil] at hlength
      omega
    have hread := PcapRecord.read_write hr hsnap (rs.flatMap PcapRecord.write)
    rw [List.flatMap_cons]
    cases hbytes : r.write ++ rs.flatMap PcapRecord.write with
    | nil => exact absurd hbytes hne
    | cons b bytes =>
      rw [hbytes] at hread
      rw [readRecords, hread, Option.bind_some]
      dsimp only
      rw [ih hrs (by simpa using hfuel)]
      rfl

namespace PcapFile

def magic : ℕ := 0xa1b2c3d4

def write (file : PcapFile) : Bytes :=
  toLE 4 magic ++ (toLE 2 2 ++ (toLE 2 4 ++ (toLE 4 0 ++ (toLE 4 0 ++ (toLE 4 file.snapLength ++
    (toLE 4 file.linkType ++ file.records.flatMap PcapRecord.write))))))

/-- Read a file of version 2.4. -/
def read (bytes : Bytes) : Option PcapFile := do
  let (m, bytes) ← readLE 4 bytes
  let (major, bytes) ← readLE 2 bytes
  let (minor, bytes) ← readLE 2 bytes
  let (_, bytes) ← readLE 4 bytes
  let (_, bytes) ← readLE 4 bytes
  let (snapLength, bytes) ← readLE 4 bytes
  let (linkType, bytes) ← readLE 4 bytes
  guard (m = magic ∧ major = 2 ∧ minor = 4)
  let records ← readRecords snapLength bytes.length bytes
  return ⟨snapLength, linkType, records⟩

theorem read_write {file : PcapFile} (hsnap : file.snapLength < 2 ^ 32)
    (hlink : file.linkType < 2 ^ 32) (h : ∀ r ∈ file.records, r.WellFormed file.snapLength) :
    read file.write = some file := by
  have hfuel : file.records.length ≤ (file.records.flatMap PcapRecord.write).length := by
    induction file.records with
    | nil => exact Nat.zero_le _
    | cons r rs ih =>
      rw [List.flatMap_cons, List.length_append, PcapRecord.length_write, List.length_cons]
      omega
  have hrecords := readRecords_write hsnap h hfuel
  rw [read, write, readLE_append (by decide), Option.bind_eq_bind, Option.bind_some]
  dsimp only
  rw [readLE_append (by decide), Option.bind_some]
  dsimp only
  rw [readLE_append (by decide), Option.bind_some]
  dsimp only
  rw [readLE_append (by decide), Option.bind_some]
  dsimp only
  rw [readLE_append (by decide), Option.bind_some]
  dsimp only
  rw [readLE_append (by omega), Option.bind_some]
  dsimp only
  rw [readLE_append (by omega), Option.bind_some]
  simp only [hrecords]
  simp [guard]

end PcapFile

end EdgeLink
