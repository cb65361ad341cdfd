import EdgeLink.Foundations.Pcap
import EdgeLink.Foundations.Recent
import EdgeLink.Foundations.Run

/-!
# Packet capture

`domain/monitoring/packet-capture.ts`: the last packets of a connection, and their export as a
capture file.

* `captured_run`: what is kept after any calls, and what the counters say of it.
* `exported_run`: a reader of the format gets these packets back from the export.
-/

namespace EdgeLink

def PACKET_CAPTURE_MAX_PACKETS : ℕ := 1000

def PCAP_MAGIC : ℕ := 0xa1b2c3d4

def PCAP_VERSION_MAJOR : ℕ := 2

def PCAP_VERSION_MINOR : ℕ := 4

def PCAP_THISZONE : ℕ := 0

def PCAP_SIGFIGS : ℕ := 0

def PCAP_SNAPLEN : ℕ := 65535

def PCAP_LINKTYPE_USER0 : ℕ := 147

structure CapturedPacket where
  /-- in milliseconds -/
  timestamp : ℤ
  data : Bytes
  direction : String
  address : String
  port : ℕ
  length : ℕ
  deriving DecidableEq

structure PacketCapture where
  maxPackets : ℕ
  enabled : Bool
  packets : List CapturedPacket
  captured : ℕ
  dropped : ℕ
  deriving DecidableEq

namespace PacketCapture

/-- A capture with the options of the constructor, where `0` stands for the default. -/
def new (maxPackets : ℕ) (enabled : Bool) : PacketCapture where
  maxPackets := if maxPackets = 0 then PACKET_CAPTURE_MAX_PACKETS else maxPackets
  enabled := enabled
  packets := []
  captured := 0
  dropped := 0

def capture (c : PacketCapture) (now : Time) (data : Bytes) (direction address : String)
    (port : ℕ) : PacketCapture :=
  if c.enabled = false then c
  else
    let packets := c.packets ++ [⟨now, data, direction, address, port, data.length⟩]
    let overage := packets.length - c.maxPackets
    if c.maxPackets < packets.length then
      { c with
        packets := packets.drop overage
        captured := c.captured + 1
        dropped := c.dropped + overage }
    else { c with packets := packets, captured := c.captured + 1 }

def start (c : PacketCapture) : PacketCapture := { c with enabled := true }

def stop (c : PacketCapture) : PacketCapture := { c with enabled := false }

def clear (c : PacketCapture) : PacketCapture :=
  { c with packets := [], captured := 0, dropped := 0 }

def reset (c : PacketCapture) : PacketCapture := c.stop.clear

/-! ## The export -/

/-- `Buffer.writeUInt32LE`, which throws for a number that does not fit. -/
def writeUInt32LE (n : ℤ) : Option Bytes :=
  if 0 ≤ n ∧ n < 2 ^ 32 then some (toLE 4 n.toNat) else none

/-- The header and the bytes of a packet. -/
def exportPacket (pkt : CapturedPacket) : Option Bytes := do
  let packetData := (if pkt.direction = "recv" then 1 else 0) :: pkt.data
  let tsSec ← writeUInt32LE (pkt.timestamp / 1000)
  let tsUsec ← writeUInt32LE (pkt.timestamp.tmod 1000 * 1000)
  let capturedLength ← writeUInt32LE packetData.length
  let originalLength ← writeUInt32LE packetData.length
  return tsSec ++ tsUsec ++ capturedLength ++ originalLength ++ packetData

/-- The capture file, or `none` where the export throws. -/
def exportPcap (c : PacketCapture) : Option Bytes :=
  let globalHeader := toLE 4 PCAP_MAGIC ++ toLE 2 PCAP_VERSION_MAJOR ++
    toLE 2 PCAP_VERSION_MINOR ++ toLE 4 PCAP_THISZONE ++ toLE 4 PCAP_SIGFIGS ++
    toLE 4 PCAP_SNAPLEN ++ toLE 4 PCAP_LINKTYPE_USER0
  (c.packets.mapM exportPacket).map fun records => globalHeader ++ records.flatten

/-! ## Runs -/

inductive Call where
  | capture (now : Time) (data : Bytes) (direction address : String) (port : ℕ)
  | start
  | stop
  | clear
  | reset

def step (c : PacketCapture) : Call → PacketCapture
  | .capture now data direction address port => c.capture now data direction address port
  | .start => c.start
  | .stop => c.stop
  | .clear => c.clear
  | .reset => c.reset

/-- Whether a capture is under way after some calls, and all packets since the last clearing that
it has seen. -/
def observed (enabled : Bool) (calls : List Call) : Bool × List CapturedPacket :=
  calls.foldl (fun s call =>
    match call with
    | .capture now data direction address port =>
      if s.1 then (s.1, s.2 ++ [⟨now, data, direction, address, port, data.length⟩]) else s
    | .start => (true, s.2)
    | .stop => (false, s.2)
    | .clear => (s.1, [])
    | .reset => (false, [])) (enabled, [])

/-- A capture that has seen some packets. -/
structure Holds (c : PacketCapture) (n : ℕ) (s : Bool × List CapturedPacket) : Prop where
  maxPackets : c.maxPackets = n
  enabled : c.enabled = s.1
  packets : c.packets = s.2.rtake n
  captured : c.captured = s.2.length
  dropped : c.dropped = s.2.length - n

theorem Holds.capture {c : PacketCapture} {n : ℕ} {s : Bool × List CapturedPacket}
    (h : Holds c n s) (now : Time) (data : Bytes) (direction address : String) (port : ℕ) :
    Holds (c.capture now data direction address port) n
      (if s.1 then (s.1, s.2 ++ [⟨now, data, direction, address, port, data.length⟩]) else s) := by
  obtain ⟨hmax, henabled, hpackets, hcaptured, hdropped⟩ := h
  rw [PacketCapture.capture, henabled]
  cases hon : s.1 with
  | false =>
    rw [if_pos rfl, if_neg (by simp)]
    exact ⟨hmax, henabled, hpackets, hcaptured, hdropped⟩
  | true =>
    set pkt : CapturedPacket := ⟨now, data, direction, address, port, data.length⟩
    have hkept : (c.packets ++ [pkt]).rtake n = (s.2 ++ [pkt]).rtake n := by
      rw [hpackets, rtake_push]
    have hlength : (c.packets ++ [pkt]).length = min n s.2.length + 1 := by
      rw [hpackets, List.length_append, length_rtake, List.length_singleton]
    have hlog : (s.2 ++ [pkt]).length = s.2.length + 1 := by simp
    rw [if_neg (by simp), if_pos rfl]
    dsimp only
    rw [hmax]
    by_cases hover : n < (c.packets ++ [pkt]).length
    · rw [if_pos hover]
      refine ⟨rfl, rfl, hkept, ?_, ?_⟩
      · rw [hlog, hcaptured]
      · dsimp only
        omega
    · rw [if_neg hover]
      refine ⟨rfl, rfl, ?_, ?_, ?_⟩
      · rw [← hkept, rtake_of_length_le (not_lt.1 hover)]
      · rw [hlog, hcaptured]
      · dsimp only
        omega

/-- **What is captured.** After any calls the packets kept are the last of those seen since the last
clearing, all packets seen are counted, and those that are not kept any more are counted again. -/
theorem captured_run (maxPackets : ℕ) (enabled : Bool) (calls : List Call) :
    Holds (run step (new maxPackets enabled) calls) (new maxPackets enabled).maxPackets
      (observed enabled calls) := by
  rw [observed]
  induction calls using List.reverseRecOn with
  | nil => exact ⟨rfl, rfl, by simp [new], rfl, by simp [new]⟩
  | append_singleton calls call ih =>
    rw [run_append, List.foldl_append]
    obtain ⟨hmax, henabled, hpackets, hcaptured, hdropped⟩ := id ih
    cases call with
    | capture now data direction address port => exact ih.capture now data direction address port
    | start => exact ⟨hmax, rfl, hpackets, hcaptured, hdropped⟩
    | stop => exact ⟨hmax, rfl, hpackets, hcaptured, hdropped⟩
    | clear => exact ⟨hmax, henabled, by simp [step, PacketCapture.clear], rfl, by
        simp [step, PacketCapture.clear]⟩
    | reset => exact ⟨hmax, rfl, by simp [step, PacketCapture.reset, PacketCapture.clear], rfl, by
        simp [step, PacketCapture.reset, PacketCapture.clear]⟩

/-! ## What is exported -/

/-- The record of a packet: its time, its direction and its bytes. -/
def record (pkt : CapturedPacket) : PcapRecord where
  seconds := (pkt.timestamp / 1000).toNat
  microseconds := (pkt.timestamp % 1000).toNat * 1000
  originalLength := pkt.data.length + 1
  data := (if pkt.direction = "recv" then 1 else 0) :: pkt.data

/-- A packet that a capture file can hold: its time is one of 32 bits of seconds, and it is no
longer than a datagram can be. -/
def Exportable (pkt : CapturedPacket) : Prop :=
  0 ≤ pkt.timestamp ∧ pkt.timestamp < 2 ^ 32 * 1000 ∧ pkt.data.length < PCAP_SNAPLEN

theorem writeUInt32LE_of_lt {n : ℤ} (h : 0 ≤ n) (hlt : n < 2 ^ 32) :
    writeUInt32LE n = some (toLE 4 n.toNat) := if_pos ⟨h, hlt⟩

theorem record_wellFormed {pkt : CapturedPacket} (h : Exportable pkt) :
    (record pkt).WellFormed PCAP_SNAPLEN := by
  obtain ⟨hpos, hlt, hlength⟩ := h
  have hsnap : PCAP_SNAPLEN = 65535 := rfl
  refine ⟨?_, ?_, ?_, ?_, ?_⟩ <;> simp only [record, List.length_cons] <;> omega

theorem exportPacket_eq {pkt : CapturedPacket} (h : Exportable pkt) :
    exportPacket pkt = some (record pkt).write := by
  obtain ⟨hpos, hlt, hlength⟩ := h
  have hsnap : PCAP_SNAPLEN = 65535 := rfl
  have hrem : pkt.timestamp.tmod 1000 = pkt.timestamp % 1000 := Int.tmod_eq_emod_of_nonneg hpos
  have hmicro : (pkt.timestamp % 1000 * 1000).toNat = (pkt.timestamp % 1000).toNat * 1000 := by
    omega
  rw [exportPacket, hrem, writeUInt32LE_of_lt (by omega) (by omega),
    writeUInt32LE_of_lt (by omega) (by omega), List.length_cons,
    writeUInt32LE_of_lt (by omega) (by omega), hmicro]
  simp [PcapRecord.write, record]

theorem mapM_exportPacket {packets : List CapturedPacket} (h : ∀ pkt ∈ packets, Exportable pkt) :
    packets.mapM exportPacket = some (packets.map fun pkt => (record pkt).write) := by
  induction packets with
  | nil => rfl
  | cons pkt packets ih =>
    obtain ⟨hpkt, hpackets⟩ := List.forall_mem_cons.1 h
    rw [List.mapM_cons, exportPacket_eq hpkt, ih hpackets]
    rfl

/-- An export of packets that a file can hold is the file of their records. -/
theorem exportPcap_eq {c : PacketCapture} (h : ∀ pkt ∈ c.packets, Exportable pkt) :
    exportPcap c =
      some (PcapFile.write ⟨PCAP_SNAPLEN, PCAP_LINKTYPE_USER0, c.packets.map record⟩) := by
  have hrecords : (c.packets.map record).flatMap PcapRecord.write =
      (c.packets.map fun pkt => (record pkt).write).flatten := by
    rw [List.flatMap_def, List.map_map]
    rfl
  rw [exportPcap, mapM_exportPacket h, Option.map_some, PcapFile.write, hrecords]
  simp only [List.append_assoc]
  rfl

/-- **The export round trip.** After any calls, a reader of capture files gets from the export the
last packets seen since the last clearing, in order, each with the time, the direction and the bytes
it was captured with; and the counters count the packets seen, and those among them that the export
leaves out. -/
theorem exported_run (maxPackets : ℕ) (enabled : Bool) (calls : List Call)
    (h : ∀ pkt ∈ (observed enabled calls).2, Exportable pkt) :
    let c := run step (new maxPackets enabled) calls
    let kept := (observed enabled calls).2.rtake (new maxPackets enabled).maxPackets
    (∃ file, exportPcap c = some file ∧
      PcapFile.read file = some ⟨PCAP_SNAPLEN, PCAP_LINKTYPE_USER0, kept.map record⟩) ∧
      (∀ pkt ∈ kept,
        ((record pkt).seconds * 1000 + (record pkt).microseconds / 1000 : ℤ) = pkt.timestamp ∧
          (record pkt).data = (if pkt.direction = "recv" then 1 else 0) :: pkt.data) ∧
      c.captured = (observed enabled calls).2.length ∧ c.captured = c.dropped + kept.length := by
  have hholds := captured_run maxPackets enabled calls
  have hexportable : ∀ pkt ∈
      (observed enabled calls).2.rtake (new maxPackets enabled).maxPackets, Exportable pkt :=
    fun pkt hpkt => h pkt ((rtake_sublist _ _).subset hpkt)
  refine ⟨⟨_, exportPcap_eq (hholds.packets ▸ hexportable), ?_⟩, fun pkt hpkt => ⟨?_, rfl⟩,
    hholds.captured, ?_⟩
  · rw [hholds.packets]
    refine PcapFile.read_write (show PCAP_SNAPLEN < 2 ^ 32 by decide)
      (show PCAP_LINKTYPE_USER0 < 2 ^ 32 by decide) ?_
    rw [List.forall_mem_map]
    exact fun pkt hpkt => record_wellFormed (hexportable pkt hpkt)
  · obtain ⟨hpos, -⟩ := hexportable pkt hpkt
    simp only [record]
    omega
  · rw [hholds.captured, hholds.dropped, length_rtake]
    omega

/-- Three packets for a capture of two. -/
def threePackets : List Call :=
  [.start, .capture 1700000000001 [1, 2] "send" "10.0.0.1" 4446,
    .capture 1700000000250 [3] "recv" "10.0.0.1" 4446, .stop,
    .capture 1700000000300 [9] "recv" "10.0.0.1" 4446, .start,
    .capture 1700000001000 [4, 5, 6] "send" "10.0.0.1" 4446]

theorem exported_run_threePackets :
    ∃ file, exportPcap (run step (new 2 false) threePackets) = some file ∧
      PcapFile.read file = some ⟨65535, 147,
        [⟨1700000000, 250000, 2, [1, 3]⟩, ⟨1700000001, 0, 4, [0, 4, 5, 6]⟩]⟩ := by
  have hexportable : ∀ pkt ∈ (observed false threePackets).2, Exportable pkt := by
    unfold Exportable
    decide +kernel
  have hkept : ((observed false threePackets).2.rtake (new 2 false).maxPackets).map record =
      [⟨1700000000, 250000, 2, [1, 3]⟩, ⟨1700000001, 0, 4, [0, 4, 5, 6]⟩] := by
    decide +kernel
  obtain ⟨⟨file, hfile, hread⟩, -, -, -⟩ := exported_run 2 false threePackets hexportable
  exact ⟨file, hfile, hkept ▸ hread⟩

end PacketCapture

end EdgeLink
