import EdgeLink.Codec.JsText
import EdgeLink.Foundations.Bytes
import EdgeLink.Reliability.ReplayWindow
import Mathlib.Algebra.Order.Floor.Ring
import Mathlib.Data.Rat.Floor

/-!
# The packet codec

The wire format of the reliable transport: `codec/packet/builder.ts`, `codec/packet/parser.ts`, and
the authentication tag of `codec/crypto.ts`. A packet is a header of 15 bytes and a payload. The
header's CRC covers its first 13 bytes; the tag that ends an authenticated payload covers these 13
bytes, the payload before it and, where the packet is bound to an epoch, the epoch.

The keyed hash is a parameter (`Hmac`) over an arbitrary type of normalised keys.

* `PacketBuilder.buildPacket` and `PacketParser.parseHeader` are the two directions.
* `PacketBuilder.build` is the builder's method for each kind of packet.
-/

namespace EdgeLink

open Serial

/-- The length of the truncated tag. -/
def CONTROL_AUTH_TAG_LENGTH : ℕ := 16

/-- A keyed hash with truncated digests. -/
structure Hmac (K : Type) where
  digest : K → Bytes → Bytes
  length_digest : ∀ key input, (digest key input).length = CONTROL_AUTH_TAG_LENGTH

/-! ## Wire constants -/

def MAGIC : Bytes := [0x53, 0x4b]

def PROTOCOL_VERSION : UInt8 := 3

def HEADER_SIZE : ℕ := 15

inductive PacketType
  | data
  | ack
  | nak
  | heartbeat
  | hello
  | metadata
  | metaRequest
  | fullStatusRequest
  deriving DecidableEq

namespace PacketType

/-- The byte of a packet type. -/
def code : PacketType → UInt8
  | data => 0x01
  | ack => 0x02
  | nak => 0x03
  | heartbeat => 0x04
  | hello => 0x05
  | metadata => 0x06
  | metaRequest => 0x07
  | fullStatusRequest => 0x08

/-- The packet type of a byte, when it is a valid one. -/
def ofCode? (byte : UInt8) : Option PacketType :=
  [data, ack, nak, heartbeat, hello, metadata, metaRequest, fullStatusRequest].find?
    (·.code = byte)

/-- DATA and METADATA carry ciphertext; every other packet is a control packet. -/
def isDataOrMeta (type : PacketType) : Bool := type = data ∨ type = metadata

theorem ofCode?_code (type : PacketType) : ofCode? type.code = some type := by
  cases type <;> rfl

theorem code_of_ofCode? {byte : UInt8} {type : PacketType} (h : ofCode? byte = some type) :
    type.code = byte := by
  rw [ofCode?] at h
  simpa using List.find?_some h

end PacketType

/-- The flags that describe the content of a packet. -/
structure ContentFlags where
  compressed : Bool := false
  encrypted : Bool := false
  messagepack : Bool := false
  pathDictionary : Bool := false
  deriving DecidableEq

/-- The flags of a header. -/
structure HeaderFlags extends ContentFlags where
  authenticatedHeader : Bool
  epochBoundAuth : Bool
  deriving DecidableEq

/-- The flag byte. -/
def buildFlagByte (flags : ContentFlags) (authenticateHeader epochBoundAuth : Bool) : UInt8 :=
  (if flags.compressed then 0x01 else 0) ||| (if flags.encrypted then 0x02 else 0) |||
    (if flags.messagepack then 0x04 else 0) ||| (if flags.pathDictionary then 0x08 else 0) |||
    (if authenticateHeader then 0x10 else 0) ||| (if epochBoundAuth then 0x20 else 0)

/-- The flags of a flag byte. -/
def parseFlagByte (flagByte : UInt8) : HeaderFlags where
  compressed := flagByte &&& 0x01 ≠ 0
  encrypted := flagByte &&& 0x02 ≠ 0
  messagepack := flagByte &&& 0x04 ≠ 0
  pathDictionary := flagByte &&& 0x08 ≠ 0
  authenticatedHeader := flagByte &&& 0x10 ≠ 0
  epochBoundAuth := flagByte &&& 0x20 ≠ 0

theorem parseFlagByte_buildFlagByte (flags : ContentFlags) (authenticateHeader epochBoundAuth : Bool) :
    parseFlagByte (buildFlagByte flags authenticateHeader epochBoundAuth) =
      ⟨flags, authenticateHeader, epochBoundAuth⟩ := by
  obtain ⟨c, e, m, p⟩ := flags
  revert c e m p authenticateHeader epochBoundAuth
  decide

/-- An entry of the table of the CRC with polynomial `0x1021`. -/
def crc16Entry (i : UInt8) : BitVec 16 :=
  (List.range 8).foldl (fun crc _ => if crc.msb then (crc <<< 1) ^^^ 0x1021 else crc <<< 1)
    (BitVec.ofNat 16 i.toNat <<< 8)

/-- CRC16-CCITT. -/
def crc16 (data : Bytes) : BitVec 16 :=
  data.foldl (fun crc b => (crc <<< 8) ^^^ crc16Entry (UInt8.ofNat (crc >>> 8).toNat ^^^ b)) 0xffff

/-- The check value of this CRC. -/
example : crc16 [0x31, 0x32, 0x33, 0x34, 0x35, 0x36, 0x37, 0x38, 0x39] = 0x29b1 := by
  decide +kernel

/-- What builder and parser throw. -/
inductive PacketError
  | unsupportedProtocolVersion
  | lengthOutOfRange
  | controlKeyRequired
  | headerKeyRequired
  | tooSmall (length : ℕ)
  | invalidMagic
  | unsupportedVersion (version : UInt8)
  | unknownType (type : UInt8)
  | crcMismatch (expected actual : BitVec 16)
  | lengthMismatch (header actual : ℕ)
  | headerFlagMissing
  | dataTagMissing
  | controlTagMissing
  | epochFlagMissing
  | peerEpochMissing
  | authenticationFailed
  | ackTooSmall
  | nakLength
  deriving DecidableEq

/-! ## The authentication tag -/

/-- A connection epoch to which a tag can be bound. -/
def bindableEpoch? (epoch : Option ℚ) : Option ℚ := epoch.filter (0 < ·)

theorem bindableEpoch?_of_pos {epoch : ℚ} (h : 0 < epoch) :
    bindableEpoch? (some epoch) = some epoch := by
  rw [bindableEpoch?, Option.filter_some, if_pos (decide_eq_true h)]

@[simp] theorem bindableEpoch?_zero : bindableEpoch? (some 0) = none := rfl

/-- An epoch as the tag covers it, in 64 bits. -/
def epochBytes (epoch : ℚ) : Bytes := toBE 8 (⌊epoch⌋ % 2 ^ 64).toNat

/-- The bytes that a tag covers. -/
def tagInput (header payload : Bytes) (epoch : Option ℚ) : Bytes :=
  header ++ payload ++ ((bindableEpoch? epoch).map epochBytes).getD []

variable {K : Type}

def createControlPacketAuthTag (hmac : Hmac K) (header payload : Bytes) (secretKey : K)
    (epoch : Option ℚ) : Bytes :=
  hmac.digest secretKey (tagInput header payload epoch)

def verifyControlPacketAuthTag (hmac : Hmac K) (header payload authTag : Bytes) (secretKey : K)
    (epoch : Option ℚ) : Except PacketError Unit :=
  if authTag.length ≠ CONTROL_AUTH_TAG_LENGTH then .error .controlTagMissing
  else if createControlPacketAuthTag hmac header payload secretKey epoch = authTag then .ok ()
  else .error .authenticationFailed

/-! ## The builder -/

structure PacketBuilder (K : Type) where
  sequence : Seq
  metaSequence : Seq
  secretKey : Option K
  authenticatedHeaders : Bool
  epochBoundAuth : Bool
  connectionEpoch : ℚ
  deriving DecidableEq

/-- The options of one packet. -/
structure BuildOptions (K : Type) where
  secretKey : Option K := none
  protocolVersion : Option ℕ := none
  sequence : Option Seq := none

def normalizeProtocolVersion (version : Option ℕ) : Except PacketError UInt8 :=
  match version with
  | none => .ok PROTOCOL_VERSION
  | some version => if version = 3 then .ok PROTOCOL_VERSION else .error .unsupportedProtocolVersion

/-- The header before its CRC. -/
def headerBytes (version : UInt8) (type : PacketType) (flagByte : UInt8) (sequence : Seq)
    (length : ℕ) : Bytes :=
  MAGIC ++ [version, type.code, flagByte] ++ toBE 4 sequence.toNat ++ toBE 4 length

namespace PacketBuilder

/-- The epoch to bind into the tag, `0` when epoch binding is off or there is none. -/
def bindableEpoch (b : PacketBuilder K) : ℚ :=
  if b.epochBoundAuth ∧ 0 < b.connectionEpoch then b.connectionEpoch else 0

/-- The payload with its tag. `header` is the header as a function of the length in it. -/
def appendAuthTag (hmac : Hmac K) (b : PacketBuilder K) (header : ℕ → Bytes) (payload : Bytes)
    (isControl : Bool) (options : BuildOptions K) (boundEpoch : ℚ) : Except PacketError Bytes :=
  match options.secretKey.or b.secretKey with
  | none => .error (if isControl then .controlKeyRequired else .headerKeyRequired)
  | some secretKey =>
    let length := payload.length + CONTROL_AUTH_TAG_LENGTH
    if 2 ^ 32 ≤ length then .error .lengthOutOfRange
    else .ok (payload ++
      createControlPacketAuthTag hmac (header length) payload secretKey (some boundEpoch))

/-- Build a packet with its header. -/
def buildPacket (hmac : Hmac K) (b : PacketBuilder K) (type : PacketType) (payload : Bytes)
    (flags : ContentFlags) (options : BuildOptions K) : Except PacketError Bytes := do
  let version ← normalizeProtocolVersion options.protocolVersion
  let sequence := options.sequence.getD b.sequence
  let authenticateHeader := b.authenticatedHeaders && type.isDataOrMeta
  let boundEpoch := if type = .hello then 0 else b.bindableEpoch
  let flagByte := buildFlagByte flags authenticateHeader (0 < boundEpoch)
  let isControl := !type.isDataOrMeta
  let header := headerBytes version type flagByte sequence
  let finalPayload ←
    if isControl || authenticateHeader then
      b.appendAuthTag hmac header payload isControl options boundEpoch
    else pure payload
  if 2 ^ 32 ≤ finalPayload.length then throw .lengthOutOfRange
  let header := header finalPayload.length
  return header ++ toBE 2 (crc16 header).toNat ++ finalPayload

end PacketBuilder

/-- What a HELLO says. -/
structure HelloPayload where
  protocolVersion : Option ℕ := none
  clientId : String := ""
  instanceId : String := ""
  timestamp : ℚ
  capabilities : List String :=
    ["compression", "encryption", "reliability", "authenticated-control"]
  epoch : Option ℚ := none

/-- The JSON object of a HELLO. -/
def HelloPayload.toJs (info : HelloPayload) : JsValue :=
  let number := fun q => JsValue.num (.finite q)
  .obj ([("protocolVersion", number 3), ("clientId", .str info.clientId),
      ("timestamp", number info.timestamp), ("capabilities", .arr (info.capabilities.map .str))] ++
    (if info.instanceId = "" then [] else [("instanceId", .str info.instanceId)]) ++
    (info.epoch.toList.map fun epoch => ("epoch", number epoch)))

/-- The bytes of a HELLO's payload. -/
def HelloPayload.bytes (numberToString : ℚ → String) (info : HelloPayload) : Bytes :=
  (info.toJs.jsonText numberToString).toUTF8.toList

/-- A packet that the builder can be asked for, with its options. -/
inductive PacketRequest (K : Type)
  | data (payload : Bytes) (flags : ContentFlags)
  | metadata (payload : Bytes) (flags : ContentFlags)
  | metaRequest (options : BuildOptions K)
  | fullStatusRequest (options : BuildOptions K)
  | ack (ackedSequence : Seq) (receiveWindow : Option Seq) (options : BuildOptions K)
  | nak (missingSequences : List Seq) (options : BuildOptions K)
  | heartbeat (options : BuildOptions K)
  | hello (info : HelloPayload) (options : BuildOptions K)

/-- A sequence number as four bytes. -/
def uint32BE (n : Seq) : Bytes := toBE 4 n.toNat

namespace PacketBuilder

variable (hmac : Hmac K) (numberToString : ℚ → String)

def buildDataPacket (b : PacketBuilder K) (payload : Bytes) (flags : ContentFlags) :
    Except PacketError (Bytes × PacketBuilder K) := do
  let packet ← b.buildPacket hmac .data payload flags {}
  return (packet, { b with sequence := b.sequence + 1 })

def buildMetadataPacket (b : PacketBuilder K) (payload : Bytes) (flags : ContentFlags) :
    Except PacketError (Bytes × PacketBuilder K) := do
  let packet ← b.buildPacket hmac .metadata payload flags { sequence := some b.metaSequence }
  return (packet, { b with metaSequence := b.metaSequence + 1 })

def buildMetaRequestPacket (b : PacketBuilder K) (options : BuildOptions K) :
    Except PacketError Bytes :=
  b.buildPacket hmac .metaRequest [] {} { options with sequence := none }

def buildFullStatusRequestPacket (b : PacketBuilder K) (options : BuildOptions K) :
    Except PacketError Bytes :=
  b.buildPacket hmac .fullStatusRequest [] {} { options with sequence := none }

def buildACKPacket (b : PacketBuilder K) (ackedSequence : Seq) (receiveWindow : Option Seq)
    (options : BuildOptions K) : Except PacketError Bytes :=
  let payload := uint32BE ackedSequence ++ (receiveWindow.map uint32BE).getD []
  b.buildPacket hmac .ack payload {} { options with sequence := none }

def buildNAKPacket (b : PacketBuilder K) (missingSequences : List Seq) (options : BuildOptions K) :
    Except PacketError Bytes :=
  let payload := missingSequences.flatMap uint32BE
  b.buildPacket hmac .nak payload {} { options with sequence := none }

def buildHeartbeatPacket (b : PacketBuilder K) (options : BuildOptions K) :
    Except PacketError Bytes :=
  b.buildPacket hmac .heartbeat [] {} { options with sequence := none }

def buildHelloPacket (b : PacketBuilder K) (info : HelloPayload) (options : BuildOptions K) :
    Except PacketError Bytes := do
  let _ ← normalizeProtocolVersion (options.protocolVersion.or info.protocolVersion)
  b.buildPacket hmac .hello (info.bytes numberToString) {} { options with sequence := none }

/-- The builder's answer to a request, and the builder afterwards. -/
def build (b : PacketBuilder K) (r : PacketRequest K) :
    Except PacketError (Bytes × PacketBuilder K) :=
  match r with
  | .data payload flags => b.buildDataPacket hmac payload flags
  | .metadata payload flags => b.buildMetadataPacket hmac payload flags
  | .metaRequest options => (·, b) <$> b.buildMetaRequestPacket hmac options
  | .fullStatusRequest options => (·, b) <$> b.buildFullStatusRequestPacket hmac options
  | .ack acked window options => (·, b) <$> b.buildACKPacket hmac acked window options
  | .nak missing options => (·, b) <$> b.buildNAKPacket hmac missing options
  | .heartbeat options => (·, b) <$> b.buildHeartbeatPacket hmac options
  | .hello info options => (·, b) <$> b.buildHelloPacket hmac numberToString info options

end PacketBuilder

/-! ## The parser -/

structure PacketParser (K : Type) where
  secretKey : Option K
  authenticatedHeaders : Bool
  epochBoundAuth : Bool

/-- The options of one parse. -/
structure ParseOptions (K : Type) where
  secretKey : Option K := none
  authenticatedHeaders : Option Bool := none
  epochBoundAuth : Option Bool := none
  epoch : Option ℚ := none

structure ParsedPacket where
  version : UInt8
  type : PacketType
  flags : HeaderFlags
  sequence : Seq
  payloadLength : ℕ
  payload : Bytes
  deriving DecidableEq

/-- The bytes from `start` up to `stop`. -/
def subarray (packet : Bytes) (start stop : ℕ) : Bytes := (packet.drop start).take (stop - start)

/-- The fields of the header; the payload is not looked at. -/
def parseHeaderFields (packet : Bytes) : Except PacketError ParsedPacket := do
  if packet.getD 0 0 ≠ 0x53 ∨ packet.getD 1 0 ≠ 0x4b then throw .invalidMagic
  let version := packet.getD 2 0
  if version ≠ PROTOCOL_VERSION then throw (.unsupportedVersion version)
  match PacketType.ofCode? (packet.getD 3 0) with
  | none => throw (.unknownType (packet.getD 3 0))
  | some type => return {
      version, type
      flags := parseFlagByte (packet.getD 4 0)
      sequence := BitVec.ofNat 32 (ofBE (subarray packet 5 9))
      payloadLength := ofBE (subarray packet 9 13)
      payload := packet.drop HEADER_SIZE }

/-- The CRC and the length in the header are those of the packet. -/
def validateHeaderIntegrity (packet : Bytes) (payloadLength : ℕ) : Except PacketError Unit := do
  let expectedCRC := crc16 (packet.take 13)
  let actualCRC := BitVec.ofNat 16 (ofBE (subarray packet 13 15))
  if expectedCRC ≠ actualCRC then throw (.crcMismatch expectedCRC actualCRC)
  if payloadLength ≠ packet.length - HEADER_SIZE then
    throw (.lengthMismatch payloadLength (packet.length - HEADER_SIZE))

namespace PacketParser

/-- The epoch, if any, to which the tag must be bound. -/
def resolveAuthEpoch (p : PacketParser K) (flags : HeaderFlags) (options : ParseOptions K) :
    Except PacketError (Option ℚ) :=
  let known := match bindableEpoch? options.epoch with
    | none => .error .peerEpochMissing
    | some epoch => .ok (some epoch)
  if ¬ options.epochBoundAuth.getD p.epochBoundAuth then
    if ¬ flags.epochBoundAuth then .ok none else known
  else if ¬ flags.epochBoundAuth then .error .epochFlagMissing
  else known

/-- Check the tag at the end of a payload against an epoch, and take it off. -/
def stripTag (hmac : Hmac K) (p : PacketParser K) (packet payload : Bytes)
    (options : ParseOptions K) (epoch : Option ℚ) (keyMissing : PacketError) :
    Except PacketError Bytes := do
  let payloadData := payload.take (payload.length - CONTROL_AUTH_TAG_LENGTH)
  let authTag := payload.drop (payload.length - CONTROL_AUTH_TAG_LENGTH)
  match options.secretKey.or p.secretKey with
  | none => throw keyMissing
  | some secretKey =>
    verifyControlPacketAuthTag hmac (packet.take 13) payloadData authTag secretKey epoch
    return payloadData

def stripDataMetaAuthTag (hmac : Hmac K) (p : PacketParser K) (packet payload : Bytes)
    (flags : HeaderFlags) (options : ParseOptions K) : Except PacketError Bytes := do
  if ¬ flags.authenticatedHeader then throw .headerFlagMissing
  let epoch ← p.resolveAuthEpoch flags options
  if payload.length < CONTROL_AUTH_TAG_LENGTH then throw .dataTagMissing
  p.stripTag hmac packet payload options epoch .headerKeyRequired

def stripControlAuthTag (hmac : Hmac K) (p : PacketParser K) (packet payload : Bytes)
    (flags : HeaderFlags) (options : ParseOptions K) : Except PacketError Bytes := do
  if payload.length < CONTROL_AUTH_TAG_LENGTH then throw .controlTagMissing
  let epoch ← p.resolveAuthEpoch flags options
  p.stripTag hmac packet payload options epoch .controlKeyRequired

/-- Parse a packet and authenticate it. -/
def parseHeader (hmac : Hmac K) (p : PacketParser K) (packet : Bytes) (options : ParseOptions K) :
    Except PacketError ParsedPacket := do
  if packet.length < HEADER_SIZE then throw (.tooSmall packet.length)
  let fields ← parseHeaderFields packet
  validateHeaderIntegrity packet fields.payloadLength
  let authOptions :=
    if fields.type = .hello then { options with epochBoundAuth := some false } else options
  let payload ←
    if fields.type.isDataOrMeta then
      if options.authenticatedHeaders.getD p.authenticatedHeaders then
        p.stripDataMetaAuthTag hmac packet fields.payload fields.flags authOptions
      else pure fields.payload
    else p.stripControlAuthTag hmac packet fields.payload fields.flags authOptions
  return { fields with payload }

def parseACKPayload (payload : Bytes) : Except PacketError Seq :=
  if payload.length < 4 then .error .ackTooSmall
  else .ok (BitVec.ofNat 32 (ofBE (subarray payload 0 4)))

/-- The numbers in groups of four bytes. -/
def readUInt32s (payload : Bytes) : ℕ → List Seq
  | 0 => []
  | n + 1 => BitVec.ofNat 32 (ofBE (payload.take 4)) :: readUInt32s (payload.drop 4) n

def parseNAKPayload (payload : Bytes) : Except PacketError (List Seq) :=
  if payload.length % 4 ≠ 0 then .error .nakLength
  else .ok (readUInt32s payload (payload.length / 4))

end PacketParser

end EdgeLink
