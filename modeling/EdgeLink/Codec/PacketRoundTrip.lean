import EdgeLink.Codec.Packet

/-!
# The packet round trip

What the parser makes of what the builder built.

* `parseHeaderFields_framed`, `validateHeaderIntegrity_framed`: the header of a built packet is read
  back.
* `parse_build`: with the same key and the same settings on both sides, the parser returns what was
  given to the builder, whatever the kind of packet.
-/

namespace EdgeLink

open Serial

variable {K : Type}

/-! ## Slices -/

theorem subarray_append {a b c : Bytes} {i j : ℕ} (ha : a.length = i) (hb : i + b.length = j) :
    subarray (a ++ (b ++ c)) i j = b := by
  rw [subarray, List.drop_left' ha, List.take_left' (by omega)]

theorem length_uint32BE (n : Seq) : (uint32BE n).length = 4 := length_toBE 4 _

theorem ofNat_ofBE_toBE {w k : ℕ} (n : BitVec k) (h : 2 ^ k = 256 ^ w) :
    BitVec.ofNat k (ofBE (toBE w n.toNat)) = n := by
  rw [ofBE_toBE (h ▸ n.isLt), BitVec.ofNat_toNat, BitVec.setWidth_eq]

theorem ofNat_ofBE_uint32BE (n : Seq) : BitVec.ofNat 32 (ofBE (uint32BE n)) = n :=
  ofNat_ofBE_toBE n (by decide)

/-! ## The header -/

/-- A header with its CRC, and what follows it. -/
def framed (header body : Bytes) : Bytes := header ++ toBE 2 (crc16 header).toNat ++ body

section Header

variable {version flagByte : UInt8} {type : PacketType} {sequence : Seq} {body : Bytes}

theorem length_headerBytes (version : UInt8) (type : PacketType) (flagByte : UInt8) (sequence : Seq)
    (length : ℕ) : (headerBytes version type flagByte sequence length).length = 13 := by
  simp only [headerBytes, List.length_append, length_toBE]
  rfl

theorem length_framed {header : Bytes} (h : header.length = 13) (body : Bytes) :
    (framed header body).length = HEADER_SIZE + body.length := by
  rw [framed, List.length_append, List.length_append, length_toBE, h]
  rfl

theorem take_framed {header : Bytes} (h : header.length = 13) (body : Bytes) :
    (framed header body).take 13 = header := by
  rw [framed, List.append_assoc, List.take_left' h]

theorem drop_framed {header : Bytes} (h : header.length = 13) (body : Bytes) :
    (framed header body).drop HEADER_SIZE = body := by
  rw [framed, List.drop_left']
  rw [List.length_append, length_toBE, h]
  rfl

theorem parseHeaderFields_framed (hlen : body.length < 2 ^ 32) :
    parseHeaderFields (framed (headerBytes PROTOCOL_VERSION type flagByte sequence body.length) body) =
      .ok ⟨PROTOCOL_VERSION, type, parseFlagByte flagByte, sequence, body.length, body⟩ := by
  set packet := framed (headerBytes PROTOCOL_VERSION type flagByte sequence body.length) body
    with hpacket
  have hdrop : packet.drop HEADER_SIZE = body := drop_framed (length_headerBytes ..) body
  have hsplit : packet = [0x53, 0x4b, PROTOCOL_VERSION, type.code, flagByte] ++
      (toBE 4 sequence.toNat ++ (toBE 4 body.length ++
        (toBE 2 (crc16 (headerBytes PROTOCOL_VERSION type flagByte sequence body.length)).toNat ++
          body))) := by
    rw [hpacket, framed]
    simp only [headerBytes, List.append_assoc]
    rfl
  have hsequence : subarray packet 5 9 = toBE 4 sequence.toNat := by
    rw [hsplit]
    exact subarray_append rfl (by rw [length_toBE])
  have hlength : subarray packet 9 13 = toBE 4 body.length := by
    rw [hsplit, ← List.append_assoc]
    exact subarray_append (by rw [List.length_append, length_toBE]; rfl) (by rw [length_toBE])
  have hcode : packet.getD 3 0 = type.code := by rw [hsplit]; rfl
  have hflag : packet.getD 4 0 = flagByte := by rw [hsplit]; rfl
  have hversion : packet.getD 2 0 = PROTOCOL_VERSION := by rw [hsplit]; rfl
  have hmagic : ¬ (packet.getD 0 0 ≠ 0x53 ∨ packet.getD 1 0 ≠ 0x4b) := by
    rw [hsplit]
    exact fun h => h.elim (fun h0 => h0 rfl) fun h1 => h1 rfl
  have hbound : body.length < 256 ^ 4 := hlen
  rw [parseHeaderFields, if_neg hmagic, hversion, hcode, hflag, hsequence, hlength, hdrop,
    ofNat_ofBE_toBE sequence (by decide), ofBE_toBE hbound, PacketType.ofCode?_code]
  rfl

theorem validateHeaderIntegrity_framed {header : Bytes} (h : header.length = 13) (body : Bytes) :
    validateHeaderIntegrity (framed header body) body.length = .ok () := by
  have hcrc : subarray (framed header body) 13 15 = toBE 2 (crc16 header).toNat := by
    rw [framed, List.append_assoc, subarray_append h (by rw [length_toBE])]
  rw [validateHeaderIntegrity, take_framed h, hcrc, ofNat_ofBE_toBE _ (by decide), length_framed h,
    Nat.add_sub_cancel_left]
  simp only [ne_eq, not_true_eq_false, if_false]
  rfl

end Header

/-! ## What the builder puts into a packet -/

namespace PacketBuilder

/-- The epoch to which a packet of a type is bound, `0` for none. -/
def boundEpoch (b : PacketBuilder K) (type : PacketType) : ℚ :=
  if type = .hello then 0 else b.bindableEpoch

/-- The flag byte of a packet. -/
def flagByte (b : PacketBuilder K) (type : PacketType) (flags : ContentFlags) : UInt8 :=
  buildFlagByte flags (b.authenticatedHeaders && type.isDataOrMeta) (0 < b.boundEpoch type)

/-- Whether a packet ends with a tag. -/
def authenticates (b : PacketBuilder K) (type : PacketType) : Bool :=
  !type.isDataOrMeta || b.authenticatedHeaders && type.isDataOrMeta

/-- The first 13 bytes of a packet whose payload on the wire has a length. -/
def header (b : PacketBuilder K) (type : PacketType) (flags : ContentFlags) (sequence : Seq)
    (length : ℕ) : Bytes :=
  headerBytes PROTOCOL_VERSION type (b.flagByte type flags) sequence length

/-- The header that the tag of a packet covers. -/
def taggedHeader (b : PacketBuilder K) (type : PacketType) (flags : ContentFlags) (sequence : Seq)
    (payload : Bytes) : Bytes :=
  b.header type flags sequence (payload.length + CONTROL_AUTH_TAG_LENGTH)

/-- The payload on the wire. -/
def body (hmac : Hmac K) (b : PacketBuilder K) (type : PacketType) (flags : ContentFlags)
    (sequence : Seq) (payload : Bytes) (key : K) : Bytes :=
  if b.authenticates type then
    payload ++ createControlPacketAuthTag hmac (b.taggedHeader type flags sequence payload) payload
      key (some (b.boundEpoch type))
  else payload

variable {hmac : Hmac K} {b : PacketBuilder K} {type : PacketType} {payload : Bytes}
  {flags : ContentFlags} {options : BuildOptions K} {key : K}

theorem length_tag (hmac : Hmac K) (header payload : Bytes) (key : K) (epoch : Option ℚ) :
    (createControlPacketAuthTag hmac header payload key epoch).length = CONTROL_AUTH_TAG_LENGTH :=
  hmac.length_digest key _

theorem length_body_le (hmac : Hmac K) (b : PacketBuilder K) (type : PacketType)
    (flags : ContentFlags) (sequence : Seq) (payload : Bytes) (key : K) :
    (b.body hmac type flags sequence payload key).length ≤
      payload.length + CONTROL_AUTH_TAG_LENGTH := by
  rw [body]
  split_ifs
  · rw [List.length_append, length_tag]
  · exact Nat.le_add_right ..

/-- **What the builder builds**: the header, sealed, and the payload with its tag. -/
theorem buildPacket_eq (hversion : options.protocolVersion = none ∨ options.protocolVersion = some 3)
    (hkey : options.secretKey.or b.secretKey = some key)
    (hlen : payload.length + CONTROL_AUTH_TAG_LENGTH < 2 ^ 32) :
    b.buildPacket hmac type payload flags options =
      let sequence := options.sequence.getD b.sequence
      let body := b.body hmac type flags sequence payload key
      .ok (framed (b.header type flags sequence body.length) body) := by
  have hnormal : normalizeProtocolVersion options.protocolVersion = .ok PROTOCOL_VERSION := by
    rcases hversion with h | h <;> rw [h] <;> rfl
  have hbody := length_body_le hmac b type flags (options.sequence.getD b.sequence) payload key
  have hfinal : ¬ 2 ^ 32 ≤
      (b.body hmac type flags (options.sequence.getD b.sequence) payload key).length := by omega
  rw [buildPacket, hnormal]
  dsimp only [bind, Except.bind]
  by_cases htag : b.authenticates type = true
  · rw [authenticates] at htag
    have happend : b.appendAuthTag hmac
        (headerBytes PROTOCOL_VERSION type
          (buildFlagByte flags (b.authenticatedHeaders && type.isDataOrMeta)
            (0 < if type = .hello then 0 else b.bindableEpoch))
          (options.sequence.getD b.sequence)) payload (!type.isDataOrMeta) options
        (if type = .hello then 0 else b.bindableEpoch) =
          .ok (b.body hmac type flags (options.sequence.getD b.sequence) payload key) := by
      rw [appendAuthTag, hkey]
      dsimp only
      rw [if_neg (by omega), body, authenticates, if_pos htag]
      rfl
    rw [if_pos htag, happend]
    dsimp only
    rw [if_neg hfinal]
    rfl
  · have hpayload : b.body hmac type flags (options.sequence.getD b.sequence) payload key =
        payload := by
      rw [body, if_neg htag]
    rw [hpayload] at hfinal ⊢
    rw [authenticates] at htag
    rw [if_neg htag]
    dsimp only [pure, Except.pure]
    rw [if_neg hfinal]
    rfl

end PacketBuilder

/-! ## What the parser makes of it -/

/-- A builder and a parser, with the options of a parse, agree on the settings. -/
structure Agree (b : PacketBuilder K) (p : PacketParser K) (options : ParseOptions K) : Prop where
  authenticatedHeaders :
    options.authenticatedHeaders.getD p.authenticatedHeaders = b.authenticatedHeaders
  epochBoundAuth : options.epochBoundAuth.getD p.epochBoundAuth = b.epochBoundAuth
  epoch : b.epochBoundAuth = true → 0 < b.connectionEpoch ∧ options.epoch = some b.connectionEpoch

namespace PacketParser

variable {hmac : Hmac K} {b : PacketBuilder K} {p : PacketParser K} {type : PacketType}
  {flags : ContentFlags} {options : ParseOptions K} {payload : Bytes} {sequence : Seq} {key : K}

/-- The options with which the tag is checked. -/
def authOptions (type : PacketType) (options : ParseOptions K) : ParseOptions K :=
  if type = .hello then { options with epochBoundAuth := some false } else options

theorem secretKey_authOptions (type : PacketType) (options : ParseOptions K) :
    (authOptions type options).secretKey = options.secretKey := by
  rw [authOptions]
  split_ifs <;> rfl

/-- The parser looks for the epoch that the builder has bound. -/
theorem resolveAuthEpoch_eq (h : Agree b p options) :
    p.resolveAuthEpoch (parseFlagByte (b.flagByte type flags)) (authOptions type options) =
      .ok (bindableEpoch? (some (b.boundEpoch type))) := by
  rw [PacketBuilder.flagByte, parseFlagByte_buildFlagByte]
  by_cases hhello : type = .hello
  · simp [resolveAuthEpoch, authOptions, PacketBuilder.boundEpoch, hhello]
  cases hbind : b.epochBoundAuth with
  | false =>
    simp [resolveAuthEpoch, authOptions, PacketBuilder.boundEpoch, hhello, h.epochBoundAuth, hbind,
      PacketBuilder.bindableEpoch]
  | true =>
    obtain ⟨hpos, hepoch⟩ := h.epoch hbind
    simp [resolveAuthEpoch, authOptions, PacketBuilder.boundEpoch, hhello, h.epochBoundAuth, hbind,
      PacketBuilder.bindableEpoch, hepoch, hpos, bindableEpoch?_of_pos]

theorem tagInput_bindable (header payload : Bytes) (epoch : Option ℚ) :
    tagInput header payload (bindableEpoch? epoch) = tagInput header payload epoch := by
  rw [tagInput, tagInput, bindableEpoch?, bindableEpoch?, Option.filter_filter]
  simp only [Bool.and_self]

/-- A tag that was made for the payload is taken off. -/
theorem stripTag_append {packet header : Bytes} {epoch : Option ℚ} {e : PacketError}
    (hheader : packet.take 13 = header) (hkey : options.secretKey.or p.secretKey = some key) :
    p.stripTag hmac packet
      (payload ++ createControlPacketAuthTag hmac header payload key epoch) options epoch e =
        .ok payload := by
  have hlen := PacketBuilder.length_tag hmac header payload key epoch
  have hcut : (payload ++ createControlPacketAuthTag hmac header payload key epoch).length -
      CONTROL_AUTH_TAG_LENGTH = payload.length := by
    rw [List.length_append, hlen, Nat.add_sub_cancel]
  rw [stripTag, hcut, hkey, List.take_left' rfl, List.drop_left' rfl, hheader]
  dsimp only
  rw [verifyControlPacketAuthTag, if_neg (not_not.2 hlen), if_pos rfl]
  rfl

/-- The tag of an authenticated payload is checked and taken off. -/
theorem stripTag_body (hmac : Hmac K) (flags : ContentFlags) (sequence : Seq) (payload : Bytes)
    (hkey : options.secretKey.or p.secretKey = some key) (htag : b.authenticates type = true)
    (e : PacketError) :
    let body := b.body hmac type flags sequence payload key
    CONTROL_AUTH_TAG_LENGTH ≤ body.length ∧
      p.stripTag hmac (framed (b.header type flags sequence body.length) body) body
        (authOptions type options) (bindableEpoch? (some (b.boundEpoch type))) e = .ok payload := by
  have hbody : b.body hmac type flags sequence payload key =
      payload ++ createControlPacketAuthTag hmac (b.taggedHeader type flags sequence payload)
        payload key (bindableEpoch? (some (b.boundEpoch type))) := by
    rw [PacketBuilder.body, if_pos htag, createControlPacketAuthTag, createControlPacketAuthTag,
      tagInput_bindable]
  have hlen : (b.body hmac type flags sequence payload key).length =
      payload.length + CONTROL_AUTH_TAG_LENGTH := by
    rw [hbody, List.length_append, PacketBuilder.length_tag]
  have hkey' : (authOptions type options).secretKey.or p.secretKey = some key := by
    rw [secretKey_authOptions, hkey]
  refine ⟨by rw [hlen]; exact Nat.le_add_left .., ?_⟩
  rw [hlen]
  have htake := take_framed (length_headerBytes PROTOCOL_VERSION type (b.flagByte type flags)
    sequence (payload.length + CONTROL_AUTH_TAG_LENGTH))
    (b.body hmac type flags sequence payload key)
  rw [PacketBuilder.header]
  generalize framed _ (b.body hmac type flags sequence payload key) = packet at htake ⊢
  rw [hbody]
  exact stripTag_append htake hkey'

/-- The packet that carries a payload. -/
theorem stripControlAuthTag_body (h : Agree b p options)
    (hkey : options.secretKey.or p.secretKey = some key) (htag : b.authenticates type = true) :
    let body := b.body hmac type flags sequence payload key
    p.stripControlAuthTag hmac (framed (b.header type flags sequence body.length) body) body
      (parseFlagByte (b.flagByte type flags)) (authOptions type options) = .ok payload := by
  obtain ⟨hlen, hstrip⟩ := stripTag_body hmac flags sequence payload hkey htag
    .controlKeyRequired
  dsimp only
  rw [stripControlAuthTag, if_neg (not_lt.2 hlen), resolveAuthEpoch_eq h]
  exact hstrip

theorem stripDataMetaAuthTag_body (h : Agree b p options)
    (hkey : options.secretKey.or p.secretKey = some key) (htag : b.authenticates type = true)
    (hflag : (parseFlagByte (b.flagByte type flags)).authenticatedHeader = true) :
    let body := b.body hmac type flags sequence payload key
    p.stripDataMetaAuthTag hmac (framed (b.header type flags sequence body.length) body) body
      (parseFlagByte (b.flagByte type flags)) (authOptions type options) = .ok payload := by
  obtain ⟨hlen, hstrip⟩ := stripTag_body hmac flags sequence payload hkey htag
    .headerKeyRequired
  dsimp only
  rw [stripDataMetaAuthTag, if_neg (not_not.2 hflag), resolveAuthEpoch_eq h]
  dsimp only [bind, Except.bind]
  rw [if_neg (not_lt.2 hlen)]
  exact hstrip

/-- **A packet is read back**: the parser returns what was given to the builder. -/
theorem parseHeader_framed (h : Agree b p options) (hkey : options.secretKey.or p.secretKey = some key)
    (hlen : payload.length + CONTROL_AUTH_TAG_LENGTH < 2 ^ 32) :
    let body := b.body hmac type flags sequence payload key
    p.parseHeader hmac (framed (b.header type flags sequence body.length) body) options =
      .ok ⟨PROTOCOL_VERSION, type, parseFlagByte (b.flagByte type flags), sequence, body.length,
        payload⟩ := by
  dsimp only
  have hle := PacketBuilder.length_body_le hmac b type flags sequence payload key
  have hheader : (b.header type flags sequence
      (b.body hmac type flags sequence payload key).length).length = 13 := length_headerBytes ..
  have hlong : ¬ (framed (b.header type flags sequence
      (b.body hmac type flags sequence payload key).length)
      (b.body hmac type flags sequence payload key)).length < HEADER_SIZE := by
    rw [length_framed hheader]
    omega
  have hfields : parseHeaderFields (framed (b.header type flags sequence
      (b.body hmac type flags sequence payload key).length)
      (b.body hmac type flags sequence payload key)) = .ok ⟨PROTOCOL_VERSION, type,
        parseFlagByte (b.flagByte type flags), sequence,
        (b.body hmac type flags sequence payload key).length,
        b.body hmac type flags sequence payload key⟩ := parseHeaderFields_framed (by omega)
  rw [parseHeader, if_neg hlong, hfields]
  dsimp only [bind, Except.bind]
  rw [validateHeaderIntegrity_framed hheader]
  dsimp only
  rw [h.authenticatedHeaders, ← authOptions]
  cases hdata : type.isDataOrMeta with
  | false =>
    have htag : b.authenticates type = true := by rw [PacketBuilder.authenticates, hdata]; rfl
    rw [if_neg Bool.false_ne_true, stripControlAuthTag_body h hkey htag]
    rfl
  | true =>
    rw [if_pos rfl]
    cases hauth : b.authenticatedHeaders with
    | false =>
      have hbody : b.body hmac type flags sequence payload key = payload := by
        rw [PacketBuilder.body, PacketBuilder.authenticates, hdata, hauth]
        rfl
      rw [if_neg Bool.false_ne_true, hbody]
      rfl
    | true =>
      have htag : b.authenticates type = true := by
        rw [PacketBuilder.authenticates, hdata, hauth]
        rfl
      have hflag : (parseFlagByte (b.flagByte type flags)).authenticatedHeader = true := by
        rw [PacketBuilder.flagByte, parseFlagByte_buildFlagByte, hauth, hdata]
        rfl
      rw [if_pos rfl, stripDataMetaAuthTag_body h hkey htag hflag]
      rfl

theorem parseACKPayload_append (acked : Seq) (rest : Bytes) :
    parseACKPayload (uint32BE acked ++ rest) = .ok acked := by
  have hlen := length_uint32BE acked
  have hhead : subarray (uint32BE acked ++ rest) 0 4 = uint32BE acked := List.take_left' hlen
  rw [parseACKPayload, if_neg (by rw [List.length_append]; omega), hhead, ofNat_ofBE_uint32BE]

theorem readUInt32s_flatMap (missing : List Seq) :
    readUInt32s (missing.flatMap uint32BE) missing.length = missing := by
  induction missing with
  | nil => rfl
  | cons n missing ih =>
    rw [List.flatMap_cons, List.length_cons, readUInt32s, List.take_left' (length_uint32BE n),
      List.drop_left' (length_uint32BE n), ofNat_ofBE_uint32BE, ih]

theorem parseNAKPayload_flatMap (missing : List Seq) :
    parseNAKPayload (missing.flatMap uint32BE) = .ok missing := by
  have hlen : (missing.flatMap uint32BE).length = 4 * missing.length := by
    induction missing with
    | nil => rfl
    | cons n missing ih =>
      rw [List.flatMap_cons, List.length_append, ih, length_uint32BE, List.length_cons]
      omega
  rw [parseNAKPayload, hlen, if_neg (by omega), Nat.mul_div_cancel_left _ (by decide),
    readUInt32s_flatMap]

end PacketParser

/-! ## The requests -/

namespace PacketRequest

def type : PacketRequest K → PacketType
  | data .. => .data
  | metadata .. => .metadata
  | metaRequest _ => .metaRequest
  | fullStatusRequest _ => .fullStatusRequest
  | ack .. => .ack
  | nak .. => .nak
  | heartbeat _ => .heartbeat
  | hello .. => .hello

/-- The content flags asked for; control packets have none. -/
def flags : PacketRequest K → ContentFlags
  | data _ flags => flags
  | metadata _ flags => flags
  | _ => {}

/-- The logical payload. -/
def payload (numberToString : ℚ → String) : PacketRequest K → Bytes
  | data payload _ => payload
  | metadata payload _ => payload
  | ack acked window _ => uint32BE acked ++ (window.map uint32BE).getD []
  | nak missing _ => missing.flatMap uint32BE
  | hello info _ => info.bytes numberToString
  | _ => []

/-- The sequence number of the packet. -/
def sequence (b : PacketBuilder K) : PacketRequest K → Seq
  | metadata .. => b.metaSequence
  | _ => b.sequence

def options : PacketRequest K → BuildOptions K
  | data .. => {}
  | metadata .. => {}
  | metaRequest options => options
  | fullStatusRequest options => options
  | ack _ _ options => options
  | nak _ options => options
  | heartbeat options => options
  | hello _ options => options

/-- The options with which the packet itself is built. -/
def buildOptions (b : PacketBuilder K) : PacketRequest K → BuildOptions K
  | data .. => {}
  | metadata .. => { sequence := some b.metaSequence }
  | r => { r.options with sequence := none }

/-- The protocol versions that are asked for. -/
def protocolVersions : PacketRequest K → List ℕ
  | hello info options => options.protocolVersion.toList ++ info.protocolVersion.toList
  | r => r.options.protocolVersion.toList

/-- The builder after a request: the counter of the packet's own sequence space has moved on. -/
def advance (b : PacketBuilder K) : PacketRequest K → PacketBuilder K
  | data .. => { b with sequence := b.sequence + 1 }
  | metadata .. => { b with metaSequence := b.metaSequence + 1 }
  | _ => b

end PacketRequest

theorem normalizeProtocolVersion_of_forall {v : Option ℕ} (h : ∀ w ∈ v.toList, w = 3) :
    normalizeProtocolVersion v = .ok PROTOCOL_VERSION := by
  cases v with
  | none => rfl
  | some w => rw [h w List.mem_cons_self]; rfl

/-- Every method of the builder builds one packet and moves its counter on. -/
theorem build_eq_map (hmac : Hmac K) (numberToString : ℚ → String) (b : PacketBuilder K)
    (r : PacketRequest K) (hversion : ∀ v ∈ r.protocolVersions, v = 3) :
    b.build hmac numberToString r = (·, r.advance b) <$>
      b.buildPacket hmac r.type (r.payload numberToString) r.flags (r.buildOptions b) := by
  cases r with
  | hello info options =>
    have hnormal : normalizeProtocolVersion (options.protocolVersion.or info.protocolVersion) =
        .ok PROTOCOL_VERSION := by
      apply normalizeProtocolVersion_of_forall
      intro w hw
      apply hversion w
      cases ho : options.protocolVersion with
      | none =>
        rw [ho, Option.none_or] at hw
        exact List.mem_append_right _ hw
      | some v =>
        rw [ho, Option.some_or] at hw
        rw [PacketRequest.protocolVersions, ho]
        exact List.mem_append_left _ hw
    rw [PacketBuilder.build, PacketBuilder.buildHelloPacket, hnormal]
    rfl
  | _ => rfl

/-- What the builder answers to a request. -/
theorem build_eq (hmac : Hmac K) (numberToString : ℚ → String) (b : PacketBuilder K)
    (r : PacketRequest K) {key : K} (hkey : r.options.secretKey.or b.secretKey = some key)
    (hversion : ∀ v ∈ r.protocolVersions, v = 3)
    (hlen : (r.payload numberToString).length + CONTROL_AUTH_TAG_LENGTH < 2 ^ 32) :
    let body := b.body hmac r.type r.flags (r.sequence b) (r.payload numberToString) key
    b.build hmac numberToString r =
      .ok (framed (b.header r.type r.flags (r.sequence b) body.length) body, r.advance b) := by
  have hsequence : (r.buildOptions b).sequence.getD b.sequence = r.sequence b := by
    cases r <;> rfl
  have hsecret : (r.buildOptions b).secretKey.or b.secretKey = some key := by
    cases r <;> exact hkey
  have hnormal : (r.buildOptions b).protocolVersion = none ∨
      (r.buildOptions b).protocolVersion = some 3 := by
    have hmem : ∀ v, (r.buildOptions b).protocolVersion = some v → v = 3 := by
      intro v hv
      apply hversion v
      cases r with
      | data | metadata => cases hv
      | hello info options => exact List.mem_append_left _ (Option.mem_toList.2 hv)
      | _ => exact Option.mem_toList.2 hv
    cases hv : (r.buildOptions b).protocolVersion with
    | none => exact Or.inl rfl
    | some v => exact Or.inr (congrArg some (hmem v hv))
  rw [build_eq_map hmac numberToString b r hversion,
    PacketBuilder.buildPacket_eq hnormal hsecret hlen, hsequence]
  rfl

/-- **The packet round trip.** For a builder and a parser with the same key and the same settings,
the parser accepts whatever the builder builds and returns the type, the content flags, the sequence
number and the payload that were given, and the numbers of an ACK or a NAK. Only DATA moves the
DATA counter, and only METADATA the metadata counter. -/
theorem parse_build (hmac : Hmac K) (numberToString : ℚ → String) (b : PacketBuilder K)
    (p : PacketParser K) (options : ParseOptions K) (r : PacketRequest K) (key : K)
    (hkey : r.options.secretKey.or b.secretKey = some key)
    (hkey' : options.secretKey.or p.secretKey = some key) (h : Agree b p options)
    (hversion : ∀ v ∈ r.protocolVersions, v = 3)
    (hlen : (r.payload numberToString).length + CONTROL_AUTH_TAG_LENGTH < 2 ^ 32) :
    ∃ packet parsed, b.build hmac numberToString r = .ok (packet, r.advance b) ∧
      p.parseHeader hmac packet options = .ok parsed ∧
      parsed.type = r.type ∧ parsed.flags.toContentFlags = r.flags ∧
      parsed.sequence = r.sequence b ∧ parsed.payload = r.payload numberToString ∧
      (∀ acked window o, r = .ack acked window o →
        PacketParser.parseACKPayload parsed.payload = .ok acked) ∧
      ∀ missing o, r = .nak missing o →
        PacketParser.parseNAKPayload parsed.payload = .ok missing := by
  refine ⟨_, _, build_eq hmac numberToString b r hkey hversion hlen,
    PacketParser.parseHeader_framed h hkey' hlen, rfl, ?_, rfl, rfl, ?_, ?_⟩
  · rw [PacketBuilder.flagByte, parseFlagByte_buildFlagByte]
  · rintro acked window o rfl
    exact PacketParser.parseACKPayload_append acked _
  · rintro missing o rfl
    exact PacketParser.parseNAKPayload_flatMap missing

/-- HMAC-SHA256, truncated, at one key and one input: the tag of the packet of `parse_build_data`. -/
def sampledHmac : Hmac String where
  digest key input :=
    if key = "0123456789abcdef0123456789abcdef" ∧
        input = [0x53, 0x4b, 3, 1, 0x32, 0xff, 0xff, 0xff, 0xff, 0, 0, 0, 0x13, 1, 2, 3,
          0, 0, 0, 0, 0, 0, 0, 7] then
      [0x45, 0x61, 0xe8, 0x0e, 0xa3, 0x52, 0xa1, 0xe7, 0xf9, 0x2f, 0x9f, 0xe2, 0x8e, 0x7f, 0x7f, 0x4b]
    else List.replicate CONTROL_AUTH_TAG_LENGTH 0
  length_digest key input := by split_ifs <;> rfl

/-- A builder that binds its packets to epoch 7, at the last sequence number. -/
def sampledBuilder : PacketBuilder String where
  sequence := 0xffffffff
  metaSequence := 0
  secretKey := some "0123456789abcdef0123456789abcdef"
  authenticatedHeaders := true
  epochBoundAuth := true
  connectionEpoch := 7

/-- The other end's parser. -/
def sampledParser : PacketParser String where
  secretKey := some "0123456789abcdef0123456789abcdef"
  authenticatedHeaders := true
  epochBoundAuth := true

/-- The last DATA packet before the sequence number wraps. -/
theorem parse_build_data : ∃ packet parsed,
    sampledBuilder.build sampledHmac (fun q => toString q.num)
      (.data [1, 2, 3] { encrypted := true }) = .ok (packet, { sampledBuilder with sequence := 0 }) ∧
    sampledParser.parseHeader sampledHmac packet { epoch := some 7 } = .ok parsed ∧
    parsed.type = .data ∧ parsed.flags.toContentFlags = { encrypted := true } ∧
    parsed.sequence = 0xffffffff ∧ parsed.payload = [1, 2, 3] := by
  obtain ⟨packet, parsed, hbuild, hparse, htype, hflags, hsequence, hpayload, -⟩ :=
    parse_build sampledHmac (fun q => toString q.num) sampledBuilder sampledParser
      { epoch := some 7 } (.data [1, 2, 3] { encrypted := true })
      "0123456789abcdef0123456789abcdef" rfl rfl
      ⟨rfl, rfl, fun _ => ⟨by norm_num [sampledBuilder], rfl⟩⟩ (fun _ h => nomatch h) (by decide)
  exact ⟨packet, parsed, hbuild, hparse, htype, hflags, hsequence, hpayload⟩

end EdgeLink
