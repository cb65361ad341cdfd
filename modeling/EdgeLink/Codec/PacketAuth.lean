import EdgeLink.Codec.PacketRoundTrip

/-!
# What an accepted packet says

A parser that asks for authenticated headers and for epoch binding accepts, apart from HELLO, only
what a holder of its key has built, bound to the epoch that the parser knows.

* `parseHeader_ok`: what acceptance means for the bytes of a packet.
* `accepted_was_built`: an accepted packet was built, and says what was given to its builder.
-/

namespace EdgeLink

open Serial

variable {K : Type}

theorem bind_eq_ok {ε α β : Type} {x : Except ε α} {f : α → Except ε β} {r : β} :
    (x >>= f) = .ok r ↔ ∃ a, x = .ok a ∧ f a = .ok r := by
  cases x with
  | error e => simp [bind, Except.bind]
  | ok a => simp [bind, Except.bind]

/-! ## Bytes -/

theorem toBE_ofBE_of_length {w : ℕ} {bytes : Bytes} (h : bytes.length = w) :
    toBE w (ofBE bytes) = bytes := h ▸ toBE_ofBE bytes

theorem length_epochBytes (epoch : ℚ) : (epochBytes epoch).length = 8 := length_toBE 8 _

/-- Whole epochs of 64 bits are told apart. -/
theorem epochBytes_injective {m n : ℕ} (hm : m < 2 ^ 64) (hn : n < 2 ^ 64)
    (h : epochBytes m = epochBytes n) : m = n := by
  have hwhole : ∀ k : ℕ, k < 2 ^ 64 → (⌊(k : ℚ)⌋ % 2 ^ 64).toNat = k := by
    intro k hk
    rw [Int.floor_natCast, Int.emod_eq_of_lt (Int.natCast_nonneg k) (by exact_mod_cast hk)]
    rfl
  rw [epochBytes, epochBytes, hwhole m hm, hwhole n hn] at h
  exact toBE_injective hm hn h

/-- A packet that is long enough is split into its parts. -/
theorem framed_subarray (packet : Bytes) :
    packet.take 13 ++ subarray packet 13 15 ++ packet.drop HEADER_SIZE = packet := by
  have hcrc : packet.take 13 ++ subarray packet 13 15 = packet.take 15 := by
    rw [subarray, ← List.take_add]
  rw [hcrc, HEADER_SIZE, List.take_append_drop]

/-- The header of a packet that names a known type. -/
theorem take_eq_headerBytes {packet : Bytes} {type : PacketType} (h : HEADER_SIZE ≤ packet.length)
    (hmagic : packet.getD 0 0 = 0x53 ∧ packet.getD 1 0 = 0x4b)
    (hversion : packet.getD 2 0 = PROTOCOL_VERSION) (htype : packet.getD 3 0 = type.code) :
    packet.take 13 = headerBytes PROTOCOL_VERSION type (packet.getD 4 0)
      (BitVec.ofNat 32 (ofBE (subarray packet 5 9))) (ofBE (subarray packet 9 13)) := by
  obtain ⟨m, m', v, t, f, rest, rfl⟩ : ∃ m m' v t f rest, packet = m :: m' :: v :: t :: f :: rest := by
    match packet, h with
    | m :: m' :: v :: t :: f :: rest, _ => exact ⟨m, m', v, t, f, rest, rfl⟩
  obtain ⟨rfl, rfl⟩ : m = 0x53 ∧ m' = 0x4b := hmagic
  obtain rfl : v = PROTOCOL_VERSION := hversion
  obtain rfl : t = type.code := htype
  have hlen : 8 ≤ rest.length := by
    simp only [HEADER_SIZE, List.length_cons] at h
    omega
  have hsequence : (rest.take 4).length = 4 := by rw [List.length_take]; omega
  have hlength : ((rest.drop 4).take 4).length = 4 := by
    rw [List.length_take, List.length_drop]
    omega
  have hbound : ofBE (rest.take 4) < 2 ^ 32 := by
    have := ofBE_lt (rest.take 4)
    rwa [hsequence] at this
  have hsplit : rest.take 8 = rest.take 4 ++ (rest.drop 4).take 4 := by
    rw [← List.take_add]
  change 0x53 :: 0x4b :: PROTOCOL_VERSION :: type.code :: f :: rest.take 8 = _
  rw [hsplit, headerBytes]
  change _ = [0x53, 0x4b] ++ [PROTOCOL_VERSION, type.code, f] ++
    toBE 4 (BitVec.ofNat 32 (ofBE (rest.take 4))).toNat ++ toBE 4 (ofBE ((rest.drop 4).take 4))
  rw [BitVec.toNat_ofNat, Nat.mod_eq_of_lt hbound, toBE_ofBE_of_length hsequence,
    toBE_ofBE_of_length hlength, List.append_assoc]
  rfl

/-! ## What the stages of the parser accept -/

theorem parseHeaderFields_ok {packet : Bytes} {fields : ParsedPacket}
    (h : parseHeaderFields packet = .ok fields) (hlen : HEADER_SIZE ≤ packet.length) :
    packet.take 13 = headerBytes PROTOCOL_VERSION fields.type (packet.getD 4 0) fields.sequence
        fields.payloadLength ∧
      fields.flags = parseFlagByte (packet.getD 4 0) ∧ fields.payload = packet.drop HEADER_SIZE := by
  rw [parseHeaderFields] at h
  by_cases hmagic : packet.getD 0 0 ≠ 0x53 ∨ packet.getD 1 0 ≠ 0x4b
  · rw [if_pos hmagic] at h
    cases h
  by_cases hversion : packet.getD 2 0 ≠ PROTOCOL_VERSION
  · rw [if_neg hmagic, if_pos hversion] at h
    cases h
  rw [if_neg hmagic, if_neg hversion] at h
  cases htype : PacketType.ofCode? (packet.getD 3 0) with
  | none =>
    rw [htype] at h
    cases h
  | some type =>
    rw [htype] at h
    cases h
    rw [not_or, not_not, not_not] at hmagic
    exact ⟨take_eq_headerBytes hlen hmagic (not_not.1 hversion)
      (PacketType.code_of_ofCode? htype).symm, rfl, rfl⟩

theorem validateHeaderIntegrity_ok {packet : Bytes} {length : ℕ}
    (h : validateHeaderIntegrity packet length = .ok ()) (hlen : HEADER_SIZE ≤ packet.length) :
    packet = framed (packet.take 13) (packet.drop HEADER_SIZE) ∧
      length = (packet.drop HEADER_SIZE).length := by
  rw [validateHeaderIntegrity] at h
  by_cases hcrc : crc16 (packet.take 13) = BitVec.ofNat 16 (ofBE (subarray packet 13 15))
  · by_cases hlength : length = packet.length - HEADER_SIZE
    · have hword : (subarray packet 13 15).length = 2 := by
        rw [subarray, List.length_take, List.length_drop]
        simp only [HEADER_SIZE] at hlen
        omega
      have hbound : ofBE (subarray packet 13 15) < 2 ^ 16 := by
        have := ofBE_lt (subarray packet 13 15)
        rwa [hword] at this
      refine ⟨?_, by rw [List.length_drop, hlength]⟩
      rw [framed, hcrc, BitVec.toNat_ofNat, Nat.mod_eq_of_lt hbound, toBE_ofBE_of_length hword,
        framed_subarray]
    · dsimp only at h
      rw [if_neg (not_not.2 hcrc), if_pos hlength] at h
      cases h
  · dsimp only at h
    rw [if_pos hcrc] at h
    cases h

namespace PacketParser

variable {hmac : Hmac K} {p : PacketParser K} {options : ParseOptions K} {key : K} {epoch : ℚ}

/-- With epoch binding on, the tag is checked against the known epoch, and only where the packet
says that it is bound to one. -/
theorem resolveAuthEpoch_ok {flags : HeaderFlags} {resolved : Option ℚ}
    (hbind : options.epochBoundAuth.getD p.epochBoundAuth = true)
    (hepoch : options.epoch = some epoch) (hpos : 0 < epoch)
    (h : p.resolveAuthEpoch flags options = .ok resolved) :
    flags.epochBoundAuth = true ∧ resolved = some epoch := by
  rw [resolveAuthEpoch, hbind, hepoch, bindableEpoch?_of_pos hpos, if_neg (not_not.2 rfl)] at h
  by_cases hflag : flags.epochBoundAuth = true
  · rw [if_neg (not_not.2 hflag)] at h
    cases h
    exact ⟨hflag, rfl⟩
  · rw [if_pos hflag] at h
    cases h

theorem stripTag_ok {packet payload data : Bytes} {e : PacketError}
    (hkey : options.secretKey.or p.secretKey = some key)
    (h : p.stripTag hmac packet payload options (some epoch) e = .ok data) :
    payload = data ++ hmac.digest key (tagInput (packet.take 13) data (some epoch)) := by
  rw [stripTag, hkey] at h
  dsimp only at h
  obtain ⟨_, hverify, hdata⟩ := bind_eq_ok.1 h
  cases hdata
  rw [verifyControlPacketAuthTag] at hverify
  split_ifs at hverify with hlen htag
  rw [← createControlPacketAuthTag, htag, List.take_append_drop]

theorem stripDataMetaAuthTag_ok {packet payload data : Bytes} {flags : HeaderFlags}
    (hkey : options.secretKey.or p.secretKey = some key)
    (hbind : options.epochBoundAuth.getD p.epochBoundAuth = true)
    (hepoch : options.epoch = some epoch) (hpos : 0 < epoch)
    (h : p.stripDataMetaAuthTag hmac packet payload flags options = .ok data) :
    flags.authenticatedHeader = true ∧ flags.epochBoundAuth = true ∧
      payload = data ++ hmac.digest key (tagInput (packet.take 13) data (some epoch)) := by
  rw [stripDataMetaAuthTag] at h
  by_cases hauth : flags.authenticatedHeader = true
  · rw [if_neg (not_not.2 hauth)] at h
    obtain ⟨resolved, hresolve, h⟩ := bind_eq_ok.1 h
    obtain ⟨hflag, rfl⟩ := resolveAuthEpoch_ok hbind hepoch hpos hresolve
    by_cases hshort : payload.length < CONTROL_AUTH_TAG_LENGTH
    · rw [if_pos hshort] at h
      cases h
    · rw [if_neg hshort] at h
      exact ⟨hauth, hflag, stripTag_ok hkey h⟩
  · rw [if_pos hauth] at h
    cases h

theorem stripControlAuthTag_ok {packet payload data : Bytes} {flags : HeaderFlags}
    (hkey : options.secretKey.or p.secretKey = some key)
    (hbind : options.epochBoundAuth.getD p.epochBoundAuth = true)
    (hepoch : options.epoch = some epoch) (hpos : 0 < epoch)
    (h : p.stripControlAuthTag hmac packet payload flags options = .ok data) :
    flags.epochBoundAuth = true ∧
      payload = data ++ hmac.digest key (tagInput (packet.take 13) data (some epoch)) := by
  rw [stripControlAuthTag] at h
  by_cases hshort : payload.length < CONTROL_AUTH_TAG_LENGTH
  · rw [if_pos hshort] at h
    cases h
  rw [if_neg hshort] at h
  obtain ⟨resolved, hresolve, h⟩ := bind_eq_ok.1 h
  obtain ⟨hflag, rfl⟩ := resolveAuthEpoch_ok hbind hepoch hpos hresolve
  exact ⟨hflag, stripTag_ok hkey h⟩

/-- What acceptance under an epoch means for the bytes of a packet. -/
structure Accepted (hmac : Hmac K) (key : K) (epoch : ℚ) (packet : Bytes) (parsed : ParsedPacket) :
    Prop where
  epochBound : parsed.flags.epochBoundAuth = true
  authenticated : parsed.type.isDataOrMeta = true → parsed.flags.authenticatedHeader = true
  framed : ∃ flagByte tag, parsed.flags = parseFlagByte flagByte ∧
    packet = framed (headerBytes PROTOCOL_VERSION parsed.type flagByte parsed.sequence
      (parsed.payload ++ tag).length) (parsed.payload ++ tag) ∧
    tag = hmac.digest key (tagInput (packet.take 13) parsed.payload (some epoch))

theorem parseHeader_ok {packet : Bytes} {parsed : ParsedPacket}
    (hkey : options.secretKey.or p.secretKey = some key)
    (hauth : options.authenticatedHeaders.getD p.authenticatedHeaders = true)
    (hbind : options.epochBoundAuth.getD p.epochBoundAuth = true)
    (hepoch : options.epoch = some epoch) (hpos : 0 < epoch)
    (h : p.parseHeader hmac packet options = .ok parsed) (hhello : parsed.type ≠ .hello) :
    Accepted hmac key epoch packet parsed := by
  rw [parseHeader] at h
  by_cases hsmall : packet.length < HEADER_SIZE
  · rw [if_pos hsmall] at h
    cases h
  rw [if_neg hsmall] at h
  obtain ⟨fields, hfields, h⟩ := bind_eq_ok.1 h
  obtain ⟨_, hvalid, h⟩ := bind_eq_ok.1 h
  dsimp only at h
  rw [hauth, if_pos rfl] at h
  obtain ⟨hheader, hflags, hpayload⟩ := parseHeaderFields_ok hfields (not_lt.1 hsmall)
  obtain ⟨hframed, hlength⟩ := validateHeaderIntegrity_ok hvalid (not_lt.1 hsmall)
  rw [hpayload] at h
  -- the two kinds of packets lose their tag in the same way
  obtain ⟨data, rfl, hdata, hbound, hbody⟩ : ∃ data, parsed = { fields with payload := data } ∧
      (fields.type.isDataOrMeta = true → fields.flags.authenticatedHeader = true) ∧
      fields.flags.epochBoundAuth = true ∧ packet.drop HEADER_SIZE =
        data ++ hmac.digest key (tagInput (packet.take 13) data (some epoch)) := by
    by_cases hkind : fields.type.isDataOrMeta = true
    · rw [if_pos hkind] at h
      obtain ⟨data, hstrip, h⟩ := bind_eq_ok.1 h
      cases h
      rw [if_neg hhello] at hstrip
      obtain ⟨h1, h2, h3⟩ := stripDataMetaAuthTag_ok hkey hbind hepoch hpos hstrip
      exact ⟨data, rfl, fun _ => h1, h2, h3⟩
    · rw [if_neg hkind] at h
      obtain ⟨data, hstrip, h⟩ := bind_eq_ok.1 h
      cases h
      rw [if_neg hhello] at hstrip
      obtain ⟨h2, h3⟩ := stripControlAuthTag_ok hkey hbind hepoch hpos hstrip
      exact ⟨data, rfl, fun h => absurd h hkind, h2, h3⟩
  refine ⟨hbound, hdata, packet.getD 4 0, _, hflags, ?_, rfl⟩
  change packet = EdgeLink.framed (headerBytes PROTOCOL_VERSION fields.type (packet.getD 4 0)
    fields.sequence (data ++ hmac.digest key (tagInput (packet.take 13) data (some epoch))).length) _
  rw [← hbody, ← hlength, ← hheader]
  exact hframed

end PacketParser

/-! ## What the builder has covered with a tag -/

namespace PacketBuilder

variable {hmac : Hmac K} {numberToString : ℚ → String} {b b' : PacketBuilder K}
  {r : PacketRequest K} {packet : Bytes}

/-- The bytes that the tag of a requested packet covers. -/
def taggedInput (numberToString : ℚ → String) (b : PacketBuilder K) (r : PacketRequest K) : Bytes :=
  tagInput (b.taggedHeader r.type r.flags (r.sequence b) (r.payload numberToString))
    (r.payload numberToString) (some (b.boundEpoch r.type))

/-- A packet that was built on request, with its tag or without. -/
inductive Built (hmac : Hmac K) (numberToString : ℚ → String) (b : PacketBuilder K)
    (r : PacketRequest K) (packet : Bytes) : Prop
  | tagged (key : K) (hkey : r.options.secretKey.or b.secretKey = some key)
    (hauth : b.authenticates r.type = true)
    (hpacket : packet =
      framed (b.taggedHeader r.type r.flags (r.sequence b) (r.payload numberToString))
        (r.payload numberToString ++ hmac.digest key (b.taggedInput numberToString r)))
  | plain (hauth : b.authenticates r.type = false)
    (hpacket : packet = framed (b.header r.type r.flags (r.sequence b)
      (r.payload numberToString).length) (r.payload numberToString))

theorem buildPacket_of_build (h : b.build hmac numberToString r = .ok (packet, b')) :
    b.buildPacket hmac r.type (r.payload numberToString) r.flags (r.buildOptions b) =
      .ok packet := by
  have hmap : ∀ x : Except PacketError Bytes, (·, b) <$> x = .ok (packet, b') → x = .ok packet := by
    rintro (e | q) hx
    · cases hx
    · cases hx
      rfl
  cases r with
  | data | metadata =>
    obtain ⟨q, hq, h⟩ := bind_eq_ok.1 h
    cases h
    exact hq
  | hello info options =>
    obtain ⟨_, _, h⟩ := bind_eq_ok.1 (hmap _ h)
    exact h
  | _ => exact hmap _ h

theorem normalizeProtocolVersion_ok {v : Option ℕ} {version : UInt8}
    (h : normalizeProtocolVersion v = .ok version) : version = PROTOCOL_VERSION := by
  cases v with
  | none =>
    cases h
    rfl
  | some v =>
    rw [normalizeProtocolVersion] at h
    split_ifs at h
    cases h
    rfl

theorem built_of_build (h : b.build hmac numberToString r = .ok (packet, b')) :
    Built hmac numberToString b r packet := by
  have hsequence : (r.buildOptions b).sequence.getD b.sequence = r.sequence b := by
    cases r <;> rfl
  have hsecret : (r.buildOptions b).secretKey.or b.secretKey =
      r.options.secretKey.or b.secretKey := by
    cases r <;> rfl
  have h := buildPacket_of_build h
  rw [buildPacket] at h
  obtain ⟨version, hversion, h⟩ := bind_eq_ok.1 h
  obtain rfl := normalizeProtocolVersion_ok hversion
  rw [hsequence] at h
  dsimp only at h
  cases hauth : b.authenticates r.type with
  | true =>
    have hcond := hauth
    rw [authenticates] at hcond
    rw [if_pos hcond] at h
    obtain ⟨body, hbody, h⟩ := bind_eq_ok.1 h
    change b.appendAuthTag hmac (b.header r.type r.flags (r.sequence b)) (r.payload numberToString)
      (!r.type.isDataOrMeta) (r.buildOptions b) (b.boundEpoch r.type) = .ok body at hbody
    rw [appendAuthTag, hsecret] at hbody
    cases hkey : r.options.secretKey.or b.secretKey with
    | none =>
      rw [hkey] at hbody
      cases hbody
    | some key =>
      rw [hkey] at hbody
      dsimp only at hbody
      by_cases hlong : 2 ^ 32 ≤ (r.payload numberToString).length + CONTROL_AUTH_TAG_LENGTH
      · rw [if_pos hlong] at hbody
        cases hbody
      rw [if_neg hlong] at hbody
      cases hbody
      rw [if_neg (by rwa [List.length_append, length_tag])] at h
      cases h
      refine .tagged key hkey hauth ?_
      rw [List.length_append, length_tag]
      rfl
  | false =>
    have hcond := hauth
    rw [authenticates] at hcond
    rw [if_neg (hcond ▸ Bool.false_ne_true)] at h
    obtain ⟨body, hbody, h⟩ := bind_eq_ok.1 h
    cases hbody
    by_cases hlong : 2 ^ 32 ≤ (r.payload numberToString).length
    · rw [if_pos hlong] at h
      cases h
    rw [if_neg hlong] at h
    cases h
    exact .plain hauth rfl

end PacketBuilder

/-! ## What an accepted packet says -/

section Accepted

variable {hmac : Hmac K} {numberToString : ℚ → String}
  {honest : Set (PacketBuilder K × PacketRequest K)} {packet : Bytes} {parsed : ParsedPacket}
  {key : K} {epoch : ℕ} {b : PacketBuilder K} {r : PacketRequest K}

/-- The keys and the inputs of the digests in the tags of the packets that the honest holders of
keys have built. -/
def Signed (hmac : Hmac K) (numberToString : ℚ → String)
    (honest : Set (PacketBuilder K × PacketRequest K)) (key : K) (input : Bytes) : Prop :=
  ∃ b r packet b', (b, r) ∈ honest ∧ b.build hmac numberToString r = .ok (packet, b') ∧
    b.authenticates r.type = true ∧ r.options.secretKey.or b.secretKey = some key ∧
    input = b.taggedInput numberToString r

/-- A parsed packet says what was given to its builder, which was bound to an epoch. -/
structure Given (numberToString : ℚ → String) (b : PacketBuilder K) (r : PacketRequest K) (key : K)
    (epoch : ℚ) (parsed : ParsedPacket) : Prop where
  key : r.options.secretKey.or b.secretKey = some key
  epoch : b.boundEpoch r.type = epoch
  type : parsed.type = r.type
  flags : parsed.flags.toContentFlags = r.flags
  sequence : parsed.sequence = r.sequence b
  payload : parsed.payload = r.payload numberToString

theorem headerBytes_injective {type type' : PacketType} {flagByte flagByte' : UInt8}
    {sequence sequence' : Seq} {length length' : ℕ}
    (h : headerBytes PROTOCOL_VERSION type flagByte sequence length =
      headerBytes PROTOCOL_VERSION type' flagByte' sequence' length') :
    type = type' ∧ flagByte = flagByte' ∧ sequence = sequence' := by
  have hlen : ∀ (t : PacketType) f (n : Seq),
      (MAGIC ++ [PROTOCOL_VERSION, t.code, f] ++ toBE 4 n.toNat).length = 9 := by
    intro t f n
    rw [List.length_append, length_toBE]
    rfl
  have hnine := (List.append_inj h ((hlen ..).trans (hlen ..).symm)).1
  obtain ⟨hfive, hsequence⟩ := List.append_inj hnine rfl
  have hcodes : [PROTOCOL_VERSION, type.code, flagByte] = [PROTOCOL_VERSION, type'.code, flagByte'] :=
    (List.append_inj hfive rfl).2
  obtain ⟨-, hcode, hflag, -⟩ := by simpa only [List.cons.injEq] using hcodes
  refine ⟨?_, hflag, ?_⟩
  · have htype := PacketType.ofCode?_code type
    rw [hcode, PacketType.ofCode?_code] at htype
    exact (Option.some.inj htype).symm
  · exact BitVec.eq_of_toNat_eq (toBE_injective sequence.isLt sequence'.isLt hsequence)

/-- The parts of a tag's input can be told apart: the header by its length, and the epoch, which
is as long as any other, at the end. -/
theorem tagInput_injective {header header' payload payload' : Bytes} {m n : ℕ}
    (hlen : header.length = header'.length) (hm : 0 < m ∧ m < 2 ^ 64) (hn : 0 < n ∧ n < 2 ^ 64)
    (h : tagInput header payload (some (m : ℚ)) = tagInput header' payload' (some (n : ℚ))) :
    header = header' ∧ payload = payload' ∧ m = n := by
  rw [tagInput, tagInput, bindableEpoch?_of_pos (Nat.cast_pos.2 hm.1),
    bindableEpoch?_of_pos (Nat.cast_pos.2 hn.1)] at h
  obtain ⟨hfront, hepoch⟩ := List.append_inj' h (by simp only [Option.map_some, Option.getD_some,
    length_epochBytes])
  obtain ⟨hheader, hpayload⟩ := List.append_inj hfront hlen
  exact ⟨hheader, hpayload, epochBytes_injective hm.2 hn.2 hepoch⟩

theorem header_eq_of_tagInput {header header' payload payload' : Bytes} {e e' : Option ℚ}
    (hlen : header.length = header'.length)
    (h : tagInput header payload e = tagInput header' payload' e') :
    header = header' := by
  rw [tagInput, tagInput, List.append_assoc, List.append_assoc] at h
  exact (List.append_inj h hlen).1

/-- The epoch of a builder that is bound to one. -/
theorem PacketBuilder.boundEpoch_of_pos {type : PacketType} (h : 0 < b.boundEpoch type) :
    b.boundEpoch type = b.connectionEpoch := by
  rw [boundEpoch, bindableEpoch] at h ⊢
  split_ifs at h ⊢
  · exact absurd h (lt_irrefl 0)
  · rfl
  · exact absurd h (lt_irrefl 0)

/-- The flags of a built packet. -/
theorem PacketBuilder.parseFlagByte_flagByte (b : PacketBuilder K) (type : PacketType)
    (flags : ContentFlags) : parseFlagByte (b.flagByte type flags) =
      ⟨flags, b.authenticatedHeaders && type.isDataOrMeta, 0 < b.boundEpoch type⟩ :=
  parseFlagByte_buildFlagByte ..

/-- An accepted packet that was built says what was given to its builder. -/
theorem PacketParser.Accepted.given (h : PacketParser.Accepted hmac key epoch packet parsed)
    (hepoch : 0 < epoch ∧ epoch < 2 ^ 64) (hbuilt : PacketBuilder.Built hmac numberToString b r packet)
    (hwhole : ∃ n : ℕ, n < 2 ^ 64 ∧ b.connectionEpoch = n)
    (hinjective : ∀ k, r.options.secretKey.or b.secretKey = some k → b.authenticates r.type = true →
      ∀ k' x', hmac.digest k' x' = hmac.digest k (b.taggedInput numberToString r) →
        k' = k ∧ x' = b.taggedInput numberToString r) :
    Given numberToString b r key epoch parsed := by
  obtain ⟨flagByte, tag, hflags, hpacket, htag⟩ := h.framed
  have htake : packet.take 13 = headerBytes PROTOCOL_VERSION parsed.type flagByte parsed.sequence
      (parsed.payload ++ tag).length := by
    rw [hpacket, take_framed (length_headerBytes ..)]
  have hdrop : packet.drop HEADER_SIZE = parsed.payload ++ tag := by
    rw [hpacket, drop_framed (length_headerBytes ..)]
  cases hbuilt with
  | plain hauth hq =>
    rw [hq, PacketBuilder.header, take_framed (length_headerBytes ..)] at htake
    obtain ⟨htype, hflag, -⟩ := headerBytes_injective htake
    -- without a tag it would be DATA or METADATA of a builder that does not authenticate headers
    rw [PacketBuilder.authenticates, Bool.or_eq_false_iff, Bool.not_eq_false'] at hauth
    have := h.authenticated (htype ▸ hauth.1)
    rw [hflags, ← hflag, PacketBuilder.parseFlagByte_flagByte, hauth.2] at this
    exact absurd this Bool.false_ne_true
  | tagged k hkey hauth hq =>
    have hheader : packet.take 13 = b.taggedHeader r.type r.flags (r.sequence b)
        (r.payload numberToString) := by
      rw [hq, PacketBuilder.taggedHeader, PacketBuilder.header, take_framed (length_headerBytes ..)]
    obtain ⟨htype, hflag, hsequence⟩ := headerBytes_injective (htake.symm.trans hheader)
    have hbody : parsed.payload ++ tag = r.payload numberToString ++
        hmac.digest k (b.taggedInput numberToString r) := by
      rw [← hdrop, hq, PacketBuilder.taggedHeader, PacketBuilder.header,
        drop_framed (length_headerBytes ..)]
    obtain ⟨hpayload, hdigest⟩ := List.append_inj' hbody
      (by rw [htag, hmac.length_digest, hmac.length_digest])
    have hbits := hflag ▸ hflags
    rw [PacketBuilder.parseFlagByte_flagByte] at hbits
    have hpos : 0 < b.boundEpoch r.type := by
      have := h.epochBound
      rw [hbits] at this
      exact of_decide_eq_true this
    obtain ⟨n, hn, hconnection⟩ := hwhole
    have hbound : b.boundEpoch r.type = n :=
      (PacketBuilder.boundEpoch_of_pos hpos).trans hconnection
    rw [htag] at hdigest
    obtain ⟨rfl, hinput⟩ := hinjective k hkey hauth _ _ hdigest
    rw [PacketBuilder.taggedInput, hheader, hbound] at hinput
    obtain ⟨-, -, rfl⟩ := tagInput_injective rfl hepoch
      ⟨by rwa [hbound, Nat.cast_pos] at hpos, hn⟩ hinput
    exact ⟨hkey, hbound, htype, by rw [hbits], hsequence, hpayload⟩

/-- An accepted packet whose tag an honest holder of the key has computed was built. -/
theorem PacketParser.Accepted.built (h : PacketParser.Accepted hmac key epoch packet parsed)
    (hepoch : 0 < epoch ∧ epoch < 2 ^ 64)
    (hwhole : ∀ b r, (b, r) ∈ honest → ∃ n : ℕ, n < 2 ^ 64 ∧ b.connectionEpoch = n)
    (hsigned : Signed hmac numberToString honest key
      (tagInput (packet.take 13) parsed.payload (some epoch))) :
    ∃ b r b', (b, r) ∈ honest ∧ b.build hmac numberToString r = .ok (packet, b') := by
  obtain ⟨b, r, q, b', hmem, hbuild, hauth, hkey, hinput⟩ := hsigned
  refine ⟨b, r, b', hmem, ?_⟩
  suffices hq : packet = q by rwa [hq]
  obtain ⟨flagByte, tag, hflags, hpacket, htag⟩ := h.framed
  have htake : packet.take 13 = headerBytes PROTOCOL_VERSION parsed.type flagByte parsed.sequence
      (parsed.payload ++ tag).length := by
    rw [hpacket, take_framed (length_headerBytes ..)]
  have hlen : (packet.take 13).length = (b.taggedHeader r.type r.flags (r.sequence b)
      (r.payload numberToString)).length := by
    rw [htake, length_headerBytes, PacketBuilder.taggedHeader, PacketBuilder.header,
      length_headerBytes]
  have hheader := header_eq_of_tagInput hlen hinput
  obtain ⟨-, hflag, -⟩ := headerBytes_injective (htake.symm.trans hheader)
  have hpos : 0 < b.boundEpoch r.type := by
    have := h.epochBound
    rw [hflags, hflag, PacketBuilder.parseFlagByte_flagByte] at this
    exact of_decide_eq_true this
  obtain ⟨n, hn, hconnection⟩ := hwhole b r hmem
  have hbound : b.boundEpoch r.type = n :=
    (PacketBuilder.boundEpoch_of_pos hpos).trans hconnection
  have hinput' := hinput
  rw [PacketBuilder.taggedInput, hbound] at hinput'
  obtain ⟨-, hpayload, -⟩ := tagInput_injective hlen hepoch
    ⟨by rwa [hbound, Nat.cast_pos] at hpos, hn⟩ hinput'
  cases PacketBuilder.built_of_build hbuild with
  | plain hplain _ =>
    rw [hauth] at hplain
    cases hplain
  | tagged k hk _ hq =>
    obtain rfl : key = k := Option.some.inj (hkey.symm.trans hk)
    rw [hpacket, ← htake, hheader, htag, hinput, hpayload, hq]

/-- **An accepted packet was built.** Take a parser that asks for authenticated headers and for
epoch binding, and a keyed hash that has no collision with what the honest holders of keys have
hashed, and that nobody else has computed for the end of the packet. When the parser accepts the
packet under an epoch as anything but a HELLO, then an honest holder has built it, and whoever built
it held the parser's key, bound it to this epoch, and gave the type, the flags, the sequence number
and the payload that the parser returns. -/
theorem accepted_was_built (hmac : Hmac K) (numberToString : ℚ → String)
    (honest : Set (PacketBuilder K × PacketRequest K))
    (hwhole : ∀ b r, (b, r) ∈ honest → ∃ n : ℕ, n < 2 ^ 64 ∧ b.connectionEpoch = n)
    (hinjective : ∀ k x k' x', Signed hmac numberToString honest k x →
      hmac.digest k' x' = hmac.digest k x → k' = k ∧ x' = x)
    (p : PacketParser K) (options : ParseOptions K) (key : K) (e : ℤ) (packet : Bytes)
    (parsed : ParsedPacket) (hkey : options.secretKey.or p.secretKey = some key)
    (hauth : options.authenticatedHeaders.getD p.authenticatedHeaders = true)
    (hbind : options.epochBoundAuth.getD p.epochBoundAuth = true)
    (hepoch : options.epoch = some (e : ℚ)) (hpos : 1 ≤ e) (hbound : e ≤ 2 ^ 53)
    (hunforgeable : ∀ x, hmac.digest key x = packet.drop (packet.length - CONTROL_AUTH_TAG_LENGTH) →
      ∃ k' x', Signed hmac numberToString honest k' x' ∧ hmac.digest key x = hmac.digest k' x')
    (h : p.parseHeader hmac packet options = .ok parsed) (hhello : parsed.type ≠ .hello) :
    (∃ b r b', (b, r) ∈ honest ∧ b.build hmac numberToString r = .ok (packet, b')) ∧
      ∀ b r b', (b, r) ∈ honest → b.build hmac numberToString r = .ok (packet, b') →
        Given numberToString b r key e parsed := by
  lift e to ℕ using by omega
  have hpos' : (0 : ℚ) < ((e : ℤ) : ℚ) := by exact_mod_cast hpos
  have hepoch' : 0 < e ∧ e < 2 ^ 64 := by omega
  have haccepted : PacketParser.Accepted hmac key e packet parsed := by
    have := PacketParser.parseHeader_ok hkey hauth hbind hepoch hpos' h hhello
    rwa [Int.cast_natCast] at this
  constructor
  · obtain ⟨flagByte, tag, -, hpacket, htag⟩ := haccepted.framed
    have hend : tag = packet.drop (packet.length - CONTROL_AUTH_TAG_LENGTH) := by
      rw [hpacket, framed, ← List.append_assoc, List.length_append,
        show tag.length = CONTROL_AUTH_TAG_LENGTH by rw [htag, hmac.length_digest],
        Nat.add_sub_cancel, List.drop_left' rfl]
    obtain ⟨k', x', hsigned, hdigest⟩ := hunforgeable _ (htag.symm.trans hend)
    obtain ⟨rfl, rfl⟩ := hinjective k' x' _ _ hsigned hdigest
    exact haccepted.built hepoch' hwhole hsigned
  · intro b r b' hmem hbuild
    rw [Int.cast_natCast]
    refine haccepted.given hepoch' (PacketBuilder.built_of_build hbuild) (hwhole b r hmem) ?_
    intro k hk htagged k' x' hdigest
    exact hinjective k _ k' x' ⟨b, r, packet, b', hmem, hbuild, htagged, hk, rfl⟩ hdigest

/-- The packet of `parse_build_data` says what its builder was given. -/
theorem accepted_was_built_data :
    Given (fun q => toString q.num) sampledBuilder (.data [1, 2, 3] { encrypted := true })
      "0123456789abcdef0123456789abcdef" (7 : ℤ)
      ⟨3, .data, ⟨{ encrypted := true }, true, true⟩, 0xffffffff, 19, [1, 2, 3]⟩ := by
  have hbuild : sampledBuilder.build sampledHmac (fun q => toString q.num)
      (.data [1, 2, 3] { encrypted := true }) = .ok ([0x53, 0x4b, 3, 1, 0x32, 0xff, 0xff, 0xff, 0xff,
        0, 0, 0, 0x13, 0x50, 0x1c, 1, 2, 3, 0x45, 0x61, 0xe8, 0x0e, 0xa3, 0x52, 0xa1, 0xe7, 0xf9,
        0x2f, 0x9f, 0xe2, 0x8e, 0x7f, 0x7f, 0x4b], { sampledBuilder with sequence := 0 }) := by
    decide +kernel
  have hinput : sampledBuilder.taggedInput (fun q => toString q.num)
      (.data [1, 2, 3] { encrypted := true }) = [0x53, 0x4b, 3, 1, 0x32, 0xff, 0xff, 0xff, 0xff,
        0, 0, 0, 0x13, 1, 2, 3, 0, 0, 0, 0, 0, 0, 0, 7] := by
    decide +kernel
  have hmem : (sampledBuilder, .data [1, 2, 3] { encrypted := true }) ∈
      ({(sampledBuilder, .data [1, 2, 3] { encrypted := true })} :
        Set (PacketBuilder String × PacketRequest String)) := rfl
  refine (accepted_was_built sampledHmac (fun q => toString q.num) _ ?_ ?_ sampledParser
    { epoch := some 7 } "0123456789abcdef0123456789abcdef" 7 _ _ rfl rfl rfl rfl (by decide)
    (by decide) ?_ (by decide +kernel) (by decide)).2 _ _ _ hmem hbuild
  · rintro b r hmem
    cases hmem
    exact ⟨7, by decide, rfl⟩
  · rintro k x k' x' ⟨b, r, packet, b', hmem, -, -, hk, rfl⟩ hdigest
    cases hmem
    cases hk
    rw [hinput] at hdigest ⊢
    by_contra hne
    rw [sampledHmac] at hdigest
    dsimp only at hdigest
    rw [if_neg hne] at hdigest
    exact absurd hdigest (by decide)
  · intro x hx
    refine ⟨_, _, ⟨_, _, _, _, hmem, hbuild, rfl, rfl, rfl⟩, hx.trans ?_⟩
    rw [hinput]
    decide +kernel

end Accepted

end EdgeLink
