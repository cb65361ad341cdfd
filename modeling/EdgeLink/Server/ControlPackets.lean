import EdgeLink.Codec.PacketAuth
import EdgeLink.Server.SessionTable

/-!
# The server's control packets

The server has one packet builder, and points it at the epoch of a peer before each packet that it
builds for that peer (`bindBuilderEpochForPeer` in `reliable-server/context.ts`). The functions that
build control packets, in `reliable-server/sessions.ts` and `ackDuplicate` in
`reliable-server/data-handler.ts`, await the sending of each, so that anything may happen between
two packets of one call.

`ControlServer` is the server of `SessionServer` with its builder: what a step asks for is built in
the order in which it is asked for, once the handler has updated the guards; the later chunks of a
NAK wait in `suspended`. The loop of `sendPeriodicACKs` awaits after each session, so that each
turn of it is an event of its own.

* `buildFor`: the one way to build a control packet, with a definition for each sender.
* `boundTo_buildFor`: the packet is bound to the epoch of its destination, whatever the builder was
  bound to before.
* **Main theorem** `control_packets_bound`: along every run.
-/

namespace EdgeLink

variable {K : Type}

/-- Update the epoch to which packets are bound. -/
def PacketBuilder.setConnectionEpoch (b : PacketBuilder K) (epoch : ℚ) : PacketBuilder K :=
  { b with connectionEpoch := if 0 < epoch then epoch else 0 }

/-- Point the builder at the epoch of a peer. -/
def bindBuilderEpochForPeer (ctx : ServerContext) (b : PacketBuilder K) (destinationKey : Peer) :
    PacketBuilder K :=
  b.setConnectionEpoch <|
    match ctx.replayGuards.get? destinationKey with
    | some guard => guard.epoch
    | none => 0

/-- A packet that was built for a peer, or what the builder has thrown. -/
structure BuiltPacket where
  destination : Peer
  packet : Except PacketError Bytes
  deriving DecidableEq

/-! ## The senders -/

section Senders

variable (hmac : Hmac K) (numberToString : ℚ → String) (secretKey : Option K) (ctx : ServerContext)

/-- Point the builder at the epoch of a peer and build a packet for it. Nothing is awaited between
the two. -/
def buildFor (b : PacketBuilder K) (destination : Peer) (request : PacketRequest K) :
    PacketBuilder K × BuiltPacket :=
  let b := bindBuilderEpochForPeer ctx b destination
  match b.build hmac numberToString request with
  | .ok (packet, b) => (b, ⟨destination, .ok packet⟩)
  | .error e => (b, ⟨destination, .error e⟩)

/-- The turn of one chunk in `sendNAK`. -/
def sendNAKChunk (b : PacketBuilder K) (destination : Peer) (chunk : List Seq) :
    PacketBuilder K × BuiltPacket :=
  buildFor hmac numberToString ctx b destination (.nak chunk {})

/-- The sending of `ackDuplicate`, and of the turn of one session in `sendPeriodicACKs`. -/
def sendACK (b : PacketBuilder K) (destination : Peer) (ackSeq : Seq) :
    PacketBuilder K × BuiltPacket :=
  buildFor hmac numberToString ctx b destination (.ack ackSeq none {})

def sendFullStatusRequest (b : PacketBuilder K) (destination : Peer) :
    PacketBuilder K × BuiltPacket :=
  buildFor hmac numberToString ctx b destination (.fullStatusRequest { secretKey := secretKey })

def sendMetaRequest (b : PacketBuilder K) (destination : Peer) : PacketBuilder K × BuiltPacket :=
  buildFor hmac numberToString ctx b destination (.metaRequest { secretKey := secretKey })

/-- Build the control packet that the server asks for, if it is one. -/
def sendControl (b : PacketBuilder K) : ServerOutput → PacketBuilder K × Option BuiltPacket
  | .ack peer sequence => (sendACK hmac numberToString ctx b peer sequence).map id some
  | .nak peer missing => (sendNAKChunk hmac numberToString ctx b peer missing).map id some
  | .metaRequest peer => (sendMetaRequest hmac numberToString secretKey ctx b peer).map id some
  | .fullStatusRequest peer =>
    (sendFullStatusRequest hmac numberToString secretKey ctx b peer).map id some
  | _ => (b, none)

/-- Build what the server asks for, in order. -/
def sendAll (b : PacketBuilder K) : List ServerOutput → PacketBuilder K × List BuiltPacket
  | [] => (b, [])
  | o :: os =>
    let r := sendControl hmac numberToString secretKey ctx b o
    let rest := sendAll r.1 os
    (rest.1, r.2.toList ++ rest.2)

end Senders

/-! ## The server with its builder -/

/-- A server, its packet builder, and what its suspended senders have still to build. -/
structure ControlServer (K : Type) where
  sessions : SessionServer
  packetBuilder : PacketBuilder K
  suspended : List (List ServerOutput)

inductive ControlEvent where
  | table (ev : TableEvent)
  /-- a server upstream has asked for a full status -/
  | requestFullStatusFromAllClients
  /-- the sending that a suspended sender awaits is over -/
  | sent (index : ℕ)

/-- Whether the packets of a step are built one at a time, each after the one before is sent. -/
def TableEvent.awaits : TableEvent → Bool
  | .server (.nakFlush _) => true
  | .removedNakFlush _ => true
  | _ => false

namespace ControlServer

def createPacketBuilder (cfg : ServerConfig) (secretKey : Option K) : PacketBuilder K where
  sequence := 0
  metaSequence := 0
  secretKey := secretKey
  authenticatedHeaders := cfg.authenticatedHeaders
  epochBoundAuth := cfg.epochBoundAuth
  connectionEpoch := 0

def new (cfg : ServerConfig) (secretKey : Option K) : ControlServer K :=
  ⟨SessionServer.new, createPacketBuilder cfg secretKey, []⟩

/-- The context that the handlers share. -/
def ctx (s : ControlServer K) : ServerContext := s.sessions.server.ctx

variable (hmac : Hmac K) (numberToString : ℚ → String) (cfg : ServerConfig) (secretKey : Option K)

/-- One step: the server afterwards, and the control packets built. -/
def handle (s : ControlServer K) : ControlEvent → ControlServer K × List BuiltPacket
  | .table ev =>
    let r := s.sessions.handle cfg ev
    let asked := if ev.awaits then r.2.take 1 else r.2
    let later := if ev.awaits then r.2.drop 1 else []
    let built := sendAll hmac numberToString secretKey r.1.server.ctx s.packetBuilder asked
    (⟨r.1, built.1, s.suspended ++ [later]⟩, built.2)
  | .requestFullStatusFromAllClients =>
    let asked := s.sessions.table.values.map fun session => .fullStatusRequest session.key
    let built := sendAll hmac numberToString secretKey s.ctx s.packetBuilder asked
    ({ s with packetBuilder := built.1 }, built.2)
  | .sent index =>
    match s.suspended[index]? with
    | none => (s, [])
    | some pending =>
      let built := sendAll hmac numberToString secretKey s.ctx s.packetBuilder (pending.take 1)
      ({ s with
        packetBuilder := built.1
        suspended := s.suspended.set index (pending.drop 1) }, built.2)

def step (s : ControlServer K) (ev : ControlEvent) : ControlServer K :=
  (s.handle hmac numberToString cfg secretKey ev).1

def output (s : ControlServer K) (ev : ControlEvent) : List BuiltPacket :=
  (s.handle hmac numberToString cfg secretKey ev).2

end ControlServer

/-! ## What a packet is bound to -/

/-- The tag of a control packet is bound to an epoch, or to none when the epoch is not positive. -/
def BoundTo (hmac : Hmac K) (key : K) (epoch : ℚ) (packet : Bytes) : Prop :=
  ∃ (type : PacketType) (sequence : Seq) (payload : Bytes),
    let header := headerBytes PROTOCOL_VERSION type (buildFlagByte {} false (0 < epoch)) sequence
      (payload.length + CONTROL_AUTH_TAG_LENGTH)
    packet = framed header (payload ++ createControlPacketAuthTag hmac header payload key (some epoch))

/-- The requests of the senders. -/
def PacketRequest.IsControl (r : PacketRequest K) : Prop :=
  r.type.isDataOrMeta = false ∧ r.type ≠ .hello

section Built

variable {hmac : Hmac K} {numberToString : ℚ → String} {b : PacketBuilder K} {ctx : ServerContext}
  {p : Peer} {r : PacketRequest K} {secretKey : Option K} {packet : Bytes}

theorem bindBuilderEpochForPeer_eq (ctx : ServerContext) (b : PacketBuilder K) (p : Peer) :
    bindBuilderEpochForPeer ctx b p = b.setConnectionEpoch (peerAuthEpoch ctx p) := rfl

/-- A builder that was given an epoch binds to it if it is positive, whatever it was before. -/
theorem bindableEpoch_setConnectionEpoch (hb : b.epochBoundAuth = true) (epoch : ℚ) :
    (b.setConnectionEpoch epoch).bindableEpoch = if 0 < epoch then epoch else 0 := by
  by_cases h : 0 < epoch <;> simp [PacketBuilder.bindableEpoch, PacketBuilder.setConnectionEpoch, hb, h]

/-- An epoch that is not positive adds nothing to what the tag covers. -/
theorem tagInput_positive (header payload : Bytes) (epoch : ℚ) :
    tagInput header payload (some (if 0 < epoch then epoch else 0)) =
      tagInput header payload (some epoch) := by
  split_ifs with h
  · rfl
  · simp [tagInput, bindableEpoch?, Option.filter_some, h]

/-- Building a control packet leaves the builder as it is. -/
theorem build_control (hr : r.IsControl) :
    ∃ x, b.build hmac numberToString r = (·, b) <$> x := by
  cases r with
  | data payload flags => cases hr.1
  | metadata payload flags => cases hr.1
  | hello info options => exact absurd rfl hr.2
  | _ => exact ⟨_, rfl⟩

theorem flags_control (hr : r.IsControl) : r.flags = {} := by
  cases r with
  | data payload flags => cases hr.1
  | metadata payload flags => cases hr.1
  | _ => rfl

/-- **A packet is bound to the epoch of its destination**, whatever the builder was bound to. -/
theorem boundTo_buildFor (hb : b.epochBoundAuth = true) (hr : r.IsControl)
    (h : (buildFor hmac numberToString ctx b p r).2.packet = .ok packet) :
    ∃ key, r.options.secretKey.or b.secretKey = some key ∧
      BoundTo hmac key (peerAuthEpoch ctx p) packet := by
  rw [buildFor, bindBuilderEpochForPeer_eq] at h
  set bound := b.setConnectionEpoch (peerAuthEpoch ctx p) with hbound
  obtain ⟨x, hx⟩ : ∃ x, bound.build hmac numberToString r = (·, bound) <$> x := build_control hr
  cases x with
  | error e =>
    rw [hx] at h
    cases h
  | ok built =>
    rw [hx] at h
    cases h
    have hepoch : bound.boundEpoch r.type =
        if 0 < peerAuthEpoch ctx p then peerAuthEpoch ctx p else 0 := by
      rw [PacketBuilder.boundEpoch, if_neg hr.2, hbound, bindableEpoch_setConnectionEpoch hb]
    have hflag : bound.flagByte r.type r.flags =
        buildFlagByte {} false (0 < peerAuthEpoch ctx p) := by
      rw [PacketBuilder.flagByte, hepoch, hr.1, flags_control hr, Bool.and_false]
      congr 2
      split_ifs with hpos <;> simp [hpos]
    rcases PacketBuilder.built_of_build hx with ⟨key, hkey, -, hpacket⟩ | ⟨hplain, -⟩
    · refine ⟨key, hkey, r.type, r.sequence bound, r.payload numberToString, ?_⟩
      rw [PacketBuilder.taggedInput, hepoch, tagInput_positive, PacketBuilder.taggedHeader,
        PacketBuilder.header, hflag] at hpacket
      exact hpacket
    · rw [PacketBuilder.authenticates, hr.1] at hplain
      cases hplain

/-! ## Runs -/

/-- The builder of a server with epoch-bound authentication. -/
structure Configured (secretKey : Option K) (b : PacketBuilder K) : Prop where
  epochBoundAuth : b.epochBoundAuth = true
  secretKey : b.secretKey = secretKey

/-- What was built for a peer is bound to the epoch of its guard. -/
def WellBound (hmac : Hmac K) (secretKey : Option K) (ctx : ServerContext) (c : BuiltPacket) : Prop :=
  ∀ packet, c.packet = .ok packet →
    ∃ key, secretKey = some key ∧ BoundTo hmac key (peerAuthEpoch ctx c.destination) packet

theorem configured_buildFor (hb : Configured secretKey b) (hr : r.IsControl) :
    Configured secretKey (buildFor hmac numberToString ctx b p r).1 := by
  obtain ⟨x, hx⟩ : ∃ x, (bindBuilderEpochForPeer ctx b p).build hmac numberToString r =
    (·, bindBuilderEpochForPeer ctx b p) <$> x := build_control hr
  rw [buildFor, hx]
  cases x <;> exact ⟨hb.epochBoundAuth, hb.secretKey⟩

theorem destination_buildFor (hmac : Hmac K) (numberToString : ℚ → String) (ctx : ServerContext)
    (b : PacketBuilder K) (p : Peer) (r : PacketRequest K) :
    (buildFor hmac numberToString ctx b p r).2.destination = p := by
  unfold buildFor
  dsimp only
  split <;> rfl

/-- **What one sender builds.** -/
theorem sendControl_spec (hmac : Hmac K) (numberToString : ℚ → String) (ctx : ServerContext)
    (hb : Configured secretKey b) (o : ServerOutput) :
    Configured secretKey (sendControl hmac numberToString secretKey ctx b o).1 ∧
      ∀ c ∈ (sendControl hmac numberToString secretKey ctx b o).2, WellBound hmac secretKey ctx c := by
  have spec : ∀ (p : Peer) (r : PacketRequest K), r.IsControl →
      r.options.secretKey.or secretKey = secretKey →
      Configured secretKey (buildFor hmac numberToString ctx b p r).1 ∧
        WellBound hmac secretKey ctx (buildFor hmac numberToString ctx b p r).2 := by
    intro p r hr hkey
    refine ⟨configured_buildFor hb hr, fun packet h => ?_⟩
    obtain ⟨key, hk, hbound⟩ := boundTo_buildFor hb.epochBoundAuth hr h
    rw [hb.secretKey, hkey] at hk
    rw [destination_buildFor]
    exact ⟨key, hk, hbound⟩
  have some_spec : ∀ {x : PacketBuilder K × BuiltPacket},
      Configured secretKey x.1 ∧ WellBound hmac secretKey ctx x.2 →
      Configured secretKey x.1 ∧ ∀ c ∈ some x.2, WellBound hmac secretKey ctx c := by
    rintro x ⟨hx, hc⟩
    exact ⟨hx, fun c h => Option.some.inj h ▸ hc⟩
  cases o with
  | ack peer sequence => exact some_spec (spec peer _ ⟨rfl, nofun⟩ rfl)
  | nak peer missing => exact some_spec (spec peer _ ⟨rfl, nofun⟩ rfl)
  | metaRequest peer => exact some_spec (spec peer _ ⟨rfl, nofun⟩ (Option.or_self ..))
  | fullStatusRequest peer => exact some_spec (spec peer _ ⟨rfl, nofun⟩ (Option.or_self ..))
  | _ => exact ⟨hb, fun c hc => by cases hc⟩

/-- Whatever is asked for, each packet is bound anew. -/
theorem sendAll_spec (hmac : Hmac K) (numberToString : ℚ → String) (ctx : ServerContext)
    (hb : Configured secretKey b) (asked : List ServerOutput) :
    Configured secretKey (sendAll hmac numberToString secretKey ctx b asked).1 ∧
      ∀ c ∈ (sendAll hmac numberToString secretKey ctx b asked).2,
        WellBound hmac secretKey ctx c := by
  induction asked generalizing b with
  | nil => exact ⟨hb, fun c hc => by cases hc⟩
  | cons o os ih =>
    obtain ⟨hnext, hbuilt⟩ := sendControl_spec hmac numberToString ctx hb o
    obtain ⟨hlast, hrest⟩ := ih hnext
    refine ⟨hlast, fun c hc => ?_⟩
    rcases List.mem_append.1 hc with hc | hc
    · exact hbuilt c (Option.mem_toList.1 hc)
    · exact hrest c hc

end Built

namespace ControlServer

variable {hmac : Hmac K} {numberToString : ℚ → String} {cfg : ServerConfig} {secretKey : Option K}

/-- **Every packet that a step builds** is bound to the epoch that its destination has then. -/
theorem wellBound_step {s : ControlServer K} (hs : Configured secretKey s.packetBuilder)
    (ev : ControlEvent) :
    (∀ c ∈ s.output hmac numberToString cfg secretKey ev,
      WellBound hmac secretKey (s.step hmac numberToString cfg secretKey ev).ctx c) ∧
      Configured secretKey (s.step hmac numberToString cfg secretKey ev).packetBuilder := by
  cases ev with
  | table ev => exact (sendAll_spec hmac numberToString _ hs _).symm
  | requestFullStatusFromAllClients => exact (sendAll_spec hmac numberToString _ hs _).symm
  | sent index =>
    unfold output step handle
    cases hp : s.suspended[index]? with
    | none =>
      simp only [hp]
      exact ⟨fun c hc => absurd hc List.not_mem_nil, hs⟩
    | some pending =>
      simp only [hp]
      exact (sendAll_spec hmac numberToString _ hs _).symm

/-- **Control packets are bound to the epoch of their destination.** With epoch-bound
authentication, along every run each control packet that is built for a peer carries a tag bound to
the epoch that the peer's guard holds at that moment, and a tag without an epoch if it holds none. -/
theorem control_packets_bound (hmac : Hmac K) (numberToString : ℚ → String) (cfg : ServerConfig)
    (hbound : cfg.epochBoundAuth = true) (secretKey : Option K) (es : List ControlEvent) :
    Along (step hmac numberToString cfg secretKey)
      (fun s ev => ∀ c ∈ s.output hmac numberToString cfg secretKey ev, ∀ packet,
        c.packet = .ok packet → ∃ key, secretKey = some key ∧ BoundTo hmac key
          (peerAuthEpoch (s.step hmac numberToString cfg secretKey ev).ctx c.destination) packet)
      (new cfg secretKey) es := by
  have hnew : Configured secretKey (new cfg secretKey).packetBuilder := ⟨hbound, rfl⟩
  refine Along.of_invariant (I := fun s => Configured secretKey s.packetBuilder) ?_ hnew
    (Along.of_forall (fun _ _ => trivial) _ es)
  intro s ev hs _
  exact wellBound_step hs ev

/-- HMAC-SHA256, truncated, at one key and the inputs of two META_REQUESTs, for the epochs 7 and
9. -/
def sampledControlHmac : Hmac String where
  digest key input :=
    let header : Bytes := [0x53, 0x4b, 3, 7, 0x20, 0, 0, 0, 0, 0, 0, 0, 0x10]
    if key = "0123456789abcdef0123456789abcdef" ∧ input = header ++ [0, 0, 0, 0, 0, 0, 0, 7] then
      [0xf7, 0x41, 0x25, 0xd2, 0xc2, 0xd8, 0x89, 0x89, 0x16, 0x41, 0xaf, 0x13, 0x7f, 0xc9, 0x36, 0xd1]
    else if key = "0123456789abcdef0123456789abcdef" ∧
        input = header ++ [0, 0, 0, 0, 0, 0, 0, 9] then
      [0x0e, 0x74, 0x4a, 0xe4, 0x3e, 0x3b, 0x25, 0x2b, 0x2f, 0x04, 0xf3, 0x5c, 0xc8, 0xbb, 0xd6, 0xcf]
    else List.replicate CONTROL_AUTH_TAG_LENGTH 0
  length_digest key input := by
    dsimp only
    split_ifs <;> rfl

/-- A HELLO that advertises an epoch. -/
def sampledHello (peer : Peer) (epoch : ℚ) : ControlEvent :=
  .table (.server (.hello 0 peer ⟨64, some (.obj [("epoch", .num (.finite epoch))])⟩))

/-- The answer to a second peer is bound to its epoch, 9, not to the first peer's. -/
theorem control_packets_bound_two_peers :
    let cfg : ServerConfig := { epochBoundAuth := true }
    let key := "0123456789abcdef0123456789abcdef"
    let number := fun q : ℚ => toString q.num
    let s := (new cfg (some key)).step sampledControlHmac number cfg (some key)
      (sampledHello ⟨"10.0.0.1", 4000⟩ 7)
    ∃ packet, s.output sampledControlHmac number cfg (some key)
        (sampledHello ⟨"10.0.0.2", 4000⟩ 9) = [⟨⟨"10.0.0.2", 4000⟩, .ok packet⟩] ∧
      BoundTo sampledControlHmac key 9 packet := by
  intro cfg key number s
  have hbuilt : s.output sampledControlHmac number cfg (some key)
      (sampledHello ⟨"10.0.0.2", 4000⟩ 9) = [⟨⟨"10.0.0.2", 4000⟩, .ok [0x53, 0x4b, 3, 7, 0x20,
        0, 0, 0, 0, 0, 0, 0, 0x10, 0xb9, 0x77, 0x0e, 0x74, 0x4a, 0xe4, 0x3e, 0x3b, 0x25, 0x2b,
        0x2f, 0x04, 0xf3, 0x5c, 0xc8, 0xbb, 0xd6, 0xcf]⟩] := by
    decide +kernel
  have hepoch : peerAuthEpoch (s.step sampledControlHmac number cfg (some key)
      (sampledHello ⟨"10.0.0.2", 4000⟩ 9)).ctx ⟨"10.0.0.2", 4000⟩ = 9 := by
    decide +kernel
  obtain ⟨-, hsecond, -⟩ := control_packets_bound sampledControlHmac number cfg rfl (some key)
    [sampledHello ⟨"10.0.0.1", 4000⟩ 7, sampledHello ⟨"10.0.0.2", 4000⟩ 9]
  obtain ⟨key', hkey, hbound⟩ := hsecond _ (hbuilt ▸ List.mem_cons_self) _ rfl
  obtain rfl := Option.some.inj hkey
  exact ⟨_, hbuilt, hepoch ▸ hbound⟩

end ControlServer

end EdgeLink
