import EdgeLink.Server.CapturedReplay

/-!
# The handshake

A client that sends HELLO again and again until it hears of the server, the server, and a network
between them that loses, repeats, delays and reorders datagrams (`Handshake`). The client takes any
control packet for a confirmation (`confirmHelloAcknowledged` of `reliable-client/lifecycle.ts`).

* `agreed_run`: the client is right about the handshake as long as every control packet that it
  takes for a confirmation was sent under its own epoch.
* `agreed_run_bound`: with epoch binding every control packet that it accepts was.
* `acknowledged_without_hello`: DATA alone opens a session, whose ACK confirms a HELLO that was
  lost.
-/

namespace EdgeLink

/-! ## The client, the network and the server -/

/-- A control packet on its way to the client, with the epoch of its destination's guard when it
was sent. -/
structure ControlPacket where
  peer : Peer
  epoch : ℚ

/-- The destination of a control packet. -/
def ServerOutput.controlPeer? : ServerOutput → Option Peer
  | .ack peer _ => some peer
  | .nak peer _ => some peer
  | .metaRequest peer => some peer
  | .fullStatusRequest peer => some peer
  | _ => none

/-- A client, a server, and what the network has seen. -/
structure Handshake where
  server : Server
  /-- the connection epoch of the client -/
  connectionEpoch : ℕ
  /-- the address and port of the client's socket -/
  peer : Peer
  helloAcknowledged : Bool
  /-- the next sequence number of the client -/
  sequence : Seq
  /-- the datagrams that the client has sent, with their source -/
  sent : List (Peer × Datagram)
  /-- the control packets that the server has sent -/
  control : List ControlPacket
  /-- the HELLOs that the server has processed: their source and their epoch -/
  processed : List (Peer × ℚ)

/-- What can happen to a client and a server. -/
inductive HandshakeEvent where
  /-- the client starts again -/
  | start (connectionEpoch : ℕ) (peer : Peer) (initialSequence : Seq)
  /-- the first HELLO after a start or on a new socket -/
  | sendHello (peer : Peer) (payloadLength : ℕ) (clientId : String) (timestamp : ℚ)
  /-- the HELLO retry timer fires -/
  | retryHello (payloadLength : ℕ) (clientId : String) (timestamp : ℚ)
  | sendData (payload : Option (List Delta))
  /-- a datagram of the client arrives at the server -/
  | deliver (now : Time) (index : ℕ)
  /-- something happens inside the server -/
  | inside (ev : ServerEvent)
  /-- a control packet arrives at the address and port to which it was sent -/
  | receive (index : ℕ)

namespace Handshake

/-- A client that starts, and a fresh server. -/
def new (connectionEpoch : ℕ) (peer : Peer) (initialSequence : Seq) : Handshake where
  server := Server.new
  connectionEpoch := connectionEpoch
  peer := peer
  helloAcknowledged := false
  sequence := initialSequence
  sent := []
  control := []
  processed := []

/-- Send a HELLO. -/
def hello (s : Handshake) (payloadLength : ℕ) (clientId : String) (timestamp : ℚ) : Handshake :=
  let hello : Hello := ⟨payloadLength, some (helloInfo clientId timestamp s.connectionEpoch)⟩
  { s with sent := s.sent ++ [(s.peer, .hello hello)] }

/-- Whether the client authenticates a control packet: with epoch binding the tag is bound to the
epoch of the guard, and must be bound to the client's. -/
def authenticates (cfg : ServerConfig) (s : Handshake) (packet : ControlPacket) : Bool :=
  !cfg.epochBoundAuth ||
    decide (0 < packet.epoch ∧ epochTag packet.epoch = epochTag s.connectionEpoch)

/-- Whether a control packet reaches the client's socket and is authentic. -/
def Accepts (cfg : ServerConfig) (s : Handshake) (packet : ControlPacket) : Prop :=
  packet.peer = s.peer ∧ s.authenticates cfg packet = true

instance (cfg : ServerConfig) (s : Handshake) (packet : ControlPacket) :
    Decidable (s.Accepts cfg packet) := by
  unfold Accepts
  infer_instance

/-- A control packet arrives. -/
def handleControlPacket (cfg : ServerConfig) (s : Handshake) (packet : ControlPacket) : Handshake :=
  if s.Accepts cfg packet then { s with helloAcknowledged := true } else s

/-- What an event is to the client. -/
def client (cfg : ServerConfig) (s : Handshake) : HandshakeEvent → Handshake
  | .start connectionEpoch peer initialSequence =>
    { s with
      connectionEpoch := connectionEpoch
      peer := peer
      helloAcknowledged := false
      sequence := initialSequence }
  | .sendHello peer payloadLength clientId timestamp =>
    hello { s with peer := peer, helloAcknowledged := false } payloadLength clientId timestamp
  | .retryHello payloadLength clientId timestamp =>
    if s.helloAcknowledged then s else s.hello payloadLength clientId timestamp
  | .sendData payload =>
    let tagEpoch := if cfg.epochBoundAuth then bindableEpoch s.connectionEpoch else none
    let packet : DataPacket := ⟨s.sent.length, s.sequence, tagEpoch, payload⟩
    { s with sequence := s.sequence + 1, sent := s.sent ++ [(s.peer, .data packet)] }
  | .receive index =>
    match s.control[index]? with
    | some packet => s.handleControlPacket cfg packet
    | none => s
  | _ => s

/-- What an event is to the server. -/
def serverEvent (s : Handshake) : HandshakeEvent → Option ServerEvent
  | .deliver now index =>
    match s.sent[index]? with
    | some (source, .hello hello) => some (.hello now source hello)
    | some (source, .data packet) => some (.arrive now source packet)
    | none => none
  | .inside (.hello ..) => none
  | .inside (.arrive ..) => none
  | .inside ev => some ev
  | _ => none

/-- The HELLO that the server processes at an event. -/
def processedHello (cfg : ServerConfig) (server : Server) : ServerEvent → Option (Peer × ℚ)
  | .hello now peer hello =>
    if Admitted cfg server.ctx now peer hello then hello.epoch.map (peer, ·) else none
  | _ => none

/-- The server takes a step. -/
def serve (cfg : ServerConfig) (s : Handshake) (ev : ServerEvent) : Handshake :=
  let server := s.server.step cfg ev
  let packets := (s.server.output cfg ev).filterMap fun o =>
    o.controlPeer?.map fun peer => ⟨peer, peerAuthEpoch server.ctx peer⟩
  { s with
    server := server
    control := s.control ++ packets
    processed := s.processed ++ (processedHello cfg s.server ev).toList }

def step (cfg : ServerConfig) (s : Handshake) (ev : HandshakeEvent) : Handshake :=
  match s.serverEvent ev with
  | some sev => s.serve cfg sev
  | none => s.client cfg ev

/-- **Agreement**: when the client considers its HELLO acknowledged, the server has processed a
HELLO with the client's epoch from the client's address and port, and the guard of that address and
port holds this epoch, so that its window is enforced. -/
def Agreed (s : Handshake) : Prop :=
  s.helloAcknowledged = true → (s.peer, (s.connectionEpoch : ℚ)) ∈ s.processed ∧
    peerAuthEpoch s.server.ctx s.peer = s.connectionEpoch ∧
      peerAuthEpoch s.server.ctx s.peer ≠ 0

instance (s : Handshake) : Decidable s.Agreed := by
  unfold Agreed
  infer_instance

/-! ## The condition -/

/-- No guard with an epoch is evicted, a start raises the epoch, and a control packet with which the
client comes to consider its HELLO acknowledged was sent under its epoch. -/
def Allowed (cfg : ServerConfig) (s : Handshake) (ev : HandshakeEvent) : Prop :=
  (∀ sev ∈ s.serverEvent ev, ∀ x ∈ s.server.ctx.replayGuards.entries, 0 < x.2.epoch →
      ¬ Evicts s.server sev x.1) ∧
    match ev with
    | .start connectionEpoch _ _ => s.connectionEpoch < connectionEpoch
    | .receive index => s.helloAcknowledged = false → ∀ packet ∈ s.control[index]?,
        s.Accepts cfg packet → packet.epoch = s.connectionEpoch
    | _ => True

instance (cfg : ServerConfig) (s : Handshake) (ev : HandshakeEvent) :
    Decidable (s.Allowed cfg ev) := by
  unfold Allowed
  cases ev <;> infer_instance

end Handshake

/-! ## The epoch of a guard -/

section Guard

variable {cfg : ServerConfig} {server : Server}

/-- A guard that is not evicted keeps its epoch in a step, or has it raised by a HELLO. -/
theorem peerAuthEpoch_step (cfg : ServerConfig) (hk : Keyed server.ctx.clientSessions)
    (ev : ServerEvent) (q : Peer) (h0 : 0 ≤ peerAuthEpoch server.ctx q)
    (hev : 0 < peerAuthEpoch server.ctx q → ¬ Evicts server ev q) :
    peerAuthEpoch (server.step cfg ev).ctx q = peerAuthEpoch server.ctx q ∨
      (peerAuthEpoch server.ctx q < peerAuthEpoch (server.step cfg ev).ctx q ∧ ∃ now hello,
        ev = .hello now q hello ∧ Admitted cfg server.ctx now q hello ∧
          hello.epoch = some (peerAuthEpoch (server.step cfg ev).ctx q)) := by
  have hold : ∀ now, (guardOrNew server.ctx now q).epoch = peerAuthEpoch server.ctx q := by
    intro now
    rw [guardOrNew, peerAuthEpoch]
    cases server.ctx.replayGuards.get? q <;> rfl
  cases hg' : (server.step cfg ev).ctx.replayGuards.get? q with
  | none =>
    have hnew : peerAuthEpoch (server.step cfg ev).ctx q = 0 := by rw [peerAuthEpoch, hg']
    rw [hnew]
    refine Or.inl (le_antisymm h0 (not_lt.1 fun hpos => ?_))
    cases hg : server.ctx.replayGuards.get? q with
    | none =>
      rw [peerAuthEpoch, hg] at hpos
      exact lt_irrefl 0 hpos
    | some g =>
      obtain ⟨g', h⟩ := guard_survives cfg hk hg (hev hpos)
      rw [hg'] at h
      cases h
  | some g' =>
    have hnew : peerAuthEpoch (server.step cfg ev).ctx q = g'.epoch := by rw [peerAuthEpoch, hg']
    rw [hnew]
    cases guardStep hk hg' with
    | kept hkept =>
      rw [peerAuthEpoch, hkept]
      exact Or.inl rfl
    | renewed now hello hev hadmitted hr =>
      rcases hr with ⟨he, -, -⟩ | ⟨he, hlt, -⟩
      · exact Or.inl (he.trans (hold now))
      · exact Or.inr ⟨(hold now) ▸ hlt, now, hello, hev, hadmitted, he⟩
    | seen now _ _ _ _ _ hseen =>
      rw [hseen]
      exact Or.inl (hold now)
    | offered now _ _ _ _ _ hoffer =>
      rw [hoffer]
      exact Or.inl (hold now)

end Guard

namespace Handshake

variable {cfg : ServerConfig} {s : Handshake}

/-! ## The invariant -/

/-- The invariant of a handshake. -/
structure Inv (s : Handshake) : Prop where
  wellFormed : s.server.WellFormed
  pos : 0 < s.connectionEpoch
  hellos : ∀ p hello, (p, Datagram.hello hello) ∈ s.sent → ∀ epoch, hello.epoch = some epoch →
    ∃ e : ℕ, epoch = e ∧ 0 < e ∧ e ≤ s.connectionEpoch
  /-- a guard with an epoch has it from a HELLO -/
  guards : ∀ p, peerAuthEpoch s.server.ctx p = 0 ∨
    (p, peerAuthEpoch s.server.ctx p) ∈ s.processed ∧
      ∃ e : ℕ, peerAuthEpoch s.server.ctx p = e ∧ 0 < e ∧ e ≤ s.connectionEpoch
  /-- a control packet was sent under an epoch that its guard still holds or has left behind -/
  control : ∀ packet ∈ s.control, packet.epoch ≤ peerAuthEpoch s.server.ctx packet.peer ∧
    ∃ e : ℕ, packet.epoch = e
  acknowledged : s.helloAcknowledged = true →
    peerAuthEpoch s.server.ctx s.peer = s.connectionEpoch

theorem Inv.agreed (h : s.Inv) : s.Agreed := by
  intro hack
  have hepoch := h.acknowledged hack
  have hpos : (0 : ℚ) < s.connectionEpoch := by exact_mod_cast h.pos
  refine ⟨?_, hepoch, by rw [hepoch]; exact hpos.ne'⟩
  rcases h.guards s.peer with h0 | ⟨hmem, -⟩
  · exact absurd (hepoch.symm.trans h0) hpos.ne'
  · rwa [hepoch] at hmem

theorem Inv.nonneg (h : s.Inv) (p : Peer) : 0 ≤ peerAuthEpoch s.server.ctx p := by
  rcases h.guards p with h0 | ⟨-, e, he, -⟩
  · exact h0.ge
  · rw [he]
    exact Nat.cast_nonneg e

theorem Inv.le (h : s.Inv) (p : Peer) : peerAuthEpoch s.server.ctx p ≤ s.connectionEpoch := by
  rcases h.guards p with h0 | ⟨-, e, he, -, hle⟩
  · rw [h0]
    exact Nat.cast_nonneg _
  · rw [he]
    exact_mod_cast hle

/-- The server sees only what the client has sent. -/
theorem mem_sent_of_hello {ev : HandshakeEvent} {now : Time} {p : Peer} {hello : Hello}
    (h : s.serverEvent ev = some (.hello now p hello)) : (p, Datagram.hello hello) ∈ s.sent := by
  cases ev with
  | deliver now' index =>
    rw [serverEvent] at h
    cases hd : s.sent[index]? with
    | none =>
      rw [hd] at h
      cases h
    | some d =>
      rw [hd] at h
      obtain ⟨source, hello' | packet⟩ := d
      · cases h
        exact List.mem_of_getElem? hd
      · cases h
  | inside sev =>
    cases sev <;> cases h
  | _ => cases h

/-- A step of the server keeps the invariant. -/
theorem Inv.serve {sev : ServerEvent} (h : s.Inv)
    (hfrom : ∀ now p hello, sev = .hello now p hello → (p, Datagram.hello hello) ∈ s.sent)
    (hev : ∀ x ∈ s.server.ctx.replayGuards.entries, 0 < x.2.epoch → ¬ Evicts s.server sev x.1) :
    (s.serve cfg sev).Inv := by
  have hstep := fun p => peerAuthEpoch_step cfg h.wellFormed.keyed sev p (h.nonneg p) (by
      intro hpos
      rw [peerAuthEpoch] at hpos
      cases hg : s.server.ctx.replayGuards.get? p with
      | none => simp [hg] at hpos
      | some g =>
        rw [hg] at hpos
        exact hev (p, g) (OrderedMap.mem_entries.2 hg) hpos)
  have hle : ∀ p, peerAuthEpoch s.server.ctx p ≤ peerAuthEpoch (s.server.step cfg sev).ctx p := by
    intro p
    rcases hstep p with he | ⟨hlt, -⟩
    · exact he.ge
    · exact hlt.le
  have hguards : ∀ p, peerAuthEpoch (s.server.step cfg sev).ctx p = 0 ∨
      (p, peerAuthEpoch (s.server.step cfg sev).ctx p) ∈ (s.serve cfg sev).processed ∧
        ∃ e : ℕ, peerAuthEpoch (s.server.step cfg sev).ctx p = e ∧ 0 < e ∧
          e ≤ s.connectionEpoch := by
    intro p
    rcases hstep p with he | ⟨-, now, hello, rfl, hadmitted, hepoch⟩
    · rw [he]
      exact (h.guards p).imp_right fun hp => ⟨List.mem_append_left _ hp.1, hp.2⟩
    · refine Or.inr ⟨List.mem_append_right _ ?_, h.hellos p hello (hfrom now p hello rfl) _ hepoch⟩
      rw [processedHello, if_pos hadmitted, hepoch]
      exact List.mem_singleton.2 rfl
  refine ⟨wellFormed_step h.wellFormed sev, h.pos, h.hellos, hguards, ?_, ?_⟩
  · intro packet hpacket
    rcases List.mem_append.1 hpacket with hold | hnew
    · exact ⟨(h.control packet hold).1.trans (hle packet.peer), (h.control packet hold).2⟩
    · obtain ⟨o, -, ho⟩ := List.mem_filterMap.1 hnew
      obtain ⟨p, -, rfl⟩ := Option.map_eq_some_iff.1 ho
      refine ⟨le_rfl, ?_⟩
      rcases hguards p with h0 | ⟨-, e, he, -⟩
      · exact ⟨0, h0.trans Nat.cast_zero.symm⟩
      · exact ⟨e, he⟩
  · intro hack
    have hold := h.acknowledged hack
    refine le_antisymm ?_ (hold ▸ hle s.peer)
    rcases hguards s.peer with h0 | ⟨-, e, he, -, hmax⟩
    · exact h0.trans_le (Nat.cast_nonneg _)
    · exact he.trans_le (by exact_mod_cast hmax)

theorem Inv.hello (h : s.Inv) (payloadLength : ℕ) (clientId : String) (timestamp : ℚ) :
    (s.hello payloadLength clientId timestamp).Inv := by
  refine ⟨h.wellFormed, h.pos, ?_, h.guards, h.control, h.acknowledged⟩
  intro p hello hmem epoch hepoch
  rcases List.mem_append.1 hmem with hold | hnew
  · exact h.hellos p hello hold epoch hepoch
  · cases List.mem_singleton.1 hnew
    obtain ⟨he, hpos⟩ := helloInfo_epoch _ _ _ _ hepoch
    exact ⟨s.connectionEpoch, he, hpos, le_rfl⟩

/-- A start forgets what was acknowledged. -/
theorem Inv.start (h : s.Inv) {connectionEpoch : ℕ} (hlt : s.connectionEpoch < connectionEpoch)
    (peer : Peer) (initialSequence : Seq) :
    (s.client cfg (.start connectionEpoch peer initialSequence)).Inv := by
  refine ⟨h.wellFormed, h.pos.trans hlt, ?_, ?_, h.control, fun hack => nomatch hack⟩
  · intro p hello hmem epoch hepoch
    obtain ⟨e, he, hpos, hle⟩ := h.hellos p hello hmem epoch hepoch
    exact ⟨e, he, hpos, hle.trans hlt.le⟩
  · intro p
    refine (h.guards p).imp_right ?_
    rintro ⟨hmem, e, he, hpos, hle⟩
    exact ⟨hmem, e, he, hpos, hle.trans hlt.le⟩

theorem Inv.sendData (h : s.Inv) (payload : Option (List Delta)) :
    (s.client cfg (.sendData payload)).Inv := by
  refine ⟨h.wellFormed, h.pos, ?_, h.guards, h.control, h.acknowledged⟩
  intro p hello hmem epoch hepoch
  rcases List.mem_append.1 hmem with hold | hnew
  · exact h.hellos p hello hold epoch hepoch
  · cases List.mem_singleton.1 hnew

/-- A control packet that was sent under the client's epoch confirms it, and the first one counts.
-/
theorem Inv.receive (h : s.Inv) {packet : ControlPacket} (hmem : packet ∈ s.control)
    (hepoch : s.helloAcknowledged = false → s.Accepts cfg packet →
      packet.epoch = s.connectionEpoch) : (s.handleControlPacket cfg packet).Inv := by
  rw [handleControlPacket]
  split_ifs with haccepts
  · refine ⟨h.wellFormed, h.pos, h.hellos, h.guards, h.control, fun _ => ?_⟩
    cases hack : s.helloAcknowledged with
    | true => exact h.acknowledged hack
    | false =>
      have hle := (h.control packet hmem).1
      rw [hepoch hack haccepts, haccepts.1] at hle
      exact le_antisymm (h.le s.peer) hle
  · exact h

/-- A step of the client keeps the invariant. -/
theorem Inv.client {ev : HandshakeEvent} (h : s.Inv) (hev : s.Allowed cfg ev) :
    (s.client cfg ev).Inv := by
  obtain ⟨-, hev⟩ := hev
  cases ev with
  | start connectionEpoch peer initialSequence => exact h.start hev peer initialSequence
  | sendHello peer payloadLength clientId timestamp =>
    have hreset : Inv { s with peer := peer, helloAcknowledged := false } :=
      ⟨h.wellFormed, h.pos, h.hellos, h.guards, h.control, fun hack => nomatch hack⟩
    exact hreset.hello payloadLength clientId timestamp
  | retryHello payloadLength clientId timestamp =>
    rw [Handshake.client]
    split_ifs
    · exact h
    · exact h.hello payloadLength clientId timestamp
  | sendData payload => exact h.sendData payload
  | receive index =>
    rw [Handshake.client]
    cases hp : s.control[index]? with
    | none => exact h
    | some packet => exact h.receive (List.mem_of_getElem? hp) fun hack => hev hack packet hp
  | deliver | inside => exact h

theorem Inv.step {ev : HandshakeEvent} (h : s.Inv) (hev : s.Allowed cfg ev) :
    (s.step cfg ev).Inv := by
  rw [Handshake.step]
  cases hs : s.serverEvent ev with
  | none => exact h.client hev
  | some sev =>
    refine h.serve ?_ (hev.1 sev hs)
    rintro now p hello rfl
    exact mem_sent_of_hello hs

theorem inv_new {connectionEpoch : ℕ} (hpos : 0 < connectionEpoch) (peer : Peer)
    (initialSequence : Seq) : (new connectionEpoch peer initialSequence).Inv where
  wellFormed := wellFormed_new
  pos := hpos
  hellos _ _ hmem := nomatch hmem
  guards _ := Or.inl rfl
  control _ hmem := nomatch hmem
  acknowledged hack := nomatch hack

/-- **Agreement on the handshake.** In every run in which the control packets that the client takes
for an acknowledgement were sent under the client's epoch, no guard with an epoch is evicted, and
every start raises the epoch, the client is right to consider its HELLO acknowledged. -/
theorem agreed_run (cfg : ServerConfig) (connectionEpoch : ℕ) (hpos : 0 < connectionEpoch)
    (peer : Peer) (initialSequence : Seq) (es : List HandshakeEvent)
    (h : Along (step cfg) (fun s ev => s.Allowed cfg ev) (new connectionEpoch peer initialSequence)
      es) : (run (step cfg) (new connectionEpoch peer initialSequence) es).Agreed :=
  (Along.invariant (fun _ _ => Inv.step) (inv_new hpos peer initialSequence) h).agreed

/-- The HELLO arrives, and the client hears of the server's request for metadata. -/
theorem agreed_run_in_order :
    (run (step {}) (new 7 ⟨"10.0.0.1", 4446⟩ 100)
      [.sendHello ⟨"10.0.0.1", 4446⟩ 20 "boat" 0, .sendData (some []), .deliver 1 0, .receive 0,
        .deliver 2 1, .inside (.resume 3 0)]).Agreed :=
  agreed_run {} 7 (by decide) _ _ _ (by decide +kernel)

/-- The HELLO is lost. DATA opens a session of its own, and its first ACK ends the retries: the
server has processed no HELLO, and no replay protection is in force. -/
theorem acknowledged_without_hello :
    ¬ (run (step {}) (new 7 ⟨"10.0.0.1", 4446⟩ 100)
      [.sendHello ⟨"10.0.0.1", 4446⟩ 20 "boat" 0, .sendData (some []), .deliver 1 1,
        .inside (.resume 2 0), .inside (.ackTick 3 ⟨"10.0.0.1", 4446⟩), .receive 0]).Agreed := by
  decide +kernel

/-! ## With epoch binding -/

/-- No guard with an epoch is evicted, and a start raises the epoch, within 64 bits. -/
def Orderly (s : Handshake) (ev : HandshakeEvent) : Prop :=
  (∀ sev ∈ s.serverEvent ev, ∀ x ∈ s.server.ctx.replayGuards.entries, 0 < x.2.epoch →
      ¬ Evicts s.server sev x.1) ∧
    match ev with
    | .start connectionEpoch _ _ =>
      s.connectionEpoch < connectionEpoch ∧ connectionEpoch < 2 ^ 64
    | _ => True

/-- With epoch binding the client accepts only what was sent under its epoch. -/
theorem Inv.epoch_of_accepts (h : s.Inv) (hbound : cfg.epochBoundAuth = true)
    (hlt : s.connectionEpoch < 2 ^ 64) {packet : ControlPacket} (hmem : packet ∈ s.control)
    (haccepts : s.Accepts cfg packet) : packet.epoch = s.connectionEpoch := by
  obtain ⟨hle, e, he⟩ := h.control packet hmem
  have hmax := hle.trans (h.le packet.peer)
  obtain ⟨-, hauth⟩ := haccepts
  rw [authenticates, hbound, Bool.not_true, Bool.false_or, decide_eq_true_eq] at hauth
  rw [he] at hmax hauth ⊢
  have hbits : e < 2 ^ 64 := lt_of_le_of_lt (by exact_mod_cast hmax) hlt
  rw [epochTag_natCast hbits, epochTag_natCast hlt] at hauth
  rw [hauth.2]

theorem Inv.allowed (h : s.Inv) (hbound : cfg.epochBoundAuth = true)
    (hlt : s.connectionEpoch < 2 ^ 64) {ev : HandshakeEvent} (hev : s.Orderly ev) :
    s.Allowed cfg ev := by
  refine ⟨hev.1, ?_⟩
  cases ev with
  | start => exact hev.2.1
  | receive index =>
    exact fun _ packet hp => h.epoch_of_accepts hbound hlt (List.mem_of_getElem? hp)
  | _ => trivial

theorem connectionEpoch_step {ev : HandshakeEvent} (hlt : s.connectionEpoch < 2 ^ 64)
    (hev : s.Orderly ev) : (s.step cfg ev).connectionEpoch < 2 ^ 64 := by
  rw [step]
  cases s.serverEvent ev with
  | some sev => exact hlt
  | none =>
    cases ev with
    | start => exact hev.2.2
    | retryHello payloadLength clientId timestamp =>
      dsimp only [client]
      split_ifs <;> exact hlt
    | receive index =>
      dsimp only [client]
      cases s.control[index]? with
      | none => exact hlt
      | some packet =>
        dsimp only [handleControlPacket]
        split_ifs <;> exact hlt
    | _ => exact hlt

/-- **Agreement with epoch binding.** Where the tags of control packets are bound to the epoch, the
client is right to consider its HELLO acknowledged, whatever is lost, repeated or delayed. -/
theorem agreed_run_bound (cfg : ServerConfig) (hbound : cfg.epochBoundAuth = true)
    (connectionEpoch : ℕ) (hpos : 0 < connectionEpoch) (hlt : connectionEpoch < 2 ^ 64) (peer : Peer)
    (initialSequence : Seq) (es : List HandshakeEvent)
    (h : Along (step cfg) (fun s ev => s.Orderly ev) (new connectionEpoch peer initialSequence) es) :
    (run (step cfg) (new connectionEpoch peer initialSequence) es).Agreed := by
  have hstart : (new connectionEpoch peer initialSequence).Inv ∧
      (new connectionEpoch peer initialSequence).connectionEpoch < 2 ^ 64 :=
    ⟨inv_new hpos peer initialSequence, hlt⟩
  refine (Along.invariant (I := fun s : Handshake => s.Inv ∧ s.connectionEpoch < 2 ^ 64) ?_
    hstart h).1.agreed
  intro s ev hs hev
  exact ⟨hs.1.step (hs.1.allowed hbound hs.2 hev), connectionEpoch_step hs.2 hev⟩

end Handshake

end EdgeLink
