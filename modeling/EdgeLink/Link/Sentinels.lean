import EdgeLink.Client.DeltaSender
import EdgeLink.Codec.Baselines
import EdgeLink.Foundations.Lists
import EdgeLink.Server.CapturedReplay

/-!
# Sentinels over a lossy link

A client that deduplicates values, a network that loses, duplicates, delays and reorders datagrams
and lets them arrive from any source, and the server with a dedup cache in each session
(`DedupLink`). The encoder's cache advances when a batch is prepared; the packet gets its number
once the payload is compressed, and the decoder's cache follows the order in which packets are
dispatched.

* `dedup_step`: what a step of the server does to the dedup caches of its sessions.
* `faithful_of_supported`: as long as every sentinel that is dispatched stands for the last value
  of its key that the session was given (`SupportedStep`), what is injected are the client's values.
* `stale_value_injected`: a lost packet between two sentinels makes the server inject an old value.
-/

namespace EdgeLink

open Serial ServerOutput

/-! ## The dedup caches of the sessions -/

/-- The dedup cache that the next packet of a peer meets. -/
def dedupCache (sessions : OrderedMap Peer ClientSession) (p : Peer) : ValueDedupState :=
  ((sessions.get? p).bind (·.valueDedupState)).getD createValueDedupState

section Sessions

variable {cfg : ServerConfig} {p q : Peer} {sessions sessions' : OrderedMap Peer ClientSession}
  {session session' : ClientSession}

/-- The caches stay, up to sessions that are closed or opened. -/
def CachesKept (sessions sessions' : OrderedMap Peer ClientSession) (q : Peer) : Prop :=
  sessions'.get? q = none ∨ dedupCache sessions' q = dedupCache sessions q

theorem CachesKept.refl (sessions : OrderedMap Peer ClientSession) (q : Peer) :
    CachesKept sessions sessions q := Or.inr rfl

theorem dedupCache_set_self (session : ClientSession) :
    dedupCache (sessions.set p session) p =
      session.valueDedupState.getD createValueDedupState := by
  rw [dedupCache, OrderedMap.get?_set_self]
  rfl

theorem dedupCache_set_of_ne (hq : q ≠ p) (session : ClientSession) :
    dedupCache (sessions.set p session) q = dedupCache sessions q := by
  rw [dedupCache, OrderedMap.get?_set_of_ne _ hq]
  rfl

/-- A session is replaced by one with the same cache. -/
theorem CachesKept.set (h : CachesKept sessions sessions' q) (hp : sessions'.get? p = some session)
    (hcache : session'.valueDedupState = session.valueDedupState) :
    CachesKept sessions (sessions'.set p session') q := by
  have hself : dedupCache (sessions'.set p session') p = dedupCache sessions' p := by
    rw [dedupCache_set_self, dedupCache, hp, hcache]
    rfl
  by_cases hq : q = p
  · subst hq
    rcases h with h | h
    · rw [hp] at h
      cases h
    · exact Or.inr (hself.trans h)
  · rcases h with h | h
    · exact Or.inl (by rw [OrderedMap.get?_set_of_ne _ hq, h])
    · exact Or.inr ((dedupCache_set_of_ne hq session').trans h)

theorem cachesKept_getOrCreateSession (cfg : ServerConfig) (ctx : ServerContext) (now : Time)
    (p q : Peer) :
    CachesKept ctx.clientSessions (getOrCreateSession cfg ctx now p).1.clientSessions q := by
  by_cases hq : q = p
  · subst hq
    cases hs : (getOrCreateSession cfg ctx now q).2 with
    | none => exact Or.inl (get?_getOrCreateSession_none hs).2
    | some s =>
      obtain ⟨hget, ⟨hold, rfl⟩ | ⟨s', hold, rfl⟩⟩ := get?_getOrCreateSession hs
      · exact Or.inr (by rw [dedupCache, dedupCache, hget, hold]; rfl)
      · exact Or.inr (by rw [dedupCache, dedupCache, hget, hold]; rfl)
  · cases hs : (getOrCreateSession cfg ctx now p).1.clientSessions.get? q with
    | none => exact Or.inl hs
    | some s =>
      exact Or.inr (by rw [dedupCache, dedupCache, hs, get?_getOrCreateSession_of_ne hq hs])

/-- What a step of the server does to the caches: nothing is dispatched, or one payload against the
cache of its peer. -/
inductive DedupStep (s s' : Server) (out : List ServerOutput) : Prop where
  | quiet (hout : ∀ o ∈ out, o.dispatched? = none)
      (hkept : ∀ q, CachesKept s.ctx.clientSessions s'.ctx.clientSessions q)
  | dispatched {data : PendingData} {deltas : List Delta} {epoch : ℚ}
      {before : List ServerOutput} (hdata : data ∈ s.pending)
      (hpayload : data.packet.payload = some deltas)
      (hbefore : ∀ o ∈ before, o.dispatched? = none)
      (hout : out = before ++ [.dispatched data epoch
        (dispatchPayload (dedupCache s.ctx.clientSessions data.peer) deltas).2])
      (hopen : s'.ctx.clientSessions.get? data.peer ≠ none)
      (hcache : dedupCache s'.ctx.clientSessions data.peer =
        (dispatchPayload (dedupCache s.ctx.clientSessions data.peer) deltas).1)
      (hkept : ∀ q ≠ data.peer, CachesKept s.ctx.clientSessions s'.ctx.clientSessions q)

theorem dispatched?_of_data? {o : ServerOutput} (h : o.data? = none) : o.dispatched? = none := by
  rcases hd : o.dispatched? with _ | data
  · rfl
  · obtain ⟨epoch, hdata⟩ := data?_of_dispatched? hd
    rw [h] at hdata
    cases hdata

theorem cachesKept_onSession (s : Server) (p : Peer)
    {f : ClientSession → ClientSession × List ServerOutput}
    (hf : ∀ session, (f session).1.valueDedupState = session.valueDedupState) (q : Peer) :
    CachesKept s.ctx.clientSessions (s.onSession p f).1.ctx.clientSessions q := by
  rw [Server.onSession]
  split
  · exact .refl ..
  next session hs => exact (CachesKept.refl ..).set hs (hf session)

/-- What a resumed handler does to the cache of its session. -/
theorem ResumeSession.dedup {data : PendingData} {g : ReplayGuard} {pass : Prop}
    {out : List ServerOutput} (h : ResumeSession data g pass session session' out) :
    ((∀ o ∈ out, o.dispatched? = none) ∧ session'.valueDedupState = session.valueDedupState) ∨
      ∃ deltas before epoch, data.packet.payload = some deltas ∧
        (∀ o ∈ before, o.dispatched? = none) ∧
        out = before ++ [.dispatched data epoch (dispatchPayload
          (session.valueDedupState.getD createValueDedupState) deltas).2] ∧
        session'.valueDedupState = some (dispatchPayload
          (session.valueDedupState.getD createValueDedupState) deltas).1 := by
  have hpassed : ∀ o ∈ passedOutput data g ++ [.tracked data g.epoch], o.dispatched? = none :=
    fun o ho => (passedOutput_silent data g o ho).dispatched
  have hacks : ∀ {acks : List ServerOutput}, (∀ o ∈ acks, Acknowledges session' o) →
      ∀ o ∈ acks, o.dispatched? = none := by
    intro acks h o ho
    obtain ⟨expected, -, rfl⟩ := h o ho
    rfl
  have haccepted : ∀ {requests : List ServerOutput},
      requests = [] ∨ requests = [.fullStatusRequest session.key] →
      ∀ o ∈ passedOutput data g ++ [.tracked data g.epoch] ++ requests ++ [.accepted data g.epoch],
        o.dispatched? = none := by
    intro requests hrequests o ho
    rcases List.mem_append.1 ho with ho | ho
    · rcases List.mem_append.1 ho with ho | ho
      · exact hpassed o ho
      · rcases hrequests with rfl | rfl
        · cases ho
        · obtain rfl := List.mem_singleton.1 ho
          rfl
    · obtain rfl := List.mem_singleton.1 ho
      rfl
  cases h with
  | gated hcore h => exact Or.inl ⟨hacks h, congrArg (·.2.2) hcore⟩
  | duplicate _ _ hcore h =>
    refine Or.inl ⟨fun o ho => ?_, congrArg (·.2.2) hcore⟩
    rcases List.mem_append.1 ho with ho | ho
    · exact hpassed o ho
    · exact hacks h o ho
  | accepted _ _ hcore hrequests _ =>
    exact Or.inl ⟨haccepted hrequests, congrArg (·.2.2) hcore⟩
  | dispatched _ _ hcore hrequests hpayload =>
    exact Or.inr ⟨_, _, g.epoch, hpayload, haccepted hrequests, rfl, congrArg (·.2.2) hcore⟩

/-- **A step of the server and the dedup caches of its sessions.** -/
theorem dedup_step (cfg : ServerConfig) (s : Server) (ev : ServerEvent) :
    DedupStep s (s.step cfg ev) (s.output cfg ev) := by
  cases ev with
  | hello now p hello =>
    refine .quiet (fun o ho => dispatched?_of_data? (handleHelloPacket_data? _ _ _ _ _ o ho))
      fun q => ?_
    have hopen := cachesKept_getOrCreateSession cfg s.ctx now p q
    rcases handleHelloPacket_session cfg s.ctx now p hello with he | ⟨session, s', h1, he, hcore⟩
    · exact (show (s.step cfg (.hello now p hello)).ctx.clientSessions = _ from he) ▸ hopen
    · refine (show (s.step cfg (.hello now p hello)).ctx.clientSessions = _ from he) ▸
        hopen.set (get?_getOrCreateSession h1).1 ?_
      rcases hcore with hcore | hcore <;> exact congrArg (·.2.2) hcore
  | arrive now p packet =>
    refine .quiet (by simp [Server.output, Server.handle]) fun q => ?_
    obtain ⟨-, he | ⟨session, s', h1, he, hcore⟩, -⟩ := arriveData_cases cfg s.ctx now p packet
    · exact (show (s.step cfg (.arrive now p packet)).ctx.clientSessions = _ from he) ▸ .refl ..
    · exact (show (s.step cfg (.arrive now p packet)).ctx.clientSessions = _ from he) ▸
        (CachesKept.refl ..).set h1 (congrArg (·.2.2) hcore)
  | resume now index =>
    rw [Server.step, Server.output, Server.handle]
    dsimp only
    split
    · exact .quiet (by simp) fun q => .refl ..
    next data hdata =>
      have hopen := cachesKept_getOrCreateSession cfg s.ctx now data.peer
      rcases resumeData_session cfg s.ctx now data with ⟨-, he, hout⟩ | ⟨session, s', h1, he, hr⟩
      · exact .quiet (by simp [hout]) fun q => he ▸ hopen q
      have hget := (get?_getOrCreateSession h1).1
      have hsame : session.valueDedupState.getD createValueDedupState =
          dedupCache s.ctx.clientSessions data.peer := by
        rw [← (hopen data.peer).resolve_left (by simp [hget]), dedupCache, hget]
        rfl
      rcases hr.dedup with ⟨hout, hcache⟩ | ⟨deltas, before, epoch, hpayload, hbefore, hout, hcache⟩
      · exact .quiet hout fun q => he ▸ (hopen q).set hget hcache
      · rw [hsame] at hout hcache
        refine .dispatched (List.mem_of_getElem? hdata) hpayload hbefore hout ?_ ?_ fun q hq => ?_
        · rw [he, OrderedMap.get?_set_self]
          exact Option.some_ne_none s'
        · rw [he, dedupCache_set_self, hcache]
          rfl
        · rw [he]
          rcases hopen q with h | h
          · exact Or.inl ((OrderedMap.get?_set_of_ne _ hq _).trans h)
          · exact Or.inr ((dedupCache_set_of_ne hq s').trans h)
  | ackTick now p =>
    exact .quiet
      (fun o ho => dispatched?_of_data? ((onSession_data? (sendPeriodicACK_data? cfg now) p).2 o ho))
      fun q => cachesKept_onSession s p (fun session => congrArg (·.2.2)
        (core_sendPeriodicACK cfg session now)) q
  | nakTimer p sequence =>
    exact .quiet
      (fun o ho => dispatched?_of_data? ((onSession_data? (sessionNakTimer_data? sequence) p).2 o ho))
      fun q => cachesKept_onSession s p (fun session => rfl) q
  | nakFlush p =>
    exact .quiet
      (fun o ho => dispatched?_of_data? ((onSession_data? sessionNakFlush_data? p).2 o ho))
      fun q => cachesKept_onSession s p (fun session => rfl) q
  | expire now =>
    refine .quiet (by simp [Server.output, Server.handle]) fun q => ?_
    change CachesKept _ (s.ctx.clientSessions.filter _) q
    cases hs : (s.ctx.clientSessions.filter fun _ session =>
        decide (now - session.lastPacketTime ≤ SESSION_IDLE_TTL_MS)).get? q with
    | none => exact Or.inl hs
    | some session =>
      have hold := hs
      rw [OrderedMap.get?_filter] at hold
      exact Or.inr (by rw [dedupCache, dedupCache, hs, (Option.filter_eq_some_iff.1 hold).1])

end Sessions

/-! ## The client, the network and the server -/

/-- A batch of the client. -/
structure Batch where
  /-- the encoder's cache before the batch -/
  before : ValueDedupState
  /-- the batch as it is sent without deduplication -/
  values : List Delta
  encoded : List Delta

/-- The server, the client, the datagrams that it has sent, and the baselines of each session. -/
structure DedupLink where
  server : Server
  epoch : ℕ
  /-- the next sequence number of the client -/
  sequence : Seq
  encoder : EncoderState
  /-- every batch that was prepared -/
  batches : List Batch
  /-- the batches whose payload is being compressed -/
  compressing : List ℕ
  sent : List Datagram
  /-- the last value of each key that was dispatched to the session of a peer -/
  baselines : Peer → Baselines

/-- What can happen on the link. -/
inductive DedupEvent where
  /-- the client starts again, with an empty cache -/
  | restart (epoch : ℕ) (initialSequence : Seq)
  | sendHello (payloadLength : ℕ) (clientId : String) (timestamp : ℚ)
  /-- `prepareDeltaPayload` encodes a batch -/
  | prepare (nowMs : Time) (deltas : List Delta)
  /-- a batch is compressed, gets its number and is sent -/
  | send (index : ℕ)
  /-- a datagram of the client arrives at the server, from any source -/
  | deliver (now : Time) (source : Peer) (index : ℕ)
  /-- something happens inside the server -/
  | inside (ev : ServerEvent)

namespace DedupLink

def new (epoch : ℕ) (initialSequence : Seq) : DedupLink :=
  ⟨Server.new, epoch, initialSequence, .new, [], [], [], fun _ _ => none⟩

/-- What an event is to the server. -/
def serverEvent (s : DedupLink) : DedupEvent → Option ServerEvent
  | .deliver now source index =>
    match s.sent[index]? with
    | some (.hello hello) => some (.hello now source hello)
    | some (.data packet) => some (.arrive now source packet)
    | none => none
  | .inside (.hello ..) => none
  | .inside (.arrive ..) => none
  | .inside ev => some ev
  | _ => none

variable (doubles : Doubles) (options : SendOptions) (cfg : ServerConfig)

/-- The packet of a batch. -/
def packet (s : DedupLink) (id : ℕ) (batch : Batch) : DataPacket where
  id := id
  sequence := s.sequence
  tagEpoch := if cfg.epochBoundAuth then bindableEpoch s.epoch else none
  payload := some (batch.encoded.map (·.wire options.useMsgpack))

/-- What an event is to the client. -/
def client (s : DedupLink) : DedupEvent → DedupLink
  | .restart epoch initialSequence =>
    { s with epoch := epoch, sequence := initialSequence, encoder := .new, compressing := [] }
  | .sendHello payloadLength clientId timestamp =>
    let hello : Hello := ⟨payloadLength, some (helloInfo clientId timestamp s.epoch)⟩
    { s with sent := s.sent ++ [.hello hello] }
  | .prepare nowMs deltas =>
    let prepared := prepareDeltaPayload doubles options s.encoder nowMs deltas
    let plain := (prepareDeltaPayload doubles { options with useValueDedup := false } s.encoder nowMs
      deltas).2
    match prepared.2 with
    | none => { s with encoder := prepared.1 }
    | some encoded =>
      { s with
        encoder := prepared.1
        batches := s.batches ++ [⟨s.encoder.dedupState, plain.getD [], encoded⟩]
        compressing := s.compressing ++ [s.batches.length] }
  | .send index =>
    match s.compressing[index]? with
    | none => s
    | some id =>
      match s.batches[id]? with
      | none => s
      | some batch =>
        { s with
          sequence := s.sequence + 1
          compressing := s.compressing.eraseIdx index
          sent := s.sent ++ [.data (s.packet options cfg id batch)] }
  | _ => s

/-- The baselines of the session of a peer after a step of the server. -/
def baselinesAfter (s : DedupLink) (ev : ServerEvent) (p : Peer) : Baselines :=
  match (s.server.step cfg ev).ctx.clientSessions.get? p with
  | none => fun _ => none
  | some _ =>
    match (dispatchedData (s.server.output cfg ev)).find? fun data => data.peer = p with
    | none => s.baselines p
    | some data =>
      noteDeltaArray (s.baselines p) ((data.packet.payload.getD []).take MAX_DELTAS_PER_PACKET)

def step (s : DedupLink) (ev : DedupEvent) : DedupLink :=
  match s.serverEvent ev with
  | none => s.client doubles options cfg ev
  | some sev =>
    { s with server := s.server.step cfg sev, baselines := s.baselinesAfter cfg sev }

def output (s : DedupLink) (ev : DedupEvent) : List ServerOutput :=
  match s.serverEvent ev with
  | none => []
  | some sev => s.server.output cfg sev

/-! ## Faithful dispatch -/

/-- What is injected of a packet are values that its batch has, in their order. -/
def FaithfulOutput (s : DedupLink) : ServerOutput → Prop
  | .dispatched data _ messages => ∃ batch ∈ s.batches[data.packet.id]?,
      (messages.flatMap (·.leaves)).Sublist
        ((batch.values.flatMap (·.leaves)).map (·.wire options.useMsgpack))
  | _ => True

instance (s : DedupLink) (o : ServerOutput) : Decidable (s.FaithfulOutput options o) := by
  unfold FaithfulOutput
  split <;> infer_instance

/-- Everything that is injected in a step are values of the client. -/
def Faithful (s : DedupLink) (ev : DedupEvent) : Prop :=
  ∀ o ∈ s.output cfg ev, s.FaithfulOutput options o

instance (s : DedupLink) (ev : DedupEvent) : Decidable (s.Faithful options cfg ev) :=
  inferInstanceAs (Decidable (∀ o ∈ s.output cfg ev, s.FaithfulOutput options o))

/-- Every sentinel that is dispatched in a step stands for the last value of its key that the
session was given, if there was one. -/
def SupportedStep (s : DedupLink) (ev : DedupEvent) : Prop :=
  ∀ data ∈ dispatchedData (s.output cfg ev), ∀ batch ∈ s.batches[data.packet.id]?,
    Supported options.useMsgpack (batch.before, s.baselines data.peer)
      (batch.values.take MAX_DELTAS_PER_PACKET)

instance (s : DedupLink) (ev : DedupEvent) : Decidable (s.SupportedStep options cfg ev) :=
  inferInstanceAs (Decidable (∀ data ∈ dispatchedData (s.output cfg ev),
    ∀ batch ∈ s.batches[data.packet.id]?, Supported options.useMsgpack
      (batch.before, s.baselines data.peer) (batch.values.take MAX_DELTAS_PER_PACKET)))

/-! ## The invariant -/

/-- A packet has the payload of its batch. -/
def Produced (s : DedupLink) (packet : DataPacket) : Prop :=
  ∃ batch, s.batches[packet.id]? = some batch ∧
    packet.payload = some (batch.encoded.map (·.wire options.useMsgpack))

/-- Batches and packets are what they were built to be. -/
structure Built (s : DedupLink) : Prop where
  encoded : ∀ batch ∈ s.batches, batch.encoded = (dedupDeltaArray batch.before batch.values).2
  sent : ∀ packet, Datagram.data packet ∈ s.sent → s.Produced options packet
  pending : ∀ data ∈ s.server.pending, s.Produced options data.packet

structure Inv (s : DedupLink) : Prop where
  built : s.Built options
  caches : ∀ p, HoldsBaselines (s.baselines p) (dedupCache s.server.ctx.clientSessions p)

variable {doubles options cfg} {s s' : DedupLink} {ev : DedupEvent} {sev : ServerEvent}

theorem built_new (epoch : ℕ) (initialSequence : Seq) :
    (new epoch initialSequence).Built options where
  encoded := by simp [new]
  sent := by simp [new]
  pending := by simp [new, Server.new]

theorem inv_new (epoch : ℕ) (initialSequence : Seq) : (new epoch initialSequence).Inv options where
  built := built_new epoch initialSequence
  caches _ := holdsBaselines_create _

theorem Produced.append {packet : DataPacket} (h : s.Produced options packet)
    {more : List Batch} (hbatches : s'.batches = s.batches ++ more) :
    s'.Produced options packet := by
  obtain ⟨batch, hbatch, hpayload⟩ := h
  refine ⟨batch, ?_, hpayload⟩
  rw [hbatches, List.getElem?_append_left (List.getElem?_eq_some_iff.1 hbatch).1, hbatch]

/-- A step of the client that prepares batches and sends packets of batches. -/
theorem Built.client_of (h : s.Built options) (hserver : s'.server = s.server) {more : List Batch}
    (hbatches : s'.batches = s.batches ++ more)
    (hmore : ∀ batch ∈ more, batch.encoded = (dedupDeltaArray batch.before batch.values).2)
    (hsent : ∀ packet, Datagram.data packet ∈ s'.sent →
      Datagram.data packet ∈ s.sent ∨ s.Produced options packet) : s'.Built options where
  encoded batch hbatch := by
    rw [hbatches] at hbatch
    exact (List.mem_append.1 hbatch).elim (h.encoded batch) (hmore batch)
  sent packet hpacket :=
    ((hsent packet hpacket).elim (h.sent packet) id).append hbatches
  pending data hdata := by
    rw [hserver] at hdata
    exact (h.pending data hdata).append hbatches

/-- A batch that is prepared is the encoding of the one without deduplication. -/
theorem prepared_encoded (hdedup : options.useValueDedup = true) {encoder : EncoderState}
    {nowMs : Time} {deltas encoded : List Delta}
    (h : (prepareDeltaPayload doubles options encoder nowMs deltas).2 = some encoded) :
    encoded = (dedupDeltaArray encoder.dedupState ((prepareDeltaPayload doubles
      { options with useValueDedup := false } encoder nowMs deltas).2.getD [])).2 := by
  rw [prepareDeltaPayload] at h ⊢
  dsimp only at h ⊢
  cases hfiltered : (sanitizeDeltaPayloadForSignalK deltas).bind
      (filterDeltaPayload options.pathFilter) with
  | none =>
    rw [hfiltered] at h
    cases h
  | some filtered =>
    rw [hfiltered] at h
    dsimp only at h ⊢
    cases hthrottled : (throttleDeltaPayload doubles options.pathThrottle nowMs
        encoder.throttleState (quantizeDeltaPayload doubles options.pathPrecision filtered)).2 with
    | none =>
      rw [hthrottled] at h
      cases h
    | some throttled =>
      rw [hthrottled] at h
      simp only [hdedup, if_true, Option.some.injEq] at h
      exact h.symm

theorem Built.client (hdedup : options.useValueDedup = true) (h : s.Built options)
    (ev : DedupEvent) : (s.client doubles options cfg ev).Built options := by
  cases ev with
  | restart epoch initialSequence =>
    exact h.client_of rfl (List.append_nil _).symm (by simp) fun packet hp => Or.inl hp
  | sendHello payloadLength clientId timestamp =>
    refine h.client_of rfl (List.append_nil _).symm (by simp) fun packet hp => ?_
    rcases List.mem_append.1 hp with hp | hp
    · exact Or.inl hp
    · cases List.mem_singleton.1 hp
  | prepare nowMs deltas =>
    rw [DedupLink.client]
    split
    · exact h.client_of rfl (List.append_nil _).symm (by simp) fun packet hp => Or.inl hp
    next encoded hencoded =>
      refine h.client_of rfl rfl (fun batch hbatch => ?_) fun packet hp => Or.inl hp
      obtain rfl := List.mem_singleton.1 hbatch
      exact prepared_encoded hdedup hencoded
  | send index =>
    rw [DedupLink.client]
    split
    · exact h
    · split
      · exact h
      next id _ batch hbatch =>
        refine h.client_of rfl (List.append_nil _).symm (by simp) fun packet hp => ?_
        rcases List.mem_append.1 hp with hp | hp
        · exact Or.inl hp
        · obtain rfl := Datagram.data.inj (List.mem_singleton.1 hp)
          exact Or.inr ⟨batch, hbatch, rfl⟩
  | deliver now source index => exact h
  | inside ev => exact h

/-- The client has no part in what the server has. -/
theorem client_frame (doubles : Doubles) (options : SendOptions) (cfg : ServerConfig)
    (s : DedupLink) (ev : DedupEvent) :
    (s.client doubles options cfg ev).server = s.server ∧
      (s.client doubles options cfg ev).baselines = s.baselines := by
  unfold DedupLink.client
  dsimp only
  split <;> try exact ⟨rfl, rfl⟩
  · split <;> exact ⟨rfl, rfl⟩
  · split
    · exact ⟨rfl, rfl⟩
    · split <;> exact ⟨rfl, rfl⟩

theorem Inv.client (hdedup : options.useValueDedup = true) (h : s.Inv options) (ev : DedupEvent) :
    (s.client doubles options cfg ev).Inv options where
  built := h.built.client hdedup ev
  caches p := by
    obtain ⟨hserver, hbaselines⟩ := client_frame doubles options cfg s ev
    rw [hserver, hbaselines]
    exact h.caches p

/-! ## Dispatch -/

/-- What is injected of a message is a part of it. -/
theorem leaves_injected {d d' : Delta}
    (h : (sanitizeDeltaForSignalK d).bind withoutTelemetry = some d') :
    d'.leaves.Sublist d.leaves := by
  obtain ⟨sanitized, hsanitized, hwithout⟩ := Option.bind_eq_some_iff.1 h
  have hsub : sanitized.leaves.Sublist d.leaves := by
    have hleaves := leaves_sanitizeDeltaForSignalK d
    rw [hsanitized, Option.map_some, Option.getD_some] at hleaves
    rw [hleaves]
    exact List.filter_sublist
  rw [withoutTelemetry] at hwithout
  dsimp only at hwithout
  split_ifs at hwithout
  obtain rfl := Option.some.inj hwithout
  refine List.Sublist.trans ?_ hsub
  exact List.filter_sublist.flatMap _

/-- A payload is decoded with the cache, and of each delta what the sanitiser leaves and is no
telemetry is injected. -/
theorem dispatchPayload_eq (state : ValueDedupState) (deltas : List Delta) :
    let r := undedupDeltaArray state (deltas.take MAX_DELTAS_PER_PACKET)
    dispatchPayload state deltas =
      (r.1, r.2.filterMap fun d => (sanitizeDeltaForSignalK d).bind withoutTelemetry) := by
  intro r
  have hexpand : mapAccum expandDelta state (deltas.take MAX_DELTAS_PER_PACKET) =
      (r.1, r.2.map sanitizeDeltaForSignalK) :=
    mapAccum_map undedupDelta sanitizeDeltaForSignalK state (deltas.take MAX_DELTAS_PER_PACKET)
  rw [dispatchPayload, hexpand]
  dsimp only
  rw [List.reduceOption, List.filterMap_map, List.filterMap_filterMap]
  rfl

/-- **A payload against the cache of its session.** Of a supported batch only values of the client
are injected, and the cache holds baselines only afterwards. -/
theorem dispatchPayload_supported {state : ValueDedupState} {b : Baselines} {batch : Batch}
    (h : HoldsBaselines b state)
    (hencoded : batch.encoded = (dedupDeltaArray batch.before batch.values).2)
    (hsupported : Supported options.useMsgpack (batch.before, b)
      (batch.values.take MAX_DELTAS_PER_PACKET)) :
    let payload := batch.encoded.map (·.wire options.useMsgpack)
    HoldsBaselines (noteDeltaArray b (payload.take MAX_DELTAS_PER_PACKET))
        (dispatchPayload state payload).1 ∧
      ((dispatchPayload state payload).2.flatMap (·.leaves)).Sublist
        ((batch.values.flatMap (·.leaves)).map (·.wire options.useMsgpack)) := by
  intro payload
  have hpayload : payload.take MAX_DELTAS_PER_PACKET = (dedupDeltaArray batch.before
      (batch.values.take MAX_DELTAS_PER_PACKET)).2.map (·.wire options.useMsgpack) := by
    rw [← List.map_take, hencoded, dedupDeltaArray, dedupDeltaArray, mapAccum_take]
  obtain ⟨hholds, hvalues⟩ := undedup_supported h hsupported
  rw [dispatchPayload_eq, hpayload]
  refine ⟨hholds, (flatMap_filterMap_sublist (fun d d' h => leaves_injected h) _).trans ?_⟩
  have htake : ((batch.values.take MAX_DELTAS_PER_PACKET).flatMap (·.leaves)).Sublist
      (batch.values.flatMap (·.leaves)) := (List.take_sublist ..).flatMap _
  refine List.Sublist.trans ?_ (htake.map _)
  rw [List.map_flatMap]
  exact flatMap_sublist (fun _ _ hsub => hsub) hvalues

theorem Produced.of_serverEvent (h : s.Built options) (hsev : s.serverEvent ev = some sev)
    {data : PendingData} (hdata : data ∈ (s.server.step cfg sev).pending) :
    s.Produced options data.packet := by
  rcases mem_pending_step hdata with hold | ⟨now, rfl, -, -⟩
  · exact h.pending data hold
  · cases ev with
    | deliver now source index =>
      rw [serverEvent] at hsev
      split at hsev
      · cases hsev
      next packet hpacket =>
        cases hsev
        exact h.sent _ (List.mem_of_getElem? hpacket)
      · cases hsev
    | inside ev => cases ev <;> cases hsev
    | _ => cases hsev

theorem step_of_serverEvent (hsev : s.serverEvent ev = some sev) :
    s.step doubles options cfg ev =
      { s with server := s.server.step cfg sev, baselines := s.baselinesAfter cfg sev } := by
  rw [step, hsev]

theorem Built.step (hdedup : options.useValueDedup = true) (h : s.Built options)
    (ev : DedupEvent) : (s.step doubles options cfg ev).Built options := by
  cases hsev : s.serverEvent ev with
  | none =>
    rw [DedupLink.step, hsev]
    exact h.client hdedup ev
  | some sev =>
    rw [step_of_serverEvent hsev]
    exact ⟨h.encoded, h.sent, fun data hdata => .of_serverEvent h hsev hdata⟩

/-- What no packet was dispatched to keeps its baselines. -/
theorem holdsBaselines_kept (h : s.Inv options) {p : Peer}
    (hnot : (dispatchedData (s.server.output cfg sev)).find? (fun data => data.peer = p) = none)
    (hkept : CachesKept s.server.ctx.clientSessions (s.server.step cfg sev).ctx.clientSessions p) :
    HoldsBaselines (s.baselinesAfter cfg sev p)
      (dedupCache (s.server.step cfg sev).ctx.clientSessions p) := by
  cases hsession : (s.server.step cfg sev).ctx.clientSessions.get? p with
  | none =>
    rw [dedupCache, hsession]
    exact holdsBaselines_create _
  | some session =>
    rw [baselinesAfter, hsession, hnot, hkept.resolve_left (by simp [hsession])]
    exact h.caches p

/-- **One step.** -/
theorem Inv.server (h : s.Inv options) (hsev : s.serverEvent ev = some sev)
    (hsupported : s.SupportedStep options cfg ev) :
    s.Faithful options cfg ev ∧ (s.step doubles options cfg ev).Inv options := by
  have houtput : s.output cfg ev = s.server.output cfg sev := by rw [output, hsev]
  rw [SupportedStep, houtput] at hsupported
  rw [Faithful, houtput, step_of_serverEvent hsev]
  -- an output that dispatches nothing
  have hsilent : ∀ o : ServerOutput, o.dispatched? = none → s.FaithfulOutput options o := by
    intro o ho
    cases o <;> trivial
  have hpending : ∀ data ∈ (s.server.step cfg sev).pending, s.Produced options data.packet :=
    fun data hdata => .of_serverEvent h.built hsev hdata
  cases dedup_step cfg s.server sev with
  | quiet hout hkept =>
    have hnone : dispatchedData (s.server.output cfg sev) = [] := List.filterMap_eq_nil_iff.2 hout
    exact ⟨fun o ho => hsilent o (hout o ho), ⟨h.built.encoded, h.built.sent, hpending⟩,
      fun p => holdsBaselines_kept h (by rw [hnone]; rfl) (hkept p)⟩
  | dispatched hdata hpayload hbefore hout hopen hcache hkept =>
    rename_i data deltas epoch before
    have hnone : before.filterMap dispatched? = [] := List.filterMap_eq_nil_iff.2 hbefore
    have hone : dispatchedData (s.server.output cfg sev) = [data] := by
      rw [hout, dispatchedData, List.filterMap_append, hnone]
      rfl
    obtain ⟨batch, hbatch, hproduced⟩ := h.built.pending data hdata
    obtain rfl : deltas = _ := Option.some.inj (hpayload.symm.trans hproduced)
    obtain ⟨hholds, hmessages⟩ := dispatchPayload_supported (h.caches data.peer)
      (h.built.encoded batch (List.mem_of_getElem? hbatch))
      (hsupported data (by rw [hone]; exact List.mem_singleton_self data) batch hbatch)
    refine ⟨fun o ho => ?_, ⟨h.built.encoded, h.built.sent, hpending⟩, fun p => ?_⟩
    · rw [hout] at ho
      rcases List.mem_append.1 ho with ho | ho
      · exact hsilent o (hbefore o ho)
      · obtain rfl := List.mem_singleton.1 ho
        exact ⟨batch, hbatch, hmessages⟩
    · by_cases hp : p = data.peer
      · subst hp
        obtain ⟨session, hsession⟩ := Option.ne_none_iff_exists'.1 hopen
        change HoldsBaselines (s.baselinesAfter cfg sev data.peer)
          (dedupCache (s.server.step cfg sev).ctx.clientSessions data.peer)
        rw [hcache, baselinesAfter, hsession, hone]
        simpa [hpayload] using hholds
      · exact holdsBaselines_kept h (by rw [hone]; simp [Ne.symm hp]) (hkept p hp)

theorem Inv.step (hdedup : options.useValueDedup = true) (h : s.Inv options)
    (hsupported : s.SupportedStep options cfg ev) :
    s.Faithful options cfg ev ∧ (s.step doubles options cfg ev).Inv options := by
  cases hsev : s.serverEvent ev with
  | none =>
    rw [Faithful, output, DedupLink.step, hsev]
    exact ⟨by simp, h.client hdedup ev⟩
  | some sev => exact h.server hsev hsupported

/-- **Every injected value is the client's**, in every run in which each sentinel that is dispatched
stands for the last value of its key that the session was given. -/
theorem faithful_of_supported (doubles : Doubles) (options : SendOptions) (cfg : ServerConfig)
    (hdedup : options.useValueDedup = true) (epoch : ℕ) (initialSequence : Seq)
    {es : List DedupEvent}
    (h : Along (step doubles options cfg) (SupportedStep options cfg) (new epoch initialSequence) es) :
    Along (step doubles options cfg) (Faithful options cfg) (new epoch initialSequence) es :=
  Along.of_invariant (fun _ _ hs hev => hs.step hdedup hev) (inv_new epoch initialSequence) h

/-- The engine's state is sent: it runs, it stops, it is still stopped. -/
def engineStates : List DedupEvent :=
  [.sendHello 90 "boat" 0,
    .prepare 1000 [.single "vessels.self" "propulsion.port.state" (.str "started")], .send 0,
    .prepare 2000 [.single "vessels.self" "propulsion.port.state" (.str "stopped")], .send 0,
    .prepare 3000 [.single "vessels.self" "propulsion.port.state" (.str "stopped")], .send 0]

/-- Packets that arrive one after another, the first of them a HELLO. -/
def arrivals (packets : List ℕ) : List DedupEvent :=
  packets.flatMap fun index =>
    [.deliver 5000 ⟨"10.0.0.1", 4446⟩ index, .inside (.resume 5000 0)]

theorem faithful_engineStates :
    Along (step exactDoubles { useValueDedup := true } { epochBoundAuth := true })
      (Faithful { useValueDedup := true } { epochBoundAuth := true }) (new 7 100)
      (engineStates ++ arrivals [0, 1, 2, 3]) :=
  faithful_of_supported exactDoubles { useValueDedup := true } { epochBoundAuth := true } rfl 7 100
    (by decide +kernel)

/-- The second packet is lost: the server injects that the engine runs. -/
theorem stale_value_injected :
    ¬Along (step exactDoubles { useValueDedup := true } { epochBoundAuth := true })
      (Faithful { useValueDedup := true } { epochBoundAuth := true }) (new 7 100)
      (engineStates ++ arrivals [0, 1, 3]) := by
  decide +kernel

end DedupLink

end EdgeLink
