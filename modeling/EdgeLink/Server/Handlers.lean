import EdgeLink.Server.Receive
import Mathlib.Data.List.ReduceOption

/-!
# What the handlers do to the tables

One inversion lemma per handler, for the sessions and the replay guards and for what is put out
about a DATA packet. No handler reads the guards through a session, nor the other way round, so
the two tables are followed separately.

* `Keyed`: a session is stored under its own key, `keyed_step`.
* `GuardsKept`: a handler leaves the guards of other peers alone, but for an eviction.
* `handleHelloPacket_guard`: a HELLO renews the guard of its peer.
* `rejectReplayedDataPacket_cases`, `resumeData_guard`: a resumed DATA handler looks up the guard
  of its peer, and offers the number of its packet to the window.
-/

namespace EdgeLink

variable {cfg : ServerConfig} {ctx : ServerContext} {now : Time} {p q : Peer} {g g' : ReplayGuard}
  {session s s' : ClientSession} {data : PendingData}

/-! ## Handlers that leave a table alone -/

@[simp] theorem replayGuards_setSession (ctx : ServerContext) (s : ClientSession) (p : Peer) :
    (setSession ctx s p).replayGuards = ctx.replayGuards := rfl

@[simp] theorem clientSessions_setReplayGuard (ctx : ServerContext) (p : Peer) (g : ReplayGuard) :
    (setReplayGuard ctx p g).clientSessions = ctx.clientSessions := rfl

@[simp] theorem replayGuards_getOrCreateSession (cfg : ServerConfig) (ctx : ServerContext)
    (now : Time) (p : Peer) :
    (getOrCreateSession cfg ctx now p).1.replayGuards = ctx.replayGuards := by
  unfold getOrCreateSession
  split
  · rfl
  · dsimp only
    split_ifs <;> rfl

@[simp] theorem clientSessions_getReplayGuard (ctx : ServerContext) (now : Time) (p : Peer) :
    (getReplayGuard ctx now p).1.clientSessions = ctx.clientSessions := by
  unfold getReplayGuard
  split <;> rfl

@[simp] theorem handshakedAddresses_getReplayGuard (ctx : ServerContext) (now : Time) (p : Peer) :
    (getReplayGuard ctx now p).1.handshakedAddresses = ctx.handshakedAddresses := by
  unfold getReplayGuard
  split <;> rfl

@[simp] theorem handshakedAddresses_getOrCreateSession (cfg : ServerConfig) (ctx : ServerContext)
    (now : Time) (p : Peer) :
    (getOrCreateSession cfg ctx now p).1.handshakedAddresses = ctx.handshakedAddresses := by
  unfold getOrCreateSession
  split
  · rfl
  · dsimp only
    split_ifs <;> rfl

@[simp] theorem clientSessions_applyHelloEpoch (ctx : ServerContext) (now : Time) (p : Peer)
    (epoch : JsValue) :
    (applyHelloEpoch ctx now p epoch).1.clientSessions = ctx.clientSessions := by
  unfold applyHelloEpoch
  split
  · rfl
  · dsimp only
    split_ifs <;> simp

@[simp] theorem clientSessions_markPeerHandshaked (ctx : ServerContext) (now : Time) (p : Peer) :
    (markPeerHandshaked ctx now p).clientSessions = ctx.clientSessions := by
  simp [markPeerHandshaked, markHandshakedAddress]

@[simp] theorem clientSessions_parseHelloInfo (ctx : ServerContext) (now : Time)
    (s : ClientSession) (hello : Hello) :
    (parseHelloInfo ctx now s hello).1.clientSessions = ctx.clientSessions := by
  unfold parseHelloInfo
  split
  · split_ifs <;> simp
  · rfl

@[simp] theorem replayGuards_dataRateLimited (ctx : ServerContext) (now : Time) (p : Peer) :
    (dataRateLimited ctx now p).1.replayGuards = ctx.replayGuards := by
  unfold dataRateLimited
  split <;> rfl

@[simp] theorem replayGuards_handshakedPeerAddress (ctx : ServerContext) (now : Time)
    (address : String) :
    (handshakedPeerAddress ctx now address).1.replayGuards = ctx.replayGuards := by
  unfold handshakedPeerAddress
  split_ifs <;> rfl

@[simp] theorem clientSessions_handshakedPeerAddress (ctx : ServerContext) (now : Time)
    (address : String) :
    (handshakedPeerAddress ctx now address).1.clientSessions = ctx.clientSessions := by
  unfold handshakedPeerAddress
  split_ifs <;> rfl

/-- Telemetry changes the owner of the telemetry slot only. -/
theorem consumeTelemetryUpdate_frame (ctx : ServerContext) (now : Time) (session : ClientSession)
    (u : DeltaUpdate) :
    (consumeTelemetryUpdate ctx now session u).replayGuards = ctx.replayGuards ∧
      (consumeTelemetryUpdate ctx now session u).clientSessions = ctx.clientSessions := by
  unfold consumeTelemetryUpdate
  dsimp only
  split_ifs <;> exact ⟨rfl, rfl⟩

theorem processServerDelta_frame (now : Time) (session : ClientSession)
    (s : ServerContext × ValueDedupState) (d : Delta) :
    (processServerDelta now session s d).1.1.replayGuards = s.1.replayGuards ∧
      (processServerDelta now session s d).1.1.clientSessions = s.1.clientSessions := by
  unfold processServerDelta
  dsimp only
  split
  · exact ⟨rfl, rfl⟩
  · exact run_invariant (I := fun ctx : ServerContext => ctx.replayGuards = s.1.replayGuards ∧
        ctx.clientSessions = s.1.clientSessions)
      (fun ctx u h => by
        obtain ⟨hg, hs⟩ := consumeTelemetryUpdate_frame ctx now session u
        exact ⟨hg.trans h.1, hs.trans h.2⟩) ⟨rfl, rfl⟩ _

theorem decodeAndDispatchPayload_frame (ctx : ServerContext) (now : Time)
    (session : ClientSession) (data : PendingData) :
    (decodeAndDispatchPayload ctx now session data).1.replayGuards = ctx.replayGuards ∧
      (decodeAndDispatchPayload ctx now session data).1.clientSessions = ctx.clientSessions := by
  unfold decodeAndDispatchPayload
  split
  · exact ⟨rfl, rfl⟩
  · exact mapAccum_invariant (I := fun s : ServerContext × ValueDedupState =>
        s.1.replayGuards = ctx.replayGuards ∧ s.1.clientSessions = ctx.clientSessions)
      (fun s d h => by
        obtain ⟨hg, hs⟩ := processServerDelta_frame now session s d
        exact ⟨hg.trans h.1, hs.trans h.2⟩)
      (s := (ctx, session.valueDedupState.getD createValueDedupState)) ⟨rfl, rfl⟩ _

/-! ## The guards of other peers -/

/-- A handler of `p` that turns the guards `m` into `m'` leaves those of other peers alone, but for
the one that the creation of `p`'s guard evicts from a full table. -/
def GuardsKept (p : Peer) (m m' : OrderedMap Peer ReplayGuard) : Prop :=
  ∀ q ≠ p, m'.get? q = m.get? q ∨
    (m.get? p = none ∧ MAX_REPLAY_GUARDS ≤ m.size ∧ m.oldestBy (·.lastSeen) = some q ∧
      m'.get? q = none)

theorem GuardsKept.refl (p : Peer) (m : OrderedMap Peer ReplayGuard) : GuardsKept p m m :=
  fun _ _ => Or.inl rfl

theorem GuardsKept.set {m m' : OrderedMap Peer ReplayGuard} (h : GuardsKept p m m')
    (g : ReplayGuard) : GuardsKept p m (m'.set p g) := by
  intro q hq
  rw [OrderedMap.get?_set_of_ne _ hq]
  exact h q hq

theorem GuardsKept.trans {m m' m'' : OrderedMap Peer ReplayGuard} (h : GuardsKept p m m')
    (hp : m'.get? p = some g) (h' : GuardsKept p m' m'') : GuardsKept p m m'' := by
  intro q hq
  rcases h' q hq with e | ⟨hn, -⟩
  · rw [e]
    exact h q hq
  · rw [hp] at hn
    cases hn

theorem getReplayGuard_kept (ctx : ServerContext) (now : Time) (p : Peer) :
    GuardsKept p ctx.replayGuards (getReplayGuard ctx now p).1.replayGuards := by
  intro q hq
  unfold getReplayGuard
  split
  · exact Or.inl (OrderedMap.get?_set_of_ne _ hq _)
  next hp =>
    dsimp only
    rw [OrderedMap.get?_set_of_ne _ hq]
    unfold evictOldestIfFull
    split_ifs with hfull
    · exact Or.inl rfl
    · split
      next oldest ho =>
        rw [OrderedMap.get?_delete]
        split_ifs with he
        · exact Or.inr ⟨hp, not_lt.1 hfull, he ▸ ho, rfl⟩
        · exact Or.inl rfl
      · exact Or.inl rfl

/-! ## Sessions are stored under their own key -/

/-- Every session of the table is stored under its own key. -/
def Keyed (m : OrderedMap Peer ClientSession) : Prop := ∀ p s, m.get? p = some s → s.key = p

theorem Keyed.set {m : OrderedMap Peer ClientSession} (h : Keyed m) (hs : s.key = p) :
    Keyed (m.set p s) :=
  OrderedMap.forall_get?_set (fun q s' _ => h q s') hs

theorem getOrCreateSession_keyed (h : Keyed ctx.clientSessions) (cfg : ServerConfig) (now : Time)
    (p : Peer) :
    Keyed (getOrCreateSession cfg ctx now p).1.clientSessions ∧
      ∀ s, (getOrCreateSession cfg ctx now p).2 = some s → s.key = p :=
  forall_getOrCreateSession h rfl fun _ hs => hs

/-! ## What of a session matters to the others -/

/-- The part of a session that outlives a packet and decides what the next one meets: its key, the
tracker and the dedup cache. -/
def ClientSession.core (s : ClientSession) : Peer × SequenceTracker × Option ValueDedupState :=
  (s.key, s.sequenceTracker, s.valueDedupState)

@[simp] theorem core_ackDuplicate (s : ClientSession) (now : Time) :
    (ackDuplicate s now).1.core = s.core := by
  unfold ackDuplicate
  split <;> rfl

@[simp] theorem core_requestFullStatus (cfg : ServerConfig) (s : ClientSession) :
    (requestFullStatus cfg s).1.core = s.core := by
  unfold requestFullStatus
  split_ifs <;> rfl

@[simp] theorem core_updateLossWindow (s : ClientSession) (seq : Seq) (resynced : Bool) :
    (updateLossWindow s seq resynced).core = s.core := by
  unfold updateLossWindow
  split_ifs <;> rfl

@[simp] theorem core_sendPeriodicACK (cfg : ServerConfig) (s : ClientSession) (now : Time) :
    (sendPeriodicACK cfg s now).1.core = s.core := by
  unfold sendPeriodicACK
  split
  · rfl
  · dsimp only
    split_ifs <;> rfl

@[simp] theorem core_primeSessionRequests (cfg : ServerConfig) (s : ClientSession) :
    (primeSessionRequests cfg s).1.core = s.core := by
  simp [primeSessionRequests, core_requestFullStatus]
  rfl

/-- A HELLO that raises the epoch resets the tracker of its session; no other does. -/
theorem parseHelloInfo_core (ctx : ServerContext) (now : Time) (s : ClientSession)
    (hello : Hello) :
    (parseHelloInfo ctx now s hello).2.core = s.core ∨
      (parseHelloInfo ctx now s hello).2.core =
        (s.key, s.sequenceTracker.reset, s.valueDedupState) := by
  unfold parseHelloInfo
  split
  · split_ifs
    · dsimp only
      split_ifs
      · exact Or.inr rfl
      · exact Or.inl rfl
    · exact Or.inl rfl
  · exact Or.inl rfl

/-- What a HELLO does to the session of its peer. -/
theorem handleHelloPacket_session (cfg : ServerConfig) (ctx : ServerContext) (now : Time)
    (p : Peer) (hello : Hello) :
    let r := getOrCreateSession cfg ctx now p
    let sessions := (handleHelloPacket cfg ctx now p hello).1.clientSessions
    sessions = r.1.clientSessions ∨
      ∃ s s', r.2 = some s ∧ sessions = r.1.clientSessions.set p s' ∧
        (s'.core = s.core ∨ s'.core = (s.key, s.sequenceTracker.reset, s.valueDedupState)) := by
  dsimp only
  unfold handleHelloPacket
  dsimp only
  split
  · exact Or.inl rfl
  next s hs =>
    split_ifs
    · exact Or.inl rfl
    · refine Or.inr ⟨s, (primeSessionRequests cfg
        (parseHelloInfo (getOrCreateSession cfg ctx now p).1 now s hello).2).1, hs, ?_, ?_⟩
      · simp [setSession]
      · rw [core_primeSessionRequests]
        exact parseHelloInfo_core _ now s hello

/-! ## HELLO -/

/-- `g'` is the guard `g` after a HELLO that advertises `epoch`: a higher epoch than the guard's is
adopted, with an empty window. -/
def Renewed (epoch : Option ℚ) (g g' : ReplayGuard) : Prop :=
  (g'.epoch = g.epoch ∧ g'.window = g.window ∧ ∀ e, epoch = some e → e ≤ g.epoch) ∨
    (epoch = some g'.epoch ∧ g.epoch < g'.epoch ∧ g'.window = g.window.reset)

/-- The guard of a peer, or the one that a look-up would create. -/
def guardOrNew (ctx : ServerContext) (now : Time) (p : Peer) : ReplayGuard :=
  (ctx.replayGuards.get? p).getD (newReplayGuard now)

theorem getReplayGuard_snd (ctx : ServerContext) (now : Time) (p : Peer) :
    (getReplayGuard ctx now p).2 = { guardOrNew ctx now p with lastSeen := now } := by
  unfold getReplayGuard guardOrNew
  split
  next g h => rw [h]; rfl
  next h => rw [h]; rfl

/-- The epoch that the payload of a HELLO advertises. -/
def Hello.epoch (hello : Hello) : Option ℚ :=
  match hello.info with
  | some info => if info.isObjectType ∧ info ≠ .null then validEpoch (info.get "epoch") else none
  | none => none

theorem applyHelloEpoch_guard (ctx : ServerContext) (now : Time) (epoch : JsValue)
    (hg : ctx.replayGuards.get? p = some g) :
    (∃ g', (applyHelloEpoch ctx now p epoch).1.replayGuards.get? p = some g' ∧
      Renewed (validEpoch epoch) g g') ∧
    GuardsKept p ctx.replayGuards (applyHelloEpoch ctx now p epoch).1.replayGuards := by
  unfold applyHelloEpoch
  split
  next h => exact ⟨⟨g, hg, Or.inl ⟨rfl, rfl, by simp [h]⟩⟩, .refl _ _⟩
  next e h =>
    have hk := getReplayGuard_kept ctx now p
    rw [getReplayGuard_of_mem hg] at hk ⊢
    rw [h]
    dsimp only
    split_ifs with hlt
    · exact ⟨⟨_, OrderedMap.get?_set_self _ _ _, Or.inr ⟨rfl, hlt, rfl⟩⟩, hk.set _⟩
    · refine ⟨⟨_, OrderedMap.get?_set_self _ _ _, Or.inl ⟨rfl, rfl, ?_⟩⟩, hk⟩
      rintro _ ⟨⟩
      exact not_lt.1 hlt

theorem getReplayGuard_congr {ctx' : ServerContext} (h : ctx'.replayGuards = ctx.replayGuards)
    (now : Time) (p : Peer) :
    (getReplayGuard ctx' now p).1.replayGuards = (getReplayGuard ctx now p).1.replayGuards ∧
      (getReplayGuard ctx' now p).2 = (getReplayGuard ctx now p).2 := by
  unfold getReplayGuard
  rw [h]
  split <;> exact ⟨rfl, rfl⟩

theorem markPeerHandshaked_guard (ctx : ServerContext) (now : Time) (p : Peer) :
    (markPeerHandshaked ctx now p).replayGuards.get? p =
      some { guardOrNew ctx now p with lastSeen := now, handshaked := true } ∧
    GuardsKept p ctx.replayGuards (markPeerHandshaked ctx now p).replayGuards := by
  unfold markPeerHandshaked
  dsimp only
  rw [getReplayGuard_snd]
  exact ⟨OrderedMap.get?_set_self _ _ _, (getReplayGuard_kept ctx now p).set _⟩

/-- A HELLO that is not refused: its peer has a session or gets one, and it is not too long. -/
def Admitted (cfg : ServerConfig) (ctx : ServerContext) (now : Time) (p : Peer) (hello : Hello) :
    Prop :=
  (getOrCreateSession cfg ctx now p).2.isSome = true ∧
    hello.payloadLength ≤ HELLO_PAYLOAD_MAX_BYTES

instance (cfg : ServerConfig) (ctx : ServerContext) (now : Time) (p : Peer) (hello : Hello) :
    Decidable (Admitted cfg ctx now p hello) := by
  unfold Admitted
  infer_instance

/-- **What a HELLO does to the guards.** It is refused and nothing happens to them, or the guard of
its peer, created if need be, is renewed. -/
theorem handleHelloPacket_guard (hkeyed : Keyed ctx.clientSessions) (cfg : ServerConfig)
    (now : Time) (p : Peer) (hello : Hello) :
    let guards := (handleHelloPacket cfg ctx now p hello).1.replayGuards
    guards = ctx.replayGuards ∨ (Admitted cfg ctx now p hello ∧
      (∃ g', guards.get? p = some g' ∧ Renewed hello.epoch (guardOrNew ctx now p) g') ∧
        GuardsKept p ctx.replayGuards guards) := by
  have same := replayGuards_getOrCreateSession cfg ctx now p
  dsimp only
  unfold handleHelloPacket
  dsimp only
  split
  · exact Or.inl same
  next session hs =>
    have hkey : session.key = p := (getOrCreateSession_keyed hkeyed cfg now p).2 session hs
    split_ifs with hlen
    · exact Or.inl same
    · have hadmitted : Admitted cfg ctx now p hello := ⟨by rw [hs]; rfl, not_lt.1 hlen⟩
      rw [replayGuards_setSession]
      unfold parseHelloInfo
      split
      next info hi =>
        split_ifs with ho
        · have he : hello.epoch = validEpoch (info.get "epoch") := by simp [Hello.epoch, hi, ho]
          dsimp only [applyHelloIdentity]
          rw [hkey, he]
          obtain ⟨hg, hk⟩ := markPeerHandshaked_guard (getOrCreateSession cfg ctx now p).1 now p
          obtain ⟨⟨g', hg', hr⟩, hk'⟩ := applyHelloEpoch_guard _ now (info.get "epoch") hg
          rw [same] at hk
          refine Or.inr ⟨hadmitted, ⟨g', hg', ?_⟩, hk.trans hg hk'⟩
          simpa only [Renewed, guardOrNew, same] using hr
        · exact Or.inl same
      · exact Or.inl same

/-! ## DATA -/

/-- What is put out about a packet that passes the replay gate. -/
def passedOutput (data : PendingData) (g : ReplayGuard) : List ServerOutput :=
  if g.window.Fresh data.packet.sequence then [.recorded data g.epoch] else []

/-- The guard of a peer after the window has been offered a number. -/
def ReplayGuard.offer (g : ReplayGuard) (seq : Seq) : ReplayGuard :=
  { g with window := (g.window.accept seq).2 }

/-- The replay gate lets a packet through: its source port has handshaked, or its address has not;
and its number is fresh, or the peer has no epoch. -/
def PassesGate (ctx : ServerContext) (now : Time) (data : PendingData) : Prop :=
  let g := guardOrNew ctx now data.peer
  (g.handshaked = true ∨ ctx.handshakedAddresses.has data.peer.address = false) ∧
    (g.window.Fresh data.packet.sequence ∨ g.epoch = 0)

instance (ctx : ServerContext) (now : Time) (data : PendingData) :
    Decidable (PassesGate ctx now data) := by
  unfold PassesGate
  infer_instance

/-- What the replay gate does, by case: the source port is refused, the number is a replay, or the
packet passes. -/
theorem rejectReplayedDataPacket_cases (ctx : ServerContext) (now : Time)
    (session : ClientSession) (data : PendingData) :
    let r := getReplayGuard ctx now data.peer
    let res := rejectReplayedDataPacket ctx now session data
    res.1.clientSessions = ctx.clientSessions ∧
      ((res.1.replayGuards = r.1.replayGuards ∧ res.2 = (session, true, [])) ∨
        (res.1.replayGuards = r.1.replayGuards.set data.peer (r.2.offer data.packet.sequence) ∧
          ((¬ r.2.window.Fresh data.packet.sequence ∧ r.2.epoch ≠ 0 ∧
              res.2 = ((ackDuplicate session now).1, true, (ackDuplicate session now).2)) ∨
            (PassesGate ctx now data ∧
              res.2 = (session, false, passedOutput data r.2))))) := by
  dsimp only
  unfold rejectReplayedDataPacket
  dsimp only
  set r := getReplayGuard ctx now data.peer with hr
  set known := if r.2.handshaked then (r.1, false)
    else handshakedPeerAddress r.1 now data.peer.address with hknown
  have hsame : known.1.replayGuards = r.1.replayGuards ∧
      known.1.clientSessions = ctx.clientSessions := by
    rw [hknown]
    split_ifs <;> simp [hr]
  have hport : ¬ known.2 = true → (guardOrNew ctx now data.peer).handshaked = true ∨
      ctx.handshakedAddresses.has data.peer.address = false := by
    rw [hknown, hr, getReplayGuard_snd]
    split_ifs with hh
    · exact fun _ => Or.inl hh
    · intro hk
      refine Or.inr (Bool.eq_false_iff.2 fun hhas => hk ?_)
      simp [handshakedPeerAddress, hhas]
  by_cases h1 : known.2
  · rw [if_pos h1]
    exact ⟨hsame.2, Or.inl ⟨hsame.1, rfl⟩⟩
  rw [if_neg h1]
  by_cases h2 : (r.2.window.accept data.packet.sequence).1 = true ∨ r.2.epoch = 0
  · rw [if_pos h2]
    refine ⟨hsame.2, Or.inr ⟨by rw [setReplayGuard, hsame.1]; rfl, Or.inr ⟨⟨hport h1, ?_⟩, ?_⟩⟩⟩
    · rw [hr, getReplayGuard_snd] at h2
      exact h2.imp_left ReplayWindow.accept_eq_true.1
    · simp only [passedOutput, ReplayWindow.accept_eq_true]
  · rw [if_neg h2]
    rw [ReplayWindow.accept_eq_true, not_or] at h2
    exact ⟨hsame.2, Or.inr ⟨by rw [setReplayGuard, hsame.1]; rfl, Or.inl ⟨h2.1, h2.2, rfl⟩⟩⟩

/-- What the tracking of a sequence number does, by case: the packet does not pass the replay gate,
or it passes and the tracker calls it a duplicate, or it is accepted. -/
theorem trackDataSequence_cases (cfg : ServerConfig) (ctx : ServerContext) (now : Time)
    (session : ClientSession) (data : PendingData) :
    let r := getReplayGuard ctx now data.peer
    let res := trackDataSequence cfg ctx now session data
    let t := session.sequenceTracker.processSequence data.packet.sequence
    let tracked := { session with sequenceTracker := t.1 }
    res.1.clientSessions = ctx.clientSessions ∧
      ((res.1.replayGuards = r.1.replayGuards ∧ res.2 = (session, false, [])) ∨
        (res.1.replayGuards = r.1.replayGuards.set data.peer (r.2.offer data.packet.sequence) ∧
          ((¬ r.2.window.Fresh data.packet.sequence ∧ r.2.epoch ≠ 0 ∧
              res.2 = ((ackDuplicate session now).1, false, (ackDuplicate session now).2)) ∨
            (PassesGate ctx now data ∧
              (((t.2.duplicate = true ∨ t.2.lateArrival = true) ∧
                  res.2 = ((ackDuplicate tracked now).1, false,
                    passedOutput data r.2 ++ [.tracked data r.2.epoch] ++
                      (ackDuplicate tracked now).2)) ∨
                (¬ (t.2.duplicate = true ∨ t.2.lateArrival = true) ∧
                  res.2 = (updateLossWindow (requestFullStatus cfg
                      { tracked with hasReceivedData := true }).1 data.packet.sequence
                        t.2.resynced, true,
                    passedOutput data r.2 ++ [.tracked data r.2.epoch] ++
                      (requestFullStatus cfg { tracked with hasReceivedData := true }).2 ++
                      [.accepted data r.2.epoch]))))))) := by
  dsimp only
  obtain ⟨hs, hgate⟩ := rejectReplayedDataPacket_cases ctx now session data
  unfold trackDataSequence
  dsimp only
  rcases hgate with ⟨hg, hres⟩ | ⟨hg, ⟨hf, he, hres⟩ | ⟨hf, hres⟩⟩
  · rw [hres]
    exact ⟨hs, Or.inl ⟨hg, rfl⟩⟩
  · rw [hres]
    exact ⟨hs, Or.inr ⟨hg, Or.inl ⟨hf, he, rfl⟩⟩⟩
  · have hepoch : peerAuthEpoch (rejectReplayedDataPacket ctx now session data).1 data.peer =
        (getReplayGuard ctx now data.peer).2.epoch := by
      simp [peerAuthEpoch, hg, ReplayGuard.offer]
    rw [hres, hepoch]
    simp only [Bool.false_eq_true, if_false]
    split_ifs with hd
    · exact ⟨hs, Or.inr ⟨hg, Or.inr ⟨hf, Or.inl ⟨hd, rfl⟩⟩⟩⟩
    · exact ⟨hs, Or.inr ⟨hg, Or.inr ⟨hf, Or.inr ⟨hd, rfl⟩⟩⟩⟩

/-- Opening a session does not matter to the gate. -/
theorem passesGate_getOrCreateSession (cfg : ServerConfig) (ctx : ServerContext) (now : Time)
    (data : PendingData) :
    PassesGate (getOrCreateSession cfg ctx now data.peer).1 now data ↔ PassesGate ctx now data := by
  simp [PassesGate, guardOrNew]

theorem PassesGate.fresh (h : PassesGate ctx now data) :
    (getReplayGuard ctx now data.peer).2.window.Fresh data.packet.sequence ∨
      (getReplayGuard ctx now data.peer).2.epoch = 0 := by
  rw [getReplayGuard_snd]
  exact h.2

/-! ## What is put out about a packet -/

namespace ServerOutput

/-- The packet that an output is about, with the epoch of its peer's guard. -/
def data? : ServerOutput → Option (PendingData × ℚ)
  | .recorded data epoch | .tracked data epoch | .accepted data epoch
  | .dispatched data epoch _ => some (data, epoch)
  | _ => none

/-- The packet that has passed `trackDataSequence`. -/
def accepted? : ServerOutput → Option PendingData
  | .accepted data _ => some data
  | _ => none

/-- The packet that has been dispatched. -/
def dispatched? : ServerOutput → Option PendingData
  | .dispatched data _ _ => some data
  | _ => none

theorem data?_of_accepted? {o : ServerOutput} (h : o.accepted? = some data) :
    ∃ epoch, o.data? = some (data, epoch) := by
  cases o <;> cases h
  exact ⟨_, rfl⟩

theorem data?_of_dispatched? {o : ServerOutput} (h : o.dispatched? = some data) :
    ∃ epoch, o.data? = some (data, epoch) := by
  cases o <;> cases h
  exact ⟨_, rfl⟩

/-- An output about no other packet than `data`, under the epoch of the guard `g`, that neither
accepts nor dispatches it. -/
structure Silent (data : PendingData) (g : ReplayGuard) (o : ServerOutput) : Prop where
  about : ∀ x ∈ o.data?, x = (data, g.epoch)
  accepted : o.accepted? = none
  dispatched : o.dispatched? = none

end ServerOutput

open ServerOutput

theorem ackDuplicate_silent (s : ClientSession) (now : Time) (data : PendingData)
    (g : ReplayGuard) : ∀ o ∈ (ackDuplicate s now).2, o.Silent data g := by
  unfold ackDuplicate
  split
  · simp
  · simp only [List.mem_singleton, forall_eq]
    exact ⟨by simp [data?], rfl, rfl⟩

theorem requestFullStatus_silent (cfg : ServerConfig) (s : ClientSession) (data : PendingData)
    (g : ReplayGuard) : ∀ o ∈ (requestFullStatus cfg s).2, o.Silent data g := by
  unfold requestFullStatus
  split_ifs
  · simp only [List.mem_singleton, forall_eq]
    exact ⟨by simp [data?], rfl, rfl⟩
  · simp

theorem passedOutput_silent (data : PendingData) (g : ReplayGuard) :
    ∀ o ∈ passedOutput data g ++ [.tracked data g.epoch], o.Silent data g := by
  unfold passedOutput
  split_ifs <;> simp only [List.cons_append, List.nil_append, List.mem_cons, List.not_mem_nil,
    or_false, forall_eq_or_imp, forall_eq]
  · exact ⟨⟨by simp [data?], rfl, rfl⟩, ⟨by simp [data?], rfl, rfl⟩⟩
  · exact ⟨by simp [data?], rfl, rfl⟩

/-- The packets accepted, in order. -/
def acceptedData (out : List ServerOutput) : List PendingData := out.filterMap accepted?

/-- The packets dispatched, in order. -/
def dispatchedData (out : List ServerOutput) : List PendingData := out.filterMap dispatched?

/-- The outputs of a resumed handler for `data`, whose peer's guard is `g`: they are about that
packet, which is accepted at most once, and dispatched only if it is accepted. -/
structure ResumeOutput (data : PendingData) (g : ReplayGuard) (out : List ServerOutput) : Prop where
  about : ∀ o ∈ out, ∀ x ∈ o.data?, x = (data, g.epoch)
  accepted : acceptedData out = [] ∨ (acceptedData out = [data] ∧
    (g.window.Fresh data.packet.sequence ∨ g.epoch = 0))
  dispatched : (dispatchedData out).Sublist (acceptedData out)

theorem ResumeOutput.of_silent {out : List ServerOutput} (h : ∀ o ∈ out, o.Silent data g) :
    ResumeOutput data g out where
  about o ho := (h o ho).about
  accepted := Or.inl (List.filterMap_eq_nil_iff.2 fun o ho => (h o ho).accepted)
  dispatched := by
    rw [dispatchedData, List.filterMap_eq_nil_iff.2 fun o ho => (h o ho).dispatched]
    exact List.nil_sublist _

theorem ResumeOutput.of_accepted {out dispatch : List ServerOutput}
    (h : ∀ o ∈ out, o.Silent data g)
    (hf : g.window.Fresh data.packet.sequence ∨ g.epoch = 0)
    (hd : dispatch = [] ∨ ∃ messages, dispatch = [.dispatched data g.epoch messages]) :
    ResumeOutput data g (out ++ [.accepted data g.epoch] ++ dispatch) := by
  obtain ⟨about, -, -⟩ := ResumeOutput.of_silent h
  have ha : out.filterMap accepted? = [] :=
    List.filterMap_eq_nil_iff.2 fun o ho => (h o ho).accepted
  have hdis : out.filterMap dispatched? = [] :=
    List.filterMap_eq_nil_iff.2 fun o ho => (h o ho).dispatched
  constructor
  · intro o ho
    rcases hd with rfl | ⟨messages, rfl⟩ <;>
      simp only [List.mem_append, List.mem_singleton, List.not_mem_nil, or_false] at ho
    · rcases ho with ho | rfl
      · exact about o ho
      · simp [data?]
    · rcases ho with (ho | rfl) | rfl
      · exact about o ho
      · simp [data?]
      · simp [data?]
  · rcases hd with rfl | ⟨messages, rfl⟩ <;> simp [acceptedData, ha, accepted?, hf]
  · rcases hd with rfl | ⟨messages, rfl⟩ <;>
      simp [acceptedData, dispatchedData, ha, hdis, accepted?, dispatched?, List.filterMap_cons]

/-- A message without the telemetry in it, if anything is left. -/
def withoutTelemetry (d : Delta) : Option Delta :=
  let d := { d with updates := d.updates.filter fun u => !isClientTelemetry u }
  if d.updates = [] then none else some d

/-- What a payload does to a dedup cache, and the messages it injects. -/
def dispatchPayload (state : ValueDedupState) (deltas : List Delta) :
    ValueDedupState × List Delta :=
  let r := mapAccum expandDelta state (deltas.take MAX_DELTAS_PER_PACKET)
  (r.1, r.2.reduceOption.filterMap withoutTelemetry)

/-- The messages of a payload do not depend on who owns the telemetry slot. -/
theorem mapAccum_processServerDelta (now : Time) (session : ClientSession) (ctx : ServerContext)
    (state : ValueDedupState) (deltas : List Delta) :
    (mapAccum (processServerDelta now session) (ctx, state) deltas).1.2 =
        (mapAccum expandDelta state deltas).1 ∧
      (mapAccum (processServerDelta now session) (ctx, state) deltas).2.reduceOption =
        (mapAccum expandDelta state deltas).2.reduceOption.filterMap withoutTelemetry := by
  induction deltas generalizing ctx state with
  | nil => exact ⟨rfl, rfl⟩
  | cons d ds ih =>
    simp only [mapAccum_cons]
    have step : ∃ ctx', processServerDelta now session (ctx, state) d =
        ((ctx', (expandDelta state d).1), (expandDelta state d).2.bind withoutTelemetry) := by
      unfold processServerDelta
      dsimp only
      split
      next h => exact ⟨ctx, by rw [h]; rfl⟩
      next sanitized h => exact ⟨_, by rw [h]; rfl⟩
    obtain ⟨ctx', hstep⟩ := step
    rw [hstep]
    obtain ⟨h1, h2⟩ := ih ctx' (expandDelta state d).1
    refine ⟨h1, ?_⟩
    cases (expandDelta state d).2 with
    | none => simpa [List.reduceOption_cons_of_none] using h2
    | some sanitized =>
      cases hw : withoutTelemetry sanitized <;>
        simp [hw, h2, List.reduceOption_cons_of_none, List.reduceOption_cons_of_some]

theorem decodeAndDispatchPayload_cases (ctx : ServerContext) (now : Time)
    (session : ClientSession) (data : PendingData) :
    let res := decodeAndDispatchPayload ctx now session data
    (data.packet.payload = none ∧ res.2 = (session, [])) ∨
      ∃ deltas, data.packet.payload = some deltas ∧
        let r := dispatchPayload (session.valueDedupState.getD createValueDedupState) deltas
        res.2 = ({ session with valueDedupState := some r.1 },
          [.dispatched data (peerAuthEpoch ctx data.peer) r.2]) := by
  have hframe := (decodeAndDispatchPayload_frame ctx now session data).1
  dsimp only
  unfold decodeAndDispatchPayload at hframe ⊢
  split at hframe
  next hp => exact Or.inl ⟨hp, rfl⟩
  next deltas hp =>
    obtain ⟨h1, h2⟩ := mapAccum_processServerDelta now session ctx
      (session.valueDedupState.getD createValueDedupState) (deltas.take MAX_DELTAS_PER_PACKET)
    refine Or.inr ⟨deltas, hp, ?_⟩
    simp only [peerAuthEpoch, dispatchPayload] at hframe ⊢
    rw [hframe, h1, h2]

/-- **What a resumed handler does to the guards.** There is no session and nothing happens; or the
source port is refused; or the window of the peer's guard is offered the number. -/
theorem resumeData_guard (cfg : ServerConfig) (ctx : ServerContext) (now : Time)
    (data : PendingData) :
    let r := getReplayGuard ctx now data.peer
    let res := resumeData cfg ctx now data
    (res.1.replayGuards = ctx.replayGuards ∧ res.2 = []) ∨
      (res.1.replayGuards = r.1.replayGuards ∧ res.2 = []) ∨
        (res.1.replayGuards = r.1.replayGuards.set data.peer (r.2.offer data.packet.sequence) ∧
          ResumeOutput data r.2 res.2) := by
  dsimp only
  unfold resumeData
  dsimp only
  split
  · exact Or.inl ⟨replayGuards_getOrCreateSession .., rfl⟩
  next session hs =>
    generalize (if data.existingDataSession = true then session else _ : ClientSession) = session'
    obtain ⟨hg, he⟩ := getReplayGuard_congr (replayGuards_getOrCreateSession cfg ctx now data.peer)
      now data.peer
    have hcases := (trackDataSequence_cases cfg (getOrCreateSession cfg ctx now data.peer).1 now
      session' data).2
    dsimp only at hcases
    rw [hg, he] at hcases
    generalize trackDataSequence cfg (getOrCreateSession cfg ctx now data.peer).1 now session'
      data = t at hcases
    obtain ⟨ctx', session'', passed, out⟩ := t
    rcases hcases with ⟨hguards, hres⟩ | ⟨hguards, ⟨hf, he0, hres⟩ | ⟨hf, ⟨hd, hres⟩ | ⟨hd, hres⟩⟩⟩
    · obtain ⟨rfl, rfl, rfl⟩ := by simpa only [Prod.mk.injEq] using hres
      exact Or.inr (Or.inl ⟨hguards, rfl⟩)
    · obtain ⟨rfl, rfl, rfl⟩ := by simpa only [Prod.mk.injEq] using hres
      exact Or.inr (Or.inr ⟨hguards,
        .of_silent fun o ho => ackDuplicate_silent session' now data _ o ho⟩)
    · obtain ⟨rfl, rfl, rfl⟩ := by simpa only [Prod.mk.injEq] using hres
      refine Or.inr (Or.inr ⟨hguards, .of_silent fun o ho => ?_⟩)
      rcases List.mem_append.1 ho with ho | ho
      · exact passedOutput_silent data _ o ho
      · exact ackDuplicate_silent _ now data _ o ho
    · obtain ⟨rfl, rfl, rfl⟩ := by simpa only [Prod.mk.injEq] using hres
      have hepoch : peerAuthEpoch ctx' data.peer = (getReplayGuard ctx now data.peer).2.epoch := by
        simp [peerAuthEpoch, show ctx'.replayGuards = _ from hguards, ReplayGuard.offer]
      refine Or.inr (Or.inr ⟨(decodeAndDispatchPayload_frame ..).1.trans hguards,
        .of_accepted (fun o ho => ?_) ((passesGate_getOrCreateSession cfg ctx now data).1 hf).fresh ?_⟩)
      · rcases List.mem_append.1 ho with ho | ho
        · exact passedOutput_silent data _ o ho
        · exact requestFullStatus_silent cfg _ data _ o ho
      · rw [← hepoch]
        rcases decodeAndDispatchPayload_cases ctx' now _ data with ⟨-, h⟩ | ⟨deltas, -, h⟩
        · exact Or.inl (congrArg Prod.snd h)
        · exact Or.inr ⟨_, congrArg Prod.snd h⟩

/-! ## What a HELLO puts out -/

theorem requestFullStatus_output (cfg : ServerConfig) (s : ClientSession) :
    (requestFullStatus cfg s).2 = [] ∨
      (requestFullStatus cfg s).2 = [.fullStatusRequest s.key] := by
  unfold requestFullStatus
  split_ifs
  · exact Or.inr rfl
  · exact Or.inl rfl

/-- A HELLO is answered by requests only. -/
theorem handleHelloPacket_requests {hello : Hello} {o : ServerOutput}
    (h : o ∈ (handleHelloPacket cfg ctx now p hello).2) :
    (∃ q, o = .metaRequest q) ∨ ∃ q, o = .fullStatusRequest q := by
  have primed : ∀ s : ClientSession, o ∈ (primeSessionRequests cfg s).2 →
      (∃ q, o = .metaRequest q) ∨ ∃ q, o = .fullStatusRequest q := by
    intro s ho
    rcases List.mem_append.1 ho with ho | ho
    · split_ifs at ho
      · cases ho
      · exact Or.inl ⟨_, List.mem_singleton.1 ho⟩
    · rcases requestFullStatus_output cfg { s with metaRequested := true } with h | h <;>
        rw [h] at ho
      · cases ho
      · exact Or.inr ⟨_, List.mem_singleton.1 ho⟩
  rw [handleHelloPacket] at h
  dsimp only at h
  split at h
  · cases h
  · split_ifs at h
    · cases h
    · exact primed _ h

/-! ## What a resumed handler does to its session -/

/-- An acknowledgement of all that the tracker of a session has received in order. -/
def Acknowledges (s : ClientSession) (o : ServerOutput) : Prop :=
  ∃ expected, s.sequenceTracker.expectedSeq = some expected ∧ o = .ack s.key (expected - 1)

theorem acknowledges_congr {s s' : ClientSession} (h : s'.core = s.core) {o : ServerOutput}
    (ho : Acknowledges s o) : Acknowledges s' o := by
  simp only [ClientSession.core, Prod.mk.injEq] at h
  simpa only [Acknowledges, h] using ho

theorem ackDuplicate_acknowledges (s : ClientSession) (now : Time) :
    ∀ o ∈ (ackDuplicate s now).2, Acknowledges s o := by
  unfold ackDuplicate
  split
  · simp
  next expected h => simpa using ⟨expected, h, rfl⟩

/-- How a resumed handler for `data` takes the session of its peer from `s` to `s'`, given the
peer's guard, and whether the packet passes the replay gate. -/
inductive ResumeSession (data : PendingData) (g : ReplayGuard) (pass : Prop)
    (s s' : ClientSession) : List ServerOutput → Prop where
  /-- the packet does not pass the replay gate -/
  | gated {acks : List ServerOutput} (hcore : s'.core = s.core)
      (hacks : ∀ o ∈ acks, Acknowledges s' o) : ResumeSession data g pass s s' acks
  /-- the tracker calls the packet a duplicate -/
  | duplicate {acks : List ServerOutput}
      (hpass : pass)
      (hres : (s.sequenceTracker.processSequence data.packet.sequence).2.duplicate = true ∨
        (s.sequenceTracker.processSequence data.packet.sequence).2.lateArrival = true)
      (hcore : s'.core = (s.key, (s.sequenceTracker.processSequence data.packet.sequence).1,
        s.valueDedupState))
      (hacks : ∀ o ∈ acks, Acknowledges s' o) :
      ResumeSession data g pass s s' (passedOutput data g ++ [.tracked data g.epoch] ++ acks)
  /-- the packet is accepted, but its payload does not parse -/
  | accepted {requests : List ServerOutput}
      (hpass : pass)
      (hres : ¬ ((s.sequenceTracker.processSequence data.packet.sequence).2.duplicate = true ∨
        (s.sequenceTracker.processSequence data.packet.sequence).2.lateArrival = true))
      (hcore : s'.core = (s.key, (s.sequenceTracker.processSequence data.packet.sequence).1,
        s.valueDedupState))
      (hrequests : requests = [] ∨ requests = [.fullStatusRequest s.key])
      (hpayload : data.packet.payload = none) :
      ResumeSession data g pass s s' (passedOutput data g ++ [.tracked data g.epoch] ++ requests ++
        [.accepted data g.epoch])
  /-- the packet is accepted and its payload dispatched -/
  | dispatched {requests : List ServerOutput} {deltas : List Delta}
      (hpass : pass)
      (hres : ¬ ((s.sequenceTracker.processSequence data.packet.sequence).2.duplicate = true ∨
        (s.sequenceTracker.processSequence data.packet.sequence).2.lateArrival = true))
      (hcore : s'.core = (s.key, (s.sequenceTracker.processSequence data.packet.sequence).1,
        some (dispatchPayload (s.valueDedupState.getD createValueDedupState) deltas).1))
      (hrequests : requests = [] ∨ requests = [.fullStatusRequest s.key])
      (hpayload : data.packet.payload = some deltas) :
      ResumeSession data g pass s s' (passedOutput data g ++ [.tracked data g.epoch] ++ requests ++
        [.accepted data g.epoch] ++ [.dispatched data g.epoch
          (dispatchPayload (s.valueDedupState.getD createValueDedupState) deltas).2])

theorem ResumeSession.key {out : List ServerOutput} {pass : Prop}
    (h : ResumeSession data g pass session s' out) :
    s'.key = session.key := by
  cases h <;> exact congrArg (·.1) ‹s'.core = _›

/-- **What a resumed handler does to the session of its peer**, opened if need be. -/
theorem resumeData_session (cfg : ServerConfig) (ctx : ServerContext) (now : Time)
    (data : PendingData) :
    let r := getOrCreateSession cfg ctx now data.peer
    let res := resumeData cfg ctx now data
    (r.2 = none ∧ res.1.clientSessions = r.1.clientSessions ∧ res.2 = []) ∨
      ∃ s s', r.2 = some s ∧ res.1.clientSessions = r.1.clientSessions.set data.peer s' ∧
        ResumeSession data (getReplayGuard ctx now data.peer).2 (PassesGate ctx now data) s s'
          res.2 := by
  dsimp only
  unfold resumeData
  dsimp only
  split
  next hs => exact Or.inl ⟨hs, rfl, rfl⟩
  next s hs =>
    generalize hlimited : (if data.existingDataSession = true then s else
      { s with rateLimitCount := 1, rateLimitWindowStart := now } : ClientSession) = limited
    have hcore : limited.core = s.core := by
      rw [← hlimited]
      split_ifs <;> rfl
    obtain ⟨-, hepoch⟩ := getReplayGuard_congr
      (replayGuards_getOrCreateSession cfg ctx now data.peer) now data.peer
    obtain ⟨hsessions, hcases⟩ := trackDataSequence_cases cfg
      (getOrCreateSession cfg ctx now data.peer).1 now limited data
    simp only [ClientSession.core, Prod.mk.injEq] at hcore
    obtain ⟨hkey, htracker, hdedup⟩ := hcore
    rw [hepoch, htracker, passesGate_getOrCreateSession] at hcases
    generalize trackDataSequence cfg (getOrCreateSession cfg ctx now data.peer).1 now limited
      data = t at hsessions hcases
    obtain ⟨ctx', session', passed, out⟩ := t
    replace hsessions : ctx'.clientSessions =
      (getOrCreateSession cfg ctx now data.peer).1.clientSessions := hsessions
    have hset : ∀ session, (setSession ctx' session data.peer).clientSessions =
        (getOrCreateSession cfg ctx now data.peer).1.clientSessions.set data.peer session := by
      intro session
      rw [setSession, hsessions]
    rcases hcases with ⟨-, hres⟩ | ⟨hguards, ⟨-, -, hres⟩ | ⟨hf, ⟨hd, hres⟩ | ⟨hd, hres⟩⟩⟩
    · obtain ⟨rfl, rfl, rfl⟩ := by simpa only [Prod.mk.injEq] using hres
      exact Or.inr ⟨s, session', hs, hset _,
        .gated (Prod.ext hkey (Prod.ext htracker hdedup)) (by simp)⟩
    · obtain ⟨rfl, rfl, rfl⟩ := by simpa only [Prod.mk.injEq] using hres
      refine Or.inr ⟨s, (ackDuplicate limited now).1, hs, hset _, .gated ?_ fun o ho => ?_⟩
      · rw [core_ackDuplicate]
        exact Prod.ext hkey (Prod.ext htracker hdedup)
      · exact acknowledges_congr (core_ackDuplicate ..) (ackDuplicate_acknowledges _ _ o ho)
    · obtain ⟨rfl, rfl, rfl⟩ := by simpa only [Prod.mk.injEq] using hres
      refine Or.inr ⟨s, _, hs, hset _, .duplicate hf hd ?_ fun o ho => ?_⟩
      · rw [core_ackDuplicate]
        exact Prod.ext hkey (Prod.ext rfl hdedup)
      · exact acknowledges_congr (core_ackDuplicate ..) (ackDuplicate_acknowledges _ _ o ho)
    · obtain ⟨rfl, rfl, rfl⟩ := by simpa only [Prod.mk.injEq] using hres
      set fed : ClientSession := { limited with
        sequenceTracker := (s.sequenceTracker.processSequence data.packet.sequence).1,
        hasReceivedData := true } with hfed
      set session' := updateLossWindow (requestFullStatus cfg fed).1 data.packet.sequence
        (s.sequenceTracker.processSequence data.packet.sequence).2.resynced with hsession'
      have hcore : session'.core = (s.key,
          (s.sequenceTracker.processSequence data.packet.sequence).1, s.valueDedupState) := by
        rw [hsession', core_updateLossWindow, core_requestFullStatus]
        exact Prod.ext hkey (Prod.ext rfl hdedup)
      have hrequests : (requestFullStatus cfg fed).2 = [] ∨
          (requestFullStatus cfg fed).2 = [.fullStatusRequest s.key] := by
        rw [← hkey]
        exact requestFullStatus_output cfg fed
      have hepoch' : peerAuthEpoch ctx' data.peer = (getReplayGuard ctx now data.peer).2.epoch := by
        rw [← hepoch]
        simp [peerAuthEpoch, show ctx'.replayGuards = _ from hguards, ReplayGuard.offer, hepoch]
      have hset' := fun session'' => congrArg (·.set data.peer session'')
        ((decodeAndDispatchPayload_frame ctx' now session' data).2.trans hsessions)
      simp only [if_true]
      rcases decodeAndDispatchPayload_cases ctx' now session' data with ⟨hp, h⟩ | ⟨deltas, hp, h⟩
      · rw [h, List.append_nil]
        exact Or.inr ⟨s, session', hs, hset' _, .accepted hf hd hcore hrequests hp⟩
      · have hdedup' : session'.valueDedupState = s.valueDedupState := congrArg (·.2.2) hcore
        rw [h, hepoch', hdedup']
        refine Or.inr ⟨s, _, hs, hset' _, .dispatched hf hd ?_ hrequests hp⟩
        exact Prod.ext (congrArg (·.1) hcore) (Prod.ext (congrArg (·.2.1) hcore) rfl)

/-! ## The arrival of a packet, and the timers -/

theorem dataRateLimited_session (ctx : ServerContext) (now : Time) (p : Peer) :
    (dataRateLimited ctx now p).1.clientSessions = ctx.clientSessions ∨
      ∃ s s', ctx.clientSessions.get? p = some s ∧
        (dataRateLimited ctx now p).1.clientSessions = ctx.clientSessions.set p s' ∧
          s'.core = s.core := by
  unfold dataRateLimited
  split
  next s hs =>
    refine Or.inr ⟨s, _, hs, rfl, ?_⟩
    dsimp only [ClientSession.core]
    split_ifs <;> rfl
  · exact Or.inl rfl

/-- What the arrival of a packet does: the guards stay, the session of its peer counts the packet,
and a handler starts if its tag verifies and the rate limit admits it. -/
theorem arriveData_cases (cfg : ServerConfig) (ctx : ServerContext) (now : Time) (p : Peer)
    (packet : DataPacket) :
    let res := arriveData cfg ctx now p packet
    res.1.replayGuards = ctx.replayGuards ∧
      (res.1.clientSessions = ctx.clientSessions ∨
        ∃ s s', ctx.clientSessions.get? p = some s ∧
          res.1.clientSessions = ctx.clientSessions.set p s' ∧ s'.core = s.core) ∧
      (res.2 = none ∨ (verifyTag cfg packet.tagEpoch (peerAuthEpoch ctx p) = true ∧
        ∃ existing, res.2 = some ⟨p, packet, existing, peerAuthEpoch ctx p⟩)) := by
  dsimp only
  unfold arriveData
  dsimp only
  split_ifs with hv hl
  · exact ⟨replayGuards_dataRateLimited .., dataRateLimited_session .., Or.inl rfl⟩
  · exact ⟨replayGuards_dataRateLimited .., dataRateLimited_session .., Or.inr ⟨hv, _, rfl⟩⟩
  · exact ⟨rfl, Or.inl rfl, Or.inl rfl⟩

/-- **The sessions stay keyed.** -/
theorem keyed_step {s : Server} (h : Keyed s.ctx.clientSessions) (ev : ServerEvent) :
    Keyed (s.step cfg ev).ctx.clientSessions := by
  have on : ∀ p (f : ClientSession → ClientSession × List ServerOutput),
      (∀ session, (f session).1.key = session.key) →
      Keyed (s.onSession p f).1.ctx.clientSessions := by
    intro p f hf
    unfold Server.onSession
    split
    · exact h
    next session hs => exact h.set ((hf session).trans (h p session hs))
  have hkey : ∀ {s s' : ClientSession}, s'.core = s.core → s'.key = s.key :=
    fun hc => congrArg (·.1) hc
  cases ev with
  | hello now p hello =>
    obtain ⟨hk, hs⟩ := getOrCreateSession_keyed h cfg now p
    rcases handleHelloPacket_session cfg s.ctx now p hello with he | ⟨s₁, s', h1, he, hc⟩
    · exact (show (s.step cfg (.hello now p hello)).ctx.clientSessions = _ from he) ▸ hk
    · refine (show (s.step cfg (.hello now p hello)).ctx.clientSessions = _ from he) ▸ hk.set ?_
      rcases hc with hc | hc
      · exact (hkey hc).trans (hs s₁ h1)
      · exact (congrArg (·.1) hc).trans (hs s₁ h1)
  | arrive now p packet =>
    obtain ⟨-, hs, -⟩ := arriveData_cases cfg s.ctx now p packet
    rcases hs with he | ⟨s₁, s', h1, he, hc⟩
    · exact (show (s.step cfg (.arrive now p packet)).ctx.clientSessions = _ from he) ▸ h
    · exact (show (s.step cfg (.arrive now p packet)).ctx.clientSessions = _ from he) ▸
        h.set ((hkey hc).trans (h p s₁ h1))
  | resume now index =>
    unfold Server.step Server.handle
    dsimp only
    split
    · exact h
    next data _ =>
      obtain ⟨hk, hs⟩ := getOrCreateSession_keyed h cfg now data.peer
      rcases resumeData_session cfg s.ctx now data with ⟨-, he, -⟩ | ⟨s₁, s', h1, he, hc⟩
      · exact he ▸ hk
      · exact he ▸ hk.set (hc.key.trans (hs s₁ h1))
  | ackTick now p => exact on p _ fun session => hkey (core_sendPeriodicACK cfg session now)
  | nakTimer p sequence => exact on p _ fun session => rfl
  | nakFlush p => exact on p _ fun session => rfl
  | expire now =>
    intro p session hp
    have hp' := OrderedMap.get?_filter s.ctx.clientSessions _ p ▸ hp
    exact h p session (Option.filter_eq_some_iff.1 hp').1

/-- A handler that is suspended after a step was suspended before, or the packet has just arrived
and verified against the epoch of its peer's guard. -/
theorem mem_pending_step {s : Server} {ev : ServerEvent} (h : data ∈ (s.step cfg ev).pending) :
    data ∈ s.pending ∨ ∃ now, ev = .arrive now data.peer data.packet ∧
      data.authEpoch = peerAuthEpoch s.ctx data.peer ∧
      verifyTag cfg data.packet.tagEpoch data.authEpoch = true := by
  have on : ∀ p f, (s.onSession p f).1.pending = s.pending := by
    intro p f
    rw [Server.onSession]
    split <;> rfl
  cases ev with
  | hello now p hello => exact Or.inl h
  | arrive now p packet =>
    rcases List.mem_append.1 h with h | h
    · exact Or.inl h
    · rcases (arriveData_cases cfg s.ctx now p packet).2.2 with hn | ⟨hv, existing, hn⟩
      · rw [hn] at h
        cases h
      · rw [hn] at h
        obtain rfl := List.mem_singleton.1 h
        exact Or.inr ⟨now, rfl, rfl, hv⟩
  | resume now index =>
    rw [Server.step, Server.handle] at h
    cases hd : s.pending[index]? with
    | none =>
      simp only [hd] at h
      exact Or.inl h
    | some d =>
      simp only [hd] at h
      exact Or.inl (List.mem_of_mem_eraseIdx h)
  | ackTick now p => exact Or.inl (on p _ ▸ h)
  | nakTimer p sequence => exact Or.inl (on p _ ▸ h)
  | nakFlush p => exact Or.inl (on p _ ▸ h)
  | expire now => exact Or.inl h

end EdgeLink
