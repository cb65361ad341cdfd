import EdgeLink.Foundations.Text
import EdgeLink.Server.Handlers

/-!
# The session table

How sessions enter and leave the table of the server: `reliable-server/sessions.ts`, the opening of
a session by `reliable-server/metadata.ts` and `stopServer` of `reliable-server.ts`. A session that
leaves the table lives on while its timers or a suspended handler hold it, so `SessionServer` keeps
what becomes of it, and lets its timers fire.

* `evictOldestSessionIfFull`, `expiredSessions`, `stopServer`: the ways out of the table.
* `Moves`: what one step does to the table; `moves_getOrCreateSession`, `moves_expireIdleSessions`,
  `moves_stopServer`, and `moves_step` from them.
* **Main theorem** `sessionTable_reachable`: in every reachable state the two caps hold, each session
  is stored under its own key, and every session ever opened is in the table or has left it with a
  reset tracker, whose timers put out nothing.
-/

namespace EdgeLink

/-- The key of a peer as the code writes it. -/
def Peer.keyText (p : Peer) : String := p.address ++ ":" ++ p.port.repr

/-- What becomes of a session that is taken out of the table. -/
def ClientSession.discard (session : ClientSession) : ClientSession :=
  { session with sequenceTracker := session.sequenceTracker.reset }

/-- Evict the session that has been idle longest from a full table. The evicted session is
returned. -/
def evictOldestSessionIfFull (ctx : ServerContext) : ServerContext × Option ClientSession :=
  if ctx.clientSessions.size < MAX_CLIENT_SESSIONS then (ctx, none)
  else match ctx.clientSessions.oldestBy (·.lastPacketTime) with
    | some oldestKey =>
      ({ ctx with clientSessions := ctx.clientSessions.delete oldestKey },
        (ctx.clientSessions.get? oldestKey).map ClientSession.discard)
    | none => (ctx, none)

/-- The session that `getOrCreateSession` evicts, and the peer for which it opens one. -/
def sessionChanges (ctx : ServerContext) (peer : Peer) : List ClientSession × List Peer :=
  match ctx.clientSessions.get? peer with
  | some _ => ([], [])
  | none =>
    let r := evictOldestSessionIfFull ctx
    (r.2.toList, if MAX_SESSIONS_PER_IP ≤ ipSessionCount r.1 peer.address then [] else [peer])

/-- The sessions that `expireIdleSessions` takes out of the table. -/
def expiredSessions (ctx : ServerContext) (now : Time) : List ClientSession :=
  (ctx.clientSessions.values.filter fun s =>
    decide (SESSION_IDLE_TTL_MS < now - s.lastPacketTime)).map ClientSession.discard

/-- The shutdown: every session is reset and dropped, and so are the replay guards. -/
def stopServer (ctx : ServerContext) : ServerContext × List ClientSession :=
  ({ ctx with clientSessions := .empty, replayGuards := .empty },
    ctx.clientSessions.values.map ClientSession.discard)

/-! ## METADATA packets -/

/-- A METADATA handler that waits for the decompression of its payload. -/
structure PendingMeta where
  peer : Peer
  /-- whether a session existed when the packet arrived -/
  existingSession : Bool

/-- The first segment of a METADATA handler: its header is authenticated and its rate limited as
those of a DATA packet. -/
def arriveMetadata (cfg : ServerConfig) (ctx : ServerContext) (now : Time) (peer : Peer)
    (tagEpoch : Option ℕ) : ServerContext × Option PendingMeta :=
  if verifyTag cfg tagEpoch (peerAuthEpoch ctx peer) then
    let r := dataRateLimited ctx now peer
    (r.1, if r.2 then none else some ⟨peer, (ctx.clientSessions.get? peer).isSome⟩)
  else (ctx, none)

/-- The second segment, for a payload that decodes: a session is opened unless one was there at the
arrival. An envelope that shows a restart of its sender makes the session ask again. -/
def resumeMetadata (cfg : ServerConfig) (ctx : ServerContext) (now : Time) (pending : PendingMeta)
    (restarted : Bool) : ServerContext :=
  let ctx :=
    if pending.existingSession then ctx else (getOrCreateSession cfg ctx now pending.peer).1
  match ctx.clientSessions.get? pending.peer with
  | none => ctx
  | some session =>
    if restarted then
      setSession ctx { session with metaRequested := false, statusRequested := false } pending.peer
    else ctx

/-! ## The server with the sessions that have left -/

/-- A server, its METADATA handlers that wait for a decompression, and the sessions that have left
its table. -/
structure SessionServer where
  server : Server
  pendingMeta : List PendingMeta
  removed : List ClientSession
  /-- the peers for which a session has been opened, oldest first -/
  opened : List Peer

inductive TableEvent where
  | server (ev : ServerEvent)
  | metaArrive (now : Time) (peer : Peer) (tagEpoch : Option ℕ)
  /-- the payload of a waiting METADATA handler has been decompressed and decoded -/
  | metaResume (now : Time) (index : ℕ) (restarted : Bool)
  /-- the payload of a waiting METADATA handler is refused -/
  | metaFail (index : ℕ)
  | stop
  /-- a NAK timer of a session that has left the table fires -/
  | removedNakTimer (index : ℕ) (sequence : Seq)
  /-- the flush timer of a session that has left the table fires -/
  | removedNakFlush (index : ℕ)

namespace SessionServer

def new : SessionServer := ⟨Server.new, [], [], []⟩

/-- The sessions in the table. -/
def table (s : SessionServer) : OrderedMap Peer ClientSession := s.server.ctx.clientSessions

/-- The sessions that a step takes out of the table, and the peers for which it opens one. -/
def changes (s : SessionServer) : TableEvent → List ClientSession × List Peer
  | .server (.hello _ peer _) => sessionChanges s.server.ctx peer
  | .server (.resume _ index) =>
    match s.server.pending[index]? with
    | none => ([], [])
    | some data => sessionChanges s.server.ctx data.peer
  | .server (.expire now) => (expiredSessions s.server.ctx now, [])
  | .metaResume _ index _ =>
    match s.pendingMeta[index]? with
    | none => ([], [])
    | some pending =>
      if pending.existingSession then ([], []) else sessionChanges s.server.ctx pending.peer
  | .stop => ((stopServer s.server.ctx).2, [])
  | _ => ([], [])

/-- Run a step of a session that has left the table. -/
def onRemoved (s : SessionServer) (index : ℕ)
    (f : ClientSession → ClientSession × List ServerOutput) : SessionServer × List ServerOutput :=
  match s.removed[index]? with
  | none => (s, [])
  | some session => ({ s with removed := s.removed.set index (f session).1 }, (f session).2)

/-- One step: the state afterwards, and what is put out. -/
def handle (cfg : ServerConfig) (s : SessionServer) (ev : TableEvent) :
    SessionServer × List ServerOutput :=
  let moved : SessionServer := { s with
    removed := s.removed ++ (s.changes ev).1
    opened := s.opened ++ (s.changes ev).2 }
  match ev with
  | .server ev =>
    let r := s.server.handle cfg ev
    ({ moved with server := r.1 }, r.2)
  | .metaArrive now peer tagEpoch =>
    let r := arriveMetadata cfg s.server.ctx now peer tagEpoch
    ({ s with
      server := { s.server with ctx := r.1 }
      pendingMeta := s.pendingMeta ++ r.2.toList }, [])
  | .metaResume now index restarted =>
    match s.pendingMeta[index]? with
    | none => (s, [])
    | some pending =>
      ({ moved with
        server := { s.server with ctx := resumeMetadata cfg s.server.ctx now pending restarted }
        pendingMeta := s.pendingMeta.eraseIdx index }, [])
  | .metaFail index => ({ s with pendingMeta := s.pendingMeta.eraseIdx index }, [])
  | .stop => ({ moved with server := { s.server with ctx := (stopServer s.server.ctx).1 } }, [])
  | .removedNakTimer index sequence => s.onRemoved index (sessionNakTimer · sequence)
  | .removedNakFlush index => s.onRemoved index sessionNakFlush

def step (cfg : ServerConfig) (s : SessionServer) (ev : TableEvent) : SessionServer :=
  (s.handle cfg ev).1

def output (cfg : ServerConfig) (s : SessionServer) (ev : TableEvent) : List ServerOutput :=
  (s.handle cfg ev).2

end SessionServer

/-! ## What one step does to the table -/

variable {cfg : ServerConfig} {ctx : ServerContext} {now : Time} {p q : Peer}
  {session : ClientSession}

/-- The text of a key determines the peer, also where the address has colons of its own. -/
theorem Peer.keyText_injective : Function.Injective Peer.keyText := by
  rintro ⟨address, port⟩ ⟨address', port'⟩ h
  have hlist := congrArg String.toList h
  simp only [Peer.keyText, String.toList_append, List.append_assoc] at hlist
  obtain ⟨ha, hp⟩ := append_cons_inj_of_notMem (colon_notMem_repr port) (colon_notMem_repr port')
    hlist
  obtain rfl := String.toList_injective ha
  obtain rfl := repr_injective (String.toList_injective hp)
  rfl

/-- Within the two caps. -/
structure WithinCaps (peers : List Peer) : Prop where
  total : peers.length ≤ MAX_CLIENT_SESSIONS
  perIP : ∀ address, (peers.countP fun p => p.address = address) ≤ MAX_SESSIONS_PER_IP

theorem WithinCaps.sublist {peers peers' : List Peer} (h : WithinCaps peers)
    (hsub : peers'.Sublist peers) : WithinCaps peers' :=
  ⟨hsub.length_le.trans h.total, fun address => hsub.countP_le.trans (h.perIP address)⟩

theorem WithinCaps.concat {peers : List Peer} (h : WithinCaps peers)
    (htotal : peers.length < MAX_CLIENT_SESSIONS)
    (hperIP : (peers.countP fun q => q.address = p.address) < MAX_SESSIONS_PER_IP) :
    WithinCaps (peers ++ [p]) := by
  refine ⟨by simpa using Nat.succ_le_of_lt htotal, fun address => ?_⟩
  rw [List.countP_append, List.countP_singleton]
  by_cases hp : p.address = address
  · subst hp
    simpa using Nat.succ_le_of_lt hperIP
  · simpa [hp] using h.perIP address

/-- A step turns the table `m` into `m'`: the sessions `left` leave it, and one is opened for each
of the peers `opened`. -/
structure Moves (m m' : OrderedMap Peer ClientSession) (left : List ClientSession)
    (opened : List Peer) : Prop where
  /-- no session is lost or made up -/
  accounted : (m'.keys ++ left.map (·.key)).Perm (m.keys ++ opened)
  /-- a session that is gone has left as it was, with its tracker reset -/
  gone : ∀ q session, m.get? q = some session → m'.get? q = none → session.discard ∈ left
  reset : ∀ session ∈ left, session.sequenceTracker.reset = session.sequenceTracker
  caps : WithinCaps m.keys → WithinCaps m'.keys

namespace Moves

variable {m m' : OrderedMap Peer ClientSession} {left : List ClientSession} {opened : List Peer}

theorem refl (m : OrderedMap Peer ClientSession) : Moves m m [] [] where
  accounted := by simp
  gone q session h hn := by
    rw [h] at hn
    cases hn
  reset := by simp
  caps h := h

/-- Writing a session that is in the table moves nothing. -/
theorem set (h : Moves m m' left opened) (hp : p ∈ m'.keys) (session : ClientSession) :
    Moves m (m'.set p session) left opened where
  accounted := by
    rw [OrderedMap.keys_set_of_mem hp]
    exact h.accounted
  gone q session' hq hn := by
    rw [OrderedMap.get?_set] at hn
    split_ifs at hn
    exact h.gone q session' hq hn
  reset := h.reset
  caps hc := by
    rw [OrderedMap.keys_set_of_mem hp]
    exact h.caps hc

end Moves

/-! ### Opening a session -/

/-- The table after an eviction is the one that `getOrCreateSession` goes on with. -/
theorem evictOldestSessionIfFull_fst (ctx : ServerContext) :
    (evictOldestSessionIfFull ctx).1 = { ctx with
      clientSessions := evictOldestIfFull ctx.clientSessions MAX_CLIENT_SESSIONS
        (·.lastPacketTime) } := by
  unfold evictOldestSessionIfFull evictOldestIfFull
  split_ifs
  · rfl
  · cases ctx.clientSessions.oldestBy (·.lastPacketTime) <;> rfl

/-- The eviction is a move that leaves room for one session. -/
theorem moves_evict (hkeyed : Keyed ctx.clientSessions) :
    Moves ctx.clientSessions (evictOldestSessionIfFull ctx).1.clientSessions
      (evictOldestSessionIfFull ctx).2.toList [] ∧
    (evictOldestSessionIfFull ctx).1.clientSessions.keys.Sublist ctx.clientSessions.keys ∧
    (ctx.clientSessions.size ≤ MAX_CLIENT_SESSIONS →
      (evictOldestSessionIfFull ctx).1.clientSessions.size < MAX_CLIENT_SESSIONS) := by
  unfold evictOldestSessionIfFull
  by_cases hfull : ctx.clientSessions.size < MAX_CLIENT_SESSIONS
  · rw [if_pos hfull]
    exact ⟨.refl _, List.Sublist.refl _, fun _ => hfull⟩
  · rw [if_neg hfull]
    have hpos : 0 < ctx.clientSessions.size := by
      have : MAX_CLIENT_SESSIONS = 100 := rfl
      omega
    obtain ⟨oldest, hmem, ho⟩ := OrderedMap.exists_oldestBy hpos fun s => s.lastPacketTime
    obtain ⟨session, hs⟩ := OrderedMap.mem_keys.1 hmem
    have hsub : (ctx.clientSessions.delete oldest).keys.Sublist ctx.clientSessions.keys := by
      rw [OrderedMap.keys_delete]
      exact List.filter_sublist
    have hperm := OrderedMap.keys_delete_append_perm hmem
    simp only [ho, hs, Option.map_some, Option.toList_some]
    refine ⟨⟨?_, ?_, ?_, fun hc => hc.sublist hsub⟩, hsub, fun hle => ?_⟩
    · simpa [ClientSession.discard, hkeyed oldest session hs] using hperm
    · intro q session' hq hn
      rw [OrderedMap.get?_delete] at hn
      split_ifs at hn with he
      · subst he
        rw [hs] at hq
        obtain rfl := Option.some.inj hq
        simp
      · rw [hq] at hn
        cases hn
    · simp [ClientSession.discard, SequenceTracker.reset, SequenceTracker.clearNAKTimers]
    · have hlen := hperm.length_eq
      simp only [List.length_append, List.length_singleton, OrderedMap.length_keys] at hlen
      omega

/-- **Opening a session** for a peer, if it has none and its address may have one more. -/
theorem moves_getOrCreateSession (hkeyed : Keyed ctx.clientSessions) (cfg : ServerConfig)
    (now : Time) (p : Peer) :
    Moves ctx.clientSessions (getOrCreateSession cfg ctx now p).1.clientSessions
      (sessionChanges ctx p).1 (sessionChanges ctx p).2 := by
  unfold getOrCreateSession sessionChanges
  cases hp : ctx.clientSessions.get? p with
  | some existing => exact (Moves.refl _).set (OrderedMap.mem_keys.2 ⟨existing, hp⟩) _
  | none =>
    obtain ⟨hmoves, hsub, hroom⟩ := moves_evict hkeyed
    dsimp only
    rw [← evictOldestSessionIfFull_fst]
    generalize evictOldestSessionIfFull ctx = evicted at hmoves hsub hroom
    split_ifs with hip
    · exact hmoves
    · have hnot : p ∉ evicted.1.clientSessions.keys := fun h =>
        OrderedMap.get?_eq_none.1 hp (hsub.subset h)
      constructor
      · rw [setSession, OrderedMap.keys_set_of_not_mem hnot]
        refine List.perm_iff_count.2 fun q => ?_
        have := List.perm_iff_count.1 hmoves.accounted q
        simp only [List.count_append, List.append_nil] at this ⊢
        omega
      · intro q session hq hn
        rw [setSession, OrderedMap.get?_set] at hn
        split_ifs at hn
        exact hmoves.gone q session hq hn
      · exact hmoves.reset
      · intro hc
        rw [setSession, OrderedMap.keys_set_of_not_mem hnot]
        refine (hmoves.caps hc).concat ?_ (not_le.1 hip)
        rw [OrderedMap.length_keys]
        exact hroom (OrderedMap.length_keys ctx.clientSessions ▸ hc.total)

/-! ### Closing sessions -/

/-- The keys that sessions carry are those under which they are stored. -/
theorem Keyed.map_key {m : OrderedMap Peer ClientSession} (h : Keyed m)
    {l : List (Peer × ClientSession)} (hl : ∀ e ∈ l, e ∈ m.entries) :
    ((l.map Prod.snd).map ClientSession.discard).map (·.key) = l.map Prod.fst := by
  rw [List.map_map, List.map_map]
  exact List.map_congr_left fun e he => h e.1 e.2 (OrderedMap.mem_entries.1 (hl e he))

/-- A discarded session has a reset tracker. -/
theorem reset_discard {sessions : List ClientSession} :
    ∀ s ∈ sessions.map ClientSession.discard, s.sequenceTracker.reset = s.sequenceTracker := by
  intro s hs
  obtain ⟨session, -, rfl⟩ := List.mem_map.1 hs
  rfl

/-- The expiry closes the sessions that have been idle for too long. -/
theorem moves_expireIdleSessions (hkeyed : Keyed ctx.clientSessions) (now : Time) :
    Moves ctx.clientSessions (expireIdleSessions ctx now).clientSessions
      (expiredSessions ctx now) [] := by
  have hexpired : expiredSessions ctx now = ((ctx.clientSessions.entries.filter fun e =>
      !decide (now - e.2.lastPacketTime ≤ SESSION_IDLE_TTL_MS)).map Prod.snd).map
        ClientSession.discard := by
    rw [expiredSessions, OrderedMap.values, List.filter_map]
    congr 3
    funext e
    rw [Function.comp_apply, ← decide_not, decide_eq_decide, not_le]
  have hperm := OrderedMap.keys_filter_append_perm ctx.clientSessions fun _ s =>
    decide (now - s.lastPacketTime ≤ SESSION_IDLE_TTL_MS)
  refine ⟨?_, fun q session hq hn => ?_, reset_discard, fun hc => ?_⟩
  · rw [hexpired, hkeyed.map_key fun e he => List.mem_of_mem_filter he, List.append_nil]
    exact hperm
  · have hfilter := OrderedMap.get?_filter ctx.clientSessions (fun _ s =>
      decide (now - s.lastPacketTime ≤ SESSION_IDLE_TTL_MS)) q
    rw [show (ctx.clientSessions.filter _).get? q = none from hn, hq, Option.filter_some] at hfilter
    split_ifs at hfilter with hlive
    rw [hexpired]
    refine List.mem_map_of_mem (List.mem_map.2 ⟨(q, session), List.mem_filter.2 ⟨?_, ?_⟩, rfl⟩)
    · exact OrderedMap.mem_entries.2 hq
    · simpa using hlive
  · exact hc.sublist (List.filter_sublist.map _)

/-- The shutdown closes all of them. -/
theorem moves_stopServer (hkeyed : Keyed ctx.clientSessions) :
    Moves ctx.clientSessions (stopServer ctx).1.clientSessions (stopServer ctx).2 [] := by
  refine ⟨?_, fun q session hq _ => ?_, reset_discard, fun hc => hc.sublist (List.nil_sublist _)⟩
  · rw [List.append_nil]
    exact List.Perm.of_eq (hkeyed.map_key fun e he => he)
  · exact List.mem_map_of_mem (OrderedMap.mem_values.2 ⟨q, hq⟩)

/-! ### METADATA packets -/

theorem moves_arriveMetadata (cfg : ServerConfig) (ctx : ServerContext) (now : Time) (p : Peer)
    (tagEpoch : Option ℕ) :
    Moves ctx.clientSessions (arriveMetadata cfg ctx now p tagEpoch).1.clientSessions [] [] ∧
      (Keyed ctx.clientSessions →
        Keyed (arriveMetadata cfg ctx now p tagEpoch).1.clientSessions) := by
  unfold arriveMetadata
  split_ifs
  · rcases dataRateLimited_session ctx now p with he | ⟨session, session', hs, he, hcore⟩
    · exact he ▸ ⟨.refl _, id⟩
    · dsimp only
      rw [he]
      exact ⟨(Moves.refl _).set (OrderedMap.mem_keys.2 ⟨session, hs⟩) _,
        fun h => h.set ((congrArg (·.1) hcore).trans (h p session hs))⟩
  · exact ⟨.refl _, id⟩

theorem moves_resumeMetadata (hkeyed : Keyed ctx.clientSessions) (cfg : ServerConfig) (now : Time)
    (pending : PendingMeta) (restarted : Bool) :
    let changes := if pending.existingSession then ([], []) else sessionChanges ctx pending.peer
    let sessions := (resumeMetadata cfg ctx now pending restarted).clientSessions
    Moves ctx.clientSessions sessions changes.1 changes.2 ∧ Keyed sessions := by
  dsimp only
  unfold resumeMetadata
  -- the table once the session is there
  generalize hopened : (if pending.existingSession = true then ctx
    else (getOrCreateSession cfg ctx now pending.peer).1) = opened
  have hmoves : Moves ctx.clientSessions opened.clientSessions
      (if pending.existingSession then ([], []) else sessionChanges ctx pending.peer).1
      (if pending.existingSession then ([], []) else sessionChanges ctx pending.peer).2 ∧
      Keyed opened.clientSessions := by
    rw [← hopened]
    split_ifs
    · exact ⟨.refl _, hkeyed⟩
    · exact ⟨moves_getOrCreateSession hkeyed cfg now _,
        (getOrCreateSession_keyed hkeyed cfg now _).1⟩
  obtain ⟨hmoves, hopenedKeyed⟩ := hmoves
  generalize (if pending.existingSession then ([], [])
    else sessionChanges ctx pending.peer) = changes at hmoves ⊢
  cases hp : opened.clientSessions.get? pending.peer with
  | none => simpa only [hp] using ⟨hmoves, hopenedKeyed⟩
  | some session =>
    simp only [hp]
    split_ifs
    · exact ⟨hmoves.set (OrderedMap.mem_keys.2 ⟨session, hp⟩) _,
        hopenedKeyed.set (hopenedKeyed _ session hp)⟩
    · exact ⟨hmoves, hopenedKeyed⟩

/-! ### The steps of the server -/

namespace SessionServer

variable {s : SessionServer}

/-- **What a step of the server does to its table.** -/
theorem moves_server (h : Keyed s.table) (cfg : ServerConfig) (ev : ServerEvent) :
    Moves s.table (s.server.step cfg ev).ctx.clientSessions (s.changes (.server ev)).1
      (s.changes (.server ev)).2 := by
  have on : ∀ p (f : ClientSession → ClientSession × List ServerOutput),
      Moves s.table (s.server.onSession p f).1.ctx.clientSessions [] [] := by
    intro p f
    unfold Server.onSession
    split
    · exact .refl _
    next session hs => exact (Moves.refl _).set (OrderedMap.mem_keys.2 ⟨session, hs⟩) _
  -- a handler that opens a session and writes it
  have opens : ∀ (now : Time) (p : Peer) {m : OrderedMap Peer ClientSession},
      (m = (getOrCreateSession cfg s.server.ctx now p).1.clientSessions ∨
        ∃ session session', (getOrCreateSession cfg s.server.ctx now p).2 = some session ∧
          m = (getOrCreateSession cfg s.server.ctx now p).1.clientSessions.set p session') →
      Moves s.table m (sessionChanges s.server.ctx p).1 (sessionChanges s.server.ctx p).2 := by
    intro now p m hm
    have hmoves := moves_getOrCreateSession h cfg now p
    rcases hm with rfl | ⟨session, session', hs, rfl⟩
    · exact hmoves
    · exact hmoves.set (OrderedMap.mem_keys.2 ⟨session, (get?_getOrCreateSession hs).1⟩) _
  cases ev with
  | hello now p hello =>
    refine opens now p ?_
    rcases handleHelloPacket_session cfg s.server.ctx now p hello with he | ⟨s₁, s₂, h1, he, -⟩
    · exact Or.inl he
    · exact Or.inr ⟨s₁, s₂, h1, he⟩
  | arrive now p packet =>
    obtain ⟨-, hs, -⟩ := arriveData_cases cfg s.server.ctx now p packet
    rcases hs with he | ⟨s₁, s₂, h1, he, -⟩
    · exact (show (s.server.step cfg (.arrive now p packet)).ctx.clientSessions = _ from he) ▸ .refl _
    · exact (show (s.server.step cfg (.arrive now p packet)).ctx.clientSessions = _ from he) ▸
        (Moves.refl _).set (OrderedMap.mem_keys.2 ⟨s₁, h1⟩) _
  | resume now index =>
    unfold Server.step Server.handle changes
    cases hd : s.server.pending[index]? with
    | none =>
      simp only [hd]
      exact .refl _
    | some data =>
      simp only [hd]
      refine opens now data.peer ?_
      rcases resumeData_session cfg s.server.ctx now data with ⟨-, he, -⟩ | ⟨s₁, s₂, h1, he, -⟩
      · exact Or.inl he
      · exact Or.inr ⟨s₁, s₂, h1, he⟩
  | ackTick now p => exact on p _
  | nakTimer p sequence => exact on p _
  | nakFlush p => exact on p _
  | expire now => exact moves_expireIdleSessions h now

/-- **What a step does to the table.** The sessions stay keyed. -/
theorem moves_step (h : Keyed s.table) (cfg : ServerConfig) (ev : TableEvent) :
    Moves s.table (s.step cfg ev).table (s.changes ev).1 (s.changes ev).2 ∧
      Keyed (s.step cfg ev).table := by
  have onRemoved : ∀ index f, (s.onRemoved index f).1.table = s.table := by
    intro index f
    unfold SessionServer.onRemoved
    split <;> rfl
  cases ev with
  | server ev => exact ⟨moves_server h cfg ev, keyed_step h ev⟩
  | metaArrive now p tagEpoch =>
    obtain ⟨hmoves, hkeyed⟩ := moves_arriveMetadata cfg s.server.ctx now p tagEpoch
    exact ⟨hmoves, hkeyed h⟩
  | metaResume now index restarted =>
    unfold step handle changes
    cases hp : s.pendingMeta[index]? with
    | none => simpa only [hp] using ⟨Moves.refl _, h⟩
    | some pending =>
      simp only [hp]
      exact moves_resumeMetadata h cfg now pending restarted
  | metaFail index => exact ⟨.refl _, h⟩
  | stop => exact ⟨moves_stopServer h, fun p session hp => by cases hp⟩
  | removedNakTimer index sequence =>
    have same : (s.step cfg (.removedNakTimer index sequence)).table = s.table := onRemoved index _
    rw [same]
    exact ⟨.refl _, h⟩
  | removedNakFlush index =>
    have same : (s.step cfg (.removedNakFlush index)).table = s.table := onRemoved index _
    rw [same]
    exact ⟨.refl _, h⟩

/-! ## Runs -/

/-- **The invariant of the session table.** -/
structure Inv (s : SessionServer) : Prop where
  caps : WithinCaps s.table.keys
  keyed : Keyed s.table
  /-- a session that has been opened is in the table, or has left it -/
  accounted : (s.table.keys ++ s.removed.map (·.key)).Perm s.opened
  reset : ∀ session ∈ s.removed, session.sequenceTracker.reset = session.sequenceTracker

theorem inv_new : new.Inv where
  caps := ⟨Nat.zero_le _, fun _ => Nat.zero_le _⟩
  keyed p session h := by cases h
  accounted := List.Perm.refl _
  reset session h := by cases h

/-- No timer of a reset tracker is armed. -/
theorem sessionNakTimer_of_reset {session : ClientSession}
    (h : session.sequenceTracker.reset = session.sequenceTracker) (sequence : Seq) :
    sessionNakTimer session sequence = (session, []) := by
  have htimers : session.sequenceTracker.nakTimers = [] :=
    (congrArg SequenceTracker.nakTimers h).symm
  simp [sessionNakTimer, SequenceTracker.nakTimerFired, htimers]

theorem sessionNakFlush_of_reset {session : ClientSession}
    (h : session.sequenceTracker.reset = session.sequenceTracker) :
    sessionNakFlush session = (session, []) := by
  have hflush : session.sequenceTracker.nakFlushTimer = false :=
    (congrArg SequenceTracker.nakFlushTimer h).symm
  simp [sessionNakFlush, SequenceTracker.nakFlushFired, hflush, sendNAK, List.toChunks]

/-- The timers of the sessions that have left are silent. -/
theorem Inv.onRemoved (h : s.Inv) {f : ClientSession → ClientSession × List ServerOutput}
    (hf : ∀ session, session.sequenceTracker.reset = session.sequenceTracker →
      f session = (session, [])) (index : ℕ) : s.onRemoved index f = (s, []) := by
  unfold SessionServer.onRemoved
  split
  · rfl
  next session hs =>
    obtain ⟨hindex, rfl⟩ := List.getElem?_eq_some_iff.1 hs
    rw [hf _ (h.reset _ (List.getElem_mem hindex)), List.set_getElem_self]

/-- What a step leaves in the two logs. -/
theorem Inv.logs_step (h : s.Inv) (cfg : ServerConfig) (ev : TableEvent) :
    (s.step cfg ev).removed = s.removed ++ (s.changes ev).1 ∧
      (s.step cfg ev).opened = s.opened ++ (s.changes ev).2 := by
  have same : s.removed = s.removed ++ [] ∧ s.opened = s.opened ++ [] := by simp
  cases ev with
  | server ev => exact ⟨rfl, rfl⟩
  | metaArrive now p tagEpoch => exact same
  | metaResume now index restarted =>
    unfold step handle changes
    cases hp : s.pendingMeta[index]? with
    | none => simpa only [hp] using same
    | some pending => simp only [hp, and_self]
  | metaFail index => exact same
  | stop => exact ⟨rfl, rfl⟩
  | removedNakTimer index sequence =>
    have silent : s.step cfg (.removedNakTimer index sequence) = s :=
      congrArg (·.1) (h.onRemoved (fun _ hs => sessionNakTimer_of_reset hs sequence) index)
    rw [silent]
    exact same
  | removedNakFlush index =>
    have silent : s.step cfg (.removedNakFlush index) = s :=
      congrArg (·.1) (h.onRemoved (fun _ hs => sessionNakFlush_of_reset hs) index)
    rw [silent]
    exact same

theorem Inv.step (h : s.Inv) (cfg : ServerConfig) (ev : TableEvent) : (s.step cfg ev).Inv := by
  obtain ⟨hmoves, hkeyed⟩ := moves_step h.keyed cfg ev
  obtain ⟨hremoved, hopened⟩ := h.logs_step cfg ev
  refine ⟨hmoves.caps h.caps, hkeyed, List.perm_iff_count.2 fun p => ?_, fun session hs => ?_⟩
  · have hbefore := List.perm_iff_count.1 h.accounted p
    have hstep := List.perm_iff_count.1 hmoves.accounted p
    rw [hremoved, hopened]
    simp only [List.count_append, List.map_append] at hbefore hstep ⊢
    omega
  · rw [hremoved] at hs
    rcases List.mem_append.1 hs with hs | hs
    · exact h.reset session hs
    · exact hmoves.reset session hs

/-- **The session table.** In every reachable state at most `MAX_CLIENT_SESSIONS` sessions exist, at
most `MAX_SESSIONS_PER_IP` of any one address, and each is stored under its own key. Every session
that has been opened is in the table or has left it; one that leaves is reset at that moment, and
nothing its timers do puts out a NAK afterwards. -/
theorem sessionTable_reachable (cfg : ServerConfig) (es : List TableEvent) :
    let s := run (SessionServer.step cfg) new es
    s.table.size ≤ MAX_CLIENT_SESSIONS ∧
    (∀ address, ipSessionCount s.server.ctx address ≤ MAX_SESSIONS_PER_IP) ∧
    (∀ p session, s.table.get? p = some session → session.key = p) ∧
    (s.table.keys ++ s.removed.map (·.key)).Perm s.opened ∧
    (∀ ev p session, s.table.get? p = some session → (s.step cfg ev).table.get? p = none →
      session.discard ∈ (s.step cfg ev).removed) ∧
    (∀ session ∈ s.removed, session.sequenceTracker.reset = session.sequenceTracker) ∧
    ∀ index sequence, s.handle cfg (.removedNakTimer index sequence) = (s, []) ∧
      s.handle cfg (.removedNakFlush index) = (s, []) := by
  have h : (run (SessionServer.step cfg) new es).Inv :=
    run_invariant (fun s ev hs => hs.step cfg ev) inv_new es
  generalize run (SessionServer.step cfg) new es = s at h
  refine ⟨?_, h.caps.perIP, h.keyed, h.accounted, ?_, h.reset, fun index sequence => ⟨?_, ?_⟩⟩
  · exact OrderedMap.length_keys s.table ▸ h.caps.total
  · intro ev p session hp hn
    rw [(h.logs_step cfg ev).1]
    exact List.mem_append_right _ ((moves_step h.keyed cfg ev).1.gone p session hp hn)
  · exact h.onRemoved (fun _ hs => sessionNakTimer_of_reset hs sequence) index
  · exact h.onRemoved (fun _ hs => sessionNakFlush_of_reset hs) index

/-- A HELLO opens a session, which leaves the table when it has been idle for too long. -/
example :
    let s := run (SessionServer.step {}) new
      [.server (.hello 0 ⟨"10.0.0.1", 4000⟩ ⟨2, some (.obj [])⟩), .server (.expire 300001)]
    s.table.size = 0 ∧ s.removed.length = 1 ∧ s.opened = [⟨"10.0.0.1", 4000⟩] := by
  decide +kernel

end SessionServer

end EdgeLink
