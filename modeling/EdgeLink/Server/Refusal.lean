import EdgeLink.Server.SessionTable

/-!
# A refused session

`getOrCreateSession` evicts a session from a full table before it counts those of the new peer's
address. A peer that is then refused has cost another peer its session.

* `SessionsKept`: opening a session takes none out of the table, and changes none.
* `refusal_keeps_sessions_iff`: a refusal keeps the sessions if and only if the table is not full;
  from a full table a session of another peer is evicted, with its tracker reset.
* `evicted_ne_of_refusal`: within the caps the evicted session is of another address.
-/

namespace EdgeLink

section

variable (cfg : ServerConfig) (ctx : ServerContext) (now : Time) (p : Peer)

/-- The call for a peer leaves the table and the tracker of every session as they were. -/
def SessionsKept : Prop :=
  (getOrCreateSession cfg ctx now p).1.clientSessions = ctx.clientSessions ∧
    (sessionChanges ctx p).1 = []

/-- The call for a peer takes the session of another peer out of the table, and resets its
tracker. -/
def EvictsAnother : Prop :=
  ∃ q session, q ≠ p ∧ ctx.clientSessions.get? q = some session ∧
    (getOrCreateSession cfg ctx now p).1.clientSessions.get? q = none ∧
    session.discard ∈ (sessionChanges ctx p).1

end

variable {cfg : ServerConfig} {ctx : ServerContext} {now : Time} {p : Peer}

/-- A refusal, told by what the eviction has left. -/
theorem getOrCreateSession_of_refused (h : (getOrCreateSession cfg ctx now p).2 = none) :
    ctx.clientSessions.get? p = none ∧
      (getOrCreateSession cfg ctx now p).1 = (evictOldestSessionIfFull ctx).1 ∧
      (sessionChanges ctx p).1 = (evictOldestSessionIfFull ctx).2.toList ∧
      MAX_SESSIONS_PER_IP ≤ ipSessionCount (evictOldestSessionIfFull ctx).1 p.address := by
  have hp := (get?_getOrCreateSession_none h).1
  rw [getOrCreateSession, hp] at h
  dsimp only at h
  rw [← evictOldestSessionIfFull_fst] at h
  have hip : MAX_SESSIONS_PER_IP ≤ ipSessionCount (evictOldestSessionIfFull ctx).1 p.address := by
    by_contra hip
    rw [if_neg hip] at h
    exact nomatch h
  refine ⟨hp, ?_, ?_, hip⟩
  · rw [getOrCreateSession, hp]
    dsimp only
    rw [← evictOldestSessionIfFull_fst, if_pos hip]
  · rw [sessionChanges, hp]

/-- An eviction from a full table takes out a session that was in it. -/
theorem evictOldestSessionIfFull_of_full (h : MAX_CLIENT_SESSIONS ≤ ctx.clientSessions.size) :
    ∃ q session, ctx.clientSessions.get? q = some session ∧
      evictOldestSessionIfFull ctx =
        ({ ctx with clientSessions := ctx.clientSessions.delete q }, some session.discard) := by
  have hpos : 0 < ctx.clientSessions.size := lt_of_lt_of_le (by decide) h
  obtain ⟨q, hmem, holdest⟩ := OrderedMap.exists_oldestBy hpos fun s => s.lastPacketTime
  obtain ⟨session, hq⟩ := OrderedMap.mem_keys.1 hmem
  refine ⟨q, session, hq, ?_⟩
  rw [evictOldestSessionIfFull, if_neg (not_lt.2 h), holdest]
  dsimp only
  rw [hq, Option.map_some]

theorem EvictsAnother.not_sessionsKept (h : EvictsAnother cfg ctx now p) :
    ¬ SessionsKept cfg ctx now p := by
  obtain ⟨q, session, -, -, -, hmem⟩ := h
  intro hkept
  rw [hkept.2] at hmem
  exact nomatch hmem

/-- Where there is room nothing is evicted. -/
theorem sessionsKept_of_room (h : (getOrCreateSession cfg ctx now p).2 = none)
    (hroom : ctx.clientSessions.size < MAX_CLIENT_SESSIONS) : SessionsKept cfg ctx now p := by
  obtain ⟨-, hctx, hchanges, -⟩ := getOrCreateSession_of_refused h
  have hkept : evictOldestSessionIfFull ctx = (ctx, none) := if_pos hroom
  rw [hkept] at hctx hchanges
  exact ⟨by rw [hctx], hchanges⟩

/-- A full table loses a session of another peer: the refused peer has none. -/
theorem evictsAnother_of_full (h : (getOrCreateSession cfg ctx now p).2 = none)
    (hfull : MAX_CLIENT_SESSIONS ≤ ctx.clientSessions.size) : EvictsAnother cfg ctx now p := by
  obtain ⟨hp, hctx, hchanges, -⟩ := getOrCreateSession_of_refused h
  obtain ⟨q, session, hq, hevicted⟩ := evictOldestSessionIfFull_of_full hfull
  rw [hevicted] at hctx hchanges
  refine ⟨q, session, ?_, hq, ?_, ?_⟩
  · rintro rfl
    exact nomatch hp.symm.trans hq
  · rw [hctx]
    exact OrderedMap.get?_delete_self _ q
  · rw [hchanges]
    exact List.mem_singleton_self _

/-- **A refusal keeps the sessions** if and only if the table is not full; from a full table it
evicts the session of another peer. -/
theorem refusal_keeps_sessions_iff (cfg : ServerConfig) (ctx : ServerContext) (now : Time) (p : Peer)
    (h : (getOrCreateSession cfg ctx now p).2 = none) :
    (SessionsKept cfg ctx now p ↔ ctx.clientSessions.size < MAX_CLIENT_SESSIONS) ∧
      (¬ EvictsAnother cfg ctx now p ↔ ctx.clientSessions.size < MAX_CLIENT_SESSIONS) := by
  by_cases hroom : ctx.clientSessions.size < MAX_CLIENT_SESSIONS
  · have hkept := sessionsKept_of_room h hroom
    exact ⟨iff_of_true hkept hroom, iff_of_true (fun he => he.not_sessionsKept hkept) hroom⟩
  · have hevicts := evictsAnother_of_full h (not_lt.1 hroom)
    exact ⟨iff_of_false hevicts.not_sessionsKept hroom, iff_of_false (not_not_intro hevicts) hroom⟩

/-- Within the caps, a refused peer costs a peer of another address its session: the refusal would
not come if the session evicted were of the same address. -/
theorem evicted_ne_of_refusal (hcaps : WithinCaps ctx.clientSessions.keys)
    (h : (getOrCreateSession cfg ctx now p).2 = none) {q : Peer} {session : ClientSession}
    (hq : ctx.clientSessions.get? q = some session)
    (hgone : (getOrCreateSession cfg ctx now p).1.clientSessions.get? q = none) :
    q.address ≠ p.address := by
  intro haddress
  obtain ⟨-, hctx, -, hip⟩ := getOrCreateSession_of_refused h
  rw [hctx] at hgone
  have hfull : MAX_CLIENT_SESSIONS ≤ ctx.clientSessions.size := by
    by_contra hroom
    have hkept : evictOldestSessionIfFull ctx = (ctx, none) := if_pos (not_le.1 hroom)
    rw [hkept] at hgone
    exact nomatch hgone.symm.trans hq
  obtain ⟨q', session', hq', hevicted⟩ := evictOldestSessionIfFull_of_full hfull
  rw [hevicted] at hgone hip
  obtain rfl : q = q' := by
    by_contra hne
    rw [OrderedMap.get?_delete, if_neg hne] at hgone
    exact nomatch hgone.symm.trans hq
  -- the address had one session more before the eviction
  have hperm := OrderedMap.keys_delete_append_perm (OrderedMap.mem_keys.2 ⟨session, hq⟩)
  have hcount := hperm.countP_eq fun k => decide (k.address = p.address)
  rw [List.countP_append, List.countP_singleton, if_pos (decide_eq_true haddress)] at hcount
  have hcap := hcaps.perIP p.address
  change MAX_SESSIONS_PER_IP ≤
    (ctx.clientSessions.delete q).keys.countP fun k => decide (k.address = p.address) at hip
  omega

namespace SessionServer

/-- A HELLO from each of some peers, one after the other. -/
def hellos (peers : List Peer) : List TableEvent :=
  peers.zipIdx.map fun e => .server (.hello e.2 e.1 ⟨2, some (.obj [])⟩)

/-- As many peers as an address may have, on each of some addresses. -/
def crowd (addresses : ℕ) : List Peer :=
  (List.range addresses).flatMap fun address =>
    (List.range MAX_SESSIONS_PER_IP).map fun port => ⟨"10.0.0." ++ address.repr, 4000 + port⟩

/-- The server after they have said hello. -/
def crowded (addresses : ℕ) : SessionServer := run (step {}) new (hellos (crowd addresses))

theorem refusal_keeps_sessions_one :
    SessionsKept {} (crowded 1).server.ctx 5 ⟨"10.0.0.0", 5000⟩ :=
  (refusal_keeps_sessions_iff {} (crowded 1).server.ctx 5 ⟨"10.0.0.0", 5000⟩
    (by decide +kernel)).1.2 (by decide +kernel)

/-- **A refused peer evicts another**: the table is full, and so is the address of the peer. -/
theorem refusal_evicts_another :
    (getOrCreateSession {} (crowded 20).server.ctx 100 ⟨"10.0.0.19", 5000⟩).2 = none ∧
      ¬ SessionsKept {} (crowded 20).server.ctx 100 ⟨"10.0.0.19", 5000⟩ ∧
      EvictsAnother {} (crowded 20).server.ctx 100 ⟨"10.0.0.19", 5000⟩ := by
  obtain ⟨hfull, hrefused⟩ : MAX_CLIENT_SESSIONS ≤ (crowded 20).server.ctx.clientSessions.size ∧
      (getOrCreateSession {} (crowded 20).server.ctx 100 ⟨"10.0.0.19", 5000⟩).2 = none := by
    decide +kernel
  have hevicts := evictsAnother_of_full hrefused hfull
  exact ⟨hrefused, hevicts.not_sessionsKept, hevicts⟩

end SessionServer

end EdgeLink
