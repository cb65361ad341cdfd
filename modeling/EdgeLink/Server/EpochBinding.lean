import EdgeLink.Server.ReplayProtection

/-!
# The epoch of a suspended handler

A DATA handler authenticates the header against the epoch of its peer's guard, waits for the
decompression, and then goes on without a second look at the epoch. What it does is consistent as
long as nothing changes that epoch meanwhile: no HELLO raises it, and the guard is not evicted.

* `epoch_consistent`: along every run in which no such HELLO overtakes a suspended handler, a packet
  is recorded, tracked, accepted and dispatched under the epoch that its tag was verified under.
* `stale_epoch_recorded`: a HELLO that overtakes a handler lets a number of the old epoch into the
  window and the tracker of the new one.
-/

namespace EdgeLink

open ServerOutput

variable {cfg : ServerConfig} {s : Server} {ev : ServerEvent} {p q : Peer} {g g' : ReplayGuard}

/-! ## Evictions -/

/-- The peer whose guard an event looks up, creating it if need be. -/
def guardOwner (s : Server) : ServerEvent → Option Peer
  | .hello _ peer _ => some peer
  | .resume _ index => (s.pending[index]?).map (·.peer)
  | _ => none

/-- An event evicts the guard of `q`: the one of its own peer does not exist, the table is full, and
the guard of `q` has not been seen for longest. -/
def Evicts (s : Server) (ev : ServerEvent) (q : Peer) : Prop :=
  ∃ p ∈ guardOwner s ev, s.ctx.replayGuards.get? p = none ∧
    MAX_REPLAY_GUARDS ≤ s.ctx.replayGuards.size ∧
    s.ctx.replayGuards.oldestBy (·.lastSeen) = some q

instance (s : Server) (ev : ServerEvent) (q : Peer) : Decidable (Evicts s ev q) := by
  unfold Evicts
  infer_instance

theorem GuardsKept.get? {m m' : OrderedMap Peer ReplayGuard} (h : GuardsKept p m m')
    (hq : q ≠ p) (hg : m.get? q = some g)
    (hev : ¬ (m.get? p = none ∧ MAX_REPLAY_GUARDS ≤ m.size ∧
      m.oldestBy (·.lastSeen) = some q)) : m'.get? q = some g := by
  rcases h q hq with e | ⟨h1, h2, h3, -⟩
  · rw [e, hg]
  · exact absurd ⟨h1, h2, h3⟩ hev

/-- A step leaves the guards alone, or it looks up the guard of one peer. -/
theorem guards_step (cfg : ServerConfig) (hk : Keyed s.ctx.clientSessions) (ev : ServerEvent) :
    (s.step cfg ev).ctx.replayGuards = s.ctx.replayGuards ∨
      ∃ p ∈ guardOwner s ev, (∃ g', (s.step cfg ev).ctx.replayGuards.get? p = some g') ∧
        GuardsKept p s.ctx.replayGuards (s.step cfg ev).ctx.replayGuards := by
  have on : ∀ p f, (s.onSession p f).1.ctx.replayGuards = s.ctx.replayGuards := by
    intro p f
    rw [Server.onSession]
    split <;> rfl
  cases ev with
  | hello now p hello =>
    rcases handleHelloPacket_guard hk cfg now p hello with he | ⟨-, ⟨g', hg', -⟩, hkept⟩
    · exact Or.inl he
    · exact Or.inr ⟨p, rfl, ⟨g', hg'⟩, hkept⟩
  | arrive now p packet => exact Or.inl (arriveData_cases cfg s.ctx now p packet).1
  | resume now index =>
    rw [Server.step, Server.handle, guardOwner]
    cases s.pending[index]? with
    | none => exact Or.inl rfl
    | some data =>
      have hkept := getReplayGuard_kept s.ctx now data.peer
      rcases resumeData_guard cfg s.ctx now data with ⟨he, -⟩ | ⟨he, -⟩ | ⟨he, -⟩
      · exact Or.inl he
      · exact Or.inr ⟨data.peer, rfl, he ▸ ⟨_, get?_getReplayGuard ..⟩, he ▸ hkept⟩
      · exact Or.inr ⟨data.peer, rfl, he ▸ ⟨_, OrderedMap.get?_set_self ..⟩, he ▸ hkept.set _⟩
  | ackTick now p => exact Or.inl (on p _)
  | nakTimer p sequence => exact Or.inl (on p _)
  | nakFlush p => exact Or.inl (on p _)
  | expire now => exact Or.inl rfl

/-- A guard that is not evicted is still there after the step. -/
theorem guard_survives (cfg : ServerConfig) (hk : Keyed s.ctx.clientSessions)
    (hg : s.ctx.replayGuards.get? q = some g) (hev : ¬ Evicts s ev q) :
    ∃ g', (s.step cfg ev).ctx.replayGuards.get? q = some g' := by
  rcases guards_step cfg hk ev with he | ⟨p, hp, hg', hkept⟩
  · exact ⟨g, he ▸ hg⟩
  · by_cases hq : q = p
    · exact hq ▸ hg'
    · exact ⟨g, hkept.get? hq hg fun h => hev ⟨p, hp, h⟩⟩

/-! ## Consistency -/

/-- The epoch of the peer's guard is the one that the tag of the packet was verified under. -/
def ServerOutput.EpochConsistent (o : ServerOutput) : Prop :=
  match o.data? with
  | some (data, epoch) => data.authEpoch = epoch
  | none => True

instance (o : ServerOutput) : Decidable o.EpochConsistent := by
  unfold EpochConsistent
  split <;> infer_instance

/-- The event is a HELLO of `p` that raises its epoch. -/
def Raises (cfg : ServerConfig) (s : Server) (ev : ServerEvent) (p : Peer) : Prop :=
  match ev with
  | .hello now q hello => q = p ∧ Admitted cfg s.ctx now q hello ∧
      ∃ epoch ∈ hello.epoch, peerAuthEpoch s.ctx p < epoch
  | _ => False

instance (cfg : ServerConfig) (s : Server) (ev : ServerEvent) (p : Peer) :
    Decidable (Raises cfg s ev p) := by
  unfold Raises
  exact match ev with
    | .hello .. => inferInstance
    | .arrive .. | .resume .. | .ackTick .. | .nakTimer .. | .nakFlush .. | .expire .. =>
      inferInstance

/-- The event neither raises the epoch of a peer that has a suspended handler nor evicts its
guard. -/
def Undisturbed (cfg : ServerConfig) (s : Server) (ev : ServerEvent) : Prop :=
  ∀ data ∈ s.pending, ¬ Evicts s ev data.peer ∧ ¬ Raises cfg s ev data.peer

instance (cfg : ServerConfig) (s : Server) (ev : ServerEvent) :
    Decidable (Undisturbed cfg s ev) := by
  unfold Undisturbed
  infer_instance

/-- The invariant: the guard of the peer of every suspended handler holds the positive epoch that
the packet was verified under. -/
structure Bound (s : Server) : Prop where
  wellFormed : s.WellFormed
  pending : ∀ data ∈ s.pending, 0 < data.authEpoch ∧
    ∃ g, s.ctx.replayGuards.get? data.peer = some g ∧ g.epoch = data.authEpoch

/-- A guard that is there before and after a step keeps its epoch, unless a HELLO raises it. -/
theorem epoch_step (hk : Keyed s.ctx.clientSessions) (hg : s.ctx.replayGuards.get? q = some g)
    (hg' : (s.step cfg ev).ctx.replayGuards.get? q = some g') :
    g'.epoch = g.epoch ∨ (g.epoch < g'.epoch ∧ g'.window = g.window.reset ∧ ∃ now hello,
      ev = .hello now q hello ∧ Admitted cfg s.ctx now q hello ∧ hello.epoch = some g'.epoch) := by
  have hold : ∀ now, guardOrNew s.ctx now q = g := fun now => by rw [guardOrNew, hg]; rfl
  cases guardStep hk hg' with
  | kept hkept =>
    obtain rfl := Option.some.inj (hg.symm.trans hkept)
    exact Or.inl rfl
  | renewed now hello hev hadmitted hr =>
    rw [hold] at hr
    rcases hr with ⟨he, -, -⟩ | ⟨he, hlt, hw⟩
    · exact Or.inl he
    · exact Or.inr ⟨hlt, hw, now, hello, hev, hadmitted, he⟩
  | seen now _ _ _ _ _ hseen =>
    rw [hold] at hseen
    exact Or.inl (hseen ▸ rfl)
  | offered now _ _ _ _ _ hoffer =>
    rw [hold] at hoffer
    exact Or.inl (hoffer ▸ rfl)

/-- A guard on which a handler is suspended keeps its epoch through an undisturbed step. -/
theorem Bound.kept (h : Bound s) (hev : Undisturbed cfg s ev) {data : PendingData}
    (hdata : data ∈ s.pending) :
    ∃ g', (s.step cfg ev).ctx.replayGuards.get? data.peer = some g' ∧
      g'.epoch = data.authEpoch := by
  obtain ⟨-, g, hg, he⟩ := h.pending data hdata
  obtain ⟨hevict, hraise⟩ := hev data hdata
  obtain ⟨g', hg'⟩ := guard_survives cfg h.wellFormed.keyed hg hevict
  refine ⟨g', hg', ?_⟩
  rcases epoch_step h.wellFormed.keyed hg hg' with h' | ⟨hlt, -, now, hello, rfl, hadm, hep⟩
  · exact h'.trans he
  · refine absurd ⟨rfl, hadm, _, hep, ?_⟩ hraise
    rw [peerAuthEpoch, hg]
    exact hlt

/-- What is put out about a packet comes from the resumption of its handler, and carries the epoch
of the guard at that moment. -/
theorem output_about {o : ServerOutput} (ho : o ∈ s.output cfg ev) {x : PendingData × ℚ}
    (hx : x ∈ o.data?) : ∃ now index, ev = .resume now index ∧ s.pending[index]? = some x.1 ∧
      x.2 = (guardOrNew s.ctx now x.1.peer).epoch := by
  have control : o.data? = none → ∃ now index, ev = .resume now index ∧
      s.pending[index]? = some x.1 ∧ x.2 = (guardOrNew s.ctx now x.1.peer).epoch := by
    intro h
    rw [h] at hx
    cases hx
  cases ev with
  | hello now p hello => exact control (handleHelloPacket_data? cfg s.ctx now p hello o ho)
  | arrive now p packet => cases ho
  | resume now index =>
    rw [Server.output, Server.handle] at ho
    cases hd : s.pending[index]? with
    | none =>
      simp only [hd] at ho
      cases ho
    | some data =>
      simp only [hd] at ho
      have hsnd := getReplayGuard_snd s.ctx now data.peer
      rcases resumeData_guard cfg s.ctx now data with ⟨-, h⟩ | ⟨-, h⟩ | ⟨-, h⟩
      · rw [h] at ho
        cases ho
      · rw [h] at ho
        cases ho
      · obtain rfl := h.about o ho x hx
        exact ⟨now, index, rfl, hd, by rw [hsnd]⟩
  | ackTick now p => exact control ((onSession_data? (sendPeriodicACK_data? cfg now) p).2 o ho)
  | nakTimer p sequence => exact control ((onSession_data? (sessionNakTimer_data? sequence) p).2 o ho)
  | nakFlush p => exact control ((onSession_data? sessionNakFlush_data? p).2 o ho)
  | expire now => cases ho

/-- With epoch binding a tag verifies only under a positive epoch. -/
theorem pos_of_verifyTag (hauth : cfg.authenticatedHeaders = true)
    (hbound : cfg.epochBoundAuth = true) {tagEpoch : Option ℕ} {epoch : ℚ}
    (h : verifyTag cfg tagEpoch epoch = true) : 0 < epoch := by
  cases tagEpoch with
  | none => simp [verifyTag, hauth, hbound] at h
  | some b =>
    simp only [verifyTag, hauth, Bool.not_true, Bool.false_or, decide_eq_true_eq] at h
    exact h.1

theorem bound_step (hauth : cfg.authenticatedHeaders = true) (hbound : cfg.epochBoundAuth = true)
    (h : Bound s) (hev : Undisturbed cfg s ev) : Bound (s.step cfg ev) := by
  refine ⟨wellFormed_step h.wellFormed ev, fun data hdata => ?_⟩
  rcases mem_pending_step hdata with hold | ⟨now, rfl, hauthEpoch, hv⟩
  · exact ⟨(h.pending data hold).1, h.kept hev hold⟩
  · have hpos := pos_of_verifyTag hauth hbound hv
    refine ⟨hpos, ?_⟩
    rw [hauthEpoch, peerAuthEpoch] at hpos
    rw [show ((s.step cfg (.arrive now data.peer data.packet)).ctx.replayGuards) = _ from
      (arriveData_cases cfg s.ctx now data.peer data.packet).1, hauthEpoch, peerAuthEpoch]
    cases hg : s.ctx.replayGuards.get? data.peer with
    | none => simp [hg] at hpos
    | some g => exact ⟨g, rfl, rfl⟩

/-- **Epoch consistency.** With epoch binding, along every run in which no HELLO raises the epoch of
a peer that has a suspended handler, and no guard of such a peer is evicted, everything that is done
with a packet is done under the epoch that its tag was verified under. -/
theorem epoch_consistent (cfg : ServerConfig) (hauth : cfg.authenticatedHeaders = true)
    (hbound : cfg.epochBoundAuth = true) (es : List ServerEvent)
    (h : Along (Server.step cfg) (Undisturbed cfg) Server.new es) :
    Along (Server.step cfg) (fun s ev => ∀ o ∈ s.output cfg ev, o.EpochConsistent)
      Server.new es := by
  refine Along.of_invariant (I := Bound) (fun s ev hs hev => ⟨fun o ho => ?_,
    bound_step hauth hbound hs hev⟩) ⟨wellFormed_new, by simp [Server.new]⟩ h
  cases hx : o.data? with
  | none => simp only [EpochConsistent, hx]
  | some x =>
    obtain ⟨now, index, rfl, hp, he⟩ := output_about ho hx
    obtain ⟨-, g, hg, hge⟩ := hs.pending x.1 (List.mem_of_getElem? hp)
    rw [guardOrNew, hg] at he
    simp only [EpochConsistent, hx]
    exact hge.symm.trans he.symm

/-- A handshake, a packet, a HELLO of the same epoch while the packet is decompressed, and the end
of the decompression. -/
theorem epoch_consistent_repeated_hello :
    let cfg : ServerConfig := { epochBoundAuth := true }
    let p : Peer := ⟨"10.0.0.1", 4446⟩
    let hello : Hello := ⟨20, some (.obj [("epoch", .num (.finite 7))])⟩
    Along (Server.step cfg) (fun s ev => ∀ o ∈ s.output cfg ev, o.EpochConsistent) Server.new
      [.hello 0 p hello, .arrive 1 p ⟨0, 5, some 7, some []⟩, .hello 2 p hello, .resume 3 0] :=
  epoch_consistent { epochBoundAuth := true } rfl rfl _ (by decide +kernel)

/-- The same with a HELLO of a higher epoch: the packet of the old epoch goes into the window and
the tracker of the new one. -/
theorem stale_epoch_recorded :
    let cfg : ServerConfig := { epochBoundAuth := true }
    let p : Peer := ⟨"10.0.0.1", 4446⟩
    let hello : ℚ → Hello := fun epoch => ⟨20, some (.obj [("epoch", .num (.finite epoch))])⟩
    ¬ Along (Server.step cfg) (fun s ev => ∀ o ∈ s.output cfg ev, o.EpochConsistent) Server.new
      [.hello 0 p (hello 7), .arrive 1 p ⟨0, 5, some 7, some []⟩, .hello 2 p (hello 8),
        .resume 3 0] := by
  decide +kernel

end EdgeLink
