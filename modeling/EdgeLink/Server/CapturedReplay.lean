import EdgeLink.Foundations.Lists
import EdgeLink.Server.EpochBinding

/-!
# Replay of captured datagrams

One client, the server with both authentication options on, and an attacker who records every
datagram of the client and sends any of them again, any number of times and from any source
(`Link`). Tags cannot be forged, so the server only ever sees datagrams of the client; where they
come from and when is up to the attacker.

* `dispatched_at_most_once`: when each epoch reaches the server from one source only (`Allowed`),
  no packet of the client is dispatched twice.
* `captured_hello_dispatches_twice`: a captured HELLO that is sent from another source gives that
  source a guard of its own, and with it a second delivery of everything sent in that epoch.
-/

namespace EdgeLink

open Serial ServerOutput

/-! ## The client, the network and the attacker -/

/-- A datagram of the client. -/
inductive Datagram where
  | hello (hello : Hello)
  | data (packet : DataPacket)

/-- The server, the client, and the datagrams that the client has sent so far. -/
structure Link where
  server : Server
  /-- the connection epoch of the client -/
  epoch : ℕ
  /-- the next sequence number of the client -/
  sequence : Seq
  sent : List Datagram

/-- What can happen on a link. -/
inductive LinkEvent where
  /-- the client starts again, with a new epoch and a random first number -/
  | restart (epoch : ℕ) (initialSequence : Seq)
  | sendHello (payloadLength : ℕ) (clientId : String) (timestamp : ℚ)
  | sendData (payload : Option (List Delta))
  /-- a datagram of the client arrives at the server, from any source -/
  | deliver (now : Time) (source : Peer) (index : ℕ)
  /-- something happens inside the server -/
  | inside (ev : ServerEvent)

/-- The payload of a HELLO. -/
def helloInfo (clientId : String) (timestamp : ℚ) (epoch : ℕ) : JsValue :=
  .obj ([("protocolVersion", .num (.finite 3)), ("clientId", .str clientId),
    ("timestamp", .num (.finite timestamp)),
    ("capabilities", .arr [.str "compression", .str "encryption", .str "reliability",
      .str "authenticated-control"])] ++
    (if clientId = "" then [] else [("instanceId", .str clientId)]) ++
    [("epoch", .num (.finite epoch))])

/-- The epoch that the tags of a client are bound to, `none` when there is none to bind. -/
def bindableEpoch (epoch : ℕ) : Option ℕ := if 0 < epoch then some (epochTag epoch) else none

namespace Link

/-- A link whose client starts with an epoch and a first number. -/
def new (epoch : ℕ) (initialSequence : Seq) : Link := ⟨Server.new, epoch, initialSequence, []⟩

/-- What an event is to the server. -/
def serverEvent (s : Link) : LinkEvent → Option ServerEvent
  | .deliver now source index =>
    match s.sent[index]? with
    | some (.hello hello) => some (.hello now source hello)
    | some (.data packet) => some (.arrive now source packet)
    | none => none
  | .inside (.hello ..) => none
  | .inside (.arrive ..) => none
  | .inside ev => some ev
  | _ => none

/-- What an event is to the client. -/
def client (s : Link) : LinkEvent → Link
  | .restart epoch initialSequence => { s with epoch := epoch, sequence := initialSequence }
  | .sendHello payloadLength clientId timestamp =>
    let hello : Hello := ⟨payloadLength, some (helloInfo clientId timestamp s.epoch)⟩
    { s with sent := s.sent ++ [.hello hello] }
  | .sendData payload =>
    let packet : DataPacket := ⟨s.sent.length, s.sequence, bindableEpoch s.epoch, payload⟩
    { s with sequence := s.sequence + 1, sent := s.sent ++ [.data packet] }
  | _ => s

def step (cfg : ServerConfig) (s : Link) (ev : LinkEvent) : Link :=
  { s.client ev with
    server := match s.serverEvent ev with
      | some sev => s.server.step cfg sev
      | none => s.server }

/-- The packets dispatched in a step. -/
def dispatches (cfg : ServerConfig) (s : Link) (ev : LinkEvent) : List PendingData :=
  match s.serverEvent ev with
  | some sev => dispatchedData (s.server.output cfg sev)
  | none => []

/-- The number of packets sent in the current epoch. -/
def sentInEpoch (s : Link) : ℕ :=
  s.sent.countP fun d => match d with
    | .data packet => packet.tagEpoch = bindableEpoch s.epoch
    | .hello _ => false

end Link

/-! ## The condition -/

/-- What reaches the server neither raises an epoch under a suspended handler, nor evicts a guard
with an epoch, nor gives an epoch to another source than its home. -/
def Harmless (cfg : ServerConfig) (home : ℚ → Peer) (s : Server) (ev : ServerEvent) : Prop :=
  (∀ data ∈ s.pending, ¬ Raises cfg s ev data.peer) ∧
    (∀ x ∈ s.ctx.replayGuards.entries, 0 < x.2.epoch → ¬ Evicts s ev x.1) ∧
    match ev with
    | .hello _ source hello => Raises cfg s ev source → ∀ epoch ∈ hello.epoch, home epoch = source
    | _ => True

instance (cfg : ServerConfig) (home : ℚ → Peer) (s : Server) (ev : ServerEvent) :
    Decidable (Harmless cfg home s ev) := by
  unfold Harmless
  exact match ev with
    | .hello .. => inferInstance
    | .arrive .. | .resume .. | .ackTick .. | .nakTimer .. | .nakFlush .. | .expire .. =>
      inferInstance

/-- The condition on a step: what the server sees is harmless, a restart raises the epoch, and at
most `2 ^ 31 + 1` packets are sent in one epoch. -/
def Allowed (cfg : ServerConfig) (home : ℚ → Peer) (s : Link) (ev : LinkEvent) : Prop :=
  (∀ sev ∈ s.serverEvent ev, Harmless cfg home s.server sev) ∧
    match ev with
    | .restart epoch _ => s.epoch < epoch ∧ epoch < 2 ^ 64
    | .sendData _ => s.sentInEpoch ≤ 2 ^ 31
    | _ => True

instance (cfg : ServerConfig) (home : ℚ → Peer) (s : Link) (ev : LinkEvent) :
    Decidable (Allowed cfg home s ev) := by
  unfold Allowed
  cases ev <;> infer_instance

/-! ## The invariant -/

theorem epochTag_natCast {epoch : ℕ} (h : epoch < 2 ^ 64) : epochTag (epoch : ℚ) = epoch := by
  rw [epochTag, Int.floor_natCast]
  omega

theorem bindableEpoch_eq {epoch e : ℕ} (h : epoch < 2 ^ 64) :
    bindableEpoch epoch = some e ↔ 0 < epoch ∧ e = epoch := by
  rw [bindableEpoch, epochTag_natCast h]
  split_ifs with h0
  · simp [h0, eq_comm]
  · simp [h0]

/-- A number of the epoch that starts with the number `o`. -/
def Numbered (o x : Seq) : Prop := dist o x ≤ 2 ^ 31

/-- A window over numbers of the epoch that starts with `o` has moved past the number `x`. -/
def MovedPast (o : Seq) (w : ReplayWindow) (x : Seq) : Prop :=
  ∃ highest, w.highest = some highest ∧ dist o x ≤ dist o highest ∧
    (dist x highest < w.size → x ∈ w.seen)

section Window

variable {w : ReplayWindow} {o x seq highest : Seq}

/-- Among the numbers of one epoch, what is ahead comes later. -/
theorem isAhead_numbered (hh : Numbered o highest) (hx : isAhead x highest) :
    dist o highest < dist o x := by
  obtain ⟨h0, h1⟩ := hx
  rcases dist_from o highest x with ⟨-, h⟩ | ⟨-, h⟩
  · omega
  · rw [Numbered] at hh
    omega

theorem movedPast_accept_self (hx : Numbered o x) (hsize : w.size < 2 ^ 31)
    (hf : w.Fresh x) : MovedPast o (w.accept x).2 x := by
  cases h : w.highest with
  | none =>
    exact ⟨x, by rw [ReplayWindow.highest_accept hf, h], le_rfl,
      fun _ => ReplayWindow.mem_seen_accept_self hf⟩
  | some highest =>
    refine ⟨_, ReplayWindow.highest_offer h hf, ?_,
      fun _ => ReplayWindow.mem_seen_accept_self hf⟩
    split_ifs with ha
    · exact le_rfl
    · have hd := (((ReplayWindow.fresh_iff h).1 hf).resolve_left ha).1
      rw [Numbered] at hx
      rcases dist_from o x highest with ⟨hle, -⟩ | ⟨-, h⟩
      · exact hle
      · omega

/-- A window that has moved past a number does not accept it, and stays past it. -/
theorem MovedPast.accept (h : MovedPast o w x) (seq : Seq)
    (hw : ∀ highest, w.highest = some highest → Numbered o highest) :
    ¬ w.Fresh x ∧ MovedPast o (w.accept seq).2 x := by
  obtain ⟨highest, hh, hle, hseen⟩ := h
  have hnum := hw highest hh
  refine ⟨fun hf => ?_, ?_⟩
  · rcases (ReplayWindow.fresh_iff hh).1 hf with ha | ⟨hd, hnot⟩
    · have := isAhead_numbered hnum ha
      omega
    · exact hnot (hseen hd)
  · by_cases hf : w.Fresh seq
    · have hh' := ReplayWindow.highest_offer hh hf
      refine ⟨_, hh', ?_, fun hd => ?_⟩
      · split_ifs with ha
        · have := isAhead_numbered hnum ha
          omega
        · exact hle
      · rw [ReplayWindow.size_accept] at hd
        refine ReplayWindow.mem_seen_accept (by rw [hh]; simp) (hseen ?_) hh' hd
        split_ifs at hd with ha
        · have hlt := isAhead_numbered hnum ha
          have h1 := dist_from o x highest
          have h2 := dist_from o x seq
          omega
        · exact hd
    · rw [ReplayWindow.accept_not_fresh hf]
      exact ⟨highest, hh, hle, hseen⟩

end Window

/-- The invariant of a link, given the first number of every epoch. -/
structure LinkInv (home : ℚ → Peer) (base : ℕ → Seq) (s : Link) : Prop where
  bound : Bound s.server
  epoch_lt : s.epoch < 2 ^ 64
  /-- a guard with an epoch belongs to the home of that epoch, and its window holds numbers of it -/
  guards : ∀ p g, s.server.ctx.replayGuards.get? p = some g → g.epoch = 0 ∨ ∃ e : ℕ,
    g.epoch = e ∧ 0 < e ∧ e ≤ s.epoch ∧ home e = p ∧
      ∀ highest, g.window.highest = some highest → Numbered (base e) highest
  hellos : ∀ hello, Datagram.hello hello ∈ s.sent → ∀ epoch, hello.epoch = some epoch →
    ∃ e : ℕ, epoch = e ∧ 0 < e ∧ e ≤ s.epoch
  /-- a packet is identified by its place among the datagrams -/
  ids : ∀ (i : ℕ) (packet : DataPacket), s.sent[i]? = some (.data packet) → packet.id = i
  tags : ∀ packet, Datagram.data packet ∈ s.sent → ∀ e, packet.tagEpoch = some e →
    e ≤ s.epoch ∧ Numbered (base e) packet.sequence
  /-- the next number of the client -/
  next : s.sequence = base s.epoch + BitVec.ofNat 32 s.sentInEpoch
  pending : ∀ data ∈ s.server.pending, Datagram.data data.packet ∈ s.sent ∧
    data.packet.tagEpoch = some (epochTag data.authEpoch)

/-- The packet of place `n` has been dispatched in its epoch: the guard of that epoch's home holds
the epoch, or a later one, and in the first case its window has moved past the packet. -/
def Spent (home : ℚ → Peer) (base : ℕ → Seq) (n : ℕ) (s : Link) : Prop :=
  ∃ (packet : DataPacket) (e : ℕ) (g : ReplayGuard), s.sent[n]? = some (.data packet) ∧
    packet.tagEpoch = some e ∧ 0 < e ∧ s.server.ctx.replayGuards.get? (home e) = some g ∧
    (e : ℚ) ≤ g.epoch ∧ (g.epoch = e → MovedPast (base e) g.window packet.sequence)

/-! ## What the server does -/

variable {cfg : ServerConfig} {home : ℚ → Peer} {base : ℕ → Seq} {s : Link} {sev : ServerEvent}

/-- What the server sees was sent by the client, or comes from within. -/
def FromSent (s : Link) (sev : ServerEvent) : Prop :=
  (∀ now p hello, sev = .hello now p hello → Datagram.hello hello ∈ s.sent) ∧
    ∀ now p packet, sev = .arrive now p packet → Datagram.data packet ∈ s.sent

/-- What is harmless leaves the suspended handlers undisturbed. -/
theorem Harmless.undisturbed {server : Server} (hb : Bound server)
    (h : Harmless cfg home server sev) : Undisturbed cfg server sev := by
  intro data hdata
  obtain ⟨hpos, g, hg, he⟩ := hb.pending data hdata
  exact ⟨h.2.1 (data.peer, g) (OrderedMap.mem_entries.2 hg) (he ▸ hpos), h.1 data hdata⟩

theorem highest_offer_cases {w : ReplayWindow} {x highest : Seq}
    (h : (w.accept x).2.highest = some highest) : highest = x ∨ w.highest = some highest := by
  by_cases hf : w.Fresh x
  · rw [ReplayWindow.highest_accept hf] at h
    split at h
    · exact Or.inl (Option.some.inj h).symm
    next old hw =>
      split_ifs at h
      · exact Or.inl (Option.some.inj h).symm
      · exact Or.inr (hw.trans h)
  · rw [ReplayWindow.accept_not_fresh hf] at h
    exact Or.inr h

/-- The packet of a suspended handler is one of the epoch that the guard of its peer holds. -/
theorem LinkInv.of_pending (h : LinkInv home base s) {data : PendingData}
    (hdata : data ∈ s.server.pending) :
    ∃ (g : ReplayGuard) (e : ℕ), s.server.ctx.replayGuards.get? data.peer = some g ∧
      g.epoch = e ∧ 0 < e ∧ home e = data.peer ∧ data.packet.tagEpoch = some e ∧
      Numbered (base e) data.packet.sequence := by
  obtain ⟨hpos, g, hg, hge⟩ := h.bound.pending data hdata
  obtain ⟨hsent, htag⟩ := h.pending data hdata
  rcases h.guards data.peer g hg with h0 | ⟨e, he, he0, hle, hhome, -⟩
  · rw [h0] at hge
    exact absurd hge hpos.ne
  · rw [← hge, he, epochTag_natCast (hle.trans_lt h.epoch_lt)] at htag
    exact ⟨g, e, hg, he, he0, hhome, htag, (h.tags _ hsent e htag).2⟩

/-- The epochs of the guards after a step of the server. -/
theorem LinkInv.guards_step (h : LinkInv home base s) (hev : Harmless cfg home s.server sev)
    (hsent : FromSent s sev) {p : Peer} {g' : ReplayGuard}
    (hg' : (s.server.step cfg sev).ctx.replayGuards.get? p = some g') :
    g'.epoch = 0 ∨ ∃ e : ℕ, g'.epoch = e ∧ 0 < e ∧ e ≤ s.epoch ∧ home e = p ∧
      ∀ highest, g'.window.highest = some highest → Numbered (base e) highest := by
  have hnew : ∀ now, (guardOrNew s.server.ctx now p).epoch = 0 ∨ ∃ e : ℕ,
      (guardOrNew s.server.ctx now p).epoch = e ∧ 0 < e ∧ e ≤ s.epoch ∧ home e = p ∧
      ∀ highest, (guardOrNew s.server.ctx now p).window.highest = some highest →
        Numbered (base e) highest := by
    intro now
    rw [guardOrNew]
    cases hg : s.server.ctx.replayGuards.get? p with
    | none => exact Or.inl rfl
    | some g => exact h.guards p g hg
  cases guardStep h.bound.wellFormed.keyed hg' with
  | kept hg => exact h.guards p g' hg
  | renewed now hello heq hadm hr =>
    subst heq
    rcases hr with ⟨he, hw, -⟩ | ⟨he, hlt, hw⟩
    · rw [he, hw]
      exact hnew now
    · obtain ⟨e, hee, he0, hle⟩ := h.hellos hello (hsent.1 now p hello rfl) _ he
      refine Or.inr ⟨e, hee, he0, hle, ?_, fun highest hh => ?_⟩
      · rw [← hee]
        refine hev.2.2 ⟨rfl, hadm, _, he, ?_⟩ _ he
        refine lt_of_eq_of_lt ?_ hlt
        rw [peerAuthEpoch, guardOrNew]
        cases s.server.ctx.replayGuards.get? p <;> rfl
      · rw [hw] at hh
        cases hh
  | seen now index data _ _ _ hseen =>
    rw [hseen]
    exact hnew now
  | offered now index data _ hdata hpeer hoffer =>
    obtain ⟨g, e, hg, hge, he0, hhome, -, hnum⟩ := h.of_pending (List.mem_of_getElem? hdata)
    rw [hpeer] at hg hhome
    have hold : guardOrNew s.server.ctx now p = g := by rw [guardOrNew, hg]; rfl
    rw [hold] at hoffer
    rcases h.guards p g hg with h0 | ⟨e', he', -, hle, -, hwin⟩
    · rw [h0] at hge
      exact absurd hge.symm (by exact_mod_cast he0.ne')
    · obtain rfl : e' = e := by exact_mod_cast he'.symm.trans hge
      refine Or.inr ⟨e', hoffer ▸ hge, he0, hle, hhome, fun highest hh => ?_⟩
      rw [hoffer] at hh
      rcases highest_offer_cases hh with rfl | hh
      · exact hnum
      · exact hwin highest hh

/-- **A step of the server preserves the invariant.** -/
theorem LinkInv.server (hauth : cfg.authenticatedHeaders = true) (hbound : cfg.epochBoundAuth = true)
    (h : LinkInv home base s) (hev : Harmless cfg home s.server sev) (hsent : FromSent s sev) :
    LinkInv home base { s with server := s.server.step cfg sev } where
  bound := bound_step hauth hbound h.bound (hev.undisturbed h.bound)
  epoch_lt := h.epoch_lt
  guards p g' hg' := h.guards_step hev hsent hg'
  hellos := h.hellos
  ids := h.ids
  tags := h.tags
  next := h.next
  pending data hdata := by
    rcases mem_pending_step hdata with hold | ⟨now, rfl, hepoch, hv⟩
    · exact h.pending data hold
    · refine ⟨hsent.2 now data.peer data.packet rfl, ?_⟩
      cases ht : data.packet.tagEpoch with
      | none => simp [verifyTag, hauth, hbound, ht] at hv
      | some b =>
        simp only [verifyTag, hauth, ht, Bool.not_true, Bool.false_or, decide_eq_true_eq] at hv
        rw [hv.2]

/-- A step of the server dispatches nothing, or the packet of one handler, which is fresh for the
window of its peer's guard and is offered to it. -/
theorem dispatched_cases (cfg : ServerConfig) (server : Server) (ev : ServerEvent) :
    dispatchedData (server.output cfg ev) = [] ∨ ∃ now index data, ev = .resume now index ∧
      server.pending[index]? = some data ∧ dispatchedData (server.output cfg ev) = [data] ∧
      ((guardOrNew server.ctx now data.peer).window.Fresh data.packet.sequence ∨
        (guardOrNew server.ctx now data.peer).epoch = 0) ∧
      ((server.step cfg ev).ctx.replayGuards.get? data.peer).map (·.window) =
        some ((guardOrNew server.ctx now data.peer).window.accept data.packet.sequence).2 := by
  by_cases h0 : dispatchedData (server.output cfg ev) = []
  · exact Or.inl h0
  obtain ⟨d, hd⟩ := List.exists_mem_of_ne_nil _ h0
  obtain ⟨o, ho, hod⟩ := List.mem_filterMap.1 hd
  obtain ⟨epoch, hdata⟩ := data?_of_dispatched? hod
  obtain ⟨now, index, rfl, hp, -⟩ := output_about ho hdata
  replace hp : server.pending[index]? = some d := hp
  refine Or.inr ⟨now, index, d, rfl, hp, ?_⟩
  have he := Server.handle_resume_some hp cfg now
  rw [Server.output, he] at h0 ⊢
  rw [Server.step, he]
  have hsnd := getReplayGuard_snd server.ctx now d.peer
  rcases resumeData_guard cfg server.ctx now d with ⟨-, h⟩ | ⟨-, h⟩ | ⟨hg, h⟩
  · exact absurd (by rw [h]; rfl) h0
  · exact absurd (by rw [h]; rfl) h0
  · have hsub := h.dispatched
    rcases h.accepted with ha | ⟨ha, hf⟩
    · rw [ha] at hsub
      exact absurd (List.sublist_nil.1 hsub) h0
    · rw [ha] at hsub
      rw [hsnd] at hf hg
      refine ⟨(List.sublist_singleton.1 hsub).resolve_left h0, hf, ?_⟩
      rw [hg, OrderedMap.get?_set_self]
      rfl

/-- While a guard keeps its epoch, its window is at most offered a number. -/
theorem window_offer {server : Server} (hk : Keyed server.ctx.clientSessions) {p : Peer}
    {g g' : ReplayGuard} (hg : server.ctx.replayGuards.get? p = some g)
    (hg' : (server.step cfg sev).ctx.replayGuards.get? p = some g') (he : g'.epoch = g.epoch) :
    g'.window = g.window ∨ ∃ seq, g'.window = (g.window.accept seq).2 := by
  have hold : ∀ now, guardOrNew server.ctx now p = g := fun now => by rw [guardOrNew, hg]; rfl
  cases guardStep hk hg' with
  | kept hkept => exact Or.inl (congrArg _ (Option.some.inj (hkept.symm.trans hg)))
  | renewed now hello _ _ hr =>
    rw [hold] at hr
    rcases hr with ⟨-, hw, -⟩ | ⟨-, hlt, -⟩
    · exact Or.inl hw
    · exact absurd he hlt.ne'
  | seen now _ _ _ _ _ hseen =>
    rw [hold] at hseen
    exact Or.inl (hseen ▸ rfl)
  | offered now _ data _ _ _ hoffer =>
    rw [hold] at hoffer
    exact Or.inr ⟨data.packet.sequence, by rw [hoffer]; rfl⟩

/-- The packet of a dispatched handler is the one that was sent in its place. -/
theorem LinkInv.packet_eq (h : LinkInv home base s) {data : PendingData}
    (hdata : data ∈ s.server.pending) :
    s.sent[data.packet.id]? = some (.data data.packet) := by
  obtain ⟨i, hi⟩ := List.mem_iff_getElem?.1 (h.pending data hdata).1
  rwa [h.ids i _ hi]

/-- Whether a packet was sent in place `n`. -/
def isPacket (n : ℕ) (data : PendingData) : Bool := data.packet.id = n

/-- **A packet that is spent is not dispatched, and stays spent.** -/
theorem Spent.server {n : ℕ} (hs : Spent home base n s) (h : LinkInv home base s)
    (hev : Harmless cfg home s.server sev) :
    (dispatchedData (s.server.output cfg sev)).countP (isPacket n) = 0 ∧
      Spent home base n { s with server := s.server.step cfg sev } := by
  obtain ⟨packet, e, g, hn, htag, he0, hg, hge, hpast⟩ := hs
  have hpos : 0 < g.epoch := lt_of_lt_of_le (by exact_mod_cast he0) hge
  have hwin : g.epoch = e → ∀ highest, g.window.highest = some highest →
      Numbered (base e) highest := by
    intro heq
    rcases h.guards (home e) g hg with h0 | ⟨e', he', -, -, -, hwin⟩
    · exact absurd h0 hpos.ne'
    · obtain rfl : e' = e := by exact_mod_cast he'.symm.trans heq
      exact hwin
  refine ⟨?_, ?_⟩
  · rcases dispatched_cases cfg s.server sev with h0 | ⟨now, index, data, rfl, hdata, hd, hf, -⟩
    · rw [h0]
      rfl
    · rw [hd]
      refine List.countP_eq_zero.2 fun d hmem hid => ?_
      obtain rfl := List.mem_singleton.1 hmem
      have hmem' := List.mem_of_getElem? hdata
      have hid' : d.packet.id = n := of_decide_eq_true hid
      have hpkt := h.packet_eq hmem'
      rw [hid', hn] at hpkt
      obtain rfl : packet = d.packet := by simpa using hpkt
      obtain ⟨g', e', hg', hge', -, hhome, htag', -⟩ := h.of_pending hmem'
      obtain rfl : e = e' := Option.some.inj (htag.symm.trans htag')
      rw [hhome, hg'] at hg
      obtain rfl := Option.some.inj hg
      have hold : guardOrNew s.server.ctx now d.peer = g' := by rw [guardOrNew, hg']; rfl
      rw [hold] at hf
      rcases hf with hf | h0
      · exact ((hpast hge').accept 0 (hwin hge')).1 hf
      · exact hpos.ne' h0
  · have hevict := hev.2.1 (home e, g) (OrderedMap.mem_entries.2 hg) hpos
    obtain ⟨g', hg'⟩ := guard_survives cfg h.bound.wellFormed.keyed hg hevict
    rcases epoch_step h.bound.wellFormed.keyed hg hg' with heq | ⟨hlt, -⟩
    · refine ⟨packet, e, g', hn, htag, he0, hg', heq ▸ hge, fun hge' => ?_⟩
      have hge := heq.symm.trans hge'
      rcases window_offer h.bound.wellFormed.keyed hg hg' heq with hw | ⟨seq, hw⟩
      · exact hw ▸ hpast hge
      · exact hw ▸ ((hpast hge).accept seq (hwin hge)).2
    · refine ⟨packet, e, g', hn, htag, he0, hg', hge.trans hlt.le, fun hge' => ?_⟩
      exact absurd (hge.trans_lt hlt) (hge' ▸ lt_irrefl _)

/-! ## What the client does -/

theorem helloInfo_epoch (payloadLength : ℕ) (clientId : String) (timestamp : ℚ) (epoch : ℕ)
    {x : ℚ} (h : (⟨payloadLength, some (helloInfo clientId timestamp epoch)⟩ : Hello).epoch =
      some x) : x = epoch ∧ 0 < epoch := by
  have hget : (helloInfo clientId timestamp epoch).get "epoch" = .num (.finite epoch) := by
    rw [helloInfo]
    split_ifs <;> rfl
  have hobj : (helloInfo clientId timestamp epoch).isObjectType ∧
      helloInfo clientId timestamp epoch ≠ .null := ⟨rfl, by simp [helloInfo]⟩
  simp only [Hello.epoch, if_pos hobj, hget, validEpoch] at h
  split_ifs at h with hpos
  exact ⟨(Option.some.inj h).symm, by exact_mod_cast hpos⟩

theorem Spent.of_append {n : ℕ} {d : Datagram} {sequence : Seq} (h : Spent home base n s) :
    Spent home base n { s with sequence := sequence, sent := s.sent ++ [d] } := by
  obtain ⟨packet, e, g, hn, hrest⟩ := h
  refine ⟨packet, e, g, ?_, hrest⟩
  rw [List.getElem?_append_left (List.getElem?_eq_some_iff.1 hn).1]
  exact hn

/-- A restart: nothing has been sent in the new epoch. -/
theorem LinkInv.restart (h : LinkInv home base s) {epoch : ℕ} {initialSequence : Seq}
    (hlt : s.epoch < epoch) (hbig : epoch < 2 ^ 64) :
    LinkInv home (Function.update base epoch initialSequence)
      { s with epoch := epoch, sequence := initialSequence } := by
  have hbase : ∀ e ≤ s.epoch, Function.update base epoch initialSequence e = base e :=
    fun e he => Function.update_of_ne (by omega) ..
  refine ⟨h.bound, hbig, fun p g hg => ?_, fun hello hh x hx => ?_, h.ids, fun P hP e he => ?_, ?_,
    h.pending⟩
  · rcases h.guards p g hg with h0 | ⟨e, he, he0, hle, hhome, hwin⟩
    · exact Or.inl h0
    · exact Or.inr ⟨e, he, he0, hle.trans hlt.le, hhome, (hbase e hle).symm ▸ hwin⟩
  · obtain ⟨e, he, he0, hle⟩ := h.hellos hello hh x hx
    exact ⟨e, he, he0, hle.trans hlt.le⟩
  · obtain ⟨hle, hnum⟩ := h.tags P hP e he
    exact ⟨hle.trans hlt.le, (hbase e hle).symm ▸ hnum⟩
  · have hnone : Link.sentInEpoch { s with epoch := epoch, sequence := initialSequence } = 0 := by
      refine List.countP_eq_zero.2 fun d hd => ?_
      cases d with
      | hello _ => simp
      | data P =>
        have htag : bindableEpoch epoch = some epoch :=
          (bindableEpoch_eq hbig).2 ⟨by omega, rfl⟩
        intro hP
        have hP' : P.tagEpoch = some epoch := (of_decide_eq_true hP).trans htag
        have := (h.tags P hd epoch hP').1
        omega
    rw [hnone, Function.update_self]
    simp

theorem LinkInv.sendHello (h : LinkInv home base s) {hello : Hello}
    (hh : ∀ epoch, hello.epoch = some epoch → ∃ e : ℕ, epoch = e ∧ 0 < e ∧ e ≤ s.epoch) :
    LinkInv home base { s with sent := s.sent ++ [.hello hello] } := by
  refine ⟨h.bound, h.epoch_lt, h.guards, fun hello' hmem => ?_, fun i P hP => ?_,
    fun P hP => ?_, ?_, fun data hdata => ?_⟩
  · rcases List.mem_append.1 hmem with hmem | hmem
    · exact h.hellos hello' hmem
    · obtain rfl : hello' = hello := by simpa using hmem
      exact hh
  · rcases getElem?_append_singleton hP with hP | ⟨-, hP⟩
    · exact h.ids i P hP
    · cases hP
  · rcases List.mem_append.1 hP with hP | hP
    · exact h.tags P hP
    · simp at hP
  · rw [h.next]
    simp [Link.sentInEpoch, List.countP_append]
  · obtain ⟨h1, h2⟩ := h.pending data hdata
    exact ⟨List.mem_append_left _ h1, h2⟩

theorem LinkInv.sendData (h : LinkInv home base s) (hcount : s.sentInEpoch ≤ 2 ^ 31)
    (payload : Option (List Delta)) :
    LinkInv home base { s with
      sequence := s.sequence + 1,
      sent := s.sent ++
        [.data ⟨s.sent.length, s.sequence, bindableEpoch s.epoch, payload⟩] } := by
  refine ⟨h.bound, h.epoch_lt, h.guards, fun hello' hmem => ?_, fun i P hP => ?_,
    fun P hP e he => ?_, ?_, fun data hdata => ?_⟩
  · rcases List.mem_append.1 hmem with hmem | hmem
    · exact h.hellos hello' hmem
    · simp at hmem
  · rcases getElem?_append_singleton hP with hP | ⟨rfl, hP⟩
    · exact h.ids i P hP
    · obtain rfl := by simpa using hP
      rfl
  · rcases List.mem_append.1 hP with hP | hP
    · exact h.tags P hP e he
    · obtain rfl : P = ⟨s.sent.length, s.sequence, bindableEpoch s.epoch, payload⟩ := by
        simpa using hP
      obtain ⟨-, rfl⟩ := (bindableEpoch_eq h.epoch_lt).1 he
      refine ⟨le_rfl, ?_⟩
      rw [Numbered, h.next, dist_add_ofNat _ (by omega)]
      exact hcount
  · have hadd : Link.sentInEpoch { s with
        sequence := s.sequence + 1,
        sent := s.sent ++ [.data ⟨s.sent.length, s.sequence, bindableEpoch s.epoch, payload⟩] } =
        s.sentInEpoch + 1 := by
      simp [Link.sentInEpoch, List.countP_append]
    rw [hadd, h.next, BitVec.ofNat_add, BitVec.add_assoc]
    rfl
  · obtain ⟨h1, h2⟩ := h.pending data hdata
    exact ⟨List.mem_append_left _ h1, h2⟩

/-- **A step of the client preserves the invariant.** -/
theorem LinkInv.client {ev : LinkEvent} (h : LinkInv home base s) (hev : Allowed cfg home s ev) :
    ∃ base', LinkInv home base' (s.client ev) ∧
      ∀ n, Spent home base n s → Spent home base' n (s.client ev) := by
  cases ev with
  | restart epoch initialSequence =>
    refine ⟨_, h.restart hev.2.1 hev.2.2, fun n hn => ?_⟩
    obtain ⟨packet, e, g, hsent, htag, he0, hg, hge, hpast⟩ := hn
    have hle := (h.tags packet (List.mem_of_getElem? hsent) e htag).1
    refine ⟨packet, e, g, hsent, htag, he0, hg, hge, ?_⟩
    rw [Function.update_of_ne (by have := hev.2.1; omega)]
    exact hpast
  | sendHello payloadLength clientId timestamp =>
    refine ⟨base, h.sendHello fun x hx => ?_, fun n hn => hn.of_append⟩
    obtain ⟨hx, hpos⟩ := helloInfo_epoch _ _ _ _ hx
    exact ⟨s.epoch, hx, hpos, le_rfl⟩
  | sendData payload => exact ⟨base, h.sendData hev.2 payload, fun n hn => hn.of_append⟩
  | deliver now source index => exact ⟨base, h, fun _ hn => hn⟩
  | inside ev => exact ⟨base, h, fun _ hn => hn⟩

/-! ## Runs -/

/-- An event is one of the client, or the server sees something that the client has sent. -/
theorem Link.step_cases (cfg : ServerConfig) (s : Link) (ev : LinkEvent) :
    (s.step cfg ev = s.client ev ∧ s.dispatches cfg ev = []) ∨
      ∃ sev ∈ s.serverEvent ev, FromSent s sev ∧
        s.step cfg ev = { s with server := s.server.step cfg sev } ∧
        s.dispatches cfg ev = dispatchedData (s.server.output cfg sev) := by
  have inside : ∀ sev, s.serverEvent ev = some sev → s.client ev = s → FromSent s sev →
      ∃ sev ∈ s.serverEvent ev, FromSent s sev ∧
        s.step cfg ev = { s with server := s.server.step cfg sev } ∧
        s.dispatches cfg ev = dispatchedData (s.server.output cfg sev) := by
    intro sev he hc hf
    exact ⟨sev, he, hf, by rw [Link.step, hc, he], by rw [Link.dispatches, he]⟩
  have outside : s.serverEvent ev = none → (s.client ev).server = s.server →
      s.step cfg ev = s.client ev ∧ s.dispatches cfg ev = [] := by
    intro he hc
    refine ⟨?_, by rw [Link.dispatches, he]⟩
    rw [Link.step, he]
    dsimp only
    rw [← hc]
  cases ev with
  | restart epoch initialSequence => exact Or.inl (outside rfl rfl)
  | sendHello payloadLength clientId timestamp => exact Or.inl (outside rfl rfl)
  | sendData payload => exact Or.inl (outside rfl rfl)
  | deliver now source index =>
    cases hd : s.sent[index]? with
    | none => exact Or.inl (outside (by simp [Link.serverEvent, hd]) rfl)
    | some d =>
      have hmem := List.mem_of_getElem? hd
      cases d with
      | hello hello =>
        exact Or.inr (inside (.hello now source hello) (by simp [Link.serverEvent, hd]) rfl
          ⟨by rintro _ _ _ ⟨⟩; exact hmem, by rintro _ _ _ ⟨⟩⟩)
      | data packet =>
        exact Or.inr (inside (.arrive now source packet) (by simp [Link.serverEvent, hd]) rfl
          ⟨by rintro _ _ _ ⟨⟩, by rintro _ _ _ ⟨⟩; exact hmem⟩)
  | inside sev =>
    cases sev with
    | hello now p hello => exact Or.inl (outside rfl rfl)
    | arrive now p packet => exact Or.inl (outside rfl rfl)
    | _ => exact Or.inr (inside _ rfl rfl ⟨by rintro _ _ _ ⟨⟩, by rintro _ _ _ ⟨⟩⟩)

/-- The first dispatch of a packet spends it. -/
theorem LinkInv.spent_first (h : LinkInv home base s) (hev : Harmless cfg home s.server sev)
    (n : ℕ) :
    (dispatchedData (s.server.output cfg sev)).countP (isPacket n) = 0 ∨
      ((dispatchedData (s.server.output cfg sev)).countP (isPacket n) ≤ 1 ∧
        Spent home base n { s with server := s.server.step cfg sev }) := by
  rcases dispatched_cases cfg s.server sev with h0 | ⟨now, index, data, rfl, hdata, hd, hf, hw⟩
  · rw [h0]
    exact Or.inl rfl
  rw [hd]
  by_cases hid : isPacket n data = true
  · refine Or.inr ⟨List.countP_le_length, ?_⟩
    have hid' : data.packet.id = n := of_decide_eq_true hid
    have hmem := List.mem_of_getElem? hdata
    obtain ⟨g, e, hg, hge, he0, hhome, htag, hnum⟩ := h.of_pending hmem
    have hold : guardOrNew s.server.ctx now data.peer = g := by rw [guardOrNew, hg]; rfl
    rw [hold] at hf hw
    obtain ⟨g', hg', hw'⟩ := Option.map_eq_some_iff.1 hw
    have hpos : (0 : ℚ) < e := by exact_mod_cast he0
    have hfresh := hf.resolve_right (by rw [hge]; exact hpos.ne')
    refine ⟨data.packet, e, g', hid' ▸ h.packet_eq hmem, htag, he0, hhome ▸ hg', ?_, fun _ => ?_⟩
    · rcases epoch_step h.bound.wellFormed.keyed hg hg' with heq | ⟨hlt, -⟩
      · rw [heq, hge]
      · exact hge ▸ hlt.le
    · rw [hw']
      refine movedPast_accept_self hnum ?_ hfresh
      rw [h.bound.wellFormed.sized _ g hg, REPLAY_WINDOW_SIZE]
      norm_num
  · exact Or.inl (by simp [hid])

theorem linkInv_new (home : ℚ → Peer) {epoch : ℕ} (hepoch : epoch < 2 ^ 64)
    (initialSequence : Seq) :
    LinkInv home (fun _ => initialSequence) (Link.new epoch initialSequence) where
  bound := ⟨wellFormed_new, by simp [Link.new, Server.new]⟩
  epoch_lt := hepoch
  guards := by simp [Link.new, Server.new, createServerContext]
  hellos := by simp [Link.new]
  ids := by simp [Link.new]
  tags := by simp [Link.new]
  next := by simp [Link.new, Link.sentInEpoch]
  pending := by simp [Link.new, Server.new]

/-- **Captured datagrams are not dispatched twice**, along every run in which each epoch reaches
the server from one source only, no suspended handler is overtaken by a higher epoch, no guard with
an epoch is evicted, restarts raise the epoch, and at most `2 ^ 31 + 1` packets are sent in one. -/
theorem dispatched_at_most_once (cfg : ServerConfig) (hauth : cfg.authenticatedHeaders = true)
    (hbound : cfg.epochBoundAuth = true) (home : ℚ → Peer) (epoch : ℕ) (hepoch : epoch < 2 ^ 64)
    (initialSequence : Seq) (es : List LinkEvent)
    (h : Along (Link.step cfg) (Allowed cfg home) (Link.new epoch initialSequence) es) (n : ℕ) :
    (trace (Link.step cfg) (Link.dispatches cfg) (Link.new epoch initialSequence) es).countP
      (isPacket n) ≤ 1 := by
  refine countP_trace_le_one
    (I := fun s es => (∃ base, LinkInv home base s) ∧ Along (Link.step cfg) (Allowed cfg home) s es)
    (J := fun s es => (∃ base, LinkInv home base s ∧ Spent home base n s) ∧
      Along (Link.step cfg) (Allowed cfg home) s es) ?_ ?_
    ⟨⟨_, linkInv_new home hepoch initialSequence⟩, h⟩
  · rintro s ev es ⟨⟨base, hs⟩, hev, hrest⟩
    rcases s.step_cases cfg ev with ⟨he, hd⟩ | ⟨sev, hsev, hsent, he, hd⟩
    · obtain ⟨base', hs', -⟩ := hs.client hev
      rw [hd]
      exact Or.inl ⟨rfl, ⟨base', he ▸ hs'⟩, hrest⟩
    · have hharm := hev.1 sev hsev
      have hs' := hs.server hauth hbound hharm hsent
      rw [hd]
      rcases hs.spent_first hharm n with h0 | ⟨h1, hspent⟩
      · exact Or.inl ⟨h0, ⟨base, he ▸ hs'⟩, hrest⟩
      · exact Or.inr ⟨h1, ⟨base, he ▸ hs', he ▸ hspent⟩, hrest⟩
  · rintro s ev es ⟨⟨base, hs, hspent⟩, hev, hrest⟩
    rcases s.step_cases cfg ev with ⟨he, hd⟩ | ⟨sev, hsev, hsent, he, hd⟩
    · obtain ⟨base', hs', hkeep⟩ := hs.client hev
      rw [hd]
      exact ⟨rfl, ⟨base', he ▸ hs', he ▸ hkeep n hspent⟩, hrest⟩
    · have hharm := hev.1 sev hsev
      obtain ⟨h0, hspent'⟩ := hspent.server hs hharm
      rw [hd]
      exact ⟨h0, ⟨base, he ▸ hs.server hauth hbound hharm hsent, he ▸ hspent'⟩, hrest⟩

/-- A packet that is sent again from its own source and from another one. -/
theorem dispatched_at_most_once_replayed :
    let client : Peer := ⟨"10.0.0.1", 4446⟩
    let attacker : Peer := ⟨"203.0.113.9", 4446⟩
    (trace (Link.step { epochBoundAuth := true }) (Link.dispatches { epochBoundAuth := true })
      (Link.new 7 100) [.sendHello 90 "boat" 0, .sendData (some []), .deliver 1 client 0,
        .deliver 2 client 1, .inside (.resume 3 0), .deliver 4 client 1, .inside (.resume 5 0),
        .deliver 6 attacker 1]).countP (isPacket 1) ≤ 1 :=
  dispatched_at_most_once { epochBoundAuth := true } rfl rfl (fun _ => ⟨"10.0.0.1", 4446⟩) 7
    (by norm_num) 100 _ (by decide +kernel) 1

/-- The attacker sends the captured HELLO before the captured packet: the packet is dispatched a
second time. -/
theorem captured_hello_dispatches_twice :
    let client : Peer := ⟨"10.0.0.1", 4446⟩
    let attacker : Peer := ⟨"203.0.113.9", 4446⟩
    ¬ (trace (Link.step { epochBoundAuth := true }) (Link.dispatches { epochBoundAuth := true })
      (Link.new 7 100) [.sendHello 90 "boat" 0, .sendData (some []), .deliver 1 client 0,
        .deliver 2 client 1, .inside (.resume 3 0), .deliver 4 attacker 0, .deliver 5 attacker 1,
        .inside (.resume 6 0)]).countP (isPacket 1) ≤ 1 := by
  decide +kernel

end EdgeLink
