import EdgeLink.Server.Handlers

/-!
# At-most-once delivery within an epoch

While a peer's replay guard holds one epoch, the only thing that happens to its window is that
numbers are offered to it (`step_guard`): the sessions of the peer come and go without effect. A
number that has been accepted is then behind the window's highest number, and remembered as long as
it is in the window (`Past`). It could only be accepted again from beyond the highest number, for
which the window would have to advance by almost a whole lap of the number space.

* `accepted_at_most_once`: while the guard holds a positive epoch and the window advances by less
  than half the number space in all, no number is accepted twice.
-/

namespace EdgeLink

open Serial ServerOutput

variable {cfg : ServerConfig} {p q : Peer} {g g' : ReplayGuard}

/-! ## A number that the window has accepted -/

namespace ReplayWindow

variable {w : ReplayWindow} {x seq : Seq} {n : ℕ}

/-- How far the highest number moves from one window to the next. -/
def advanceTo (w w' : ReplayWindow) : ℕ :=
  match w.highest, w'.highest with
  | some h, some h' => dist h h'
  | _, _ => 0

/-- The number `x` is behind the highest number, remembered if it is in the window, and an advance
by `n` does not lead around to it. -/
def Past (w : ReplayWindow) (x : Seq) (n : ℕ) : Prop :=
  ∃ highest, w.highest = some highest ∧ (dist x highest < w.size → x ∈ w.seen) ∧
    dist x highest + n < 2 ^ 32

/-- The highest number after a number is offered. -/
theorem highest_offer {highest : Seq} (h : w.highest = some highest) (hf : w.Fresh seq) :
    (w.accept seq).2.highest = some (if isAhead seq highest then seq else highest) := by
  rw [highest_accept hf, h]

theorem Past.mono {m : ℕ} (h : w.Past x m) (hn : n ≤ m) : w.Past x n := by
  obtain ⟨highest, hh, hseen, hroom⟩ := h
  exact ⟨highest, hh, hseen, by omega⟩

/-- A number that is accepted is past. -/
theorem past_accept_self (hf : w.Fresh x) (hn : w.size + n < 2 ^ 32) :
    (w.accept x).2.Past x n := by
  have hsize := w.size_pos
  cases h : w.highest with
  | none =>
    refine ⟨x, by rw [highest_accept hf, h], fun _ => mem_seen_accept_self hf, ?_⟩
    rw [dist_self]
    omega
  | some highest =>
    refine ⟨_, highest_offer h hf, fun _ => mem_seen_accept_self hf, ?_⟩
    split_ifs with ha
    · rw [dist_self]
      omega
    · have hd := (((fresh_iff h).1 hf).resolve_left ha).1
      omega

/-- A number that is past is not accepted, and stays past. -/
theorem Past.accept (hp : w.Past x (w.advanceTo (w.accept seq).2 + n)) :
    (w.Fresh seq → seq ≠ x) ∧ (w.accept seq).2.Past x n := by
  obtain ⟨highest, hh, hseen, hroom⟩ := hp
  by_cases hf : w.Fresh seq
  · have hh' := highest_offer hh hf
    have hadv : w.advanceTo (w.accept seq).2 =
        dist highest (if isAhead seq highest then seq else highest) := by
      simp only [advanceTo, hh, hh']
    rw [hadv] at hroom
    have hcase := (fresh_iff hh).1 hf
    have hsize := size_accept w seq
    split_ifs at hroom hh' with ha
    · -- the window advances over `seq`, which is not a lap ahead of `x`
      have hxs := dist_add_dist x highest seq
      have hlt := dist_lt x seq
      refine ⟨?_, seq, hh', fun hd => ?_, by omega⟩
      · rintro - rfl
        have := dist_add_dist_comm (Ahead.ne (isAhead_iff_ahead.1 ha))
        omega
      · rw [hsize] at hd
        exact mem_seen_accept (by rw [hh]; simp) (hseen (by omega)) hh' hd
    · obtain ⟨hd, hnot⟩ := hcase.resolve_left ha
      refine ⟨?_, highest, hh', fun hd => ?_, by omega⟩
      · rintro - rfl
        exact hnot (hseen hd)
      · rw [hsize] at hd
        exact mem_seen_accept (by rw [hh]; simp) (hseen hd) hh' hd
  · rw [accept_not_fresh hf] at hroom ⊢
    refine ⟨fun h => absurd h hf, highest, hh, hseen, ?_⟩
    omega

end ReplayWindow

/-! ## What a step does to a guard -/

/-- How a step of the server from `s` leads to the guard `g'` of `p`. -/
inductive GuardStep (cfg : ServerConfig) (s : Server) (ev : ServerEvent) (p : Peer)
    (g' : ReplayGuard) : Prop where
  /-- the guard was there, and the step is about no packet of the peer -/
  | kept (hg : s.ctx.replayGuards.get? p = some g')
      (hout : ∀ o ∈ s.output cfg ev, ∀ x ∈ o.data?, x.1.peer ≠ p)
  /-- a HELLO of the peer has renewed it -/
  | renewed (now : Time) (hello : Hello) (hev : ev = .hello now p hello)
      (hadmitted : Admitted cfg s.ctx now p hello)
      (hrenewed : Renewed hello.epoch (guardOrNew s.ctx now p) g')
      (hout : ∀ o ∈ s.output cfg ev, o.data? = none)
  /-- a handler for a packet of the peer has looked it up -/
  | seen (now : Time) (index : ℕ) (data : PendingData) (hev : ev = .resume now index)
      (hdata : s.pending[index]? = some data) (hpeer : data.peer = p)
      (hg : g' = { guardOrNew s.ctx now p with lastSeen := now })
      (hout : s.output cfg ev = [])
  /-- a handler for a packet of the peer has offered its number to the window -/
  | offered (now : Time) (index : ℕ) (data : PendingData) (hev : ev = .resume now index)
      (hdata : s.pending[index]? = some data) (hpeer : data.peer = p)
      (hg : g' = ReplayGuard.offer { guardOrNew s.ctx now p with lastSeen := now }
        data.packet.sequence)
      (hout : ResumeOutput data { guardOrNew s.ctx now p with lastSeen := now }
        (s.output cfg ev))

theorem handleHelloPacket_data? (cfg : ServerConfig) (ctx : ServerContext) (now : Time) (p : Peer)
    (hello : Hello) : ∀ o ∈ (handleHelloPacket cfg ctx now p hello).2, o.data? = none := by
  intro o ho
  rcases handleHelloPacket_requests ho with ⟨q, rfl⟩ | ⟨q, rfl⟩ <;> rfl

theorem sendPeriodicACK_data? (cfg : ServerConfig) (now : Time) (session : ClientSession) :
    ∀ o ∈ (sendPeriodicACK cfg session now).2, o.data? = none := by
  rw [sendPeriodicACK]
  split
  · simp
  · dsimp only
    split_ifs <;> simp [data?]

theorem sessionNakTimer_data? (sequence : Seq) (session : ClientSession) :
    ∀ o ∈ (sessionNakTimer session sequence).2, o.data? = none := by
  simp only [sessionNakTimer]
  split_ifs <;> simp [data?]

theorem sessionNakFlush_data? (session : ClientSession) :
    ∀ o ∈ (sessionNakFlush session).2, o.data? = none := by
  intro o ho
  obtain ⟨chunk, -, rfl⟩ := List.mem_map.1 ho
  rfl

theorem onSession_data? {s : Server} {f : ClientSession → ClientSession × List ServerOutput}
    (hf : ∀ session, ∀ o ∈ (f session).2, o.data? = none) (p : Peer) :
    (s.onSession p f).1.ctx.replayGuards = s.ctx.replayGuards ∧
      ∀ o ∈ (s.onSession p f).2, o.data? = none := by
  rw [Server.onSession]
  split
  · exact ⟨rfl, by simp⟩
  · exact ⟨rfl, hf _⟩

/-- A step that leaves the guards alone and is about no packet. -/
theorem GuardStep.quiet {s : Server} {ev : ServerEvent}
    (hg' : (s.step cfg ev).ctx.replayGuards.get? p = some g')
    (he : (s.step cfg ev).ctx.replayGuards = s.ctx.replayGuards)
    (ho : ∀ o ∈ s.output cfg ev, o.data? = none) : GuardStep cfg s ev p g' := by
  rw [he] at hg'
  refine .kept hg' fun o hmem x hx => ?_
  rw [ho o hmem] at hx
  cases hx

/-- A timer of a session. -/
theorem GuardStep.timer {s : Server} {ev : ServerEvent} {q : Peer}
    {f : ClientSession → ClientSession × List ServerOutput}
    (hg' : (s.step cfg ev).ctx.replayGuards.get? p = some g')
    (he : s.handle cfg ev = s.onSession q f)
    (hf : ∀ session, ∀ o ∈ (f session).2, o.data? = none) : GuardStep cfg s ev p g' := by
  obtain ⟨h1, h2⟩ := onSession_data? (s := s) hf q
  refine .quiet hg' ?_ ?_
  · rw [Server.step, he]
    exact h1
  · rw [Server.output, he]
    exact h2

theorem guardStep_hello {s : Server} (hk : Keyed s.ctx.clientSessions) {now : Time} {q : Peer}
    {hello : Hello}
    (hg' : (s.step cfg (.hello now q hello)).ctx.replayGuards.get? p = some g') :
    GuardStep cfg s (.hello now q hello) p g' := by
  have hout := handleHelloPacket_data? cfg s.ctx now q hello
  rcases handleHelloPacket_guard hk cfg now q hello with he | ⟨hadmitted, ⟨g'', hg'', hr⟩, hkept⟩
  · exact .quiet hg' he hout
  · by_cases hp : p = q
    · subst hp
      obtain rfl := Option.some.inj (hg''.symm.trans hg')
      exact .renewed now hello rfl hadmitted hr hout
    · rcases hkept p hp with he | ⟨-, -, -, hn⟩
      · refine .kept (he.symm.trans hg') fun o ho x hx => ?_
        rw [hout o ho] at hx
        cases hx
      · cases hn.symm.trans hg'

theorem guardStep_resume {s : Server} {now : Time} {index : ℕ}
    (hg' : (s.step cfg (.resume now index)).ctx.replayGuards.get? p = some g') :
    GuardStep cfg s (.resume now index) p g' := by
  cases hd : s.pending[index]? with
  | none =>
    have he := Server.handle_resume_none hd cfg now
    refine .quiet hg' (by rw [Server.step, he]) ?_
    rw [Server.output, he]
    simp
  | some data =>
    have he := Server.handle_resume_some hd cfg now
    have hout : s.output cfg (.resume now index) = (resumeData cfg s.ctx now data).2 := by
      rw [Server.output, he]
    have hguards : (s.step cfg (.resume now index)).ctx.replayGuards =
        (resumeData cfg s.ctx now data).1.replayGuards := by rw [Server.step, he]
    have hsnd := getReplayGuard_snd s.ctx now data.peer
    have hkept := getReplayGuard_kept s.ctx now data.peer
    -- no session, a packet that is dropped before the window, or one that is offered to it
    rcases resumeData_guard cfg s.ctx now data with ⟨h1, h2⟩ | ⟨h1, h2⟩ | ⟨h1, h2⟩
    · refine .quiet hg' (hguards.trans h1) ?_
      rw [hout, h2]
      simp
    · rw [hguards, h1] at hg'
      by_cases hp : data.peer = p
      · subst hp
        rw [get?_getReplayGuard] at hg'
        exact .seen now index data rfl hd rfl ((Option.some.inj hg').symm.trans hsnd)
          (hout.trans h2)
      · rcases hkept p (Ne.symm hp) with e | ⟨-, -, -, e⟩
        · refine .kept (e ▸ hg') ?_
          rw [hout, h2]
          simp
        · cases e.symm.trans hg'
    · rw [hguards, h1] at hg'
      by_cases hp : data.peer = p
      · subst hp
        rw [OrderedMap.get?_set_self] at hg'
        rw [hsnd] at hg' h2
        exact .offered now index data rfl hd rfl (Option.some.inj hg').symm (hout ▸ h2)
      · rw [OrderedMap.get?_set_of_ne _ (Ne.symm hp)] at hg'
        rcases hkept p (Ne.symm hp) with e | ⟨-, -, -, e⟩
        · refine .kept (e ▸ hg') fun o ho x hx => ?_
          rw [h2.about o (hout ▸ ho) x hx]
          exact hp
        · cases e.symm.trans hg'

/-- **What a step does to the guard of a peer.** -/
theorem guardStep {s : Server} (hk : Keyed s.ctx.clientSessions) {ev : ServerEvent}
    (hg' : (s.step cfg ev).ctx.replayGuards.get? p = some g') : GuardStep cfg s ev p g' := by
  cases ev with
  | hello => exact guardStep_hello hk hg'
  | arrive now q packet =>
    exact .quiet hg' (arriveData_cases cfg s.ctx now q packet).1 fun o ho => nomatch ho
  | resume => exact guardStep_resume hg'
  | ackTick now => exact .timer hg' rfl (sendPeriodicACK_data? cfg now)
  | nakTimer _ sequence => exact .timer hg' rfl (sessionNakTimer_data? sequence)
  | nakFlush => exact .timer hg' rfl sessionNakFlush_data?
  | expire => exact .quiet hg' rfl fun o ho => nomatch ho

/-! ## Reachable servers -/

/-- What holds of every server a run leads to: the sessions are stored under their keys, and the
windows have the size they were created with. -/
structure Server.WellFormed (s : Server) : Prop where
  keyed : Keyed s.ctx.clientSessions
  sized : ∀ p g, s.ctx.replayGuards.get? p = some g → g.window.size = REPLAY_WINDOW_SIZE

theorem sized_guardOrNew {s : Server} (h : s.WellFormed) (now : Time) (p : Peer) :
    (guardOrNew s.ctx now p).window.size = REPLAY_WINDOW_SIZE := by
  rw [guardOrNew]
  cases hg : s.ctx.replayGuards.get? p with
  | none => rfl
  | some g => exact h.sized p g hg

theorem wellFormed_step {s : Server} (h : s.WellFormed) (ev : ServerEvent) :
    (s.step cfg ev).WellFormed := by
  refine ⟨keyed_step h.keyed ev, fun p g' hg' => ?_⟩
  have hnew := fun now => sized_guardOrNew h now p
  cases guardStep h.keyed hg' with
  | kept hg => exact h.sized p g' hg
  | renewed now hello _ _ hr =>
    rcases hr with ⟨-, hw, -⟩ | ⟨-, -, hw⟩ <;> rw [hw]
    · exact hnew now
    · exact hnew now
  | seen now _ _ _ _ _ hg => exact hg ▸ hnew now
  | offered now _ _ _ _ _ hg => exact hg ▸ (ReplayWindow.size_accept _ _).trans (hnew now)

theorem wellFormed_new : Server.new.WellFormed where
  keyed := by simp [Server.new, createServerContext, Keyed]
  sized := by simp [Server.new, createServerContext]

theorem wellFormed_run (cfg : ServerConfig) (es : List ServerEvent) :
    (run (Server.step cfg) Server.new es).WellFormed :=
  run_invariant (I := Server.WellFormed) (fun _ ev h => wellFormed_step h ev) wellFormed_new es

/-! ## At-most-once delivery -/

/-- The guard of `p` exists and holds the epoch `e`. -/
def HoldsEpoch (p : Peer) (e : ℚ) (s : Server) : Prop :=
  (s.ctx.replayGuards.get? p).map (·.epoch) = some e

instance (p : Peer) (e : ℚ) (s : Server) : Decidable (HoldsEpoch p e s) := by
  unfold HoldsEpoch
  infer_instance

/-- How far a step advances the highest number of the window of `p`. -/
def windowAdvance (cfg : ServerConfig) (p : Peer) (s : Server) (ev : ServerEvent) : ℕ :=
  match s.ctx.replayGuards.get? p, (s.step cfg ev).ctx.replayGuards.get? p with
  | some g, some g' => g.window.advanceTo g'.window
  | _, _ => 0

/-- The packets that pass `trackDataSequence` in a step. -/
def accepts (cfg : ServerConfig) (s : Server) (ev : ServerEvent) : List PendingData :=
  acceptedData (s.output cfg ev)

/-- Whether a packet of `p` has the number `x`. -/
def isNumber (p : Peer) (x : Seq) (data : PendingData) : Bool :=
  data.peer = p ∧ data.packet.sequence = x

/-- A step that puts out nothing about packets of `p` accepts none. -/
theorem countP_accepts_eq_zero {s : Server} {ev : ServerEvent}
    (h : ∀ o ∈ s.output cfg ev, ∀ x ∈ o.data?, x.1.peer ≠ p) (x : Seq) :
    (accepts cfg s ev).countP (isNumber p x) = 0 := by
  refine List.countP_eq_zero.2 fun d hd hn => ?_
  obtain ⟨o, ho, hod⟩ := List.mem_filterMap.1 hd
  obtain ⟨epoch, hdata⟩ := data?_of_accepted? hod
  exact h o ho _ hdata (of_decide_eq_true hn).1

/-- Under a guard that keeps a positive epoch, a step leaves the window as it is and accepts no
packet of the peer, or it offers a number to the window and accepts at most that one. -/
theorem window_step {s : Server} (hs : s.WellFormed) {ev : ServerEvent} (hpos : 0 < g.epoch)
    (hg : s.ctx.replayGuards.get? p = some g)
    (hg' : (s.step cfg ev).ctx.replayGuards.get? p = some g') (he : g'.epoch = g.epoch) (x : Seq) :
    (g'.window = g.window ∧ (accepts cfg s ev).countP (isNumber p x) = 0) ∨
      ∃ seq, g'.window = (g.window.accept seq).2 ∧ (accepts cfg s ev).countP (isNumber p x) ≤ 1 ∧
        ((accepts cfg s ev).countP (isNumber p x) ≠ 0 → seq = x ∧ g.window.Fresh x) := by
  have hold : ∀ now, guardOrNew s.ctx now p = g := fun now => by rw [guardOrNew, hg]; rfl
  cases guardStep hs.keyed hg' with
  | kept hkept hout =>
    obtain rfl := Option.some.inj (hg.symm.trans hkept)
    exact Or.inl ⟨rfl, countP_accepts_eq_zero hout x⟩
  | renewed now hello _ _ hr hout =>
    rw [hold] at hr
    rcases hr with ⟨-, hw, -⟩ | ⟨-, hlt, -⟩
    · refine Or.inl ⟨hw, countP_accepts_eq_zero (fun o ho y hy => ?_) x⟩
      rw [hout o ho] at hy
      cases hy
    · exact absurd he hlt.ne'
  | seen now index data _ _ _ hseen hout =>
    rw [hold] at hseen
    refine Or.inl ⟨hseen ▸ rfl, countP_accepts_eq_zero ?_ x⟩
    rw [hout]
    simp
  | offered now index data _ _ hpeer hoffer hout =>
    rw [hold] at hoffer hout
    refine Or.inr ⟨data.packet.sequence, hoffer ▸ rfl, ?_, ?_⟩
    all_goals
      rw [accepts]
      rcases hout.accepted with ha | ⟨ha, hf⟩ <;> rw [ha]
    · simp
    · exact List.countP_le_length
    · simp
    · intro hne
      have hn : isNumber p x data = true := by
        by_contra hn
        exact hne (by simp [hn])
      have hx : data.packet.sequence = x := (of_decide_eq_true hn).2
      exact ⟨hx, hx ▸ hf.resolve_right hpos.ne'⟩

/-- **At-most-once delivery within an epoch.** While the replay guard of a peer exists and holds
the positive epoch `e`, and its window advances by less than half the number space in all, no
sequence number of that peer passes `trackDataSequence` twice, whatever happens to its sessions. -/
theorem accepted_at_most_once (cfg : ServerConfig) (es₀ es : List ServerEvent) (p : Peer) (e : ℚ)
    (hpos : 0 < e)
    (hepoch : Along (Server.step cfg) (fun s ev => HoldsEpoch p e s ∧ HoldsEpoch p e (s.step cfg ev))
      (run (Server.step cfg) Server.new es₀) es)
    (hadvance : total (Server.step cfg) (windowAdvance cfg p)
      (run (Server.step cfg) Server.new es₀) es < 2 ^ 31) (x : Seq) :
    (trace (Server.step cfg) (accepts cfg) (run (Server.step cfg) Server.new es₀) es).countP
      (isNumber p x) ≤ 1 := by
  -- `held`: what the hypotheses say of the rest of the run; `after`: the number is past
  let held : Server → List ServerEvent → Prop := fun s es => s.WellFormed ∧
    Along (Server.step cfg) (fun s ev => HoldsEpoch p e s ∧ HoldsEpoch p e (s.step cfg ev)) s es
  let before : Server → List ServerEvent → Prop := fun s es =>
    held s es ∧ total (Server.step cfg) (windowAdvance cfg p) s es < 2 ^ 31
  let after : Server → List ServerEvent → Prop := fun s es => held s es ∧
    ∀ g, s.ctx.replayGuards.get? p = some g →
      g.window.Past x (total (Server.step cfg) (windowAdvance cfg p) s es)
  have hrest : ∀ s ev es, held s (ev :: es) → held (s.step cfg ev) es :=
    fun s ev es h => ⟨wellFormed_step h.1 ev, h.2.2⟩
  have hguards : ∀ s ev es, held s (ev :: es) → ∃ g g', s.ctx.replayGuards.get? p = some g ∧
      (s.step cfg ev).ctx.replayGuards.get? p = some g' ∧ 0 < g.epoch ∧ g'.epoch = g.epoch ∧
      windowAdvance cfg p s ev = g.window.advanceTo g'.window := by
    rintro s ev es ⟨-, ⟨hg, hg'⟩, -⟩
    obtain ⟨g, hg, he⟩ := Option.map_eq_some_iff.1 hg
    obtain ⟨g', hg', he'⟩ := Option.map_eq_some_iff.1 hg'
    exact ⟨g, g', hg, hg', he ▸ hpos, he'.trans he.symm, by simp only [windowAdvance, hg, hg']⟩
  refine countP_trace_le_one (I := before) (J := after) ?_ ?_
    ⟨⟨wellFormed_run cfg es₀, hepoch⟩, hadvance⟩
  · rintro s ev es ⟨hheld, hadv⟩
    obtain ⟨g, g', hg, hg', hgpos, he, hwa⟩ := hguards s ev es hheld
    rw [total, hwa] at hadv
    by_cases h0 : (accepts cfg s ev).countP (isNumber p x) = 0
    · exact Or.inl ⟨h0, hrest s ev es hheld, by omega⟩
    rcases window_step hheld.1 hgpos hg hg' he x with ⟨-, h⟩ | ⟨seq, hw, hle, hacc⟩
    · exact absurd h h0
    obtain ⟨rfl, hf⟩ := hacc h0
    refine Or.inr ⟨hle, hrest s ev es hheld, fun g'' hg'' => ?_⟩
    obtain rfl := Option.some.inj (hg'.symm.trans hg'')
    rw [hw]
    refine ReplayWindow.past_accept_self hf ?_
    rw [hheld.1.sized p g hg, REPLAY_WINDOW_SIZE]
    omega
  · rintro s ev es ⟨hheld, hpast⟩
    obtain ⟨g, g', hg, hg', hgpos, he, hwa⟩ := hguards s ev es hheld
    have hp := hpast g hg
    rw [total, hwa] at hp
    rcases window_step hheld.1 hgpos hg hg' he x with ⟨hw, h⟩ | ⟨seq, hw, hle, hacc⟩
    · refine ⟨h, hrest s ev es hheld, fun g'' hg'' => ?_⟩
      obtain rfl := Option.some.inj (hg'.symm.trans hg'')
      rw [hw] at hp ⊢
      exact hp.mono (by omega)
    · rw [hw] at hp
      obtain ⟨hne, hp'⟩ := hp.accept
      refine ⟨?_, hrest s ev es hheld, fun g'' hg'' => ?_⟩
      · by_contra h0
        obtain ⟨hx, hf⟩ := hacc h0
        exact hne (hx ▸ hf) hx
      · obtain rfl := Option.some.inj (hg'.symm.trans hg'')
        exact hw ▸ hp'

/-- A packet, the expiry of its session, and the same packet again. -/
theorem accepted_at_most_once_after_expiry :
    let p : Peer := ⟨"10.0.0.1", 4446⟩
    let hello : Hello := ⟨20, some (.obj [("epoch", .num (.finite 7))])⟩
    let packet : DataPacket := ⟨0, 5, some 7, none⟩
    let s := run (Server.step {}) Server.new [.hello 0 p hello]
    (trace (Server.step {}) (accepts {}) s [.arrive 1 p packet, .resume 2 0, .expire 400000,
      .arrive 400001 p packet, .resume 400002 0]).countP (isNumber p 5) ≤ 1 :=
  accepted_at_most_once {} _ _ _ 7 (by norm_num) (by decide +kernel) (by decide +kernel) 5

end EdgeLink
