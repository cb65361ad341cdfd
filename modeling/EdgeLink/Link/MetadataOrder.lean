import EdgeLink.Server.MetadataHandler
import EdgeLink.Foundations.Run

/-!
# The order of the metadata

One sender that numbers its envelopes (`transport/pipeline/reliable-client/metadata-sender.ts`), a
network that loses, duplicates, delays and reorders their chunks, and one session of the server.
Every chunk that has been sent can be delivered at any time, any number of times.

* `NewestWins` says that what was handed over last for a context and a path is of the newest
  envelope among the applied chunks that carry them. It fails when a chunk arrives late in an
  envelope that the session still retains, or when an old envelope 0 is taken for a restart of the
  sender (`older_metadata_wins`).
* `newest_or_late`: where no chunk is half the number space away from the newest envelope, or taken
  for a restart, what was handed over last is of the newest envelope, or of a chunk that was late;
  and a chunk of an older envelope that is no longer retained is never applied.
-/

namespace EdgeLink

open Serial EnvChannelState

/-- A chunk on the wire, with the number of its envelope before it is cut to 32 bits. -/
structure MetaPacket where
  envelope : ℕ
  env : MetaEnvelope
  deriving DecidableEq

/-- An item handed to `app.handleMessage`, with the envelope that it came with, and whether its chunk
was late. -/
structure Handed where
  context : String
  path : String
  metadata : JsValue
  envelope : ℕ
  late : Bool
  deriving DecidableEq

/-- The sender, the chunks it has sent, the session, and what the session has handed over. -/
structure MetaLink where
  metaEnvelopeSeq : ℕ
  packets : List MetaPacket
  session : MetaSession
  /-- the newest envelope of which a chunk has arrived -/
  newest : Option ℕ
  handed : List Handed

inductive MetaLinkEvent where
  | sendMetadata (entries : List MetaEntry) (kind : MetaKind) (metaConfig : Option MetaConfig)
  | deliver (i : ℕ)
  /-- a source snapshot arrives, which has numbers of its own -/
  | deliverSources (seq idx : Option Seq) (fields : List (String × JsValue))

namespace MetaLink

def new : MetaLink := ⟨0, [], MetaSession.new, none, []⟩

/-- Send the entries as the chunks of one envelope. -/
def sendMetadata (s : MetaLink) (entries : List MetaEntry) (kind : MetaKind)
    (metaConfig : Option MetaConfig) : MetaLink :=
  if entries = [] then s
  else
    let maxPerPacket := (metaConfig.map (·.maxPathsPerPacket)).getD 500
    let chunks := splitIntoPackets entries maxPerPacket
    { s with
      metaEnvelopeSeq := s.metaEnvelopeSeq + 1
      packets := s.packets ++ chunks.mapIdx fun idx chunk =>
        ⟨s.metaEnvelopeSeq, buildMetaEnvelope chunk kind s.metaEnvelopeSeq idx⟩ }

/-- What a message hands over. -/
def handedOf (envelope : ℕ) (late : Bool) (message : MetaMessage) : List Handed :=
  message.items.map fun item => ⟨message.context, item.1, item.2, envelope, late⟩

/-- A chunk arrives. -/
def deliver (s : MetaLink) (packet : MetaPacket) : MetaLink :=
  let late := packet.env.seq.any fun envSeq => decide (s.session.metaChannel.IsLate envSeq)
  let processed := processMetaEnvelope s.session packet.env
  { s with
    session := processed.1
    newest := some (max packet.envelope (s.newest.getD 0))
    handed := s.handed ++ processed.2.flatMap (handedOf packet.envelope late) }

/-- One step of the link. -/
def step (s : MetaLink) : MetaLinkEvent → MetaLink
  | .sendMetadata entries kind metaConfig => s.sendMetadata entries kind metaConfig
  | .deliver i =>
    match s.packets[i]? with
    | some packet => s.deliver packet
    | none => s
  | .deliverSources seq idx fields =>
    { s with session := (processMetaEnvelope s.session ⟨"sources", seq, idx, .obj fields, []⟩).1 }

/-- What was handed over last for a context and a path. -/
def lastHanded (s : MetaLink) (context path : String) : Option Handed :=
  s.handed.reverse.find? fun r => r.context = context ∧ r.path = path

/-- No applied chunk that carries the context and the path is of a newer envelope. -/
def Newest (s : MetaLink) (r : Handed) : Prop :=
  ∀ r' ∈ s.handed, r'.context = r.context → r'.path = r.path → r'.envelope ≤ r.envelope

instance (s : MetaLink) (r : Handed) : Decidable (s.Newest r) := by
  unfold Newest
  infer_instance

/-- What was handed over last is of the newest envelope. -/
def NewestWins (s : MetaLink) : Prop :=
  ∀ context path, ∀ r ∈ s.lastHanded context path, s.Newest r

/-- What was handed over last comes from a chunk that was sent, and is of the newest envelope or of a
chunk that was late. -/
def NewestOrLate (s : MetaLink) : Prop :=
  ∀ context path, ∀ r ∈ s.lastHanded context path,
    (∃ packet ∈ s.packets, packet.envelope = r.envelope ∧
      ⟨context, path, r.metadata⟩ ∈ packet.env.entries) ∧ (s.Newest r ∨ r.late = true)

/-- A chunk of an older envelope that is not late changes nothing of what has been handed over, and
the session retains at most `ENVELOPE_SEQ_WINDOW` envelopes. -/
def DropsStale (s : MetaLink) (ev : MetaLinkEvent) : Prop :=
  s.session.metaChannel.window.size ≤ ENVELOPE_SEQ_WINDOW ∧
  ∀ i, ev = .deliver i → ∀ packet ∈ s.packets[i]?, ∀ newest ∈ s.newest,
    packet.envelope < newest →
    ¬ s.session.metaChannel.IsLate (BitVec.ofNat 32 packet.envelope) →
    (s.step ev).handed = s.handed

/-- A chunk that arrives is of an envelope less than half the number space away from the newest one,
and no envelope 0 of the past looks like a restart. -/
def Timely (s : MetaLink) : MetaLinkEvent → Prop
  | .deliver i => ∀ packet ∈ s.packets[i]?, ∀ newest ∈ s.newest,
      packet.envelope < newest + 2 ^ 31 ∧ newest < packet.envelope + 2 ^ 31 ∧
      (packet.envelope < newest → packet.envelope % 2 ^ 32 = 0 →
        newest % 2 ^ 32 < META_RESTART_THRESHOLD)
  | _ => True

instance (s : MetaLink) (ev : MetaLinkEvent) : Decidable (s.Timely ev) := by
  unfold Timely
  split <;> infer_instance

/-! ## The invariant -/

/-- What holds of every state that timely arrivals reach. -/
structure Inv (s : MetaLink) : Prop where
  /-- the channel's number is that of the newest envelope -/
  last : s.session.metaChannel.lastEnvSeq = s.newest.map (BitVec.ofNat 32)
  window : s.session.metaChannel.window.size ≤ ENVELOPE_SEQ_WINDOW
  /-- a chunk carries the number of its envelope, and has entries -/
  built : ∀ packet ∈ s.packets, packet.env.seq = some (BitVec.ofNat 32 packet.envelope) ∧
    packet.env.hasSourceSnapshot = false ∧ packet.env.entries ≠ []
  handed_le : ∀ r ∈ s.handed, ∃ newest ∈ s.newest, r.envelope ≤ newest
  origin : ∀ r ∈ s.handed, ∃ packet ∈ s.packets, packet.envelope = r.envelope ∧
    ⟨r.context, r.path, r.metadata⟩ ∈ packet.env.entries
  newest : ∀ context path, ∀ r ∈ s.lastHanded context path, s.Newest r ∨ r.late = true

variable {s : MetaLink}

theorem inv_new : new.Inv where
  last := rfl
  window := Nat.zero_le _
  built _ hpacket := nomatch hpacket
  handed_le _ hr := nomatch hr
  origin _ hr := nomatch hr
  newest _ _ _ hr := nomatch hr

theorem Inv.newestOrLate (h : s.Inv) : s.NewestOrLate := by
  intro context path r hr
  refine ⟨?_, h.newest context path r hr⟩
  have hmem : r ∈ s.handed := List.mem_reverse.1 (List.mem_of_find?_eq_some hr)
  have hkey : r.context = context ∧ r.path = path := by simpa using List.find?_some hr
  obtain ⟨packet, hpacket, henvelope, hentry⟩ := h.origin r hmem
  rw [hkey.1, hkey.2] at hentry
  exact ⟨packet, hpacket, henvelope, hentry⟩

/-! ## What arrives -/

/-- A chunk that the sender has built is handed to the metadata channel. -/
theorem processMetaEnvelope_built {session : MetaSession} {env : MetaEnvelope}
    (hsources : env.hasSourceSnapshot = false) (hentries : env.entries ≠ []) :
    processMetaEnvelope session env =
      ((session.shouldDropEnvelopeBySeq env .metadata).1,
        if (session.shouldDropEnvelopeBySeq env .metadata).2 then []
        else dispatchMetaEntries env.entries) := by
  rw [processMetaEnvelope, if_neg fun hempty => hentries hempty.2, hsources]
  dsimp only
  rw [if_neg Bool.false_ne_true, if_neg Bool.false_ne_true]
  split_ifs <;> rfl

/-- A source snapshot only touches its own channel. -/
theorem metaChannel_processMetaEnvelope_sources {session : MetaSession} {env : MetaEnvelope}
    (hsources : env.hasSourceSnapshot = true) :
    (processMetaEnvelope session env).1.metaChannel = session.metaChannel := by
  rw [processMetaEnvelope, if_neg (by simp [hsources]), hsources]
  dsimp only
  rw [if_pos rfl, if_pos rfl]
  split_ifs <;> exact MetaSession.metaChannel_shouldDropEnvelopeBySeq_sourceSnapshot session env

/-- A chunk of the past is not taken for a restart. -/
theorem Timely.not_isRestart {i : ℕ} (htimely : s.Timely (.deliver i)) {packet : MetaPacket}
    (hpacket : s.packets[i]? = some packet) {newest : ℕ} (hnewest : s.newest = some newest)
    (hlast : s.session.metaChannel.lastEnvSeq = some (BitVec.ofNat 32 newest))
    (hlt : packet.envelope < newest) :
    ¬ MetaSession.IsRestart s.session.metaChannel (BitVec.ofNat 32 packet.envelope) := by
  rintro ⟨last, hmem, hzero, hthreshold⟩
  obtain rfl := Option.some.inj (hlast.symm.trans hmem)
  have hmod : packet.envelope % 2 ^ 32 = 0 := by
    have := congrArg BitVec.toNat hzero
    rwa [BitVec.toNat_ofNat] at this
  rw [BitVec.toNat_ofNat] at hthreshold
  have := (htimely packet hpacket newest hnewest).2.2 hlt hmod
  omega

/-- The newest number of the channel stays that of the newest envelope. -/
theorem Inv.advance (h : s.Inv) {i : ℕ} (htimely : s.Timely (.deliver i)) {packet : MetaPacket}
    (hpacket : s.packets[i]? = some packet) :
    EnvChannelState.advance ((s.session.maybeResetOnRestart (BitVec.ofNat 32 packet.envelope)
        .metadata).channelState .metadata).lastEnvSeq (BitVec.ofNat 32 packet.envelope) =
      some (BitVec.ofNat 32 (max packet.envelope (s.newest.getD 0))) := by
  rw [MetaSession.channelState_maybeResetOnRestart, MetaSession.channelState_metadata]
  have hlast := h.last
  cases hnewest : s.newest with
  | none =>
    rw [hnewest] at hlast
    rw [if_neg (by rintro ⟨last, hmem, -⟩; exact nomatch hlast.symm.trans hmem), hlast]
    simp [EnvChannelState.advance]
  | some newest =>
    rw [hnewest] at hlast
    obtain ⟨hahead, hbehind, -⟩ := htimely packet hpacket newest hnewest
    rw [Option.getD_some]
    split_ifs with hrestart
    · have hle : newest ≤ packet.envelope := not_lt.1 fun hlt =>
        htimely.not_isRestart hpacket hnewest hlast hlt hrestart
      rw [max_eq_left hle]
      rfl
    · rw [hlast, Option.map_some, EnvChannelState.advance]
      rcases lt_or_ge packet.envelope newest with hlt | hle
      · rw [dist_ofNat_of_lt hlt (by omega), if_neg (by omega), max_eq_right hlt.le]
      · rw [dist_ofNat hle (by omega), max_eq_left hle]
        split_ifs with hne
        · rfl
        · rw [show newest = packet.envelope by omega]

/-- A chunk of an older envelope that is applied is late. -/
theorem Inv.late_of_not_drop (h : s.Inv) {i : ℕ} (htimely : s.Timely (.deliver i))
    {packet : MetaPacket} (hpacket : s.packets[i]? = some packet)
    (happlied : (s.session.shouldDropEnvelopeBySeq packet.env .metadata).2 = false) {newest : ℕ}
    (hnewest : s.newest = some newest) (hlt : packet.envelope < newest) :
    s.session.metaChannel.IsLate (BitVec.ofNat 32 packet.envelope) := by
  have hlast := h.last
  rw [hnewest] at hlast
  have hseq := (h.built packet (List.mem_of_getElem? hpacket)).1
  have hfresh := MetaSession.not_stale_of_not_drop hseq happlied
  rw [MetaSession.channelState_maybeResetOnRestart, MetaSession.channelState_metadata,
    if_neg (htimely.not_isRestart hpacket hnewest hlast hlt)] at hfresh
  refine late_of_not_stale hfresh hlast ?_
  have := (htimely packet hpacket newest hnewest).2.1
  rw [dist_ofNat_of_lt hlt (by omega)]
  omega

/-! ## What is handed over -/

/-- Every item that a chunk hands over is one of its entries. -/
theorem mem_handedOf {entries : List MetaEntry} {envelope : ℕ} {late : Bool} {r : Handed}
    (h : r ∈ (dispatchMetaEntries entries).flatMap (handedOf envelope late)) :
    r.envelope = envelope ∧ r.late = late ∧ ⟨r.context, r.path, r.metadata⟩ ∈ entries := by
  obtain ⟨message, hmessage, hr⟩ := List.mem_flatMap.1 h
  obtain ⟨item, hitem, rfl⟩ := List.mem_map.1 hr
  exact ⟨rfl, rfl, mem_entries_of_mem_dispatchMetaEntries hmessage hitem⟩

/-- What is handed over after `handed` for a context and a path is among the new items, or is what
was handed over last before, and no new item carries them. -/
theorem lastHanded_append {handed rs : List Handed} (hhanded : s.handed = handed ++ rs)
    {context path : String} {r : Handed} (hr : s.lastHanded context path = some r) :
    r ∈ rs ∨ (handed.reverse.find? (fun r => r.context = context ∧ r.path = path) = some r ∧
      ∀ r' ∈ rs, ¬ (r'.context = context ∧ r'.path = path)) := by
  rw [lastHanded, hhanded, List.reverse_append, List.find?_append] at hr
  rcases Option.or_eq_some_iff.1 hr with hnew | ⟨hnone, hold⟩
  · exact Or.inl (List.mem_reverse.1 (List.mem_of_find?_eq_some hnew))
  · refine Or.inr ⟨hold, fun r' hr' hkey => ?_⟩
    exact absurd (List.find?_eq_none.1 hnone r' (List.mem_reverse.2 hr')) (by simp [hkey])

/-! ## The steps -/

theorem Inv.sendMetadata (h : s.Inv) (entries : List MetaEntry) (kind : MetaKind)
    (metaConfig : Option MetaConfig) : (s.sendMetadata entries kind metaConfig).Inv := by
  rw [MetaLink.sendMetadata]
  split_ifs
  · exact h
  · refine ⟨h.last, h.window, ?_, h.handed_le, ?_, h.newest⟩
    · intro packet hpacket
      rcases List.mem_append.1 hpacket with hold | hnew
      · exact h.built packet hold
      · obtain ⟨idx, hlt, rfl⟩ := List.mem_mapIdx.1 hnew
        exact ⟨rfl, rfl, ne_nil_of_mem_chunksOf (List.getElem_mem hlt)⟩
    · intro r hr
      obtain ⟨packet, hpacket, horigin⟩ := h.origin r hr
      exact ⟨packet, List.mem_append_left _ hpacket, horigin⟩

theorem Inv.deliverSources (h : s.Inv) (seq idx : Option Seq) (fields : List (String × JsValue)) :
    (s.step (.deliverSources seq idx fields)).Inv := by
  have hchannel : (s.step (.deliverSources seq idx fields)).session.metaChannel =
      s.session.metaChannel := metaChannel_processMetaEnvelope_sources rfl
  exact ⟨hchannel ▸ h.last, hchannel ▸ h.window, h.built, h.handed_le, h.origin, h.newest⟩

/-- What a chunk that the sender has built leaves behind. -/
theorem deliver_built {packet : MetaPacket} (hsources : packet.env.hasSourceSnapshot = false)
    (hentries : packet.env.entries ≠ []) (hseq : packet.env.seq =
      some (BitVec.ofNat 32 packet.envelope)) :
    (s.deliver packet).session = (s.session.shouldDropEnvelopeBySeq packet.env .metadata).1 ∧
      ∃ rs, (s.deliver packet).handed = s.handed ++ rs ∧
        ((s.session.shouldDropEnvelopeBySeq packet.env .metadata).2 = true → rs = []) ∧
        ∀ r ∈ rs, r.envelope = packet.envelope ∧
          (r.late = decide (s.session.metaChannel.IsLate (BitVec.ofNat 32 packet.envelope))) ∧
          ⟨r.context, r.path, r.metadata⟩ ∈ packet.env.entries := by
  rw [MetaLink.deliver, processMetaEnvelope_built hsources hentries, hseq]
  refine ⟨rfl, _, rfl, fun hdropped => by rw [if_pos hdropped]; rfl, fun r hr => ?_⟩
  dsimp only at hr
  split_ifs at hr
  · exact nomatch hr
  · exact mem_handedOf hr

/-- A chunk that arrives in time keeps the invariant. -/
theorem Inv.deliver (h : s.Inv) {i : ℕ} (htimely : s.Timely (.deliver i)) {packet : MetaPacket}
    (hpacket : s.packets[i]? = some packet) : (s.deliver packet).Inv := by
  obtain ⟨hseq, hsources, hentries⟩ := h.built packet (List.mem_of_getElem? hpacket)
  obtain ⟨window, hchannel, hwindow⟩ :=
    MetaSession.channelState_shouldDropEnvelopeBySeq s.session hseq .metadata
  rw [h.advance htimely hpacket, MetaSession.channelState_metadata] at hchannel
  obtain ⟨hsession, rs, hhanded, hdropped, hrs⟩ := deliver_built (s := s) hsources hentries hseq
  have hnewest : (s.deliver packet).newest = some (max packet.envelope (s.newest.getD 0)) := rfl
  have hle : ∀ r ∈ s.handed, r.envelope ≤ s.newest.getD 0 := by
    intro r hr
    obtain ⟨newest, hmem, hle⟩ := h.handed_le r hr
    rw [hmem]
    exact hle
  refine ⟨?_, ?_, h.built, ?_, ?_, ?_⟩
  · rw [hsession, hchannel, hnewest]
    rfl
  · rw [hsession, hchannel]
    exact hwindow h.window
  · intro r hr
    refine ⟨_, hnewest, ?_⟩
    rw [hhanded] at hr
    rcases List.mem_append.1 hr with hold | hnew
    · exact (hle r hold).trans (le_max_right _ _)
    · rw [(hrs r hnew).1]
      exact le_max_left _ _
  · intro r hr
    rw [hhanded] at hr
    rcases List.mem_append.1 hr with hold | hnew
    · exact h.origin r hold
    · exact ⟨packet, List.mem_of_getElem? hpacket, (hrs r hnew).1.symm, (hrs r hnew).2.2⟩
  · intro context path r hr
    rcases lastHanded_append hhanded hr with hnew | ⟨hold, hother⟩
    · obtain ⟨henvelope, hlate, -⟩ := hrs r hnew
      by_cases hislate : s.session.metaChannel.IsLate (BitVec.ofNat 32 packet.envelope)
      · exact Or.inr (by rw [hlate, decide_eq_true hislate])
      · -- an applied chunk that is not late is of the newest envelope
        left
        intro r' hr' _ _
        rw [henvelope]
        rw [hhanded] at hr'
        rcases List.mem_append.1 hr' with hold' | hnew'
        · obtain ⟨newest, hmem, hle'⟩ := h.handed_le r' hold'
          have happlied : (s.session.shouldDropEnvelopeBySeq packet.env .metadata).2 = false := by
            by_contra hdrop
            rw [hdropped (by simpa using hdrop)] at hnew
            exact nomatch hnew
          by_contra hlt
          exact hislate (h.late_of_not_drop htimely hpacket happlied hmem (by omega))
        · exact (hrs r' hnew').1.le
    · refine (h.newest context path r hold).imp_left fun hnewest' r' hr' hcontext hpath => ?_
      rw [hhanded] at hr'
      rcases List.mem_append.1 hr' with hold' | hnew'
      · exact hnewest' r' hold' hcontext hpath
      · have hkey : r.context = context ∧ r.path = path := by simpa using List.find?_some hold
        exact absurd ⟨hcontext.trans hkey.1, hpath.trans hkey.2⟩ (hother r' hnew')

/-- **One step.** Timely arrivals keep the invariant. -/
theorem Inv.step (h : s.Inv) (ev : MetaLinkEvent) (htimely : s.Timely ev) : (s.step ev).Inv := by
  cases ev with
  | sendMetadata entries kind metaConfig => exact h.sendMetadata entries kind metaConfig
  | deliver i =>
    rw [MetaLink.step]
    cases hpacket : s.packets[i]? with
    | none => exact h
    | some packet => exact h.deliver htimely hpacket
  | deliverSources seq idx fields => exact h.deliverSources seq idx fields

theorem Inv.dropsStale (h : s.Inv) (ev : MetaLinkEvent) (htimely : s.Timely ev) :
    s.DropsStale ev := by
  refine ⟨h.window, ?_⟩
  rintro i rfl packet hpacket newest hnewest hlt hnotLate
  obtain ⟨hseq, hsources, hentries⟩ := h.built packet (List.mem_of_getElem? hpacket)
  obtain ⟨-, rs, hhanded, hdropped, -⟩ := deliver_built (s := s) hsources hentries hseq
  have hdrop : (s.session.shouldDropEnvelopeBySeq packet.env .metadata).2 = true := by
    by_contra happlied
    exact hnotLate (h.late_of_not_drop htimely hpacket (by simpa using happlied) hnewest hlt)
  rw [MetaLink.step, hpacket]
  exact hhanded.trans (by rw [hdropped hdrop, List.append_nil])

/-- **The newest metadata, or late metadata.** In every run whose arrivals are timely, what was
handed over last for a context and a path is of the newest envelope among the applied chunks that
carry them, or of a chunk that was late; a chunk of an older envelope that is not late is never
applied; and at most `ENVELOPE_SEQ_WINDOW` envelopes are retained. -/
theorem newest_or_late (es : List MetaLinkEvent) (h : Along step Timely new es) :
    Along step (fun s ev => (s.step ev).NewestOrLate ∧ s.DropsStale ev) new es := by
  refine h.of_invariant (I := Inv) (fun s ev hs htimely => ?_) inv_new
  have hstep := hs.step ev htimely
  exact ⟨⟨hstep.newestOrLate, hs.dropsStale ev htimely⟩, hstep⟩

/-- One unit for the speed, as the examples send it. -/
def sampledUnits (units : String) : List MetaEntry :=
  [⟨"vessels.self", "navigation.speedOverGround", .obj [("units", .str units)]⟩]

/-- Two chunks of which the second carries the speed. -/
def sampledSnapshot : List MetaEntry :=
  List.replicate 10 ⟨"vessels.self", "name", .obj [("description", .str "name")]⟩ ++
    sampledUnits "m/s"

/-- The configuration with the smallest chunks. -/
def sampledMetaConfig : MetaConfig := ⟨300, none, 10⟩

theorem newest_or_late_sampledSnapshot :
    Along step (fun s ev => (s.step ev).NewestOrLate ∧ s.DropsStale ev) new
      [.sendMetadata sampledSnapshot .snapshot (some sampledMetaConfig),
        .sendMetadata (sampledUnits "kn") .diff none, .deliver 0, .deliver 2, .deliver 1,
        .deliver 2] :=
  newest_or_late _ (by decide +kernel)

/-- The second chunk of a snapshot that arrives after a newer diff overwrites it, and so does a copy
of envelope 0 that arrives after envelope 8. -/
theorem older_metadata_wins :
    ¬ (run step new [.sendMetadata sampledSnapshot .snapshot (some sampledMetaConfig),
      .sendMetadata (sampledUnits "kn") .diff none, .deliver 0, .deliver 2,
      .deliver 1]).NewestWins ∧
    ¬ (run step new ((List.replicate 9 (.sendMetadata (sampledUnits "kn") .snapshot none)) ++
      [.deliver 0, .deliver 5, .deliver 6, .deliver 7, .deliver 8, .deliver 0])).NewestWins := by
  constructor
  · intro h
    exact absurd (h "vessels.self" "navigation.speedOverGround" _ (by decide +kernel : _ = some
      ⟨"vessels.self", "navigation.speedOverGround", .obj [("units", .str "m/s")], 0, true⟩))
      (by decide +kernel)
  · intro h
    exact absurd (h "vessels.self" "navigation.speedOverGround" _ (by decide +kernel : _ = some
      ⟨"vessels.self", "navigation.speedOverGround", .obj [("units", .str "kn")], 0, false⟩))
      (by decide +kernel)

end MetaLink

end EdgeLink
