import EdgeLink.Codec.Metadata
import EdgeLink.Reliability.ReplayWindow

/-!
# The metadata handler

`transport/pipeline/reliable-server/metadata.ts`: the server drops a metadata chunk that is stale or
has been applied, and hands the entries of the others to `app.handleMessage`. A session remembers,
for the metadata and for the source snapshots apart, the newest envelope number and the chunks
applied of the envelopes that were introduced last.

* `IsLate`: a chunk of an envelope behind the newest one that is still retained.
* `size_window_isStaleOrDuplicateChunk`: at most `ENVELOPE_SEQ_WINDOW` envelopes are retained.
* `lastEnvSeq_isStaleOrDuplicateChunk`, `late_of_not_stale`: without a restart of the sender, the
  newest number only moves ahead, and an applied chunk behind it is late.
-/

namespace EdgeLink

open Serial JsValue

/-- The number of envelopes whose chunk indices are retained. -/
def ENVELOPE_SEQ_WINDOW : ℕ := 4

def META_RESTART_THRESHOLD : ℕ := 8

def MAX_ENVELOPE_CHUNK_INDICES : ℕ := 8192

/-- The two channels with envelope numbers of their own. -/
inductive EnvChannel where
  | metadata
  | sourceSnapshot
  deriving DecidableEq

/-- The newest envelope number of a channel, and the chunk indices applied of recent envelopes. -/
structure EnvChannelState where
  lastEnvSeq : Option Seq
  window : OrderedMap Seq (List Seq)

/-- The fields of a session that the metadata handler reads and writes. -/
structure MetaSession where
  metaChannel : EnvChannelState
  sourceChannel : EnvChannelState
  metaRequested : Bool
  statusRequested : Bool

namespace EnvChannelState

def new : EnvChannelState := ⟨none, OrderedMap.empty⟩

/-- Make room for the chunk indices of an envelope. -/
def chunkSetFor (ch : EnvChannelState) (envSeq : Seq) : EnvChannelState :=
  match ch.window.get? envSeq with
  | some _ => ch
  | none =>
    let window :=
      if ENVELOPE_SEQ_WINDOW ≤ ch.window.size then ch.window.dropOldest 1 else ch.window
    { ch with window := window.set envSeq [] }

/-- The chunk indices applied of an envelope. -/
def seen (ch : EnvChannelState) (envSeq : Seq) : List Seq := (ch.window.get? envSeq).getD []

/-- The number of chunk indices of all envelopes. -/
def totalSeen (ch : EnvChannelState) : ℕ := (ch.window.entries.map fun e => e.2.length).sum

/-- Advance to an envelope number. The flag says that the chunk is stale or has been applied. -/
def isStaleOrDuplicateChunk (ch : EnvChannelState) (envSeq envIdx : Seq) :
    EnvChannelState × Bool :=
  match ch.lastEnvSeq with
  | none => (chunkSetFor ⟨some envSeq, OrderedMap.empty⟩ envSeq, false)
  | some lastEnvSeq =>
    let distance := dist lastEnvSeq envSeq
    if 0x80000000 ≤ distance ∧ ch.window.has envSeq = false then (ch, true)
    else
      let ch := if distance ≠ 0 ∧ distance < 0x80000000 then { ch with lastEnvSeq := some envSeq }
        else ch
      let ch := ch.chunkSetFor envSeq
      (ch, decide (envIdx ∈ ch.seen envSeq))

/-- A chunk is late: behind the newest envelope, in one that is still retained. -/
def IsLate (ch : EnvChannelState) (envSeq : Seq) : Prop :=
  (∃ lastEnvSeq ∈ ch.lastEnvSeq, 0x80000000 ≤ dist lastEnvSeq envSeq) ∧
    ch.window.has envSeq = true

instance (ch : EnvChannelState) (envSeq : Seq) : Decidable (ch.IsLate envSeq) :=
  decidable_of_iff ((ch.lastEnvSeq.any fun lastEnvSeq =>
    decide (0x80000000 ≤ dist lastEnvSeq envSeq)) = true ∧ ch.window.has envSeq = true) (by
    simp [IsLate, Option.any_eq_true])

end EnvChannelState

namespace MetaSession

def new : MetaSession := ⟨EnvChannelState.new, EnvChannelState.new, false, false⟩

def channelState (session : MetaSession) : EnvChannel → EnvChannelState
  | .metadata => session.metaChannel
  | .sourceSnapshot => session.sourceChannel

def setChannelState (session : MetaSession) (channel : EnvChannel) (ch : EnvChannelState) :
    MetaSession :=
  match channel with
  | .metadata => { session with metaChannel := ch }
  | .sourceSnapshot => { session with sourceChannel := ch }

@[simp] theorem channelState_metadata (session : MetaSession) :
    session.channelState .metadata = session.metaChannel := rfl

@[simp] theorem channelState_setChannelState (session : MetaSession) (channel : EnvChannel)
    (ch : EnvChannelState) : (session.setChannelState channel ch).channelState channel = ch := by
  cases channel <;> rfl

/-- An envelope 0 after a sufficiently advanced number: the sender has restarted. -/
def IsRestart (ch : EnvChannelState) (envSeq : Seq) : Prop :=
  ∃ lastEnvSeq ∈ ch.lastEnvSeq, envSeq = 0 ∧ META_RESTART_THRESHOLD ≤ lastEnvSeq.toNat

instance (ch : EnvChannelState) (envSeq : Seq) : Decidable (IsRestart ch envSeq) :=
  decidable_of_iff ((ch.lastEnvSeq.any fun lastEnvSeq =>
    decide (envSeq = 0 ∧ META_RESTART_THRESHOLD ≤ lastEnvSeq.toNat)) = true) (by
    simp [IsRestart, Option.any_eq_true])

def maybeResetOnRestart (session : MetaSession) (envSeq : Seq) (channel : EnvChannel) :
    MetaSession :=
  if IsRestart (session.channelState channel) envSeq then
    let session := session.setChannelState channel EnvChannelState.new
    match channel with
    | .metadata => { session with metaRequested := false, statusRequested := false }
    | .sourceSnapshot => session
  else session

/-- Whether the chunk of an envelope is dropped: it is stale, or applied already, or the channel
remembers too many chunks. -/
def shouldDropEnvelopeBySeq (session : MetaSession) (env : MetaEnvelope) (channel : EnvChannel) :
    MetaSession × Bool :=
  match env.seq with
  | none => (session, false)
  | some envSeq =>
    let envIdx := env.idx.getD 0
    let session := session.maybeResetOnRestart envSeq channel
    let stale := (session.channelState channel).isStaleOrDuplicateChunk envSeq envIdx
    if stale.2 then (session.setChannelState channel stale.1, true)
    else
      let ch := stale.1.chunkSetFor envSeq
      if MAX_ENVELOPE_CHUNK_INDICES ≤ ch.totalSeen then (session.setChannelState channel ch, true)
      else
        (session.setChannelState channel
          { ch with window := ch.window.set envSeq (ch.seen envSeq ++ [envIdx]) }, false)

end MetaSession

/-! ## The dispatch -/

/-- One call of `app.handleMessage`: the metadata of some paths of a context. -/
structure MetaMessage where
  context : String
  items : List (String × JsValue)
  deriving DecidableEq

/-- The context, the path and the metadata of a well-formed entry. -/
def decodeMetaItem (entry : MetaEntry) : Option (String × String × JsValue) :=
  if entry.metadata = .null ∨ entry.metadata.isObjectType = false then none
  else if entry.path = "" then none
  else some (entry.context, entry.path, entry.metadata)

/-- Add an entry to the bucket of its context. -/
def addToBucket (byContext : OrderedMap String (List (String × JsValue))) (entry : MetaEntry) :
    OrderedMap String (List (String × JsValue)) :=
  match decodeMetaItem entry with
  | none => byContext
  | some (context, item) => byContext.set context ((byContext.get? context).getD [] ++ [item])

def dispatchMetaEntries (entries : List MetaEntry) : List MetaMessage :=
  (entries.foldl addToBucket OrderedMap.empty).entries.map fun e => ⟨e.1, e.2⟩

/-- Whether an envelope carries a source snapshot. -/
def MetaEnvelope.hasSourceSnapshot (env : MetaEnvelope) : Bool :=
  match env.sources with
  | .obj _ => env.kind == "sources"
  | _ => false

/-- Handle a decoded envelope. The source snapshots go into a tree of their own. -/
def processMetaEnvelope (session : MetaSession) (env : MetaEnvelope) :
    MetaSession × List MetaMessage :=
  if env.hasSourceSnapshot = false ∧ env.entries = [] then (session, [])
  else
    let channel := if env.hasSourceSnapshot then EnvChannel.sourceSnapshot else .metadata
    let dropped := session.shouldDropEnvelopeBySeq env channel
    if dropped.2 then (dropped.1, [])
    else if env.hasSourceSnapshot then (dropped.1, [])
    else (dropped.1, dispatchMetaEntries env.entries)

/-! ## What the window retains -/

namespace EnvChannelState

variable {ch : EnvChannelState}

@[simp] theorem lastEnvSeq_chunkSetFor (ch : EnvChannelState) (envSeq : Seq) :
    (ch.chunkSetFor envSeq).lastEnvSeq = ch.lastEnvSeq := by
  rw [chunkSetFor]
  cases ch.window.get? envSeq <;> rfl

/-- The set of an envelope is there once it has been asked for. -/
theorem has_window_chunkSetFor (ch : EnvChannelState) (envSeq : Seq) :
    (ch.chunkSetFor envSeq).window.has envSeq = true := by
  rw [chunkSetFor]
  cases hget : ch.window.get? envSeq with
  | some chunks => simp [OrderedMap.has, hget]
  | none => simp [OrderedMap.has]

theorem size_window_chunkSetFor (h : ch.window.size ≤ ENVELOPE_SEQ_WINDOW) (envSeq : Seq) :
    (ch.chunkSetFor envSeq).window.size ≤ ENVELOPE_SEQ_WINDOW := by
  rw [chunkSetFor]
  cases ch.window.get? envSeq with
  | some chunks => exact h
  | none =>
    have hset : ∀ window : OrderedMap Seq (List Seq), window.size < ENVELOPE_SEQ_WINDOW →
        (window.set envSeq []).size ≤ ENVELOPE_SEQ_WINDOW := by
      intro window hlt
      rw [OrderedMap.size_set]
      split_ifs <;> omega
    dsimp only
    split_ifs with hfull
    · refine hset _ ?_
      rw [OrderedMap.size_dropOldest]
      have : ENVELOPE_SEQ_WINDOW = 4 := rfl
      omega
    · exact hset _ (by omega)

/-- The newest number once an envelope has been seen. -/
def advance (lastEnvSeq : Option Seq) (envSeq : Seq) : Option Seq :=
  match lastEnvSeq with
  | none => some envSeq
  | some last =>
    if dist last envSeq ≠ 0 ∧ dist last envSeq < 0x80000000 then some envSeq else some last

theorem lastEnvSeq_isStaleOrDuplicateChunk (ch : EnvChannelState) (envSeq envIdx : Seq) :
    (ch.isStaleOrDuplicateChunk envSeq envIdx).1.lastEnvSeq = advance ch.lastEnvSeq envSeq := by
  rw [isStaleOrDuplicateChunk]
  cases hlast : ch.lastEnvSeq with
  | none => exact lastEnvSeq_chunkSetFor _ envSeq
  | some last =>
    dsimp only
    rw [advance]
    by_cases hstale : 0x80000000 ≤ dist last envSeq ∧ ch.window.has envSeq = false
    · rw [if_pos hstale, if_neg (by omega)]
      exact hlast
    · rw [if_neg hstale, lastEnvSeq_chunkSetFor]
      split_ifs
      · rfl
      · exact hlast

/-- A chunk behind the newest envelope that is not stale is late. -/
theorem late_of_not_stale {envSeq envIdx : Seq}
    (h : (ch.isStaleOrDuplicateChunk envSeq envIdx).2 = false) {last : Seq}
    (hlast : ch.lastEnvSeq = some last) (hbehind : 0x80000000 ≤ dist last envSeq) :
    ch.IsLate envSeq := by
  refine ⟨⟨last, hlast, hbehind⟩, ?_⟩
  rw [isStaleOrDuplicateChunk, hlast] at h
  dsimp only at h
  by_contra hgone
  rw [if_pos ⟨hbehind, by simpa using hgone⟩] at h
  exact nomatch h

theorem size_window_isStaleOrDuplicateChunk (h : ch.window.size ≤ ENVELOPE_SEQ_WINDOW)
    (envSeq envIdx : Seq) :
    (ch.isStaleOrDuplicateChunk envSeq envIdx).1.window.size ≤ ENVELOPE_SEQ_WINDOW := by
  rw [isStaleOrDuplicateChunk]
  cases ch.lastEnvSeq with
  | none => exact size_window_chunkSetFor (Nat.zero_le _) envSeq
  | some last =>
    dsimp only
    split_ifs
    · exact h
    · exact @size_window_chunkSetFor ⟨some envSeq, ch.window⟩ h envSeq
    · exact size_window_chunkSetFor h envSeq

end EnvChannelState

/-! ## What a session does with a chunk -/

namespace MetaSession

open EnvChannelState

variable {session : MetaSession} {env : MetaEnvelope} {envSeq : Seq}

theorem channelState_maybeResetOnRestart (session : MetaSession) (envSeq : Seq)
    (channel : EnvChannel) :
    (session.maybeResetOnRestart envSeq channel).channelState channel =
      if IsRestart (session.channelState channel) envSeq then EnvChannelState.new
      else session.channelState channel := by
  rw [maybeResetOnRestart]
  split_ifs
  · cases channel <;> rfl
  · rfl

/-- The channel of an envelope after the envelope: what a restart or the past has left, advanced to
its number, with room for its chunks. -/
theorem channelState_shouldDropEnvelopeBySeq (session : MetaSession)
    (hseq : env.seq = some envSeq) (channel : EnvChannel) :
    ∃ window, (session.shouldDropEnvelopeBySeq env channel).1.channelState channel =
        ⟨advance ((session.maybeResetOnRestart envSeq channel).channelState channel).lastEnvSeq
          envSeq, window⟩ ∧
      ((session.channelState channel).window.size ≤ ENVELOPE_SEQ_WINDOW →
        window.size ≤ ENVELOPE_SEQ_WINDOW) := by
  have hsize : (session.channelState channel).window.size ≤ ENVELOPE_SEQ_WINDOW →
      ((session.maybeResetOnRestart envSeq channel).channelState channel).window.size ≤
        ENVELOPE_SEQ_WINDOW := by
    intro h
    rw [channelState_maybeResetOnRestart]
    split_ifs
    · exact Nat.zero_le _
    · exact h
  rw [shouldDropEnvelopeBySeq, hseq]
  dsimp only
  generalize session.maybeResetOnRestart envSeq channel = session' at hsize ⊢
  have hlast := lastEnvSeq_isStaleOrDuplicateChunk (session'.channelState channel) envSeq
    (env.idx.getD 0)
  have hwindow := fun h => size_window_isStaleOrDuplicateChunk (hsize h) envSeq (env.idx.getD 0)
  generalize (session'.channelState channel).isStaleOrDuplicateChunk envSeq (env.idx.getD 0) =
    stale at hlast hwindow ⊢
  split_ifs with hstale hcap
  · rw [channelState_setChannelState, ← hlast]
    exact ⟨_, rfl, hwindow⟩
  · rw [channelState_setChannelState, ← hlast, ← lastEnvSeq_chunkSetFor stale.1 envSeq]
    exact ⟨_, rfl, fun h => size_window_chunkSetFor (hwindow h) envSeq⟩
  · rw [channelState_setChannelState, ← hlast, ← lastEnvSeq_chunkSetFor stale.1 envSeq]
    refine ⟨_, rfl, fun h => ?_⟩
    have hget : (stale.1.chunkSetFor envSeq).window.get? envSeq ≠ none :=
      Option.isSome_iff_ne_none.1 (has_window_chunkSetFor stale.1 envSeq)
    rw [OrderedMap.size_set, if_neg hget]
    exact size_window_chunkSetFor (hwindow h) envSeq

/-- A chunk that is not dropped is not stale. -/
theorem not_stale_of_not_drop (hseq : env.seq = some envSeq) {channel : EnvChannel}
    (h : (session.shouldDropEnvelopeBySeq env channel).2 = false) :
    (((session.maybeResetOnRestart envSeq channel).channelState channel).isStaleOrDuplicateChunk
      envSeq (env.idx.getD 0)).2 = false := by
  rw [shouldDropEnvelopeBySeq, hseq] at h
  dsimp only at h
  by_contra hstale
  rw [if_pos (by simpa using hstale)] at h
  exact nomatch h

/-- The source snapshots leave the metadata channel alone. -/
theorem metaChannel_shouldDropEnvelopeBySeq_sourceSnapshot (session : MetaSession)
    (env : MetaEnvelope) :
    (session.shouldDropEnvelopeBySeq env .sourceSnapshot).1.metaChannel = session.metaChannel := by
  have hreset : ∀ envSeq, (session.maybeResetOnRestart envSeq .sourceSnapshot).metaChannel =
      session.metaChannel := by
    intro envSeq
    rw [maybeResetOnRestart]
    split_ifs <;> rfl
  rw [shouldDropEnvelopeBySeq]
  cases env.seq with
  | none => rfl
  | some envSeq =>
    dsimp only
    split_ifs <;> exact hreset envSeq

end MetaSession

/-! ## What is handed over -/

/-- The items of every bucket are entries of a list. -/
def Bucketed (entries : List MetaEntry) (byContext : OrderedMap String (List (String × JsValue))) :
    Prop :=
  ∀ context items, byContext.get? context = some items → ∀ item ∈ items,
    ⟨context, item.1, item.2⟩ ∈ entries

theorem Bucketed.addToBucket {entries : List MetaEntry}
    {byContext : OrderedMap String (List (String × JsValue))} (h : Bucketed entries byContext)
    {entry : MetaEntry} (hentry : entry ∈ entries) :
    Bucketed entries (addToBucket byContext entry) := by
  rw [EdgeLink.addToBucket, decodeMetaItem]
  split_ifs
  · exact h
  · exact h
  · intro context items hget item hitem
    rw [OrderedMap.get?_set] at hget
    split_ifs at hget with hcontext
    · subst hcontext
      obtain rfl := Option.some.inj hget
      rcases List.mem_append.1 hitem with hold | hnew
      · cases hbucket : byContext.get? entry.context with
        | none => simp [hbucket] at hold
        | some items => exact h _ items hbucket item (by simpa [hbucket] using hold)
      · rw [List.mem_singleton.1 hnew]
        exact hentry
    · exact h context items hget item hitem

theorem Bucketed.foldl {entries : List MetaEntry} :
    ∀ {todo : List MetaEntry} {byContext : OrderedMap String (List (String × JsValue))},
      Bucketed entries byContext → (∀ entry ∈ todo, entry ∈ entries) →
      Bucketed entries (todo.foldl EdgeLink.addToBucket byContext)
  | [], _, h, _ => h
  | entry :: _, _, h, htodo =>
    (h.addToBucket (htodo entry List.mem_cons_self)).foldl fun entry' hentry' =>
      htodo entry' (List.mem_cons_of_mem _ hentry')

/-- Every item of a message is an entry of the chunk. -/
theorem mem_entries_of_mem_dispatchMetaEntries {entries : List MetaEntry} {message : MetaMessage}
    {item : String × JsValue} (hmessage : message ∈ dispatchMetaEntries entries)
    (hitem : item ∈ message.items) : ⟨message.context, item.1, item.2⟩ ∈ entries := by
  obtain ⟨⟨context, items⟩, hbucket, rfl⟩ := List.mem_map.1 hmessage
  have hempty : Bucketed entries OrderedMap.empty := fun _ _ hget => nomatch hget
  exact hempty.foldl (fun _ hentry => hentry) context items (OrderedMap.mem_entries.1 hbucket) item
    hitem

end EdgeLink
