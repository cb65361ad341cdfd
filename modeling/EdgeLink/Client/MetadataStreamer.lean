import EdgeLink.Codec.Metadata
import EdgeLink.Foundations.Run

/-!
# The metadata streamer

`domain/metadata-streamer.ts`: a client sends full snapshots of its metadata and, in between, diffs
against what the cache says was last sent. A send is started in one turn and settles in a later
one, and any number of them can be in flight. Only the commit of a diff looks at the generation of
the cache.

* `Coherent`: what the cache holds for a key is the hash in the send that was started last among
  those that carried the key and have succeeded, all since the cache was last cleared.
* `cache_coherent`: where sends settle in order (`InOrder`), every state reached is coherent.

The state keeps the sends that have settled; no function reads them.
-/

namespace EdgeLink

inductive SendStatus where
  | inFlight
  | failed
  | sent
  deriving DecidableEq

/-- A send: what it carries, and the generation of the cache when it was started. -/
structure MetaSend where
  kind : MetaKind
  entries : List MetaEntry
  generationAtSend : ℕ
  status : SendStatus
  deriving DecidableEq

/-- The streamer of a connection, with the fields of the connection that it reads. -/
structure MetadataStreamer where
  metaEnabled : Bool
  stopped : Bool
  readyToSend : Bool
  metaCache : MetaCache
  metaDiffBuffer : List MetaEntry
  metaDiffFlushTimer : Bool
  /-- the sends, in the order in which they were started -/
  sends : List MetaSend

/-- What can happen to a streamer. -/
inductive MetadataEvent where
  /-- the connection changes what the streamer reads of it -/
  | connectionChanged (metaEnabled stopped readyToSend : Bool)
  /-- a snapshot is due, and the tree holds these entries -/
  | snapshotDue (entries : List MetaEntry)
  | enqueueMetaDiff (entries : List MetaEntry)
  | metaDiffFlushTimerFired
  /-- the pipeline has sent the packets of a send, or could not -/
  | sendSettled (i : ℕ) (delivered : Bool)
  /-- the cache is cleared, by a new subscription or by a stop that also drops the diffs -/
  | cleared (stop : Bool)

namespace MetadataStreamer

variable (hashMeta : JsValue → String)

def new : MetadataStreamer where
  metaEnabled := true
  stopped := false
  readyToSend := true
  metaCache := MetaCache.new
  metaDiffBuffer := []
  metaDiffFlushTimer := false
  sends := []

/-- What `sendMetaEntries` returns: nothing to send is not a success. -/
def sendMetaEntries (entries : List MetaEntry) (delivered : Bool) : Bool :=
  if entries = [] then false else delivered

/-- Start a send. -/
def start (s : MetadataStreamer) (kind : MetaKind) (entries : List MetaEntry) : MetadataStreamer :=
  { s with sends := s.sends ++ [⟨kind, entries, s.metaCache.gen, .inFlight⟩] }

def sendMetadataSnapshot (s : MetadataStreamer) (entries : List MetaEntry) : MetadataStreamer :=
  if s.metaEnabled = false ∨ s.stopped ∨ s.readyToSend = false then s else s.start .snapshot entries

def flushMetaDiff (s : MetadataStreamer) : MetadataStreamer :=
  let changed := s.metaCache.computeDiff hashMeta s.metaDiffBuffer
  let s := { s with metaDiffFlushTimer := false, metaDiffBuffer := [] }
  if changed = [] then s else s.start .diff changed

def enqueueMetaDiff (s : MetadataStreamer) (entries : List MetaEntry) : MetadataStreamer :=
  if entries = [] then s
  else { s with metaDiffBuffer := s.metaDiffBuffer ++ entries, metaDiffFlushTimer := true }

/-- What the cache becomes when a send has succeeded. -/
def afterSend (cache : MetaCache) (send : MetaSend) : MetaCache :=
  match send.kind with
  | .snapshot => cache.replaceAll hashMeta send.entries
  | .diff =>
    if cache.gen = send.generationAtSend then cache.commit hashMeta send.entries else cache

/-- A send settles. -/
def settle (s : MetadataStreamer) (i : ℕ) (delivered : Bool) : MetadataStreamer :=
  match s.sends[i]? with
  | none => s
  | some send =>
    if send.status ≠ .inFlight then s
    else if sendMetaEntries send.entries delivered then
      { s with
        sends := s.sends.set i { send with status := .sent }
        metaCache := afterSend hashMeta s.metaCache send }
    else { s with sends := s.sends.set i { send with status := .failed } }

/-- One step of a streamer. -/
def step (s : MetadataStreamer) : MetadataEvent → MetadataStreamer
  | .connectionChanged metaEnabled stopped readyToSend =>
    { s with metaEnabled := metaEnabled, stopped := stopped, readyToSend := readyToSend }
  | .snapshotDue entries => s.sendMetadataSnapshot entries
  | .enqueueMetaDiff entries => s.enqueueMetaDiff entries
  | .metaDiffFlushTimerFired => if s.metaDiffFlushTimer then s.flushMetaDiff hashMeta else s
  | .sendSettled i delivered => s.settle hashMeta i delivered
  | .cleared stop =>
    let s := { s with metaCache := s.metaCache.clear }
    if stop then { s with metaDiffBuffer := [], metaDiffFlushTimer := false } else s

/-! ## Coherence -/

/-- The hash that a send has put into a cache of a generation, for a key. -/
def sentHash (gen : ℕ) (key : String) (send : MetaSend) : Option String :=
  if send.status = .sent ∧ send.generationAtSend = gen then lastHash hashMeta send.entries key
  else none

/-- The hash for a key in the send that was started last among those of a generation that carried
it and have succeeded. -/
def lastSentHash (gen : ℕ) (sends : List MetaSend) (key : String) : Option String :=
  sends.reverse.findSome? (sentHash hashMeta gen key)

/-- What the cache holds for a key is what was last sent for it. -/
def Coherent (s : MetadataStreamer) : Prop :=
  ∀ key hash, s.metaCache.hashes.get? key = some hash →
    lastSentHash hashMeta s.metaCache.gen s.sends key = some hash

/-- No send is in flight. -/
def Settled (s : MetadataStreamer) : Prop := ∀ send ∈ s.sends, send.status ≠ .inFlight

instance (s : MetadataStreamer) : Decidable s.Settled := by
  unfold Settled
  infer_instance

/-- A send that succeeds finds no other metadata of a send that was started later for one of its
keys, and a snapshot finds the cache in the generation in which it was started. -/
def InOrder (s : MetadataStreamer) : MetadataEvent → Prop
  | .sendSettled i delivered => ∀ send ∈ s.sends[i]?, send.status = .inFlight →
      sendMetaEntries send.entries delivered = true →
      (send.kind = .snapshot → send.generationAtSend = s.metaCache.gen) ∧
      (send.generationAtSend = s.metaCache.gen → ∀ entry ∈ send.entries,
        ∀ later ∈ s.sends.drop (i + 1),
          sentHash hashMeta s.metaCache.gen entry.keyFor later = none ∨
          sentHash hashMeta s.metaCache.gen entry.keyFor later =
            lastHash hashMeta send.entries entry.keyFor)
  | _ => True

instance (s : MetadataStreamer) (ev : MetadataEvent) : Decidable (s.InOrder hashMeta ev) := by
  unfold InOrder
  split <;> infer_instance

variable {hashMeta}

/-! ## What was last sent -/

theorem sentHash_of_status_ne {send : MetaSend} (h : send.status ≠ .sent) (gen : ℕ)
    (key : String) : sentHash hashMeta gen key send = none := if_neg fun hsent => h hsent.1

theorem lastSentHash_append (gen : ℕ) (sends sends' : List MetaSend) (key : String) :
    lastSentHash hashMeta gen (sends ++ sends') key =
      (lastSentHash hashMeta gen sends' key).or (lastSentHash hashMeta gen sends key) := by
  rw [lastSentHash, List.reverse_append, List.findSome?_append, lastSentHash, lastSentHash]

theorem lastSentHash_singleton (gen : ℕ) (send : MetaSend) (key : String) :
    lastSentHash hashMeta gen [send] key = sentHash hashMeta gen key send := by
  rw [lastSentHash, List.reverse_singleton, List.findSome?_singleton]

/-- Before, at and after a send. -/
theorem lastSentHash_cons_middle (gen : ℕ) (before later : List MetaSend) (send : MetaSend)
    (key : String) : lastSentHash hashMeta gen (before ++ send :: later) key =
      (lastSentHash hashMeta gen later key).or ((sentHash hashMeta gen key send).or
        (lastSentHash hashMeta gen before key)) := by
  rw [List.append_cons, lastSentHash_append, lastSentHash_append, lastSentHash_singleton]

/-- What was last sent is in one of the sends. -/
theorem exists_of_lastSentHash {gen : ℕ} {sends : List MetaSend} {key hash : String}
    (h : lastSentHash hashMeta gen sends key = some hash) :
    ∃ send ∈ sends, sentHash hashMeta gen key send = some hash := by
  obtain ⟨send, hmem, hsend⟩ := List.exists_of_findSome?_eq_some h
  exact ⟨send, List.mem_reverse.1 hmem, hsend⟩

/-- A send that does not succeed sends nothing, before and after it settles. -/
theorem lastSentHash_set {sends : List MetaSend} {i : ℕ} {send send' : MetaSend} {gen : ℕ}
    {key : String} (hi : sends[i]? = some send)
    (heq : sentHash hashMeta gen key send' = sentHash hashMeta gen key send) :
    lastSentHash hashMeta gen (sends.set i send') key = lastSentHash hashMeta gen sends key := by
  obtain ⟨hlt, hget⟩ := List.getElem?_eq_some_iff.1 hi
  have hsplit : sends = sends.take i ++ send :: sends.drop (i + 1) := by
    rw [← hget, List.getElem_cons_drop, List.take_append_drop]
  rw [List.set_eq_take_append_cons_drop, if_pos hlt, lastSentHash_cons_middle, heq,
    ← lastSentHash_cons_middle, ← hsplit]

/-- The metadata of a key that a send carries is that of one of its entries. -/
theorem exists_of_lastHash {entries : List MetaEntry} {key hash : String}
    (h : lastHash hashMeta entries key = some hash) :
    ∃ entry ∈ entries, entry.keyFor = key ∧ hashMeta entry.metadata = hash := by
  obtain ⟨entry, hfind, hhash⟩ := Option.map_eq_some_iff.1 h
  have hkey : entry.keyFor = key := by simpa using List.find?_some hfind
  exact ⟨entry, List.mem_reverse.1 (List.mem_of_find?_eq_some hfind), hkey, hhash⟩

/-- What was last sent for a key of a send that has succeeded in order is what it carries. -/
theorem lastSentHash_of_inOrder {sends : List MetaSend} {i : ℕ} {send : MetaSend} {gen : ℕ}
    {key hash : String} (hi : i < sends.length) (hgen : send.generationAtSend = gen)
    (hcarried : lastHash hashMeta send.entries key = some hash)
    (hlater : ∀ later ∈ sends.drop (i + 1), sentHash hashMeta gen key later = none ∨
      sentHash hashMeta gen key later = lastHash hashMeta send.entries key) :
    lastSentHash hashMeta gen (sends.set i { send with status := .sent }) key = some hash := by
  have hsent : sentHash hashMeta gen key { send with status := .sent } = some hash := by
    rw [sentHash, if_pos ⟨rfl, hgen⟩, hcarried]
  rw [List.set_eq_take_append_cons_drop, if_pos hi, lastSentHash_cons_middle, hsent]
  cases hlast : lastSentHash hashMeta gen (sends.drop (i + 1)) key with
  | none => rfl
  | some hash' =>
    obtain ⟨later, hmem, hfound⟩ := exists_of_lastSentHash hlast
    rcases hlater later hmem with hnone | hsame
    · exact nomatch hnone.symm.trans hfound
    · have := hfound.symm.trans (hsame.trans hcarried)
      simpa using this

/-! ## Coherence is kept -/

variable {s : MetadataStreamer}

/-- Coherence only looks at the cache and at the sends. -/
theorem Coherent.congr {s' : MetadataStreamer} (h : s.Coherent hashMeta)
    (hcache : s'.metaCache = s.metaCache) (hsends : s'.sends = s.sends) :
    s'.Coherent hashMeta := by
  intro key hash hget
  rw [hcache] at hget ⊢
  rw [hsends]
  exact h key hash hget

theorem Coherent.start (h : s.Coherent hashMeta) (kind : MetaKind) (entries : List MetaEntry) :
    (s.start kind entries).Coherent hashMeta := by
  intro key hash hget
  have hnone : sentHash hashMeta s.metaCache.gen key
      ⟨kind, entries, s.metaCache.gen, .inFlight⟩ = none := sentHash_of_status_ne (by simp) _ _
  change lastSentHash hashMeta s.metaCache.gen (s.sends ++ [_]) key = some hash
  rw [lastSentHash_append, lastSentHash_singleton, hnone]
  exact h key hash hget

theorem Coherent.clear (s : MetadataStreamer) :
    ({ s with metaCache := s.metaCache.clear } : MetadataStreamer).Coherent hashMeta := by
  intro key hash hget
  exact nomatch hget

theorem gen_afterSend (cache : MetaCache) (send : MetaSend) :
    (afterSend hashMeta cache send).gen = cache.gen := by
  rw [afterSend]
  cases send.kind with
  | snapshot => exact MetaCache.gen_replaceAll cache send.entries
  | diff =>
    dsimp only
    split_ifs
    · exact MetaCache.gen_commit cache send.entries
    · rfl

/-- The cache after a send holds what the send carries, or what it held before. -/
theorem get?_afterSend {cache : MetaCache} {send : MetaSend} {key hash : String}
    (h : (afterSend hashMeta cache send).hashes.get? key = some hash)
    (hsnapshot : send.kind = .snapshot → send.generationAtSend = cache.gen) :
    (send.generationAtSend = cache.gen ∧ lastHash hashMeta send.entries key = some hash) ∨
      ((send.generationAtSend = cache.gen → lastHash hashMeta send.entries key = none) ∧
        cache.hashes.get? key = some hash) := by
  rw [afterSend] at h
  cases hkind : send.kind with
  | snapshot =>
    rw [hkind] at h
    exact Or.inl ⟨hsnapshot hkind, (MetaCache.get?_replaceAll cache send.entries key).symm.trans h⟩
  | diff =>
    rw [hkind] at h
    dsimp only at h
    split_ifs at h with hgen
    · rw [MetaCache.get?_commit] at h
      rcases Option.or_eq_some_iff.1 h with hcarried | ⟨hnone, hold⟩
      · exact Or.inl ⟨hgen.symm, hcarried⟩
      · exact Or.inr ⟨fun _ => hnone, hold⟩
    · exact Or.inr ⟨fun hgen' => absurd hgen'.symm hgen, h⟩

/-- A send that settles in order keeps the cache coherent. -/
theorem Coherent.settle (h : s.Coherent hashMeta) {i : ℕ} {delivered : Bool}
    (horder : s.InOrder hashMeta (.sendSettled i delivered)) :
    (s.settle hashMeta i delivered).Coherent hashMeta := by
  rw [MetadataStreamer.settle]
  cases hi : s.sends[i]? with
  | none => exact h
  | some send =>
    dsimp only
    split_ifs with hstatus hsent
    · exact h
    · intro key hash hget
      rw [not_not] at hstatus
      obtain ⟨hsnapshot, hlater⟩ := horder send hi hstatus hsent
      change lastSentHash hashMeta (afterSend hashMeta s.metaCache send).gen _ key = some hash
      rw [gen_afterSend]
      rcases get?_afterSend hget hsnapshot with ⟨hgen, hcarried⟩ | ⟨hnone, hold⟩
      · obtain ⟨entry, hmem, rfl, -⟩ := exists_of_lastHash hcarried
        exact lastSentHash_of_inOrder (List.getElem?_eq_some_iff.1 hi).1 hgen hcarried
          (hlater hgen entry hmem)
      · -- the send carries nothing for the key into this generation
        rw [lastSentHash_set hi, h key hash hold]
        have hpending : sentHash hashMeta s.metaCache.gen key send = none :=
          sentHash_of_status_ne (by simp [hstatus]) _ _
        rw [hpending, sentHash]
        split_ifs with hgen
        · exact hnone hgen.2
        · rfl
    · intro key hash hget
      rw [not_not] at hstatus
      have hfailed : sentHash hashMeta s.metaCache.gen key { send with status := .failed } =
          sentHash hashMeta s.metaCache.gen key send := by
        rw [sentHash_of_status_ne (by simp), sentHash_of_status_ne (by simp [hstatus])]
      exact (lastSentHash_set hi hfailed).trans (h key hash hget)

/-- **One step.** Every step in order keeps the cache coherent. -/
theorem Coherent.step (h : s.Coherent hashMeta) (ev : MetadataEvent)
    (horder : s.InOrder hashMeta ev) : (s.step hashMeta ev).Coherent hashMeta := by
  cases ev with
  | connectionChanged metaEnabled stopped readyToSend => exact h.congr rfl rfl
  | snapshotDue entries =>
    rw [MetadataStreamer.step, sendMetadataSnapshot]
    split_ifs
    · exact h
    · exact h.start .snapshot entries
  | enqueueMetaDiff entries =>
    rw [MetadataStreamer.step, MetadataStreamer.enqueueMetaDiff]
    split_ifs
    · exact h
    · exact h.congr rfl rfl
  | metaDiffFlushTimerFired =>
    rw [MetadataStreamer.step]
    by_cases hdue : s.metaDiffFlushTimer = true
    · rw [if_pos hdue, flushMetaDiff]
      split_ifs
      · exact h.congr rfl rfl
      · exact Coherent.start (h.congr rfl rfl) .diff _
    · rw [if_neg hdue]
      exact h
  | sendSettled i delivered => exact h.settle horder
  | cleared stop =>
    rw [MetadataStreamer.step]
    dsimp only
    split_ifs
    · exact (Coherent.clear s).congr rfl rfl
    · exact Coherent.clear s

/-- **The cache is coherent.** In every run in which the sends settle in order, what the cache holds
for a key is the hash in the send that was started last among those that carried the key and have
succeeded since the cache was last cleared; so a diff leaves out only what was last sent. -/
theorem cache_coherent (hashMeta : JsValue → String) (es : List MetadataEvent)
    (h : Along (step hashMeta) (InOrder hashMeta) new es) :
    (run (step hashMeta) new es).Coherent hashMeta ∧
      ∀ entries, ∀ entry ∈ entries,
        entry ∉ (run (step hashMeta) new es).metaCache.computeDiff hashMeta entries →
        lastSentHash hashMeta (run (step hashMeta) new es).metaCache.gen
          (run (step hashMeta) new es).sends entry.keyFor = some (hashMeta entry.metadata) := by
  have hcoherent : (run (step hashMeta) new es).Coherent hashMeta := by
    refine h.invariant (fun _ ev hs horder => hs.step ev horder) ?_
    intro key hash hget
    exact nomatch hget
  refine ⟨hcoherent, fun entries entry hmem hsuppressed => ?_⟩
  exact hcoherent _ _ (MetaCache.get?_of_notMem_computeDiff hmem hsuppressed)

/-- The hash of the examples: the metadata of a path is its unit. -/
def sampledHash (metadata : JsValue) : String :=
  match metadata.get "units" with
  | .str units => units
  | _ => ""

/-- The speed in a unit. -/
def sampledEntry (units : String) : MetaEntry :=
  ⟨"vessels.self", "navigation.speedOverGround", .obj [("units", .str units)]⟩

/-- A snapshot that fails, a diff that succeeds while the next snapshot is in flight, and a clear
after which a diff settles late. -/
def sampledSends : List MetadataEvent :=
  [.snapshotDue [sampledEntry "m/s"], .sendSettled 0 false, .enqueueMetaDiff [sampledEntry "m/s"],
    .metaDiffFlushTimerFired, .sendSettled 1 true, .snapshotDue [sampledEntry "kn"],
    .sendSettled 2 true, .enqueueMetaDiff [sampledEntry "m/s"], .metaDiffFlushTimerFired,
    .cleared false, .sendSettled 3 true]

theorem cache_coherent_sampledSends :
    (run (step sampledHash) new sampledSends).Coherent sampledHash :=
  (cache_coherent sampledHash sampledSends (by decide +kernel)).1

/-- A snapshot that is in flight when the cache is cleared fills the cleared cache, and of two sends
that settle in the other order the older one stays in the cache. -/
theorem stale_hash :
    ((run (step sampledHash) new [.snapshotDue [sampledEntry "m/s"], .cleared false,
        .sendSettled 0 true]).Settled ∧
      ¬ (run (step sampledHash) new [.snapshotDue [sampledEntry "m/s"], .cleared false,
        .sendSettled 0 true]).Coherent sampledHash) ∧
    (run (step sampledHash) new [.enqueueMetaDiff [sampledEntry "m/s"], .metaDiffFlushTimerFired,
        .enqueueMetaDiff [sampledEntry "kn"], .metaDiffFlushTimerFired, .sendSettled 1 true,
        .sendSettled 0 true]).Settled ∧
      ¬ (run (step sampledHash) new [.enqueueMetaDiff [sampledEntry "m/s"],
        .metaDiffFlushTimerFired, .enqueueMetaDiff [sampledEntry "kn"], .metaDiffFlushTimerFired,
        .sendSettled 1 true, .sendSettled 0 true]).Coherent sampledHash := by
  refine ⟨⟨by decide +kernel, fun h => ?_⟩, by decide +kernel, fun h => ?_⟩
  · exact absurd (h "vessels.self|navigation.speedOverGround" "m/s" (by decide +kernel))
      (by decide +kernel)
  · exact absurd (h "vessels.self|navigation.speedOverGround" "m/s" (by decide +kernel))
      (by decide +kernel)

end MetadataStreamer

end EdgeLink
