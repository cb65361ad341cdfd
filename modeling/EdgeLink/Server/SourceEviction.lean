import EdgeLink.Foundations.Lists
import EdgeLink.Server.SourceRegistry

/-!
# Eviction from the source registry

The map of records is a least-recently-seen list: whatever refreshes a record writes it at the tail,
so that the sweep for expired records may stop at the first one that is not, and the cap may take
records from the head.

A call reads the clock several times: here every reading is a value of its own, and of the clock
nothing is assumed but that it does not go back. The eviction passes are logged, with the state in
which each of them has found the registry.

* `upsertSingleUpdate_at`: with a clock that stands still this is the registry of
  `EdgeLink.Server.SourceRegistry`.
* `EvictionPass.Sound`: what a pass may remove; it follows from the order of the records alone.
* `Recent`: the invariant, and what each operation keeps of it.
* `eviction_spec`: order, size, and what the passes remove, over whole runs.
-/

namespace EdgeLink

namespace SourceRegistry

/-- The readings of the clock while an update is merged. -/
structure UpdateClock where
  /-- when the update is seen -/
  now : Time
  /-- for an update without a timestamp -/
  updateTs : Time
  /-- for the eviction of a registry over its limit -/
  eviction : Time

/-- An eviction pass, and the registry that it has found. -/
structure EvictionPass where
  before : SourceRegistry
  now : Time

/-- A registry and the eviction passes so far. -/
structure Watched where
  registry : SourceRegistry
  passes : List EvictionPass

namespace Watched

def new : Watched := ⟨SourceRegistry.new, []⟩

def evictStaleAndOverflow (w : Watched) (now : Time) : Watched :=
  ⟨w.registry.evictStaleAndOverflow now, w.passes ++ [⟨w.registry, now⟩]⟩

section Calls

variable (platform : RegistryPlatform)

/-- Store a merged record, unless the existing one has the same hash. -/
def storeMerged (w : Watched) (key : String) (existing : Option SourceReplicationRecord)
    (merged : MergedRecord) (clock : UpdateClock) : Watched :=
  let s := w.registry
  let mergeHash := toMergeHash platform.numberToString merged
  match existing.filter (·.mergeHash = mergeHash) with
  | some record =>
    { w with registry :=
      { s with
        records := refresh s.records key { record with lastSeenAt := clock.now }
        noops := s.noops + 1 } }
  | none =>
    let record : SourceReplicationRecord :=
      { merged with lastSeenAt := clock.now, lastUpdatedAt := clock.now, mergeHash := mergeHash }
    let w := { w with registry :=
      { s with records := refresh s.records key record, upserts := s.upserts + 1 } }
    if SOURCE_REGISTRY_MAX_RECORDS < w.registry.records.size then
      w.evictStaleAndOverflow clock.eviction
    else w

/-- Merge one update into the registry. -/
def upsertSingleUpdate (w : Watched) (update : DeltaUpdate) (sourceClientInstanceId : String)
    (clock : UpdateClock) : Watched :=
  let s := w.registry
  match platform.toCanonicalIdentity update sourceClientInstanceId with
  | none => { w with registry := { s with missingIdentity := s.missingIdentity + 1 } }
  | some identity =>
    let key := platform.createSourceKey update identity
    let updateTsMs := ((update.timestamp.bind fun timestamp => normalizeText (.str timestamp)).bind
      platform.dateParse).getD clock.updateTs
    let existing := s.records.get? key
    let mergedBase := RegistryPlatform.buildMergedBase update identity key sourceClientInstanceId
      existing clock.now
    let merged := match existing with
      | some record => platform.mergeExistingRecord record mergedBase updateTsMs
      | none => (mergedBase, 0)
    storeMerged platform { w with registry := { s with conflicts := s.conflicts + merged.2 } } key
      existing merged.1 clock

/-- One entry of the updates of a delta: what is not an object is passed over. -/
def upsertEntry (sourceClientInstanceId : String) (w : Watched)
    (entry : Option DeltaUpdate × UpdateClock) : Watched :=
  match entry.1 with
  | some update => w.upsertSingleUpdate platform update sourceClientInstanceId entry.2
  | none => w

def upsertFromDelta (w : Watched) (updates : List (Option DeltaUpdate × UpdateClock))
    (sourceClientInstanceId : String) (now : Time) : Watched :=
  (updates.foldl (upsertEntry platform sourceClientInstanceId) w).evictStaleAndOverflow now

end Calls

end Watched

/-- A call of the registry, with the readings of the clock during it. The code makes some of the
readings only if it needs them. -/
inductive RegistryUse
  | upsertFromDelta (updates : List (Option DeltaUpdate × UpdateClock))
      (sourceClientInstanceId : String) (now : Time)
  /-- `upsertFromDelta` of a value without a list of updates -/
  | upsertFromNoDelta
  | snapshot (now : Time)
  | getSize (now : Time)

namespace RegistryUse

/-- The readings of the clock, in their order. -/
def readings : RegistryUse → List Time
  | .upsertFromDelta updates _ now =>
    (updates.flatMap fun entry => [entry.2.now, entry.2.updateTs, entry.2.eviction]) ++ [now]
  | .upsertFromNoDelta => []
  | .snapshot now => [now]
  | .getSize now => [now]

/-- What a call makes of the registry. -/
def apply (platform : RegistryPlatform) (w : Watched) : RegistryUse → Watched
  | .upsertFromDelta updates sourceClientInstanceId now =>
    w.upsertFromDelta platform updates sourceClientInstanceId now
  | .upsertFromNoDelta => w
  | .snapshot now => w.evictStaleAndOverflow now
  | .getSize now => w.evictStaleAndOverflow now

end RegistryUse

theorem storeMerged_at (platform : RegistryPlatform) (w : Watched) (key : String)
    (existing : Option SourceReplicationRecord) (merged : MergedRecord) (now : Time) :
    (w.storeMerged platform key existing merged ⟨now, now, now⟩).registry =
      w.registry.storeMerged platform key existing merged now := by
  unfold Watched.storeMerged SourceRegistry.storeMerged
  dsimp only
  cases existing.filter (·.mergeHash = toMergeHash platform.numberToString merged) with
  | some record => rfl
  | none => exact apply_ite Watched.registry _ _ _

/-- With a clock that stands still, one update does what the registry does that reads its clock
once. -/
theorem upsertSingleUpdate_at (platform : RegistryPlatform) (w : Watched) (update : DeltaUpdate)
    (sourceClientInstanceId : String) (now : Time) :
    (w.upsertSingleUpdate platform update sourceClientInstanceId ⟨now, now, now⟩).registry =
      w.registry.upsertSingleUpdate platform update sourceClientInstanceId now := by
  unfold Watched.upsertSingleUpdate SourceRegistry.upsertSingleUpdate
  cases platform.toCanonicalIdentity update sourceClientInstanceId with
  | none => rfl
  | some identity => exact storeMerged_at ..

/-! ## What a pass removes -/

/-- The map lists its records in the order in which they have been seen. -/
def SeenInOrder (records : OrderedMap String SourceReplicationRecord) : Prop :=
  records.entries.Pairwise fun a b => a.2.lastSeenAt ≤ b.2.lastSeenAt

/-- A record has not been seen for too long. -/
def expired (now : Time) (record : SourceReplicationRecord) : Bool :=
  record.lastSeenAt < now - SOURCE_REGISTRY_TTL_MS

/-- The records after the sweep for expired ones. -/
def ttlPass (s : SourceRegistry) (now : Time) : OrderedMap String SourceReplicationRecord :=
  s.records.dropOldest (staleCount s.records.entries now)

/-- The records after the cap. -/
def capPass (records : OrderedMap String SourceReplicationRecord) :
    OrderedMap String SourceReplicationRecord :=
  records.dropOldest (records.size - SOURCE_REGISTRY_MAX_RECORDS)

/-- An eviction is the sweep for expired records, and the cap after it. -/
theorem records_evict (s : SourceRegistry) (now : Time) :
    (s.evictStaleAndOverflow now).records = capPass (s.ttlPass now) := by
  apply OrderedMap.ext_entries
  simp only [evictStaleAndOverflow, ttlPass, capPass, OrderedMap.dropOldest, OrderedMap.size,
    List.drop_drop, List.length_drop]

/-- **The sweep may stop at the first record that is not expired**: in a map in order it leaves
none behind. -/
theorem SeenInOrder.entries_ttlPass {s : SourceRegistry} (h : SeenInOrder s.records) (now : Time) :
    (s.ttlPass now).entries = s.records.entries.filter fun e => !expired now e.2 := by
  have hdrop : (s.ttlPass now).entries = s.records.entries.dropWhile fun e => expired now e.2 :=
    drop_length_takeWhile _ _
  rw [hdrop]
  refine dropWhile_eq_filter (fun a b hab hb => ?_) h
  exact decide_eq_true (hab.trans_lt (of_decide_eq_true hb))

theorem SeenInOrder.drop {records : OrderedMap String SourceReplicationRecord}
    (h : SeenInOrder records) (n : ℕ) : SeenInOrder (records.dropOldest n) :=
  h.sublist (List.drop_sublist n _)

/-- What the head loses has not been seen after what is kept. -/
theorem SeenInOrder.le_of_dropped {records : OrderedMap String SourceReplicationRecord}
    (h : SeenInOrder records) {n : ℕ} {e kept : String × SourceReplicationRecord}
    (he : e ∈ records.entries) (hdropped : e ∉ (records.dropOldest n).entries)
    (hkept : kept ∈ (records.dropOldest n).entries) : e.2.lastSeenAt ≤ kept.2.lastSeenAt := by
  have hsplit : records.entries = records.entries.take n ++ records.entries.drop n :=
    (List.take_append_drop n _).symm
  rw [hsplit] at he
  rw [SeenInOrder, hsplit] at h
  have htaken := (List.mem_append.1 he).resolve_right hdropped
  exact (List.pairwise_append.1 h).2.2 e htaken kept hkept

/-- **What a pass may remove.** -/
structure EvictionPass.Sound (pass : EvictionPass) : Prop where
  inOrder : SeenInOrder pass.before.records
  /-- the sweep removes the expired records, and nothing else -/
  swept : (pass.before.ttlPass pass.now).entries =
    pass.before.records.entries.filter fun e => !expired pass.now e.2
  /-- nothing that has expired is left behind -/
  fresh : ∀ e ∈ (pass.before.evictStaleAndOverflow pass.now).records.entries,
    expired pass.now e.2 = false
  /-- what the cap removes has not been seen after what it keeps -/
  oldest : ∀ e ∈ (pass.before.ttlPass pass.now).entries,
    e ∉ (pass.before.evictStaleAndOverflow pass.now).records.entries →
    ∀ kept ∈ (pass.before.evictStaleAndOverflow pass.now).records.entries,
      e.2.lastSeenAt ≤ kept.2.lastSeenAt

theorem EvictionPass.sound_of_inOrder {pass : EvictionPass}
    (h : SeenInOrder pass.before.records) : pass.Sound := by
  have hswept := h.entries_ttlPass pass.now
  refine ⟨h, hswept, fun e he => ?_, fun e he hremoved kept hkept => ?_⟩
  · rw [records_evict] at he
    have hmem := OrderedMap.mem_of_mem_dropOldest he
    rw [hswept, List.mem_filter] at hmem
    exact Bool.eq_false_iff.2 fun hexp => by simp [hexp] at hmem
  · rw [records_evict, capPass] at hremoved hkept
    have hsweep : SeenInOrder (pass.before.ttlPass pass.now) := h.drop _
    exact hsweep.le_of_dropped he hremoved hkept

/-! ## The invariant -/

/-- **The invariant**: the records are in the order in which they have been seen, none of them
after `now`, and there are at most `SOURCE_REGISTRY_MAX_RECORDS`. -/
structure Recent (now : Time) (s : SourceRegistry) : Prop where
  inOrder : SeenInOrder s.records
  seen : ∀ e ∈ s.records.entries, e.2.lastSeenAt ≤ now
  size : s.records.size ≤ SOURCE_REGISTRY_MAX_RECORDS

namespace Recent

variable {s : SourceRegistry} {now t : Time}

theorem mono (h : Recent now s) (hle : now ≤ t) : Recent t s :=
  ⟨h.inOrder, fun e he => (h.seen e he).trans hle, h.size⟩

theorem evict (h : SeenInOrder s.records) (hseen : ∀ e ∈ s.records.entries, e.2.lastSeenAt ≤ t) :
    Recent t (s.evictStaleAndOverflow now) := by
  refine ⟨?_, fun e he => ?_, ?_⟩
  · rw [records_evict]
    exact (h.drop _).drop _
  · rw [records_evict] at he
    exact hseen e (OrderedMap.mem_of_mem_dropOldest (OrderedMap.mem_of_mem_dropOldest he))
  · rw [records_evict, capPass, OrderedMap.size_dropOldest]
    omega

theorem entries_refresh (records : OrderedMap String SourceReplicationRecord) (key : String)
    (record : SourceReplicationRecord) :
    (refresh records key record).entries = (records.delete key).entries ++ [(key, record)] := by
  rw [refresh, OrderedMap.set, dif_pos (OrderedMap.get?_delete_self ..)]

/-- What is written at the tail has been seen last. -/
theorem inOrder_refresh (h : Recent t s) (hle : t ≤ now) (key : String)
    (record : SourceReplicationRecord) (hrecord : record.lastSeenAt = now) :
    SeenInOrder (refresh s.records key record) ∧
      ∀ e ∈ (refresh s.records key record).entries, e.2.lastSeenAt ≤ now := by
  have hkept : ∀ e ∈ (s.records.delete key).entries, e.2.lastSeenAt ≤ now := fun e he =>
    (h.seen e (List.mem_of_mem_filter he)).trans hle
  rw [SeenInOrder, entries_refresh]
  refine ⟨List.pairwise_append.2 ⟨h.inOrder.sublist List.filter_sublist,
    List.pairwise_singleton _ _, fun e he last hlast => ?_⟩, fun e he => ?_⟩
  · rw [List.mem_singleton.1 hlast, hrecord]
    exact hkept e he
  · rcases List.mem_append.1 he with he | he
    · exact hkept e he
    · rw [List.mem_singleton.1 he, hrecord]

theorem size_refresh (records : OrderedMap String SourceReplicationRecord) (key : String)
    (record : SourceReplicationRecord) :
    (refresh records key record).size = (records.delete key).size + 1 := by
  rw [OrderedMap.size, entries_refresh, List.length_append]
  rfl

end Recent

/-- **The invariant of a watched registry.** -/
structure Watched.Inv (now : Time) (w : Watched) : Prop where
  recent : Recent now w.registry
  sound : ∀ pass ∈ w.passes, pass.Sound

namespace Watched

variable {platform : RegistryPlatform} {w : Watched} {now t : Time}

theorem Inv.mono (h : w.Inv now) (hle : now ≤ t) : w.Inv t := ⟨h.recent.mono hle, h.sound⟩

theorem inv_evict (hsound : ∀ pass ∈ w.passes, pass.Sound) (h : SeenInOrder w.registry.records)
    (hseen : ∀ e ∈ w.registry.records.entries, e.2.lastSeenAt ≤ t) :
    (w.evictStaleAndOverflow now).Inv t := by
  refine ⟨Recent.evict h hseen, fun pass hpass => ?_⟩
  rcases List.mem_append.1 hpass with hpass | hpass
  · exact hsound pass hpass
  · obtain rfl := List.mem_singleton.1 hpass
    exact EvictionPass.sound_of_inOrder h

theorem Inv.storeMerged (h : w.Inv t) {clock : UpdateClock} (hclock : t ≤ clock.now) (key : String)
    (merged : MergedRecord) :
    (w.storeMerged platform key (w.registry.records.get? key) merged clock).Inv clock.now := by
  unfold Watched.storeMerged
  dsimp only
  cases hexisting : (w.registry.records.get? key).filter
      (·.mergeHash = toMergeHash platform.numberToString merged) with
  | some record =>
    have hkey : key ∈ w.registry.records.keys :=
      OrderedMap.mem_keys.2 ⟨record, (Option.filter_eq_some_iff.1 hexisting).1⟩
    obtain ⟨horder, hseen⟩ := h.recent.inOrder_refresh hclock key
      { record with lastSeenAt := clock.now } rfl
    refine ⟨⟨horder, hseen, ?_⟩, h.sound⟩
    rw [Recent.size_refresh, OrderedMap.size_delete_add_one hkey]
    exact h.recent.size
  | none =>
    obtain ⟨horder, hseen⟩ := h.recent.inOrder_refresh hclock key
      { merged with
        lastSeenAt := clock.now
        lastUpdatedAt := clock.now
        mergeHash := toMergeHash platform.numberToString merged } rfl
    dsimp only
    split_ifs with hover
    · exact inv_evict h.sound horder hseen
    · exact ⟨⟨horder, hseen, Nat.le_of_not_lt hover⟩, h.sound⟩

theorem Inv.upsertSingleUpdate (h : w.Inv t) {clock : UpdateClock} (hclock : t ≤ clock.now)
    (update : DeltaUpdate) (sourceClientInstanceId : String) :
    (w.upsertSingleUpdate platform update sourceClientInstanceId clock).Inv clock.now := by
  unfold Watched.upsertSingleUpdate
  cases platform.toCanonicalIdentity update sourceClientInstanceId with
  | none =>
    have hnext := h.mono hclock
    exact ⟨⟨hnext.recent.inOrder, hnext.recent.seen, hnext.recent.size⟩, h.sound⟩
  | some identity =>
    dsimp only
    refine Inv.storeMerged (w := { w with registry := _ }) (t := t) ?_ hclock _ _
    exact ⟨⟨h.recent.inOrder, h.recent.seen, h.recent.size⟩, h.sound⟩

theorem Inv.upsertEntry (h : w.Inv t) {entry : Option DeltaUpdate × UpdateClock}
    (hclock : t ≤ entry.2.now) (sourceClientInstanceId : String) :
    (w.upsertEntry platform sourceClientInstanceId entry).Inv entry.2.now := by
  unfold Watched.upsertEntry
  split
  · exact h.upsertSingleUpdate hclock _ _
  · exact h.mono hclock

end Watched

namespace RegistryUse

variable {w : Watched} {t : Time} {rest : List Time}

/-- The updates of a delta, on a clock that is not behind `t` before them. -/
theorem inv_foldl_upsertEntry (platform : RegistryPlatform)
    {updates : List (Option DeltaUpdate × UpdateClock)}
    (sourceClientInstanceId : String) (h : w.Inv t)
    (hclock : (t :: ((updates.flatMap fun entry =>
      [entry.2.now, entry.2.updateTs, entry.2.eviction]) ++ rest)).Pairwise (· ≤ ·)) :
    ∃ t', (updates.foldl (Watched.upsertEntry platform sourceClientInstanceId) w).Inv t' ∧
      (t' :: rest).Pairwise (· ≤ ·) := by
  induction updates generalizing w t with
  | nil => exact ⟨t, h, hclock⟩
  | cons entry updates ih =>
    have hle : t ≤ entry.2.now := (List.pairwise_cons.1 hclock).1 _ List.mem_cons_self
    -- the two other readings of this update come between its first one and the next update
    have hlater := (List.pairwise_cons.1 hclock).2.sublist
      ((List.sublist_append_right [entry.2.updateTs, entry.2.eviction] _).cons_cons entry.2.now)
    exact ih (h.upsertEntry hle sourceClientInstanceId) hlater

/-- A pass at a later reading. -/
theorem inv_evict {now : Time} (h : w.Inv t)
    (hclock : (t :: now :: rest).Pairwise (· ≤ ·)) :
    (w.evictStaleAndOverflow now).Inv now ∧ (now :: rest).Pairwise (· ≤ ·) := by
  have hle : t ≤ now := (List.pairwise_cons.1 hclock).1 now List.mem_cons_self
  exact ⟨Watched.inv_evict h.sound h.recent.inOrder fun e he => (h.recent.seen e he).trans hle,
    (List.pairwise_cons.1 hclock).2⟩

/-- **What a call keeps**, on a clock that is not behind `t` before it. -/
theorem inv_apply (platform : RegistryPlatform) (h : w.Inv t) (use : RegistryUse)
    (hclock : (t :: (use.readings ++ rest)).Pairwise (· ≤ ·)) :
    ∃ t', (use.apply platform w).Inv t' ∧ (t' :: rest).Pairwise (· ≤ ·) := by
  cases use with
  | upsertFromNoDelta => exact ⟨t, h, hclock⟩
  | snapshot now => exact ⟨now, inv_evict h hclock⟩
  | getSize now => exact ⟨now, inv_evict h hclock⟩
  | upsertFromDelta updates sourceClientInstanceId now =>
    rw [readings, List.append_assoc] at hclock
    obtain ⟨t', hupdates, hclock'⟩ := inv_foldl_upsertEntry platform sourceClientInstanceId h hclock
    exact ⟨now, inv_evict hupdates hclock'⟩

theorem inv_run (platform : RegistryPlatform) (h : w.Inv t) {uses : List RegistryUse}
    (hclock : (t :: uses.flatMap readings).Pairwise (· ≤ ·)) :
    ∃ t', (run (apply platform) w uses).Inv t' := by
  induction uses generalizing w t with
  | nil => exact ⟨t, h⟩
  | cons use uses ih =>
    rw [List.flatMap_cons] at hclock
    obtain ⟨t', hnext, hclock'⟩ := inv_apply platform h use hclock
    exact ih hnext hclock'

theorem inv_new (now : Time) : Watched.new.Inv now :=
  ⟨⟨List.Pairwise.nil, fun _ he => absurd he List.not_mem_nil, Nat.zero_le _⟩,
    fun _ hpass => absurd hpass List.not_mem_nil⟩

end RegistryUse

/-- **Eviction from the registry.** Whatever calls are made, with a clock that does not go back: the
records are in the order in which they have been seen, there are at most
`SOURCE_REGISTRY_MAX_RECORDS`, and every pass so far has left no expired record behind and has
removed by the cap no record that was seen after one that it has kept. -/
theorem eviction_spec (platform : RegistryPlatform) {uses : List RegistryUse}
    (hclock : (uses.flatMap RegistryUse.readings).Pairwise (· ≤ ·)) :
    let w := run (RegistryUse.apply platform) Watched.new uses
    SeenInOrder w.registry.records ∧ w.registry.records.size ≤ SOURCE_REGISTRY_MAX_RECORDS ∧
      ∀ pass ∈ w.passes, pass.Sound := by
  obtain ⟨t, ht⟩ : ∃ t, (t :: uses.flatMap RegistryUse.readings).Pairwise (· ≤ ·) := by
    cases hreadings : uses.flatMap RegistryUse.readings with
    | nil => exact ⟨0, List.pairwise_singleton _ _⟩
    | cons first rest =>
      rw [hreadings] at hclock
      refine ⟨first, List.pairwise_cons.2 ⟨fun t ht => ?_, hclock⟩⟩
      rcases List.mem_cons.1 ht with rfl | ht
      · exact le_rfl
      · exact (List.pairwise_cons.1 hclock).1 t ht
  obtain ⟨t', h⟩ := RegistryUse.inv_run platform (RegistryUse.inv_new t) ht
  exact ⟨h.recent.inOrder, h.recent.size, h.sound⟩

/-- A source that is not seen for a week, and is swept out when the size is asked for. -/
theorem eviction_spec_week :
    let platform : RegistryPlatform := ⟨id, fun _ => .nan, fun _ => "", fun _ => none, id⟩
    let update : DeltaUpdate := { sourceRef := some "n2k.1", values := [] }
    let w := run (RegistryUse.apply platform) Watched.new
      [.upsertFromDelta [(some update, ⟨1, 1, 2⟩), (none, ⟨2, 2, 2⟩)] "boat-1" 3, .snapshot 4,
        .getSize (SOURCE_REGISTRY_TTL_MS + 2)]
    w.registry.evictions = 1 ∧ ∀ pass ∈ w.passes, pass.Sound := by
  intro platform update w
  exact ⟨by decide +kernel, (eviction_spec platform (by decide)).2.2⟩

end SourceRegistry

end EdgeLink
