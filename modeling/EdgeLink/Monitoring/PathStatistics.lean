import EdgeLink.Client.RetransmitAge
import EdgeLink.Codec.Delta
import EdgeLink.Foundations.BoundedTable
import EdgeLink.Foundations.Recent
import EdgeLink.Foundations.Run
import EdgeLink.Foundations.TopN

/-!
# Statistics for each path

`trackPathStats` and `getTopNPaths` of `domain/metrics/registry.ts`, and
`domain/monitoring/path-latency-tracker.ts`: two bounded tables keyed by the path of a value, and
the lists of their first entries, kept up without sorting the tables.

* `PathStats.tracked_run`: what is counted for a path, and which paths are counted.
* `PathStats.getTopNPaths_eq`: the busiest paths are the first ones of a stable sort.
* `PathLatencyTracker.latencies_run`: what is shown of the latencies.
-/

namespace EdgeLink

/-! ## Counts and bytes -/

def PATH_STATS_MAX_SIZE : ℕ := 500

structure PathStat where
  count : ℕ
  bytes : ℕ
  lastUpdate : ℤ
  deriving DecidableEq

/-- `pathStats` and `_pathStatsStalest` of the metrics. -/
structure PathStats where
  pathStats : OrderedMap String PathStat
  pathStatsStalest : Option (String × ℤ)

namespace PathStats

def new : PathStats := ⟨.empty, none⟩

/-- The cached path, while it still is what it was when it was cached. -/
def cachedStalest (m : PathStats) : Option String :=
  match m.pathStatsStalest with
  | none => none
  | some (path, ts) =>
    match m.pathStats.get? path with
    | none => none
    | some entry => if entry.lastUpdate = ts ∧ path ≠ "" then some path else none

def evictStalestPathIfFull (m : PathStats) : PathStats :=
  if m.pathStats.size < PATH_STATS_MAX_SIZE then m
  else
    let stalestPath := match m.cachedStalest with
      | some path => some path
      | none => m.pathStats.oldestBy (·.lastUpdate)
    match stalestPath with
    | none => m
    | some path => ⟨m.pathStats.delete path, none⟩

def trackPathValue (m : PathStats) (path : String) (bytesPerPath : ℕ) (now : ℤ) : PathStats :=
  match m.pathStats.get? path with
  | some stats =>
    { m with
      pathStats := m.pathStats.set path
        ⟨stats.count + 1, stats.bytes + bytesPerPath, now⟩ }
  | none =>
    let m := m.evictStalestPathIfFull
    { m with pathStats := m.pathStats.set path ⟨1, bytesPerPath, now⟩ }

/-- `Math.round(size / values.length)` -/
def bytesPerPath (size : ℚ) (values : List DeltaValue) : ℕ :=
  ⌊roundFinite (size / values.length) + 1 / 2⌋.toNat

/-- The values of an update are tracked at the reading of the clock that it comes with. -/
def trackUpdate (size : ℚ) (m : PathStats) (update : ℤ × DeltaUpdate) : PathStats :=
  let values := update.2.values
  if values.length = 0 then m
  else values.foldl (fun m v =>
    if v.path = "" then m else m.trackPathValue v.path (bytesPerPath size values) update.1) m

/-- A delta of a size, with a reading of the clock for each of its updates. -/
structure SizedDelta where
  size : ℚ
  updates : List (ℤ × DeltaUpdate)

def trackPathStats (m : PathStats) (delta : SizedDelta) : PathStats :=
  delta.updates.foldl (trackUpdate delta.size) m

/-! ### The table -/

/-- The share of a value in the size of its delta, and the time. -/
abbrev Share := ℕ × ℤ

def policy : TablePolicy String PathStat Share where
  capacity := PATH_STATS_MAX_SIZE
  start := ⟨0, 0, 0⟩
  add stats share := ⟨stats.count + 1, stats.bytes + share.1, share.2⟩
  victim m := m.oldestBy (·.lastUpdate)

/-- The values that are counted of a delta. -/
def SizedDelta.shares (delta : SizedDelta) : List (String × Share) :=
  delta.updates.flatMap fun update =>
    (update.2.values.filter (·.path ≠ "")).map fun v =>
      (v.path, bytesPerPath delta.size update.2.values, update.1)

/-- What is counted of a path. -/
def statOf (shares : List Share) : PathStat where
  count := shares.length
  bytes := (shares.map (·.1)).sum
  lastUpdate := (shares.getLast?.map (·.2)).getD 0

theorem sumOf_eq_statOf (path : String) (log : List (String × Share)) :
    policy.sumOf path log = statOf (itemsOf path log) := by
  rw [TablePolicy.sumOf]
  induction itemsOf path log using List.reverseRecOn with
  | nil => rfl
  | append_singleton shares share ih =>
    rw [List.foldl_append, ih]
    simp [policy, statOf]

theorem policy_sound : policy.Sound := fun _ h => OrderedMap.exists_oldestBy h _

/-- The cache of the stalest path is never written, so that every eviction is a scan. -/
theorem evictStalestPathIfFull_eq (m : OrderedMap String PathStat) :
    evictStalestPathIfFull ⟨m, none⟩ = ⟨policy.makeRoom m, none⟩ := by
  have hcapacity : policy.capacity = PATH_STATS_MAX_SIZE := rfl
  rw [evictStalestPathIfFull, TablePolicy.makeRoom, hcapacity]
  by_cases hroom : m.size < PATH_STATS_MAX_SIZE
  · rw [if_pos hroom, if_pos hroom]
  · rw [if_neg hroom, if_neg hroom]
    dsimp only [policy, cachedStalest]
    cases m.oldestBy (·.lastUpdate) <;> rfl

theorem trackPathValue_eq (m : OrderedMap String PathStat) (path : String) (share : Share) :
    trackPathValue ⟨m, none⟩ path share.1 share.2 = ⟨policy.enter m (path, share), none⟩ := by
  rw [trackPathValue, TablePolicy.enter]
  dsimp only
  cases m.get? path with
  | some stats => rfl
  | none =>
    have hadd : policy.add policy.start share = ⟨1, share.1, share.2⟩ := by simp [policy]
    rw [hadd, evictStalestPathIfFull_eq]

theorem trackPathStats_eq (m : OrderedMap String PathStat) (delta : SizedDelta) :
    trackPathStats ⟨m, none⟩ delta = ⟨delta.shares.foldl policy.enter m, none⟩ := by
  obtain ⟨size, updates⟩ := delta
  rw [trackPathStats, SizedDelta.shares]
  dsimp only
  induction updates generalizing m with
  | nil => rfl
  | cons update updates ih =>
    have hvalues : ∀ (values : List DeltaValue) (bytes : ℕ) (m : OrderedMap String PathStat),
        values.foldl (fun m v => if v.path = "" then m else
          m.trackPathValue v.path bytes update.1) (⟨m, none⟩ : PathStats) =
        ⟨((values.filter (·.path ≠ "")).map fun v => (v.path, bytes, update.1)).foldl
          policy.enter m, none⟩ := by
      intro values bytes
      induction values with
      | nil => exact fun _ => rfl
      | cons v values ihv =>
        intro m
        rw [List.foldl_cons]
        by_cases hpath : v.path = ""
        · rw [if_pos hpath, ihv, List.filter_cons_of_neg (by simp [hpath])]
        · rw [if_neg hpath, trackPathValue_eq m v.path (bytes, update.1), ihv,
            List.filter_cons_of_pos (by simp [hpath]), List.map_cons, List.foldl_cons]
    rw [List.foldl_cons, List.flatMap_cons, List.foldl_append, ← ih]
    congr 1
    rw [trackUpdate]
    split_ifs with hempty
    · rw [List.length_eq_zero_iff.1 hempty]
      rfl
    · exact hvalues ..

theorem run_eq (deltas : List SizedDelta) :
    run trackPathStats new deltas = ⟨policy.enterAll (deltas.flatMap SizedDelta.shares), none⟩ := by
  induction deltas using List.reverseRecOn with
  | nil => rfl
  | append_singleton deltas delta ih =>
    rw [run_append, ih, run_cons, run_nil, trackPathStats_eq, List.flatMap_append,
      List.flatMap_singleton, TablePolicy.enterAll, TablePolicy.enterAll, List.foldl_append]

/-- The values are counted in the order of time when the updates are. -/
theorem pairwise_shares {deltas : List SizedDelta}
    (hclock : (deltas.flatMap (·.updates)).Pairwise fun u u' => u.1 ≤ u'.1) :
    (deltas.flatMap SizedDelta.shares).Pairwise fun e e' => e.2.2 ≤ e'.2.2 := by
  have htime : ∀ (delta : SizedDelta), ∀ e ∈ delta.shares, ∃ u ∈ delta.updates, u.1 = e.2.2 := by
    intro delta e he
    obtain ⟨u, hu, he⟩ := List.mem_flatMap.1 he
    obtain ⟨v, -, rfl⟩ := List.mem_map.1 he
    exact ⟨u, hu, rfl⟩
  rw [List.pairwise_flatMap] at hclock ⊢
  refine ⟨fun delta hdelta => ?_, hclock.2.imp fun {delta delta'} h e he e' he' => ?_⟩
  · rw [SizedDelta.shares, List.pairwise_flatMap]
    refine ⟨fun u _ => ?_, (hclock.1 delta hdelta).imp fun {u u'} h e he e' he' => ?_⟩
    · rw [List.pairwise_map]
      exact List.pairwise_of_forall fun _ _ => le_rfl
    · obtain ⟨v, -, rfl⟩ := List.mem_map.1 he
      obtain ⟨v', -, rfl⟩ := List.mem_map.1 he'
      exact h
  · obtain ⟨u, hu, hue⟩ := htime delta e he
    obtain ⟨u', hu', hue'⟩ := htime delta' e' he'
    rw [← hue, ← hue']
    exact h u hu u' hu'

/-- **What is counted.** After any deltas the table holds as many paths as fit. The figures of a
path are those of its values from some value on, and of all its values as long as every path has
fit. A path that is not there was used no later than every path that is. -/
theorem tracked_run (deltas : List SizedDelta)
    (hclock : (deltas.flatMap (·.updates)).Pairwise fun u u' => u.1 ≤ u'.1) :
    let m := (run trackPathStats new deltas).pathStats
    let log := deltas.flatMap SizedDelta.shares
    m.size = min PATH_STATS_MAX_SIZE (keysOf log).card ∧
      (∀ path s, m.get? path = some s → ∃ recent, recent <:+ log ∧ path ∈ keysOf recent ∧
        s = statOf (itemsOf path recent)) ∧
      ((keysOf log).card ≤ PATH_STATS_MAX_SIZE → ∀ path ∈ keysOf log,
        m.get? path = some (statOf (itemsOf path log))) ∧
      ∀ path s, m.get? path = some s → ∀ e ∈ log, e.1 ∉ m.keys → e.2.2 ≤ s.lastUpdate := by
  rw [run_eq]
  dsimp only
  have hpos : 0 < policy.capacity := by decide
  have hkept := policy.kept_enterAll policy_sound hpos (deltas.flatMap SizedDelta.shares)
  have hrecent : TablePolicy.LeastRecent PathStat.lastUpdate (fun share : Share => share.2)
      (deltas.flatMap SizedDelta.shares) _ :=
    TablePolicy.leastRecent_enterAll policy_sound hpos rfl (fun _ _ => rfl) _
      (pairwise_shares hclock)
  refine ⟨hkept.size_eq, fun path s hget => ?_, fun hcard path hpath => ?_, ?_⟩
  · obtain ⟨recent, hsuffix, hmem, rfl⟩ := hkept.recent path s hget
    exact ⟨recent, hsuffix, hmem, sumOf_eq_statOf ..⟩
  · rw [hkept.whole hcard path hpath, sumOf_eq_statOf]
  · intro path s hget e he hgone
    exact hrecent path s hget e he (Or.inr hgone)

/-- Two deltas with three values of two paths. -/
def twoDeltas : List SizedDelta :=
  [⟨101, [(10, { values := [⟨"environment.depth", .null⟩, ⟨"navigation.speed", .null⟩] })]⟩,
    ⟨40, [(20, { values := [⟨"navigation.speed", .null⟩] })]⟩]

theorem tracked_run_twoDeltas :
    (run trackPathStats new twoDeltas).pathStats.get? "navigation.speed" =
      some ⟨2, 91, 20⟩ := by
  have hrun := (tracked_run twoDeltas (by decide)).2.2.1 (by decide +kernel) "navigation.speed"
    (by decide +kernel)
  have hstat : statOf (itemsOf "navigation.speed" (twoDeltas.flatMap SizedDelta.shares)) =
      ⟨2, 91, 20⟩ := by decide +kernel
  rw [hrun, hstat]

/-! ### The busiest paths -/

structure PathStatEntry where
  path : String
  count : ℕ
  bytes : ℕ
  bytesFormatted : String
  lastUpdate : ℤ
  updatesPerMinute : ℤ

/-- The entry of a path. How bytes are written is a parameter. -/
def entryOf (formatBytes : ℕ → String) (uptimeSeconds : ℕ) (e : String × PathStat) :
    PathStatEntry where
  path := e.1
  count := e.2.count
  bytes := e.2.bytes
  bytesFormatted := formatBytes e.2.bytes
  lastUpdate := e.2.lastUpdate
  updatesPerMinute :=
    if 0 < uptimeSeconds then
      ⌊roundFinite (roundFinite (e.2.count / uptimeSeconds) * 60) + 1 / 2⌋
    else 0

/-- Let the entry at an index go up past smaller ones. -/
def bubbleUp : ℕ → List PathStatEntry → List PathStatEntry
  | 0, result => result
  | i + 1, result =>
    match result[i]?, result[i + 1]? with
    | some above, some item =>
      if above.bytes < item.bytes then bubbleUp i ((result.set i item).set (i + 1) above)
      else result
    | _, _ => result

/-- One entry of the loop. `sort` is stable. -/
def addEntry (n : ℕ) (result : List PathStatEntry) (item : PathStatEntry) : List PathStatEntry :=
  if result.length < n then
    if (result ++ [item]).length = n then ranking (·.bytes) (result ++ [item])
    else result ++ [item]
  else
    match result[n - 1]? with
    | none => result
    | some last =>
      if last.bytes < item.bytes then bubbleUp (n - 1) (result.set (n - 1) item) else result

def getTopNPaths (formatBytes : ℕ → String) (m : PathStats) (n : ℤ) (uptimeSeconds : ℕ) :
    List PathStatEntry :=
  if n ≤ 0 then []
  else
    let result := (m.pathStats.entries.map (entryOf formatBytes uptimeSeconds)).foldl
      (addEntry n.toNat) []
    if result.length < n.toNat ∧ 0 < result.length then ranking (·.bytes) result else result

/-- An entry that goes up finds its place in a ranking. -/
theorem bubbleUp_eq {before : List PathStatEntry} (h : Ranked PathStatEntry.bytes before)
    (item : PathStatEntry) (after : List PathStatEntry) :
    bubbleUp before.length (before ++ item :: after) =
      rankInsert PathStatEntry.bytes item before ++ after := by
  induction before using List.reverseRecOn generalizing after with
  | nil => rfl
  | append_singleton before above ih =>
    have habove : (before ++ [above] ++ item :: after)[before.length]? = some above := by simp
    have hitem : (before ++ [above] ++ item :: after)[before.length + 1]? = some item := by simp
    rw [List.length_append, List.length_singleton, bubbleUp, habove, hitem]
    dsimp only
    split_ifs with hlt
    · have hswap : ((before ++ [above] ++ item :: after).set before.length item).set
          (before.length + 1) above = before ++ item :: above :: after := by simp
      rw [hswap, ih h.of_append, rankInsert_concat_of_lt hlt]
      simp
    · rw [h.rankInsert_concat (not_lt.1 hlt)]
      simp

/-- An entry is added to a full list. -/
theorem addEntry_full {n : ℕ} {top : List PathStatEntry} (h : Ranked PathStatEntry.bytes top)
    (hlength : top.length = n) (hn : 0 < n) (item : PathStatEntry) :
    addEntry n top item = (rankInsert PathStatEntry.bytes item top).take n := by
  obtain ⟨before, last, rfl⟩ : ∃ before last, top = before ++ [last] :=
    ⟨top.dropLast, top.getLast (List.ne_nil_of_length_pos (by omega)),
      (List.dropLast_append_getLast _).symm⟩
  rw [List.length_append, List.length_singleton] at hlength
  subst hlength
  have hlast : (before ++ [last])[before.length + 1 - 1]? = some last := by simp
  rw [addEntry, if_neg (by simp), hlast]
  dsimp only
  split_ifs with hlt
  · have hset : (before ++ [last]).set (before.length + 1 - 1) item = before ++ [item] := by simp
    rw [hset, Nat.add_sub_cancel, bubbleUp_eq h.of_append, rankInsert_concat_of_lt hlt,
      List.append_nil, List.take_left' (by simp)]
  · rw [h.rankInsert_concat (not_lt.1 hlt), List.take_left' (by simp)]

/-- **The busiest paths.** Keeping up the first `n` entries gives the first `n` of a stable sort of
all of them. -/
theorem getTopNPaths_eq (formatBytes : ℕ → String) (m : PathStats) (n : ℤ) (uptimeSeconds : ℕ) :
    getTopNPaths formatBytes m n uptimeSeconds =
      (ranking PathStatEntry.bytes
        (m.pathStats.entries.map (entryOf formatBytes uptimeSeconds))).take n.toNat := by
  rw [getTopNPaths]
  split_ifs with hn
  · rw [Int.toNat_of_nonpos hn, List.take_zero]
  have hpos : 0 < n.toNat := by omega
  generalize m.pathStats.entries.map (entryOf formatBytes uptimeSeconds) = l
  -- up to the `n`-th entry nothing is sorted, from it on the first places are
  have hloop : l.foldl (addEntry n.toNat) [] =
      if l.length < n.toNat then l else (ranking PathStatEntry.bytes l).take n.toNat := by
    induction l using List.reverseRecOn with
    | nil => simp [hpos]
    | append_singleton l item ih =>
      rw [List.foldl_append, ih, List.foldl_cons, List.foldl_nil, List.length_append,
        List.length_singleton]
      by_cases hlt : l.length < n.toNat
      · rw [if_pos hlt, addEntry, if_pos hlt, List.length_append, List.length_singleton]
        by_cases heq : l.length + 1 = n.toNat
        · rw [if_pos heq, if_neg (by omega), List.take_of_length_le]
          rw [length_ranking, List.length_append, List.length_singleton]
          exact heq.le
        · rw [if_neg heq, if_pos (by omega)]
      · have hfull : ((ranking PathStatEntry.bytes l).take n.toNat).length = n.toNat := by
          rw [List.length_take, length_ranking]
          omega
        rw [if_neg hlt, if_neg (by omega), ranking_concat, ← take_rankInsert]
        exact addEntry_full ((ranked_ranking _ l).take _) hfull hpos item
  dsimp only
  rw [hloop]
  by_cases hlt : l.length < n.toNat
  · rw [if_pos hlt, List.take_of_length_le (by rw [length_ranking]; exact hlt.le)]
    split_ifs with hsome
    · rfl
    · obtain rfl : l = [] := by
        rw [← List.length_eq_zero_iff]
        omega
      rfl
  · rw [if_neg hlt, if_neg]
    rw [List.length_take, length_ranking]
    omega

end PathStats

/-! ## Latencies -/

def MONITORING_PATH_LATENCY_WINDOW : ℕ := 50

/-- The last latencies of a path. -/
structure PathLatency where
  samples : List ℤ
  lastUpdate : ℤ
  deriving DecidableEq

structure PathLatencyTracker where
  windowSize : ℕ
  maxPaths : ℕ
  paths : OrderedMap String PathLatency

structure PathLatencyStats where
  path : String
  sampleCount : ℕ
  avg : ℚ
  min : Option ℤ
  max : Option ℤ
  p50 : Option ℤ
  p95 : Option ℤ
  p99 : Option ℤ
  lastUpdate : ℤ

namespace PathLatencyTracker

/-- A tracker with the options of the constructor. -/
def new (windowSize : Option ℕ) (maxPaths : Option ℕ) : PathLatencyTracker where
  windowSize := windowSize.getD MONITORING_PATH_LATENCY_WINDOW
  maxPaths := maxPaths.getD 200
  paths := .empty

/-- A path without an entry gets one, for which the oldest entry goes from a full table. -/
def record (t : PathLatencyTracker) (now : ℤ) (path : String) (latencyMs : ℤ) :
    PathLatencyTracker :=
  let (paths, entry) := match t.paths.get? path with
    | some entry => (t.paths, entry)
    | none =>
      let paths :=
        if t.maxPaths ≤ t.paths.size then
          match t.paths.keys.head? with
          | none => t.paths
          | some firstKey => t.paths.delete firstKey
        else t.paths
      (paths, ⟨[], 0⟩)
  let samples := entry.samples ++ [latencyMs]
  let samples :=
    if t.windowSize < samples.length then samples.drop (samples.length - t.windowSize) else samples
  { t with paths := paths.set path ⟨samples, now⟩ }

/-- The index of a percentile. -/
def percentile (p : ℚ) (sampleCount : ℕ) : ℕ := ⌊roundFinite (sampleCount * roundFinite p)⌋.toNat

def calculateStats (path : String) (entry : PathLatency) : PathLatencyStats :=
  let sampleCount := entry.samples.length
  let sorted := entry.samples.insertionSort (· ≤ ·)
  let avg := roundFinite (entry.samples.sum / sampleCount)
  { path := path
    sampleCount := sampleCount
    avg := roundFinite (⌊roundFinite (avg * 100) + 1 / 2⌋ / 100)
    min := sorted[0]?
    max := sorted[sampleCount - 1]?
    p50 := sorted[percentile (1 / 2) sampleCount]?
    p95 := sorted[percentile (95 / 100) sampleCount]?
    p99 := sorted[percentile (99 / 100) sampleCount]?
    lastUpdate := entry.lastUpdate }

def getPathStats (t : PathLatencyTracker) (path : String) : Option PathLatencyStats :=
  match t.paths.get? path with
  | none => none
  | some entry => if entry.samples.length = 0 then none else some (calculateStats path entry)

/-- The index that is reached from the end of the list. -/
def insertAt (stat : PathLatencyStats) (stats : List PathLatencyStats) : ℕ → ℕ
  | 0 => 0
  | i + 1 =>
    match stats[i]? with
    | none => i + 1
    | some before => if before.avg < stat.avg then insertAt stat stats i else i + 1

def addStat (limit : ℕ) (stats : List PathLatencyStats) (stat : PathLatencyStats) :
    List PathLatencyStats :=
  if stats.length = 0 then stats ++ [stat]
  else
    let insertAt := insertAt stat stats stats.length
    if insertAt < limit then
      let stats := stats.insertIdx insertAt stat
      if limit < stats.length then stats.dropLast else stats
    else if stats.length < limit then stats ++ [stat] else stats

/-- The entries of the table that have samples. -/
def listed (t : PathLatencyTracker) : List PathLatencyStats :=
  (t.paths.entries.filter fun e => e.2.samples.length ≠ 0).map fun e => calculateStats e.1 e.2

def getAllStats (t : PathLatencyTracker) (topN : ℤ) : List PathLatencyStats :=
  let limit := topN.toNat
  if limit = 0 then [] else t.listed.foldl (addStat limit) []

def reset (t : PathLatencyTracker) : PathLatencyTracker := { t with paths := .empty }

/-- `recordPathLatencies` of the client. How a text is read as a date is a parameter, and the clock
is read once. -/
def recordPathLatencies (parseDate : String → Option ℤ) (t : PathLatencyTracker)
    (sent : ℤ × List Delta) : PathLatencyTracker :=
  (sent.2.flatMap (·.updates)).foldl (fun t update =>
    match (update.timestamp.filter (· ≠ "")).bind parseDate with
    | none => t
    | some timestampMs =>
      let latencyMs := max 0 (sent.1 - timestampMs)
      update.values.foldl (fun t v =>
        if v.path = "" then t else t.record sent.1 v.path latencyMs) t) t

/-! ### The list -/

theorem insertAt_append (stat : PathLatencyStats) (stats rest : List PathLatencyStats) (i : ℕ)
    (hi : i ≤ stats.length) : insertAt stat (stats ++ rest) i = insertAt stat stats i := by
  induction i with
  | zero => rfl
  | succ i ih =>
    rw [insertAt, insertAt, List.getElem?_append_left (by omega), ih (by omega)]

theorem insertAt_le (stat : PathLatencyStats) (stats : List PathLatencyStats) (i : ℕ) :
    insertAt stat stats i ≤ i := by
  induction i with
  | zero => exact le_rfl
  | succ i ih =>
    rw [insertAt]
    cases stats[i]? with
    | none => exact le_rfl
    | some before =>
      dsimp only
      split_ifs
      · omega
      · exact le_rfl

theorem insertIdx_append_of_le {α : Type*} {l : List α} {i : ℕ} (h : i ≤ l.length) (r : List α)
    (a : α) : (l ++ r).insertIdx i a = l.insertIdx i a ++ r := by
  induction l generalizing i with
  | nil =>
    obtain rfl : i = 0 := Nat.le_zero.1 h
    simp
  | cons b l ih =>
    cases i with
    | zero => simp
    | succ i =>
      rw [List.cons_append, List.insertIdx_succ_cons, List.insertIdx_succ_cons,
        ih (Nat.le_of_succ_le_succ h), List.cons_append]

/-- The index that is reached from the end is the place of an entry. -/
theorem insertIdx_insertAt {stats : List PathLatencyStats}
    (h : Ranked PathLatencyStats.avg stats) (stat : PathLatencyStats) :
    stats.insertIdx (insertAt stat stats stats.length) stat =
      rankInsert PathLatencyStats.avg stat stats := by
  induction stats using List.reverseRecOn with
  | nil => rfl
  | append_singleton stats last ih =>
    have hlast : (stats ++ [last])[stats.length]? = some last := by simp
    rw [List.length_append, List.length_singleton, insertAt, hlast]
    dsimp only
    split_ifs with hlt
    · have hle := insertAt_le stat stats stats.length
      rw [insertAt_append _ _ _ _ le_rfl, rankInsert_concat_of_lt hlt, ← ih h.of_append,
        insertIdx_append_of_le hle]
    · have hend := List.insertIdx_length_self (l := stats ++ [last]) (x := stat)
      rw [h.rankInsert_concat (not_lt.1 hlt), ← hend, List.length_append, List.length_singleton]

theorem addStat_eq {limit : ℕ} (hlimit : limit ≠ 0) {stats : List PathLatencyStats}
    (h : Ranked PathLatencyStats.avg stats) (hlength : stats.length ≤ limit)
    (stat : PathLatencyStats) :
    addStat limit stats stat = (rankInsert PathLatencyStats.avg stat stats).take limit := by
  have hplaced := length_rankInsert PathLatencyStats.avg stat stats
  rw [addStat]
  by_cases hempty : stats.length = 0
  · rw [if_pos hempty, List.length_eq_zero_iff.1 hempty, rankInsert_nil, List.take_of_length_le]
    · rfl
    · rw [List.length_singleton]
      omega
  · have hle := insertAt_le stat stats stats.length
    rw [if_neg hempty]
    dsimp only
    rw [insertIdx_insertAt h, hplaced]
    by_cases hlt : insertAt stat stats stats.length < limit
    · rw [if_pos hlt]
      split_ifs with hlong
      · rw [List.dropLast_eq_take, hplaced, show stats.length + 1 - 1 = limit by omega]
      · rw [List.take_of_length_le (by omega)]
    · -- the list is full and its last entry is at least as large
      have hend : insertAt stat stats stats.length = stats.length := by omega
      rw [if_neg hlt, if_neg (by omega), ← insertIdx_insertAt h, hend, List.insertIdx_length_self,
        List.take_left' (by omega)]

theorem getAllStats_eq (t : PathLatencyTracker) (topN : ℤ) :
    t.getAllStats topN = (ranking PathLatencyStats.avg t.listed).take topN.toNat := by
  rw [getAllStats]
  split_ifs with hlimit
  · rw [hlimit, List.take_zero]
  · exact foldl_eq_ranking (fun stats stat h hlength => addStat_eq hlimit h hlength stat) t.listed

/-! ### The table -/

def policy (windowSize maxPaths : ℕ) : TablePolicy String PathLatency (ℤ × ℤ) where
  capacity := maxPaths
  start := ⟨[], 0⟩
  add entry sample := ⟨(entry.samples ++ [sample.1]).rtake windowSize, sample.2⟩
  victim m := m.keys.head?

theorem policy_sound (windowSize maxPaths : ℕ) : (policy windowSize maxPaths).Sound := by
  intro m hm
  cases hkeys : m.keys with
  | nil =>
    rw [← OrderedMap.length_keys, hkeys] at hm
    cases hm
  | cons k keys => exact ⟨k, List.mem_cons_self, congrArg List.head? hkeys⟩

/-- The latencies of the values of a send. -/
def latencies (parseDate : String → Option ℤ) (sent : ℤ × List Delta) :
    List (String × ℤ × ℤ) :=
  (sent.2.flatMap (·.updates)).flatMap fun update =>
    match (update.timestamp.filter (· ≠ "")).bind parseDate with
    | none => []
    | some timestampMs => (update.values.filter (·.path ≠ "")).map fun v =>
        (v.path, max 0 (sent.1 - timestampMs), sent.1)

/-- What is kept of the latencies of a path. -/
def latencyOf (windowSize : ℕ) (samples : List (ℤ × ℤ)) : PathLatency where
  samples := (samples.map (·.1)).rtake windowSize
  lastUpdate := (samples.getLast?.map (·.2)).getD 0

theorem sumOf_eq_latencyOf (windowSize maxPaths : ℕ) (path : String)
    (log : List (String × ℤ × ℤ)) :
    (policy windowSize maxPaths).sumOf path log = latencyOf windowSize (itemsOf path log) := by
  rw [TablePolicy.sumOf]
  induction itemsOf path log using List.reverseRecOn with
  | nil => simp [policy, latencyOf]
  | append_singleton samples sample ih =>
    rw [List.foldl_append, ih]
    simp [policy, latencyOf, rtake_push]

theorem record_eq (t : PathLatencyTracker) (now : ℤ) (path : String) (latencyMs : ℤ) :
    t.record now path latencyMs = { t with
      paths := (policy t.windowSize t.maxPaths).enter t.paths (path, latencyMs, now) } := by
  have htrim : ∀ samples : List ℤ, (if t.windowSize < samples.length then
      samples.drop (samples.length - t.windowSize) else samples) = samples.rtake t.windowSize := by
    intro samples
    split_ifs with hlong
    · rw [rtake_eq_drop]
    · rw [rtake_of_length_le (not_lt.1 hlong)]
  rw [record, TablePolicy.enter]
  dsimp only
  cases t.paths.get? path with
  | some entry =>
    dsimp only
    rw [htrim]
    rfl
  | none =>
    dsimp only
    rw [htrim, TablePolicy.makeRoom]
    by_cases hroom : t.paths.size < t.maxPaths
    · rw [if_neg (not_le.2 hroom)]
      simp [policy, hroom]
    · rw [if_pos (not_lt.1 hroom)]
      simp only [policy, hroom, if_false, List.nil_append]
      cases t.paths.keys.head? <;> rfl

theorem recordPathLatencies_eq (parseDate : String → Option ℤ) (t : PathLatencyTracker)
    (sent : ℤ × List Delta) : t.recordPathLatencies parseDate sent = { t with
      paths := (latencies parseDate sent).foldl
        (policy t.windowSize t.maxPaths).enter t.paths } := by
  have hvalues : ∀ (values : List DeltaValue) (latencyMs : ℤ) (t : PathLatencyTracker),
      values.foldl (fun t v => if v.path = "" then t else t.record sent.1 v.path latencyMs) t =
        { t with
          paths := ((values.filter (·.path ≠ "")).map fun v => (v.path, latencyMs, sent.1)).foldl
            (policy t.windowSize t.maxPaths).enter t.paths } := by
    intro values latencyMs
    induction values with
    | nil => exact fun _ => rfl
    | cons v values ih =>
      intro t
      rw [List.foldl_cons]
      by_cases hpath : v.path = ""
      · rw [if_pos hpath, ih, List.filter_cons_of_neg (by simp [hpath])]
      · rw [if_neg hpath, record_eq, ih, List.filter_cons_of_pos (by simp [hpath]), List.map_cons,
          List.foldl_cons]
  rw [recordPathLatencies, latencies]
  generalize sent.2.flatMap (·.updates) = updates
  induction updates generalizing t with
  | nil => rfl
  | cons update updates ih =>
    rw [List.foldl_cons, List.flatMap_cons, List.foldl_append, ih]
    cases (update.timestamp.filter (· ≠ "")).bind parseDate with
    | none => rfl
    | some timestampMs =>
      dsimp only
      rw [hvalues]

/-- **The latencies.** After any sends the table holds as many paths as fit. A path shows the last
latencies since some value of it, and of all its values as long as every path has fit. The list
shows the greatest averages, those of equal average in the order of the table. -/
theorem latencies_run (parseDate : String → Option ℤ) (windowSize maxPaths : Option ℕ)
    (hpos : maxPaths ≠ some 0) (sends : List (ℤ × List Delta)) :
    let t := run (recordPathLatencies parseDate) (new windowSize maxPaths) sends
    let log := sends.flatMap (latencies parseDate)
    t.paths.size = min (maxPaths.getD 200) (keysOf log).card ∧
      (∀ path entry, t.paths.get? path = some entry → ∃ recent, recent <:+ log ∧
        path ∈ keysOf recent ∧
        entry = latencyOf (windowSize.getD MONITORING_PATH_LATENCY_WINDOW) (itemsOf path recent)) ∧
      ((keysOf log).card ≤ maxPaths.getD 200 → ∀ path ∈ keysOf log, t.paths.get? path =
        some (latencyOf (windowSize.getD MONITORING_PATH_LATENCY_WINDOW) (itemsOf path log))) ∧
      ∀ topN, t.getAllStats topN = (ranking PathLatencyStats.avg t.listed).take topN.toNat := by
  generalize hsize : windowSize.getD MONITORING_PATH_LATENCY_WINDOW = size
  generalize hcapacity : maxPaths.getD 200 = capacity
  have hcapacityPos : 0 < capacity := by
    rw [← hcapacity]
    cases maxPaths with
    | none => decide
    | some capacity => exact Nat.pos_of_ne_zero fun hzero => hpos (congrArg some hzero)
  have hrun : run (recordPathLatencies parseDate) (new windowSize maxPaths) sends =
      ⟨size, capacity, (policy size capacity).enterAll (sends.flatMap (latencies parseDate))⟩ := by
    induction sends using List.reverseRecOn with
    | nil => rw [run_nil, new, hsize, hcapacity]; rfl
    | append_singleton sends sent ih =>
      rw [run_append, ih, run_cons, run_nil, recordPathLatencies_eq, List.flatMap_append,
        List.flatMap_singleton, TablePolicy.enterAll, TablePolicy.enterAll, List.foldl_append]
  rw [hrun]
  have hkept := (policy size capacity).kept_enterAll (policy_sound size capacity) hcapacityPos
    (sends.flatMap (latencies parseDate))
  refine ⟨hkept.size_eq, fun path entry hget => ?_, fun hcard path hpath => ?_, getAllStats_eq _⟩
  · obtain ⟨recent, hsuffix, hmem, rfl⟩ := hkept.recent path entry hget
    exact ⟨recent, hsuffix, hmem, sumOf_eq_latencyOf ..⟩
  · rw [← sumOf_eq_latencyOf size capacity]
    exact hkept.whole hcard path hpath

/-- Two values of one path. -/
def twoSends : List (ℤ × List Delta) :=
  [(1000, [⟨none, [{ timestamp := some "then", values := [⟨"navigation.speed", .null⟩] }]⟩]),
    (1300, [⟨none, [{ timestamp := some "then", values := [⟨"navigation.speed", .null⟩] }]⟩])]

theorem latencies_run_twoSends :
    (run (recordPathLatencies fun _ => some 900) (new none none) twoSends).paths.get?
      "navigation.speed" = some ⟨[100, 400], 1300⟩ := by
  have hrun := (latencies_run (fun _ => some 900) none none (by decide) twoSends).2.2.1
    (by decide +kernel) "navigation.speed" (by decide +kernel)
  have hlatency : latencyOf 50 (itemsOf "navigation.speed"
      (twoSends.flatMap (latencies fun _ => some 900))) = ⟨[100, 400], 1300⟩ := by decide +kernel
  exact hrun.trans (congrArg some hlatency)

end PathLatencyTracker

end EdgeLink
