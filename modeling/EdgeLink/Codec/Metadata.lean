import EdgeLink.Codec.JsText
import EdgeLink.Foundations.Lists
import EdgeLink.Foundations.OrderedMap
import Mathlib.Data.List.Induction

/-!
# Metadata

The metadata codec (`codec/metadata/collect.ts`, `codec/metadata/cache.ts`).

* `parseMetaConfig` reads the `meta` block of `subscription.json`. Whether a path pattern can be
  used, that is whether it compiles and cannot blow up, is a parameter.
* `MetaCache` holds the hash of what was last sent for every context and path. The hash of a
  metadata object is a parameter.
* `get?_commit`, `get?_replaceAll`: what the cache holds after a send, in terms of `lastHash`, the
  hash of the last entry of a send for a key; `diff_spec`: the same for `diff`, the variant of
  `computeDiff` that writes as it goes.
* `splitIntoPackets` cuts a send into the chunks of its envelope, and loses nothing
  (`flatten_splitIntoPackets`).
-/

namespace EdgeLink

open JsValue

/-- The configuration of an enabled metadata stream. -/
structure MetaConfig where
  intervalSec : ℚ
  includePathsMatching : Option String
  maxPathsPerPacket : ℚ
  deriving DecidableEq

def META_DEFAULT_INTERVAL_SEC : ℚ := 300

def META_DEFAULT_MAX_PATHS : ℚ := 500

def META_INTERVAL_MIN : ℚ := 30

def META_INTERVAL_MAX : ℚ := 86400

def META_MAX_PATHS_MIN : ℚ := 10

def META_MAX_PATHS_MAX : ℚ := 5000

def MAX_PATH_FILTER_PATTERN_LENGTH : ℕ := 256

/-- A numeric field, or the fallback when it is absent or out of range. -/
def parseClampedNumber (value : JsValue) (min max fallback : ℚ) : ℚ :=
  match value with
  | .num (.finite q) => if min ≤ q ∧ q ≤ max then q else fallback
  | _ => fallback

/-- A pattern that is short enough and can be used. -/
def parseIncludePathsMatching (usable : String → Bool) : JsValue → Option String
  | .str pattern =>
    if pattern = "" ∨ MAX_PATH_FILTER_PATTERN_LENGTH < utf16Length pattern then none
    else if usable pattern then some pattern
    else none
  | _ => none

/-- The metadata configuration of a subscription, `none` when there is none or it is disabled. -/
def parseMetaConfig (usable : String → Bool) (raw : JsValue) : Option MetaConfig :=
  let mo := raw.get "meta"
  if mo.get "enabled" ≠ .bool true then none
  else some {
    intervalSec := parseClampedNumber (mo.get "intervalSec") META_INTERVAL_MIN META_INTERVAL_MAX
      META_DEFAULT_INTERVAL_SEC
    includePathsMatching := parseIncludePathsMatching usable (mo.get "includePathsMatching")
    maxPathsPerPacket := parseClampedNumber (mo.get "maxPathsPerPacket") META_MAX_PATHS_MIN
      META_MAX_PATHS_MAX META_DEFAULT_MAX_PATHS }

/-! ## The cache -/

/-- The metadata of a path. -/
structure MetaEntry where
  context : String
  path : String
  metadata : JsValue
  deriving DecidableEq

def MetaEntry.keyFor (entry : MetaEntry) : String := entry.context ++ "|" ++ entry.path

/-- The hashes of what was last sent, and how often they have been cleared. -/
structure MetaCache where
  hashes : OrderedMap String String
  gen : ℕ

/-- The hash of the last entry with a key. -/
def lastHash (hashMeta : JsValue → String) (entries : List MetaEntry) (key : String) :
    Option String :=
  (entries.reverse.find? (·.keyFor = key)).map fun entry => hashMeta entry.metadata

namespace MetaCache

variable (hashMeta : JsValue → String)

def new : MetaCache := ⟨OrderedMap.empty, 0⟩

/-- The entries that are new or have changed, and the cache with them in it. -/
def diff (cache : MetaCache) (entries : List MetaEntry) :
    MetaCache × List MetaEntry :=
  entries.foldl (fun acc entry =>
    if acc.1.hashes.get? entry.keyFor ≠ some (hashMeta entry.metadata) then
      ({ acc.1 with hashes := acc.1.hashes.set entry.keyFor (hashMeta entry.metadata) },
        acc.2 ++ [entry])
    else acc) (cache, [])

/-- The entries that are new or have changed. -/
def computeDiff (cache : MetaCache) (entries : List MetaEntry) : List MetaEntry :=
  entries.filter fun entry => cache.hashes.get? entry.keyFor ≠ some (hashMeta entry.metadata)

/-- Mark entries as sent. -/
def commit (cache : MetaCache) (entries : List MetaEntry) : MetaCache :=
  entries.foldl (fun cache entry =>
    { cache with hashes := cache.hashes.set entry.keyFor (hashMeta entry.metadata) }) cache

/-- Mark entries, and no others, as sent. -/
def replaceAll (cache : MetaCache) (entries : List MetaEntry) : MetaCache :=
  { cache with hashes := OrderedMap.empty }.commit hashMeta entries

def clear (cache : MetaCache) : MetaCache := ⟨OrderedMap.empty, cache.gen + 1⟩

variable {hashMeta}

@[simp] theorem gen_commit (cache : MetaCache) (entries : List MetaEntry) :
    (cache.commit hashMeta entries).gen = cache.gen := by
  induction entries generalizing cache with
  | nil => rfl
  | cons entry entries ih => exact ih _

@[simp] theorem gen_replaceAll (cache : MetaCache) (entries : List MetaEntry) :
    (cache.replaceAll hashMeta entries).gen = cache.gen := gen_commit _ entries

/-- An entry that the diff leaves out is in the cache already. -/
theorem get?_of_notMem_computeDiff {cache : MetaCache} {entries : List MetaEntry}
    {entry : MetaEntry} (hmem : entry ∈ entries) (h : entry ∉ cache.computeDiff hashMeta entries) :
    cache.hashes.get? entry.keyFor = some (hashMeta entry.metadata) := by
  by_contra hne
  exact h (List.mem_filter.2 ⟨hmem, by simpa using hne⟩)

theorem get?_commit (cache : MetaCache) (entries : List MetaEntry) (key : String) :
    (cache.commit hashMeta entries).hashes.get? key =
      (lastHash hashMeta entries key).or (cache.hashes.get? key) := by
  exact get_foldl_write (fun cache : MetaCache => cache.hashes.get?)
    (fun _ _ _ => OrderedMap.get?_set ..) cache entries key

theorem get?_replaceAll (cache : MetaCache) (entries : List MetaEntry) (key : String) :
    (cache.replaceAll hashMeta entries).hashes.get? key = lastHash hashMeta entries key := by
  rw [replaceAll, get?_commit]
  exact Option.or_none

/-- The cache holds the last hash of every key, and committing what has changed gives the cache. -/
theorem diff_spec (hashMeta : JsValue → String) (cache : MetaCache) (entries : List MetaEntry) :
    (cache.diff hashMeta entries).1 = cache.commit hashMeta (cache.diff hashMeta entries).2 ∧
      ∀ key, (cache.diff hashMeta entries).1.hashes.get? key =
        (lastHash hashMeta entries key).or (cache.hashes.get? key) := by
  induction entries using List.reverseRecOn with
  | nil => exact ⟨rfl, fun key => rfl⟩
  | append_singleton entries entry ih =>
    obtain ⟨hcommit, hget⟩ := ih
    have hlast : ∀ key, lastHash hashMeta (entries ++ [entry]) key =
        if entry.keyFor = key then some (hashMeta entry.metadata)
        else lastHash hashMeta entries key := by
      intro key
      rw [lastHash, List.reverse_concat, List.find?_cons, lastHash]
      by_cases hkey : entry.keyFor = key <;> simp [hkey]
    rw [diff, List.foldl_concat, ← diff]
    split_ifs with hchanged
    · refine ⟨?_, fun key => ?_⟩
      · rw [commit, List.foldl_concat, ← commit, ← hcommit]
      · rw [OrderedMap.get?_set, hget, hlast]
        by_cases hkey : entry.keyFor = key
        · simp [hkey]
        · simp [hkey, Ne.symm hkey]
    · refine ⟨hcommit, fun key => ?_⟩
      rw [hget, hlast]
      split_ifs with hkey
      · rw [not_not] at hchanged
        rw [Option.some_or, ← hkey, ← hget, hchanged]
      · rfl

end MetaCache

/-! ## The envelopes -/

/-- Whether a send is a full snapshot or a diff. -/
inductive MetaKind where
  | snapshot
  | diff
  deriving DecidableEq

/-- The `kind` of an envelope. -/
def MetaKind.text : MetaKind → String
  | snapshot => "snapshot"
  | diff => "diff"

/-- One chunk of a send. A number is the unsigned 32-bit integer that the receiver reads, `none`
when it is missing or not finite. -/
structure MetaEnvelope where
  kind : String
  seq : Option (BitVec 32)
  idx : Option (BitVec 32)
  sources : JsValue
  entries : List MetaEntry
  deriving DecidableEq

def buildMetaEnvelope (entries : List MetaEntry) (kind : MetaKind) (seq idx : ℕ) : MetaEnvelope where
  kind := kind.text
  seq := some (BitVec.ofNat 32 seq)
  idx := some (BitVec.ofNat 32 idx)
  sources := .undefined
  entries := entries

/-- The chunks of a list of entries, of at most `size + 1` entries each. -/
def chunksOf (size : ℕ) : ℕ → List MetaEntry → List (List MetaEntry)
  | 0, _ => []
  | fuel + 1, entries =>
    if entries = [] then []
    else entries.take (size + 1) :: chunksOf size fuel (entries.drop (size + 1))

/-- Split a list of entries into chunks. The size is at least 1. -/
def splitIntoPackets (entries : List MetaEntry) (max : ℚ) : List (List MetaEntry) :=
  chunksOf (max.floor.toNat - 1) entries.length entries

theorem flatten_chunksOf (size : ℕ) {fuel : ℕ} {entries : List MetaEntry}
    (h : entries.length ≤ fuel) : (chunksOf size fuel entries).flatten = entries := by
  induction fuel generalizing entries with
  | zero => rw [List.eq_nil_of_length_eq_zero (Nat.le_zero.1 h), chunksOf, List.flatten_nil]
  | succ fuel ih =>
    rw [chunksOf]
    split_ifs with hnil
    · rw [hnil, List.flatten_nil]
    · rw [List.flatten_cons, ih (by rw [List.length_drop]; omega), List.take_append_drop]

theorem ne_nil_of_mem_chunksOf {size fuel : ℕ} {entries chunk : List MetaEntry}
    (h : chunk ∈ chunksOf size fuel entries) : chunk ≠ [] := by
  induction fuel generalizing entries with
  | zero => cases h
  | succ fuel ih =>
    rw [chunksOf] at h
    split_ifs at h with hnil
    · cases h
    · rcases List.mem_cons.1 h with rfl | hrest
      · simp [hnil]
      · exact ih hrest

/-- Splitting loses nothing and keeps the order. -/
theorem flatten_splitIntoPackets (entries : List MetaEntry) (max : ℚ) :
    (splitIntoPackets entries max).flatten = entries :=
  flatten_chunksOf _ le_rfl

end EdgeLink
