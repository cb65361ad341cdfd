import EdgeLink.Codec.PathRules
import EdgeLink.Foundations.Recent
import EdgeLink.Foundations.Run
import Mathlib.Algebra.GroupWithZero.Nat

/-!
# Histories

`foundation/circular-buffer.ts` and `domain/monitoring/packet-loss-tracker.ts`: what is kept of a
sequence of measurements.

* `CircularBuffer.toArray_pushes`: the ring holds the last entries, oldest first.
* `PacketLossTracker.heatmap_run`: a bucket of the heat map has counted the packets of its interval.
-/

namespace EdgeLink

/-! ## The ring -/

/-- A ring of slots. -/
structure CircularBuffer (T : Type*) where
  buffer : List (Option T)
  size : ℕ
  index : ℕ
  filled : Bool

namespace CircularBuffer

variable {T : Type*}

/-- The constructor, which throws unless the size is a positive integer. -/
def new (size : ℕ) : Option (CircularBuffer T) :=
  if size = 0 then none else some ⟨List.replicate size none, size, 0, false⟩

def push (b : CircularBuffer T) (item : T) : CircularBuffer T :=
  let index := (b.index + 1) % b.size
  { b with
    buffer := b.buffer.set b.index (some item)
    index := index
    filled := if index = 0 then true else b.filled }

def toArray (b : CircularBuffer T) : List (Option T) :=
  if b.filled = false then b.buffer.take b.index
  else b.buffer.drop b.index ++ b.buffer.take b.index

def length (b : CircularBuffer T) : ℕ := if b.filled then b.size else b.index

/-- A ring into which some items have been put. -/
structure Holds (b : CircularBuffer T) (size : ℕ) (items : List T) : Prop where
  size_eq : b.size = size
  slots : b.buffer.length = size
  index_lt : b.index < size
  opening : b.filled = false → b.index = items.length
  full : b.filled = true → size ≤ items.length
  content : b.toArray = (items.rtake size).map some

theorem Holds.push {b : CircularBuffer T} {size : ℕ} {items : List T} (h : b.Holds size items)
    (item : T) : (b.push item).Holds size (items ++ [item]) := by
  obtain ⟨hsize, hslots, hindex, hopening, hfull, hcontent⟩ := h
  -- the slot that is written, between those before and after it
  obtain ⟨before, slot, after, hbuffer, hbefore⟩ :
      ∃ before slot after, b.buffer = before ++ slot :: after ∧ before.length = b.index := by
    have hlt : b.index < b.buffer.length := hslots ▸ hindex
    exact ⟨b.buffer.take b.index, b.buffer[b.index], b.buffer.drop (b.index + 1),
      by rw [List.getElem_cons_drop, List.take_append_drop], by
        rw [List.length_take]
        omega⟩
  have hset : b.buffer.set b.index (some item) = before ++ some item :: after := by
    rw [hbuffer, ← hbefore]
    simp
  have htake : b.buffer.take b.index = before := by
    rw [hbuffer, ← hbefore]
    simp
  have hdrop : b.buffer.drop b.index = slot :: after := by
    rw [hbuffer, ← hbefore]
    simp
  have hlength : before.length + after.length + 1 = size := by
    rw [← hslots, hbuffer]
    simp
    omega
  have hnext : (b.index + 1) % size = if after = [] then 0 else before.length + 1 := by
    cases after with
    | nil =>
      rw [List.length_nil] at hlength
      rw [← hbefore, if_pos rfl, show before.length + 1 = size by omega, Nat.mod_self]
    | cons a after =>
      rw [List.length_cons] at hlength
      rw [← hbefore, if_neg (by simp), Nat.mod_eq_of_lt (by omega)]
  -- after the step the ring holds what was there before it, and the item
  have hresult : (b.push item).toArray =
      (if b.filled = true then after else []) ++ before ++ [some item] := by
    rw [toArray, CircularBuffer.push, hsize, hset]
    dsimp only
    rw [hnext]
    have hwritten : before ++ some item :: after = (before ++ [some item]) ++ after := by simp
    have htake' : (before ++ some item :: after).take (before.length + 1) =
        before ++ [some item] := by rw [hwritten, List.take_left' (by simp)]
    have hdrop' : (before ++ some item :: after).drop (before.length + 1) = after := by
      rw [hwritten, List.drop_left' (by simp)]
    by_cases hlast : after = []
    · simp [hlast]
    · simp only [if_neg hlast, htake', hdrop', Nat.succ_ne_zero, if_false]
      cases b.filled <;> simp
  have hitems : (b.push item).toArray = ((items ++ [item]).rtake size).map some := by
    rw [hresult]
    rw [toArray, htake, hdrop] at hcontent
    cases hfilled : b.filled with
    | false =>
      have hopen := hopening hfilled
      rw [hfilled, if_pos rfl, rtake_of_length_le (by omega)] at hcontent
      have hfits : (items ++ [item]).length ≤ size := by
        rw [List.length_append, List.length_singleton]
        omega
      rw [rtake_of_length_le hfits, List.map_append, ← hcontent]
      simp
    | true =>
      have hlong := hfull hfilled
      obtain ⟨k, rfl⟩ : ∃ k, size = k + 1 := ⟨size - 1, by omega⟩
      rw [hfilled, if_neg (by simp)] at hcontent
      have htail := congrArg List.tail hcontent
      rw [← List.map_tail, tail_rtake_succ (by omega)] at htail
      rw [List.rtake_concat_succ, List.map_append, ← htail]
      simp
  refine ⟨hsize, ?_, ?_, fun hfilled => ?_, fun hfilled => ?_, hitems⟩
  · rw [CircularBuffer.push, List.length_set]
    exact hslots
  · rw [CircularBuffer.push, hsize]
    exact Nat.mod_lt _ (by omega)
  · rw [CircularBuffer.push, hsize] at hfilled ⊢
    dsimp only at hfilled ⊢
    rw [hnext] at hfilled ⊢
    by_cases hlast : after = []
    · simp [hlast] at hfilled
    · simp only [if_neg hlast, Nat.succ_ne_zero, if_false] at hfilled ⊢
      have hopen := hopening hfilled
      rw [List.length_append, List.length_singleton]
      omega
  · rw [CircularBuffer.push, hsize] at hfilled
    dsimp only at hfilled
    rw [hnext] at hfilled
    rw [List.length_append, List.length_singleton]
    cases hbefore' : b.filled with
    | true =>
      have hlong := hfull hbefore'
      omega
    | false =>
      have hopen := hopening hbefore'
      by_cases hlast : after = []
      · rw [hlast, List.length_nil] at hlength
        omega
      · simp [hlast, hbefore'] at hfilled

/-- **The ring.** After any items it holds the last ones, oldest first, and its length is their
number. -/
theorem toArray_pushes {size : ℕ} {b : CircularBuffer T} (h : new size = some b) (items : List T) :
    (items.foldl push b).toArray = (items.rtake size).map some ∧
      (items.foldl push b).length = min size items.length := by
  have hholds : (items.foldl push b).Holds size items := by
    induction items using List.reverseRecOn with
    | nil =>
      rw [new] at h
      split_ifs at h with hzero
      obtain rfl := Option.some.inj h
      exact ⟨rfl, by simp, by simp; omega, fun _ => rfl, by simp, by simp [toArray]⟩
    | append_singleton items item ih =>
      rw [List.foldl_append]
      exact ih.push item
  refine ⟨hholds.content, ?_⟩
  rw [length, hholds.size_eq]
  cases hfilled : (items.foldl push b).filled with
  | false =>
    have hlt := hholds.index_lt
    have hopen := hholds.opening hfilled
    simp
    omega
  | true =>
    have hfull := hholds.full hfilled
    simp
    omega

end CircularBuffer

/-- A ring of three slots. -/
theorem toArray_pushes_three : ∃ b : CircularBuffer ℕ, CircularBuffer.new 3 = some b ∧
    ([1, 2, 3, 4, 5].foldl CircularBuffer.push b).toArray = [some 3, some 4, some 5] := by
  have hnew : CircularBuffer.new 3 =
      some (⟨List.replicate 3 none, 3, 0, false⟩ : CircularBuffer ℕ) := rfl
  exact ⟨_, hnew, (CircularBuffer.toArray_pushes hnew [1, 2, 3, 4, 5]).1⟩

/-! ## The heat map of lost packets -/

def MONITORING_HEATMAP_BUCKETS : ℕ := 60

def MONITORING_HEATMAP_BUCKET_DURATION : ℕ := 5000

/-- The packets of an interval of time. -/
structure LossBucket where
  timestamp : ℤ
  total : ℕ
  lost : ℕ
  deriving DecidableEq

structure PacketLossTracker where
  maxBuckets : ℕ
  bucketDuration : ℕ
  buckets : List LossBucket
  currentBucket : Option LossBucket
  lastBucketTime : ℤ
  deriving DecidableEq

namespace PacketLossTracker

/-- A tracker with the options of the constructor, where `0` stands for the default. -/
def new (maxBuckets bucketDuration : ℕ) : PacketLossTracker where
  maxBuckets := if maxBuckets = 0 then MONITORING_HEATMAP_BUCKETS else maxBuckets
  bucketDuration :=
    if bucketDuration = 0 then MONITORING_HEATMAP_BUCKET_DURATION else bucketDuration
  buckets := []
  currentBucket := none
  lastBucketTime := 0

def ensureBucket (t : PacketLossTracker) (now : ℤ) : PacketLossTracker :=
  if t.currentBucket = none ∨ t.bucketDuration ≤ now - t.lastBucketTime then
    let buckets := match t.currentBucket with
      | none => t.buckets
      | some bucket =>
        let buckets := t.buckets ++ [bucket]
        if t.maxBuckets < buckets.length then buckets.drop 1 else buckets
    { t with buckets := buckets, currentBucket := some ⟨now, 0, 0⟩, lastBucketTime := now }
  else t

def recordBatch (t : PacketLossTracker) (now : ℤ) (sent lost : ℕ) : PacketLossTracker :=
  let t := t.ensureBucket now
  { t with
    currentBucket := t.currentBucket.map fun bucket =>
      { bucket with total := bucket.total + sent, lost := bucket.lost + lost } }

/-- `record` of the source, one packet sent or lost. -/
def record (t : PacketLossTracker) (now : ℤ) (lost : Bool) : PacketLossTracker :=
  let t := t.ensureBucket now
  { t with
    currentBucket := t.currentBucket.map fun bucket =>
      { bucket with
        total := bucket.total + 1
        lost := if lost then bucket.lost + 1 else bucket.lost } }

/-- A bucket with its loss rate. -/
def heatmapEntry (doubles : Doubles) (b : LossBucket) : LossBucket × JsNumber :=
  (b, if 0 < b.total then doubles.round (b.lost / b.total) else .finite 0)

def getHeatmapData (doubles : Doubles) (t : PacketLossTracker) (now : ℤ) :
    PacketLossTracker × List (LossBucket × JsNumber) :=
  let t := t.ensureBucket now
  (t, t.buckets.map (heatmapEntry doubles))

def reset (t : PacketLossTracker) : PacketLossTracker :=
  { t with buckets := [], currentBucket := none, lastBucketTime := 0 }

/-! ### Runs -/

inductive Call where
  | record (lost : Bool)
  | recordBatch (sent lost : ℕ)
  | getHeatmapData
  | reset

/-- A call at a time. -/
def step (doubles : Doubles) (t : PacketLossTracker) (e : ℤ × Call) : PacketLossTracker :=
  match e.2 with
  | .record lost => t.record e.1 lost
  | .recordBatch sent lost => t.recordBatch e.1 sent lost
  | .getHeatmapData => (t.getHeatmapData doubles e.1).1
  | .reset => t.reset

/-- Packets counted at a time. -/
structure Counted where
  time : ℤ
  sent : ℕ
  lost : ℕ
  deriving DecidableEq

/-- What has been counted since the last reset. -/
def counted (calls : List (ℤ × Call)) : List Counted :=
  calls.foldl (fun log e =>
    match e.2 with
    | .record lost => log ++ [⟨e.1, 1, if lost then 1 else 0⟩]
    | .recordBatch sent lost => log ++ [⟨e.1, sent, lost⟩]
    | .getHeatmapData => log
    | .reset => []) []

/-- Whether a time is in the interval of a bucket. -/
def Covers (duration : ℕ) (b : LossBucket) (time : ℤ) : Prop :=
  b.timestamp ≤ time ∧ time < b.timestamp + duration

instance (duration : ℕ) (b : LossBucket) (time : ℤ) : Decidable (Covers duration b time) :=
  inferInstanceAs (Decidable (_ ∧ _))

/-- A bucket has counted what belongs to its interval. -/
def Exact (duration : ℕ) (log : List Counted) (b : LossBucket) : Prop :=
  b.total = ((log.filter fun c => Covers duration b c.time).map (·.sent)).sum ∧
    b.lost = ((log.filter fun c => Covers duration b c.time).map (·.lost)).sum

/-- The buckets ever closed, and the open one, in terms of what has been counted up to a time. -/
structure Inv (t : PacketLossTracker) (log : List Counted) (closed : List LossBucket) (now : ℤ) :
    Prop where
  buckets : t.buckets = closed.rtake t.maxBuckets
  lastBucketTime : ∀ b ∈ t.currentBucket, t.lastBucketTime = b.timestamp
  spaced : (closed ++ t.currentBucket.toList).Pairwise fun b b' =>
    b.timestamp + (t.bucketDuration : ℤ) ≤ b'.timestamp
  exact_buckets : ∀ b ∈ closed ++ t.currentBucket.toList, Exact t.bucketDuration log b
  begun : ∀ b ∈ closed ++ t.currentBucket.toList, b.timestamp ≤ now
  covered : ∀ c ∈ log, ∃ b ∈ closed ++ t.currentBucket.toList, Covers t.bucketDuration b c.time
  started : t.currentBucket = none → closed = []

section Steps

variable {t : PacketLossTracker} {log : List Counted} {closed : List LossBucket} {now now' : ℤ}

/-- No packet has been counted in an interval that begins now. -/
theorem Inv.exact_empty (h : Inv t log closed now)
    (hover : ∀ b ∈ closed ++ t.currentBucket.toList, b.timestamp + (t.bucketDuration : ℤ) ≤ now') :
    Exact t.bucketDuration log ⟨now', 0, 0⟩ := by
  have hnone : log.filter (fun c => Covers t.bucketDuration ⟨now', 0, 0⟩ c.time) = [] := by
    refine List.filter_eq_nil_iff.2 fun c hc => ?_
    obtain ⟨b, hb, -, hbefore⟩ := h.covered c hc
    have hend := hover b hb
    rw [decide_eq_true_iff]
    rintro ⟨hbegin, -⟩
    dsimp only at hbegin
    omega
  rw [Exact, hnone]
  exact ⟨rfl, rfl⟩

/-- Once the open bucket is old enough it is closed, and the next one opened. -/
theorem Inv.ensureBucket (h : Inv t log closed now) (hle : now ≤ now')
    (hduration : 0 < t.bucketDuration) :
    ∃ closed', Inv (t.ensureBucket now') log closed' now' ∧
      (t.ensureBucket now').maxBuckets = t.maxBuckets ∧
      (t.ensureBucket now').bucketDuration = t.bucketDuration ∧
      ∃ b ∈ (t.ensureBucket now').currentBucket, Covers t.bucketDuration b now' := by
  have hnew : Covers t.bucketDuration ⟨now', 0, 0⟩ now' := ⟨le_rfl, by dsimp only; omega⟩
  rw [PacketLossTracker.ensureBucket]
  cases hcurrent : t.currentBucket with
  | none =>
    rw [if_pos (Or.inl rfl)]
    have hclosed := h.started hcurrent
    have hbuckets := h.buckets
    have hexact : Exact t.bucketDuration log ⟨now', 0, 0⟩ :=
      h.exact_empty (by simp [hcurrent, hclosed])
    have hcovered := h.covered
    rw [hclosed] at hbuckets
    rw [hcurrent, hclosed] at hcovered
    refine ⟨[], ⟨hbuckets, ?_, ?_, ?_, ?_, ?_, ?_⟩, rfl, rfl, _, rfl, hnew⟩
    · rintro b ⟨⟩
      rfl
    · simp
    · simpa using hexact
    · simp
    · intro c hc
      obtain ⟨b, hb, -⟩ := hcovered c hc
      simp at hb
    · simp
  | some bucket =>
    have hlast := h.lastBucketTime bucket hcurrent
    have hspaced := h.spaced
    have hexact := h.exact_buckets
    have hbegun := h.begun
    have hcovered := h.covered
    rw [hcurrent] at hspaced hexact hbegun hcovered
    by_cases hold : (t.bucketDuration : ℤ) ≤ now' - t.lastBucketTime
    · rw [if_pos (Or.inr hold)]
      have hover : ∀ b ∈ closed ++ [bucket], b.timestamp + (t.bucketDuration : ℤ) ≤ now' := by
        have hbucket := hbegun bucket (by simp)
        intro b hb
        rcases List.mem_append.1 hb with hb | hb
        · have hend := (List.pairwise_append.1 hspaced).2.2 b hb bucket (by simp)
          omega
        · rw [List.mem_singleton.1 hb]
          omega
      have hempty := h.exact_empty (by rw [hcurrent]; exact hover)
      refine ⟨closed ++ [bucket], ⟨?_, ?_, ?_, ?_, ?_, ?_, ?_⟩, rfl, rfl, _, rfl, hnew⟩
      · have hlength : (t.buckets ++ [bucket]).length ≤ t.maxBuckets + 1 := by
          rw [h.buckets, List.length_append, length_rtake, List.length_singleton]
          omega
        show (if t.maxBuckets < (t.buckets ++ [bucket]).length then (t.buckets ++ [bucket]).drop 1
          else t.buckets ++ [bucket]) = (closed ++ [bucket]).rtake t.maxBuckets
        rw [← rtake_push, ← h.buckets]
        by_cases hfull : t.maxBuckets < (t.buckets ++ [bucket]).length
        · rw [if_pos hfull, rtake_eq_drop,
            show (t.buckets ++ [bucket]).length - t.maxBuckets = 1 by omega]
        · rw [if_neg hfull, rtake_of_length_le (not_lt.1 hfull)]
      · rintro b ⟨⟩
        rfl
      · refine List.pairwise_append.2 ⟨hspaced, List.pairwise_singleton _ _, fun b hb b' hb' => ?_⟩
        rw [List.mem_singleton.1 hb']
        exact hover b hb
      · refine List.forall_mem_append.2 ⟨hexact, ?_⟩
        simpa using hempty
      · refine List.forall_mem_append.2 ⟨fun b hb => (hbegun b hb).trans hle, ?_⟩
        simp
      · intro c hc
        obtain ⟨b, hb, hcovers⟩ := hcovered c hc
        exact ⟨b, List.mem_append_left _ hb, hcovers⟩
      · simp
    · rw [if_neg (by simp [hold])]
      have hbucket := hbegun bucket (by simp)
      refine ⟨closed, ⟨h.buckets, h.lastBucketTime, h.spaced, h.exact_buckets,
        fun b hb => (h.begun b hb).trans hle, h.covered, h.started⟩, rfl, rfl, bucket, hcurrent, ?_⟩
      exact ⟨by omega, by omega⟩

/-- Packets are counted in the open bucket. -/
theorem Inv.count (h : Inv t log closed now) {bucket : LossBucket}
    (hbucket : bucket ∈ t.currentBucket) (hcovers : Covers t.bucketDuration bucket now)
    (sent lost : ℕ) :
    Inv { t with
      currentBucket := some ⟨bucket.timestamp, bucket.total + sent, bucket.lost + lost⟩ }
      (log ++ [⟨now, sent, lost⟩]) closed now := by
  have hcurrent : t.currentBucket = some bucket := hbucket
  have hspaced := h.spaced
  have hexact := h.exact_buckets
  have hbegun := h.begun
  have hcovered := h.covered
  rw [hcurrent] at hspaced hexact hbegun hcovered
  obtain ⟨hclosedSpaced, -, hbefore⟩ := List.pairwise_append.1 hspaced
  rw [List.forall_mem_append] at hexact hbegun
  refine ⟨h.buckets, ?_, ?_, ?_, ?_, ?_, by simp⟩
  · rintro b ⟨⟩
    exact h.lastBucketTime bucket hbucket
  · refine List.pairwise_append.2 ⟨hclosedSpaced, List.pairwise_singleton _ _, ?_⟩
    intro b hb b' hb'
    rw [List.mem_singleton.1 hb']
    exact hbefore b hb bucket (by simp)
  · refine List.forall_mem_append.2 ⟨fun b hb => ?_, ?_⟩
    · -- a closed bucket ends where the open one begins, or earlier
      have hend := hbefore b hb bucket (by simp)
      have hother : ¬Covers t.bucketDuration b now := by
        rintro ⟨-, hlt⟩
        have hbegin := hcovers.1
        omega
      have hb := hexact.1 b hb
      rw [Exact] at hb ⊢
      simpa [List.filter_append, hother] using hb
    · have hb := hexact.2 bucket (by simp)
      let c : Counted := ⟨now, sent, lost⟩
      have hone : (log ++ [c]).filter (fun c => Covers t.bucketDuration bucket c.time) =
          log.filter (fun c => Covers t.bucketDuration bucket c.time) ++ [c] := by
        simp [List.filter_append, c, hcovers]
      rw [Option.toList_some, List.forall_mem_singleton]
      constructor
      · show bucket.total + sent = (((log ++ [c]).filter fun c =>
          Covers t.bucketDuration bucket c.time).map (·.sent)).sum
        rw [hone, List.map_append, List.sum_append, ← hb.1]
        simp [c]
      · show bucket.lost + lost = (((log ++ [c]).filter fun c =>
          Covers t.bucketDuration bucket c.time).map (·.lost)).sum
        rw [hone, List.map_append, List.sum_append, ← hb.2]
        simp [c]
  · refine List.forall_mem_append.2 ⟨hbegun.1, ?_⟩
    simpa using hbegun.2 bucket (by simp)
  · intro c hc
    have hreplaced : ∀ b ∈ closed ++ [bucket], Covers t.bucketDuration b c.time →
        ∃ b' ∈ closed ++
            [⟨bucket.timestamp, bucket.total + sent, bucket.lost + lost⟩],
          Covers t.bucketDuration b' c.time := by
      intro b hb hcov
      rcases List.mem_append.1 hb with hb | hb
      · exact ⟨b, List.mem_append_left _ hb, hcov⟩
      · rw [List.mem_singleton.1 hb] at hcov
        exact ⟨_, List.mem_append_right _ (List.mem_singleton_self _), hcov⟩
    rcases List.mem_append.1 hc with hc | hc
    · obtain ⟨b, hb, hcov⟩ := hcovered c hc
      exact hreplaced b hb hcov
    · rw [List.mem_singleton.1 hc]
      exact ⟨_, List.mem_append_right _ (List.mem_singleton_self _), hcovers⟩

end Steps

theorem Inv.mono {t : PacketLossTracker} {log : List Counted} {closed : List LossBucket}
    {now now' : ℤ} (h : Inv t log closed now) (hle : now ≤ now') : Inv t log closed now' :=
  { h with begun := fun b hb => (h.begun b hb).trans hle }

theorem record_eq (t : PacketLossTracker) (now : ℤ) (lost : Bool) :
    t.record now lost = t.recordBatch now 1 (if lost then 1 else 0) := by
  cases lost <;> rfl

theorem counted_append (calls : List (ℤ × Call)) (e : ℤ × Call) : counted (calls ++ [e]) =
    match e.2 with
    | .record lost => counted calls ++ [⟨e.1, 1, if lost then 1 else 0⟩]
    | .recordBatch sent lost => counted calls ++ [⟨e.1, sent, lost⟩]
    | .getHeatmapData => counted calls
    | .reset => [] := by
  rw [counted, List.foldl_append]
  rfl

/-- The state after calls in the order of time. -/
theorem inv_run (doubles : Doubles) (maxBuckets bucketDuration : ℕ) (calls : List (ℤ × Call))
    (hclock : calls.Pairwise fun e e' => e.1 ≤ e'.1) {now : ℤ} (hnow : ∀ e ∈ calls, e.1 ≤ now) :
    let t := run (step doubles) (new maxBuckets bucketDuration) calls
    (∃ closed, Inv t (counted calls) closed now) ∧
      t.maxBuckets = (new maxBuckets bucketDuration).maxBuckets ∧
      t.bucketDuration = (new maxBuckets bucketDuration).bucketDuration := by
  induction calls using List.reverseRecOn generalizing now with
  | nil =>
    refine ⟨⟨[], ?_, ?_, ?_, ?_, ?_, ?_, ?_⟩, rfl, rfl⟩ <;> simp [new, counted]
  | append_singleton calls e ih =>
    obtain ⟨hbefore, -, hlast⟩ := List.pairwise_append.1 hclock
    have hearlier : ∀ e' ∈ calls, e'.1 ≤ e.1 := fun e' he' => hlast e' he' e (by simp)
    obtain ⟨⟨closed, hinv⟩, hmax, hduration⟩ := ih hbefore hearlier
    have hle := hnow e (by simp)
    have hpos : 0 < (run (step doubles) (new maxBuckets bucketDuration) calls).bucketDuration := by
      rw [hduration, new]
      dsimp only
      split_ifs with hzero
      · decide
      · omega
    obtain ⟨closed', hensured, hmax', hduration', bucket, hbucket, hcovers⟩ :=
      hinv.ensureBucket le_rfl hpos
    rw [← hduration'] at hcovers
    rw [run_append, counted_append]
    obtain ⟨time, call⟩ := e
    have hcount : ∀ sent lost, ∃ closed, Inv
        ((run (step doubles) (new maxBuckets bucketDuration) calls).recordBatch time sent lost)
        (counted calls ++ [⟨time, sent, lost⟩]) closed now := by
      intro sent lost
      refine ⟨closed', Inv.mono ?_ hle⟩
      rw [recordBatch, Option.mem_def.1 hbucket]
      exact hensured.count hbucket hcovers sent lost
    cases call with
    | record lost =>
      refine ⟨?_, hmax'.trans hmax, hduration'.trans hduration⟩
      have hone := hcount 1 (if lost then 1 else 0)
      rwa [← record_eq] at hone
    | recordBatch sent lost =>
      exact ⟨hcount sent lost, hmax'.trans hmax, hduration'.trans hduration⟩
    | getHeatmapData =>
      exact ⟨⟨closed', hensured.mono hle⟩, hmax'.trans hmax, hduration'.trans hduration⟩
    | reset =>
      refine ⟨⟨[], ?_, ?_, ?_, ?_, ?_, ?_, ?_⟩, hmax, hduration⟩ <;> simp [step, reset]

/-- **The heat map.** At any time after any calls it shows the last buckets that are over: each has
counted the packets of its own interval and no others, the intervals do not overlap, and a packet
that was counted at least one interval ago is in one of them, unless it has been dropped with the
oldest. -/
theorem heatmap_run (doubles : Doubles) (maxBuckets bucketDuration : ℕ) (calls : List (ℤ × Call))
    (now : ℤ) (hclock : calls.Pairwise fun e e' => e.1 ≤ e'.1) (hnow : ∀ e ∈ calls, e.1 ≤ now) :
    let t := new maxBuckets bucketDuration
    ∃ closed : List LossBucket,
      (getHeatmapData doubles (run (step doubles) t calls) now).2 =
        (closed.rtake t.maxBuckets).map (heatmapEntry doubles) ∧
      (closed.Pairwise fun b b' => b.timestamp + (t.bucketDuration : ℤ) ≤ b'.timestamp) ∧
      (∀ b ∈ closed, Exact t.bucketDuration (counted calls) b) ∧
      ∀ c ∈ counted calls, c.time + (t.bucketDuration : ℤ) ≤ now →
        ∃ b ∈ closed, Covers t.bucketDuration b c.time := by
  obtain ⟨⟨closed, hinv⟩, hmax, hduration⟩ :=
    inv_run doubles maxBuckets bucketDuration calls hclock hnow
  have hpos : 0 < (run (step doubles) (new maxBuckets bucketDuration) calls).bucketDuration := by
    rw [hduration, new]
    dsimp only
    split_ifs with hzero
    · decide
    · omega
  obtain ⟨closed', hensured, hmax', hduration', bucket, hbucket, hcovers⟩ :=
    hinv.ensureBucket le_rfl hpos
  rw [hmax] at hmax'
  rw [hduration] at hduration' hcovers
  have hcurrent := Option.mem_def.1 hbucket
  have hspaced := hensured.spaced
  have hexact := hensured.exact_buckets
  have hcovered := hensured.covered
  rw [hcurrent, hduration'] at hspaced hexact hcovered
  refine ⟨closed', ?_, (List.pairwise_append.1 hspaced).1, fun b hb =>
    hexact b (List.mem_append_left _ hb), fun c hc hage => ?_⟩
  · rw [getHeatmapData, hensured.buckets, hmax']
  · obtain ⟨b, hb, hcov⟩ := hcovered c hc
    rcases List.mem_append.1 hb with hb | hb
    · exact ⟨b, hb, hcov⟩
    · rw [List.mem_singleton.1 hb] at hcov
      obtain ⟨hbegin, -⟩ := hcov
      obtain ⟨-, hend⟩ := hcovers
      omega

/-- Packets of three intervals, of which two are over. -/
def threeIntervals : List (ℤ × Call) :=
  [(1000, .record false), (3000, .record true), (7000, .recordBatch 4 0), (12500, .record false)]

theorem heatmap_run_threeIntervals : ∃ closed : List LossBucket,
    (getHeatmapData ⟨fun q => .finite q, rfl⟩
        (run (step ⟨fun q => .finite q, rfl⟩) (new 0 0) threeIntervals) 13000).2 =
      (closed.rtake 60).map (heatmapEntry ⟨fun q => .finite q, rfl⟩) ∧
    (∀ b ∈ closed, Exact 5000 (counted threeIntervals) b) ∧
    ∃ b ∈ closed, Covers 5000 b 7000 := by
  obtain ⟨closed, hmap, -, hexact, hcovered⟩ := heatmap_run ⟨fun q => .finite q, rfl⟩ 0 0
    threeIntervals 13000 (by decide +kernel) (by decide +kernel)
  have hbatch : (⟨7000, 4, 0⟩ : Counted) ∈ counted threeIntervals := by decide +kernel
  exact ⟨closed, hmap, hexact, hcovered ⟨7000, 4, 0⟩ hbatch (by decide)⟩

end PacketLossTracker

end EdgeLink
