import EdgeLink.Foundations.Run
import EdgeLink.Server.MetadataHandler
import Mathlib.Algebra.Order.BigOperators.Group.List

/-!
# Which envelope chunks pass

The duplicate filter of the metadata handler (`MetaSession.shouldDropEnvelopeBySeq`) over the
arrivals of a sender that does not restart: its envelopes are numbered from 0, fewer than half a
lap of them, and their chunks arrive any number of times, in any order and however late.

* `receive` is what a chunk does to its channel; `receive_of_introduced` and `receive_of_stale` say
  what it does once the channel has a newest envelope.
* `Bounded`: what a channel retains, whatever arrives.
* `Holds`: a channel knows the chunks that have passed since it was last reset. Envelopes enter the
  window only as the newest, so the newest one is always retained.
* `passes_once`: a chunk passes at most once between two arrivals that are taken for a restart.
* `passes_iff`: a recent chunk that has not passed passes exactly when its envelope is not behind
  the newest, or is retained.
-/

namespace EdgeLink

open Serial

namespace EnvChannelState

/-! ## One chunk on a channel -/

/-- A chunk arrives on a channel: the channel afterwards, and whether the chunk is dropped. -/
def receive (ch : EnvChannelState) (envSeq envIdx : Seq) : EnvChannelState × Bool :=
  let ch := if MetaSession.IsRestart ch envSeq then new else ch
  let stale := ch.isStaleOrDuplicateChunk envSeq envIdx
  if stale.2 then (stale.1, true)
  else
    let ch := stale.1.chunkSetFor envSeq
    if MAX_ENVELOPE_CHUNK_INDICES ≤ ch.totalSeen then (ch, true)
    else ({ ch with window := ch.window.set envSeq (ch.seen envSeq ++ [envIdx]) }, false)

/-- The channel with an envelope's chunk set in place. -/
def opened (ch : EnvChannelState) (envSeq : Seq) : EnvChannelState :=
  ({ ch with lastEnvSeq := advance ch.lastEnvSeq envSeq } : EnvChannelState).chunkSetFor envSeq

/-- The envelope is not behind the newest one, or it is retained. -/
def Introduced (ch : EnvChannelState) (envSeq : Seq) : Prop :=
  ∀ last ∈ ch.lastEnvSeq, 0x80000000 ≤ dist last envSeq → ch.window.has envSeq = true

instance (ch : EnvChannelState) (envSeq : Seq) : Decidable (ch.Introduced envSeq) := by
  unfold Introduced
  cases ch.lastEnvSeq with
  | none => exact isTrue fun _ h => nomatch h
  | some last =>
    exact decidable_of_iff (0x80000000 ≤ dist last envSeq → ch.window.has envSeq = true) (by simp)

section Receive

variable {ch : EnvChannelState} {envSeq envIdx : Seq}

theorem chunkSetFor_of_has (h : ch.window.has envSeq = true) : ch.chunkSetFor envSeq = ch := by
  rw [chunkSetFor]
  cases hget : ch.window.get? envSeq with
  | none => simp [OrderedMap.has, hget] at h
  | some chunks => rfl

theorem isStaleOrDuplicateChunk_of_introduced (hempty : ch.lastEnvSeq = none → ch = new)
    (h : ch.Introduced envSeq) : ch.isStaleOrDuplicateChunk envSeq envIdx =
      (ch.opened envSeq, decide (envIdx ∈ (ch.opened envSeq).seen envSeq)) := by
  rw [isStaleOrDuplicateChunk]
  split
  next hlast =>
    rw [hempty hlast]
    simp [opened, advance, new, chunkSetFor, seen]
  next last hlast =>
    have hstale : ¬ (0x80000000 ≤ dist last envSeq ∧ ch.window.has envSeq = false) := by
      rintro ⟨hbehind, hgone⟩
      simp [h last hlast hbehind] at hgone
    dsimp only
    rw [if_neg hstale, opened, hlast, advance]
    split_ifs
    · rfl
    · rw [← hlast]

/-- **A chunk of an introduced envelope** is dropped when it has passed already or the channel is
full, and recorded otherwise. -/
theorem receive_of_introduced (hempty : ch.lastEnvSeq = none → ch = new)
    (hrestart : ¬ MetaSession.IsRestart ch envSeq) (h : ch.Introduced envSeq) :
    ch.receive envSeq envIdx =
      if envIdx ∈ (ch.opened envSeq).seen envSeq then (ch.opened envSeq, true)
      else if MAX_ENVELOPE_CHUNK_INDICES ≤ (ch.opened envSeq).totalSeen then (ch.opened envSeq, true)
      else
        ({ ch.opened envSeq with
          window := (ch.opened envSeq).window.set envSeq
            ((ch.opened envSeq).seen envSeq ++ [envIdx]) }, false) := by
  have hhas : (ch.opened envSeq).window.has envSeq = true := has_window_chunkSetFor _ envSeq
  rw [receive, if_neg hrestart]
  dsimp only
  rw [isStaleOrDuplicateChunk_of_introduced hempty h]
  simp only [decide_eq_true_eq, chunkSetFor_of_has hhas]

/-- **A chunk of any other envelope** is dropped. -/
theorem receive_of_stale (hrestart : ¬ MetaSession.IsRestart ch envSeq)
    (h : ¬ ch.Introduced envSeq) : ch.receive envSeq envIdx = (ch, true) := by
  unfold Introduced at h
  push Not at h
  obtain ⟨last, hlast, hbehind, hgone⟩ := h
  have hlast' : ch.lastEnvSeq = some last := hlast
  have hstale : ch.isStaleOrDuplicateChunk envSeq envIdx = (ch, true) := by
    rw [isStaleOrDuplicateChunk, hlast']
    dsimp only
    rw [if_pos ⟨hbehind, by simpa using hgone⟩]
  rw [receive, if_neg hrestart]
  dsimp only
  rw [hstale, if_pos rfl]

/-- A restart resets the channel first. -/
theorem receive_of_isRestart (hrestart : MetaSession.IsRestart ch envSeq) :
    ch.receive envSeq envIdx = new.receive envSeq envIdx := by
  have hnew : ¬ MetaSession.IsRestart new envSeq := fun ⟨_, h, _⟩ => nomatch h
  rw [receive, receive, if_pos hrestart, if_neg hnew]

end Receive

/-! ## What a channel retains -/

/-- The channel is within both limits. -/
structure Bounded (ch : EnvChannelState) : Prop where
  envelopes : ch.window.size ≤ ENVELOPE_SEQ_WINDOW
  indices : ch.totalSeen ≤ MAX_ENVELOPE_CHUNK_INDICES

section Bounds

variable {ch : EnvChannelState} {envSeq : Seq}

theorem totalSeen_eq (ch : EnvChannelState) :
    ch.totalSeen = (ch.window.values.map List.length).sum := by
  rw [totalSeen, OrderedMap.values, List.map_map]
  rfl

theorem totalSeen_chunkSetFor_le (ch : EnvChannelState) (envSeq : Seq) :
    (ch.chunkSetFor envSeq).totalSeen ≤ ch.totalSeen := by
  rw [chunkSetFor]
  cases hget : ch.window.get? envSeq with
  | some chunks => exact le_rfl
  | none =>
    have hset : ∀ window : OrderedMap Seq (List Seq), window.get? envSeq = none →
        (window.entries.map fun e => e.2.length).sum ≤ ch.totalSeen →
        ((window.set envSeq []).entries.map fun e => e.2.length).sum ≤ ch.totalSeen := by
      intro window hnone hle
      rw [OrderedMap.set, dif_pos hnone]
      simpa using hle
    dsimp only
    split_ifs with hfull
    · refine hset _ ?_ ?_
      · cases hdrop : (ch.window.dropOldest 1).get? envSeq with
        | none => rfl
        | some chunks => exact absurd (OrderedMap.get?_dropOldest hdrop) (by simp [hget])
      · exact ((List.drop_sublist ..).map _).sum_le_sum fun _ _ => Nat.zero_le _
    · exact hset _ hget le_rfl

/-- Opening an envelope's set keeps both limits. -/
theorem Bounded.opened (h : Bounded ch) (envSeq : Seq) : Bounded (ch.opened envSeq) where
  envelopes := size_window_chunkSetFor (by exact h.envelopes) envSeq
  indices := (totalSeen_chunkSetFor_le _ envSeq).trans h.indices

theorem bounded_new : Bounded new := ⟨Nat.zero_le _, Nat.zero_le _⟩

/-- One more index fits while the channel is not full. -/
theorem Bounded.record (h : Bounded ch) (hhas : ch.window.has envSeq = true)
    (hroom : ch.totalSeen < MAX_ENVELOPE_CHUNK_INDICES) (envIdx : Seq) :
    Bounded { ch with window := ch.window.set envSeq (ch.seen envSeq ++ [envIdx]) } := by
  obtain ⟨chunks, hget⟩ := Option.isSome_iff_exists.1 hhas
  refine ⟨?_, ?_⟩
  · dsimp only
    rw [OrderedMap.size_set, if_neg (by simp [hget])]
    exact h.envelopes
  · have hsum := OrderedMap.sum_values_set hget List.length (ch.seen envSeq ++ [envIdx])
    have hseen : ch.seen envSeq = chunks := by rw [seen, hget, Option.getD_some]
    rw [totalSeen_eq] at hroom ⊢
    rw [List.length_append, List.length_singleton, hseen] at hsum
    dsimp only
    rw [hseen]
    omega

end Bounds

/-! ## What a channel knows of the chunks that have passed -/

section Opened

variable {ch : EnvChannelState} {envSeq : Seq}

theorem has_opened (ch : EnvChannelState) (envSeq : Seq) :
    (ch.opened envSeq).window.has envSeq = true := has_window_chunkSetFor _ envSeq

theorem lastEnvSeq_opened (ch : EnvChannelState) (envSeq : Seq) :
    (ch.opened envSeq).lastEnvSeq = advance ch.lastEnvSeq envSeq := lastEnvSeq_chunkSetFor _ envSeq

/-- A set of the window was there before, or is the new one. -/
theorem get?_opened {x : Seq} {chunks : List Seq}
    (h : (ch.opened envSeq).window.get? x = some chunks) :
    ch.window.get? x = some chunks ∨
      (x = envSeq ∧ ch.window.get? envSeq = none ∧ chunks = []) := by
  rw [opened, chunkSetFor] at h
  dsimp only at h
  split at h
  next => exact Or.inl h
  next hnone =>
    dsimp only at h
    rw [OrderedMap.get?_set] at h
    split_ifs at h with hx hfull
    · exact Or.inr ⟨hx, hnone, (Option.some.inj h).symm⟩
    · exact Or.inl (OrderedMap.get?_dropOldest h)
    · exact Or.inl h

theorem seen_opened_subset {x i : Seq} (h : i ∈ (ch.opened envSeq).seen x) : i ∈ ch.seen x := by
  rw [seen] at h
  cases hget : (ch.opened envSeq).window.get? x with
  | none => simp [hget] at h
  | some chunks =>
    rw [hget, Option.getD_some] at h
    rcases get?_opened hget with hold | ⟨-, -, rfl⟩
    · rwa [seen, hold, Option.getD_some]
    · cases h

/-- A retained set is kept whole. -/
theorem seen_opened {x : Seq} (h : ch.window.has x = true)
    (h' : (ch.opened envSeq).window.has x = true) : (ch.opened envSeq).seen x = ch.seen x := by
  obtain ⟨chunks, hget⟩ := Option.isSome_iff_exists.1 h'
  rcases get?_opened hget with hold | ⟨rfl, hnone, -⟩
  · rw [seen, seen, hget, hold]
  · rw [OrderedMap.has, hnone] at h
    cases h

end Opened

/-- The numbers of a sender that does not restart. -/
def Small (n : ℕ) : Prop := n < 2 ^ 31

section Numbers

variable {last : Seq} {n m : ℕ}

theorem Small.toNat_ofNat (hn : Small n) : (BitVec.ofNat 32 n).toNat = n := by
  unfold Small at hn
  rw [BitVec.toNat_ofNat, Nat.mod_eq_of_lt (by omega)]

theorem Small.ofNat_inj (hn : Small n) (hm : Small m)
    (h : BitVec.ofNat 32 n = BitVec.ofNat 32 m) : n = m := by
  rw [← hn.toNat_ofNat, h, hm.toNat_ofNat]

/-- Of two numbers below half a lap, the serially greater one is the greater one. -/
theorem Small.behind_iff (hn : Small n) (hlast : Small last.toNat) :
    0x80000000 ≤ dist last (BitVec.ofNat 32 n) ↔ n < last.toNat := by
  have hto := hn.toNat_ofNat
  unfold Small at hn hlast
  rw [dist_eq, hto]
  split_ifs <;> omega

theorem Small.advance_eq (hn : Small n) (hlast : Small last.toNat) :
    advance (some last) (BitVec.ofNat 32 n) =
      some (if last.toNat < n then BitVec.ofNat 32 n else last) := by
  have hto := hn.toNat_ofNat
  unfold Small at hn hlast
  rw [advance, dist_eq, hto]
  split_ifs <;> first | rfl | omega

theorem Small.introduced_iff {ch : EnvChannelState} (hn : Small n) (hlast : Small last.toNat)
    (h : ch.lastEnvSeq = some last) : ch.Introduced (BitVec.ofNat 32 n) ↔
      (n < last.toNat → ch.window.has (BitVec.ofNat 32 n) = true) := by
  unfold Introduced
  rw [h]
  simp [hn.behind_iff hlast]

end Numbers

/-- The channel knows the chunks that have passed since it was last reset. -/
structure Holds (ch : EnvChannelState) (since : List (ℕ × Seq)) : Prop where
  empty : ch.lastEnvSeq = none → ch = new ∧ since = []
  small : ∀ last, ch.lastEnvSeq = some last → Small last.toNat
  /-- the newest envelope is retained -/
  newest : ∀ last, ch.lastEnvSeq = some last → ch.window.has last = true
  past : ∀ last, ch.lastEnvSeq = some last → ∀ c ∈ since, c.1 ≤ last.toNat
  /-- what has passed of a retained envelope is remembered -/
  kept : ∀ c ∈ since, ch.window.has (BitVec.ofNat 32 c.1) = true →
    c.2 ∈ ch.seen (BitVec.ofNat 32 c.1)
  /-- and nothing else is -/
  seen : ∀ n, Small n → ∀ i ∈ ch.seen (BitVec.ofNat 32 n), (n, i) ∈ since
  nodup : since.Nodup

theorem holds_new : Holds new [] where
  empty _ := ⟨rfl, rfl⟩
  small _ h := nomatch h
  newest _ h := nomatch h
  past _ h := nomatch h
  kept _ h := nomatch h
  seen _ _ _ h := nomatch h
  nodup := List.nodup_nil

namespace Holds

variable {ch : EnvChannelState} {since : List (ℕ × Seq)} {n : ℕ} {i : Seq}

theorem small_of_mem (h : Holds ch since) {c : ℕ × Seq} (hc : c ∈ since) : Small c.1 := by
  cases hlast : ch.lastEnvSeq with
  | none =>
    rw [(h.empty hlast).2] at hc
    nomatch hc
  | some last => exact (h.past last hlast c hc).trans_lt (h.small last hlast)

/-- The newest number once an introduced envelope has been opened. -/
theorem lastEnvSeq_opened (h : Holds ch since) (hn : Small n) :
    ∃ last, (ch.opened (BitVec.ofNat 32 n)).lastEnvSeq = some last ∧ Small last.toNat ∧
      n ≤ last.toNat ∧ ∀ c ∈ since, c.1 ≤ last.toNat := by
  rw [EnvChannelState.lastEnvSeq_opened]
  cases hlast : ch.lastEnvSeq with
  | none =>
    refine ⟨_, rfl, hn.toNat_ofNat.symm ▸ hn, hn.toNat_ofNat.ge, fun c hc => ?_⟩
    rw [(h.empty hlast).2] at hc
    nomatch hc
  | some last =>
    rw [hn.advance_eq (h.small last hlast)]
    refine ⟨_, rfl, ?_⟩
    split_ifs with hlt
    · rw [hn.toNat_ofNat]
      exact ⟨hn, le_rfl, fun c hc => (h.past last hlast c hc).trans hlt.le⟩
    · exact ⟨h.small last hlast, Nat.le_of_not_lt hlt, h.past last hlast⟩

/-- An introduced envelope that is not past the newest one is retained. -/
theorem has_of_le (h : Holds ch since) (hn : Small n) (hintro : ch.Introduced (BitVec.ofNat 32 n))
    {last : Seq} (hlast : ch.lastEnvSeq = some last) (hle : n ≤ last.toNat) :
    ch.window.has (BitVec.ofNat 32 n) = true := by
  rcases hle.lt_or_eq with hlt | heq
  · exact (hn.introduced_iff (h.small last hlast) hlast).1 hintro hlt
  · have hsame : BitVec.ofNat 32 n = last := by
      apply BitVec.eq_of_toNat_eq
      rw [hn.toNat_ofNat, heq]
    rw [hsame]
    exact h.newest last hlast

/-- An envelope that something has passed of is retained when it is opened. -/
theorem has_of_introduced (h : Holds ch since) (hn : Small n)
    (hintro : ch.Introduced (BitVec.ofNat 32 n)) {c : ℕ × Seq} (hc : c ∈ since) (hcn : n ≤ c.1) :
    ch.window.has (BitVec.ofNat 32 n) = true := by
  cases hlast : ch.lastEnvSeq with
  | none =>
    rw [(h.empty hlast).2] at hc
    nomatch hc
  | some last => exact h.has_of_le hn hintro hlast (hcn.trans (h.past last hlast c hc))

/-- The newest envelope is retained when another is opened: it is the one opened, or the newest of
before, and then nothing is evicted. -/
theorem newest_opened (h : Holds ch since) (hn : Small n)
    (hintro : ch.Introduced (BitVec.ofNat 32 n)) {last : Seq}
    (hlast : (ch.opened (BitVec.ofNat 32 n)).lastEnvSeq = some last) :
    (ch.opened (BitVec.ofNat 32 n)).window.has last = true := by
  rw [EnvChannelState.lastEnvSeq_opened] at hlast
  cases hbefore : ch.lastEnvSeq with
  | none =>
    rw [hbefore] at hlast
    obtain rfl := Option.some.inj hlast
    exact has_opened ch _
  | some before =>
    rw [hbefore, hn.advance_eq (h.small before hbefore)] at hlast
    obtain rfl := Option.some.inj hlast
    split_ifs with hlt
    · exact has_opened ch _
    · have hhas := h.has_of_le hn hintro hbefore (Nat.le_of_not_lt hlt)
      rw [EnvChannelState.opened, chunkSetFor_of_has (by exact hhas)]
      exact h.newest before hbefore

/-- Opening an introduced envelope's set loses nothing that matters. -/
theorem opened (h : Holds ch since) (hn : Small n) (hintro : ch.Introduced (BitVec.ofNat 32 n)) :
    Holds (ch.opened (BitVec.ofNat 32 n)) since := by
  obtain ⟨last', hlast', hsmall', hle', hpast'⟩ := h.lastEnvSeq_opened hn
  refine ⟨fun hnone => ?_, ?_, fun last hlast => h.newest_opened hn hintro hlast, ?_, ?_,
    fun m hm j hj => h.seen m hm j (seen_opened_subset hj), h.nodup⟩
  · rw [hlast'] at hnone
    nomatch hnone
  · intro last hlast
    obtain rfl := Option.some.inj (hlast'.symm.trans hlast)
    exact hsmall'
  · intro last hlast
    obtain rfl := Option.some.inj (hlast'.symm.trans hlast)
    exact hpast'
  · intro c hc hhas
    have hbefore : ch.window.has (BitVec.ofNat 32 c.1) = true := by
      obtain ⟨chunks, hget⟩ := Option.isSome_iff_exists.1 hhas
      rcases get?_opened hget with hold | ⟨heq, -, -⟩
      · rw [OrderedMap.has, hold, Option.isSome_some]
      · have hcn := (h.small_of_mem hc).ofNat_inj hn heq
        rw [heq]
        exact h.has_of_introduced hn hintro hc hcn.ge
    rw [seen_opened hbefore hhas]
    exact h.kept c hc hbefore

/-- A chunk that has not passed is recorded under its envelope. -/
theorem record (h : Holds ch since) (hn : Small n) {last : Seq} (hlast : ch.lastEnvSeq = some last)
    (hle : n ≤ last.toNat) (hhas : ch.window.has (BitVec.ofNat 32 n) = true)
    (hnew : i ∉ ch.seen (BitVec.ofNat 32 n)) :
    Holds
      { ch with window := ch.window.set (BitVec.ofNat 32 n) (ch.seen (BitVec.ofNat 32 n) ++ [i]) }
      (since ++ [(n, i)]) := by
  have hseen : ∀ x, EnvChannelState.seen
      { ch with window := ch.window.set (BitVec.ofNat 32 n) (ch.seen (BitVec.ofNat 32 n) ++ [i]) } x =
        if x = BitVec.ofNat 32 n then ch.seen (BitVec.ofNat 32 n) ++ [i] else ch.seen x := by
    intro x
    simp only [EnvChannelState.seen]
    rw [OrderedMap.get?_set]
    split_ifs <;> rfl
  have hhas' : ∀ x, (ch.window.set (BitVec.ofNat 32 n) (ch.seen (BitVec.ofNat 32 n) ++ [i])).has x =
      true → ch.window.has x = true := by
    intro x hx
    rw [OrderedMap.has, OrderedMap.get?_set] at hx
    split_ifs at hx with hxn
    · rw [hxn]
      exact hhas
    · exact hx
  refine ⟨fun hnone => ?_, h.small, ?_, ?_, ?_, ?_, ?_⟩
  · rw [show ch.lastEnvSeq = none from hnone] at hlast
    cases hlast
  · intro last' hlast'
    have hnewest := h.newest last' hlast'
    rw [OrderedMap.has_iff] at hnewest ⊢
    exact OrderedMap.mem_keys_set.2 (Or.inr hnewest)
  · intro last' hlast' c hc
    rcases List.mem_append.1 hc with hc | hc
    · exact h.past last' hlast' c hc
    · obtain rfl := List.mem_singleton.1 hc
      obtain rfl := Option.some.inj (hlast.symm.trans hlast')
      exact hle
  · intro c hc hx
    rw [hseen]
    rcases List.mem_append.1 hc with hc | hc
    · have hkept := h.kept c hc (hhas' _ hx)
      split_ifs with hcn
      · rw [← hcn]
        exact List.mem_append_left _ hkept
      · exact hkept
    · obtain rfl := List.mem_singleton.1 hc
      rw [if_pos rfl]
      exact List.mem_append_right _ (List.mem_singleton_self i)
  · intro m hm j hj
    rw [hseen] at hj
    split_ifs at hj with hmn
    · rcases List.mem_append.1 hj with hj | hj
      · exact List.mem_append_left _ (h.seen m hm j (hmn ▸ hj))
      · rw [List.mem_singleton.1 hj, hm.ofNat_inj hn hmn]
        exact List.mem_append_right _ (List.mem_singleton_self _)
    · exact List.mem_append_left _ (h.seen m hm j hj)
  · refine List.nodup_append'.2 ⟨h.nodup, List.nodup_singleton _, ?_⟩
    intro c hc hc'
    obtain rfl := List.mem_singleton.1 hc'
    exact hnew (h.kept _ hc hhas)

/-- The newest number is retained through a chunk, or is the chunk's. -/
theorem lastEnvSeq_receive (h : Holds ch since) (hn : Small n)
    (hrestart : ¬ MetaSession.IsRestart ch (BitVec.ofNat 32 n)) {last : Seq}
    (hlast : (ch.receive (BitVec.ofNat 32 n) i).1.lastEnvSeq = some last) :
    last.toNat = n ∨ ch.lastEnvSeq = some last := by
  by_cases hintro : ch.Introduced (BitVec.ofNat 32 n)
  · have hopened : (ch.receive (BitVec.ofNat 32 n) i).1.lastEnvSeq =
        advance ch.lastEnvSeq (BitVec.ofNat 32 n) := by
      rw [receive_of_introduced (fun e => (h.empty e).1) hrestart hintro]
      split_ifs <;> exact EnvChannelState.lastEnvSeq_opened ch _
    rw [hopened] at hlast
    cases hbefore : ch.lastEnvSeq with
    | none =>
      rw [hbefore] at hlast
      obtain rfl := Option.some.inj hlast
      exact Or.inl hn.toNat_ofNat
    | some before =>
      rw [hbefore, hn.advance_eq (h.small before hbefore)] at hlast
      obtain rfl := Option.some.inj hlast
      split_ifs
      · exact Or.inl hn.toNat_ofNat
      · exact Or.inr rfl
  · rw [receive_of_stale hrestart hintro] at hlast
    exact Or.inr hlast

/-- **A chunk that is not taken for a restart** is recorded when it passes. -/
theorem receive (h : Holds ch since) (hn : Small n)
    (hrestart : ¬ MetaSession.IsRestart ch (BitVec.ofNat 32 n)) (i : Seq) :
    Holds (ch.receive (BitVec.ofNat 32 n) i).1
      (if (ch.receive (BitVec.ofNat 32 n) i).2 then since else since ++ [(n, i)]) := by
  by_cases hintro : ch.Introduced (BitVec.ofNat 32 n)
  · have hopened := h.opened hn hintro
    rw [receive_of_introduced (fun e => (h.empty e).1) hrestart hintro]
    by_cases hseen : i ∈ (ch.opened (BitVec.ofNat 32 n)).seen (BitVec.ofNat 32 n)
    · rw [if_pos hseen]
      exact hopened
    · by_cases hfull : MAX_ENVELOPE_CHUNK_INDICES ≤ (ch.opened (BitVec.ofNat 32 n)).totalSeen
      · rw [if_neg hseen, if_pos hfull]
        exact hopened
      · obtain ⟨last, hlast, -, hle, -⟩ := h.lastEnvSeq_opened hn
        rw [if_neg hseen, if_neg hfull]
        exact hopened.record hn hlast hle (has_opened ch _) hseen
  · rw [receive_of_stale hrestart hintro]
    exact h

/-- **When a chunk passes.** -/
theorem receive_passes_iff (h : Holds ch since) (hn : Small n)
    (hrestart : ¬ MetaSession.IsRestart ch (BitVec.ofNat 32 n)) (hnew : (n, i) ∉ since) :
    (ch.receive (BitVec.ofNat 32 n) i).2 = false ↔
      ch.Introduced (BitVec.ofNat 32 n) ∧
        (ch.opened (BitVec.ofNat 32 n)).totalSeen < MAX_ENVELOPE_CHUNK_INDICES := by
  by_cases hintro : ch.Introduced (BitVec.ofNat 32 n)
  · have hunseen : i ∉ (ch.opened (BitVec.ofNat 32 n)).seen (BitVec.ofNat 32 n) :=
      fun hi => hnew (h.seen n hn i (seen_opened_subset hi))
    rw [receive_of_introduced (fun e => (h.empty e).1) hrestart hintro, if_neg hunseen]
    split_ifs with hfull
    · simp [hintro, hfull]
    · simp [hintro, Nat.lt_of_not_le hfull]
  · rw [receive_of_stale hrestart hintro]
    simp [hintro]

end Holds

/-- Whatever arrives, the channel stays within its limits. -/
theorem Bounded.receive {ch : EnvChannelState} (h : Bounded ch)
    (hempty : ch.lastEnvSeq = none → ch = new) (envSeq envIdx : Seq) :
    Bounded (ch.receive envSeq envIdx).1 := by
  have hstep : ∀ ch : EnvChannelState, Bounded ch → (ch.lastEnvSeq = none → ch = new) →
      ¬ MetaSession.IsRestart ch envSeq → Bounded (ch.receive envSeq envIdx).1 := by
    intro ch h hempty hrestart
    by_cases hintro : ch.Introduced envSeq
    · rw [receive_of_introduced hempty hrestart hintro]
      split_ifs with hseen hfull
      · exact h.opened envSeq
      · exact h.opened envSeq
      · exact (h.opened envSeq).record (has_opened ch envSeq) (Nat.lt_of_not_le hfull) envIdx
    · rw [receive_of_stale hrestart hintro]
      exact h
  by_cases hrestart : MetaSession.IsRestart ch envSeq
  · rw [receive_of_isRestart hrestart]
    exact hstep new bounded_new (fun _ => rfl) fun ⟨_, h, _⟩ => nomatch h
  · exact hstep ch h hempty hrestart

end EnvChannelState

/-- A chunk is handled on its channel, and the other channel is left alone. -/
theorem MetaSession.shouldDropEnvelopeBySeq_receive (session : MetaSession) {env : MetaEnvelope}
    {envSeq : Seq} (hseq : env.seq = some envSeq) (channel : EnvChannel) :
    (session.shouldDropEnvelopeBySeq env channel).2 =
        ((session.channelState channel).receive envSeq (env.idx.getD 0)).2 ∧
      (session.shouldDropEnvelopeBySeq env channel).1.channelState channel =
        ((session.channelState channel).receive envSeq (env.idx.getD 0)).1 ∧
      ∀ other ≠ channel, (session.shouldDropEnvelopeBySeq env channel).1.channelState other =
        session.channelState other := by
  have hother : ∀ other ≠ channel, ∀ ch : EnvChannelState,
      ((session.maybeResetOnRestart envSeq channel).setChannelState channel ch).channelState other =
        session.channelState other := by
    intro other hne ch
    rw [maybeResetOnRestart]
    split_ifs <;> cases channel <;> cases other <;> first | rfl | exact absurd rfl hne
  rw [shouldDropEnvelopeBySeq, hseq, EnvChannelState.receive]
  dsimp only
  rw [channelState_maybeResetOnRestart]
  split_ifs <;> exact ⟨rfl, channelState_setChannelState .., fun other hne => hother other hne _⟩

/-! ## Runs -/

/-- A chunk of an envelope, as it arrives. -/
structure EnvelopeChunk where
  channel : EnvChannel
  envelope : ℕ
  idx : Seq
  deriving DecidableEq

/-- The envelope's number in a packet. -/
def EnvelopeChunk.envSeq (c : EnvelopeChunk) : Seq := BitVec.ofNat 32 c.envelope

/-- What the filter reads of a chunk's packet. -/
def EnvelopeChunk.header (c : EnvelopeChunk) : MetaEnvelope where
  kind := "diff"
  seq := some c.envSeq
  idx := some c.idx
  sources := .undefined
  entries := []

/-- A server session and what has arrived for it. -/
structure EnvelopeLog where
  session : MetaSession
  arrived : List EnvelopeChunk
  /-- the chunks that were not dropped -/
  passed : List EnvelopeChunk
  /-- the channels of the arrivals taken for a restart of the sender -/
  restarts : List EnvChannel

namespace EnvelopeLog

def new : EnvelopeLog := ⟨MetaSession.new, [], [], []⟩

/-- A chunk arrives. -/
def step (s : EnvelopeLog) (c : EnvelopeChunk) : EnvelopeLog :=
  let result := s.session.shouldDropEnvelopeBySeq c.header c.channel
  { session := result.1
    arrived := s.arrived ++ [c]
    passed := if result.2 then s.passed else s.passed ++ [c]
    restarts :=
      if MetaSession.IsRestart (s.session.channelState c.channel) c.envSeq then
        s.restarts ++ [c.channel]
      else s.restarts }

/-- What a channel knows of the run; `since` are the chunks that have passed on it since an arrival
was last taken for a restart. -/
structure ChannelInv (s : EnvelopeLog) (channel : EnvChannel) (since : List (ℕ × Seq)) : Prop where
  bounded : (s.session.channelState channel).Bounded
  holds : (s.session.channelState channel).Holds since
  counted : ∀ n i, s.passed.count ⟨channel, n, i⟩ ≤ s.restarts.count channel + since.count (n, i)
  passed : ∀ c ∈ since, ⟨channel, c.1, c.2⟩ ∈ s.passed
  arrived : ∀ last, (s.session.channelState channel).lastEnvSeq = some last →
    ∃ c ∈ s.arrived, c.channel = channel ∧ c.envelope = last.toNat

def Inv (s : EnvelopeLog) : Prop := ∀ channel, ∃ since, ChannelInv s channel since

theorem inv_new : Inv new := fun channel =>
  ⟨[], by
    have hnew : new.session.channelState channel = EnvChannelState.new := by cases channel <;> rfl
    exact {
      bounded := hnew ▸ EnvChannelState.bounded_new
      holds := hnew ▸ EnvChannelState.holds_new
      counted := fun _ _ => Nat.zero_le _
      passed := fun _ hc => nomatch hc
      arrived := fun _ hlast => by rw [hnew] at hlast; nomatch hlast }⟩

section Step

variable {s : EnvelopeLog} {c : EnvelopeChunk} {since : List (ℕ × Seq)}

/-- What the filter answers to a chunk. -/
def receives (s : EnvelopeLog) (c : EnvelopeChunk) : EnvChannelState × Bool :=
  (s.session.channelState c.channel).receive c.envSeq c.idx

/-- The step, told by the chunk's channel. -/
theorem step_eq (s : EnvelopeLog) (c : EnvelopeChunk) :
    (s.step c).session.channelState c.channel = (s.receives c).1 ∧
      (∀ other ≠ c.channel, (s.step c).session.channelState other =
        s.session.channelState other) ∧
      (s.step c).passed = if (s.receives c).2 then s.passed else s.passed ++ [c] := by
  obtain ⟨hdrop, hch, hother⟩ :=
    s.session.shouldDropEnvelopeBySeq_receive (show c.header.seq = some c.envSeq from rfl) c.channel
  exact ⟨hch, hother, by rw [step, hdrop]; rfl⟩

/-- The channel as the chunk finds it: reset if the chunk is taken for a restart. -/
theorem ChannelInv.found (h : ChannelInv s c.channel since) :
    ∃ ch since, s.receives c = ch.receive c.envSeq c.idx ∧ ch.Holds since ∧
      ¬ MetaSession.IsRestart ch c.envSeq ∧
      (∀ n i, s.passed.count ⟨c.channel, n, i⟩ ≤
        (s.step c).restarts.count c.channel + since.count (n, i)) ∧
      (∀ c' ∈ since, ⟨c.channel, c'.1, c'.2⟩ ∈ s.passed) ∧
      ∀ last, ch.lastEnvSeq = some last →
        ∃ c' ∈ s.arrived, c'.channel = c.channel ∧ c'.envelope = last.toNat := by
  by_cases hrestart : MetaSession.IsRestart (s.session.channelState c.channel) c.envSeq
  · have hnew : ¬ MetaSession.IsRestart .new c.envSeq := fun h => by
      obtain ⟨_, hlast, -⟩ := h
      nomatch hlast
    refine ⟨.new, [], EnvChannelState.receive_of_isRestart hrestart, EnvChannelState.holds_new,
      hnew, ?_, (fun _ hc => nomatch hc), fun _ hlast => nomatch hlast⟩
    intro n i
    have hcounted := h.counted n i
    have honce := List.nodup_iff_count_le_one.1 h.holds.nodup (n, i)
    have hrestarts : (s.step c).restarts = s.restarts ++ [c.channel] := by rw [step, if_pos hrestart]
    rw [hrestarts, List.count_append, List.count_singleton_self]
    omega
  · have hrestarts : (s.step c).restarts = s.restarts := by rw [step, if_neg hrestart]
    exact ⟨_, since, rfl, h.holds, hrestart, by rw [hrestarts]; exact h.counted, h.passed, h.arrived⟩

/-- The chunk's own channel. -/
theorem ChannelInv.step_self (h : ChannelInv s c.channel since)
    (hn : EnvChannelState.Small c.envelope) : ∃ since, ChannelInv (s.step c) c.channel since := by
  obtain ⟨hch, -, hpassed⟩ := s.step_eq c
  have hbounded := h.bounded.receive (fun e => (h.holds.empty e).1) c.envSeq c.idx
  obtain ⟨ch, since', hfound, hholds, hrestart, hcounted, hold, harrived⟩ := h.found
  have hreceive := hholds.receive hn hrestart c.idx
  change (ch.receive c.envSeq c.idx).1.Holds
    (if (ch.receive c.envSeq c.idx).2 then since' else since' ++ [(c.envelope, c.idx)]) at hreceive
  rw [← hfound] at hreceive
  refine ⟨_, hch ▸ hbounded, hch ▸ hreceive, ?_, ?_, ?_⟩
  · intro n i
    have hle := hcounted n i
    rw [hpassed]
    split_ifs with hdrop
    · exact hle
    · rw [List.count_append, List.count_append]
      have hsame : [c].count ⟨c.channel, n, i⟩ = [(c.envelope, c.idx)].count (n, i) := by
        by_cases heq : (c.envelope, c.idx) = (n, i)
        · obtain ⟨rfl, rfl⟩ := Prod.mk.inj heq
          simp
        · have hne : c ≠ ⟨c.channel, n, i⟩ := fun e =>
            heq (Prod.ext (congrArg EnvelopeChunk.envelope e) (congrArg EnvelopeChunk.idx e))
          rw [List.count_singleton, List.count_singleton]
          simp [hne, heq]
      omega
  · intro c' hc'
    rw [hpassed]
    split_ifs at hc' ⊢ with hdrop
    · exact hold c' hc'
    · rcases List.mem_append.1 hc' with hc' | hc'
      · exact List.mem_append_left _ (hold c' hc')
      · obtain rfl := List.mem_singleton.1 hc'
        exact List.mem_append_right _ (List.mem_singleton_self c)
  · intro last hlast
    rw [hch, hfound] at hlast
    rcases hholds.lastEnvSeq_receive hn hrestart hlast with heq | hbefore
    · exact ⟨c, List.mem_append_right _ (List.mem_singleton_self c), rfl, heq.symm⟩
    · obtain ⟨c', hc', hrest⟩ := harrived last hbefore
      exact ⟨c', List.mem_append_left _ hc', hrest⟩

/-- The other channel. -/
theorem ChannelInv.step_other {channel : EnvChannel} (h : ChannelInv s channel since)
    (hne : channel ≠ c.channel) : ChannelInv (s.step c) channel since := by
  obtain ⟨-, hother, hpassed⟩ := s.step_eq c
  have hch := hother channel hne
  refine ⟨hch ▸ h.bounded, hch ▸ h.holds, ?_, ?_, ?_⟩
  · intro n i
    have hle := h.counted n i
    have hskip : (s.step c).passed.count ⟨channel, n, i⟩ = s.passed.count ⟨channel, n, i⟩ := by
      rw [hpassed]
      split_ifs
      · rfl
      · have hcne : c ≠ ⟨channel, n, i⟩ := fun e => hne (congrArg EnvelopeChunk.channel e).symm
        simp [List.count_append, hcne]
    have hmore : s.restarts.count channel ≤ (s.step c).restarts.count channel := by
      rw [step]
      dsimp only
      split_ifs
      · exact (List.sublist_append_left ..).count_le _
      · exact le_rfl
    omega
  · intro c' hc'
    rw [hpassed]
    split_ifs
    · exact h.passed c' hc'
    · exact List.mem_append_left _ (h.passed c' hc')
  · intro last hlast
    rw [hch] at hlast
    obtain ⟨c', hc', hrest⟩ := h.arrived last hlast
    exact ⟨c', List.mem_append_left _ hc', hrest⟩

theorem Inv.step (h : Inv s) (hn : EnvChannelState.Small c.envelope) : Inv (s.step c) := by
  intro channel
  obtain ⟨since, hinv⟩ := h channel
  by_cases heq : channel = c.channel
  · subst heq
    exact hinv.step_self hn
  · exact ⟨since, hinv.step_other heq⟩

end Step

/-- Every chunk is of one of the envelopes of a sender that does not restart. -/
def Numbered (cs : List EnvelopeChunk) : Prop := ∀ c ∈ cs, c.envelope < 2 ^ 31

instance (cs : List EnvelopeChunk) : Decidable (Numbered cs) := by unfold Numbered; infer_instance

theorem run_inv {cs : List EnvelopeChunk} (h : Numbered cs) : Inv (run step new cs) :=
  Along.invariant (fun _ _ hs hn => hs.step hn) inv_new
    ((Along.of_forall (fun _ _ => trivial) new cs).and_mem h |>.mono fun _ _ h => h.2)

/-- **Chunks pass once.** After every run, a chunk has passed at most once more often than an
arrival on its channel was taken for a restart of the sender, and each channel retains at most
`ENVELOPE_SEQ_WINDOW` envelopes and at most `MAX_ENVELOPE_CHUNK_INDICES` chunk indices. -/
theorem passes_once {cs : List EnvelopeChunk} (h : Numbered cs) :
    (∀ c, (run step new cs).passed.count c ≤ (run step new cs).restarts.count c.channel + 1) ∧
      ∀ channel,
        ((run step new cs).session.channelState channel).window.size ≤ ENVELOPE_SEQ_WINDOW ∧
        ((run step new cs).session.channelState channel).totalSeen ≤ MAX_ENVELOPE_CHUNK_INDICES := by
  have hinv := run_inv h
  constructor
  · rintro ⟨channel, n, i⟩
    obtain ⟨since, hch⟩ := hinv channel
    have hcounted := hch.counted n i
    have honce := List.nodup_iff_count_le_one.1 hch.holds.nodup (n, i)
    dsimp only
    omega
  · intro channel
    obtain ⟨since, hch⟩ := hinv channel
    exact ⟨hch.bounded.envelopes, hch.bounded.indices⟩

/-- Two chunks of one envelope, a newer envelope between them, and copies of all three. -/
def reordered : List EnvelopeChunk :=
  [⟨.metadata, 0, 0⟩, ⟨.metadata, 1, 0⟩, ⟨.metadata, 0, 1⟩, ⟨.metadata, 0, 0⟩, ⟨.metadata, 1, 0⟩,
    ⟨.metadata, 0, 1⟩]

theorem passes_once_reordered : (run step new reordered).passed.count ⟨.metadata, 0, 1⟩ ≤ 0 + 1 :=
  (passes_once (show Numbered reordered by decide)).1 ⟨.metadata, 0, 1⟩

/-- A copy of the first chunk arrives when envelope 8 has been seen. -/
def lateCopy : List EnvelopeChunk := [⟨.metadata, 0, 0⟩, ⟨.metadata, 8, 0⟩, ⟨.metadata, 0, 0⟩]

/-- **It passes again**: it is taken for the first chunk of a restarted sender. -/
theorem lateCopy_passes_twice :
    Numbered lateCopy ∧ (run step new lateCopy).passed.count ⟨.metadata, 0, 0⟩ = 2 := by
  decide +kernel

/-- **When a recent chunk passes.** A chunk that has not passed before and is less than
`ENVELOPE_SEQ_WINDOW` behind every envelope that has arrived on its channel passes exactly when its
envelope is not behind the newest number seen, or is retained; fewer indices than the limit being
recorded. -/
theorem passes_iff {cs : List EnvelopeChunk} (h : Numbered cs) {c : EnvelopeChunk}
    (hn : c.envelope < 2 ^ 31) (hnew : c ∉ (run step new cs).passed)
    (hrecent : ∀ c' ∈ (run step new cs).arrived, c'.channel = c.channel →
      c'.envelope < c.envelope + ENVELOPE_SEQ_WINDOW)
    (hroom : ((run step new cs).session.channelState c.channel).totalSeen <
      MAX_ENVELOPE_CHUNK_INDICES) :
    c ∈ ((run step new cs).step c).passed ↔
      ((run step new cs).session.channelState c.channel).Introduced c.envSeq := by
  obtain ⟨since, hch⟩ := run_inv h c.channel
  generalize run step new cs = s at hnew hrecent hroom hch ⊢
  have hrestart : ¬ MetaSession.IsRestart (s.session.channelState c.channel) c.envSeq := by
    rintro ⟨last, hlast, hzero, hmany⟩
    obtain ⟨c', hc', hchannel, henvelope⟩ := hch.arrived last hlast
    have hlt := hrecent c' hc' hchannel
    have h0 : c.envelope = 0 := EnvChannelState.Small.ofNat_inj hn (m := 0) (Nat.two_pow_pos 31) hzero
    rw [henvelope, h0] at hlt
    exact absurd (hmany.trans_lt hlt) (by decide)
  have hpasses := hch.holds.receive_passes_iff (i := c.idx) hn hrestart
    fun hc => hnew (hch.passed _ hc)
  have hopened : ((s.session.channelState c.channel).opened c.envSeq).totalSeen <
      MAX_ENVELOPE_CHUNK_INDICES :=
    (EnvChannelState.totalSeen_chunkSetFor_le _ _).trans_lt hroom
  obtain ⟨-, -, hpassed⟩ := s.step_eq c
  rw [hpassed]
  constructor
  · intro hmem
    split_ifs at hmem with hdrop
    · exact absurd hmem hnew
    · exact (hpasses.1 (Bool.not_eq_true _ ▸ hdrop)).1
  · intro hintro
    have hdrop : (s.receives c).2 = false := hpasses.2 ⟨hintro, hopened⟩
    rw [hdrop, if_neg Bool.false_ne_true]
    exact List.mem_append_right _ (List.mem_singleton_self c)

/-- The second chunk of envelope 0 arrives after envelope 1. -/
theorem passes_iff_second :
    (⟨.metadata, 0, 1⟩ : EnvelopeChunk) ∈
      ((run step new [⟨.metadata, 0, 0⟩, ⟨.metadata, 1, 0⟩]).step ⟨.metadata, 0, 1⟩).passed :=
  (passes_iff (c := ⟨.metadata, 0, 1⟩) (by decide) (by decide) (by decide +kernel)
    (by decide +kernel) (by decide +kernel)).2 (by decide +kernel)

/-- **The defect.** The only chunk of envelope 0 arrives after envelope 1, and is dropped as
stale. -/
theorem first_chunk_after_next_envelope :
    Numbered [⟨.metadata, 1, 0⟩] ∧
      (⟨.metadata, 0, 0⟩ : EnvelopeChunk) ∉ (run step new [⟨.metadata, 1, 0⟩]).passed ∧
      (∀ c' ∈ (run step new [⟨.metadata, 1, 0⟩]).arrived, c'.channel = .metadata →
        c'.envelope < 0 + ENVELOPE_SEQ_WINDOW) ∧
      ((run step new [⟨.metadata, 1, 0⟩]).session.channelState .metadata).totalSeen <
        MAX_ENVELOPE_CHUNK_INDICES ∧
      (⟨.metadata, 0, 0⟩ : EnvelopeChunk) ∉
        ((run step new [⟨.metadata, 1, 0⟩]).step ⟨.metadata, 0, 0⟩).passed := by
  decide +kernel

end EnvelopeLog

end EdgeLink
