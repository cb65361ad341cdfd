import EdgeLink.Codec.ValueDedup
import Mathlib.Logic.Function.Basic

/-!
# What the sentinels of a batch stand for

A sentinel names no version: the decoder expands it to whatever its cache holds. The baseline of a
key is the last value of it that was not a sentinel, in the order in which batches reach a decoder.

* `Supported`: each sentinel of a batch stands for the baseline of its key, if there is one.
* `undedup_supported`: of a supported batch a decoder whose cache holds baselines only makes values
  that the client had; what it has no baseline for is dropped.
-/

namespace EdgeLink

open JsValue

/-- The last value, as it arrived, of each key. -/
abbrev Baselines := String → Option JsValue

/-! ## The baselines that a batch leaves -/

def noteValue (context : Option String) (b : Baselines) (v : DeltaValue) : Baselines :=
  if v.path = "" ∨ isSentinel v.value then b
  else Function.update b (cacheKey context v.path) (some v.value)

def noteUpdate (context : Option String) (b : Baselines) (update : DeltaUpdate) : Baselines :=
  update.values.foldl (noteValue context) b

def noteDelta (b : Baselines) (delta : Delta) : Baselines :=
  delta.updates.foldl (noteUpdate delta.context) b

/-- The baselines after a batch. -/
def noteDeltaArray (b : Baselines) (deltas : List Delta) : Baselines := deltas.foldl noteDelta b

/-! ## Supported sentinels -/

section Supported

variable (m : Bool) (context : Option String)

/-- The state of the encoder, and the baselines of the decoder. -/
abbrev SupportState := ValueDedupState × Baselines

/-- If the value is sent as a sentinel and its key has a baseline, that is the value. -/
def SupportedValue (s : SupportState) (v : DeltaValue) : Prop :=
  v.path ≠ "" → isSentinel ((dedupValue context s.1 v).2.value.wire m) →
    ∀ w ∈ s.2 (cacheKey context v.path), w = v.value.wire m

instance (s : SupportState) (v : DeltaValue) : Decidable (SupportedValue m context s v) :=
  inferInstanceAs (Decidable (_ → _ → ∀ w ∈ s.2 (cacheKey context v.path), w = v.value.wire m))

def supportValue (s : SupportState) (v : DeltaValue) : SupportState :=
  let r := dedupValue context s.1 v
  (r.1, noteValue context s.2 (r.2.wire m))

def SupportedUpdate (s : SupportState) (update : DeltaUpdate) : Prop :=
  Along (supportValue m context) (SupportedValue m context) s update.values

instance (s : SupportState) (update : DeltaUpdate) :
    Decidable (SupportedUpdate m context s update) := inferInstanceAs (Decidable (Along ..))

def supportUpdate (s : SupportState) (update : DeltaUpdate) : SupportState :=
  let r := dedupUpdate context s.1 update
  (r.1, noteUpdate context s.2 (r.2.wire m))

def SupportedDelta (s : SupportState) (delta : Delta) : Prop :=
  Along (supportUpdate m delta.context) (SupportedUpdate m delta.context) s delta.updates

instance (s : SupportState) (delta : Delta) : Decidable (SupportedDelta m s delta) :=
  inferInstanceAs (Decidable (Along ..))

def supportDelta (s : SupportState) (delta : Delta) : SupportState :=
  let r := dedupDelta s.1 delta
  (r.1, noteDelta s.2 (r.2.wire m))

/-- Every sentinel of a batch stands for the baseline of its key, if there is one. -/
def Supported (s : SupportState) (deltas : List Delta) : Prop :=
  Along (supportDelta m) (SupportedDelta m) s deltas

instance (s : SupportState) (deltas : List Delta) : Decidable (Supported m s deltas) :=
  inferInstanceAs (Decidable (Along ..))

end Supported

/-! ## A decoder of supported batches -/

/-- The cache holds baselines only. -/
def HoldsBaselines (b : Baselines) (server : ValueDedupState) : Prop :=
  ∀ key, server.lookup key = .undefined ∨ b key = some (server.lookup key)

theorem holdsBaselines_create (b : Baselines) : HoldsBaselines b createValueDedupState :=
  fun _ => Or.inl rfl

section Decoder

variable {m : Bool} {context : Option String} {client server : ValueDedupState} {b : Baselines}

theorem HoldsBaselines.write {key : String} {v : JsValue} (h : HoldsBaselines b server) :
    HoldsBaselines (Function.update b key (some v)) (server.write key v) := by
  intro k
  by_cases hk : k = key
  · subst hk
    rw [lookup_write_self, Function.update_self]
    exact Or.inr rfl
  · rw [Function.update_of_ne hk]
    rcases lookup_write_of_ne server hk v with e | e
    · rw [e]
      exact h k
    · exact Or.inl e

theorem undedup_supported_value {v : DeltaValue} (h : HoldsBaselines b server)
    (hv : SupportedValue m context (client, b) v) :
    HoldsBaselines (supportValue m context (client, b) v).2
        (undedupValue context server ((dedupValue context client v).2.wire m)).1 ∧
      ((undedupValue context server ((dedupValue context client v).2.wire m)).2 = none ∨
        (undedupValue context server ((dedupValue context client v).2.wire m)).2 =
          some (v.wire m)) := by
  by_cases hp : v.path = ""
  · have hnote : noteValue context b (v.wire m) = b := if_pos (Or.inl hp)
    rw [supportValue, dedupValue_noPath hp, hnote,
      undedupValue_noPath (show (v.wire m).path = "" from hp)]
    exact ⟨h, Or.inr rfl⟩
  by_cases hs : isSentinel ((dedupValue context client v).2.value.wire m)
  · -- a sentinel: the cache does not change
    have hnote : (supportValue m context (client, b) v).2 = b := if_pos (Or.inr hs)
    rw [hnote, wire_of_isSentinel hs, undedupValue_sentinel m hp]
    split_ifs with hnone
    · exact ⟨h, Or.inl rfl⟩
    · have hbase := (h (cacheKey context v.path)).resolve_left hnone
      refine ⟨fun k => ?_, Or.inr ?_⟩
      · rw [lookup_refresh hnone]
        exact h k
      · rw [DeltaValue.wire, hv hp hs _ hbase]
  · -- the value itself
    obtain ⟨hd, harrives⟩ := dedupValue_of_not_isSentinel hs
    have hnote : (supportValue m context (client, b) v).2 =
        Function.update b (cacheKey context v.path) (some (v.value.wire m)) := by
      simp [supportValue, noteValue, hd, DeltaValue.wire, hp, isSentinel_iff, harrives]
    rw [hd, undedupValue_absolute hp harrives, hnote]
    exact ⟨h.write, Or.inr rfl⟩

/-- The loop over a list, where the steps of the encoder and of the decoder fit together. -/
theorem mapAccum_supported {α β γ : Type*} {f : ValueDedupState → α → ValueDedupState × β}
    {g : ValueDedupState → β → ValueDedupState × γ} {ω : β → β} {N : Baselines → β → Baselines}
    {C : SupportState → α → Prop} {P : α → γ → Prop}
    (hstep : ∀ (client server : ValueDedupState) (b : Baselines) (a : α), HoldsBaselines b server →
      C (client, b) a → HoldsBaselines (N b (ω (f client a).2)) (g server (ω (f client a).2)).1 ∧
        P a (g server (ω (f client a).2)).2) {as : List α} (h : HoldsBaselines b server)
    (hC : Along (fun s a => ((f s.1 a).1, N s.2 (ω (f s.1 a).2))) C (client, b) as) :
    HoldsBaselines (((mapAccum f client as).2.map ω).foldl N b)
        (mapAccum g server ((mapAccum f client as).2.map ω)).1 ∧
      List.Forall₂ P as (mapAccum g server ((mapAccum f client as).2.map ω)).2 := by
  have hsim := mapAccum_sim
    (f := fun (s : SupportState) a => (((f s.1 a).1, N s.2 (ω (f s.1 a).2)), (f s.1 a).2))
    (g := g) (ω := ω) (I := fun s server => HoldsBaselines s.2 server) (C := C) (P := P)
    (fun s t a hI hCa => hstep s.1 t s.2 a hI hCa) (s := (client, b)) h hC
  rw [mapAccum_along f (fun b e => N b (ω e)) client b as] at hsim
  rwa [List.foldl_map]

theorem undedup_supported_update {u : DeltaUpdate} (h : HoldsBaselines b server)
    (hu : SupportedUpdate m context (client, b) u) :
    HoldsBaselines (noteUpdate context b ((dedupUpdate context client u).2.wire m))
        (undedupUpdate context server ((dedupUpdate context client u).2.wire m)).1 ∧
      ((undedupUpdate context server ((dedupUpdate context client u).2.wire m)).2.leaves
        context).Sublist ((u.leaves context).map (·.wire m)) := by
  obtain ⟨hholds, hvals⟩ := mapAccum_supported (f := dedupValue context) (g := undedupValue context)
    (ω := (·.wire m)) (N := noteValue context) (C := SupportedValue m context)
    (P := fun v o => o = none ∨ o = some (v.wire m))
    (fun _ _ _ _ hb hv => undedup_supported_value hb hv) h hu
  refine ⟨hholds, ?_⟩
  rw [← leaves_wireUpdate]
  exact (reduceOption_sublist hvals).map _

theorem undedup_supported_delta {d : Delta} (h : HoldsBaselines b server)
    (hd : SupportedDelta m (client, b) d) :
    HoldsBaselines (noteDelta b ((dedupDelta client d).2.wire m))
        (undedupDelta server ((dedupDelta client d).2.wire m)).1 ∧
      (undedupDelta server ((dedupDelta client d).2.wire m)).2.leaves.Sublist
        (d.leaves.map (·.wire m)) := by
  obtain ⟨hholds, hupds⟩ := mapAccum_supported (f := dedupUpdate d.context)
    (g := undedupUpdate d.context) (ω := (·.wire m)) (N := noteUpdate d.context)
    (C := SupportedUpdate m d.context)
    (P := fun u (u' : DeltaUpdate) =>
      (u'.leaves d.context).Sublist ((u.leaves d.context).map (·.wire m)))
    (fun _ _ _ _ hb hu => undedup_supported_update hb hu) h hd
  refine ⟨hholds, ?_⟩
  simp only [Delta.leaves, List.map_flatMap]
  exact flatMap_sublist (fun _ _ h => h) hupds

/-- **The codec over a supported batch.** The decoder's cache holds baselines only afterwards, and
what it makes of each delta is a part of what the client put into it, in the same order and with
the same values. -/
theorem undedup_supported {deltas : List Delta} (h : HoldsBaselines b server)
    (hd : Supported m (client, b) deltas) :
    HoldsBaselines (noteDeltaArray b ((dedupDeltaArray client deltas).2.map (·.wire m)))
        (undedupDeltaArray server ((dedupDeltaArray client deltas).2.map (·.wire m))).1 ∧
      List.Forall₂ (fun d d' => d'.leaves.Sublist (d.leaves.map (·.wire m))) deltas
        (undedupDeltaArray server ((dedupDeltaArray client deltas).2.map (·.wire m))).2 :=
  mapAccum_supported (f := dedupDelta) (g := undedupDelta) (ω := (·.wire m)) (N := noteDelta)
    (C := SupportedDelta m)
    (P := fun (d d' : Delta) => d'.leaves.Sublist (d.leaves.map (Leaf.wire m)))
    (fun _ _ _ _ hb hd => undedup_supported_delta hb hd) h hd

end Decoder

end EdgeLink
