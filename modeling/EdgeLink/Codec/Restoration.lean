import EdgeLink.Codec.Baselines
import EdgeLink.Foundations.Lists

/-!
# When a decoder restores a batch

The encoder's cache outlives the session in which the decoder has its own. A sentinel is expanded
to what the encoder has replaced exactly when the decoder's cache holds that value.

* `Restorable`: the decoder's cache holds the value of every sentinel in a batch, at the time the
  sentinel reaches it.
* `undedup_restores_iff`: this is when the decoder gets the whole batch.
-/

namespace EdgeLink

open JsValue

/-- The state of the encoder and that of the decoder. -/
abbrev CodecState := ValueDedupState × ValueDedupState

section Restorable

variable (m : Bool) (context : Option String)

/-- If the value arrives as a sentinel, the decoder's cache holds what it stands for. -/
def RestorableValue (s : CodecState) (v : DeltaValue) : Prop :=
  v.path ≠ "" → isSentinel ((dedupValue context s.1 v).2.value.wire m) →
    v.value.wire m ≠ .undefined ∧ s.2.lookup (cacheKey context v.path) = v.value.wire m

instance (s : CodecState) (v : DeltaValue) : Decidable (RestorableValue m context s v) :=
  inferInstanceAs (Decidable (_ → _ → _))

def restoreValue (s : CodecState) (v : DeltaValue) : CodecState :=
  let r := dedupValue context s.1 v
  (r.1, (undedupValue context s.2 (r.2.wire m)).1)

def RestorableUpdate (s : CodecState) (update : DeltaUpdate) : Prop :=
  Along (restoreValue m context) (RestorableValue m context) s update.values

instance (s : CodecState) (update : DeltaUpdate) : Decidable (RestorableUpdate m context s update) :=
  inferInstanceAs (Decidable (Along ..))

def restoreUpdate (s : CodecState) (update : DeltaUpdate) : CodecState :=
  let r := dedupUpdate context s.1 update
  (r.1, (undedupUpdate context s.2 (r.2.wire m)).1)

def RestorableDelta (s : CodecState) (delta : Delta) : Prop :=
  Along (restoreUpdate m delta.context) (RestorableUpdate m delta.context) s delta.updates

instance (s : CodecState) (delta : Delta) : Decidable (RestorableDelta m s delta) :=
  inferInstanceAs (Decidable (Along ..))

def restoreDelta (s : CodecState) (delta : Delta) : CodecState :=
  let r := dedupDelta s.1 delta
  (r.1, (undedupDelta s.2 (r.2.wire m)).1)

/-- The decoder's cache holds the value of every sentinel that it is given of a batch. -/
def Restorable (s : CodecState) (deltas : List Delta) : Prop :=
  Along (restoreDelta m) (RestorableDelta m) s deltas

instance (s : CodecState) (deltas : List Delta) : Decidable (Restorable m s deltas) :=
  inferInstanceAs (Decidable (Along ..))

end Restorable

section Decoder

variable {m : Bool} {context : Option String} {client server : ValueDedupState}

theorem restorableValue_iff (v : DeltaValue) :
    RestorableValue m context (client, server) v ↔
      (undedupValue context server ((dedupValue context client v).2.wire m)).2 =
        some (v.wire m) := by
  by_cases hp : v.path = ""
  · rw [dedupValue_noPath hp, undedupValue_noPath (show (v.wire m).path = "" from hp)]
    exact iff_of_true (fun hne => absurd hp hne) rfl
  by_cases hs : isSentinel ((dedupValue context client v).2.value.wire m)
  · -- a sentinel: the decoder makes of it what its cache holds
    have hcond : RestorableValue m context (client, server) v ↔ v.value.wire m ≠ .undefined ∧
        server.lookup (cacheKey context v.path) = v.value.wire m :=
      ⟨fun h => h hp hs, fun h _ _ => h⟩
    rw [hcond, wire_of_isSentinel hs, undedupValue_sentinel m hp]
    split_ifs with hnone
    · rw [hnone]
      exact iff_of_false (fun h => absurd h.2.symm h.1) nofun
    · constructor
      · rintro ⟨-, hheld⟩
        rw [hheld]
        rfl
      · intro h
        have hheld : server.lookup (cacheKey context v.path) = v.value.wire m :=
          congrArg DeltaValue.value (Option.some.inj h)
        exact ⟨hheld ▸ hnone, hheld⟩
  · -- the value itself
    obtain ⟨hd, harrives⟩ := dedupValue_of_not_isSentinel hs
    have hu : (undedupValue context server ((dedupValue context client v).2.wire m)).2 =
        some (v.wire m) := by rw [hd, undedupValue_absolute hp harrives]
    exact ⟨fun _ => hu, fun _ _ hsent => absurd hsent hs⟩

/-- The loop over a list gives every entry back exactly when each step does. -/
theorem mapAccum_restores_iff {α β γ : Type*} {f : ValueDedupState → α → ValueDedupState × β}
    {g : ValueDedupState → β → ValueDedupState × γ} {ω : β → β} {C : CodecState → α → Prop}
    {h : α → γ}
    (hstep : ∀ (client server : ValueDedupState) (a : α),
      C (client, server) a ↔ (g server (ω (f client a).2)).2 = h a) (as : List α) :
    Along (fun s a => ((f s.1 a).1, (g s.2 (ω (f s.1 a).2)).1)) C (client, server) as ↔
      (mapAccum g server ((mapAccum f client as).2.map ω)).2 = as.map h := by
  induction as generalizing client server with
  | nil => exact ⟨fun _ => rfl, fun _ => trivial⟩
  | cons a as ih =>
    rw [Along, hstep, ih, mapAccum_cons, List.map_cons, mapAccum_cons, List.map_cons]
    exact List.cons_eq_cons.symm

theorem restorableUpdate_iff (u : DeltaUpdate) :
    RestorableUpdate m context (client, server) u ↔
      (undedupUpdate context server ((dedupUpdate context client u).2.wire m)).2 = u.wire m := by
  have hmap : u.values.map (fun v => some (v.wire m)) = (u.values.map (·.wire m)).map some := by
    rw [List.map_map]
    rfl
  refine (mapAccum_restores_iff (f := dedupValue context) (g := undedupValue context)
    (ω := (·.wire m)) (fun _ _ v => restorableValue_iff v) u.values).trans ?_
  rw [hmap, ← reduceOption_eq_iff (by simp)]
  constructor
  · intro h
    exact congrArg (fun values => { u with values := values }) h
  · exact congrArg DeltaUpdate.values

theorem restorableDelta_iff (d : Delta) :
    RestorableDelta m (client, server) d ↔
      (undedupDelta server ((dedupDelta client d).2.wire m)).2 = d.wire m := by
  refine (mapAccum_restores_iff (f := dedupUpdate d.context) (g := undedupUpdate d.context)
    (ω := (·.wire m)) (fun _ _ u => restorableUpdate_iff u) d.updates).trans ?_
  constructor
  · intro h
    exact congrArg (fun updates => { d with updates := updates }) h
  · exact congrArg Delta.updates

/-- **When the decoder gets a batch whole.** -/
theorem undedup_restores_iff (deltas : List Delta) :
    Restorable m (client, server) deltas ↔
      (undedupDeltaArray server ((dedupDeltaArray client deltas).2.map (·.wire m))).2 =
        deltas.map (·.wire m) :=
  mapAccum_restores_iff (f := dedupDelta) (g := undedupDelta) (ω := (·.wire m))
    (fun _ _ d => restorableDelta_iff d) deltas

end Decoder

end EdgeLink
