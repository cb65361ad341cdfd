import EdgeLink.Foundations.Lists
import Mathlib.Data.List.Perm.Basic

/-!
# Lists of what is at places

A structure has something at some of its places. A list enumerates it where it has an entry for
every such place, and no other: two places with the same thing are two entries.

* `Enumerates.lookup`: the places below the keys of an association list.
* `Enumerates.perm`: two enumerations differ in their order only.
-/

namespace EdgeLink

variable {π π' κ ν β γ : Type*}

/-- `l` has one entry for every place where `read` finds something. -/
def Enumerates (read : π → Option β) (l : List β) : Prop :=
  ∃ places : List π, places.Nodup ∧ (∀ p, p ∈ places ↔ (read p).isSome) ∧
    places.filterMap read = l

namespace Enumerates

variable {read : π → Option β} {l : List β}

theorem empty (h : ∀ p, read p = none) : Enumerates read [] :=
  ⟨[], List.nodup_nil, fun p => by simp [h p], rfl⟩

theorem single {p : π} {b : β} (hp : read p = some b) (h : ∀ q, q ≠ p → read q = none) :
    Enumerates read [b] := by
  refine ⟨[p], List.nodup_singleton p, fun q => ?_, by simp [hp]⟩
  rw [List.mem_singleton]
  by_cases hq : q = p
  · simp [hq, hp]
  · simp [hq, h q hq]

theorem toList (o : Option β) : Enumerates (fun _ : Unit => o) o.toList := by
  cases o with
  | none => exact empty fun _ => rfl
  | some b => exact single (p := ()) rfl fun _ hq => absurd rfl hq

theorem mem_iff (h : Enumerates read l) {b : β} : b ∈ l ↔ ∃ p, read p = some b := by
  obtain ⟨places, -, hplaces, rfl⟩ := h
  rw [List.mem_filterMap]
  refine exists_congr fun p => and_iff_right_of_imp fun hp => ?_
  simp [hplaces, hp]

theorem perm (h : Enumerates read l) {l' : List β} (h' : Enumerates read l') : l.Perm l' := by
  obtain ⟨places, hnodup, hplaces, rfl⟩ := h
  obtain ⟨places', hnodup', hplaces', rfl⟩ := h'
  refine List.Perm.filterMap read ((List.perm_ext_iff_of_nodup hnodup hnodup').2 fun p => ?_)
  rw [hplaces, hplaces']

theorem map (h : Enumerates read l) (g : β → γ) :
    Enumerates (fun p => (read p).map g) (l.map g) := by
  obtain ⟨places, hnodup, hplaces, rfl⟩ := h
  exact ⟨places, hnodup, fun p => by simp [hplaces], (List.map_filterMap ..).symm⟩

/-- Entries from which their place can be told are different. -/
theorem nodup_map (h : Enumerates read l) {key : β → γ}
    (hkey : ∀ p p' b b', read p = some b → read p' = some b' → key b = key b' → p = p') :
    (l.map key).Nodup := by
  obtain ⟨places, hnodup, -, rfl⟩ := h
  rw [List.map_filterMap]
  refine hnodup.filterMap fun p p' c hc hc' => ?_
  obtain ⟨b, hb, rfl⟩ := Option.map_eq_some_iff.1 hc
  obtain ⟨b', hb', heq⟩ := Option.map_eq_some_iff.1 hc'
  exact hkey p p' b b' hb hb' heq.symm

/-- What passes a test is at the places where it does. -/
theorem filter (h : Enumerates read l) (c : β → Bool) :
    Enumerates (fun p => (read p).filter c) (l.filter c) := by
  obtain ⟨places, hnodup, hplaces, rfl⟩ := h
  refine ⟨places.filter fun p => ((read p).filter c).isSome, hnodup.filter _, fun p => ?_, ?_⟩
  · rw [List.mem_filter, hplaces]
    refine and_iff_right_of_imp fun hp => ?_
    obtain ⟨b, hb⟩ := Option.isSome_iff_exists.1 hp
    simp [(Option.filter_eq_some_iff.1 hb).1]
  · rw [List.filter_filterMap, List.filterMap_filter]
    refine List.filterMap_congr fun p _ => ?_
    cases (read p).filter c <;> rfl

/-- The places may be named in another way. -/
theorem embed (h : Enumerates read l) {read' : π' → Option β} {e : π → π'}
    (he : Function.Injective e) (hread : ∀ p, read' (e p) = read p)
    (hrest : ∀ q, (∀ p, e p ≠ q) → read' q = none) : Enumerates read' l := by
  obtain ⟨places, hnodup, hplaces, rfl⟩ := h
  refine ⟨places.map e, hnodup.map he, fun q => ?_, ?_⟩
  · rw [List.mem_map]
    constructor
    · rintro ⟨p, hp, rfl⟩
      rwa [hread, ← hplaces]
    · intro hq
      by_contra hne
      push Not at hne
      refine absurd (hrest q fun p hp => ?_) (Option.isSome_iff_ne_none.1 hq)
      subst hp
      rw [hread, ← hplaces] at hq
      exact hne p hq rfl
  · rw [List.filterMap_map]
    exact List.filterMap_congr fun p _ => hread p

/-- **The rule for association lists.** With keys of their own, the places below the entries are the
key of an entry and a place below it. -/
theorem lookup [DecidableEq κ] (read : κ → ν → π → Option β) (f : κ → ν → List β)
    {es : List (κ × ν)} (hkeys : (es.map Prod.fst).Nodup)
    (h : ∀ e ∈ es, Enumerates (read e.1 e.2) (f e.1 e.2)) :
    Enumerates (fun q : κ × π => (es.lookup q.1).bind fun v => read q.1 v q.2)
      (es.flatMap fun e => f e.1 e.2) := by
  induction es with
  | nil => exact empty fun _ => rfl
  | cons e es ih =>
    obtain ⟨k, v⟩ := e
    obtain ⟨hk, hkeys⟩ := List.nodup_cons.1 hkeys
    obtain ⟨places, hnodup, hplaces, hl⟩ := h (k, v) List.mem_cons_self
    obtain ⟨places', hnodup', hplaces', hl'⟩ := ih hkeys fun e he => h e (List.mem_cons_of_mem _ he)
    have hother : ∀ q ∈ places', q.1 ≠ k := by
      rintro q hq rfl
      refine hk (lookup_isSome_iff.1 ?_)
      have hsome := (hplaces' q).1 hq
      cases hlookup : es.lookup q.1 with
      | none => simp [hlookup] at hsome
      | some v => rfl
    refine ⟨places.map (k, ·) ++ places', ?_, fun q => ?_, ?_⟩
    · refine (hnodup.map fun p p' hp => (Prod.mk.inj hp).2).append hnodup' fun q hq hq' => ?_
      obtain ⟨p, -, rfl⟩ := List.mem_map.1 hq
      exact hother _ hq' rfl
    · obtain ⟨k', p⟩ := q
      dsimp only
      rw [List.mem_append, List.lookup_cons]
      by_cases hkk : k' = k
      · subst hkk
        have hnot : (k', p) ∉ places' := fun hq => hother _ hq rfl
        simp [hnot, hplaces]
      · simp [hplaces', beq_false_of_ne hkk, Ne.symm hkk]
    · rw [List.filterMap_append, List.flatMap_cons, ← hl, ← hl', List.filterMap_map]
      congr 1
      · exact List.filterMap_congr fun p _ => by simp
      · refine List.filterMap_congr fun q hq => ?_
        rw [List.lookup_cons, beq_false_of_ne (hother q hq)]

end Enumerates

end EdgeLink
