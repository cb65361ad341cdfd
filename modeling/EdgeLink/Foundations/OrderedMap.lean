import Mathlib.Algebra.GroupWithZero.Nat
import Mathlib.Data.Int.Notation
import Mathlib.Data.List.Nodup
import Mathlib.Data.List.Basic

/-!
# Insertion-ordered maps

A finite map that iterates in the order its keys were first inserted, as the maps of ECMAScript
do: writing a key that is present keeps its place, and deleting it and writing it again moves it
to the end. The structure carries the proof that no key occurs twice.

* `get?_set`, `get?_delete`, `get?_modify`: what one operation changes of the contents.
* `mem_keys`: the keys are exactly where the map is defined.
* `size_set`, `size_delete_add_one`: the number of entries.
* `set_mapVal`, `delete_mapVal`: rewriting the values commutes with the operations.
-/

namespace EdgeLink

/-- A finite map with its entries in insertion order. -/
structure OrderedMap (κ ν : Type*) where
  /-- the entries, oldest first -/
  entries : List (κ × ν)
  nodup : (entries.map Prod.fst).Nodup
  deriving DecidableEq

namespace OrderedMap

variable {κ ν : Type*}

/-- The map without entries. -/
def empty : OrderedMap κ ν := ⟨[], List.nodup_nil⟩

/-- The map with one entry. -/
def single (k : κ) (v : ν) : OrderedMap κ ν := ⟨[(k, v)], List.nodup_singleton k⟩

/-- The keys, oldest first. -/
def keys (m : OrderedMap κ ν) : List κ := m.entries.map Prod.fst

/-- The values, in the order of their keys. -/
def values (m : OrderedMap κ ν) : List ν := m.entries.map Prod.snd

/-- The number of entries. -/
def size (m : OrderedMap κ ν) : ℕ := m.entries.length

@[simp] theorem keys_empty : (empty : OrderedMap κ ν).keys = [] := rfl

@[simp] theorem size_empty : (empty : OrderedMap κ ν).size = 0 := rfl

theorem ext_entries {m m' : OrderedMap κ ν} (h : m.entries = m'.entries) : m = m' := by
  obtain ⟨l, hl⟩ := m
  obtain ⟨l', hl'⟩ := m'
  obtain rfl : l = l' := h
  rfl

theorem nodup_keys (m : OrderedMap κ ν) : m.keys.Nodup := m.nodup

theorem length_keys (m : OrderedMap κ ν) : m.keys.length = m.size := List.length_map ..

/-- Rewrite every value, keys and order unchanged. -/
def mapVal (m : OrderedMap κ ν) (f : κ → ν → ν) : OrderedMap κ ν :=
  ⟨m.entries.map fun e => (e.1, f e.1 e.2), by
    rw [List.map_map]; exact m.nodup⟩

/-- Keep the entries that pass a test. -/
def filter (m : OrderedMap κ ν) (p : κ → ν → Bool) : OrderedMap κ ν :=
  ⟨m.entries.filter fun e => p e.1 e.2, m.nodup.sublist (List.filter_sublist.map _)⟩

/-- Remove the `n` entries that were inserted first. -/
def dropOldest (m : OrderedMap κ ν) (n : ℕ) : OrderedMap κ ν :=
  ⟨m.entries.drop n, m.nodup.sublist ((List.drop_sublist n _).map _)⟩

theorem size_filter_le (m : OrderedMap κ ν) (p : κ → ν → Bool) : (m.filter p).size ≤ m.size :=
  List.length_filter_le ..

/-- A test that every entry passes removes nothing. -/
theorem filter_eq_self {m : OrderedMap κ ν} {p : κ → ν → Bool} (h : ∀ e ∈ m.entries, p e.1 e.2) :
    m.filter p = m :=
  ext_entries (List.filter_eq_self.2 h)

/-- Two tests one after the other are a test for both. -/
theorem filter_filter (m : OrderedMap κ ν) {p p' p'' : κ → ν → Bool}
    (h : ∀ k v, p'' k v = (p k v && p' k v)) : (m.filter p).filter p' = m.filter p'' := by
  apply ext_entries
  change (m.entries.filter fun e => p e.1 e.2).filter (fun e => p' e.1 e.2) = _
  rw [List.filter_filter]
  exact List.filter_congr fun e _ => by rw [h, Bool.and_comm]

@[simp] theorem size_mapVal (m : OrderedMap κ ν) (f : κ → ν → ν) : (m.mapVal f).size = m.size :=
  List.length_map ..

theorem size_dropOldest (m : OrderedMap κ ν) (n : ℕ) : (m.dropOldest n).size = m.size - n :=
  List.length_drop ..

theorem mem_of_mem_dropOldest {m : OrderedMap κ ν} {n : ℕ} {e : κ × ν}
    (h : e ∈ (m.dropOldest n).entries) : e ∈ m.entries :=
  List.mem_of_mem_drop h

@[simp] theorem keys_mapVal (m : OrderedMap κ ν) (f : κ → ν → ν) :
    (m.mapVal f).keys = m.keys := by
  simp [keys, mapVal, Function.comp_def]

/-- The first key with the least measure. -/
def oldestBy (m : OrderedMap κ ν) (f : ν → ℤ) : Option κ :=
  (m.entries.foldl (fun best e =>
    match best with
    | none => some e
    | some b => if f e.2 < f b.2 then some e else some b) none).map Prod.fst

variable [DecidableEq κ]

/-- The value at a key. -/
def get? (m : OrderedMap κ ν) (k : κ) : Option ν := m.entries.lookup k

/-- Whether a key is present. -/
def has (m : OrderedMap κ ν) (k : κ) : Bool := (m.get? k).isSome

/-- Apply `f` to the value at `k`, if there is one. -/
def modify (m : OrderedMap κ ν) (k : κ) (f : ν → ν) : OrderedMap κ ν :=
  m.mapVal fun k' v => if k' = k then f v else v

/-- Remove a key. -/
def delete (m : OrderedMap κ ν) (k : κ) : OrderedMap κ ν := m.filter fun k' _ => k' ≠ k

theorem get?_eq_none {m : OrderedMap κ ν} {k : κ} : m.get? k = none ↔ k ∉ m.keys := by
  simp only [get?, keys, List.lookup_eq_none_iff, List.mem_map, not_exists, not_and]
  constructor
  · rintro h e he rfl
    simpa using h e he
  · intro h e he
    simpa using fun hk => h e he hk.symm

theorem mem_keys {m : OrderedMap κ ν} {k : κ} : k ∈ m.keys ↔ ∃ v, m.get? k = some v := by
  rw [← Option.isSome_iff_exists, ← not_iff_not, ← get?_eq_none, Option.not_isSome_iff_eq_none]

theorem has_iff {m : OrderedMap κ ν} {k : κ} : m.has k = true ↔ k ∈ m.keys := by
  rw [has, Option.isSome_iff_exists, mem_keys]

private theorem append_nodup {m : OrderedMap κ ν} {k : κ} (h : m.get? k = none) (v : ν) :
    ((m.entries ++ [(k, v)]).map Prod.fst).Nodup := by
  rw [List.map_append]
  refine m.nodup.append (List.nodup_singleton _) fun k' hk' hk => ?_
  obtain rfl := List.mem_singleton.1 hk
  exact get?_eq_none.1 h hk'

/-- Write a value: in place when the key is present, at the end otherwise. -/
def set (m : OrderedMap κ ν) (k : κ) (v : ν) : OrderedMap κ ν :=
  if h : m.get? k = none then ⟨m.entries ++ [(k, v)], append_nodup h v⟩ else m.modify k fun _ => v

@[simp] theorem get?_empty (k : κ) : (empty : OrderedMap κ ν).get? k = none := rfl

private theorem lookup_map_val (f : κ → ν → ν) (k : κ) (l : List (κ × ν)) :
    (l.map fun e => (e.1, f e.1 e.2)).lookup k = (l.lookup k).map (f k) := by
  induction l with
  | nil => rfl
  | cons e l ih =>
    obtain ⟨k', v⟩ := e
    by_cases hk : k = k'
    · subst hk; simp
    · simp [List.lookup_cons, beq_false_of_ne hk, ih]

theorem get?_mapVal (m : OrderedMap κ ν) (f : κ → ν → ν) (k : κ) :
    (m.mapVal f).get? k = (m.get? k).map (f k) := lookup_map_val f k m.entries

theorem get?_modify (m : OrderedMap κ ν) (k k' : κ) (f : ν → ν) :
    (m.modify k f).get? k' = if k' = k then (m.get? k').map f else m.get? k' := by
  rw [modify, get?_mapVal]
  split_ifs with h
  · rfl
  · exact congrFun Option.map_id _

theorem mem_entries {m : OrderedMap κ ν} {k : κ} {v : ν} :
    (k, v) ∈ m.entries ↔ m.get? k = some v := by
  obtain ⟨l, hl⟩ := m
  simp only [get?]
  induction l with
  | nil => simp
  | cons e l ih =>
    obtain ⟨k', v'⟩ := e
    simp only [List.map_cons, List.nodup_cons, List.mem_map, not_exists, not_and] at hl
    by_cases hk : k = k'
    · subst hk
      simp only [List.mem_cons, Prod.mk.injEq, List.lookup_cons, beq_self_eq_true, Option.some.injEq,
        true_and]
      constructor
      · rintro (h | h)
        · exact h.symm
        · exact absurd rfl (hl.1 _ h)
      · rintro rfl
        exact Or.inl rfl
    · simp [List.lookup_cons, beq_false_of_ne hk, hk, ih hl.2]

theorem mem_values {m : OrderedMap κ ν} {v : ν} : v ∈ m.values ↔ ∃ k, m.get? k = some v := by
  simp only [values, List.mem_map, Prod.exists, exists_eq_right, mem_entries]

/-- The values are what the keys have. -/
theorem values_eq_filterMap (m : OrderedMap κ ν) : m.values = m.keys.filterMap m.get? := by
  rw [values, keys, List.filterMap_map, ← List.filterMap_eq_map]
  exact List.filterMap_congr fun e he => (mem_entries.1 he).symm

/-- Writing a key that is not there adds one value. -/
theorem mem_values_set {m : OrderedMap κ ν} {k : κ} (h : k ∉ m.keys) {v w : ν} :
    w ∈ (m.set k v).values ↔ w = v ∨ w ∈ m.values := by
  rw [set, dif_pos (get?_eq_none.2 h)]
  simp [values, or_comm]

theorem get?_filter (m : OrderedMap κ ν) (p : κ → ν → Bool) (k : κ) :
    (m.filter p).get? k = (m.get? k).filter (p k) := by
  apply Option.ext
  intro v
  rw [← mem_entries, Option.filter_eq_some_iff, ← mem_entries]
  exact List.mem_filter

theorem mem_keys_filter {m : OrderedMap κ ν} {p : κ → ν → Bool} {k : κ}
    (h : k ∈ (m.filter p).keys) : k ∈ m.keys := by
  obtain ⟨v, hv⟩ := mem_keys.1 h
  rw [get?_filter] at hv
  exact mem_keys.2 ⟨v, (Option.filter_eq_some_iff.1 hv).1⟩

/-- A key that is gone after a test on the keys did not pass it. -/
theorem not_mem_filter {m : OrderedMap κ ν} {p : κ → Bool} {k : κ} (hk : k ∈ m.keys)
    (h : k ∉ (m.filter fun k _ => p k).keys) : p k = false := by
  obtain ⟨v, hv⟩ := mem_keys.1 hk
  by_contra hp
  refine h (mem_keys.2 ⟨v, ?_⟩)
  rw [get?_filter, hv]
  simpa [Option.filter_eq_some_iff] using hp

theorem get?_delete (m : OrderedMap κ ν) (k k' : κ) :
    (m.delete k).get? k' = if k' = k then none else m.get? k' := by
  rw [delete, get?_filter]
  split_ifs with h <;> cases m.get? k' <;> simp [h]

theorem get?_set (m : OrderedMap κ ν) (k k' : κ) (v : ν) :
    (m.set k v).get? k' = if k' = k then some v else m.get? k' := by
  unfold set
  split_ifs with hn hk hk
  · subst hk
    simp only [get?] at hn ⊢
    simp [List.lookup_append, hn]
  · simp only [get?]
    cases h : m.entries.lookup k' <;> simp [List.lookup_append, h, List.lookup_cons, beq_false_of_ne hk]
  · subst hk
    rw [get?_modify, if_pos rfl]
    obtain ⟨v', hv'⟩ := Option.ne_none_iff_exists'.1 hn
    rw [hv', Option.map_some]
  · rw [get?_modify, if_neg hk]

@[simp] theorem get?_set_self (m : OrderedMap κ ν) (k : κ) (v : ν) :
    (m.set k v).get? k = some v := by rw [get?_set, if_pos rfl]

theorem get?_set_of_ne (m : OrderedMap κ ν) {k k' : κ} (h : k' ≠ k) (v : ν) :
    (m.set k v).get? k' = m.get? k' := by rw [get?_set, if_neg h]

/-- What holds of the entry written and of the others holds of every entry. -/
theorem forall_get?_set {P : κ → ν → Prop} {m : OrderedMap κ ν} {k : κ} {v : ν}
    (h : ∀ k' v', k' ≠ k → m.get? k' = some v' → P k' v') (hv : P k v) (k' : κ) (v' : ν)
    (hget : (m.set k v).get? k' = some v') : P k' v' := by
  rw [get?_set] at hget
  split_ifs at hget with heq
  · rw [heq]
    exact Option.some.inj hget ▸ hv
  · exact h k' v' heq hget

@[simp] theorem get?_delete_self (m : OrderedMap κ ν) (k : κ) : (m.delete k).get? k = none := by
  rw [get?_delete, if_pos rfl]

theorem mem_keys_set {m : OrderedMap κ ν} {k k' : κ} {v : ν} :
    k' ∈ (m.set k v).keys ↔ k' = k ∨ k' ∈ m.keys := by
  simp only [mem_keys, get?_set]
  by_cases h : k' = k <;> simp [h]

theorem mem_keys_delete {m : OrderedMap κ ν} {k k' : κ} :
    k' ∈ (m.delete k).keys ↔ k' ≠ k ∧ k' ∈ m.keys := by
  simp only [mem_keys, get?_delete]
  by_cases h : k' = k <;> simp [h]

/-- Removing a key that is not there changes nothing. -/
theorem delete_of_not_mem {m : OrderedMap κ ν} {k : κ} (h : k ∉ m.keys) : m.delete k = m :=
  filter_eq_self fun _ he => decide_eq_true fun hk => h (hk ▸ List.mem_map_of_mem he)

theorem size_set (m : OrderedMap κ ν) (k : κ) (v : ν) :
    (m.set k v).size = if m.get? k = none then m.size + 1 else m.size := by
  unfold set
  split_ifs with h
  · simp [size]
  · simp [size, modify, mapVal]

@[simp] theorem get?_single_self (k : κ) (v : ν) : (single k v).get? k = some v := by
  simp [get?, single]

@[simp] theorem set_single_self (k : κ) (v w : ν) : (single k v).set k w = single k w := by
  simp [set, single, get?, modify, mapVal]

/-- Rewriting the values commutes with what only looks at the keys. -/
theorem has_mapVal (m : OrderedMap κ ν) (f : κ → ν → ν) (k : κ) :
    (m.mapVal f).has k = m.has k := by
  rw [has, get?_mapVal, Option.isSome_map, has]

theorem delete_mapVal (m : OrderedMap κ ν) (f : κ → ν → ν) (k : κ) :
    (m.mapVal f).delete k = (m.delete k).mapVal f :=
  ext_entries List.filter_map

theorem set_mapVal (m : OrderedMap κ ν) (f : κ → ν → ν) (k : κ) (v : ν) :
    (m.mapVal f).set k (f k v) = (m.set k v).mapVal f := by
  have hnone : (m.mapVal f).get? k = none ↔ m.get? k = none := by
    rw [get?_mapVal, Option.map_eq_none_iff]
  apply ext_entries
  by_cases h : m.get? k = none
  · rw [set, dif_pos (hnone.2 h), set, dif_pos h]
    simp only [mapVal, List.map_append, List.map_singleton]
  · rw [set, dif_neg (mt hnone.1 h), set, dif_neg h]
    simp only [modify, mapVal, List.map_map]
    refine List.map_congr_left fun e _ => ?_
    by_cases he : e.1 = k
    · simp [he]
    · simp [he]

theorem keys_set_of_mem {m : OrderedMap κ ν} {k : κ} (h : k ∈ m.keys) (v : ν) :
    (m.set k v).keys = m.keys := by
  rw [set, dif_neg (fun hn => get?_eq_none.1 hn h), modify, keys_mapVal]

theorem keys_set_of_not_mem {m : OrderedMap κ ν} {k : κ} (h : k ∉ m.keys) (v : ν) :
    (m.set k v).keys = m.keys ++ [k] := by
  rw [set, dif_pos (get?_eq_none.2 h)]
  exact List.map_append

theorem keys_delete (m : OrderedMap κ ν) (k : κ) :
    (m.delete k).keys = m.keys.filter fun k' => k' ≠ k := by
  simp only [keys, delete, filter, List.filter_map, Function.comp_def]

/-- A deletion takes out the one key. -/
theorem keys_delete_append_perm {m : OrderedMap κ ν} {k : κ} (h : k ∈ m.keys) :
    ((m.delete k).keys ++ [k]).Perm m.keys := by
  have herase : m.keys.erase k = (m.delete k).keys := by
    rw [keys_delete, m.nodup_keys.erase_eq_filter]
    refine List.filter_congr fun k' _ => ?_
    by_cases hk : k' = k <;> simp [hk]
  rw [← herase]
  exact (List.perm_append_singleton ..).trans (List.perm_cons_erase h).symm

theorem size_delete_add_one {m : OrderedMap κ ν} {k : κ} (h : k ∈ m.keys) :
    (m.delete k).size + 1 = m.size := by
  have hperm := (keys_delete_append_perm h).length_eq
  rwa [List.length_append, List.length_singleton, length_keys, length_keys] at hperm

/-- What is found after the oldest entries are gone was there before. -/
theorem get?_dropOldest {m : OrderedMap κ ν} {n : ℕ} {k : κ} {v : ν}
    (h : (m.dropOldest n).get? k = some v) : m.get? k = some v :=
  mem_entries.1 (List.mem_of_mem_drop (mem_entries.2 h))

/-- A new value under a key changes a sum over the values by the difference. -/
theorem sum_values_set {m : OrderedMap κ ν} {k : κ} {v : ν} (h : m.get? k = some v) (f : ν → ℕ)
    (w : ν) : ((m.set k w).values.map f).sum + f v = (m.values.map f).sum + f w := by
  rw [set, dif_neg (by simp [h])]
  obtain ⟨l, hl⟩ := m
  simp only [get?, values, modify, mapVal, List.map_map] at h ⊢
  induction l with
  | nil => nomatch h
  | cons e l ih =>
    obtain ⟨k', v'⟩ := e
    obtain ⟨hk', hl⟩ := List.nodup_cons.1 hl
    simp only [List.map_cons, List.sum_cons, Function.comp_apply]
    by_cases hk : k' = k
    · subst hk
      obtain rfl : v' = v := by simpa [List.lookup_cons] using h
      have hrest : l.map (f ∘ Prod.snd ∘ fun e => (e.1, if e.1 = k' then w else e.2)) =
          l.map (f ∘ Prod.snd) := by
        refine List.map_congr_left fun e he => ?_
        have hne : e.1 ≠ k' := fun heq => hk' (List.mem_map.2 ⟨e, he, heq⟩)
        simp [hne]
      rw [hrest, if_pos rfl]
      omega
    · have hne : (k == k') = false := by simpa using Ne.symm hk
      rw [List.lookup_cons, hne] at h
      have := ih hl h
      rw [if_neg hk]
      omega

/-- Where two keys never have the same `f`, the values have no `f` twice. -/
theorem nodup_map_values {α : Type*} {m : OrderedMap κ ν} {f : ν → α}
    (h : ∀ k k' v v', m.get? k = some v → m.get? k' = some v' → f v = f v' → k = k') :
    (m.values.map f).Nodup := by
  rw [values, List.map_map]
  refine List.Nodup.map_on ?_ m.nodup.of_map
  rintro ⟨k, v⟩ he ⟨k', v'⟩ he' heq
  have hv := mem_entries.1 he
  have hv' := mem_entries.1 he'
  obtain rfl := h k k' v v' hv hv' heq
  rw [Option.some.inj (hv.symm.trans hv')]

omit [DecidableEq κ] in
/-- A test splits the keys. -/
theorem keys_filter_append_perm (m : OrderedMap κ ν) (p : κ → ν → Bool) :
    ((m.filter p).keys ++ (m.entries.filter fun e => !p e.1 e.2).map Prod.fst).Perm m.keys := by
  rw [keys, keys, filter, ← List.map_append]
  exact (List.filter_append_perm ..).map _

/-! ## The oldest entry -/

omit [DecidableEq κ] in
/-- A choice between the best entry so far and the next one ends at one of them. -/
private theorem foldl_choice {α : Type*} (choose : Option α → α → Option α)
    (hchoose : ∀ best e, choose best e = some e ∨ (choose best e = best ∧ best ≠ none))
    (l : List α) (best : Option α) :
    (l.foldl choose best = best ∧ (l = [] ∨ best ≠ none)) ∨
      ∃ e ∈ l, l.foldl choose best = some e := by
  induction l generalizing best with
  | nil => exact Or.inl ⟨rfl, Or.inl rfl⟩
  | cons a l ih =>
    rw [List.foldl_cons]
    rcases ih (choose best a) with ⟨hl, -⟩ | ⟨e, he, hl⟩
    · rcases hchoose best a with ha | ⟨ha, hbest⟩
      · exact Or.inr ⟨a, List.mem_cons_self, hl.trans ha⟩
      · exact Or.inl ⟨hl.trans ha, Or.inr hbest⟩
    · exact Or.inr ⟨e, List.mem_cons_of_mem _ he, hl⟩

omit [DecidableEq κ] in
/-- A map that is not empty has an oldest entry. -/
theorem exists_oldestBy {m : OrderedMap κ ν} (hm : 0 < m.size) (f : ν → ℤ) :
    ∃ k ∈ m.keys, m.oldestBy f = some k := by
  rcases foldl_choice (fun best e => match best with
    | none => some e
    | some b => if f e.2 < f b.2 then some e else some b) (fun best e => by
      cases best with
      | none => exact Or.inl rfl
      | some b =>
        by_cases hlt : f e.2 < f b.2
        · exact Or.inl (if_pos hlt)
        · exact Or.inr ⟨if_neg hlt, Option.some_ne_none b⟩) m.entries none with
    ⟨-, hnil | hnone⟩ | ⟨e, he, hbest⟩
  · rw [size, hnil] at hm
    exact absurd hm (Nat.lt_irrefl 0)
  · exact absurd rfl hnone
  · exact ⟨e.1, List.mem_map_of_mem he, congrArg (Option.map Prod.fst) hbest⟩

end OrderedMap

end EdgeLink
