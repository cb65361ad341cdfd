import EdgeLink.Foundations.OrderedMap
import Mathlib.Data.Finset.Card
import Mathlib.Data.List.Induction

/-!
# Tables of bounded size

A table that adds up, for each key, the items that are entered under it. When a new key comes to a
full table another one goes, with all that was added up for it.

* `TablePolicy.kept_enterAll`: the rule for what is in the table after any items.
* `TablePolicy.leastRecent_enterAll`: the rule for a table that gives up the key that was used
  longest ago.
-/

namespace EdgeLink

variable {κ ν ι : Type*}

/-- The scan for the oldest entry ends at one with the least measure. -/
private theorem foldl_oldest (f : ν → ℤ) (l : List (κ × ν)) (b : κ × ν) :
    ∃ b' ∈ b :: l, l.foldl (fun best e => match best with
        | none => some e
        | some b => if f e.2 < f b.2 then some e else some b) (some b) = some b' ∧
      ∀ e ∈ b :: l, f b'.2 ≤ f e.2 := by
  induction l generalizing b with
  | nil => exact ⟨b, by simp, rfl, by simp⟩
  | cons e l ih =>
    rw [List.foldl_cons]
    dsimp only
    split_ifs with hlt
    · obtain ⟨b', hmem, hfold, hle⟩ := ih e
      have he := hle e List.mem_cons_self
      exact ⟨b', List.mem_cons_of_mem _ hmem, hfold,
        List.forall_mem_cons.2 ⟨he.trans hlt.le, hle⟩⟩
    · obtain ⟨b', hmem, hfold, hle⟩ := ih b
      obtain ⟨hb, hl⟩ := List.forall_mem_cons.1 hle
      refine ⟨b', ?_, hfold, ?_⟩
      · rcases List.mem_cons.1 hmem with rfl | hmem
        · exact List.mem_cons_self
        · exact List.mem_cons_of_mem _ (List.mem_cons_of_mem _ hmem)
      · exact List.forall_mem_cons.2 ⟨hb, List.forall_mem_cons.2 ⟨hb.trans (not_lt.1 hlt), hl⟩⟩

variable [DecidableEq κ]

/-- The entry that is found oldest has the least measure. -/
theorem OrderedMap.le_of_oldestBy {m : OrderedMap κ ν} {f : ν → ℤ} {k k' : κ} {v v' : ν}
    (h : m.oldestBy f = some k) (hv : m.get? k = some v) (hv' : m.get? k' = some v') :
    f v ≤ f v' := by
  obtain ⟨best, hmem, hfold, hle⟩ : ∃ best ∈ m.entries,
      m.oldestBy f = some best.1 ∧ ∀ e ∈ m.entries, f best.2 ≤ f e.2 := by
    rw [oldestBy] at h ⊢
    cases hentries : m.entries with
    | nil => simp [hentries] at h
    | cons e l =>
      obtain ⟨best, hmem, hfold, hle⟩ := foldl_oldest f l e
      exact ⟨best, hmem, congrArg (Option.map Prod.fst) hfold, hle⟩
  obtain rfl : k = best.1 := Option.some.inj (h.symm.trans hfold)
  have hbest := mem_entries.1 hmem
  rw [Option.some.inj (hv.symm.trans hbest)]
  exact hle _ (mem_entries.2 hv')

/-- How the items of a key are added up, and which key goes from a full table. -/
structure TablePolicy (κ ν ι : Type*) where
  capacity : ℕ
  start : ν
  add : ν → ι → ν
  victim : OrderedMap κ ν → Option κ

/-- The items of a key. -/
def itemsOf (k : κ) (log : List (κ × ι)) : List ι :=
  log.filterMap fun e => if e.1 = k then some e.2 else none

/-- The keys of a log. -/
def keysOf (log : List (κ × ι)) : Finset κ := (log.map Prod.fst).toFinset

theorem itemsOf_append (k : κ) (log log' : List (κ × ι)) :
    itemsOf k (log ++ log') = itemsOf k log ++ itemsOf k log' := List.filterMap_append

@[simp] theorem itemsOf_self (k : κ) (a : ι) : itemsOf k [(k, a)] = [a] := by simp [itemsOf]

theorem itemsOf_of_ne {k : κ} {e : κ × ι} (h : e.1 ≠ k) : itemsOf k [e] = [] := by
  simp [itemsOf, h]

theorem mem_keysOf {k : κ} {log : List (κ × ι)} : k ∈ keysOf log ↔ ∃ e ∈ log, e.1 = k := by
  simp [keysOf]

theorem itemsOf_eq_nil {k : κ} {log : List (κ × ι)} (h : k ∉ keysOf log) : itemsOf k log = [] := by
  refine List.filterMap_eq_nil_iff.2 fun e he => if_neg fun hk => ?_
  exact h (mem_keysOf.2 ⟨e, he, hk⟩)

theorem keysOf_concat (log : List (κ × ι)) (e : κ × ι) :
    keysOf (log ++ [e]) = insert e.1 (keysOf log) := by
  ext k
  simp [mem_keysOf, or_and_right, exists_or, eq_comm, or_comm]

namespace TablePolicy

variable (p : TablePolicy κ ν ι)

/-- Let one key go from a full table. -/
def makeRoom (m : OrderedMap κ ν) : OrderedMap κ ν :=
  if m.size < p.capacity then m
  else match p.victim m with
    | none => m
    | some k => m.delete k

/-- Enter an item under a key. -/
def enter (m : OrderedMap κ ν) (e : κ × ι) : OrderedMap κ ν :=
  match m.get? e.1 with
  | some v => m.set e.1 (p.add v e.2)
  | none => (p.makeRoom m).set e.1 (p.add p.start e.2)

def enterAll (log : List (κ × ι)) : OrderedMap κ ν := log.foldl p.enter .empty

/-- What the items of a key add up to. -/
def sumOf (k : κ) (log : List (κ × ι)) : ν := (itemsOf k log).foldl p.add p.start

/-- A table that is not empty has a key that can go. -/
def Sound : Prop := ∀ m : OrderedMap κ ν, 0 < m.size → ∃ k ∈ m.keys, p.victim m = some k

/-- What a table has kept of a log. -/
structure Kept (log : List (κ × ι)) (m : OrderedMap κ ν) : Prop where
  size_eq : m.size = min p.capacity (keysOf log).card
  recent : ∀ k v, m.get? k = some v → ∃ recent, recent <:+ log ∧ k ∈ keysOf recent ∧
    v = p.sumOf k recent
  whole : (keysOf log).card ≤ p.capacity → ∀ k ∈ keysOf log, m.get? k = some (p.sumOf k log)

variable {p} {log : List (κ × ι)} {m : OrderedMap κ ν}

theorem sumOf_concat_self (k : κ) (a : ι) (log : List (κ × ι)) :
    p.sumOf k (log ++ [(k, a)]) = p.add (p.sumOf k log) a := by
  rw [sumOf, itemsOf_append, itemsOf_self, List.foldl_append]
  rfl

theorem sumOf_concat_of_ne {k : κ} {e : κ × ι} (h : e.1 ≠ k) (log : List (κ × ι)) :
    p.sumOf k (log ++ [e]) = p.sumOf k log := by
  rw [sumOf, itemsOf_append, itemsOf_of_ne h, List.append_nil, sumOf]

/-- What becomes of a table when an item is entered. -/
theorem enter_cases (hsound : p.Sound) (hpos : 0 < p.capacity) (e : κ × ι) :
    (∃ v, m.get? e.1 = some v ∧ p.enter m e = m.set e.1 (p.add v e.2)) ∨
      (m.get? e.1 = none ∧ m.size < p.capacity ∧
        p.enter m e = m.set e.1 (p.add p.start e.2)) ∨
      (m.get? e.1 = none ∧ p.capacity ≤ m.size ∧ ∃ k ∈ m.keys, p.victim m = some k ∧
        p.enter m e = (m.delete k).set e.1 (p.add p.start e.2)) := by
  rw [enter]
  cases hget : m.get? e.1 with
  | some v => exact Or.inl ⟨v, rfl, rfl⟩
  | none =>
    refine Or.inr ?_
    dsimp only
    rw [makeRoom]
    split_ifs with hroom
    · exact Or.inl ⟨rfl, hroom, rfl⟩
    · rw [not_lt] at hroom
      obtain ⟨k, hk, hvictim⟩ := hsound m (hpos.trans_le hroom)
      rw [hvictim]
      exact Or.inr ⟨rfl, hroom, k, hk, rfl, rfl⟩

theorem kept_empty : p.Kept [] .empty where
  size_eq := by simp [keysOf]
  recent := by simp
  whole := by simp [keysOf]

theorem Kept.mem_keysOf (h : p.Kept log m) {k : κ} {v : ν} (hget : m.get? k = some v) :
    k ∈ keysOf log := by
  obtain ⟨recent, hsuffix, hk, -⟩ := h.recent k v hget
  obtain ⟨e, he, rfl⟩ := EdgeLink.mem_keysOf.1 hk
  exact EdgeLink.mem_keysOf.2 ⟨e, hsuffix.subset he, rfl⟩

/-- A key that has not gone from a table with room for all keys was not entered. -/
theorem Kept.not_mem_keysOf (h : p.Kept log m) (hcard : (keysOf log).card ≤ p.capacity) {k : κ}
    (hget : m.get? k = none) : k ∉ keysOf log := by
  intro hk
  rw [h.whole hcard k hk] at hget
  cases hget

section Enter

variable {k : κ} {v : ν} {e : κ × ι}

/-- The figure of a key that has another item is one over more items. -/
private theorem recent_concat_self (a : ι)
    (h : ∃ recent, recent <:+ log ∧ k ∈ keysOf recent ∧ v = p.sumOf k recent) :
    ∃ recent, recent <:+ log ++ [(k, a)] ∧ k ∈ keysOf recent ∧ p.add v a = p.sumOf k recent := by
  obtain ⟨recent, ⟨before, rfl⟩, hmem, rfl⟩ := h
  refine ⟨recent ++ [(k, a)], ⟨before, (List.append_assoc ..).symm⟩, ?_, ?_⟩
  · rw [keysOf_concat]
    exact Finset.mem_insert_self ..
  · rw [sumOf_concat_self]

/-- The figure of another key stays. -/
private theorem recent_concat (hne : e.1 ≠ k)
    (h : ∃ recent, recent <:+ log ∧ k ∈ keysOf recent ∧ v = p.sumOf k recent) :
    ∃ recent, recent <:+ log ++ [e] ∧ k ∈ keysOf recent ∧ v = p.sumOf k recent := by
  obtain ⟨recent, ⟨before, rfl⟩, hmem, rfl⟩ := h
  refine ⟨recent ++ [e], ⟨before, (List.append_assoc ..).symm⟩, ?_, ?_⟩
  · rw [keysOf_concat]
    exact Finset.mem_insert_of_mem hmem
  · rw [sumOf_concat_of_ne hne]

/-- The figure of a new key is that of its one item. -/
private theorem recent_new (k : κ) (a : ι) (log : List (κ × ι)) :
    ∃ recent, recent <:+ log ++ [(k, a)] ∧ k ∈ keysOf recent ∧
      p.add p.start a = p.sumOf k recent := by
  refine ⟨[(k, a)], List.suffix_append .., by simp [keysOf], ?_⟩
  rw [sumOf, itemsOf_self]
  rfl

theorem Kept.enter (h : p.Kept log m) (hsound : p.Sound) (hpos : 0 < p.capacity) (e : κ × ι) :
    p.Kept (log ++ [e]) (p.enter m e) := by
  obtain ⟨k, a⟩ := e
  have hsize := h.size_eq
  rcases enter_cases hsound hpos (m := m) (k, a) with
    ⟨v, hget, hm⟩ | ⟨hget, hroom, hm⟩ | ⟨hget, hfull, q, hq, -, hm⟩ <;> rw [hm] <;>
    dsimp only at hget ⊢
  · -- the key is there: so it was entered before, and no new key comes
    have hk := h.mem_keysOf hget
    have hkeys : keysOf (log ++ [(k, a)]) = keysOf log := by
      rw [keysOf_concat, Finset.insert_eq_of_mem hk]
    refine ⟨?_, ?_, ?_⟩
    · rw [OrderedMap.size_set, if_neg (by simp [hget]), hkeys]
      exact hsize
    · refine OrderedMap.forall_get?_set (fun k' v' hne hget' => ?_) ?_
      · exact recent_concat hne.symm (h.recent k' v' hget')
      · exact recent_concat_self a (h.recent k v hget)
    · rw [hkeys]
      intro hcard k' hk'
      have hwhole := h.whole hcard k' hk'
      by_cases hne : k' = k
      · subst hne
        rw [OrderedMap.get?_set_self, sumOf_concat_self, Option.some.inj (hget.symm.trans hwhole)]
      · rw [OrderedMap.get?_set_of_ne _ hne, hwhole, sumOf_concat_of_ne (Ne.symm hne)]
  · -- there is room: nothing has gone yet, and the key is new
    have hcard : (keysOf log).card ≤ p.capacity := by omega
    have hk := h.not_mem_keysOf hcard hget
    have hcard' : (keysOf (log ++ [(k, a)])).card = (keysOf log).card + 1 := by
      rw [keysOf_concat, Finset.card_insert_of_notMem hk]
    refine ⟨?_, ?_, ?_⟩
    · rw [OrderedMap.size_set, if_pos hget]
      omega
    · refine OrderedMap.forall_get?_set (fun k' v' hne hget' => ?_) ?_
      · exact recent_concat hne.symm (h.recent k' v' hget')
      · exact recent_new k a log
    · intro _ k' hk'
      by_cases hne : k' = k
      · subst hne
        rw [OrderedMap.get?_set_self, sumOf_concat_self, sumOf, itemsOf_eq_nil hk]
        rfl
      · rw [keysOf_concat, Finset.mem_insert] at hk'
        rw [OrderedMap.get?_set_of_ne _ hne, sumOf_concat_of_ne (Ne.symm hne)]
        exact h.whole hcard k' (hk'.resolve_left hne)
  · -- there is none: as many keys as fit have been entered before, and this is another one
    have hgone : (m.delete q).get? k = none := by
      rw [OrderedMap.get?_delete, hget, ite_self]
    have hdelete := OrderedMap.size_delete_add_one hq
    have hle : (keysOf log).card ≤ (keysOf (log ++ [(k, a)])).card := by
      rw [keysOf_concat]
      exact Finset.card_le_card (Finset.subset_insert ..)
    refine ⟨?_, ?_, ?_⟩
    · rw [OrderedMap.size_set, if_pos hgone]
      omega
    · refine OrderedMap.forall_get?_set (fun k' v' hne hget' => ?_) ?_
      · rw [OrderedMap.get?_delete] at hget'
        split_ifs at hget'
        exact recent_concat hne.symm (h.recent k' v' hget')
      · exact recent_new k a log
    · intro hcard
      have hk := h.not_mem_keysOf (by omega) hget
      rw [keysOf_concat, Finset.card_insert_of_notMem hk] at hcard
      omega

end Enter

theorem enterAll_concat (log : List (κ × ι)) (e : κ × ι) :
    p.enterAll (log ++ [e]) = p.enter (p.enterAll log) e := by
  rw [enterAll, List.foldl_append]
  rfl

/-- **What is in the table.** After any items there are as many keys as fit, the figure of a key is
what its items have added up to from some item on, and those of all items while every key fits. -/
theorem kept_enterAll (hsound : p.Sound) (hpos : 0 < p.capacity) (log : List (κ × ι)) :
    p.Kept log (p.enterAll log) := by
  induction log using List.reverseRecOn with
  | nil => exact kept_empty
  | append_singleton log e ih =>
    rw [enterAll_concat]
    exact ih.enter hsound hpos e

/-! ## Least recent use -/

section Recency

variable {stamp : ν → ℤ} {time : ι → ℤ}

/-- What has gone was used no later than what is there, and what is there has its last use as its
stamp. -/
def LeastRecent (stamp : ν → ℤ) (time : ι → ℤ) (log : List (κ × ι)) (m : OrderedMap κ ν) : Prop :=
  ∀ k v, m.get? k = some v → ∀ e ∈ log, e.1 = k ∨ e.1 ∉ m.keys → time e.2 ≤ stamp v

/-- The key that was used longest ago can go. -/
theorem LeastRecent.delete (h : LeastRecent stamp time log m) {q : κ} (hq : q ∈ m.keys)
    (hoff : m.oldestBy stamp = some q) : LeastRecent stamp time log (m.delete q) := by
  obtain ⟨vq, hvq⟩ := OrderedMap.mem_keys.1 hq
  intro k v hget e he hkey
  rw [OrderedMap.get?_delete] at hget
  split_ifs at hget
  rw [OrderedMap.mem_keys_delete, not_and] at hkey
  rcases hkey with hk | hgone
  · exact h k v hget e he (Or.inl hk)
  · by_cases heq : e.1 = q
    · exact (h q vq hvq e he (Or.inl heq)).trans (OrderedMap.le_of_oldestBy hoff hvq hget)
    · exact h k v hget e he (Or.inr (hgone heq))

/-- A key is used. -/
theorem LeastRecent.set (h : LeastRecent stamp time log m) {e : κ × ι} {v : ν}
    (hstamp : stamp v = time e.2) (htime : ∀ e' ∈ log, time e'.2 ≤ time e.2) :
    LeastRecent stamp time (log ++ [e]) (m.set e.1 v) := by
  refine OrderedMap.forall_get?_set (fun k' v' hne hget' e' he' hkey => ?_) fun e' he' _ => ?_
  · rw [OrderedMap.mem_keys_set, not_or] at hkey
    rcases List.mem_append.1 he' with he' | he'
    · exact h k' v' hget' e' he' (hkey.imp_right And.right)
    · rw [List.mem_singleton.1 he'] at hkey
      exact absurd rfl (hkey.resolve_left hne.symm).1
  · rw [hstamp]
    rcases List.mem_append.1 he' with he' | he'
    · exact htime e' he'
    · rw [List.mem_singleton.1 he']

/-- **The rule for least recent use.** Where the key with the oldest stamp goes and items come in
the order of time, whatever has gone was used no later than whatever is there. -/
theorem leastRecent_enterAll (hsound : p.Sound) (hpos : 0 < p.capacity)
    (hvictim : p.victim = fun m => m.oldestBy stamp) (hstamp : ∀ v a, stamp (p.add v a) = time a)
    (log : List (κ × ι)) (hclock : log.Pairwise fun e e' => time e.2 ≤ time e'.2) :
    LeastRecent stamp time log (p.enterAll log) := by
  induction log using List.reverseRecOn with
  | nil => simp [LeastRecent]
  | append_singleton log e ih =>
    obtain ⟨hbefore, -, hlast⟩ := List.pairwise_append.1 hclock
    have htime : ∀ e' ∈ log, time e'.2 ≤ time e.2 := fun e' he' => hlast e' he' e (by simp)
    have hrecent := ih hbefore
    rw [enterAll_concat]
    rcases enter_cases hsound hpos (m := p.enterAll log) e with
      ⟨v, -, hm⟩ | ⟨-, -, hm⟩ | ⟨-, -, q, hq, hoff, hm⟩ <;> rw [hm]
    · exact hrecent.set (hstamp ..) htime
    · exact hrecent.set (hstamp ..) htime
    · rw [hvictim] at hoff
      exact (hrecent.delete hq hoff).set (hstamp ..) htime

end Recency

end TablePolicy

end EdgeLink
