import Mathlib.Data.List.Flatten
import Mathlib.Data.List.Nodup
import Mathlib.Data.List.Perm.Basic
import Mathlib.Data.List.ReduceOption

/-!
# Lists

Facts about lists that have no home in the library: what is left of a list of options, what a
`flatMap` makes of related lists, what an association list holds, what appending or overwriting one
entry changes, what a list of writes leaves behind, and when a fold succeeds that may fail.
-/

namespace EdgeLink

variable {α β γ : Type*}

theorem filterMap_eq_self {f : α → Option α} {l : List α} (h : ∀ a ∈ l, f a = some a) :
    l.filterMap f = l := by
  rw [List.filterMap_congr h]
  exact List.filterMap_some

/-- A map that leaves alone what it returns is idempotent on lists. -/
theorem filterMap_idem {f : α → Option α} (h : ∀ {a b}, f a = some b → f b = some b)
    (l : List α) : (l.filterMap f).filterMap f = l.filterMap f := by
  refine filterMap_eq_self fun b hb => ?_
  obtain ⟨a, -, ha⟩ := List.mem_filterMap.1 hb
  exact h ha

theorem reduceOption_map_some (l : List α) : (l.map some).reduceOption = l := by
  rw [List.reduceOption, List.filterMap_map]
  exact List.filterMap_some

/-- Nothing is dropped from a list of options that has as many values as entries. -/
theorem reduceOption_eq_iff {os : List (Option α)} {as : List α} (hlen : os.length = as.length) :
    os.reduceOption = as ↔ os = as.map some := by
  constructor
  · rintro rfl
    have hsome := List.reduceOption_length_eq_iff.1 hlen.symm
    clear hlen
    induction os with
    | nil => rfl
    | cons o os ih =>
      obtain ⟨a, rfl⟩ := Option.isSome_iff_exists.1 (hsome o List.mem_cons_self)
      rw [List.reduceOption_cons_of_some, List.map_cons,
        ← ih fun o ho => hsome o (List.mem_cons_of_mem _ ho)]
  · rintro rfl
    exact reduceOption_map_some as

theorem flatMap_sublist {R : α → β → Prop} {f : α → List γ} {g : β → List γ}
    (hR : ∀ a b, R a b → (g b).Sublist (f a)) {as : List α} {bs : List β}
    (h : List.Forall₂ R as bs) : (bs.flatMap g).Sublist (as.flatMap f) := by
  induction h with
  | nil => exact List.Sublist.refl _
  | cons hab _ ih => exact (hR _ _ hab).append ih

theorem flatMap_filterMap_sublist {f : α → Option β} {g : β → List γ} {h : α → List γ}
    (hf : ∀ a b, f a = some b → (g b).Sublist (h a)) (as : List α) :
    ((as.filterMap f).flatMap g).Sublist (as.flatMap h) := by
  induction as with
  | nil => exact List.Sublist.refl _
  | cons a as ih =>
    rw [List.flatMap_cons]
    cases ha : f a with
    | none =>
      rw [List.filterMap_cons_none ha]
      exact ih.trans (List.sublist_append_right ..)
    | some b =>
      rw [List.filterMap_cons_some ha, List.flatMap_cons]
      exact (hf a b ha).append ih

/-- A filter that lets the first match pass leaves it the first match. -/
theorem find?_of_imp {p q : α → Bool} {l : List α} {a : α} (h : l.find? q = some a) (ha : p a)
    (himp : ∀ b, p b → q b) : l.find? p = some a := by
  obtain ⟨-, before, after, rfl, hbefore⟩ := List.find?_eq_some_iff_append.1 h
  refine List.find?_eq_some_iff_append.2 ⟨ha, before, after, rfl, fun b hb => ?_⟩
  have hq := hbefore b hb
  cases hp : p b with
  | false => rfl
  | true =>
    rw [himp b hp] at hq
    exact hq

theorem find?_filter_of_pass {p q : α → Bool} {l : List α} (h : ∀ a, l.find? q = some a → p a) :
    (l.filter p).find? q = l.find? q := by
  induction l with
  | nil => rfl
  | cons a l ih =>
    cases hq : q a with
    | true =>
      have hp : p a := h a (List.find?_cons_of_pos hq)
      rw [List.filter_cons_of_pos hp, List.find?_cons_of_pos hq, List.find?_cons_of_pos hq]
    | false =>
      have hq : ¬ q a = true := by simp [hq]
      rw [List.find?_cons_of_neg hq] at h ⊢
      rw [List.filter_cons, ← ih h]
      split_ifs
      · exact List.find?_cons_of_neg hq
      · rfl

/-- A list is made up of its entries with each key. -/
theorem flatMap_filter_perm [DecidableEq β] {key : α → β} {ks : List β} (hks : ks.Nodup)
    {l : List α} (hl : ∀ a ∈ l, key a ∈ ks) :
    (ks.flatMap fun k => l.filter fun a => key a = k).Perm l := by
  induction ks generalizing l with
  | nil => rw [List.eq_nil_iff_forall_not_mem.2 fun a ha => List.not_mem_nil (hl a ha)]; rfl
  | cons k ks ih =>
    obtain ⟨hk, hks⟩ := List.nodup_cons.1 hks
    have hrest : (ks.flatMap fun k' => l.filter fun a => key a = k') =
        ks.flatMap fun k' =>
          (l.filter fun a => !decide (key a = k)).filter fun a => key a = k' := by
      refine List.flatMap_congr fun k' hk' => ?_
      rw [List.filter_filter]
      refine List.filter_congr fun a _ => ?_
      have hne : k' ≠ k := fun heq => hk (heq ▸ hk')
      by_cases ha : key a = k' <;> simp [ha, hne]
    rw [List.flatMap_cons, hrest]
    refine ((ih hks fun a ha => ?_).append_left _).trans (List.filter_append_perm ..)
    obtain ⟨hmem, hne⟩ := List.mem_filter.1 ha
    exact (List.mem_cons.1 (hl a hmem)).resolve_left (by simpa using hne)

/-! ## Association lists -/

theorem mem_of_lookup [BEq α] [LawfulBEq α] {l : List (α × β)} {a : α} {b : β}
    (h : l.lookup a = some b) : (a, b) ∈ l := by
  induction l with
  | nil => nomatch h
  | cons entry l ih =>
    obtain ⟨a', b'⟩ := entry
    rw [List.lookup_cons] at h
    split at h
    next heq =>
      obtain rfl := eq_of_beq heq
      obtain rfl := Option.some.inj h
      exact List.mem_cons_self
    next => exact List.mem_cons_of_mem _ (ih h)

theorem lookup_isSome_iff [BEq α] [LawfulBEq α] {l : List (α × β)} {a : α} :
    (l.lookup a).isSome ↔ a ∈ l.map Prod.fst := by
  induction l with
  | nil => simp
  | cons entry l ih =>
    rw [List.lookup_cons]
    split
    next heq => simp [eq_of_beq heq]
    next hne => simpa [ih] using fun h => absurd (h ▸ hne) (by simp)

theorem lookup_eq_some_iff [BEq α] [LawfulBEq α] {l : List (α × β)}
    (hkeys : (l.map Prod.fst).Nodup) {a : α} {b : β} : l.lookup a = some b ↔ (a, b) ∈ l := by
  refine ⟨mem_of_lookup, fun hmem => ?_⟩
  have hsome : (l.lookup a).isSome := lookup_isSome_iff.2 (List.mem_map_of_mem hmem)
  obtain ⟨b', hb'⟩ := Option.isSome_iff_exists.1 hsome
  rw [hb', (Prod.mk.inj (List.inj_on_of_nodup_map hkeys (mem_of_lookup hb') hmem rfl)).2]

theorem keys_of_forall₂ {P : β → γ → Prop} {l : List (α × β)} {l' : List (α × γ)}
    (h : List.Forall₂ (fun e e' => e.1 = e'.1 ∧ P e.2 e'.2) l l') :
    l'.map Prod.fst = l.map Prod.fst := by
  induction h with
  | nil => rfl
  | cons he _ ih => rw [List.map_cons, List.map_cons, ih, he.1]

/-- Entries with the same keys are found together. -/
theorem lookup_of_forall₂ [BEq α] [LawfulBEq α] {P : β → γ → Prop} {l : List (α × β)}
    {l' : List (α × γ)} (h : List.Forall₂ (fun e e' => e.1 = e'.1 ∧ P e.2 e'.2) l l') (a : α) :
    (l.lookup a = none ∧ l'.lookup a = none) ∨
      ∃ b c, l.lookup a = some b ∧ l'.lookup a = some c ∧ P b c := by
  induction h with
  | nil => exact Or.inl ⟨rfl, rfl⟩
  | @cons e e' l l' hP _ ih =>
    obtain ⟨k, b⟩ := e
    obtain ⟨k', c⟩ := e'
    obtain ⟨rfl, hP⟩ : k = k' ∧ P b c := hP
    by_cases ha : a = k
    · subst ha
      exact Or.inr ⟨b, c, by simp, by simp, hP⟩
    · simpa [List.lookup_cons, beq_false_of_ne ha] using ih

/-- Write the entry of a key: in place when there is one, at the end otherwise. -/
def setField [DecidableEq α] : List (α × β) → α → β → List (α × β)
  | [], key, v => [(key, v)]
  | (k, w) :: rest, key, v => if k = key then (k, v) :: rest else (k, w) :: setField rest key v

section SetField

variable [DecidableEq α] {fields : List (α × β)} {key : α} {v : β}

@[simp] theorem lookup_setField (fields : List (α × β)) (key k : α) (v : β) :
    (setField fields key v).lookup k = if k = key then some v else fields.lookup k := by
  induction fields with
  | nil =>
    by_cases hk : k = key
    · simp [setField, hk]
    · simp [setField, List.lookup_cons, hk, beq_false_of_ne hk]
  | cons e fields ih =>
    obtain ⟨k', w⟩ := e
    rw [setField]
    split_ifs with hkey hk hk
    · simp [hkey, hk]
    · subst hkey
      simp [List.lookup_cons, beq_false_of_ne hk]
    · subst hk
      simpa [List.lookup_cons, beq_false_of_ne (Ne.symm hkey)] using ih
    · rw [List.lookup_cons, List.lookup_cons, ih, if_neg hk]

theorem setField_of_lookup (h : fields.lookup key = some v) : setField fields key v = fields := by
  induction fields with
  | nil => nomatch h
  | cons e fields ih =>
    obtain ⟨k, w⟩ := e
    rw [setField]
    split_ifs with hk
    · subst hk
      obtain rfl : w = v := by simpa using h
      rfl
    · rw [List.lookup_cons, beq_false_of_ne (Ne.symm hk)] at h
      rw [ih h]

theorem mem_keys_setField {k : α} (hk : k ∈ (setField fields key v).map Prod.fst) :
    k = key ∨ k ∈ fields.map Prod.fst := by
  rw [← lookup_isSome_iff, lookup_setField] at hk
  split_ifs at hk with heq
  · exact Or.inl heq
  · exact Or.inr (lookup_isSome_iff.1 hk)

theorem nodup_keys_setField (hkeys : (fields.map Prod.fst).Nodup) :
    ((setField fields key v).map Prod.fst).Nodup := by
  induction fields with
  | nil => simp [setField]
  | cons e fields ih =>
    obtain ⟨k, w⟩ := e
    obtain ⟨hk, hkeys⟩ := List.nodup_cons.1 hkeys
    rw [setField]
    split_ifs with heq
    · exact List.nodup_cons.2 ⟨hk, hkeys⟩
    · refine List.nodup_cons.2 ⟨fun hmem => ?_, ih hkeys⟩
      rcases mem_keys_setField hmem with h | h
      · exact heq h
      · exact hk h

end SetField

/-! ## Computations that may fail -/

section Monadic

variable {σ : Type*}

/-- **The rule for folds that may fail.** Where every step succeeds and makes its `Q` true, in
states with `J` and along a preorder `R` that keeps every `Q`, the fold succeeds and makes all
true. -/
theorem foldlM_spec {f : σ → α → Option σ} {J : σ → Prop} {R : σ → σ → Prop} {Q : α → σ → Prop}
    (hrefl : ∀ s, R s s) (htrans : ∀ s s' s'', R s s' → R s' s'' → R s s'')
    (hkeep : ∀ a s s', R s s' → Q a s → Q a s') {l : List α}
    (hstep : ∀ a ∈ l, ∀ s, J s → ∃ s', f s a = some s' ∧ J s' ∧ R s s' ∧ Q a s') {s : σ}
    (hs : J s) : ∃ s', l.foldlM f s = some s' ∧ J s' ∧ R s s' ∧ ∀ a ∈ l, Q a s' := by
  induction l generalizing s with
  | nil => exact ⟨s, rfl, hs, hrefl s, by simp⟩
  | cons a l ih =>
    obtain ⟨s', hf, hJ, hR, hQ⟩ := hstep a List.mem_cons_self s hs
    obtain ⟨s'', hf', hJ', hR', hQ'⟩ := ih (fun a ha => hstep a (List.mem_cons_of_mem _ ha)) hJ
    refine ⟨s'', ?_, hJ', htrans _ _ _ hR hR', List.forall_mem_cons.2 ⟨hkeep a _ _ hR' hQ, hQ'⟩⟩
    rw [List.foldlM_cons, hf]
    exact hf'

theorem mapM_forall₂ {f : β → Option γ} {P : α → γ → Prop} {as : List α} {bs : List β}
    (h : List.Forall₂ (fun a b => ∃ c, f b = some c ∧ P a c) as bs) :
    ∃ cs, bs.mapM f = some cs ∧ List.Forall₂ P as cs := by
  induction h with
  | nil => exact ⟨[], rfl, .nil⟩
  | cons hab _ ih =>
    obtain ⟨c, hf, hP⟩ := hab
    obtain ⟨cs, hcs, hPs⟩ := ih
    exact ⟨c :: cs, by simp [hf, hcs], .cons hP hPs⟩

theorem mapM_spec {f : α → Option β} {P : α → β → Prop} {l : List α}
    (h : ∀ a ∈ l, ∃ b, f a = some b ∧ P a b) :
    ∃ bs, l.mapM f = some bs ∧ List.Forall₂ P l bs :=
  mapM_forall₂ (List.forall₂_same.2 h)

/-- What a loop that stops at the first error has done when it did not stop. -/
theorem forall₂_of_mapM_ok {ε : Type*} {f : α → Except ε β} {l : List α} {bs : List β}
    (h : l.mapM f = .ok bs) : List.Forall₂ (fun a b => f a = .ok b) l bs := by
  induction l generalizing bs with
  | nil =>
    obtain rfl : [] = bs := by simpa [pure, Except.pure] using h
    exact .nil
  | cons a l ih =>
    rw [List.mapM_cons] at h
    cases hf : f a with
    | error e => rw [hf] at h; cases h
    | ok b =>
      cases hl : l.mapM f with
      | error e => rw [hf, hl] at h; cases h
      | ok bs' =>
        rw [hf, hl] at h
        cases h
        exact .cons hf (ih hl)

end Monadic

/-! ## One more entry -/

theorem getElem?_append_singleton {l : List α} {a b : α} {i : ℕ} (h : (l ++ [a])[i]? = some b) :
    l[i]? = some b ∨ (i = l.length ∧ b = a) := by
  rcases Nat.lt_trichotomy i l.length with hi | rfl | hi
  · rw [List.getElem?_append_left hi] at h
    exact Or.inl h
  · rw [List.getElem?_concat_length] at h
    exact Or.inr ⟨rfl, (Option.some.inj h).symm⟩
  · rw [List.getElem?_eq_none (by simp; omega)] at h
    cases h

/-- A list that ends in `x`, split at one of its elements. -/
theorem append_singleton_eq_append_cons {l before after : List α} {x y : α}
    (h : l ++ [x] = before ++ y :: after) :
    (before = l ∧ y = x) ∨ ∃ after', l = before ++ y :: after' := by
  rcases List.eq_nil_or_concat after with rfl | ⟨after', z, rfl⟩
  · obtain ⟨hl, hx⟩ := List.append_inj' h rfl
    exact Or.inl ⟨hl.symm, (List.cons.inj hx).1.symm⟩
  · refine Or.inr ⟨after', ?_⟩
    have h : l ++ [x] = (before ++ y :: after') ++ [z] := by simpa using h
    exact (List.append_inj' h rfl).1

/-! ## Lists of lists -/

/-- An element is in one list of a list of lists without duplicates. -/
theorem eq_of_mem_flatten {ls : List (List α)} (hnodup : ls.flatten.Nodup) {k k' : ℕ}
    {l l' : List α} (hk : ls[k]? = some l) (hk' : ls[k']? = some l') {a : α} (ha : a ∈ l)
    (ha' : a ∈ l') : k = k' := by
  have hdisjoint := List.pairwise_iff_getElem.1 (List.nodup_flatten.1 hnodup).2
  obtain ⟨hlt, rfl⟩ := List.getElem?_eq_some_iff.1 hk
  obtain ⟨hlt', rfl⟩ := List.getElem?_eq_some_iff.1 hk'
  rcases Nat.lt_trichotomy k k' with h | h | h
  · exact absurd ha' (hdisjoint k k' hlt hlt' h ha)
  · exact h
  · exact absurd ha (hdisjoint k' k hlt' hlt h ha')

/-- The elements of a list of lists, by the list they are in. -/
theorem mem_flatten_iff_getElem? {ls : List (List α)} {a : α} :
    a ∈ ls.flatten ↔ ∃ (k : ℕ) (l : List α), ls[k]? = some l ∧ a ∈ l := by
  rw [List.mem_flatten]
  constructor
  · rintro ⟨l, hl, ha⟩
    obtain ⟨k, hk⟩ := List.mem_iff_getElem?.1 hl
    exact ⟨k, l, hk, ha⟩
  · rintro ⟨k, l, hk, ha⟩
    exact ⟨l, List.mem_of_getElem? hk, ha⟩

theorem getElem?_of_forall₂ {R : α → β → Prop} {as : List α} {bs : List β}
    (h : List.Forall₂ R as bs) {k : ℕ} {a : α} (hk : as[k]? = some a) :
    ∃ b, bs[k]? = some b ∧ R a b := by
  obtain ⟨hlt, rfl⟩ := List.getElem?_eq_some_iff.1 hk
  have hlt' : k < bs.length := h.length_eq ▸ hlt
  exact ⟨bs[k], List.getElem?_eq_getElem hlt', h.get hlt hlt'⟩

/-! ## The only entry with a property -/

/-- An entry with a property that no entry of the list had is the one appended. -/
theorem eq_length_of_append_singleton {p : α → Prop} {l : List α} {a b : α} {i : ℕ}
    (hl : ∀ c ∈ l, ¬ p c) (h : (l ++ [a])[i]? = some b) (hb : p b) : i = l.length := by
  rcases getElem?_append_singleton h with hold | ⟨hi, -⟩
  · exact absurd hb (hl b (List.mem_of_getElem? hold))
  · exact hi

/-- An entry of a list with one entry overwritten is the one written, or was there before. -/
theorem getElem?_set_cases {l : List α} {a b : α} {i j : ℕ} (h : (l.set i a)[j]? = some b) :
    (j = i ∧ b = a) ∨ (j ≠ i ∧ l[j]? = some b) := by
  rw [List.getElem?_set] at h
  split_ifs at h with hij
  · exact Or.inl ⟨hij.symm, (Option.some.inj h).symm⟩
  · exact Or.inr ⟨Ne.symm hij, h⟩

/-- An entry with a property that the one written lacks was there before. -/
theorem getElem?_of_set {p : α → Prop} {l : List α} {a b : α} {i j : ℕ} (ha : ¬ p a)
    (h : (l.set i a)[j]? = some b) (hb : p b) : l[j]? = some b := by
  rcases getElem?_set_cases h with ⟨-, rfl⟩ | ⟨-, hold⟩
  · exact absurd hb ha
  · exact hold

/-- Where the only entry with a property is overwritten, an entry with it is the one written. -/
theorem eq_of_set {p : α → Prop} {l : List α} {a b : α} {i j : ℕ}
    (halone : ∀ (j : ℕ) (c : α), l[j]? = some c → p c → i = j)
    (h : (l.set i a)[j]? = some b) (hb : p b) : j = i ∧ b = a := by
  rcases getElem?_set_cases h with hnew | ⟨hne, hold⟩
  · exact hnew
  · exact absurd (halone j b hold hb).symm hne

/-! ## Writes -/

/-- What a list of writes leaves at a place is the last value written there. -/
theorem get_foldl_write {σ κ ν : Type*} [DecidableEq κ] (get : σ → κ → Option ν)
    {write : σ → α → σ} {key : α → κ} {value : α → ν}
    (hget : ∀ s a k, get (write s a) k = if k = key a then some (value a) else get s k) (s : σ)
    (as : List α) (k : κ) :
    get (as.foldl write s) k =
      ((as.reverse.find? fun a => key a = k).map value).or (get s k) := by
  induction as generalizing s with
  | nil => rfl
  | cons a as ih =>
    rw [List.foldl_cons, ih, hget, List.reverse_cons, List.find?_append]
    cases as.reverse.find? fun a => key a = k with
    | some last => rfl
    | none => by_cases hkey : key a = k <;> simp [hkey, Ne.symm]

theorem drop_length_takeWhile {α : Type*} (p : α → Bool) (l : List α) :
    l.drop (l.takeWhile p).length = l.dropWhile p := by
  induction l with
  | nil => rfl
  | cons a l ih =>
    by_cases ha : p a = true
    · simpa [List.takeWhile_cons_of_pos ha, List.dropWhile_cons_of_pos ha] using ih
    · simp [List.takeWhile_cons_of_neg ha, List.dropWhile_cons_of_neg ha]

/-- Where the elements that pass a test come first, the sweep may stop at the first that fails. -/
theorem dropWhile_eq_filter {α : Type*} {R : α → α → Prop} {p : α → Bool}
    (hp : ∀ a b, R a b → p b = true → p a = true) {l : List α} (h : l.Pairwise R) :
    l.dropWhile p = l.filter fun a => !p a := by
  induction l with
  | nil => rfl
  | cons a l ih =>
    rw [List.pairwise_cons] at h
    by_cases ha : p a = true
    · rw [List.dropWhile_cons_of_pos ha, ih h.2, List.filter_cons_of_neg (by simp [ha])]
    · rw [List.dropWhile_cons_of_neg ha, List.filter_eq_self.2]
      intro b hb
      rcases List.mem_cons.1 hb with rfl | hb
      · simpa using ha
      · simpa using mt (hp a b (h.1 b hb)) ha

end EdgeLink
