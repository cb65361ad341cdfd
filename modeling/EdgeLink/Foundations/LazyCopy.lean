import EdgeLink.Foundations.ObjectHeap

/-!
# Filtering an array without copying it

A loop over an array that may keep, drop or replace every item, and that makes a new array only when
the first item is dropped or replaced: the items before it are copied then, and the later ones are
pushed one by one. The objects live in a store, where an object is named by its address, and a loop
may allocate more than its copy.

What a value of the store stands for is a relation `D` between what is seen of the store and a
datum, kept when more is seen.

* `View`: what is seen of a store; `Shown` is their order, `fresh` what a computation adds.
* `Refines`: an operation on the items does what `g` does on data.
* `copyOnChange_spec`: then the loop makes the array of `ts.filterMap g`, leaves every old object
  as it was, and copies nothing when `g` changes nothing.
-/

namespace EdgeLink.LazyCopy

variable {κ ν τ : Type*}

/-- An object of a store. -/
inductive StoredObject (κ ν : Type*) where
  | array (items : List (Cell ℕ ν))
  | record (fields : List (κ × Cell ℕ ν))

/-- Objects by their addresses. -/
abbrev Store (κ ν : Type*) := List (StoredObject κ ν)

/-- What is seen of a store. -/
abbrev View (κ ν : Type*) := ℕ → Option (StoredObject κ ν)

/-! ## Views -/

/-- What is seen in `v` is seen unchanged in `v'`. -/
def Shown (v v' : View κ ν) : Prop := ∀ a o, v a = some o → v' a = some o

theorem Shown.refl (v : View κ ν) : Shown v v := fun _ _ h => h

theorem Shown.trans {v v' v'' : View κ ν} (h : Shown v v') (h' : Shown v' v'') :
    Shown v v'' :=
  fun a o ha => h' a o (h a o ha)

namespace Store

/-- All of a store. -/
def view (s : Store κ ν) : View κ ν := fun a => s[a]?

/-- Add an item to an array. -/
def push (s : Store κ ν) (a : ℕ) (c : Cell ℕ ν) : Store κ ν :=
  s.modify a fun
    | .array items => .array (items ++ [c])
    | o => o

/-- The items of an array, `none` for a value that is no array. -/
def arrayItems (s : Store κ ν) : Cell ℕ ν → Option (List (Cell ℕ ν))
  | .object a =>
    match s[a]? with
    | some (.array items) => some items
    | _ => none
  | .value _ => none

theorem shown_append (s : Store κ ν) (new : List (StoredObject κ ν)) :
    Shown s.view (s ++ new).view := by
  intro a o ha
  exact (List.getElem?_append_left (List.getElem?_eq_some_iff.1 ha).1).trans ha

theorem length_le {s s' : Store κ ν} (h : Shown s.view s'.view) : s.length ≤ s'.length := by
  by_contra hlt
  have hlast := List.getElem?_eq_getElem (l := s) (i := s'.length) (by omega)
  exact absurd (List.getElem?_eq_some_iff.1 (h _ _ hlast)).1 (Nat.lt_irrefl _)

theorem getElem?_push_of_ne (s : Store κ ν) {a b : ℕ} (hab : b ≠ a) (c : Cell ℕ ν) :
    (s.push a c)[b]? = s[b]? := by
  rw [push, List.getElem?_modify]
  simp [Ne.symm hab]

theorem getElem?_push_self {s : Store κ ν} {a : ℕ} {items : List (Cell ℕ ν)}
    (ha : s[a]? = some (.array items)) (c : Cell ℕ ν) :
    (s.push a c)[a]? = some (.array (items ++ [c])) := by
  rw [push, List.getElem?_modify, ha]
  simp

end Store

/-- The view `base` of a store of `n` objects, and what has been allocated since. -/
def fresh (base : View κ ν) (n : ℕ) (s : Store κ ν) : View κ ν :=
  fun a => if a < n then base a else s[a]?

/-- All but one object. -/
def hide (a : ℕ) (v : View κ ν) : View κ ν := fun b => if b = a then none else v b

theorem hide_shown (a : ℕ) (v : View κ ν) : Shown (hide a v) v := by
  intro b o hb
  unfold hide at hb
  split_ifs at hb
  exact hb

theorem hide_mono {v v' : View κ ν} (h : Shown v v') (a : ℕ) : Shown (hide a v) (hide a v') := by
  intro b o hb
  unfold hide at hb ⊢
  split_ifs at hb ⊢
  exact h b o hb

section Fresh

variable {base : View κ ν} {s s' : Store κ ν}

theorem shown_fresh (hbase : Shown base s.view) (s' : Store κ ν) :
    Shown base (fresh base s.length s') := by
  intro a o ha
  rw [fresh, if_pos (List.getElem?_eq_some_iff.1 (hbase a o ha)).1]
  exact ha

theorem fresh_shown (hbase : Shown base s'.view) (n : ℕ) : Shown (fresh base n s') s'.view := by
  intro a o ha
  unfold fresh at ha
  split_ifs at ha
  · exact hbase a o ha
  · exact ha

/-- What a later part of a computation adds, the whole adds. -/
theorem fresh_mono (hbase : Shown base s.view) (h : Shown s.view s'.view) (s'' : Store κ ν) :
    Shown (fresh base s'.length s'') (fresh base s.length s'') := by
  intro a o ha
  unfold fresh at ha ⊢
  split_ifs at ha with hlt
  · rwa [if_pos (List.getElem?_eq_some_iff.1 (hbase a o ha)).1]
  · rwa [if_neg (fun hlt' => hlt (Nat.lt_of_lt_of_le hlt' (Store.length_le h)))]

theorem fresh_store_mono (h : Shown s.view s'.view) (base : View κ ν) (n : ℕ) :
    Shown (fresh base n s) (fresh base n s') := by
  intro a o ha
  unfold fresh at ha ⊢
  split_ifs at ha ⊢
  · exact ha
  · exact h a o ha

end Fresh

/-! ## The loop -/

/-- What becomes of an item. -/
inductive Outcome (ν : Type*) where
  | drop
  | keep
  | replace (c : Cell ℕ ν)

/-- The state of the loop: the copy, once there is one, and the number of items so far that stay. -/
structure CopyLoop (κ ν : Type*) where
  store : Store κ ν
  copy : Option ℕ
  kept : ℕ

namespace CopyLoop

/-- Make the copy, of the items before this one, if there is none. -/
def materialise (st : CopyLoop κ ν) (before : List (Cell ℕ ν)) : CopyLoop κ ν :=
  match st.copy with
  | some _ => st
  | none => { st with store := st.store ++ [.array before], copy := some st.store.length }

/-- An item stays, and goes to the copy if there is one. -/
def accept (st : CopyLoop κ ν) (c : Cell ℕ ν) : CopyLoop κ ν :=
  { st with
    store := match st.copy with
      | some a => st.store.push a c
      | none => st.store
    kept := st.kept + 1 }

end CopyLoop

section Loop

variable (f : Store κ ν → Cell ℕ ν → Store κ ν × Outcome ν)

/-- One item, after the items `before`. -/
def copyStep (before : List (Cell ℕ ν)) (st : CopyLoop κ ν) (item : Cell ℕ ν) : CopyLoop κ ν :=
  let r := f st.store item
  let st := { st with store := r.1 }
  match r.2 with
  | .drop => st.materialise before
  | .keep => st.accept item
  | .replace c => (st.materialise before).accept c

def copyLoop (before : List (Cell ℕ ν)) (st : CopyLoop κ ν) : List (Cell ℕ ν) → CopyLoop κ ν
  | [] => st
  | item :: rest => copyLoop (before ++ [item]) (copyStep f before st item) rest

/-- Filter an array, with a copy from the first change on. -/
def copyOnChange (s : Store κ ν) (items : List (Cell ℕ ν)) : CopyLoop κ ν :=
  copyLoop f [] ⟨s, none, 0⟩ items

end Loop

/-! ## Its meaning -/

/-- What a value stands for is kept when more is seen. -/
structure Stable (D : View κ ν → τ → Cell ℕ ν → Prop) : Prop where
  mono : ∀ {v v' t c}, Shown v v' → D v t c → D v' t c

/-- On everything that `base` shows, `f` does what `g` does on data, and leaves every object as it
was. -/
structure Refines (D : View κ ν → τ → Cell ℕ ν → Prop) (base : View κ ν)
    (f : Store κ ν → Cell ℕ ν → Store κ ν × Outcome ν) (g : τ → Option τ) : Prop where
  shown : ∀ {s t c}, Shown base s.view → D base t c → Shown s.view (f s c).1.view
  drop : ∀ {s t c}, Shown base s.view → D base t c → (f s c).2 = .drop → g t = none
  replace : ∀ {s t c c'}, Shown base s.view → D base t c → (f s c).2 = .replace c' →
    ∃ t', g t = some t' ∧ D (fresh base s.length (f s c).1) t' c'
  keep : ∀ {s t c}, Shown base s.view → D base t c → (f s c).2 = .keep → g t = some t
  /-- what does not change is kept, and nothing is allocated -/
  same : ∀ {s t c}, Shown base s.view → D base t c → g t = some t → f s c = (s, .keep)

/-- **The invariant of the loop** after items that stand for `ts`. -/
structure Copied (D : View κ ν → τ → Cell ℕ ν → Prop) (base : View κ ν) (g : τ → Option τ)
    (s : Store κ ν) (ts : List τ) (st : CopyLoop κ ν) : Prop where
  shown : Shown s.view st.store.view
  kept : st.kept = (ts.filterMap g).length
  uncopied : st.copy = none → ∀ t ∈ ts, g t = some t
  copied : ∀ a, st.copy = some a → s.length ≤ a ∧ ∃ out, st.store[a]? = some (.array out) ∧
    List.Forall₂ (D (hide a (fresh base s.length st.store))) (ts.filterMap g) out

section Spec

variable {D : View κ ν → τ → Cell ℕ ν → Prop}
  (hD : Stable D)
  {base : View κ ν} {f : Store κ ν → Cell ℕ ν → Store κ ν × Outcome ν} {g : τ → Option τ}
  {s : Store κ ν} {ts : List τ} {t : τ} {before : List (Cell ℕ ν)} {st : CopyLoop κ ν}

/-- A dropped item leaves a loop that copies as it is. -/
theorem Copied.drop (h : Copied D base g s ts st) {a : ℕ} (ha : st.copy = some a)
    (hg : g t = none) : Copied D base g s (ts ++ [t]) st := by
  have hsame : (ts ++ [t]).filterMap g = ts.filterMap g := by simp [hg]
  refine ⟨h.shown, hsame ▸ h.kept, fun hnone => ?_, hsame ▸ h.copied⟩
  rw [ha] at hnone
  nomatch hnone

/-- What the operation on an item has made is not the copy. -/
theorem Copied.fresh_shown (hbase : Shown base s.view) (h : Copied D base g s ts st)
    {s' : Store κ ν} (hs' : Shown st.store.view s'.view) {a : ℕ}
    (ha : (CopyLoop.materialise { st with store := s' } before).copy = some a) :
    Shown (fresh base st.store.length s') (hide a (fresh base s.length
      (CopyLoop.materialise { st with store := s' } before).store)) := by
  have hlen : s.length ≤ st.store.length := Store.length_le h.shown
  have hlen' : st.store.length ≤ s'.length := Store.length_le hs'
  have hcopy : s.length ≤ a ∧ (a < st.store.length ∨ a = s'.length) ∧
      Shown s'.view (CopyLoop.materialise { st with store := s' } before).store.view := by
    cases hcopy : st.copy with
    | some a' =>
      simp only [CopyLoop.materialise, hcopy] at ha ⊢
      obtain rfl := Option.some.inj ha
      obtain ⟨hle, out, hout, -⟩ := h.copied a' hcopy
      exact ⟨hle, Or.inl (List.getElem?_eq_some_iff.1 hout).1, .refl _⟩
    | none =>
      simp only [CopyLoop.materialise, hcopy] at ha ⊢
      obtain rfl := Option.some.inj ha
      exact ⟨Nat.le_trans hlen hlen', Or.inr rfl, Store.shown_append s' _⟩
  obtain ⟨hle, hplace, hmade⟩ := hcopy
  intro b o hb
  unfold fresh at hb
  split_ifs at hb with hold
  · have hlt : b < s.length := (List.getElem?_eq_some_iff.1 (hbase b o hb)).1
    rw [hide, if_neg (by omega), fresh, if_pos hlt]
    exact hb
  · have hlt : b < s'.length := (List.getElem?_eq_some_iff.1 hb).1
    rw [hide, if_neg (by omega), fresh, if_neg (by omega)]
    exact hmade b o hb

include hD

/-- The operation on an item may allocate. -/
theorem Copied.extend (h : Copied D base g s ts st) {s' : Store κ ν}
    (hs' : Shown st.store.view s'.view) : Copied D base g s ts { st with store := s' } := by
  refine ⟨h.shown.trans hs', h.kept, h.uncopied, fun a ha => ?_⟩
  obtain ⟨hle, out, hout, hitems⟩ := h.copied a ha
  exact ⟨hle, out, hs' a _ hout,
    hitems.imp fun _ _ => hD.mono (hide_mono (fresh_store_mono hs' base s.length) a)⟩

/-- The copy is made of the items before, which have all stayed as they were. -/
theorem Copied.materialise (hbase : Shown base s.view) (h : Copied D base g s ts st)
    (hbefore : List.Forall₂ (D base) ts before) :
    Copied D base g s ts (st.materialise before) ∧
      ∃ a, (st.materialise before).copy = some a := by
  unfold CopyLoop.materialise
  split
  next a ha => exact ⟨h, a, ha⟩
  next hnone =>
    have hsame : ts.filterMap g = ts := filterMap_eq_self (h.uncopied hnone)
    have hlen : s.length ≤ st.store.length := Store.length_le h.shown
    have hshown := Store.shown_append st.store [.array before]
    refine ⟨⟨h.shown.trans hshown, h.kept, (fun hcopy => nomatch hcopy),
      fun a ha => ?_⟩, _, rfl⟩
    obtain rfl : st.store.length = a := Option.some.inj ha
    refine ⟨hlen, before, List.getElem?_concat_length, ?_⟩
    rw [hsame]
    refine hbefore.imp fun _ _ => hD.mono fun b o hb => ?_
    -- the copy is not among the objects that `base` shows
    have hlt : b < s.length := (List.getElem?_eq_some_iff.1 (hbase b o hb)).1
    rw [hide, if_neg (by omega), fresh, if_pos hlt]
    exact hb

/-- An item goes to the copy. -/
theorem Copied.accept_copy (h : Copied D base g s ts st) {a : ℕ} (ha : st.copy = some a) {t' : τ}
    (hg : g t = some t') {c : Cell ℕ ν} (hc : D (hide a (fresh base s.length st.store)) t' c) :
    Copied D base g s (ts ++ [t]) (st.accept c) := by
  obtain ⟨hle, out, hout, hitems⟩ := h.copied a ha
  have hstore : (st.accept c).store = st.store.push a c := by
    simp [CopyLoop.accept, ha]
  have hview : ∀ b ≠ a, (st.accept c).store[b]? = st.store[b]? := fun b hb => by
    rw [hstore, Store.getElem?_push_of_ne _ hb]
  have hhide : Shown (hide a (fresh base s.length st.store))
      (hide a (fresh base s.length (st.accept c).store)) := by
    intro b o hb
    unfold hide fresh at hb ⊢
    split_ifs at hb ⊢ with hba hlt
    · exact hb
    · rwa [hview b hba]
  refine ⟨fun b o hb => ?_, ?_, fun hnone => ?_, fun b hb => ?_⟩
  · have hlt : b < s.length := (List.getElem?_eq_some_iff.1 hb).1
    exact (hview b (by omega)).trans (h.shown b o hb)
  · rw [List.filterMap_append, List.length_append, ← h.kept]
    simp [CopyLoop.accept, hg]
  · have hcopy : st.copy = none := hnone
    rw [ha] at hcopy
    nomatch hcopy
  · obtain rfl : a = b := Option.some.inj (ha.symm.trans hb)
    refine ⟨hle, out ++ [c], ?_, ?_⟩
    · rw [hstore, Store.getElem?_push_self hout]
    · rw [List.filterMap_append, List.filterMap_cons, hg]
      exact List.rel_append (hitems.imp fun _ _ => hD.mono hhide) (.cons (hD.mono hhide hc) .nil)

/-- An item stays as it is. -/
theorem Copied.accept (hbase : Shown base s.view) (h : Copied D base g s ts st)
    (hg : g t = some t) {c : Cell ℕ ν} (hc : D base t c) :
    Copied D base g s (ts ++ [t]) (st.accept c) := by
  cases hcopy : st.copy with
  | none =>
    have hstore : (st.accept c).store = st.store := by simp [CopyLoop.accept, hcopy]
    refine ⟨hstore ▸ h.shown, ?_, fun _ t' ht' => ?_, fun a ha => ?_⟩
    · rw [List.filterMap_append, List.length_append, ← h.kept]
      simp [CopyLoop.accept, hg]
    · rcases List.mem_append.1 ht' with ht' | ht'
      · exact h.uncopied hcopy t' ht'
      · rw [List.mem_singleton.1 ht']
        exact hg
    · have hnone : st.copy = some a := ha
      rw [hcopy] at hnone
      nomatch hnone
  | some a =>
    refine h.accept_copy hD hcopy hg (hD.mono (fun b o hb => ?_) hc)
    have hlt : b < s.length := (List.getElem?_eq_some_iff.1 (hbase b o hb)).1
    have hle := (h.copied a hcopy).1
    rw [hide, if_neg (by omega), fresh, if_pos hlt]
    exact hb

theorem Copied.step (hbase : Shown base s.view) (hf : Refines D base f g)
    (h : Copied D base g s ts st) (hbefore : List.Forall₂ (D base) ts before) {item : Cell ℕ ν}
    (hitem : D base t item) : Copied D base g s (ts ++ [t]) (copyStep f before st item) := by
  have hshows : Shown base st.store.view := hbase.trans h.shown
  have hnext := h.extend hD (hf.shown hshows hitem)
  unfold copyStep
  dsimp only
  split
  next hdrop =>
    obtain ⟨hcopied, a, ha⟩ := hnext.materialise hD hbase hbefore
    exact hcopied.drop ha (hf.drop hshows hitem hdrop)
  next hkeep => exact hnext.accept hD hbase (hf.keep hshows hitem hkeep) hitem
  next c hreplace =>
    obtain ⟨t', hg, hc⟩ := hf.replace hshows hitem hreplace
    obtain ⟨hcopied, a, ha⟩ := hnext.materialise hD hbase hbefore
    exact hcopied.accept_copy hD ha hg
      (hD.mono (h.fresh_shown hbase (hf.shown hshows hitem) ha) hc)

/-- **A loop that copies on the first change filters.** -/
theorem copyLoop_spec (hbase : Shown base s.view) (hf : Refines D base f g)
    (h : Copied D base g s ts st) (hbefore : List.Forall₂ (D base) ts before) {ts' : List τ}
    {items : List (Cell ℕ ν)} (hitems : List.Forall₂ (D base) ts' items) :
    Copied D base g s (ts ++ ts') (copyLoop f before st items) := by
  induction hitems generalizing ts before st with
  | nil => rwa [List.append_nil]
  | cons hitem hrest ih =>
    rw [List.append_cons]
    exact ih (h.step hD hbase hf hbefore hitem) (List.rel_append hbefore (.cons hitem .nil))

theorem copyOnChange_spec (hbase : Shown base s.view) (hf : Refines D base f g)
    {items : List (Cell ℕ ν)} (hitems : List.Forall₂ (D base) ts items) :
    Copied D base g s ts (copyOnChange f s items) := by
  have hstart : Copied D base g s ([] : List τ) ⟨s, none, 0⟩ :=
    ⟨.refl _, rfl, fun _ _ ht => absurd ht List.not_mem_nil, fun _ ha => nomatch ha⟩
  exact copyLoop_spec hD hbase hf hstart .nil hitems

omit hD in
/-- Where nothing changes, nothing is allocated. -/
theorem copyLoop_same (hbase : Shown base s.view) (hf : Refines D base f g)
    {items : List (Cell ℕ ν)} (hitems : List.Forall₂ (D base) ts items)
    (hsame : ∀ t ∈ ts, g t = some t) (before : List (Cell ℕ ν)) (n : ℕ) :
    copyLoop f before ⟨s, none, n⟩ items = ⟨s, none, n + items.length⟩ := by
  induction hitems generalizing before n with
  | nil => rfl
  | @cons t item ts items hitem hrest ih =>
    have hstep : copyStep f before ⟨s, none, n⟩ item = ⟨s, none, n + 1⟩ := by
      simp [copyStep, hf.same hbase hitem (hsame t List.mem_cons_self), CopyLoop.accept]
    rw [copyLoop, hstep, ih (fun t ht => hsame t (List.mem_cons_of_mem _ ht)), List.length_cons]
    congr 1
    omega

omit hD in
theorem copyOnChange_same (hbase : Shown base s.view) (hf : Refines D base f g)
    {items : List (Cell ℕ ν)} (hitems : List.Forall₂ (D base) ts items)
    (hsame : ∀ t ∈ ts, g t = some t) : copyOnChange f s items = ⟨s, none, items.length⟩ := by
  rw [copyOnChange, copyLoop_same hbase hf hitems hsame, Nat.zero_add]

end Spec

end EdgeLink.LazyCopy
