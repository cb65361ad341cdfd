import Mathlib.Algebra.GroupWithZero.Nat
import Mathlib.Data.List.Flatten
import Mathlib.Data.Nat.Notation

/-!
# Texts that can be read from the front

A value that is written down in front of other text is determined by the whole where its code
separates it from every other value, whatever text of some kind follows.

* `Separates.flatMap`: the texts of a list, one after the other, separate the list;
  `Separates.intercalate` is the rule for lists with separators, up to a closing letter.
* `append_inj_of_stop`: a run of letters of one kind ends where another kind begins.
* `append_inj_of_weight`: a text is determined by its length in front of the rest.
-/

namespace EdgeLink

variable {α χ : Type*}

/-- No text of `a`, with one of `R` behind it, is also a text of `b` unless `a` is `b` and what is
behind is the same. -/
def Separates (R : List χ → Prop) (code : α → List χ) (a b : α) : Prop :=
  ∀ t t', R t → R t' → code a ++ t = code b ++ t' → a = b ∧ t = t'

/-- **The rule for lists.** Where the texts of the entries separate them, no matter whether an entry
or the end follows, and no entry looks like the end, the text of a list separates it. -/
theorem Separates.flatMap {R E : List χ → Prop} {code : α → List χ} {as bs : List α}
    (hcode : ∀ a ∈ as, ∀ b ∈ bs, Separates R code a b)
    (hentry : ∀ a, a ∈ as ∨ a ∈ bs → ∀ t, R (code a ++ t) ∧ ¬ E (code a ++ t))
    (hend : ∀ t, E t → R t) : Separates E (List.flatMap code) as bs := by
  intro r r' hr hr' h
  induction as generalizing bs with
  | nil =>
    cases bs with
    | nil => exact ⟨rfl, h⟩
    | cons b bs =>
      rw [List.flatMap_nil, List.nil_append, List.flatMap_cons, List.append_assoc] at h
      exact absurd (h ▸ hr) (hentry b (Or.inr List.mem_cons_self) _).2
  | cons a as ih =>
    cases bs with
    | nil =>
      rw [List.flatMap_nil, List.nil_append, List.flatMap_cons, List.append_assoc] at h
      exact absurd (h ▸ hr') (hentry a (Or.inl List.mem_cons_self) _).2
    | cons b bs =>
      have hrest : ∀ l : List α, (∀ c ∈ l, c ∈ a :: as ∨ c ∈ b :: bs) → ∀ t, E t →
          R (l.flatMap code ++ t) := by
        intro l hl t ht
        cases l with
        | nil => exact hend t ht
        | cons c l =>
          rw [List.flatMap_cons, List.append_assoc]
          exact (hentry c (hl c List.mem_cons_self) _).1
      rw [List.flatMap_cons, List.flatMap_cons, List.append_assoc, List.append_assoc] at h
      obtain ⟨rfl, htail⟩ := hcode a List.mem_cons_self b List.mem_cons_self _ _
        (hrest as (fun c hc => Or.inl (List.mem_cons_of_mem _ hc)) r hr)
        (hrest bs (fun c hc => Or.inr (List.mem_cons_of_mem _ hc)) r' hr') h
      obtain ⟨rfl, rfl⟩ := ih
        (fun c hc d hd => hcode c (List.mem_cons_of_mem _ hc) d (List.mem_cons_of_mem _ hd))
        (fun c hc => hentry c (hc.imp (List.mem_cons_of_mem _) (List.mem_cons_of_mem _))) htail
      exact ⟨rfl, rfl⟩

/-- **The rule for lists with separators**, up to a closing letter that no entry begins with. -/
theorem Separates.intercalate (sep stop : χ) (hne : sep ≠ stop) {code : α → List χ}
    {as bs : List α}
    (hcode : ∀ a ∈ as, ∀ b ∈ bs,
      Separates (fun t => t.head? = some sep ∨ t.head? = some stop) code a b)
    (hhead : ∀ a, a ∈ as ∨ a ∈ bs → ∀ t, (code a ++ t).head? ≠ some stop) :
    Separates (fun t => t.head? = some stop) (fun l => [sep].intercalate (l.map code)) as bs := by
  have hcons : ∀ (c : α) (l : List α), sep :: [sep].intercalate ((c :: l).map code) =
      (c :: l).flatMap fun c => sep :: code c := by
    intro c l
    induction l generalizing c with
    | nil => simp
    | cons d l ih =>
      rw [List.flatMap_cons, ← ih d]
      simp
  have hfirst : ∀ (c : α) (l : List α), ∃ rest,
      [sep].intercalate ((c :: l).map code) = code c ++ rest := by
    intro c l
    cases l with
    | nil => exact ⟨[], by simp⟩
    | cons d l => exact ⟨sep :: [sep].intercalate ((d :: l).map code), by simp⟩
  intro r r' hr hr' h
  cases as with
  | nil =>
    cases bs with
    | nil => exact ⟨rfl, h⟩
    | cons b bs =>
      obtain ⟨rest, hrest⟩ := hfirst b bs
      dsimp only at h
      rw [hrest, List.append_assoc, List.map_nil, List.intercalate_nil, List.nil_append] at h
      exact absurd (h ▸ hr) (hhead b (Or.inr List.mem_cons_self) _)
  | cons a as =>
    cases bs with
    | nil =>
      obtain ⟨rest, hrest⟩ := hfirst a as
      dsimp only at h
      rw [hrest, List.append_assoc, List.map_nil, List.intercalate_nil, List.nil_append] at h
      exact absurd (h ▸ hr') (hhead a (Or.inl List.mem_cons_self) _)
    | cons b bs =>
      have hlists : Separates (fun t => t.head? = some stop) (List.flatMap fun c => sep :: code c)
          (a :: as) (b :: bs) := by
        refine Separates.flatMap (R := fun t => t.head? = some sep ∨ t.head? = some stop)
          (fun c hc d hd t t' ht ht' heq => ?_) (fun c _ t => ?_) fun t ht => Or.inr ht
        · exact hcode c hc d hd t t' ht ht' (List.tail_eq_of_cons_eq heq)
        · exact ⟨Or.inl rfl, fun hstop => hne (Option.some.inj hstop)⟩
      refine hlists r r' hr hr' ?_
      rw [← hcons, ← hcons, List.cons_append, List.cons_append]
      exact congrArg (sep :: ·) h

/-- A run of letters with `p` is determined by the first letter without `p`. -/
theorem append_inj_of_stop {p : χ → Bool} {l l' r r' : List χ} (hl : ∀ c ∈ l, p c)
    (hl' : ∀ c ∈ l', p c) (hr : ∀ c ∈ r.head?, p c = false) (hr' : ∀ c ∈ r'.head?, p c = false)
    (h : l ++ r = l' ++ r') : l = l' ∧ r = r' := by
  have hstop : ∀ t : List χ, (∀ c ∈ t.head?, p c = false) → t.takeWhile p = [] := by
    intro t ht
    cases t with
    | nil => rfl
    | cons c t => exact List.takeWhile_cons_of_neg (by simp [ht c rfl])
  have htake := congrArg (List.takeWhile p) h
  rw [List.takeWhile_append_of_pos hl, List.takeWhile_append_of_pos hl', hstop r hr, hstop r' hr',
    List.append_nil, List.append_nil] at htake
  subst htake
  exact ⟨rfl, List.append_cancel_left h⟩

/-- A text is determined by its length, whatever positive length the letters have. -/
theorem append_inj_of_weight {w : χ → ℕ} (hpos : ∀ c, 0 < w c) {l l' r r' : List χ}
    (hsum : (l.map w).sum = (l'.map w).sum) (h : l ++ r = l' ++ r') : l = l' ∧ r = r' := by
  induction l generalizing l' with
  | nil =>
    cases l' with
    | nil => exact ⟨rfl, h⟩
    | cons c l' =>
      have := hpos c
      simp only [List.map_nil, List.sum_nil, List.map_cons, List.sum_cons] at hsum
      omega
  | cons c l ih =>
    cases l' with
    | nil =>
      have := hpos c
      simp only [List.map_nil, List.sum_nil, List.map_cons, List.sum_cons] at hsum
      omega
    | cons c' l' =>
      obtain ⟨rfl, htail⟩ := List.cons_eq_cons.1 h
      obtain ⟨rfl, rfl⟩ := ih (by simpa using hsum) htail
      exact ⟨rfl, rfl⟩

end EdgeLink
