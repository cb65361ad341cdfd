import EdgeLink.Foundations.OrderedMap
import Mathlib.Data.List.Induction

/-!
# Looking up by a key that may repeat

A list is read once into an index: the first element of every key, and the keys that occur again.
Elements without a key are left out.

* `keyIndex_spec`: what the index holds.
* `KeyIndex.unique`: a key that does not repeat belongs to one place of the list.
* `eq_of_append_cons`, `eq_of_joined`: how texts joined by separators are read back.
-/

namespace EdgeLink

/-- The first element of each key, and the keys that repeat. -/
structure KeyIndex (κ α : Type*) where
  first : OrderedMap κ α
  duplicates : List κ

variable {α κ : Type*} [DecidableEq κ] {key : α → Option κ} {l : List α} {a b : α} {k : κ}

namespace KeyIndex

/-- Read one more element. -/
def add (key : α → Option κ) (index : KeyIndex κ α) (a : α) : KeyIndex κ α :=
  match key a with
  | none => index
  | some k =>
    if index.first.has k then { index with duplicates := k :: index.duplicates }
    else { index with first := index.first.set k a }

end KeyIndex

/-- The index of a list. -/
def keyIndex (key : α → Option κ) (l : List α) : KeyIndex κ α :=
  l.foldl (KeyIndex.add key) ⟨.empty, []⟩

theorem keyIndex_append_singleton (key : α → Option κ) (l : List α) (a : α) :
    keyIndex key (l ++ [a]) = (keyIndex key l).add key a := by
  rw [keyIndex, List.foldl_append]
  rfl

/-- **What the index holds**: the first element of a key, and whether there are more. -/
theorem keyIndex_spec (key : α → Option κ) (l : List α) (k : κ) :
    (keyIndex key l).first.get? k = l.find? (fun a => key a = some k) ∧
      (k ∈ (keyIndex key l).duplicates ↔ 2 ≤ l.countP fun a => key a = some k) := by
  induction l using List.reverseRecOn generalizing k with
  | nil => simp [keyIndex]
  | append_singleton l a ih =>
    rw [keyIndex_append_singleton, List.find?_append, List.countP_append, KeyIndex.add]
    obtain ⟨hfirst, hdup⟩ := ih k
    cases hka : key a with
    | none => simp [hka, hfirst, hdup]
    | some k' =>
      dsimp only
      by_cases hk : k' = k
      · subst hk
        have hhas : (keyIndex key l).first.has k' = true ↔ 0 < l.countP fun a => key a = some k' := by
          rw [OrderedMap.has, hfirst, List.find?_isSome, List.countP_pos_iff]
        by_cases hseen : (keyIndex key l).first.has k' = true
        · have hpos := hhas.1 hseen
          obtain ⟨b, hb⟩ : ∃ b, l.find? (fun a => key a = some k') = some b := by
            rw [← hfirst]
            exact Option.isSome_iff_exists.1 hseen
          rw [if_pos hseen, hb]
          refine ⟨hfirst.trans hb, iff_of_true List.mem_cons_self ?_⟩
          simp only [List.countP_singleton, hka, decide_true, if_true]
          omega
        · have hzero : l.countP (fun a => key a = some k') = 0 := by
            have := mt hhas.2 hseen
            omega
          have hnone : l.find? (fun a => key a = some k') = none := by
            simpa [OrderedMap.has, hfirst] using hseen
          rw [if_neg hseen]
          simp [hdup, hzero, hnone, hka]
      · have hka' : key a ≠ some k := by simp [hka, hk]
        split_ifs
        · simp [hka', Ne.symm hk, hfirst, hdup]
        · simp [hka', Ne.symm hk, hfirst, hdup, OrderedMap.get?_set]

theorem KeyIndex.mem_of_first (h : (keyIndex key l).first.get? k = some a) :
    ∃ i : ℕ, l[i]? = some a ∧ key a = some k := by
  rw [(keyIndex_spec key l k).1] at h
  obtain ⟨i, hi⟩ := List.getElem?_of_mem (List.mem_of_find?_eq_some h)
  have hkey := List.find?_some h
  exact ⟨i, hi, by simpa using hkey⟩

theorem KeyIndex.none_of_first (h : (keyIndex key l).first.get? k = none) (ha : a ∈ l) :
    key a ≠ some k := by
  rw [(keyIndex_spec key l k).1] at h
  simpa using List.find?_eq_none.1 h a ha

/-- **A key that does not repeat** belongs to one place of the list. -/
theorem KeyIndex.unique {i j : ℕ} (h : k ∉ (keyIndex key l).duplicates) (ha : l[i]? = some a)
    (hka : key a = some k) (hb : l[j]? = some b) (hkb : key b = some k) : i = j := by
  replace h := mt (keyIndex_spec key l k).2.2 h
  -- two places would count twice
  have key_twice : ∀ {i j : ℕ} {a b : α}, l[i]? = some a → key a = some k → l[j]? = some b →
      key b = some k → ¬ i < j := by
    intro i j a b ha hka hb hkb hij
    have hfront : 0 < (l.take j).countP fun a => key a = some k := by
      refine List.countP_pos_iff.2 ⟨a, List.mem_iff_getElem?.2 ⟨i, ?_⟩, by simp [hka]⟩
      rw [List.getElem?_take_of_lt hij, ha]
    have hback : 0 < (l.drop j).countP fun a => key a = some k := by
      refine List.countP_pos_iff.2 ⟨b, List.mem_iff_getElem?.2 ⟨0, ?_⟩, by simp [hkb]⟩
      rw [List.getElem?_drop, Nat.add_zero, hb]
    have hsum : (l.take j ++ l.drop j).countP (fun a => key a = some k) =
        (l.take j).countP (fun a => key a = some k) + (l.drop j).countP fun a => key a = some k :=
      List.countP_append
    rw [List.take_append_drop] at hsum
    omega
  have hij := key_twice ha hka hb hkb
  have hji := key_twice hb hkb ha hka
  omega

/-- A text is split at its last separator in one way only. -/
theorem eq_of_append_cons {c : α} {x y x' y' : List α} (h : x ++ c :: y = x' ++ c :: y')
    (hy : c ∉ y) (hy' : c ∉ y') : x = x' ∧ y = y' := by
  rcases List.append_eq_append_iff.1 h with ⟨z, rfl, hz⟩ | ⟨z, rfl, hz⟩
  · cases z with
    | nil => simpa using hz
    | cons d z =>
      rw [List.cons_append, List.cons.injEq] at hz
      exact absurd (hz.2 ▸ List.mem_append_right z List.mem_cons_self) hy
  · cases z with
    | nil => simpa using hz.symm
    | cons d z =>
      rw [List.cons_append, List.cons.injEq] at hz
      exact absurd (hz.2 ▸ List.mem_append_right z List.mem_cons_self) hy'

/-- Three texts behind a fixed one, joined by double separators: the last two have none in them. -/
theorem eq_of_joined {c : α} {w x y z x' y' z' : List α}
    (h : w ++ x ++ [c, c] ++ y ++ [c, c] ++ z = w ++ x' ++ [c, c] ++ y' ++ [c, c] ++ z')
    (hy : c ∉ y) (hy' : c ∉ y') (hz : c ∉ z) (hz' : c ∉ z') : x = x' ∧ y = y' ∧ z = z' := by
  have hlast : (w ++ x ++ [c]) ++ c :: y ++ [c] ++ c :: z =
      (w ++ x' ++ [c]) ++ c :: y' ++ [c] ++ c :: z' := by simpa using h
  obtain ⟨hfront, hz⟩ := eq_of_append_cons hlast hz hz'
  obtain ⟨hfront, hy⟩ := eq_of_append_cons (List.append_cancel_right hfront) hy hy'
  exact ⟨List.append_cancel_left (List.append_cancel_right hfront), hy, hz⟩

end EdgeLink
