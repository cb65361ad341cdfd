import EdgeLink.Foundations.Lists
import Mathlib.Logic.Function.Basic

/-!
# Heaps of shared objects

Objects that refer to each other and are written in place. A heap says which properties every
object has, and a property is a plain value or a reference.

* `cellAt`: the cell at a path from a cell, through any references.
* `Extends`: a later heap has everything an earlier one has. What is at a path stays there.
* `Placed`: every object has a place in one tree, and has there what the tree has. Writing a cell of
  that tree where there was none keeps a heap `Placed`, and objects at one place never disagree.
-/

namespace EdgeLink

variable {α κ ν : Type*}

/-- What a property holds. -/
inductive Cell (α ν : Type*) where
  | value (v : ν)
  | object (a : α)

/-- The properties of every object. -/
abbrev ObjectHeap (α κ ν : Type*) := α → List (κ × Cell α ν)

/-- The value of a cell that is no object. -/
def Cell.value? : Cell α ν → Option ν
  | value v => some v
  | object _ => none

variable [DecidableEq κ]

/-- The cell at a path from a cell. -/
def cellAt (h : ObjectHeap α κ ν) : Cell α ν → List κ → Option (Cell α ν)
  | c, [] => some c
  | .value _, _ :: _ => none
  | .object a, key :: path => ((h a).lookup key).bind fun c => cellAt h c path

theorem isSome_cellAt_cons {h : ObjectHeap α κ ν} {a : α} {key : κ} {path : List κ} :
    (cellAt h (.object a) (key :: path)).isSome ↔
      ∃ c, (h a).lookup key = some c ∧ (cellAt h c path).isSome := by
  rw [cellAt]
  cases (h a).lookup key <;> simp

/-- Nothing is taken away, and nothing is replaced. -/
def Extends (h h' : ObjectHeap α κ ν) : Prop :=
  ∀ a key c, (h a).lookup key = some c → (h' a).lookup key = some c

namespace Extends

variable {h h' h'' : ObjectHeap α κ ν}

theorem refl (h : ObjectHeap α κ ν) : Extends h h := fun _ _ _ hc => hc

theorem trans (hext : Extends h h') (hext' : Extends h' h'') : Extends h h'' :=
  fun a key c hc => hext' a key c (hext a key c hc)

theorem cellAt_eq (hext : Extends h h') {path : List κ} {c c' : Cell α ν}
    (hc : cellAt h c path = some c') : cellAt h' c path = some c' := by
  induction path generalizing c with
  | nil => exact hc
  | cons key path ih =>
    cases c with
    | value v => nomatch hc
    | object a =>
      obtain ⟨c'', hlookup, hbelow⟩ := Option.bind_eq_some_iff.1 hc
      exact Option.bind_eq_some_iff.2 ⟨c'', hext a key c'' hlookup, ih hbelow⟩

theorem isSome_cellAt (hext : Extends h h') {path : List κ} {c : Cell α ν}
    (hc : (cellAt h c path).isSome) : (cellAt h' c path).isSome := by
  obtain ⟨c', hc'⟩ := Option.isSome_iff_exists.1 hc
  exact Option.isSome_iff_exists.2 ⟨c', hext.cellAt_eq hc'⟩

end Extends

/-! ## Objects with a place -/

/-- Every object has at its place what the tree has there: `content` is the value at a path, and
none where there is an object. -/
structure Placed (place : α → List κ) (content : List κ → Option (Option ν))
    (h : ObjectHeap α κ ν) : Prop where
  keys : ∀ a, ((h a).map Prod.fst).Nodup
  cell : ∀ {a key c}, (h a).lookup key = some c → content (place a ++ [key]) = some c.value?
  object : ∀ {a key b}, (h a).lookup key = some (.object b) → place b = place a ++ [key]

namespace Placed

variable {place : α → List κ} {content : List κ → Option (Option ν)} {h : ObjectHeap α κ ν}

/-- Two objects at one place have the same value or both an object at a key. -/
theorem agree (hplaced : Placed place content h) {a b : α} {key : κ} {c c' : Cell α ν}
    (hab : place a = place b) (hc : (h a).lookup key = some c) (hc' : (h b).lookup key = some c') :
    c = c' ∨ ∃ x y, c = .object x ∧ c' = .object y := by
  have hvalue : c.value? = c'.value? := by
    rw [← Option.some_inj, ← hplaced.cell hc, ← hplaced.cell hc', hab]
  cases c with
  | value v =>
    cases c' with
    | value v' => exact Or.inl (congrArg _ (Option.some.inj hvalue))
    | object b' => nomatch hvalue
  | object a' =>
    cases c' with
    | value v' => nomatch hvalue
    | object b' => exact Or.inr ⟨a', b', rfl, rfl⟩

/-- What is at a path from an object is what the tree has at that path from its place. -/
theorem content_cellAt (hplaced : Placed place content h) {path : List κ} (hpath : path ≠ [])
    {a : α} {c : Cell α ν} (hc : cellAt h (.object a) path = some c) :
    content (place a ++ path) = some c.value? := by
  induction path generalizing a with
  | nil => exact absurd rfl hpath
  | cons key path ih =>
    obtain ⟨c', hlookup, hbelow⟩ := Option.bind_eq_some_iff.1 hc
    cases path with
    | nil =>
      obtain rfl := Option.some.inj hbelow
      exact hplaced.cell hlookup
    | cons key' path =>
      cases c' with
      | value v => nomatch hbelow
      | object b =>
        have hcontent := ih (List.cons_ne_nil _ _) hbelow
        rwa [hplaced.object hlookup, List.append_assoc] at hcontent

end Placed

/-! ## Writing -/

variable [DecidableEq α]

/-- Write a property of an object. -/
def ObjectHeap.write (h : ObjectHeap α κ ν) (a : α) (key : κ) (c : Cell α ν) :
    ObjectHeap α κ ν :=
  Function.update h a (setField (h a) key c)

section Write

variable {h : ObjectHeap α κ ν} {a : α} {key : κ} {c : Cell α ν}

theorem lookup_write (b : α) (k : κ) : (h.write a key c b).lookup k =
    if b = a ∧ k = key then some c else (h b).lookup k := by
  rw [ObjectHeap.write]
  by_cases hb : b = a
  · subst hb
    simp
  · simp [hb]

theorem write_of_ne {b : α} (hb : b ≠ a) : h.write a key c b = h b :=
  Function.update_of_ne hb _ _

theorem write_of_lookup (hc : (h a).lookup key = some c) : h.write a key c = h := by
  rw [ObjectHeap.write, setField_of_lookup hc, Function.update_eq_self]

theorem extends_write (hnone : (h a).lookup key = none) : Extends h (h.write a key c) := by
  intro b k c' hc'
  rw [lookup_write, if_neg, hc']
  rintro ⟨rfl, rfl⟩
  rw [hnone] at hc'
  nomatch hc'

end Write

theorem Placed.write {place : α → List κ} {content : List κ → Option (Option ν)}
    {h : ObjectHeap α κ ν} (hplaced : Placed place content h) {a : α} {key : κ} {c : Cell α ν}
    (hcell : content (place a ++ [key]) = some c.value?)
    (hobject : ∀ b, c = .object b → place b = place a ++ [key]) :
    Placed place content (h.write a key c) where
  keys b := by
    by_cases hb : b = a
    · subst hb
      rw [ObjectHeap.write, Function.update_self]
      exact nodup_keys_setField (hplaced.keys b)
    · rw [write_of_ne hb]
      exact hplaced.keys b
  cell {b k c'} hc' := by
    rw [lookup_write] at hc'
    split_ifs at hc' with heq
    · obtain ⟨rfl, rfl⟩ := heq
      obtain rfl := Option.some.inj hc'
      exact hcell
    · exact hplaced.cell hc'
  object {b k b'} hc' := by
    rw [lookup_write] at hc'
    split_ifs at hc' with heq
    · obtain ⟨rfl, rfl⟩ := heq
      exact hobject b' (Option.some.inj hc')
    · exact hplaced.object hc'

end EdgeLink
