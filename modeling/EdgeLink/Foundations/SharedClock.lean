import Mathlib.Data.List.Basic
import Mathlib.Order.Basic

/-!
# Registers of many fields with one clock

A register has a value for some of its fields, and the time of the write that came in last. A
write has a time and values of its own, so it is a register too. Where both have a value for a
field, that of the write is taken unless the register's time is later; the time is taken from the
write in any case. So a write that loses every field can still make way for the next one.

* `Register.merge`, `Register.after`: one write, and a sequence of them.
* `Register.decider`: the write that a field has its value from.
* `Register.value_after`: it is that write.
* `Register.decider_of_ordered`: of writes in the order of their times it is the last one that has
  a value for the field.
-/

namespace EdgeLink

/-- The values of some fields, with a time. -/
@[ext]
structure Register (φ ν τ : Type*) where
  time : τ
  value : φ → Option ν

namespace Register

variable {φ ν τ : Type*}

/-- The value of a field after a write; `wins` says that the write has the better time. -/
def mergeValue (wins : Bool) : Option ν → Option ν → Option ν
  | v, none => v
  | none, v => v
  | some v, some v' => some (if wins then v' else v)

@[simp] theorem mergeValue_none (wins : Bool) (v : Option ν) : mergeValue wins v none = v := by
  cases v <;> rfl

@[simp] theorem none_mergeValue (wins : Bool) (v : Option ν) : mergeValue wins none v = v := by
  cases v <;> rfl

@[simp] theorem mergeValue_some (wins : Bool) (v v' : ν) :
    mergeValue wins (some v) (some v') = some (if wins then v' else v) := rfl

variable [LE τ] [DecidableLE τ]

/-- Write `w` to the register `r`. -/
def merge (r w : Register φ ν τ) : Register φ ν τ where
  time := w.time
  value f := mergeValue (r.time ≤ w.time) (r.value f) (w.value f)

/-- The register after the write `w`, with the ones before it, the most recent first. -/
def after : Register φ ν τ → List (Register φ ν τ) → Register φ ν τ
  | w, [] => w
  | w, prev :: earlier => (after prev earlier).merge w

/-- The write `w` sets the field `f`: it has a value for it, and either it is the first one to have
one or the write just before it is not later. -/
def TakesEffect (f : φ) (w : Register φ ν τ) (earlier : List (Register φ ν τ)) : Prop :=
  (w.value f).isSome ∧
    ((∀ w' ∈ earlier, w'.value f = none) ∨ ∀ prev ∈ earlier.head?, prev.time ≤ w.time)

instance (f : φ) (w : Register φ ν τ) (earlier : List (Register φ ν τ)) :
    Decidable (TakesEffect f w earlier) := inferInstanceAs (Decidable (_ ∧ _))

/-- The last write that sets the field `f`, of writes with the most recent first. -/
def decider (f : φ) : List (Register φ ν τ) → Option (Register φ ν τ)
  | [] => none
  | w :: earlier => if TakesEffect f w earlier then some w else decider f earlier

@[simp] theorem time_after (w : Register φ ν τ) (earlier : List (Register φ ν τ)) :
    (after w earlier).time = w.time := by
  cases earlier <;> rfl

theorem decider_eq_none {f : φ} {ws : List (Register φ ν τ)} :
    decider f ws = none ↔ ∀ w ∈ ws, w.value f = none := by
  induction ws with
  | nil => simp [decider]
  | cons w earlier ih =>
    rw [decider, List.forall_mem_cons]
    split_ifs with heffect
    · simp only [false_iff, not_and]
      intro hnone
      rw [TakesEffect, hnone] at heffect
      exact absurd heffect.1 Bool.false_ne_true
    · rw [ih]
      refine ⟨fun h => ⟨?_, h⟩, And.right⟩
      by_contra hw
      exact heffect ⟨Option.isSome_iff_ne_none.2 hw, Or.inl h⟩

theorem isSome_of_decider {f : φ} {ws : List (Register φ ν τ)} {w : Register φ ν τ}
    (h : decider f ws = some w) : (w.value f).isSome := by
  induction ws with
  | nil => exact absurd h (Option.some_ne_none w).symm
  | cons w' earlier ih =>
    rw [decider] at h
    split_ifs at h with heffect
    · cases h
      exact heffect.1
    · exact ih h

theorem mem_of_decider {f : φ} {ws : List (Register φ ν τ)} {w : Register φ ν τ}
    (h : decider f ws = some w) : w ∈ ws := by
  induction ws with
  | nil => cases h
  | cons w' earlier ih =>
    rw [decider] at h
    split_ifs at h with heffect
    · cases h
      exact List.mem_cons_self
    · exact List.mem_cons_of_mem _ (ih h)

/-- **The value of a field.** It is the one that its decider wrote. -/
theorem value_after (f : φ) (w : Register φ ν τ) (earlier : List (Register φ ν τ)) :
    (after w earlier).value f = (decider f (w :: earlier)).bind (·.value f) := by
  induction earlier generalizing w with
  | nil =>
    rw [after, decider, decider]
    split_ifs with heffect
    · rfl
    · have hw : w.value f = none := by
        by_contra hw
        exact heffect ⟨Option.isSome_iff_ne_none.2 hw, Or.inl (by simp)⟩
      rw [hw, Option.bind_none]
  | cons prev earlier ih =>
    have hprev := ih prev
    rw [after, merge, decider]
    dsimp only
    rw [time_after, hprev]
    by_cases hw : w.value f = none
    · rw [if_neg fun heffect => by simp [TakesEffect, hw] at heffect, hw, mergeValue_none]
    obtain ⟨v, hv⟩ := Option.ne_none_iff_exists'.1 hw
    rcases hd : decider f (prev :: earlier) with _ | d
    · -- nothing before had a value
      rw [if_pos ⟨by simp [hv], Or.inl (decider_eq_none.1 hd)⟩, Option.bind_none, none_mergeValue,
        Option.bind_some]
    · obtain ⟨v', hv'⟩ := Option.isSome_iff_exists.1 (isSome_of_decider hd)
      have hnot : ¬∀ w' ∈ prev :: earlier, w'.value f = none := by
        rw [← decider_eq_none, hd]
        exact Option.some_ne_none d
      rw [Option.bind_some, hv', hv, mergeValue_some]
      by_cases hle : prev.time ≤ w.time
      · rw [if_pos (decide_eq_true hle), if_pos ⟨by simp [hv], Or.inr (by simpa using hle)⟩,
          Option.bind_some, hv]
      · rw [if_neg (by simpa using hle),
          if_neg fun heffect => heffect.2.elim hnot (by simpa using hle), Option.bind_some, hv']

/-- Writes that come in the order of their times: the last one with a value decides. -/
theorem decider_of_ordered {ws : List (Register φ ν τ)}
    (hws : ws.IsChain fun w prev => prev.time ≤ w.time) (f : φ) :
    decider f ws = ws.find? fun w => (w.value f).isSome := by
  induction ws with
  | nil => rfl
  | cons w earlier ih =>
    have hprev : ∀ prev ∈ earlier.head?, prev.time ≤ w.time := by
      intro prev hprev
      obtain ⟨rest, rfl⟩ := List.head?_eq_some_iff.1 hprev
      exact (List.isChain_cons_cons.1 hws).1
    rw [decider, List.find?_cons, ih hws.of_cons]
    cases hw : (w.value f).isSome
    · rw [if_neg fun heffect => by simp [TakesEffect, hw] at heffect]
    · rw [if_pos ⟨hw, Or.inr hprev⟩]

end Register

end EdgeLink
