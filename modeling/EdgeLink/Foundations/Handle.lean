import Mathlib.Data.Nat.Notation
import Mathlib.Tactic.Common

/-!
# Handles

A program that creates resources (timers, sockets, watchers) keeps a reference to them so that it
can release them later. What it cannot release are the resources whose reference it has written
over: they stay live, and nothing refers to them.

* `Handle` is such a place: how many live resources it refers to, and how many live resources have
  been lost there.
* `assign` writes new resources over the reference, `restart` releases first, `ensure` creates only
  where there is nothing, `release` and `fire` end resources.
* `Single`: at most one resource is live and none has been lost. Every operation keeps it, a plain
  `assign` only where the place refers to nothing.
-/

namespace EdgeLink

/-- A place that refers to resources: a timer, a socket, an array of watchers. -/
structure Handle where
  /-- The live resources that the place refers to. -/
  held : ℕ
  /-- The live resources that the place once referred to and that nothing refers to any more. -/
  lost : ℕ
  /-- The resources created for this place so far. -/
  made : ℕ
  deriving DecidableEq

namespace Handle

/-- A place that never referred to anything. -/
def empty : Handle := ⟨0, 0, 0⟩

/-- The resources of this place that are live. -/
def live (h : Handle) : ℕ := h.held + h.lost

/-- `n` new resources are created, and the place refers to them instead of what it held. -/
def assign (h : Handle) (n : ℕ) : Handle := ⟨n, h.live, h.made + n⟩

/-- One more resource is created, and the place refers to it as well. -/
def push (h : Handle) : Handle := ⟨h.held + 1, h.lost, h.made + 1⟩

/-- What the place refers to is released. -/
def release (h : Handle) : Handle := { h with held := 0 }

/-- What the place refers to is released, and it refers to a new resource. -/
def restart (h : Handle) : Handle := h.release.assign 1

/-- A resource is created unless the place refers to one. -/
def ensure (h : Handle) : Handle := if h.held = 0 then h.assign 1 else h

/-- One of the live resources, a timer, has fired, and the reference is cleared. -/
def fire (h : Handle) : Handle := ⟨0, h.live - 1, h.made⟩

variable {h : Handle} {n : ℕ}

@[simp] theorem lost_assign : (h.assign n).lost = h.held + h.lost := rfl

@[simp] theorem lost_restart : h.restart.lost = h.lost := Nat.zero_add _

@[simp] theorem lost_fire : h.fire.lost = h.held + h.lost - 1 := rfl

theorem live_eq_zero : h.live = 0 ↔ h.held = 0 ∧ h.lost = 0 := Nat.add_eq_zero_iff

/-! ## Places that never lose anything -/

/-- At most one resource is live, and the place refers to it. -/
structure Single (h : Handle) : Prop where
  held_le : h.held ≤ 1
  lost_eq : h.lost = 0

theorem single_empty : empty.Single := ⟨Nat.zero_le 1, rfl⟩

namespace Single

theorem live_le (hh : h.Single) : h.live ≤ 1 := by
  rw [live, hh.lost_eq]
  exact hh.held_le

theorem release (hh : h.Single) : h.release.Single := ⟨Nat.zero_le 1, hh.lost_eq⟩

theorem restart (hh : h.Single) : h.restart.Single :=
  ⟨Nat.le_refl 1, (lost_restart).trans hh.lost_eq⟩

/-- A plain assignment loses nothing where the place refers to nothing. -/
theorem assign (hh : h.Single) (hheld : h.held = 0) : (h.assign 1).Single :=
  ⟨Nat.le_refl 1, by rw [lost_assign, hheld, hh.lost_eq]⟩

theorem ensure (hh : h.Single) : h.ensure.Single := by
  rw [Handle.ensure]
  split
  · next hheld => exact hh.assign hheld
  · exact hh

theorem fire (hh : h.Single) : h.fire.Single := by
  have := hh.live_le
  exact ⟨Nat.zero_le 1, by rw [lost_fire]; rw [live] at this; omega⟩

end Single

end Handle

end EdgeLink
