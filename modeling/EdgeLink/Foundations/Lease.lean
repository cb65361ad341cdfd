import Mathlib.Algebra.Order.Group.Int
import Mathlib.Data.List.Induction
import Mathlib.Data.List.Pairwise

/-!
# Leases

Something that one party at a time may hold: who claims it gets it when nobody else has held it for
a given time, and claims it again to keep it.

* `Lease.free_iff`: the lease remembers the last claim that was granted only, and decides by it as
  if it knew all of them.
* `Lease.exclusive`: claims of two parties are never granted within that time of each other.
-/

namespace EdgeLink

/-- A claim of a party at a time, with what the party has to say. -/
structure Claim (κ ν : Type*) where
  holder : κ
  time : ℤ
  content : ν
  deriving DecidableEq

namespace Lease

variable {κ ν : Type*} [DecidableEq κ] (ttl : ℤ)

/-- Whether a claim is granted where the last one granted is known. -/
def free (lease : Option (Claim κ ν)) (c : Claim κ ν) : Bool :=
  match lease with
  | none => true
  | some held => decide (held.holder = c.holder) || decide (ttl < c.time - held.time)

/-- The lease after a claim. -/
def claim (lease : Option (Claim κ ν)) (c : Claim κ ν) : Option (Claim κ ν) :=
  if free ttl lease c then some c else lease

/-- No other party has been granted a claim for the given time. -/
def Open (log : List (Claim κ ν)) (c : Claim κ ν) : Prop :=
  ∀ g ∈ log, g.holder ≠ c.holder → ttl < c.time - g.time

instance (log : List (Claim κ ν)) (c : Claim κ ν) : Decidable (Open ttl log c) :=
  inferInstanceAs (Decidable (∀ g ∈ log, g.holder ≠ c.holder → ttl < c.time - g.time))

/-- What has been granted after a claim. -/
def record (log : List (Claim κ ν)) (c : Claim κ ν) : List (Claim κ ν) :=
  if Open ttl log c then log ++ [c] else log

/-- The claims that are granted, of claims in the order of time. -/
def granted (cs : List (Claim κ ν)) : List (Claim κ ν) := cs.foldl (record ttl) []

/-- A lease that remembers the last of the claims that were granted. -/
def Held (lease : Option (Claim κ ν)) (log : List (Claim κ ν)) : Prop :=
  match lease with
  | none => log = []
  | some held => held ∈ log ∧
    ∀ g ∈ log, g.time ≤ held.time ∧ (g.holder ≠ held.holder → ttl < held.time - g.time)

variable {ttl} {lease : Option (Claim κ ν)} {log : List (Claim κ ν)} {c : Claim κ ν}

/-- Nothing but the last claim granted needs to be known. -/
theorem free_iff (h : Held ttl lease log) (hc : ∀ g ∈ log, g.time ≤ c.time) :
    free ttl lease c = true ↔ Open ttl log c := by
  cases lease with
  | none =>
    rw [Held] at h
    simp [free, Open, h]
  | some held =>
    obtain ⟨hmem, hlast⟩ := h
    rw [free, Bool.or_eq_true, decide_eq_true_iff, decide_eq_true_iff]
    constructor
    · rintro (hown | hover) g hg hne
      · have hbefore := (hlast g hg).2 (hown ▸ hne)
        have hle := hc held hmem
        omega
      · have hle := (hlast g hg).1
        omega
    · intro hopen
      by_cases hown : held.holder = c.holder
      · exact Or.inl hown
      · exact Or.inr (hopen held hmem hown)

/-- A claim keeps the lease and the log in step. -/
theorem Held.claim (h : Held ttl lease log) (hc : ∀ g ∈ log, g.time ≤ c.time) :
    Held ttl (claim ttl lease c) (record ttl log c) := by
  rw [Lease.claim, record]
  by_cases hopen : Open ttl log c
  · rw [if_pos ((free_iff h hc).2 hopen), if_pos hopen]
    refine ⟨by simp, fun g hg => ?_⟩
    rcases List.mem_append.1 hg with hg | hg
    · exact ⟨hc g hg, hopen g hg⟩
    · obtain rfl := List.mem_singleton.1 hg
      exact ⟨le_rfl, fun hne => absurd rfl hne⟩
  · rwa [if_neg (mt (free_iff h hc).1 hopen), if_neg hopen]

/-- Claims of two parties that are granted are far apart. -/
theorem pairwise_record
    (h : log.Pairwise fun g g' => g.holder ≠ g'.holder → ttl < g'.time - g.time) :
    (record ttl log c).Pairwise fun g g' => g.holder ≠ g'.holder → ttl < g'.time - g.time := by
  rw [record]
  split_ifs with hopen
  · refine List.pairwise_append.2 ⟨h, List.pairwise_singleton _ _, fun g hg g' hg' hne => ?_⟩
    obtain rfl := List.mem_singleton.1 hg'
    exact hopen g hg hne
  · exact h

/-- The claims of one party at one time are granted together. -/
theorem foldl_record {cs : List (Claim κ ν)}
    (hsame : ∀ g ∈ cs, g.holder = c.holder ∧ g.time = c.time) :
    cs.foldl (record ttl) log = if Open ttl log c then log ++ cs else log := by
  induction cs generalizing log with
  | nil => simp
  | cons g cs ih =>
    obtain ⟨⟨hholder, htime⟩, hcs⟩ := List.forall_mem_cons.1 hsame
    have hopen : Open ttl log g ↔ Open ttl log c := by simp only [Open, hholder, htime]
    rw [List.foldl_cons, ih hcs, record]
    by_cases h : Open ttl log c
    · have hnext : Open ttl (log ++ [g]) c := by
        intro g' hg' hne
        rcases List.mem_append.1 hg' with hg' | hg'
        · exact h g' hg' hne
        · exact absurd (List.mem_singleton.1 hg' ▸ hholder) hne
      rw [if_pos (hopen.2 h), if_pos hnext, if_pos h, List.append_assoc, List.singleton_append]
    · rw [if_neg (mt hopen.1 h), if_neg h, if_neg h]

/-- Whose the lease is and since when, after claims of one party at one time. -/
theorem map_foldl_claim {cs : List (Claim κ ν)}
    (hsame : ∀ g ∈ cs, g.holder = c.holder ∧ g.time = c.time) :
    (cs.foldl (claim ttl) lease).map (fun g => (g.holder, g.time)) =
      if free ttl lease c = true ∧ cs ≠ [] then some (c.holder, c.time)
      else lease.map fun g => (g.holder, g.time) := by
  induction cs generalizing lease with
  | nil => simp
  | cons g cs ih =>
    obtain ⟨⟨hholder, htime⟩, hcs⟩ := List.forall_mem_cons.1 hsame
    have hfree : free ttl lease g = free ttl lease c := by
      cases lease <;> simp only [free, hholder, htime]
    rw [List.foldl_cons, ih hcs, Lease.claim, hfree]
    cases hc : free ttl lease c with
    | true => simp [free, hholder, htime]
    | false => simp [hc]

theorem granted_append (cs : List (Claim κ ν)) (c : Claim κ ν) :
    granted ttl (cs ++ [c]) = record ttl (granted ttl cs) c := by
  rw [granted, List.foldl_append]
  rfl

theorem granted_sublist (cs : List (Claim κ ν)) : (granted ttl cs).Sublist cs := by
  induction cs using List.reverseRecOn with
  | nil => exact List.Sublist.slnil
  | append_singleton cs c ih =>
    rw [granted_append, record]
    split_ifs
    · exact ih.append_right [c]
    · exact ih.trans (List.sublist_append_left cs [c])

theorem exclusive (cs : List (Claim κ ν)) :
    (granted ttl cs).Pairwise fun g g' => g.holder ≠ g'.holder → ttl < g'.time - g.time := by
  induction cs using List.reverseRecOn with
  | nil => exact List.Pairwise.nil
  | append_singleton cs c ih =>
    rw [granted_append]
    exact pairwise_record ih

/-- After claims in the order of time the lease remembers the last one granted. -/
theorem held_foldl {cs : List (Claim κ ν)} (h : cs.Pairwise fun g g' => g.time ≤ g'.time) :
    Held ttl (cs.foldl (claim ttl) none) (granted ttl cs) := by
  induction cs using List.reverseRecOn with
  | nil => rfl
  | append_singleton cs c ih =>
    obtain ⟨hcs, -, hlast⟩ := List.pairwise_append.1 h
    rw [granted_append, List.foldl_append]
    refine (ih hcs).claim fun g hg => ?_
    exact hlast g ((granted_sublist cs).subset hg) c (List.mem_singleton_self c)

end Lease

end EdgeLink
