import EdgeLink.Foundations.Run
import Mathlib.Data.List.Chain
import Mathlib.Data.List.Induction

/-!
# Alarms

An alarm watches readings, each of them a level or the absence of one. It is raised when the level
changes, raised again while the level lasts when its pause is over, and taken back when there is no
level any more.

* `Alarm.inv_readings`: what was shown last is the last reading, nothing is taken back that was not
  raised, and a level is repeated only after a pause.
-/

namespace EdgeLink

variable {α τ : Type*}

/-- The level that is shown, and when it was raised. -/
structure Alarm (α τ : Type*) where
  active : Option α
  raisedAt : Option τ

namespace Alarm

variable (expired : Option τ → τ → Bool)

/-- Nothing has been raised. -/
def silent : Alarm α τ := ⟨none, none⟩

/-- Whether a reading is shown. -/
def Shows (a : Alarm α τ) (r : τ × Option α) : Prop :=
  r.2 ≠ a.active ∨ (r.2 ≠ none ∧ expired a.raisedAt r.1 = true)

variable [DecidableEq α]

instance (a : Alarm α τ) (r : τ × Option α) : Decidable (Shows expired a r) :=
  inferInstanceAs (Decidable (_ ∨ _))

/-- A reading is taken. -/
def step (a : Alarm α τ) (r : τ × Option α) : Alarm α τ :=
  if Shows expired a r then ⟨r.2, if r.2 = none then a.raisedAt else some r.1⟩ else a

/-- The readings that are shown. -/
def shown (a : Alarm α τ) (r : τ × Option α) : List (τ × Option α) :=
  if Shows expired a r then [r] else []

/-- One reading shown after another: a change, or a level again after the pause. -/
def Follows (r r' : τ × Option α) : Prop :=
  r'.2 ≠ r.2 ∨ (r'.2 ≠ none ∧ expired (some r.1) r'.1 = true)

/-- An alarm that has taken some readings and shown some of them. -/
structure Inv (readings shown : List (τ × Option α)) (a : Alarm α τ) : Prop where
  active : a.active = readings.getLast?.bind (·.2)
  last : a.active = shown.getLast?.bind (·.2)
  raised : ∀ r ∈ shown.getLast?, r.2 ≠ none → a.raisedAt = some r.1
  first : ∀ r ∈ shown.head?, r.2 ≠ none
  follows : shown.IsChain (Follows expired)
  sublist : shown.Sublist readings

variable {expired}

omit [DecidableEq α] in
theorem inv_silent : Inv expired [] [] (silent : Alarm α τ) :=
  ⟨rfl, rfl, by simp, by simp, List.isChain_nil, List.Sublist.refl []⟩

theorem Inv.step {readings log : List (τ × Option α)} {a : Alarm α τ}
    (h : Inv expired readings log a) (r : τ × Option α) :
    Inv expired (readings ++ [r]) (log ++ shown expired a r) (step expired a r) := by
  rw [shown, Alarm.step]
  by_cases hshows : Shows expired a r
  · rw [if_pos hshows, if_pos hshows]
    refine ⟨by simp, by simp, ?_, ?_, ?_, h.sublist.append_right [r]⟩
    · simp +contextual
    · -- the first reading that is shown is a level, since nothing was active before it
      intro r' hr'
      cases log with
      | cons r'' log => exact h.first r' hr'
      | nil =>
        obtain rfl : r = r' := by simpa using hr'
        have hsilent : a.active = none := h.last
        rcases hshows with hne | ⟨hne, -⟩
        · rw [hsilent] at hne
          exact hne
        · exact hne
    · rw [List.isChain_append]
      refine ⟨h.follows, List.isChain_singleton r, fun r' hr' r'' hr'' => ?_⟩
      obtain rfl : r = r'' := by simpa using hr''
      have hactive : a.active = r'.2 := by
        rw [h.last, Option.mem_def.1 hr']
        rfl
      rcases hshows with hne | ⟨hne, hpause⟩
      · exact Or.inl (hactive ▸ hne)
      · by_cases hsame : r.2 = r'.2
        · rw [h.raised r' hr' (hsame ▸ hne)] at hpause
          exact Or.inr ⟨hne, hpause⟩
        · exact Or.inl hsame
  · rw [if_neg hshows, if_neg hshows, List.append_nil]
    have hsame : r.2 = a.active := by
      by_contra hne
      exact hshows (Or.inl hne)
    refine ⟨by simp [hsame], h.last, h.raised, h.first, h.follows, ?_⟩
    exact h.sublist.trans (List.sublist_append_left ..)

/-- **The rule for alarms.** After any readings the alarm is at the last reading, and so is what was
shown last; what is shown begins with a level, and every next thing shown is a change or comes after
the pause. -/
theorem inv_readings (readings : List (τ × Option α)) :
    Inv expired readings (trace (step expired) (shown expired) silent readings)
      (run (step expired) silent readings) := by
  suffices h : ∀ (before log after : List (τ × Option α)) (a : Alarm α τ),
      Inv expired before log a →
      Inv expired (before ++ after) (log ++ trace (step expired) (shown expired) a after)
        (run (step expired) a after) from h [] [] readings silent inv_silent
  intro before log after
  induction after generalizing before log with
  | nil =>
    intro a ha
    simpa [trace] using ha
  | cons r after ih =>
    intro a ha
    have hrest := ih (before ++ [r]) _ _ (ha.step r)
    rw [trace_cons, run_cons, ← List.append_assoc]
    rwa [List.append_assoc before, List.singleton_append] at hrest

end Alarm

end EdgeLink
