import Mathlib.Logic.Basic
import Mathlib.Data.Int.Notation
import Mathlib.Data.List.Basic
import Mathlib.Order.Basic

/-!
# Runs of a step function

A component is a step function `step : σ → ε → σ`: the events are everything the outside decides
(which datagram arrives, which timer fires, which send fails), and a run is a list of events.

* `run step s es` is the state after the events `es`.
* `Along step P s es` says that `P` holds of every step of that run, as a relation between the
  state before the step and its event.
* `trace` is what a run puts out, and `total` sums a measure over its steps.
* `Along.invariant` is the invariant rule: what every step that meets a condition preserves holds
  at the end of every run whose steps all meet it. `Along.of_invariant` is the rule for a
  property of the steps themselves, `Along.congr_of_invariant` for two equivalent ones.
* `forall_prefix_iff_along` is the rule for the exact condition of an invariant.
* `countP_trace_le_one` is the rule for at-most-once properties of the output.
-/

namespace EdgeLink

/-- A reading of the clock, in milliseconds. -/
abbrev Time := ℤ

variable {σ ε : Type*} (step : σ → ε → σ)

/-- The state after the events `es`. -/
def run (s : σ) (es : List ε) : σ := es.foldl step s

/-- `P` holds of every step of the run from `s` over `es`. -/
def Along (P : σ → ε → Prop) : σ → List ε → Prop
  | _, [] => True
  | s, e :: es => P s e ∧ Along P (step s e) es

@[simp] theorem run_nil (s : σ) : run step s [] = s := rfl

@[simp] theorem run_cons (s : σ) (e : ε) (es : List ε) :
    run step s (e :: es) = run step (step s e) es := rfl

theorem run_append (s : σ) (es es' : List ε) :
    run step s (es ++ es') = run step (run step s es) es' := List.foldl_append

variable {step} in
/-- What every step preserves holds at the end of a run. -/
theorem run_invariant {I : σ → Prop} (hstep : ∀ s e, I s → I (step s e)) {s : σ} (hs : I s)
    (es : List ε) : I (run step s es) := by
  induction es generalizing s with
  | nil => exact hs
  | cons e es ih => exact ih (hstep s e hs)

instance Along.decidable {P : σ → ε → Prop} [∀ s e, Decidable (P s e)] :
    ∀ s es, Decidable (Along step P s es)
  | _, [] => isTrue trivial
  | s, e :: es => @instDecidableAnd _ _ _ (Along.decidable (step s e) es)

variable {step}

theorem along_append {P : σ → ε → Prop} {s : σ} {es es' : List ε} :
    Along step P s (es ++ es') ↔ Along step P s es ∧ Along step P (run step s es) es' := by
  induction es generalizing s with
  | nil => simp [Along]
  | cons e es ih => simp only [List.cons_append, Along, ih, run_cons, and_assoc]

theorem Along.of_forall {P : σ → ε → Prop} (h : ∀ s e, P s e) (s : σ) (es : List ε) :
    Along step P s es := by
  induction es generalizing s with
  | nil => trivial
  | cons e es ih => exact ⟨h s e, ih _⟩

theorem Along.mono {P Q : σ → ε → Prop} (h : ∀ s e, P s e → Q s e) {s : σ} {es : List ε}
    (hs : Along step P s es) : Along step Q s es := by
  induction es generalizing s with
  | nil => trivial
  | cons e es ih => exact ⟨h s e hs.1, ih hs.2⟩

theorem Along.and {P Q : σ → ε → Prop} {s : σ} {es : List ε} (hP : Along step P s es)
    (hQ : Along step Q s es) : Along step (fun s e => P s e ∧ Q s e) s es := by
  induction es generalizing s with
  | nil => trivial
  | cons e es ih => exact ⟨⟨hP.1, hQ.1⟩, ih hP.2 hQ.2⟩

theorem Along.and_mem {P : σ → ε → Prop} {Q : ε → Prop} {s : σ} {es : List ε}
    (hs : Along step P s es) (hQ : ∀ e ∈ es, Q e) : Along step (fun s e => P s e ∧ Q e) s es := by
  induction es generalizing s with
  | nil => trivial
  | cons e es ih =>
    exact ⟨⟨hs.1, hQ e List.mem_cons_self⟩, ih hs.2 fun e he => hQ e (List.mem_cons_of_mem _ he)⟩

/-- **The invariant rule.** What holds at the start and is preserved by every step that meets `C`
holds at the end of every run whose steps all meet `C`. -/
theorem Along.invariant {I : σ → Prop} {C : σ → ε → Prop}
    (hstep : ∀ s e, I s → C s e → I (step s e)) {s : σ} (hs : I s) {es : List ε}
    (h : Along step C s es) : I (run step s es) := by
  induction es generalizing s with
  | nil => exact hs
  | cons e es ih => exact ih (hstep s e hs h.1) h.2

/-- **The rule for step properties.** Where an invariant gives `P` at every step that meets `C`,
`P` holds along every run whose steps all meet `C`. -/
theorem Along.of_invariant {I : σ → Prop} {C P : σ → ε → Prop}
    (hstep : ∀ s e, I s → C s e → P s e ∧ I (step s e)) {s : σ} (hs : I s) {es : List ε}
    (h : Along step C s es) : Along step P s es := by
  induction es generalizing s with
  | nil => trivial
  | cons e es ih =>
    obtain ⟨hP, hI⟩ := hstep s e hs h.1
    exact ⟨hP, ih hI h.2⟩

/-- Where the entries of a run have `Q`, which keeps an invariant and gives `P` at every step, `P`
holds along the run, and the invariant at its end. -/
theorem along_and_run {I : σ → Prop} {P : σ → ε → Prop} {Q : ε → Prop}
    (hstep : ∀ s e, I s → Q e → P s e ∧ I (step s e)) {s : σ} (hs : I s) {es : List ε}
    (hQ : ∀ e ∈ es, Q e) : Along step P s es ∧ I (run step s es) := by
  induction es generalizing s with
  | nil => exact ⟨trivial, hs⟩
  | cons e es ih =>
    obtain ⟨hP, hI⟩ := hstep s e hs (hQ e List.mem_cons_self)
    obtain ⟨hrest, hend⟩ := ih hI fun e he => hQ e (List.mem_cons_of_mem _ he)
    exact ⟨⟨hP, hrest⟩, hend⟩

/-- Where an invariant that every step with `P` preserves makes `P` and `Q` equivalent at every
step that meets `C`, they hold along the same runs whose steps all meet `C`. -/
theorem Along.congr_of_invariant {I : σ → Prop} {C P Q : σ → ε → Prop}
    (hstep : ∀ s e, I s → C s e → (P s e ↔ Q s e) ∧ (P s e → I (step s e))) {s : σ} (hs : I s)
    {es : List ε} (h : Along step C s es) : Along step P s es ↔ Along step Q s es := by
  induction es generalizing s with
  | nil => exact Iff.rfl
  | cons e es ih =>
    obtain ⟨hPQ, hI⟩ := hstep s e hs h.1
    constructor
    · rintro ⟨hP, hPs⟩
      exact ⟨hPQ.1 hP, (ih (hI hP) h.2).1 hPs⟩
    · rintro ⟨hQ, hQs⟩
      exact ⟨hPQ.2 hQ, (ih (hI (hPQ.2 hQ)) h.2).2 hQs⟩

/-- **The rule for exact conditions.** Where `I` survives exactly the steps with `C`, it holds in
every state of exactly the runs whose steps all have `C`. -/
theorem forall_prefix_iff_along {I : σ → Prop} {C : σ → ε → Prop}
    (hstep : ∀ s e, I s → (I (step s e) ↔ C s e)) {s : σ} (hs : I s) (es : List ε) :
    (∀ before after, es = before ++ after → I (run step s before)) ↔ Along step C s es := by
  induction es generalizing s with
  | nil =>
    refine iff_of_true ?_ trivial
    intro before after h
    rw [(List.append_eq_nil_iff.1 h.symm).1]
    exact hs
  | cons e es ih =>
    constructor
    · intro h
      have hnext := h [e] es rfl
      refine ⟨(hstep s e hs).1 hnext, (ih hnext).1 fun before after heq => ?_⟩
      exact h (e :: before) after (by rw [heq, List.cons_append])
    · rintro ⟨hC, hCs⟩ before after heq
      cases before with
      | nil => exact hs
      | cons e' before =>
        obtain ⟨rfl, htail⟩ := List.cons.inj heq
        exact (ih ((hstep s e hs).2 hC)).2 hCs before after htail

/-- **The rule for measures.** Where no step lowers a measure, and exactly the steps with `C` keep
it, exactly the runs whose steps all have `C` end where they began. -/
theorem run_eq_iff_along {α : Type*} [PartialOrder α] {f : σ → α} {C : σ → ε → Prop}
    (hstep : ∀ s e, f s ≤ f (step s e) ∧ (f (step s e) = f s ↔ C s e)) (s : σ) (es : List ε) :
    f s ≤ f (run step s es) ∧ (f (run step s es) = f s ↔ Along step C s es) := by
  induction es generalizing s with
  | nil => exact ⟨le_rfl, iff_of_true rfl trivial⟩
  | cons e es ih =>
    obtain ⟨hle, hkeep⟩ := hstep s e
    obtain ⟨hle', hkeep'⟩ := ih (step s e)
    refine ⟨hle.trans hle', ?_⟩
    constructor
    · intro heq
      have hone : f (step s e) = f s := le_antisymm (hle'.trans heq.le) hle
      exact ⟨hkeep.1 hone, hkeep'.1 (heq.trans hone.symm)⟩
    · rintro ⟨hC, hCs⟩
      exact (hkeep'.2 hCs).trans (hkeep.2 hC)

/-! ## The output of a run -/

section Trace

variable {ο : Type*} (step) (out : σ → ε → List ο)

/-- What the run from `s` over `es` puts out. -/
def trace : σ → List ε → List ο
  | _, [] => []
  | s, e :: es => out s e ++ trace (step s e) es

/-- The sum of a measure over the steps of the run from `s` over `es`. -/
def total (f : σ → ε → ℕ) : σ → List ε → ℕ
  | _, [] => 0
  | s, e :: es => f s e + total f (step s e) es

@[simp] theorem trace_cons (s : σ) (e : ε) (es : List ε) :
    trace step out s (e :: es) = out s e ++ trace step out (step s e) es := rfl

theorem trace_append (s : σ) (es es' : List ε) :
    trace step out s (es ++ es') = trace step out s es ++ trace step out (run step s es) es' := by
  induction es generalizing s with
  | nil => rfl
  | cons e es ih => rw [List.cons_append, trace_cons, trace_cons, ih, run_cons, List.append_assoc]

variable {step out}

/-- **The at-most-once rule.** Before the first output with `p` the run satisfies `I`, after it
`J`, and under `J` there is no such output. Both are relations between a state and the events
that are still to come. -/
theorem countP_trace_le_one {p : ο → Bool} {I J : σ → List ε → Prop}
    (hI : ∀ s e es, I s (e :: es) → ((out s e).countP p = 0 ∧ I (step s e) es) ∨
      ((out s e).countP p ≤ 1 ∧ J (step s e) es))
    (hJ : ∀ s e es, J s (e :: es) → (out s e).countP p = 0 ∧ J (step s e) es)
    {s : σ} {es : List ε} (hs : I s es) : (trace step out s es).countP p ≤ 1 := by
  have after : ∀ es s, J s es → (trace step out s es).countP p = 0 := by
    intro es
    induction es with
    | nil => exact fun _ _ => rfl
    | cons e es ih =>
      intro s hs
      obtain ⟨h0, hs'⟩ := hJ s e es hs
      rw [trace_cons, List.countP_append, h0, ih _ hs']
  induction es generalizing s with
  | nil => exact Nat.zero_le 1
  | cons e es ih =>
    rw [trace_cons, List.countP_append]
    rcases hI s e es hs with ⟨h0, hs'⟩ | ⟨h1, hs'⟩
    · have := ih hs'
      omega
    · have := after es _ hs'
      omega

end Trace

end EdgeLink
