import EdgeLink.App.ConnectionManager

/-!
# Supersession

Calls of the connection manager overlap: a `start()` that is suspended at an await may find, when it
continues, that a newer call has torn its instances down and owns the registry.

* `Inv`: the registry holds the instances of the current call that have not been stopped, every
  other instance has been stopped, and every instance is owned by the call that created it.
* `Inv.stop`, `Inv.start`, `Inv.update`, `Inv.startClients`, `Inv.rollBack`, `Inv.failed`: it is
  kept by every call, completion and continuation.
* `supersession`: in every run, what the invariant says of the resources, the registry and the order
  of the calls.
-/

namespace EdgeLink

open JsValue

namespace Manager

variable {s : Manager} {deps : ManagerDeps}

/-! ## The invariant -/

/-- The instances that a call of `start()` owns are those of its generation. -/
def Owns (s : Manager) (generation : ℕ) (owned : OrderedMap String ℕ) : Prop :=
  ∀ h, h ∈ owned.values ↔ ∃ inst, s.table[h]? = some inst ∧ inst.generation = generation

/-- How the instances of the current call stand at each of its awaits. -/
def Stage (s : Manager) (attempt : StartAttempt) : Prop :=
  match attempt.phase with
  | .servers => ∀ h ∈ attempt.owned.values, ∀ inst ∈ s.table[h]?, ¬ inst.Stopped ∧
      (inst.serverMode = true → inst.startState ≠ .idle)
  | .clients => ∀ h ∈ attempt.owned.values, ∀ inst ∈ s.table[h]?, ¬ inst.Stopped ∧
      inst.startState ≠ .idle
  | .done => ∀ h ∈ attempt.owned.values, ∀ inst ∈ s.table[h]?,
      inst.startState ≠ .idle ∧ inst.startState ≠ .pending ∧
        (inst.Stopped ↔ s.startError attempt.owned)

/-- **The invariant.** The registry holds the instances of the current call that have not been
stopped, every other instance has been stopped, and every instance is owned by the call that
created it. -/
structure Inv (s : Manager) : Prop where
  valid : ∀ (h : ℕ) (inst : Instance), s.table[h]? = some inst → inst.Valid s.startGeneration
  registered : ∀ id h, s.instances.get? id = some h →
    ∃ inst, s.table[h]? = some inst ∧ inst.generation = s.startGeneration
  reachable : ∀ (h : ℕ) (inst : Instance), s.table[h]? = some inst → ¬ inst.Stopped →
    ∃ id, s.instances.get? id = some h
  owned : ∀ g attempt, s.attempts.get? g = some attempt → g ≤ s.startGeneration ∧
    s.Owns g attempt.owned
  owner : ∀ (h : ℕ) (inst : Instance), s.table[h]? = some inst →
    ∃ attempt, s.attempts.get? inst.generation = some attempt
  current : ∀ attempt, s.attempts.get? s.startGeneration = some attempt → s.Stage attempt

theorem inv_new : new.Inv where
  valid _ _ hinst := nomatch hinst
  registered _ _ hget := nomatch hget
  reachable _ _ hinst := nomatch hinst
  owned _ _ hget := nomatch hget
  owner _ _ hinst := nomatch hinst
  current _ hget := nomatch hget

/-! ## The calls -/

/-- An update that keeps the generations keeps who owns what. -/
theorem Owns.update {g : ℕ} {owned : OrderedMap String ℕ} (h : s.Owns g owned) (hs : List ℕ)
    {f : Instance → Instance} (hf : ∀ inst, (f inst).generation = inst.generation) :
    (s.update hs f).Owns g owned := by
  intro k
  rw [h k, getElem?_update]
  constructor
  · rintro ⟨inst, hinst, hgen⟩
    refine ⟨_, by rw [hinst]; rfl, ?_⟩
    dsimp only
    split_ifs
    · exact (hf inst).trans hgen
    · exact hgen
  · rintro ⟨inst', hinst', hgen⟩
    obtain ⟨inst, hinst, rfl⟩ := Option.map_eq_some_iff.1 hinst'
    refine ⟨inst, hinst, ?_⟩
    split_ifs at hgen
    · exact (hf inst).symm.trans hgen
    · exact hgen

/-- A call that is written back with what it owned keeps who owns what. -/
theorem Inv.owned_set (h : s.Inv) {s' : Manager} {g : ℕ} {attempt : StartAttempt}
    (hget : s.attempts.get? g = some attempt)
    (hsame : ∀ g owned, s.Owns g owned → s'.Owns g owned) {phase : StartPhase} {g' : ℕ}
    {attempt' : StartAttempt}
    (hget' : (s.attempts.set g { attempt with phase := phase }).get? g' = some attempt') :
    g' ≤ s.startGeneration ∧ s'.Owns g' attempt'.owned := by
  rw [OrderedMap.get?_set] at hget'
  split_ifs at hget' with hg
  · obtain rfl := Option.some.inj hget'
    rw [hg]
    exact (h.owned g attempt hget).imp_right (hsame g _)
  · exact (h.owned g' attempt' hget').imp_right (hsame g' _)

/-- And every instance keeps its owner. -/
theorem Inv.owner_set (h : s.Inv) (g : ℕ) (changed : StartAttempt) {k : ℕ} {inst : Instance}
    (hinst : s.table[k]? = some inst) :
    ∃ attempt', (s.attempts.set g changed).get? inst.generation = some attempt' := by
  rw [OrderedMap.get?_set]
  split_ifs
  · exact ⟨_, rfl⟩
  · exact h.owner k inst hinst

/-- The stage of a call only looks at its own instances. -/
theorem Stage.congr {s' : Manager} {attempt : StartAttempt} (h : s.Stage attempt)
    (hsame : ∀ k ∈ attempt.owned.values, s'.table[k]? = s.table[k]?) : s'.Stage attempt := by
  have herror : s'.startError attempt.owned ↔ s.startError attempt.owned := by
    constructor
    · rintro ⟨k, hk, hfailed⟩
      exact ⟨k, hk, hsame k hk ▸ hfailed⟩
    · rintro ⟨k, hk, hfailed⟩
      exact ⟨k, hk, (hsame k hk).symm ▸ hfailed⟩
  rw [Stage] at h ⊢
  cases hphase : attempt.phase with
  | servers =>
    rw [hphase] at h
    exact fun k hk inst hinst => h k hk inst (hsame k hk ▸ hinst)
  | clients =>
    rw [hphase] at h
    exact fun k hk inst hinst => h k hk inst (hsame k hk ▸ hinst)
  | done =>
    rw [hphase] at h
    intro k hk inst hinst
    rw [herror]
    exact h k hk inst (hsame k hk ▸ hinst)

/-- A `stop()` leaves an empty registry, and no instance that has not been stopped. -/
theorem Inv.stop (h : s.Inv) : s.stop.Inv ∧
    ∀ (k : ℕ) (inst : Instance), s.stop.table[k]? = some inst → inst.Stopped ∧
      inst.generation < s.stop.startGeneration := by
  have hstopped : ∀ (k : ℕ) (inst : Instance), s.stop.table[k]? = some inst →
      inst.Valid (s.startGeneration + 1) ∧ inst.Stopped ∧ inst.generation ≤ s.startGeneration ∧
        ∃ inst', s.table[k]? = some inst' ∧ inst'.generation = inst.generation := by
    intro k inst hinst
    obtain ⟨inst', hinst', rfl⟩ := exists_of_getElem?_update hinst
    have hvalid := h.valid k inst' hinst'
    split_ifs with hmem
    · exact ⟨hvalid.stop.mono Instance.stopped_stop (Nat.le_succ _), Instance.stopped_stop,
        hvalid.le, inst', hinst', rfl⟩
    · have hold : inst'.Stopped := by
        by_contra hrunning
        exact hmem (OrderedMap.mem_values.2 (h.reachable k inst' hinst' hrunning))
      exact ⟨hvalid.mono hold (Nat.le_succ _), hold, hvalid.le, inst', hinst', rfl⟩
  refine ⟨⟨fun k inst hinst => (hstopped k inst hinst).1, fun _ _ hget => (nomatch hget),
    fun k inst hinst hrunning => absurd (hstopped k inst hinst).2.1 hrunning, ?_, ?_, ?_⟩,
    fun k inst hinst => ⟨(hstopped k inst hinst).2.1, Nat.lt_succ_of_le (hstopped k inst hinst).2.2.1⟩⟩
  · intro g attempt hget
    obtain ⟨hle, howns⟩ := h.owned g attempt hget
    exact ⟨hle.trans (Nat.le_succ _), howns.update _ fun _ => rfl⟩
  · intro k inst hinst
    obtain ⟨-, -, -, inst', hinst', hgen⟩ := hstopped k inst hinst
    rw [← hgen]
    exact h.owner k inst' hinst'
  · intro attempt hget
    exact absurd (h.owned _ attempt hget).1 (by simp [Manager.stop, teardownAll, update])

/-- What the creation of the instances of a call has done so far: the instances are registered and
owned, they are new, and the others are as before. -/
structure Created (old s : Manager) (owned : OrderedMap String ℕ) : Prop where
  startGeneration : s.startGeneration = old.startGeneration
  attempts : s.attempts = old.attempts
  instances : s.instances = owned
  mem_values : ∀ h, h ∈ owned.values ↔ old.table.length ≤ h ∧ h < s.table.length
  earlier : ∀ h < old.table.length, s.table[h]? = old.table[h]?
  fresh : ∀ (h : ℕ) (inst : Instance), old.table.length ≤ h → s.table[h]? = some inst →
    inst = ⟨old.startGeneration, inst.serverMode, [], .idle, false⟩

theorem Created.createInstances {old : Manager} {owned : OrderedMap String ℕ}
    (h : Created old s owned) (hle : old.table.length ≤ s.table.length)
    (connectionList : List JsValue) :
    Created old (createInstances deps s owned connectionList).1
      (createInstances deps s owned connectionList).2 := by
  induction connectionList generalizing s owned with
  | nil => exact h
  | cons cfg connectionList ih =>
    have hunused := generateInstanceId_notMem deps.slugify (nameOr deps cfg "connection") owned.keys
    refine ih ⟨h.startGeneration, h.attempts, by rw [h.instances], fun k => ?_, fun k hk => ?_,
      fun k inst hk hinst => ?_⟩ (by rw [List.length_append]; omega)
    · rw [OrderedMap.mem_values_set hunused, h.mem_values k, List.length_append,
        List.length_singleton]
      omega
    · rw [List.getElem?_append_left (by omega)]
      exact h.earlier k hk
    · rcases lt_or_ge k s.table.length with hlt | hge
      · rw [List.getElem?_append_left hlt] at hinst
        exact h.fresh k inst hk hinst
      · rw [List.getElem?_append_right hge, List.getElem?_singleton] at hinst
        split_ifs at hinst
        obtain rfl := Option.some.inj hinst
        rw [h.startGeneration]

theorem mem_group {owned : OrderedMap String ℕ} {serverMode : Bool} {h : ℕ} :
    h ∈ s.group owned serverMode ↔ h ∈ owned.values ∧
      s.table[h]?.map Instance.serverMode = some serverMode := by
  simp [group]

/-- A fresh instance is valid, before and after its start. -/
theorem valid_fresh (g : ℕ) (serverMode : Bool) :
    Instance.Valid g ⟨g, serverMode, [], .idle, false⟩ where
  orderly := List.Pairwise.nil
  released _ := rfl
  holds _ hsucceeded := nomatch hsucceeded
  le := le_rfl
  past hlt := absurd hlt (lt_irrefl g)

/-- The instances after the servers of a new call have been started. -/
theorem Created.getElem?_startGroup {old : Manager} {owned : OrderedMap String ℕ}
    (h : Created old s owned) {k : ℕ} {inst : Instance}
    (hinst : (s.startGroup owned true).table[k]? = some inst) :
    (k < old.table.length ∧ old.table[k]? = some inst) ∨
      (k ∈ owned.values ∧ inst.Valid old.startGeneration ∧ ¬ inst.Stopped ∧
        inst.generation = old.startGeneration ∧
        (inst.serverMode = true → inst.startState ≠ .idle)) := by
  obtain ⟨inst', hinst', heq⟩ := exists_of_getElem?_update hinst
  rcases lt_or_ge k old.table.length with hlt | hge
  · left
    have hnot : k ∉ s.group owned true := by
      rw [mem_group, h.mem_values]
      omega
    rw [if_neg hnot] at heq
    rw [heq, ← h.earlier k hlt]
    exact ⟨hlt, hinst'⟩
  · right
    have hfresh := h.fresh k inst' hge hinst'
    have hrunning : ¬ inst'.Stopped := by
      rw [hfresh]
      exact List.not_mem_nil
    have hvalid : inst'.Valid old.startGeneration := by
      rw [hfresh]
      exact valid_fresh _ _
    have hgen : inst'.generation = old.startGeneration := by rw [hfresh]
    have hmem : k ∈ owned.values :=
      (h.mem_values k).2 ⟨hge, (List.getElem?_eq_some_iff.1 hinst').1⟩
    refine ⟨hmem, ?_⟩
    subst heq
    split_ifs with hgroup
    · exact ⟨hvalid.start hrunning, by rwa [Instance.stopped_start], hgen, fun _ => nofun⟩
    · refine ⟨hvalid, hrunning, hgen, fun hserver => absurd ?_ hgroup⟩
      rw [mem_group, hinst', Option.map_some, hserver]
      exact ⟨hmem, rfl⟩

/-- The instances of the earlier attempts are as they were. -/
theorem Created.earlier_startGroup {old : Manager} {owned : OrderedMap String ℕ}
    (h : Created old s owned) {k : ℕ} {inst : Instance} (hinst : old.table[k]? = some inst) :
    (s.startGroup owned true).table[k]? = some inst := by
  have hlt := (List.getElem?_eq_some_iff.1 hinst).1
  have hnot : k ∉ s.group owned true := by
    rw [mem_group, h.mem_values]
    omega
  rw [startGroup, getElem?_update_of_notMem hnot, h.earlier k hlt, hinst]

/-- The instances of a call are of its generation. -/
theorem Created.generation_startGroup {old : Manager} {owned : OrderedMap String ℕ}
    (h : Created old s owned) {k : ℕ} (hk : k ∈ owned.values) :
    ∃ inst, (s.startGroup owned true).table[k]? = some inst ∧
      inst.generation = old.startGeneration := by
  have hlt := (h.mem_values k).1 hk
  obtain ⟨inst, hinst⟩ : ∃ inst, (s.startGroup owned true).table[k]? = some inst := by
    rw [startGroup, getElem?_update, List.getElem?_eq_getElem hlt.2]
    exact ⟨_, rfl⟩
  rcases h.getElem?_startGroup hinst with ⟨hlt', -⟩ | ⟨-, -, -, hgen, -⟩
  · omega
  · exact ⟨inst, hinst, hgen⟩

/-- The call owns the instances it has created, and no others. -/
theorem Created.owns {old : Manager} {owned : OrderedMap String ℕ} (h : Created old s owned)
    (hpast : ∀ (k : ℕ) (inst : Instance), old.table[k]? = some inst →
      inst.generation < old.startGeneration) :
    Owns (s.startGroup owned true) old.startGeneration owned := by
  refine fun k => ⟨h.generation_startGroup, ?_⟩
  rintro ⟨inst, hinst, hgen⟩
  rcases h.getElem?_startGroup hinst with ⟨-, hold⟩ | ⟨hmem, -⟩
  · exact absurd (hpast k inst hold) (by omega)
  · exact hmem

/-- An earlier attempt owns what it owned. -/
theorem Created.owns_earlier {old : Manager} {owned : OrderedMap String ℕ} (h : Created old s owned)
    {g : ℕ} (hne : g ≠ old.startGeneration) {owned' : OrderedMap String ℕ}
    (howns : Owns old g owned') : Owns (s.startGroup owned true) g owned' := by
  refine fun k => (howns k).trans ⟨?_, ?_⟩
  · rintro ⟨inst, hinst, hgen⟩
    exact ⟨inst, h.earlier_startGroup hinst, hgen⟩
  · rintro ⟨inst, hinst, hgen⟩
    rcases h.getElem?_startGroup hinst with ⟨-, hold⟩ | ⟨-, -, -, hgen', -⟩
    · exact ⟨inst, hold, hgen⟩
    · exact absurd (hgen.symm.trans hgen') hne

/-- A valid call of `start()`, from a state without live instances. -/
theorem Inv.start {old : Manager} (h : old.Inv)
    (hpast : ∀ (k : ℕ) (inst : Instance), old.table[k]? = some inst → inst.Stopped ∧
      inst.generation < old.startGeneration)
    {owned : OrderedMap String ℕ} (hcreated : Created old s owned) :
    ({ s.startGroup owned true with
      attempts := s.attempts.set s.startGeneration ⟨owned, .servers⟩ } : Manager).Inv := by
  have hgen : s.startGeneration = old.startGeneration := hcreated.startGeneration
  constructor
  case valid =>
    intro k inst hinst
    change inst.Valid s.startGeneration
    rw [hgen]
    rcases hcreated.getElem?_startGroup hinst with ⟨-, hold⟩ | ⟨-, hvalid, -⟩
    · exact h.valid k inst hold
    · exact hvalid
  case registered =>
    intro id k hget
    change s.instances.get? id = some k at hget
    rw [hcreated.instances] at hget
    obtain ⟨inst, hinst, hgen'⟩ :=
      hcreated.generation_startGroup (OrderedMap.mem_values.2 ⟨id, hget⟩)
    exact ⟨inst, hinst, hgen'.trans hgen.symm⟩
  case reachable =>
    intro k inst hinst hrunning
    change ∃ id, s.instances.get? id = some k
    rw [hcreated.instances]
    rcases hcreated.getElem?_startGroup hinst with ⟨-, hold⟩ | ⟨hmem, -⟩
    · exact absurd (hpast k inst hold).1 hrunning
    · exact OrderedMap.mem_values.1 hmem
  case owned =>
    intro g attempt hget
    change (s.attempts.set s.startGeneration ⟨owned, .servers⟩).get? g = some attempt at hget
    change g ≤ s.startGeneration ∧ Owns (s.startGroup owned true) g attempt.owned
    rw [OrderedMap.get?_set, hcreated.attempts, hgen] at hget
    rw [hgen]
    split_ifs at hget with heq
    · obtain rfl := Option.some.inj hget
      exact ⟨heq.le, heq ▸ hcreated.owns fun k inst hold => (hpast k inst hold).2⟩
    · obtain ⟨hle, howns⟩ := h.owned g attempt hget
      exact ⟨hle, hcreated.owns_earlier heq howns⟩
  case owner =>
    intro k inst hinst
    change ∃ attempt, (s.attempts.set s.startGeneration ⟨owned, .servers⟩).get? inst.generation =
      some attempt
    rw [OrderedMap.get?_set, hcreated.attempts, hgen]
    split_ifs with heq
    · exact ⟨_, rfl⟩
    · rcases hcreated.getElem?_startGroup hinst with ⟨-, hold⟩ | ⟨-, -, -, hgen', -⟩
      · exact h.owner k inst hold
      · exact absurd hgen' heq
  case current =>
    intro attempt hget
    change (s.attempts.set s.startGeneration ⟨owned, .servers⟩).get? s.startGeneration =
      some attempt at hget
    rw [OrderedMap.get?_set_self] at hget
    obtain rfl := Option.some.inj hget
    intro k hk inst hinst
    rcases hcreated.getElem?_startGroup hinst with ⟨hlt, -⟩ | ⟨-, -, hrunning, -, hserver⟩
    · exact absurd ((hcreated.mem_values k).1 hk).1 (by omega)
    · exact ⟨hrunning, hserver⟩

/-! ## The completions -/

/-- What the start of an instance does by itself. -/
structure Settles (f : Instance → Instance) : Prop where
  valid : ∀ {inst g}, inst.Valid g → (f inst).Valid g
  generation : ∀ inst, (f inst).generation = inst.generation
  serverMode : ∀ inst, (f inst).serverMode = inst.serverMode
  stopped : ∀ inst, (f inst).Stopped ↔ inst.Stopped
  pending : ∀ inst, inst.startState ≠ .pending → f inst = inst
  notIdle : ∀ inst, inst.startState = .pending → (f inst).startState ≠ .idle

theorem settles_acquire : Settles Instance.acquire where
  valid h := h.acquire
  generation inst := by rw [Instance.acquire]; split_ifs <;> rfl
  serverMode inst := by rw [Instance.acquire]; split_ifs <;> rfl
  stopped _ := Instance.stopped_acquire
  pending inst h := if_neg fun hpending => h hpending.1
  notIdle inst h := by rw [Instance.acquire]; split_ifs <;> simp [h]

theorem settles_settle (ok leftover : Bool) : Settles (Instance.settle · ok leftover) where
  valid h := h.settle ok leftover
  generation inst := by rw [Instance.settle]; split_ifs <;> rfl
  serverMode inst := by rw [Instance.settle]; split_ifs <;> rfl
  stopped _ := Instance.stopped_settle
  pending inst h := if_neg h
  notIdle inst h := by rw [Instance.settle, if_pos h]; cases ok <;> simp

theorem Stage.update {f : Instance → Instance} (hf : Settles f) {attempt : StartAttempt}
    (h : s.Stage attempt) (hs : List ℕ) : (s.update hs f).Stage attempt := by
  have hrunning : ∀ {k : ℕ} {inst : Instance}, (s.update hs f).table[k]? = some inst →
      ∃ inst', s.table[k]? = some inst' ∧ (inst.Stopped ↔ inst'.Stopped) ∧
        inst.serverMode = inst'.serverMode ∧
        (inst'.startState ≠ .idle → inst.startState ≠ .idle) := by
    intro k inst hinst
    obtain ⟨inst', hinst', rfl⟩ := exists_of_getElem?_update hinst
    refine ⟨inst', hinst', ?_⟩
    split_ifs
    · refine ⟨hf.stopped inst', hf.serverMode inst', fun hidle => ?_⟩
      by_cases hpending : inst'.startState = .pending
      · exact hf.notIdle inst' hpending
      · rwa [hf.pending inst' hpending]
    · exact ⟨Iff.rfl, rfl, id⟩
  cases hphase : attempt.phase with
  | servers =>
    rw [Stage, hphase] at h ⊢
    intro k hk inst hinst
    obtain ⟨inst', hinst', hstopped, hmode, hidle⟩ := hrunning hinst
    rw [hstopped, hmode]
    exact ⟨(h k hk inst' hinst').1, fun hserver => hidle ((h k hk inst' hinst').2 hserver)⟩
  | clients =>
    rw [Stage, hphase] at h ⊢
    intro k hk inst hinst
    obtain ⟨inst', hinst', hstopped, -, hidle⟩ := hrunning hinst
    rw [hstopped]
    exact ⟨(h k hk inst' hinst').1, hidle (h k hk inst' hinst').2⟩
  | done =>
    -- nothing is pending any more
    refine h.congr fun k hk => ?_
    rw [Stage, hphase] at h
    rw [getElem?_update]
    cases hinst : s.table[k]? with
    | none => rfl
    | some inst =>
      rw [Option.map_some, hf.pending inst (h k hk inst hinst).2.1, ite_self]

/-- A completion keeps the invariant. -/
theorem Inv.update {f : Instance → Instance} (hf : Settles f) (h : s.Inv) (hs : List ℕ) :
    (s.update hs f).Inv := by
  have hlookup : ∀ {k : ℕ} {inst : Instance}, (s.update hs f).table[k]? = some inst →
      ∃ inst', s.table[k]? = some inst' ∧ (inst = inst' ∨ inst = f inst') := by
    intro k inst hinst
    obtain ⟨inst', hinst', rfl⟩ := exists_of_getElem?_update hinst
    refine ⟨inst', hinst', ?_⟩
    split_ifs
    · exact Or.inr rfl
    · exact Or.inl rfl
  constructor
  case valid =>
    intro k inst hinst
    obtain ⟨inst', hinst', rfl | rfl⟩ := hlookup hinst
    · exact h.valid k _ hinst'
    · exact hf.valid (h.valid k inst' hinst')
  case registered =>
    intro id k hget
    obtain ⟨inst, hinst, hgen⟩ := h.registered id k hget
    refine ⟨if k ∈ hs then f inst else inst, by rw [getElem?_update, hinst]; rfl, ?_⟩
    split_ifs
    · exact (hf.generation inst).trans hgen
    · exact hgen
  case reachable =>
    intro k inst hinst hrunning
    obtain ⟨inst', hinst', rfl | rfl⟩ := hlookup hinst
    · exact h.reachable k _ hinst' hrunning
    · exact h.reachable k inst' hinst' fun hstopped => hrunning ((hf.stopped inst').2 hstopped)
  case owned =>
    intro g attempt hget
    obtain ⟨hle, howns⟩ := h.owned g attempt hget
    exact ⟨hle, howns.update hs hf.generation⟩
  case owner =>
    intro k inst hinst
    obtain ⟨inst', hinst', rfl | rfl⟩ := hlookup hinst
    · exact h.owner k _ hinst'
    · rw [hf.generation]
      exact h.owner k inst' hinst'
  case current =>
    intro attempt hget
    exact (h.current attempt hget).update hf hs

/-! ## The continuations -/

/-- After the servers, the clients of the current call are started. -/
theorem Inv.startClients (h : s.Inv) {attempt : StartAttempt}
    (hget : s.attempts.get? s.startGeneration = some attempt) (hphase : attempt.phase = .servers) :
    ({ s.startGroup attempt.owned false with
      attempts := s.attempts.set s.startGeneration { attempt with phase := .clients } } :
        Manager).Inv := by
  have hstage := h.current attempt hget
  rw [Stage, hphase] at hstage
  have hlookup : ∀ {k : ℕ} {inst : Instance},
      (s.startGroup attempt.owned false).table[k]? = some inst →
      ∃ inst', s.table[k]? = some inst' ∧ inst.generation = inst'.generation ∧
        (inst.Stopped ↔ inst'.Stopped) ∧ inst.Valid s.startGeneration ∧
        (k ∈ attempt.owned.values → inst.startState ≠ .idle) := by
    intro k inst hinst
    obtain ⟨inst', hinst', rfl⟩ := exists_of_getElem?_update hinst
    refine ⟨inst', hinst', ?_⟩
    split_ifs with hgroup
    · have hrunning := (hstage k (mem_group.1 hgroup).1 inst' hinst').1
      exact ⟨rfl, Instance.stopped_start, (h.valid k inst' hinst').start hrunning, fun _ => nofun⟩
    · refine ⟨rfl, Iff.rfl, h.valid k inst' hinst', fun hk => (hstage k hk inst' hinst').2 ?_⟩
      by_contra hclient
      rw [mem_group, hinst', Option.map_some] at hgroup
      exact hgroup ⟨hk, by simpa using hclient⟩
  constructor
  case valid =>
    intro k inst hinst
    obtain ⟨-, -, -, -, hvalid, -⟩ := hlookup hinst
    exact hvalid
  case registered =>
    intro id k hid
    obtain ⟨inst, hinst, hgen⟩ := h.registered id k hid
    refine ⟨if k ∈ s.group attempt.owned false then inst.start else inst, ?_, ?_⟩
    · change (s.startGroup attempt.owned false).table[k]? = _
      rw [startGroup, getElem?_update, hinst]
      rfl
    · split_ifs <;> exact hgen
  case reachable =>
    intro k inst hinst hrunning
    obtain ⟨inst', hinst', -, hstopped, -⟩ := hlookup hinst
    exact h.reachable k inst' hinst' (hstopped.not.1 hrunning)
  case owned =>
    intro g attempt' hget'
    exact h.owned_set hget (fun _ _ howns => howns.update _ (f := Instance.start) fun _ => rfl) hget'
  case owner =>
    intro k inst hinst
    obtain ⟨inst', hinst', hgen, -⟩ := hlookup hinst
    rw [hgen]
    exact h.owner_set _ _ hinst'
  case current =>
    intro attempt' hget'
    change (s.attempts.set _ _).get? s.startGeneration = some attempt' at hget'
    rw [OrderedMap.get?_set_self] at hget'
    obtain rfl := Option.some.inj hget'
    intro k hk inst hinst
    obtain ⟨inst', hinst', -, hstopped, -, hidle⟩ := hlookup hinst
    rw [hstopped]
    exact ⟨(hstage k hk inst' hinst').1, hidle hk⟩

/-- What a call owns that has been superseded is no longer registered. -/
theorem Inv.notMem_values (h : s.Inv) {g : ℕ} {attempt : StartAttempt}
    (hget : s.attempts.get? g = some attempt) (hg : g ≠ s.startGeneration) {id : String} {k : ℕ}
    (hid : s.instances.get? id = some k) : k ∉ attempt.owned.values := by
  intro hk
  obtain ⟨inst, hinst, hgen⟩ := h.registered id k hid
  obtain ⟨inst', hinst', hgen'⟩ := ((h.owned g attempt hget).2 k).1 hk
  obtain rfl := Option.some.inj (hinst.symm.trans hinst')
  exact hg (hgen'.symm.trans hgen)

/-- The registry after a roll-back is the one before. -/
theorem Inv.get?_instances_rollBack (h : s.Inv) {g : ℕ} {attempt : StartAttempt}
    (hget : s.attempts.get? g = some attempt) (hg : g ≠ s.startGeneration) (id : String) :
    (s.rollBack g attempt).instances.get? id = s.instances.get? id := by
  change (s.instances.filter _).get? id = _
  rw [OrderedMap.get?_filter]
  cases hid : s.instances.get? id with
  | none => rfl
  | some k =>
    have hother : attempt.owned.get? id ≠ some k := fun howned =>
      h.notMem_values hget hg hid (OrderedMap.mem_values.2 ⟨id, howned⟩)
    rw [Option.filter_some, if_pos (by simpa using hother)]

/-- A roll-back only touches what its call has created. -/
theorem Inv.getElem?_rollBack (h : s.Inv) {g : ℕ} {attempt : StartAttempt}
    (hget : s.attempts.get? g = some attempt) {k : ℕ} {inst : Instance}
    (hinst : s.table[k]? = some inst) (hgen : inst.generation ≠ g) :
    (s.rollBack g attempt).table[k]? = some inst := by
  have hnot : k ∉ attempt.owned.values := by
    intro hk
    obtain ⟨inst', hinst', hgen'⟩ := ((h.owned g attempt hget).2 k).1 hk
    obtain rfl := Option.some.inj (hinst.symm.trans hinst')
    exact hgen hgen'
  exact (getElem?_update_of_notMem hnot Instance.stop).trans hinst

theorem Inv.rollBack (h : s.Inv) {g : ℕ} {attempt : StartAttempt}
    (hget : s.attempts.get? g = some attempt) (hg : g ≠ s.startGeneration) :
    (s.rollBack g attempt).Inv := by
  have hlookup : ∀ {k : ℕ} {inst : Instance}, (s.rollBack g attempt).table[k]? = some inst →
      ∃ inst', s.table[k]? = some inst' ∧ inst.generation = inst'.generation ∧
        (inst'.Stopped → inst.Stopped) ∧ inst.Valid s.startGeneration := by
    intro k inst hinst
    obtain ⟨inst', hinst', rfl⟩ := exists_of_getElem?_update hinst
    refine ⟨inst', hinst', ?_⟩
    split_ifs
    · exact ⟨rfl, fun _ => Instance.stopped_stop, (h.valid k inst' hinst').stop⟩
    · exact ⟨rfl, id, h.valid k inst' hinst'⟩
  constructor
  case valid =>
    intro k inst hinst
    obtain ⟨-, -, -, -, hvalid⟩ := hlookup hinst
    exact hvalid
  case registered =>
    intro id k hid
    rw [h.get?_instances_rollBack hget hg] at hid
    obtain ⟨inst, hinst, hgen⟩ := h.registered id k hid
    exact ⟨inst, h.getElem?_rollBack hget hinst (hgen ▸ hg.symm), hgen⟩
  case reachable =>
    intro k inst hinst hrunning
    obtain ⟨inst', hinst', -, hstopped, -⟩ := hlookup hinst
    obtain ⟨id, hid⟩ := h.reachable k inst' hinst' (mt hstopped hrunning)
    exact ⟨id, (h.get?_instances_rollBack hget hg id).trans hid⟩
  case owned =>
    intro g' attempt' hget'
    exact h.owned_set hget (fun _ _ howns => howns.update _ (f := Instance.stop) fun _ => rfl) hget'
  case owner =>
    intro k inst hinst
    obtain ⟨inst', hinst', hgen, -⟩ := hlookup hinst
    rw [hgen]
    exact h.owner_set _ _ hinst'
  case current =>
    intro attempt' hget'
    change (s.attempts.set _ _).get? s.startGeneration = some attempt' at hget'
    rw [OrderedMap.get?_set_of_ne _ hg.symm] at hget'
    refine (h.current attempt' hget').congr fun k hk => ?_
    obtain ⟨inst, hinst, hgen⟩ := ((h.owned _ attempt' hget').2 k).1 hk
    rw [hinst]
    exact h.getElem?_rollBack hget hinst (hgen ▸ hg.symm)

/-- A call that ends only changes its phase. -/
theorem Inv.setDone (h : s.Inv) {attempt : StartAttempt}
    (hget : s.attempts.get? s.startGeneration = some attempt)
    (hstage : s.Stage { attempt with phase := .done }) :
    ({ s with attempts := s.attempts.set s.startGeneration { attempt with phase := .done } } :
      Manager).Inv := by
  refine ⟨h.valid, h.registered, h.reachable, ?_, ?_, ?_⟩
  · intro g attempt' hget'
    exact h.owned_set hget (fun _ _ => id) hget'
  · intro k inst hinst
    exact h.owner_set _ _ hinst
  · intro attempt' hget'
    change (s.attempts.set _ _).get? s.startGeneration = some attempt' at hget'
    rw [OrderedMap.get?_set_self] at hget'
    obtain rfl := Option.some.inj hget'
    exact hstage

/-- A teardown of the registry stops every instance that has not been stopped. -/
theorem Inv.teardownAll (h : s.Inv) : ∀ {k : ℕ} {inst : Instance},
    s.teardownAll.table[k]? = some inst → inst.Stopped ∧ ∃ inst', s.table[k]? = some inst' ∧
      inst.generation = inst'.generation ∧ inst.startState = inst'.startState ∧
      inst.Valid s.startGeneration := by
  intro k inst hinst
  obtain ⟨inst', hinst', rfl⟩ := exists_of_getElem?_update hinst
  split_ifs with hmem
  · exact ⟨Instance.stopped_stop, inst', hinst', rfl, rfl, (h.valid k inst' hinst').stop⟩
  · refine ⟨?_, inst', hinst', rfl, rfl, h.valid k inst' hinst'⟩
    by_contra hrunning
    exact hmem (OrderedMap.mem_values.2 (h.reachable k inst' hinst' hrunning))

/-- The instances after a failed start have all been stopped. -/
theorem Inv.failed (h : s.Inv) {attempt : StartAttempt}
    (hget : s.attempts.get? s.startGeneration = some attempt) (hphase : attempt.phase = .clients)
    (hawaited : s.Awaited attempt) (herror : s.startError attempt.owned) :
    ({ s.teardownAll with
      attempts := s.attempts.set s.startGeneration { attempt with phase := .done } } :
        Manager).Inv := by
  have hstage := h.current attempt hget
  rw [Stage, hphase] at hstage
  have herror' : s.teardownAll.startError attempt.owned := by
    obtain ⟨k, hk, hfailed⟩ := herror
    obtain ⟨inst, hinst, hfailed⟩ := Option.map_eq_some_iff.1 hfailed
    refine ⟨k, hk, ?_⟩
    change (s.update s.instances.values Instance.stop).table[k]?.map Instance.startState = _
    rw [getElem?_update, hinst, Option.map_some, Option.map_some]
    split_ifs <;> exact congrArg some hfailed
  refine ⟨fun k inst hinst => ?_, fun _ _ hid => (nomatch hid), fun k inst hinst hrunning => ?_, ?_,
    ?_, ?_⟩
  · obtain ⟨-, -, -, -, -, hvalid⟩ := h.teardownAll hinst
    exact hvalid
  · exact absurd (h.teardownAll hinst).1 hrunning
  · intro g attempt' hget'
    exact h.owned_set hget (fun _ _ howns => howns.update _ (f := Instance.stop) fun _ => rfl) hget'
  · intro k inst hinst
    obtain ⟨-, inst', hinst', hgen, -⟩ := h.teardownAll hinst
    rw [hgen]
    exact h.owner_set _ _ hinst'
  · intro attempt' hget'
    change (s.attempts.set _ _).get? s.startGeneration = some attempt' at hget'
    rw [OrderedMap.get?_set_self] at hget'
    obtain rfl := Option.some.inj hget'
    intro k hk inst hinst
    obtain ⟨hstopped, inst', hinst', -, hstate, -⟩ := h.teardownAll hinst
    rw [hstate]
    refine ⟨(hstage k hk inst' hinst').2, fun hpending => ?_, iff_of_true hstopped herror'⟩
    exact hawaited k hk (by rw [hinst', Option.map_some, hpending])

/-- The instances of a call that ends without an error run. -/
theorem Inv.succeeded (h : s.Inv) {attempt : StartAttempt}
    (hget : s.attempts.get? s.startGeneration = some attempt) (hphase : attempt.phase = .clients)
    (hawaited : s.Awaited attempt) (herror : ¬ s.startError attempt.owned) :
    s.Stage { attempt with phase := .done } := by
  have hstage := h.current attempt hget
  rw [Stage, hphase] at hstage
  intro k hk inst hinst
  obtain ⟨hrunning, hidle⟩ := hstage k hk inst hinst
  refine ⟨hidle, fun hpending => ?_, iff_of_false hrunning herror⟩
  exact hawaited k hk (by rw [hinst, Option.map_some, hpending])

theorem Inv.resume (h : s.Inv) {g : ℕ} {attempt : StartAttempt}
    (hget : s.attempts.get? g = some attempt) (hawaited : s.Awaited attempt) :
    (s.resume g attempt).Inv := by
  rw [Manager.resume]
  cases hphase : attempt.phase with
  | servers =>
    dsimp only
    split_ifs with hg
    · exact h.rollBack hget hg
    · rw [not_not] at hg
      subst hg
      exact h.startClients hget hphase
  | clients =>
    dsimp only
    by_cases hg : g ≠ s.startGeneration
    · rw [if_pos hg]
      exact h.rollBack hget hg
    · rw [if_neg hg]
      rw [not_not] at hg
      subst hg
      split_ifs with herror
      · exact h.failed hget hphase hawaited herror
      · exact h.setDone hget (h.succeeded hget hphase hawaited herror)
  | done => exact h

/-- A call that has been superseded rolls back, or has ended. -/
theorem resume_superseded {g : ℕ} (attempt : StartAttempt) (hg : g ≠ s.startGeneration) :
    s.resume g attempt = s.rollBack g attempt ∨ s.resume g attempt = s := by
  rw [Manager.resume]
  cases attempt.phase with
  | servers => exact Or.inl (if_pos hg)
  | clients => exact Or.inl (if_pos hg)
  | done => exact Or.inr rfl

/-- Where nothing is registered, there is nothing to tear down. -/
theorem teardownAll_of_size_eq_zero (s : Manager) (h : ¬ 0 < s.instances.size) :
    s.teardownAll = s := by
  have hempty : s.instances = OrderedMap.empty := by
    obtain ⟨⟨entries, hnodup⟩, hinstances⟩ : ∃ m, s.instances = m := ⟨_, rfl⟩
    rw [hinstances] at h ⊢
    obtain rfl := List.eq_nil_of_length_eq_zero (Nat.eq_zero_of_not_pos h)
    rfl
  have htable : (s.update s.instances.values Instance.stop).table = s.table := by
    apply List.ext_getElem?
    intro k
    exact getElem?_update_of_notMem (by rw [hempty]; exact List.not_mem_nil) _
  calc s.teardownAll = { s with
        table := (s.update s.instances.values Instance.stop).table
        instances := OrderedMap.empty } := rfl
    _ = s := by rw [htable, ← hempty]

/-- A call of `start()` is a `stop()` and then, when the options are valid, the creation of the
instances and the start of the servers. -/
theorem start_eq (deps : ManagerDeps) (s : Manager) (options : JsValue) :
    s.start deps options = match (parseConnectionList deps options).bind
        (prepareConnectionList deps) with
      | none => s.stop
      | some connectionList =>
        let created := createInstances deps s.stop OrderedMap.empty connectionList
        { created.1.startGroup created.2 true with
          attempts := created.1.attempts.set created.1.startGeneration ⟨created.2, .servers⟩ } := by
  rw [Manager.start, Manager.stop]
  have hstop : (if 0 < s.instances.size then
      ({ s with startGeneration := s.startGeneration + 1 } : Manager).teardownAll
      else { s with startGeneration := s.startGeneration + 1 }) =
      ({ s with startGeneration := s.startGeneration + 1 } : Manager).teardownAll := by
    split_ifs with hsize
    · rfl
    · exact (teardownAll_of_size_eq_zero { s with
        startGeneration := s.startGeneration + 1 } hsize).symm
  dsimp only
  rw [hstop]
  rfl

/-- **One step.** Every step keeps the invariant. -/
theorem Inv.step (deps : ManagerDeps) (h : s.Inv) (ev : ManagerEvent) : (s.step deps ev).Inv := by
  cases ev with
  | start options =>
    obtain ⟨hstop, hpast⟩ := h.stop
    rw [Manager.step, start_eq]
    cases (parseConnectionList deps options).bind (prepareConnectionList deps) with
    | none => exact hstop
    | some connectionList =>
      refine hstop.start hpast (Created.createInstances ?_ le_rfl connectionList)
      refine ⟨rfl, rfl, rfl, fun k => ?_, fun _ _ => rfl, fun k inst hk hinst => ?_⟩
      · exact iff_of_false List.not_mem_nil (by omega)
      · exact absurd (List.getElem?_eq_some_iff.1 hinst).1 (by omega)
  | stop => exact h.stop.1
  | acquire k => exact h.update settles_acquire [k]
  | startSettled k ok leftover => exact h.update (settles_settle ok leftover) [k]
  | resume g =>
    rw [Manager.step]
    cases hget : s.attempts.get? g with
    | none => exact h
    | some attempt =>
      dsimp only
      split_ifs with hawaited
      · exact h.resume hget hawaited
      · exact h

/-! ## The runs -/

/-- Every continuation has run. -/
def Quiet (s : Manager) : Prop :=
  (∀ attempt ∈ s.attempts.values, attempt.phase = .done) ∧
    ∀ inst ∈ s.table, inst.startState ≠ .pending

instance (s : Manager) : Decidable s.Quiet := by
  unfold Quiet
  infer_instance

/-- The start of an instance of the last call has failed. -/
def LastFailed (s : Manager) : Prop :=
  ∃ inst ∈ s.table, inst.generation = s.startGeneration ∧ inst.startState = .failed

instance (s : Manager) : Decidable s.LastFailed := by
  unfold LastFailed
  infer_instance

/-- What holds of every state. -/
structure Safe (s : Manager) : Prop where
  /-- in the end exactly the instances of the last call hold resources, and none when one of them
  has failed -/
  final : s.Quiet → ∀ inst ∈ s.table,
    (inst.holding = true ↔ inst.generation = s.startGeneration ∧ ¬ s.LastFailed)
  /-- what holds resources is registered -/
  reachable : ∀ (h : ℕ) (inst : Instance), s.table[h]? = some inst → inst.holding = true →
    ∃ id, s.instances.get? id = some h
  /-- no instance is started after it has been stopped -/
  orderly : ∀ inst ∈ s.table, inst.calls.Pairwise fun a b => a = .stop → b ≠ .start

/-- A call that has been superseded leaves the instances of other calls, and the registry, alone. -/
def KeepsSuccessors (deps : ManagerDeps) (s : Manager) (ev : ManagerEvent) : Prop :=
  ∀ g, ev = .resume g → g ≠ s.startGeneration →
    (∀ (h : ℕ) (inst : Instance), s.table[h]? = some inst → inst.generation ≠ g →
      (s.step deps ev).table[h]? = some inst) ∧
    ∀ id, (s.step deps ev).instances.get? id = s.instances.get? id

theorem Inv.final (h : s.Inv) (hquiet : s.Quiet) {inst : Instance} (hmem : inst ∈ s.table) :
    inst.holding = true ↔ inst.generation = s.startGeneration ∧ ¬ s.LastFailed := by
  obtain ⟨k, hk⟩ := List.mem_iff_getElem?.1 hmem
  have hvalid := h.valid k inst hk
  -- the call that the instance belongs to has ended
  have hstage : inst.generation = s.startGeneration →
      inst.startState ≠ .idle ∧ inst.startState ≠ .pending ∧ (inst.Stopped ↔ s.LastFailed) := by
    intro hgen
    obtain ⟨attempt, hget⟩ := h.owner k inst hk
    have howns := (h.owned _ attempt hget).2
    rw [hgen] at hget howns
    have hdone := h.current attempt hget
    rw [Stage, hquiet.1 attempt (OrderedMap.mem_values.2 ⟨_, hget⟩)] at hdone
    obtain ⟨hidle, hpending, hstopped⟩ := hdone k ((howns k).2 ⟨inst, hk, hgen⟩) inst hk
    refine ⟨hidle, hpending, hstopped.trans ⟨?_, ?_⟩⟩
    · rintro ⟨k', hk', hfailed⟩
      obtain ⟨inst', hinst', hgen'⟩ := (howns k').1 hk'
      rw [hinst', Option.map_some] at hfailed
      exact ⟨inst', List.mem_of_getElem? hinst', hgen', Option.some.inj hfailed⟩
    · rintro ⟨inst', hmem', hgen', hfailed⟩
      obtain ⟨k', hk'⟩ := List.mem_iff_getElem?.1 hmem'
      exact ⟨k', (howns k').2 ⟨inst', hk', hgen'⟩, by rw [hk', Option.map_some, hfailed]⟩
  constructor
  · intro hholding
    have hrunning : ¬ inst.Stopped := by
      intro hstopped
      rw [hvalid.released hstopped] at hholding
      exact nomatch hholding
    have hgen : inst.generation = s.startGeneration :=
      le_antisymm hvalid.le (not_lt.1 fun hlt => hrunning (hvalid.past hlt))
    exact ⟨hgen, fun hfailed => hrunning ((hstage hgen).2.2.2 hfailed)⟩
  · rintro ⟨hgen, hnone⟩
    obtain ⟨hidle, hpending, hstopped⟩ := hstage hgen
    refine hvalid.holds (mt hstopped.1 hnone) ?_
    cases hstate : inst.startState with
    | idle => exact absurd hstate hidle
    | pending => exact absurd hstate hpending
    | succeeded => rfl
    | failed => exact absurd ⟨inst, hmem, hgen, hstate⟩ hnone

theorem Inv.safe (h : s.Inv) : s.Safe where
  final hquiet _ hmem := h.final hquiet hmem
  reachable k inst hinst hholding := by
    refine h.reachable k inst hinst fun hstopped => ?_
    rw [(h.valid k inst hinst).released hstopped] at hholding
    exact nomatch hholding
  orderly inst hmem := by
    obtain ⟨k, hk⟩ := List.mem_iff_getElem?.1 hmem
    exact (h.valid k inst hk).orderly

theorem Inv.keepsSuccessors (deps : ManagerDeps) (h : s.Inv) (ev : ManagerEvent) :
    s.KeepsSuccessors deps ev := by
  rintro g rfl hg
  rw [Manager.step]
  cases hget : s.attempts.get? g with
  | none => exact ⟨fun _ _ hinst _ => hinst, fun _ => rfl⟩
  | some attempt =>
    dsimp only
    split_ifs
    · rcases resume_superseded attempt hg with hresume | hresume
      · rw [hresume]
        exact ⟨fun k inst => h.getElem?_rollBack hget, h.get?_instances_rollBack hget hg⟩
      · rw [hresume]
        exact ⟨fun _ _ hinst _ => hinst, fun _ => rfl⟩
    · exact ⟨fun _ _ hinst _ => hinst, fun _ => rfl⟩

/-- **Supersession.** In every interleaving of calls, completions and continuations: once all
continuations have run, exactly the instances of the last call hold resources, and none when one of
them has failed; what holds resources is always registered; a superseded call never touches the
instances or the registry of its successor; and no instance is started after it has been stopped. -/
theorem supersession (deps : ManagerDeps) (es : List ManagerEvent) :
    Along (step deps) (fun s ev => (s.step deps ev).Safe ∧ s.KeepsSuccessors deps ev) new es := by
  have hrun : ∀ {es : List ManagerEvent} {s : Manager}, s.Inv →
      Along (step deps) (fun s ev => (s.step deps ev).Safe ∧ s.KeepsSuccessors deps ev) s es := by
    intro es
    induction es with
    | nil => exact fun _ => trivial
    | cons ev es ih =>
      exact fun h => ⟨⟨(h.step deps ev).safe, h.keepsSuccessors deps ev⟩, ih (h.step deps ev)⟩
  exact hrun inv_new

/-- One server and one client, with the same id in every call. -/
def sampledOptions : JsValue :=
  .obj [("connections", .arr [
    .obj [("name", .str "boat"), ("serverType", .str "server"), ("udpPort", .num (.finite 4446))],
    .obj [("name", .str "boat"), ("serverType", .str "client"), ("udpPort", .num (.finite 4446))]])]

/-- Every connection is valid. -/
def sampledDeps : ManagerDeps where
  sanitizeConnectionConfig := id
  isValidConnectionConfig _ := true
  toText value := match value with
    | .str text => text
    | _ => ""
  slugify := id

/-- A call that is superseded while its server starts: the two instances of the second call hold
resources in the end, and those of the first do not. -/
example : (run (step sampledDeps) new [.start sampledOptions, .acquire 0, .start sampledOptions,
    .startSettled 0 false true, .resume 1, .startSettled 2 true false, .resume 2,
    .startSettled 3 true false, .resume 2]).Quiet ∧
    (run (step sampledDeps) new [.start sampledOptions, .acquire 0, .start sampledOptions,
    .startSettled 0 false true, .resume 1, .startSettled 2 true false, .resume 2,
    .startSettled 3 true false, .resume 2]).table.map Instance.holding =
      [false, false, true, true] := by
  decide +kernel

end Manager

end EdgeLink
