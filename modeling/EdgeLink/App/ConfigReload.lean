import EdgeLink.Foundations.Run

/-!
# Reloading a configuration file

The debounced handler of `foundation/config-reload.ts`: watcher events arm a timer, the timer and
`flush` call `runLoad`, and `runLoad` either owns a drain loop of load passes (`runLoadInner`) or
asks the one in flight to run once more. Every `await` is a point where other calls come in
between, so that a drain loop is a continuation (`Drain`) which an event of its own resumes: the
microtask in which the loop looks at `rerunRequested`, and the later one in which its owner clears
`runInFlight`, are two different events.

* `one_pass`: two load passes never overlap, in any run.
* `reloads`: every call is followed by a load pass, exactly when no call comes between the last
  look at `rerunRequested` and the clearing of `runInFlight`, and the handler is not stopped when
  the loop looks while a call waits.
* `reload_lost`: the call that comes in between.
-/

namespace EdgeLink

/-- What reading the file came to. -/
inductive FileRead
  | content (text : String)
  /-- there is no such file -/
  | absent
  /-- any other error -/
  | failed
  deriving DecidableEq

/-- What a handler is created with, and the functions of the platform it uses: `Config` is the
type of parsed configurations. -/
structure DebounceHandlerOpts (Config : Type*) where
  /-- `getFilePath` finds a path -/
  filePath : Bool
  readFallback : Option Config
  stringify : Config → String
  /-- `JSON.parse`, which throws on some texts -/
  parse : String → Option Config
  digest : String → ℕ

/-- Where a drain loop stands, with the load pass it is in. -/
inductive Drain
  /-- the pass waits for the file -/
  | reading
  /-- the pass waits for `processConfig`, with the hash of what it applies -/
  | applying (contentHash : ℕ)
  /-- the pass has ended, and the loop looks for a rerun next -/
  | passEnded
  /-- the loop has been left, and `runInFlight` is cleared next -/
  | left
  deriving DecidableEq

/-- What is logged of a run: a call of `runLoad` while the handler is not stopped, and the start
of a load pass. -/
inductive ReloadMark
  | call
  | start
  deriving DecidableEq

structure ReloadState where
  stopped : Bool := false
  /-- the debounce timer is armed -/
  configDebounceTimer : Bool := false
  configContentHash : Option ℕ := none
  /-- `runInFlight` is set -/
  runInFlight : Bool := false
  rerunRequested : Bool := false
  /-- the drain loops whose owner has not cleared `runInFlight` yet -/
  drains : List Drain := []
  history : List ReloadMark := []
  deriving DecidableEq

inductive ReloadEvent
  /-- the file watcher reports a change -/
  | fileChanged
  | debounceTimer
  /-- the instance clears the debounce timer -/
  | timerCleared
  | flush
  /-- the file of the `i`-th drain loop's pass has been read -/
  | fileRead (i : ℕ) (result : FileRead)
  /-- `processConfig` of the `i`-th drain loop's pass succeeds or fails -/
  | processed (i : ℕ) (ok : Bool)
  /-- the `i`-th drain loop goes on after its pass -/
  | passSettled (i : ℕ)
  /-- the owner of the `i`-th drain loop goes on after it -/
  | drainSettled (i : ℕ)
  | setStopped (stopped : Bool)
  deriving DecidableEq

namespace ReloadState

variable {Config : Type*} (opts : DebounceHandlerOpts Config)

/-- What the content hash is taken of: an empty file counts as none. -/
def hashSource (content : Option String) : String :=
  match content with
  | some text => if text ≠ "" then text else (opts.readFallback.map opts.stringify).getD ""
  | none => (opts.readFallback.map opts.stringify).getD ""

/-- The text of a file parses, or there is none to parse. -/
def parses (content : Option String) : Bool :=
  match content with
  | some text => if text ≠ "" then (opts.parse text).isSome else true
  | none => true

/-- The load pass from the content on, to the call of `processConfig`: it ends early when the
handler was stopped, when nothing has changed, and when the content does not parse. -/
def loaded (s : ReloadState) (content : Option String) : Drain :=
  let contentHash := opts.digest (hashSource opts content)
  if s.stopped then .passEnded
  else if s.configContentHash = some contentHash then .passEnded
  else if parses opts content then .applying contentHash
  else .passEnded

/-- The synchronous part of a load pass. -/
def runLoadInner (s : ReloadState) : Drain :=
  if s.stopped then .passEnded
  else if opts.filePath then .reading
  else loaded opts s none

/-- Start a load pass in the `i`-th drain loop. -/
def startPass (s : ReloadState) (i : ℕ) : ReloadState :=
  let s := { s with rerunRequested := false }
  { s with
    drains := s.drains.set i (runLoadInner opts s)
    history := s.history ++ [ReloadMark.start] }

/-- A call of `runLoad`: it asks for a rerun, or owns a new drain loop, which is left at once when
the handler is stopped. -/
def runLoad (s : ReloadState) : ReloadState :=
  let s := { s with history := if s.stopped then s.history else s.history ++ [ReloadMark.call] }
  if s.runInFlight then { s with rerunRequested := true }
  else
    let s := { s with runInFlight := true, drains := s.drains ++ [Drain.left] }
    if s.stopped then s else s.startPass opts (s.drains.length - 1)

/-- What the read of a file leaves of the load pass: any error but an absent file ends the pass,
and an absent one does when there is nothing to fall back to. -/
def fileLoaded (s : ReloadState) : FileRead → Drain
  | .content text => loaded opts s (some text)
  | .absent => if opts.readFallback.isSome then loaded opts s none else .passEnded
  | .failed => .passEnded

def step (s : ReloadState) : ReloadEvent → ReloadState
  | .fileChanged => { s with configDebounceTimer := true }
  | .debounceTimer =>
    if s.configDebounceTimer then { s with configDebounceTimer := false }.runLoad opts else s
  | .timerCleared => { s with configDebounceTimer := false }
  | .flush => { s with configDebounceTimer := false }.runLoad opts
  | .fileRead i result =>
    match s.drains[i]? with
    | some .reading => { s with drains := s.drains.set i (fileLoaded opts s result) }
    | _ => s
  | .processed i ok =>
    match s.drains[i]? with
    | some (.applying contentHash) => { s with
        configContentHash :=
          if ok ∧ s.stopped = false then some contentHash else s.configContentHash
        drains := s.drains.set i .passEnded }
    | _ => s
  | .passSettled i =>
    match s.drains[i]? with
    | some .passEnded =>
      if s.rerunRequested = false then { s with drains := s.drains.set i .left }
      else if s.stopped then { s with drains := s.drains.set i .left }
      else s.startPass opts i
    | _ => s
  | .drainSettled i =>
    match s.drains[i]? with
    | some .left => { s with runInFlight := false, drains := s.drains.eraseIdx i }
    | _ => s
  | .setStopped stopped => { s with stopped := stopped }

/-! ## Passes do not overlap -/

/-- The drain loop is in a load pass. -/
def InPass : Drain → Prop
  | .reading => True
  | .applying _ => True
  | _ => False

instance (d : Drain) : Decidable (InPass d) := by
  cases d <;> unfold InPass <;> infer_instance

/-- **The shape of the state**: `runInFlight` is set exactly while there is a drain loop, and there
is only one. -/
inductive Shape (s : ReloadState) : Prop
  | idle (hflight : s.runInFlight = false) (hdrains : s.drains = [])
  | draining (d : Drain) (hflight : s.runInFlight = true) (hdrains : s.drains = [d])

section Shape

variable {opts} {s : ReloadState} {d : Drain}

/-- What a call does: it asks the loop in flight for a rerun, or owns a loop of its own. -/
theorem runLoad_idle (hflight : s.runInFlight = false) (hdrains : s.drains = []) :
    s.runLoad opts = if s.stopped then { s with runInFlight := true, drains := [.left] }
      else { s with
        runInFlight := true
        rerunRequested := false
        drains := [runLoadInner opts s]
        history := s.history ++ [.call, .start] } := by
  simp only [runLoad, hflight, hdrains, startPass, Bool.false_eq_true, if_false, List.nil_append]
  split_ifs
  · rfl
  · simp [runLoadInner, loaded]

theorem runLoad_draining (hflight : s.runInFlight = true) :
    s.runLoad opts = { s with
      rerunRequested := true
      history := if s.stopped then s.history else s.history ++ [.call] } := by
  simp only [runLoad, hflight, if_true]

theorem Shape.runLoad (h : s.Shape) : (s.runLoad opts).Shape := by
  rcases h with ⟨hflight, hdrains⟩ | ⟨d, hflight, hdrains⟩
  · rw [runLoad_idle hflight hdrains]
    split_ifs
    · exact .draining .left rfl rfl
    · exact .draining _ rfl rfl
  · rw [runLoad_draining hflight]
    exact .draining d hflight hdrains

/-- The drain loop that an event resumes is the only one. -/
theorem drain_unique (hdrains : s.drains = [d]) {i : ℕ} {d' : Drain} (h : s.drains[i]? = some d') :
    i = 0 ∧ d' = d := by
  rw [hdrains] at h
  cases i with
  | zero => exact ⟨rfl, (Option.some.inj h).symm⟩
  | succ i => simp at h

theorem Shape.set (hflight : s.runInFlight = true) (hdrains : s.drains = [d]) {s' : ReloadState}
    (hflight' : s'.runInFlight = s.runInFlight) {d' : Drain}
    (hdrains' : s'.drains = s.drains.set 0 d') : s'.Shape := by
  rw [hdrains] at hdrains'
  exact .draining d' (hflight'.trans hflight) hdrains'

theorem Shape.of_same (h : s.Shape) {s' : ReloadState} (hflight' : s'.runInFlight = s.runInFlight)
    (hdrains' : s'.drains = s.drains) : s'.Shape := by
  rcases h with ⟨hflight, hdrains⟩ | ⟨d, hflight, hdrains⟩
  · exact .idle (hflight'.trans hflight) (hdrains'.trans hdrains)
  · exact .draining d (hflight'.trans hflight) (hdrains'.trans hdrains)

theorem Shape.of_set (h : s.Shape) {i : ℕ} {d₁ d' : Drain} (hi : s.drains[i]? = some d₁)
    {s' : ReloadState} (hflight' : s'.runInFlight = s.runInFlight)
    (hdrains' : s'.drains = s.drains.set i d') : s'.Shape := by
  rcases h with ⟨-, hdrains⟩ | ⟨d, hflight, hdrains⟩
  · simp [hdrains] at hi
  · obtain ⟨rfl, -⟩ := drain_unique hdrains hi
    exact Shape.set hflight hdrains hflight' hdrains'

theorem Shape.step (h : s.Shape) (ev : ReloadEvent) : (s.step opts ev).Shape := by
  cases ev with
  | fileChanged => exact h.of_same rfl rfl
  | debounceTimer =>
    unfold ReloadState.step
    dsimp only
    split_ifs
    · exact Shape.runLoad (h.of_same rfl rfl)
    · exact h
  | timerCleared => exact h.of_same rfl rfl
  | flush => exact Shape.runLoad (h.of_same rfl rfl)
  | fileRead i result =>
    unfold ReloadState.step
    dsimp only
    split
    next hi => exact h.of_set hi rfl rfl
    next => exact h
  | processed i ok =>
    unfold ReloadState.step
    dsimp only
    split
    next hi => exact h.of_set hi rfl rfl
    next => exact h
  | passSettled i =>
    unfold ReloadState.step
    dsimp only
    split
    next hi =>
      split_ifs
      · exact h.of_set hi rfl rfl
      · exact h.of_set hi rfl rfl
      · exact h.of_set hi rfl rfl
    next => exact h
  | drainSettled i =>
    unfold ReloadState.step
    dsimp only
    split
    next hi =>
      rcases h with ⟨-, hdrains⟩ | ⟨d, hflight, hdrains⟩
      · simp [hdrains] at hi
      · obtain ⟨rfl, -⟩ := drain_unique hdrains hi
        exact .idle rfl (by rw [hdrains]; rfl)
    next => exact h
  | setStopped stopped => exact h.of_same rfl rfl

end Shape

/-- **Two load passes never run at the same time**, whatever the order of the events. -/
theorem one_pass (es : List ReloadEvent) :
    (run (step opts) {} es).drains.countP (InPass ·) ≤ 1 := by
  have hshape : (run (step opts) {} es).Shape :=
    run_invariant (fun _ ev h => h.step ev) (.idle rfl rfl) es
  rcases hshape with ⟨-, hdrains⟩ | ⟨d, -, hdrains⟩
  · rw [hdrains]
    exact Nat.zero_le 1
  · rw [hdrains, List.countP_singleton]
    split_ifs <;> omega

/-! ## Calls are served -/

/-- Every call of a history is followed by the start of a load pass. -/
def Followed : List ReloadMark → Prop
  | [] => True
  | .call :: history => .start ∈ history ∧ Followed history
  | .start :: history => Followed history

instance Followed.decidable : ∀ history, Decidable (Followed history)
  | [] => isTrue trivial
  | .call :: history => @instDecidableAnd _ _ _ (Followed.decidable history)
  | .start :: history => Followed.decidable history

theorem followed_append_start (history : List ReloadMark) : Followed (history ++ [.start]) := by
  induction history with
  | nil => trivial
  | cons mark history ih =>
    cases mark with
    | call => exact ⟨List.mem_append_right _ (List.mem_singleton_self _), ih⟩
    | start => exact ih

theorem not_followed_append_call (history : List ReloadMark) :
    ¬ Followed (history ++ [.call]) := by
  induction history with
  | nil => exact fun h => List.not_mem_nil h.1
  | cons mark history ih =>
    cases mark with
    | call => exact fun h => ih h.2
    | start => exact ih

/-- Every call so far was followed by a load pass, or is owed one: a drain loop that has not been
left is asked for a rerun. -/
def Kept (s : ReloadState) : Prop :=
  Followed s.history ∨ (s.rerunRequested = true ∧ ∃ d ∈ s.drains, d ≠ .left)

instance (s : ReloadState) : Decidable s.Kept := by
  unfold Kept
  infer_instance

/-- A call does not come between the drain loop's last look at `rerunRequested` and the clearing
of `runInFlight`, and the handler is not stopped when the loop looks while a call waits. -/
def Timely (s : ReloadState) : ReloadEvent → Prop
  | .debounceTimer => s.configDebounceTimer = true → s.stopped = false → .left ∉ s.drains
  | .flush => s.stopped = false → .left ∉ s.drains
  | .passSettled i => s.drains[i]? = some .passEnded → s.stopped = true → Followed s.history
  | _ => True

instance (s : ReloadState) (ev : ReloadEvent) : Decidable (s.Timely ev) := by
  cases ev <;> unfold Timely <;> infer_instance

section Served

variable {opts} {s : ReloadState} {d : Drain}

theorem Kept.of_drains_nil (h : s.Kept) (hdrains : s.drains = []) : Followed s.history := by
  rcases h with h | ⟨-, d, hd, -⟩
  · exact h
  · rw [hdrains] at hd
    exact absurd hd List.not_mem_nil

/-- A call is served or owed exactly when it does not find a loop that was left. -/
theorem Kept.runLoad (hs : s.Shape) (h : s.Kept) :
    (s.runLoad opts).Kept ↔ (s.stopped = false → .left ∉ s.drains) := by
  rcases hs with ⟨hflight, hdrains⟩ | ⟨d, hflight, hdrains⟩
  · -- the call owns a new loop, which starts a pass unless the handler is stopped
    have hfollowed := h.of_drains_nil hdrains
    rw [runLoad_idle hflight hdrains, hdrains]
    refine iff_of_true ?_ fun _ => List.not_mem_nil
    split_ifs
    · exact Or.inl hfollowed
    · have happend : s.history ++ [.call, .start] = (s.history ++ [.call]) ++ [.start] := by simp
      exact Or.inl (happend ▸ followed_append_start _)
  · rw [runLoad_draining hflight, hdrains, List.mem_singleton]
    cases hstopped : s.stopped with
    | true =>
      refine iff_of_true ?_ nofun
      rcases h with h | ⟨-, d', hd', hne⟩
      · exact Or.inl h
      · exact Or.inr ⟨rfl, d', hdrains ▸ hd', hne⟩
    | false =>
      -- the call is recorded and waits for the loop in flight
      simp only [Kept, Bool.false_eq_true, if_false, not_followed_append_call, false_or, true_and,
        List.mem_singleton, exists_eq_left, forall_true_left]
      exact ne_comm

theorem Kept.of_same (h : s.Kept) {s' : ReloadState} (hhistory : s'.history = s.history)
    (hrerun : s'.rerunRequested = s.rerunRequested)
    (hdrains : (∃ d ∈ s.drains, d ≠ .left) → ∃ d ∈ s'.drains, d ≠ .left) : s'.Kept := by
  unfold Kept
  rw [hhistory, hrerun]
  exact h.imp_right fun h => ⟨h.1, hdrains h.2⟩

/-- A loop that goes on within its pass has not been left. -/
theorem Kept.of_set (h : s.Kept) {i : ℕ} {d d' : Drain}
    (hi : s.drains[i]? = some d) (hd' : d' ≠ .left) {s' : ReloadState}
    (hhistory : s'.history = s.history) (hrerun : s'.rerunRequested = s.rerunRequested)
    (hdrains : s'.drains = s.drains.set i d') : s'.Kept := by
  refine h.of_same hhistory hrerun fun _ => ⟨d', ?_, hd'⟩
  rw [hdrains]
  exact List.mem_set (List.getElem?_eq_some_iff.1 hi).1 d'

theorem loaded_ne_left (s : ReloadState) (content : Option String) :
    loaded opts s content ≠ .left := by
  unfold loaded
  dsimp only
  split_ifs <;> nofun

theorem fileLoaded_ne_left (s : ReloadState) (result : FileRead) :
    fileLoaded opts s result ≠ .left := by
  cases result with
  | content text => exact loaded_ne_left s _
  | absent =>
    unfold fileLoaded
    split_ifs
    · exact loaded_ne_left s none
    · nofun
  | failed => nofun

/-- The end of a pass: the loop starts another one for the calls that wait, or it is left. -/
theorem Kept.passSettled (h : s.Kept) (hs : s.Shape) (i : ℕ) :
    (s.step opts (.passSettled i)).Kept ↔ s.Timely (.passSettled i) := by
  unfold ReloadState.step Timely
  dsimp only
  split
  next hi =>
    obtain ⟨d, hdrains, hflight⟩ : ∃ d, s.drains = [d] ∧ s.runInFlight = true := by
      rcases hs with ⟨-, hdrains⟩ | ⟨d, hflight, hdrains⟩
      · simp [hdrains] at hi
      · exact ⟨d, hdrains, hflight⟩
    obtain ⟨rfl, rfl⟩ := drain_unique hdrains hi
    have hleft : ∀ s' : ReloadState, s'.history = s.history → s'.drains = s.drains.set 0 .left →
        (s'.Kept ↔ Followed s.history) := by
      intro s' hhistory hdrains'
      unfold Kept
      rw [hhistory, hdrains', hdrains]
      simp
    split_ifs with hrerun hstopped
    · -- without a rerun to come, no call was waiting
      have hfollowed : Followed s.history := by
        rcases h with h | ⟨hr, -⟩
        · exact h
        · exact absurd (hrerun.symm.trans hr) nofun
      exact iff_of_true ((hleft { s with drains := s.drains.set 0 .left } rfl rfl).2 hfollowed)
        fun _ _ => hfollowed
    · refine (hleft { s with drains := s.drains.set 0 .left } rfl rfl).trans ?_
      exact ⟨fun hf _ _ => hf, fun hf => hf hi hstopped⟩
    · exact iff_of_true (Or.inl (followed_append_start _)) fun _ ht => absurd ht hstopped
  next hno => exact iff_of_true h fun hi => absurd hi hno

/-- **A step keeps its calls exactly when it is timely.** -/
theorem Kept.step_iff (hs : s.Shape) (h : s.Kept) (ev : ReloadEvent) :
    (s.step opts ev).Kept ↔ s.Timely ev := by
  cases ev with
  | fileChanged => exact iff_of_true (h.of_same rfl rfl id) trivial
  | debounceTimer =>
    unfold ReloadState.step Timely
    dsimp only
    split_ifs with htimer
    · have hs' : Shape { s with configDebounceTimer := false } := hs.of_same rfl rfl
      rw [Kept.runLoad hs' (h.of_same rfl rfl id)]
      exact ⟨fun hleft _ => hleft, fun hleft => hleft htimer⟩
    · exact iff_of_true h fun ht => absurd ht htimer
  | timerCleared => exact iff_of_true (h.of_same rfl rfl id) trivial
  | flush => exact Kept.runLoad (hs.of_same rfl rfl) (h.of_same rfl rfl id)
  | fileRead i result =>
    refine iff_of_true ?_ trivial
    unfold ReloadState.step
    dsimp only
    split
    next hi => exact h.of_set hi (fileLoaded_ne_left s result) rfl rfl rfl
    next => exact h
  | processed i ok =>
    refine iff_of_true ?_ trivial
    unfold ReloadState.step
    dsimp only
    split
    next hi => exact h.of_set hi (show Drain.passEnded ≠ .left from nofun) rfl rfl rfl
    next => exact h
  | passSettled i => exact h.passSettled hs i
  | drainSettled i =>
    refine iff_of_true ?_ trivial
    unfold ReloadState.step
    dsimp only
    split
    next hi =>
      -- the loop had been left, so that no call was waiting for it
      rcases hs with ⟨-, hdrains⟩ | ⟨d, hflight, hdrains⟩
      · simp [hdrains] at hi
      · obtain ⟨rfl, rfl⟩ := drain_unique hdrains hi
        rcases h with h | ⟨-, d, hd, hne⟩
        · exact Or.inl h
        · rw [hdrains, List.mem_singleton] at hd
          exact absurd hd hne
    next => exact h
  | setStopped stopped => exact iff_of_true (h.of_same rfl rfl id) trivial

/-- A loop that is asked for a rerun starts a load pass at its next look, unless the handler is
stopped: what is owed is paid. -/
theorem Kept.paid (h : s.Kept) (hstopped : s.stopped = false)
    {i : ℕ} (hi : s.drains[i]? = some .passEnded) :
    Followed (s.step opts (.passSettled i)).history := by
  simp only [ReloadState.step, hi]
  split_ifs with hrerun hst
  · rcases h with h | ⟨hr, -⟩
    · exact h
    · exact absurd (hrerun.symm.trans hr) nofun
  · exact absurd (hstopped.symm.trans hst) nofun
  · exact followed_append_start _

end Served

/-- **A reload loses no update**, as far as it does. In every run two load passes never overlap.
Along a run every call is kept, which is to say followed by a load pass or owed one by a loop in
flight, exactly when every step is timely; and then nothing is owed once no loop is in flight. -/
theorem reloads (es : List ReloadEvent) :
    (run (step opts) {} es).drains.countP (InPass ·) ≤ 1 ∧
      (Along (step opts) (fun s ev => (s.step opts ev).Kept) {} es ↔
        Along (step opts) Timely {} es) ∧
      (Along (step opts) Timely {} es → (run (step opts) {} es).Kept ∧
        ((run (step opts) {} es).drains = [] → Followed (run (step opts) {} es).history) ∧
        ∀ i, (run (step opts) {} es).drains[i]? = some .passEnded →
          (run (step opts) {} es).stopped = false →
          Followed (run (step opts) {} (es ++ [.passSettled i])).history) := by
  have hinit : Shape {} ∧ Kept {} := ⟨.idle rfl rfl, Or.inl trivial⟩
  refine ⟨one_pass opts es, ?_, fun htimely => ?_⟩
  · refine Along.congr_of_invariant (I := fun s : ReloadState => s.Shape ∧ s.Kept)
      (C := fun _ _ => True) (fun s ev h _ => ⟨h.2.step_iff h.1 ev, fun hk => ⟨h.1.step ev, hk⟩⟩)
      hinit ?_
    exact Along.of_forall (fun _ _ => trivial) _ es
  · have h := Along.invariant (I := fun s : ReloadState => s.Shape ∧ s.Kept)
      (fun s ev h ht => ⟨h.1.step ev, (h.2.step_iff h.1 ev).2 ht⟩) hinit htimely
    refine ⟨h.2, h.2.of_drains_nil, fun i hi hstopped => ?_⟩
    rw [run_append]
    exact h.2.paid hstopped hi

/-- A handler whose file parses and hashes. -/
def fileOpts : DebounceHandlerOpts ℕ where
  filePath := true
  readFallback := none
  stringify _ := ""
  parse text := some text.length
  digest := String.length

/-- A burst of calls while a pass is in flight, and a pass that fails. -/
theorem reloads_burst : Along (step fileOpts) (fun s ev => (s.step fileOpts ev).Kept) {}
    [.flush, .fileChanged, .fileRead 0 .failed, .debounceTimer, .passSettled 0, .flush,
      .fileRead 0 (.content "a"), .processed 0 true, .passSettled 0] :=
  (reloads fileOpts _).2.1.2 (by decide +kernel)

/-- A `flush` from a microtask between the loop's last look and the clearing of `runInFlight`. -/
def lateFlush : List ReloadEvent :=
  [.flush, .fileRead 0 (.content "a"), .processed 0 true, .passSettled 0, .flush, .drainSettled 0]

/-- The late call is never followed by a load pass: no loop is left to run one. -/
theorem reload_lost : (run (step fileOpts) {} lateFlush).drains = [] ∧
    ¬ Followed (run (step fileOpts) {} lateFlush).history := by
  decide +kernel

end ReloadState

end EdgeLink
