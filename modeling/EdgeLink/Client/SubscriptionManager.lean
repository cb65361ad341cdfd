import EdgeLink.Codec.Metadata
import EdgeLink.Foundations.Run

/-!
# The subscription manager

`domain/subscription-manager.ts`: a client's subscription to the local Signal K tree. A change of
the configuration tears the old subscription down and subscribes afresh; a `subscribe()` that throws
and an error that the subscription reports later both pause the connection and arm a retry timer.
A new metadata configuration is committed when `subscribe()` has succeeded, and staged when it has
thrown.

Every handler runs to its end in one turn, so the states between events are the quiescent ones.
What `subscribe()` does is part of the event.
-/

namespace EdgeLink

open JsValue

def SUBSCRIPTION_RETRY_BASE_DELAY : ℕ := 5000

def SUBSCRIPTION_RETRY_MAX_DELAY : ℕ := 300000

def SUBSCRIPTION_RETRY_MAX_ATTEMPTS : ℕ := 10

def SUBSCRIPTION_RETRY_SLOW_DELAY : ℕ := 300000

def SUBSCRIPTION_ERROR_ESCALATION_RESET_MS : Time := 600000

/-! ## The configuration -/

/-- The row of a subscription with a path, when it has one. -/
def rowPath : JsValue → Option String
  | .obj fields =>
    match (JsValue.obj fields).get "path" with
    | .str path => some path
    | _ => none
  | _ => none

/-- The rows without those that repeat a path. -/
def dedupeSubscriptionRows (seenPaths : List String) : List JsValue → List JsValue
  | [] => []
  | row :: rows =>
    match rowPath row with
    | none => row :: dedupeSubscriptionRows seenPaths rows
    | some path =>
      if path ∈ seenPaths then dedupeSubscriptionRows seenPaths rows
      else row :: dedupeSubscriptionRows (path :: seenPaths) rows

/-- The configuration with one wildcard row, or without rows that repeat a path. -/
def normalizeSubscriptionConfig (config : JsValue) : JsValue :=
  match config with
  | .obj fields =>
    match config.get "subscribe" with
    | .arr rows =>
      let withRows := fun rows => JsValue.obj (fields.map fun f =>
        if f.1 = "subscribe" then (f.1, .arr rows) else f)
      match rows.find? (rowPath · = some "*") with
      | some wildcardRow => withRows [wildcardRow]
      | none => withRows (dedupeSubscriptionRows [] rows)
    | _ => config
  | _ => config

/-! ## The state -/

/-- A pending retry: the number of the attempt, and how long it waits. -/
structure SubscriptionRetry where
  attempt : ℕ
  delay : ℕ
  deriving DecidableEq

/-- The subscription of a connection, with the fields of the connection that it reads and writes. -/
structure Subscription where
  localSubscription : JsValue
  readyToSend : Bool
  stopped : Bool
  socketRecoveryInProgress : Bool
  subscriptionRetryTimer : Option SubscriptionRetry
  metaConfig : Option MetaConfig
  /-- the configuration that a failed `subscribe()` has staged, `none` when there is none -/
  pendingMetaConfig : Option (Option MetaConfig)
  activeSubscriptionGeneration : ℕ
  errorRetryAttempt : ℕ
  lastErrorRetryAt : Time
  /-- whether the last change of the configuration has thrown; no function reads it -/
  lastChangeFailed : Bool

/-- What a call of `subscribe()` does: whether it reports an error before it returns, and whether it
throws. -/
structure SubscribeCall where
  reportsError : Bool
  throws : Bool

/-- What can happen to a subscription. -/
inductive SubscriptionEvent where
  /-- the file has changed; one that has the bytes of the last one is not read again -/
  | configChange (now : Time) (config : JsValue) (call : SubscribeCall)
  /-- the subscription of a generation reports an error -/
  | subscriptionError (now : Time) (generation : ℕ)
  | retryTimerFired (now : Time) (call : SubscribeCall)

namespace Subscription

/-- The subscription of a connection that has just started to send. -/
def new : Subscription where
  localSubscription := .null
  readyToSend := true
  stopped := false
  socketRecoveryInProgress := false
  subscriptionRetryTimer := none
  metaConfig := none
  pendingMetaConfig := none
  activeSubscriptionGeneration := 0
  errorRetryAttempt := 0
  lastErrorRetryAt := 0
  lastChangeFailed := false

/-- The delay of a retry. -/
def computeRetryDelay (attempt : ℕ) : ℕ :=
  if SUBSCRIPTION_RETRY_MAX_ATTEMPTS < attempt then SUBSCRIPTION_RETRY_SLOW_DELAY
  else min (SUBSCRIPTION_RETRY_BASE_DELAY * 2 ^ (attempt - 1)) SUBSCRIPTION_RETRY_MAX_DELAY

def scheduleSubscriptionRetry (s : Subscription) (attempt : ℕ) : Subscription :=
  { s with subscriptionRetryTimer := some ⟨attempt, computeRetryDelay attempt⟩ }

/-- The error callback of the subscription of a generation. A pending retry is not postponed. -/
def subscriptionError (s : Subscription) (now : Time) (generation : ℕ) : Subscription :=
  if generation ≠ s.activeSubscriptionGeneration ∨ s.stopped then s
  else
    let s := { s with readyToSend := false }
    match s.subscriptionRetryTimer with
    | some _ => s
    | none =>
      let attempts :=
        if SUBSCRIPTION_ERROR_ESCALATION_RESET_MS < now - s.lastErrorRetryAt then 0
        else s.errorRetryAttempt
      { s with lastErrorRetryAt := now, errorRetryAttempt := attempts + 1 }.scheduleSubscriptionRetry
        (attempts + 1)

/-- Call `subscribe()` for a new generation. -/
def subscribe (s : Subscription) (now : Time) (call : SubscribeCall) : Subscription :=
  let s := { s with activeSubscriptionGeneration := s.activeSubscriptionGeneration + 1 }
  if call.reportsError then s.subscriptionError now s.activeSubscriptionGeneration else s

/-- Commit the configuration that a failed change has staged, if there is one. -/
def promotePendingMetaConfig (s : Subscription) : Subscription :=
  match s.pendingMetaConfig with
  | some metaConfig => { s with metaConfig := metaConfig, pendingMetaConfig := none }
  | none => s

/-- One attempt of the retry loop. -/
def runSubscriptionRetry (s : Subscription) (now : Time) (attempt : ℕ) (call : SubscribeCall) :
    Subscription :=
  let s := { s with subscriptionRetryTimer := none }
  if s.stopped then s
  else
    let s := s.subscribe now call
    if call.throws then s.scheduleSubscriptionRetry (attempt + 1)
    else
      let s := s.promotePendingMetaConfig
      if s.socketRecoveryInProgress ∨ s.stopped then s else { s with readyToSend := true }

/-- `subscribe()` has thrown for a new configuration. -/
def handleSubscribeFailure (s : Subscription) (pendingMetaConfig : Option MetaConfig) :
    Subscription :=
  { s with
    pendingMetaConfig := some pendingMetaConfig
    readyToSend := false
    lastChangeFailed := true }.scheduleSubscriptionRetry 1

/-- The configuration has changed. -/
def processSubscriptionConfig (usable : String → Bool) (s : Subscription) (now : Time)
    (config : JsValue) (call : SubscribeCall) : Subscription :=
  let localSubscription := normalizeSubscriptionConfig config
  let pendingMetaConfig := parseMetaConfig usable localSubscription
  let s := { s with localSubscription := localSubscription, subscriptionRetryTimer := none }
  let s := s.subscribe now call
  if call.throws then s.handleSubscribeFailure pendingMetaConfig
  else
    { s with
      errorRetryAttempt := 0
      lastErrorRetryAt := 0
      metaConfig := pendingMetaConfig
      lastChangeFailed := false }

/-- One step of a subscription. -/
def step (usable : String → Bool) (s : Subscription) : SubscriptionEvent → Subscription
  | .configChange now config call => s.processSubscriptionConfig usable now config call
  | .subscriptionError now generation => s.subscriptionError now generation
  | .retryTimerFired now call =>
    match s.subscriptionRetryTimer with
    | some retry => s.runSubscriptionRetry now retry.attempt call
    | none => s

/-- The connection sends, or a retry is pending. -/
def Awake (s : Subscription) : Prop := s.readyToSend = true ∨ s.subscriptionRetryTimer.isSome = true

instance (s : Subscription) : Decidable s.Awake := by
  unfold Awake
  infer_instance

/-- A change of the configuration whose `subscribe()` succeeds without a word finds the connection
sending. -/
def Resumes (s : Subscription) : SubscriptionEvent → Prop
  | .configChange _ _ call => s.readyToSend = true ∨ call.reportsError = true ∨ call.throws = true
  | _ => True

instance (s : Subscription) (ev : SubscriptionEvent) : Decidable (s.Resumes ev) := by
  unfold Resumes
  split <;> infer_instance

/-! ## The flags of the connection -/

variable {s : Subscription}

/-- What a handler leaves alone: whether the connection is stopped, or recovers its socket. -/
def flags (s : Subscription) : Bool × Bool := (s.stopped, s.socketRecoveryInProgress)

@[simp] theorem flags_subscriptionError (s : Subscription) (now : Time) (generation : ℕ) :
    (s.subscriptionError now generation).flags = s.flags := by
  rw [subscriptionError]
  split_ifs
  · rfl
  · cases s.subscriptionRetryTimer <;> simp [flags, scheduleSubscriptionRetry]

@[simp] theorem flags_subscribe (s : Subscription) (now : Time) (call : SubscribeCall) :
    (s.subscribe now call).flags = s.flags := by
  rw [subscribe]
  cases call.reportsError with
  | true => exact flags_subscriptionError _ now _
  | false => rfl

@[simp] theorem flags_promotePendingMetaConfig (s : Subscription) :
    s.promotePendingMetaConfig.flags = s.flags := by
  rw [promotePendingMetaConfig]
  cases s.pendingMetaConfig <;> rfl

theorem flags_runSubscriptionRetry (s : Subscription) (now : Time) (attempt : ℕ)
    (call : SubscribeCall) : (s.runSubscriptionRetry now attempt call).flags = s.flags := by
  have hsubscribe := flags_subscribe { s with subscriptionRetryTimer := none } now call
  have hpromote := flags_promotePendingMetaConfig
    (({ s with subscriptionRetryTimer := none } : Subscription).subscribe now call)
  rw [runSubscriptionRetry]
  dsimp only
  split_ifs
  · rfl
  · exact hsubscribe
  · exact hpromote.trans hsubscribe
  · exact hpromote.trans hsubscribe

theorem flags_processSubscriptionConfig (usable : String → Bool) (s : Subscription) (now : Time)
    (config : JsValue) (call : SubscribeCall) :
    (s.processSubscriptionConfig usable now config call).flags = s.flags := by
  have hsubscribe := flags_subscribe { s with
    localSubscription := normalizeSubscriptionConfig config
    subscriptionRetryTimer := none } now call
  rw [processSubscriptionConfig]
  cases call.throws with
  | true => exact hsubscribe
  | false => exact hsubscribe

theorem flags_step (usable : String → Bool) (s : Subscription) (ev : SubscriptionEvent) :
    (s.step usable ev).flags = s.flags := by
  cases ev with
  | configChange now config call => exact flags_processSubscriptionConfig usable s now config call
  | subscriptionError now generation => exact flags_subscriptionError s now generation
  | retryTimerFired now call =>
    rw [step]
    cases s.subscriptionRetryTimer with
    | none => rfl
    | some retry => exact flags_runSubscriptionRetry s now retry.attempt call

/-! ## The wake-up -/

/-- An error of the current subscription pauses the connection and arms a retry. -/
theorem timer_subscriptionError (hstopped : s.stopped = false) (now : Time) :
    (s.subscriptionError now s.activeSubscriptionGeneration).subscriptionRetryTimer.isSome =
      true := by
  rw [subscriptionError, if_neg (by simp [hstopped])]
  cases s.subscriptionRetryTimer with
  | some retry => simp
  | none => simp [scheduleSubscriptionRetry]

/-- A call of `subscribe()` that reports an error arms a retry. -/
theorem timer_subscribe (hstopped : s.stopped = false) (now : Time) {call : SubscribeCall}
    (h : call.reportsError = true) :
    (s.subscribe now call).subscriptionRetryTimer.isSome = true := by
  rw [subscribe, if_pos h]
  exact timer_subscriptionError (s := { s with
    activeSubscriptionGeneration := s.activeSubscriptionGeneration + 1 }) hstopped now

/-- A call of `subscribe()` that reports no error only counts the generation. -/
theorem subscribe_of_quiet (now : Time) {call : SubscribeCall} (h : call.reportsError = false) :
    s.subscribe now call =
      { s with activeSubscriptionGeneration := s.activeSubscriptionGeneration + 1 } := by
  rw [subscribe, if_neg (by simp [h])]

theorem awake_subscriptionError (h : s.Awake) (hstopped : s.stopped = false) (now : Time)
    (generation : ℕ) : (s.subscriptionError now generation).Awake := by
  by_cases hgen : generation = s.activeSubscriptionGeneration
  · rw [hgen]
    exact Or.inr (timer_subscriptionError hstopped now)
  · rw [subscriptionError, if_pos (Or.inl hgen)]
    exact h

/-- A change of the configuration leaves the connection awake if and only if it finds it sending, or
a retry is armed on the way. -/
theorem awake_processSubscriptionConfig (usable : String → Bool) (hstopped : s.stopped = false)
    (now : Time) (config : JsValue) (call : SubscribeCall) :
    (s.processSubscriptionConfig usable now config call).Awake ↔
      s.readyToSend = true ∨ call.reportsError = true ∨ call.throws = true := by
  rw [processSubscriptionConfig]
  by_cases hthrows : call.throws = true
  · rw [if_pos hthrows]
    exact iff_of_true (Or.inr rfl) (Or.inr (Or.inr hthrows))
  rw [if_neg hthrows]
  by_cases herror : call.reportsError = true
  · refine iff_of_true (Or.inr ?_) (Or.inr (Or.inl herror))
    exact timer_subscribe (s := { s with
      localSubscription := normalizeSubscriptionConfig config
      subscriptionRetryTimer := none }) hstopped now herror
  · rw [subscribe_of_quiet now (by simpa using herror)]
    simp [Awake, hthrows, herror]

theorem awake_runSubscriptionRetry (hstopped : s.stopped = false)
    (hrecovery : s.socketRecoveryInProgress = false) (now : Time) (attempt : ℕ)
    (call : SubscribeCall) : (s.runSubscriptionRetry now attempt call).Awake := by
  have hflags := (flags_promotePendingMetaConfig _).trans
    (flags_subscribe { s with subscriptionRetryTimer := none } now call)
  rw [runSubscriptionRetry]
  dsimp only
  rw [if_neg (by simp [hstopped])]
  split_ifs with hthrows hpaused
  · exact Or.inr rfl
  · obtain ⟨hstopped', hrecovery'⟩ := Prod.mk.inj hflags
    rw [hrecovery'.trans hrecovery, hstopped'.trans hstopped] at hpaused
    exact absurd hpaused (by simp)
  · exact Or.inl rfl

/-- **One step.** A connection that is awake stays awake if and only if the step resumes it. -/
theorem awake_step (usable : String → Bool) (h : s.Awake) (hstopped : s.stopped = false)
    (hrecovery : s.socketRecoveryInProgress = false) (ev : SubscriptionEvent) :
    (s.step usable ev).Awake ↔ s.Resumes ev := by
  cases ev with
  | configChange now config call =>
    exact awake_processSubscriptionConfig usable hstopped now config call
  | subscriptionError now generation =>
    exact iff_of_true (awake_subscriptionError h hstopped now generation) trivial
  | retryTimerFired now call =>
    refine iff_of_true ?_ trivial
    rw [step]
    cases s.subscriptionRetryTimer with
    | none => exact h
    | some retry => exact awake_runSubscriptionRetry hstopped hrecovery now retry.attempt call

/-- **A paused connection has a wake-up.** In a run of a connection that is neither stopped nor
recovers its socket, every state reached sends or has a retry pending if and only if no change of
the configuration subscribes successfully, without an error being reported, while the connection is
paused. -/
theorem awake_along_iff (usable : String → Bool) (s : Subscription) (h : s.Awake)
    (hstopped : s.stopped = false) (hrecovery : s.socketRecoveryInProgress = false)
    (es : List SubscriptionEvent) :
    Along (step usable) (fun s ev => (s.step usable ev).Awake) s es ↔
      Along (step usable) Resumes s es := by
  induction es generalizing s with
  | nil => exact Iff.rfl
  | cons ev es ih =>
    have hflags := flags_step usable s ev
    obtain ⟨hstopped', hrecovery'⟩ := Prod.mk.inj hflags
    rw [hstopped] at hstopped'
    rw [hrecovery] at hrecovery'
    have hone := awake_step usable h hstopped hrecovery ev
    constructor
    · rintro ⟨hawake, hrest⟩
      exact ⟨hone.1 hawake, (ih _ hawake hstopped' hrecovery').1 hrest⟩
    · rintro ⟨hresumes, hrest⟩
      have hawake := hone.2 hresumes
      exact ⟨hawake, (ih _ hawake hstopped' hrecovery').2 hrest⟩

/-- The configuration of the examples, with the metadata stream enabled or not. -/
def sampledConfig (enabled : Bool) : JsValue :=
  .obj [("context", .str "*"), ("meta", .obj [("enabled", .bool enabled)]),
    ("subscribe", .arr [.obj [("path", .str "*")]])]

/-- A first configuration, an error of its subscription, and the retry. -/
def sampledRetry : List SubscriptionEvent :=
  [.configChange 0 (sampledConfig true) ⟨false, false⟩, .subscriptionError 700000 1,
    .retryTimerFired 705000 ⟨false, false⟩, .configChange 710000 (sampledConfig false) ⟨false, true⟩]

theorem awake_along_iff_sampledRetry :
    Along (step fun _ => true) (fun s ev => (s.step (fun _ => true) ev).Awake) new sampledRetry :=
  (awake_along_iff (fun _ => true) new (Or.inl rfl) rfl rfl sampledRetry).2 (by decide +kernel)

/-- An error pauses the connection, and the change of the configuration that follows cancels the
retry: the connection is paused, and nothing is scheduled to resume it. -/
theorem paused_without_retry :
    ¬ (run (step fun _ => true) new [.configChange 0 (sampledConfig true) ⟨false, false⟩,
      .subscriptionError 700000 1,
      .configChange 701000 (sampledConfig false) ⟨false, false⟩]).Awake := by
  decide +kernel

/-! ## The metadata configuration -/

/-- What the metadata configuration of a subscription has to be when `subscribe()` has just
succeeded: the one of the subscribed configuration. -/
def MetaCommitted (usable : String → Bool) (s : Subscription) : Prop :=
  s.metaConfig = parseMetaConfig usable s.localSubscription

instance (usable : String → Bool) (s : Subscription) : Decidable (s.MetaCommitted usable) := by
  unfold MetaCommitted
  infer_instance

/-- Whether a step is a successful `subscribe()`: a new configuration, or a retry that still has
something to do. -/
def Subscribes (s : Subscription) : SubscriptionEvent → Prop
  | .configChange _ _ call => call.throws = false
  | .subscriptionError _ _ => False
  | .retryTimerFired _ call =>
    s.subscriptionRetryTimer.isSome = true ∧ s.stopped = false ∧ call.throws = false

instance (s : Subscription) (ev : SubscriptionEvent) : Decidable (s.Subscribes ev) := by
  unfold Subscribes
  split <;> infer_instance

/-- A step commits rightly: a successful `subscribe()` leaves the metadata configuration of what was
subscribed, and a retry promotes a staged configuration only when no change has succeeded since. -/
def CommitsMeta (usable : String → Bool) (s : Subscription) (ev : SubscriptionEvent) : Prop :=
  s.Subscribes ev → (s.step usable ev).MetaCommitted usable ∧
    (∀ now call, ev = .retryTimerFired now call → s.pendingMetaConfig.isSome = true →
      s.lastChangeFailed = true)

/-- A change of the configuration whose `subscribe()` succeeds finds no staged configuration. -/
def NothingStaged (s : Subscription) : SubscriptionEvent → Prop
  | .configChange _ _ call => call.throws = false → s.pendingMetaConfig = none
  | _ => True

instance (s : Subscription) (ev : SubscriptionEvent) : Decidable (s.NothingStaged ev) := by
  unfold NothingStaged
  split <;> infer_instance

/-- A staged configuration is the one of the current subscription, and its change has failed; with
none staged, the current one is committed. -/
structure Staged (usable : String → Bool) (s : Subscription) : Prop where
  staged : ∀ metaConfig, s.pendingMetaConfig = some metaConfig →
    metaConfig = parseMetaConfig usable s.localSubscription ∧ s.lastChangeFailed = true
  committed : s.pendingMetaConfig = none → s.MetaCommitted usable

variable {usable : String → Bool}

/-- What an error leaves alone: the subscription, and what is known of its metadata. -/
def metaState (s : Subscription) :
    JsValue × Option MetaConfig × Option (Option MetaConfig) × Bool :=
  (s.localSubscription, s.metaConfig, s.pendingMetaConfig, s.lastChangeFailed)

theorem Staged.of_metaState {s' : Subscription} (h : s.Staged usable)
    (heq : s'.metaState = s.metaState) : s'.Staged usable := by
  simp only [metaState, Prod.mk.injEq] at heq
  obtain ⟨hlocal, hmeta, hpending, hfailed⟩ := heq
  constructor
  · intro metaConfig hstaged
    rw [hlocal, hfailed]
    exact h.staged metaConfig (hpending.symm.trans hstaged)
  · intro hnone
    rw [MetaCommitted, hlocal, hmeta]
    exact h.committed (hpending.symm.trans hnone)

@[simp] theorem metaState_subscriptionError (s : Subscription) (now : Time) (generation : ℕ) :
    (s.subscriptionError now generation).metaState = s.metaState := by
  rw [subscriptionError]
  split_ifs
  · rfl
  · cases s.subscriptionRetryTimer <;> simp [metaState, scheduleSubscriptionRetry]

@[simp] theorem metaState_subscribe (s : Subscription) (now : Time) (call : SubscribeCall) :
    (s.subscribe now call).metaState = s.metaState := by
  rw [subscribe]
  cases call.reportsError with
  | true => exact metaState_subscriptionError _ now _
  | false => rfl

/-- A retry that succeeds commits what is staged; the current configuration is committed then. -/
theorem Staged.promotePendingMetaConfig (h : s.Staged usable) :
    s.promotePendingMetaConfig.Staged usable ∧
      s.promotePendingMetaConfig.MetaCommitted usable := by
  rw [Subscription.promotePendingMetaConfig]
  cases hpending : s.pendingMetaConfig with
  | none => exact ⟨h, h.committed hpending⟩
  | some metaConfig =>
    have hcommitted := (h.staged metaConfig hpending).1
    exact ⟨⟨fun _ hstaged => (nomatch hstaged), fun _ => hcommitted⟩, hcommitted⟩

theorem Staged.runSubscriptionRetry (h : s.Staged usable) (now : Time) (attempt : ℕ)
    (call : SubscribeCall) :
    (s.runSubscriptionRetry now attempt call).Staged usable ∧
      (s.stopped = false → call.throws = false →
        (s.runSubscriptionRetry now attempt call).MetaCommitted usable) := by
  have hsubscribe : (({ s with subscriptionRetryTimer := none } : Subscription).subscribe
      now call).Staged usable :=
    h.of_metaState (metaState_subscribe { s with subscriptionRetryTimer := none } now call)
  rw [Subscription.runSubscriptionRetry]
  dsimp only
  split_ifs with hstopped hthrows
  · exact ⟨h.of_metaState rfl, fun hrunning => absurd hstopped (by simp [hrunning])⟩
  · exact ⟨hsubscribe.of_metaState rfl, fun _ hquiet => absurd hthrows (by simp [hquiet])⟩
  · exact ⟨hsubscribe.promotePendingMetaConfig.1, fun _ _ => hsubscribe.promotePendingMetaConfig.2⟩
  · obtain ⟨hstaged, hcommitted⟩ := hsubscribe.promotePendingMetaConfig
    exact ⟨hstaged.of_metaState rfl, fun _ _ => hcommitted⟩

/-- A change of the configuration stages its own metadata when it fails, and commits it when it
succeeds; what a success leaves staged is what it found. -/
theorem Staged.processSubscriptionConfig (usable : String → Bool) (now : Time) (config : JsValue)
    (call : SubscribeCall) (hnothing : call.throws = false → s.pendingMetaConfig = none) :
    (s.processSubscriptionConfig usable now config call).Staged usable ∧
      (call.throws = false →
        (s.processSubscriptionConfig usable now config call).MetaCommitted usable) := by
  have hsubscribe := metaState_subscribe { s with
    localSubscription := normalizeSubscriptionConfig config
    subscriptionRetryTimer := none } now call
  simp only [metaState, Prod.mk.injEq] at hsubscribe
  obtain ⟨hlocal, hmeta, hpending, hfailed⟩ := hsubscribe
  rw [Subscription.processSubscriptionConfig]
  split_ifs with hthrows
  · refine ⟨⟨?_, fun hnone => (nomatch hnone)⟩, fun hquiet => absurd hthrows (by simp [hquiet])⟩
    intro metaConfig hstaged
    refine ⟨?_, rfl⟩
    rw [← Option.some.inj hstaged]
    exact congrArg (parseMetaConfig usable) hlocal.symm
  · have hcommitted : parseMetaConfig usable (normalizeSubscriptionConfig config) =
        parseMetaConfig usable (({ s with
          localSubscription := normalizeSubscriptionConfig config
          subscriptionRetryTimer := none } : Subscription).subscribe now call).localSubscription :=
      congrArg (parseMetaConfig usable) hlocal.symm
    refine ⟨⟨?_, fun _ => hcommitted⟩, fun _ => hcommitted⟩
    intro metaConfig hstaged
    have hnone := hpending.trans (hnothing (by simpa using hthrows))
    exact nomatch hnone.symm.trans hstaged

/-- **One step.** Where nothing is staged at a change that succeeds, every step commits rightly. -/
theorem Staged.step (h : s.Staged usable) (ev : SubscriptionEvent) (hnothing : s.NothingStaged ev) :
    s.CommitsMeta usable ev ∧ (s.step usable ev).Staged usable := by
  cases ev with
  | configChange now config call =>
    have hchange := Staged.processSubscriptionConfig usable now config call hnothing
    refine ⟨fun hsubscribes => ⟨hchange.2 hsubscribes, ?_⟩, hchange.1⟩
    intro now call hev
    exact nomatch hev
  | subscriptionError now generation =>
    refine ⟨fun hsubscribes => hsubscribes.elim, ?_⟩
    exact h.of_metaState (metaState_subscriptionError s now generation)
  | retryTimerFired now call =>
    cases htimer : s.subscriptionRetryTimer with
    | none =>
      rw [CommitsMeta, Subscription.step, htimer]
      exact ⟨fun hsubscribes => absurd hsubscribes.1 (by simp [htimer]), h⟩
    | some retry =>
      have hretry := h.runSubscriptionRetry now retry.attempt call
      rw [CommitsMeta, Subscription.step, htimer]
      refine ⟨fun hsubscribes => ⟨hretry.2 hsubscribes.2.1 hsubscribes.2.2, ?_⟩, hretry.1⟩
      intro _ _ _ hstaged
      obtain ⟨metaConfig, hmeta⟩ := Option.isSome_iff_exists.1 hstaged
      exact (h.staged metaConfig hmeta).2

theorem staged_new (usable : String → Bool) : new.Staged usable where
  staged _ hstaged := nomatch hstaged
  committed _ := rfl

/-- **The committed metadata is the subscription's.** In every run in which no change of the
configuration succeeds while another one's metadata is staged, every successful `subscribe()` leaves
the metadata configuration of what was subscribed, and no configuration is promoted after a later
change has succeeded. -/
theorem commits_meta (usable : String → Bool) (es : List SubscriptionEvent)
    (h : Along (step usable) NothingStaged new es) :
    Along (step usable) (CommitsMeta usable) new es :=
  h.of_invariant (fun _ ev hstaged hnothing => hstaged.step ev hnothing) (staged_new usable)

theorem commits_meta_sampledRetry :
    Along (step fun _ => true) (CommitsMeta fun _ => true) new sampledRetry :=
  commits_meta (fun _ => true) sampledRetry (by decide +kernel)

/-- A failed change stages its metadata, a change that succeeds leaves it staged, and the retry that
a later error arms promotes it. -/
theorem stale_meta_promoted :
    ¬ Along (step fun _ => true) (CommitsMeta fun _ => true) new
      [.configChange 0 (sampledConfig true) ⟨false, true⟩,
        .configChange 1000 (sampledConfig false) ⟨false, false⟩, .subscriptionError 700000 2,
        .retryTimerFired 705000 ⟨false, false⟩] := by
  intro ⟨_, _, _, hretry, _⟩
  have hcommitted := (hretry (by decide +kernel)).1
  exact absurd hcommitted (by decide +kernel)

end Subscription

end EdgeLink
