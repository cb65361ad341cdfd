import EdgeLink.App.Connection

/-!
# Start and stop

A `start()` body finds out that it has been superseded from the lifecycle alone, which a later
`start()` moves back to `Starting`. So the bodies keep to their own resources as long as a
`start()` finds none of them with anything left to create, and no `stop()` lands in the HELLO.

* `Pipeline.Sound`, `Connection.Sound`: nothing that is live has been lost.
* `Before`: what is not there yet at each await of a `start()` body.
* `Inv`: the invariant; `Inv.start`, `Inv.stop`, `Inv.resume` keep it at orderly calls.
* `start_stop_safe`: what orderly calls guarantee. `superseded_start_leaks` and
  `stop_during_hello_leaks` are the runs that are not orderly.
-/

namespace EdgeLink

/-! ## Pipelines -/

namespace Pipeline

variable {p : Pipeline}

/-- Nothing of the pipeline has been lost, and it has no link socket without its manager. -/
structure Sound (p : Pipeline) : Prop where
  single : ∀ h ∈ p.handles, h.Single
  unbonded : p.bondingManager = false →
    p.primarySocket.held = 0 ∧ p.backupSocket.held = 0 ∧ p.healthCheckTimer.held = 0

/-- The pipeline refers to no timer and no socket. -/
def Idle (p : Pipeline) : Prop := ∀ h ∈ p.handles, h.held = 0

/-- A timer or a socket of the pipeline is live. -/
def Live (p : Pipeline) : Prop := ∃ h ∈ p.handles, 0 < h.live

theorem forall_handles {P : Handle → Prop} : (∀ h ∈ p.handles, P h) ↔
    P p.metricsInterval ∧ P p.congestionAdjustInterval ∧ P p.helloRetryTimer ∧
      P p.primarySocket ∧ P p.backupSocket ∧ P p.healthCheckTimer := by
  simp [handles]

theorem not_live (hp : p.Sound) (hidle : p.Idle) : ¬ p.Live := by
  rintro ⟨h, hh, hlive⟩
  have := hidle h hh
  have := (hp.single h hh).lost_eq
  rw [Handle.live] at hlive
  omega

theorem sound_create : create.Sound where
  single := forall_handles.2 ⟨Handle.single_empty, Handle.single_empty, Handle.single_empty,
    Handle.single_empty, Handle.single_empty, Handle.single_empty⟩
  unbonded _ := ⟨rfl, rfl, rfl⟩

namespace Sound

theorem startMetricsPublishing (hp : p.Sound) : p.startMetricsPublishing.Sound := by
  obtain ⟨h₁, h₂⟩ := forall_handles.1 hp.single
  exact ⟨forall_handles.2 ⟨h₁.ensure, h₂⟩, hp.unbonded⟩

theorem startCongestionControl (hp : p.Sound) : p.startCongestionControl.Sound := by
  obtain ⟨h₁, h₂, h₃⟩ := forall_handles.1 hp.single
  exact ⟨forall_handles.2 ⟨h₁, h₂.ensure, h₃⟩, hp.unbonded⟩

theorem stopHelloRetry (hp : p.Sound) : p.stopHelloRetry.Sound := by
  obtain ⟨h₁, h₂, h₃, h₄⟩ := forall_handles.1 hp.single
  exact ⟨forall_handles.2 ⟨h₁, h₂, h₃.release, h₄⟩, hp.unbonded⟩

theorem scheduleHelloRetry (hp : p.Sound) (hidle : p.helloRetryTimer.held = 0)
    (stopped helloAcknowledged : Bool) :
    (p.scheduleHelloRetry stopped helloAcknowledged).Sound := by
  rw [Pipeline.scheduleHelloRetry]
  split
  · exact hp
  · obtain ⟨h₁, h₂, h₃, h₄⟩ := forall_handles.1 hp.single
    exact ⟨forall_handles.2 ⟨h₁, h₂, h₃.assign hidle, h₄⟩, hp.unbonded⟩

theorem initBondingFailed (hp : p.Sound) : p.initBondingFailed.Sound := by
  obtain ⟨h₁, h₂, h₃, h₄, h₅, h₆⟩ := forall_handles.1 hp.single
  exact ⟨forall_handles.2 ⟨h₁, h₂, h₃, h₄.release, h₅.release, h₆.release⟩,
    fun _ => ⟨rfl, rfl, rfl⟩⟩

theorem stop (hp : p.Sound) : p.stop.Sound := by
  obtain ⟨h₁, h₂, h₃, h₄⟩ := forall_handles.1 hp.single
  have hstopped : p.stopHelloRetry.stopMetricsPublishing.stopCongestionControl.Sound :=
    ⟨forall_handles.2 ⟨h₁.release, h₂.release, h₃.release, h₄⟩, hp.unbonded⟩
  rw [Pipeline.stop, stopBonding]
  split
  · exact hstopped.initBondingFailed
  · exact hstopped

/-- A pipeline that has been stopped holds nothing. -/
theorem idle_stop (hp : p.Sound) : p.stop.Idle := by
  refine forall_handles.2 ?_
  rw [Pipeline.stop, stopBonding]
  split
  · exact ⟨rfl, rfl, rfl, rfl, rfl, rfl⟩
  · next hmanager => exact ⟨rfl, rfl, rfl, hp.unbonded (Bool.eq_false_iff.2 hmanager)⟩

end Sound

theorem Idle.initBondingFailed (hp : p.Idle) : p.initBondingFailed.Idle := by
  obtain ⟨h₁, h₂, h₃, -⟩ := forall_handles.1 hp
  exact forall_handles.2 ⟨h₁, h₂, h₃, rfl, rfl, rfl⟩

@[simp] theorem made_initBondingFailed :
    p.initBondingFailed.handles.map Handle.made = p.handles.map Handle.made := rfl

@[simp] theorem made_stop : p.stop.handles.map Handle.made = p.handles.map Handle.made := by
  rw [stop, stopBonding]
  split <;> rfl

/-- The sockets of these links have not been opened yet. -/
structure Pending (p : Pipeline) (links : List BondingLink) : Prop where
  manager : p.bondingManager = true
  nodup : links.Nodup
  closed : ∀ link ∈ links, (p.linkSocket link).held = 0

theorem Sound.openLink {link : BondingLink} {links : List BondingLink} (hp : p.Sound)
    (hlinks : p.Pending (link :: links)) :
    (p.openLink link).Sound ∧ (p.openLink link).Pending links := by
  have hclosed := hlinks.closed link List.mem_cons_self
  have hmanager : (p.openLink link).bondingManager = true := by
    cases link <;> exact hlinks.manager
  obtain ⟨h₁, h₂, h₃, h₄, h₅, h₆⟩ := forall_handles.1 hp.single
  refine ⟨⟨?_, fun hnone => absurd (hmanager.symm.trans hnone) (by decide)⟩, hmanager,
    (List.nodup_cons.1 hlinks.nodup).2, fun other hother => ?_⟩
  · cases link with
    | primary => exact forall_handles.2 ⟨h₁, h₂, h₃, h₄.assign hclosed, h₅, h₆⟩
    | backup => exact forall_handles.2 ⟨h₁, h₂, h₃, h₄, h₅.assign hclosed, h₆⟩
  · have hne : other ≠ link := fun h => (List.nodup_cons.1 hlinks.nodup).1 (h ▸ hother)
    have hsame : (p.openLink link).linkSocket other = p.linkSocket other := by
      cases link <;> cases other <;> first | rfl | exact absurd rfl hne
    rw [hsame]
    exact hlinks.closed other (List.mem_cons_of_mem _ hother)

/-- The manager opens each link once, also when it is suspended in between. -/
theorem Sound.initializeManager (cfg : BondingConfig) {links : List BondingLink} (hp : p.Sound)
    (hlinks : p.Pending links) : (p.initializeManager cfg links).1.Sound ∧
      ∀ next, (p.initializeManager cfg links).2 = some next →
        (p.initializeManager cfg links).1.Pending next.2 := by
  induction links generalizing p with
  | nil =>
    obtain ⟨h₁, h₂, h₃, h₄, h₅, h₆⟩ := forall_handles.1 hp.single
    exact ⟨⟨forall_handles.2 ⟨h₁, h₂, h₃, h₄, h₅, h₆.ensure⟩,
      fun hnone => absurd (hlinks.manager.symm.trans hnone) (by decide)⟩, nofun⟩
  | cons link links ih =>
    obtain ⟨hopen, hpending⟩ := hp.openLink hlinks
    rw [Pipeline.initializeManager]
    split
    · refine ⟨hopen, fun next hnext => ?_⟩
      obtain rfl := Option.some.inj hnext
      exact hpending
    · exact ih hopen hpending

end Pipeline

/-! ## Bodies -/

namespace Stage

/-- The body creates nothing any more. -/
def ended : Stage → Bool
  | clientStarted | clientThrew | done => true
  | _ => false

/-- The body is suspended in `sendHello`. -/
def sendingHello : Stage → Bool
  | hello _ | helloSent => true
  | _ => false

end Stage

namespace Connection

variable {options : ConnectionOptions} {c c' : Connection}

/-- Nothing that is live has been lost, and only `state.pipeline` is in use. -/
structure Sound (c : Connection) : Prop where
  single : ∀ h ∈ c.singleHandles, h.Single
  arrays : c.configWatcherObjects.lost = 0 ∧ c.metaSnapshotTimers.lost = 0
  pipelines : ∀ p ∈ c.pipelines, p.Sound
  idle : ∀ (v2 : ℕ) (p : Pipeline), c.pipelines[v2]? = some p → c.pipeline ≠ some v2 → p.Idle
  known : ∀ v2, c.pipeline = some v2 → v2 < c.pipelines.length

/-- The connection refers to nothing. -/
structure Idle (c : Connection) : Prop where
  own : ∀ h ∈ c.ownHandles, h.held = 0
  pipelines : ∀ p ∈ c.pipelines, p.Idle
  pipeline : c.pipeline = none

/-- The connection has been stopped. -/
structure Down (c : Connection) : Prop where
  lifecycle : c.lifecycle = .stopped
  stopped : c.stopped = true
  idle : c.Idle

theorem forall_singleHandles {P : Handle → Prop} : (∀ h ∈ c.singleHandles, P h) ↔
    P c.dedupeCleanupTimer ∧ P c.helloMessageSender ∧ P c.socketUdp ∧ P c.deltaTimer ∧
      P c.pingMonitor ∧ P c.heartbeatHandle ∧ P c.sourceSnapshotTimer ∧ P c.metaTimer ∧
      P c.subscriptionRetryTimer ∧ P c.socketRecoveryTimer := by
  simp [singleHandles]

theorem Sound.live_eq_zero (hc : c.Sound) (hidle : c.Idle) : ∀ h ∈ c.handles, h.live = 0 := by
  intro h hh
  rw [Handle.live_eq_zero]
  rw [handles, ownHandles, List.append_assoc, List.mem_append, List.mem_append] at hh
  rcases hh with hown | harray | hpipeline
  · exact ⟨hidle.own h (List.mem_append_left _ hown), (hc.single h hown).lost_eq⟩
  · refine ⟨hidle.own h (List.mem_append_right _ harray), ?_⟩
    simp only [List.mem_cons, List.not_mem_nil, or_false] at harray
    rcases harray with rfl | rfl
    · exact hc.arrays.1
    · exact hc.arrays.2
  · obtain ⟨p, hp, hh⟩ := List.mem_flatMap.1 hpipeline
    exact ⟨hidle.pipelines p hp h hh, ((hc.pipelines p hp).single h hh).lost_eq⟩

/-! ## Operations of one pipeline -/

theorem getElem?_modifyPipeline {v2 v : ℕ} {f : Pipeline → Pipeline} {p : Pipeline}
    (hp : (c.modifyPipeline v2 f).pipelines[v]? = some p) :
    ∃ q, c.pipelines[v]? = some q ∧ p = if v2 = v then f q else q := by
  rw [modifyPipeline, List.getElem?_modify] at hp
  obtain ⟨q, hq, rfl⟩ := Option.map_eq_some_iff.1 hp
  exact ⟨q, hq, rfl⟩

theorem getElem?_modifyPipeline_self {v2 : ℕ} {p : Pipeline} (f : Pipeline → Pipeline)
    (hp : c.pipelines[v2]? = some p) : (c.modifyPipeline v2 f).pipelines[v2]? = some (f p) := by
  rw [modifyPipeline, List.getElem?_modify, hp, Option.map_eq_map, Option.map_some, if_pos rfl]

theorem Sound.modifyPipeline {v2 : ℕ} {f : Pipeline → Pipeline} (hc : c.Sound)
    (hf : ∀ p, c.pipelines[v2]? = some p → p.Sound → (f p).Sound)
    (hidle : c.pipeline = some v2 ∨ ∀ p : Pipeline, p.Idle → (f p).Idle) :
    (c.modifyPipeline v2 f).Sound where
  single := hc.single
  arrays := hc.arrays
  pipelines p hp := by
    obtain ⟨v, hv⟩ := List.mem_iff_getElem?.1 hp
    obtain ⟨q, hq, rfl⟩ := getElem?_modifyPipeline hv
    have hsound := hc.pipelines q (List.mem_of_getElem? hq)
    split
    · next heq => exact hf q (heq ▸ hq) hsound
    · exact hsound
  idle v p hv hne := by
    obtain ⟨q, hq, rfl⟩ := getElem?_modifyPipeline hv
    split
    · next heq =>
      rcases hidle with hcurrent | hidle
      · exact absurd (heq ▸ hcurrent) hne
      · exact hidle q (hc.idle v q hq hne)
    · exact hc.idle v q hq hne
  known v hv := by
    rw [Connection.modifyPipeline, List.length_modify]
    exact hc.known v hv

theorem Idle.modifyPipeline {v2 : ℕ} {f : Pipeline → Pipeline} (hc : c.Idle)
    (hf : ∀ p : Pipeline, p.Idle → (f p).Idle) : (c.modifyPipeline v2 f).Idle where
  own := hc.own
  pipelines p hp := by
    obtain ⟨v, hv⟩ := List.mem_iff_getElem?.1 hp
    obtain ⟨q, hq, rfl⟩ := getElem?_modifyPipeline hv
    have hidle := hc.pipelines q (List.mem_of_getElem? hq)
    split
    · exact hf q hidle
    · exact hidle
  pipeline := hc.pipeline

theorem allocated_congr (hown : c'.ownHandles.map Handle.made = c.ownHandles.map Handle.made)
    (hpipelines : c'.pipelines.map (fun p => p.handles.map Handle.made) =
      c.pipelines.map fun p => p.handles.map Handle.made) : c'.allocated = c.allocated := by
  simp only [allocated, handles, List.map_append, List.map_flatMap, hown]
  rw [List.flatMap_def, List.flatMap_def, hpipelines]

theorem allocated_modifyPipeline {v2 : ℕ} {f : Pipeline → Pipeline}
    (hf : ∀ p, (f p).handles.map Handle.made = p.handles.map Handle.made) :
    (c.modifyPipeline v2 f).allocated = c.allocated := by
  refine allocated_congr rfl (List.ext_getElem? fun v => ?_)
  rw [modifyPipeline, List.getElem?_map, List.getElem?_map, List.getElem?_modify]
  cases c.pipelines[v]? with
  | none => rfl
  | some p =>
    change some _ = some _
    split
    · exact congrArg some (hf p)
    · rfl

/-! ## The body of `start()` -/

/-- What is not there yet where a body is suspended. -/
def Before (c : Connection) : Stage → Prop
  | .storage | .timerFile | .epochFile => c.socketUdp.held = 0 ∧ c.pingMonitor.held = 0 ∧
      c.heartbeatHandle.held = 0 ∧ c.configWatcherObjects.held = 0 ∧ c.pipeline = none
  | .bindLink v2 _ links => c.pipeline = some v2 ∧ c.configWatcherObjects.held = 0 ∧
      ∀ p, c.pipelines[v2]? = some p → p.Pending links
  | .bonding v2 => c.pipeline = some v2 ∧ c.configWatcherObjects.held = 0
  | .hello v2 => c.pipeline = some v2 ∧ c.configWatcherObjects.held = 0 ∧
      ∀ p, c.pipelines[v2]? = some p → p.helloRetryTimer.held = 0
  | .helloSent | .reliableClient => c.configWatcherObjects.held = 0
  | .watchers | .clientStarted | .clientThrew | .done => True

/-- A step of a body that loses nothing and reaches its next await in order. -/
structure Advance (c : Connection) (next : Connection × Stage) : Prop where
  sound : next.1.Sound
  lifecycle : next.1.lifecycle = c.lifecycle
  stopped : next.1.stopped = c.stopped
  before : next.1.Before next.2

theorem advance_setupConfigWatchers (hc : c.Sound) (hwatchers : c.configWatcherObjects.held = 0) :
    c.Advance c.setupConfigWatchers := by
  rw [setupConfigWatchers]
  split
  · exact ⟨hc, rfl, rfl, trivial⟩
  · have hlost : (c.configWatcherObjects.assign 3).lost = 0 := by
      rw [Handle.lost_assign, hwatchers, hc.arrays.1]
    exact ⟨⟨hc.single, ⟨hlost, hc.arrays.2⟩, hc.pipelines, hc.idle, hc.known⟩, rfl, rfl, trivial⟩

theorem advance_initializeLinks {v2 : ℕ} (cfg : BondingConfig) {links : List BondingLink}
    {p : Pipeline} (hc : c.Sound) (hcurrent : c.pipeline = some v2)
    (hwatchers : c.configWatcherObjects.held = 0) (hp : c.pipelines[v2]? = some p)
    (hlinks : p.Pending links) : c.Advance (c.initializeLinks v2 cfg links) := by
  have hsound : ∀ q, c.pipelines[v2]? = some q → q.Sound →
      (q.initializeManager cfg links).1.Sound := by
    intro q hq hsound
    obtain rfl := Option.some.inj (hp.symm.trans hq)
    exact (hsound.initializeManager cfg hlinks).1
  refine ⟨hc.modifyPipeline hsound (.inl hcurrent), rfl, rfl, ?_⟩
  have hpsound := hc.pipelines p (List.mem_of_getElem? hp)
  have hnext := (hpsound.initializeManager cfg hlinks).2
  simp only [initializeLinks, hp, Option.getD_some]
  split
  · next rest heq =>
    refine ⟨hcurrent, hwatchers, fun q hq => ?_⟩
    obtain ⟨q', hq', rfl⟩ := getElem?_modifyPipeline hq
    obtain rfl := Option.some.inj (hp.symm.trans hq')
    rw [if_pos rfl]
    exact hnext (_, rest) (congrArg Prod.snd heq)
  · exact ⟨hcurrent, hwatchers⟩

theorem advance_setupReliableClient (options : ConnectionOptions) (hc : c.Sound)
    (hheartbeat : c.heartbeatHandle.held = 0)
    (hnone : c.pipeline = none) (hwatchers : c.configWatcherObjects.held = 0) :
    c.Advance (c.setupReliableClient options) := by
  rw [setupReliableClient]
  split
  · exact ⟨hc, rfl, rfl, hwatchers⟩
  -- The new pipeline is `state.pipeline`, and no older one is in use.
  dsimp only
  have hcreate := Pipeline.sound_create.startMetricsPublishing
  generalize hp : (if options.congestionControl = true
    then Pipeline.create.startMetricsPublishing.startCongestionControl
    else Pipeline.create.startMetricsPublishing) = p
  have hpsound : p.Sound := by
    rw [← hp]
    split
    · exact hcreate.startCongestionControl
    · exact hcreate
  have hclosed : ∀ link, (p.linkSocket link).held = 0 := by
    intro link
    rw [← hp]
    split <;> cases link <;> rfl
  obtain ⟨h₁, h₂, h₃, h₄, h₅, h₆, h₇⟩ := forall_singleHandles.1 hc.single
  have hnew : Sound { c with
      pipelines := c.pipelines ++ [p]
      pipeline := some c.pipelines.length
      heartbeatHandle := c.heartbeatHandle.assign 1 } := by
    refine ⟨forall_singleHandles.2 ⟨h₁, h₂, h₃, h₄, h₅, h₆.assign hheartbeat, h₇⟩, hc.arrays,
      fun q hq => ?_, fun v q hq hne => ?_, fun v hv => ?_⟩
    · rcases List.mem_append.1 hq with hq | hq
      · exact hc.pipelines q hq
      · rw [List.mem_singleton.1 hq]
        exact hpsound
    · have hlt := (List.getElem?_eq_some_iff.1 hq).1
      rw [List.length_append, List.length_singleton] at hlt
      have hne' : v ≠ c.pipelines.length := fun h => hne (h ▸ rfl)
      rw [List.getElem?_append_left (by omega)] at hq
      exact hc.idle v q hq (by rw [hnone]; nofun)
    · obtain rfl := Option.some.inj hv
      simp
  cases options.bonding with
  | none => exact ⟨hnew, rfl, rfl, rfl, hwatchers⟩
  | some cfg =>
    have hget : (c.pipelines ++ [p])[c.pipelines.length]? = some p := List.getElem?_concat_length
    have hnodup : [BondingLink.primary, .backup].Nodup := by decide
    have hopened : ∀ link, (Pipeline.linkSocket { p with bondingManager := true } link).held = 0
      | .primary => hclosed .primary
      | .backup => hclosed .backup
    have hadvance := advance_initializeLinks cfg
      (hnew.modifyPipeline (f := fun p => { p with bondingManager := true })
        (fun q _ hq => ⟨hq.single, nofun⟩) (.inl rfl)) rfl hwatchers
      (getElem?_modifyPipeline_self _ hget) ⟨rfl, hnodup, fun link _ => hopened link⟩
    exact ⟨hadvance.sound, hadvance.lifecycle, hadvance.stopped, hadvance.before⟩

theorem advance_createClient (options : ConnectionOptions) (hc : c.Sound)
    (hbefore : c.Before .epochFile) (createThrows : Bool) :
    c.Advance (c.createClient options createThrows) := by
  obtain ⟨hsocket, hping, hheartbeat, hwatchers, hnone⟩ := hbefore
  obtain ⟨h₁, h₂, h₃, h₄, h₅, h₆⟩ := forall_singleHandles.1 hc.single
  rw [createClient]
  split
  · exact ⟨⟨forall_singleHandles.2 ⟨h₁, h₂.restart, h₃, h₄, h₅, h₆⟩, hc.arrays, hc.pipelines,
      hc.idle, hc.known⟩, rfl, rfl, trivial⟩
  · dsimp only
    split
    · obtain ⟨hsound, hlifecycle, hstopped, hnext⟩ :=
        advance_setupReliableClient options (c := { c with
          helloMessageSender := c.helloMessageSender.restart
          socketUdp := c.socketUdp.assign 1
          deltaTimer := c.deltaTimer.restart })
          ⟨forall_singleHandles.2 ⟨h₁, h₂.restart, h₃.assign hsocket, h₄.restart, h₅, h₆⟩,
            hc.arrays, hc.pipelines, hc.idle, hc.known⟩ hheartbeat hnone hwatchers
      exact ⟨hsound, hlifecycle, hstopped, hnext⟩
    · obtain ⟨hsound, hlifecycle, hstopped, hnext⟩ :=
        advance_setupConfigWatchers (c := { c with
          helloMessageSender := c.helloMessageSender.restart
          socketUdp := c.socketUdp.assign 1
          deltaTimer := c.deltaTimer.restart
          pingMonitor := c.pingMonitor.assign 1 })
          ⟨forall_singleHandles.2 ⟨h₁, h₂.restart, h₃.assign hsocket, h₄.restart,
            h₅.assign hping, h₆⟩, hc.arrays, hc.pipelines, hc.idle, hc.known⟩ hwatchers
      exact ⟨hsound, hlifecycle, hstopped, hnext⟩

theorem sound_processSubscriptionConfig (hc : c.Sound) (reload : Reload) :
    (c.processSubscriptionConfig reload).Sound ∧
      (c.processSubscriptionConfig reload).lifecycle = c.lifecycle ∧
      (c.processSubscriptionConfig reload).stopped = c.stopped := by
  obtain ⟨h₁, h₂, h₃, h₄, h₅, h₆, h₇, h₈, h₉, h₁₀⟩ := forall_singleHandles.1 hc.single
  cases reload with
  | unchanged => exact ⟨hc, rfl, rfl⟩
  | subscribed enabled =>
    cases enabled with
    | false =>
      exact ⟨⟨forall_singleHandles.2 ⟨h₁, h₂, h₃, h₄, h₅, h₆, h₇, h₈.release, h₉.release, h₁₀⟩,
        hc.arrays, hc.pipelines, hc.idle, hc.known⟩, rfl, rfl⟩
    | true =>
      exact ⟨⟨forall_singleHandles.2 ⟨h₁, h₂, h₃, h₄, h₅, h₆, h₇, h₈.restart, h₉.release, h₁₀⟩,
        hc.arrays, hc.pipelines, hc.idle, hc.known⟩, rfl, rfl⟩
  | failed enabled =>
    exact ⟨⟨forall_singleHandles.2 ⟨h₁, h₂, h₃, h₄, h₅, h₆, h₇, h₈, h₉.release.restart, h₁₀⟩,
      hc.arrays, hc.pipelines, hc.idle, hc.known⟩, rfl, rfl⟩

/-- One step of a body that has not ended: nothing is lost. -/
theorem advance_proceed (options : ConnectionOptions) (o : Outcome) {s : Stage} (hc : c.Sound)
    (hs : s.ended = false) (hbefore : c.Before s) : c.Advance (c.proceed options o s) := by
  cases s with
  | storage =>
    simp only [proceed]
    split_ifs
    · exact ⟨hc, rfl, rfl, trivial⟩
    · exact ⟨hc, rfl, rfl, trivial⟩
    · exact ⟨hc, rfl, rfl, hbefore⟩
  | timerFile =>
    simp only [proceed]
    split_ifs
    · exact ⟨hc, rfl, rfl, trivial⟩
    · exact ⟨hc, rfl, rfl, hbefore⟩
  | epochFile =>
    simp only [proceed]
    split_ifs
    · exact ⟨hc, rfl, rfl, trivial⟩
    · exact advance_createClient options hc hbefore o.createThrows
  | bindLink v2 link links =>
    obtain ⟨hcurrent, hwatchers, hpending⟩ := hbefore
    simp only [proceed]
    cases options.bonding with
    | none => exact ⟨hc, rfl, rfl, hcurrent, hwatchers⟩
    | some cfg =>
      dsimp only
      split_ifs
      · exact ⟨hc.modifyPipeline (fun p _ hp => hp.initBondingFailed) (.inl hcurrent), rfl, rfl,
          hcurrent, hwatchers⟩
      · have hp := List.getElem?_eq_getElem (hc.known v2 hcurrent)
        exact advance_initializeLinks cfg hc hcurrent hwatchers hp (hpending _ hp)
  | bonding v2 =>
    obtain ⟨hcurrent, hwatchers⟩ := hbefore
    simp only [proceed]
    split_ifs
    · exact ⟨hc, rfl, rfl, hwatchers⟩
    · refine ⟨hc.modifyPipeline (fun p _ hp => hp.stopHelloRetry) (.inl hcurrent), rfl, rfl,
        hcurrent, hwatchers, fun p hp => ?_⟩
      obtain ⟨q, hq, rfl⟩ := getElem?_modifyPipeline hp
      rw [if_pos rfl]
      rfl
  | hello v2 =>
    obtain ⟨hcurrent, hwatchers, hidle⟩ := hbefore
    exact ⟨hc.modifyPipeline (fun p hp hsound => hsound.scheduleHelloRetry (hidle p hp) _ _)
      (.inl hcurrent), rfl, rfl, hwatchers⟩
  | helloSent =>
    obtain ⟨h₁, h₂, h₃, h₄, h₅, h₆, h₇, h₈⟩ := forall_singleHandles.1 hc.single
    exact ⟨⟨forall_singleHandles.2 ⟨h₁, h₂, h₃, h₄, h₅, h₆, h₇.restart, h₈⟩, hc.arrays,
      hc.pipelines, hc.idle, hc.known⟩, rfl, rfl, hbefore⟩
  | reliableClient => exact advance_setupConfigWatchers hc hbefore
  | watchers =>
    simp only [proceed]
    split_ifs
    · exact ⟨hc, rfl, rfl, trivial⟩
    · obtain ⟨hsound, hlifecycle, hstopped⟩ := sound_processSubscriptionConfig hc o.reload
      exact ⟨hsound, hlifecycle, hstopped, trivial⟩
  | clientStarted => nomatch hs
  | clientThrew => nomatch hs
  | done => nomatch hs

/-! ## `stop()` -/

@[simp] theorem lifecycle_stop : c.stop.lifecycle = .stopped := by
  simp only [stop, teardownMonitoringAndSocket, teardownPipelines, withPipeline]
  split <;> rfl

@[simp] theorem stopped_stop : c.stop.stopped = true := by
  simp only [stop, teardownMonitoringAndSocket, teardownPipelines, withPipeline]
  split <;> rfl

@[simp] theorem bodies_stop : c.stop.bodies = c.bodies := by
  simp only [stop, teardownMonitoringAndSocket, teardownPipelines, withPipeline]
  split <;> rfl

theorem pipeline_stop : c.stop.pipeline = none := rfl

theorem pipelines_stop : c.stop.pipelines = (c.withPipeline Pipeline.stop).pipelines := by
  simp only [stop, teardownMonitoringAndSocket, teardownPipelines, withPipeline]
  split
  · next hp => rw [show c.pipeline = some _ from hp]; rfl
  · next hp => rw [show c.pipeline = none from hp]; rfl

theorem singleHandles_stop : c.stop.singleHandles = c.singleHandles.map Handle.release := by
  simp only [stop, teardownMonitoringAndSocket, teardownPipelines, withPipeline]
  split <;> rfl

theorem arrays_stop : c.stop.configWatcherObjects = c.configWatcherObjects.release ∧
    c.stop.metaSnapshotTimers = c.metaSnapshotTimers.release := by
  simp only [stop, teardownMonitoringAndSocket, teardownPipelines, withPipeline]
  split <;> exact ⟨rfl, rfl⟩

theorem ownHandles_stop : c.stop.ownHandles = c.ownHandles.map Handle.release := by
  rw [ownHandles, ownHandles, singleHandles_stop, arrays_stop.1, arrays_stop.2, List.map_append]
  rfl

theorem getElem?_pipelines_stop {v : ℕ} {p : Pipeline} (hp : c.stop.pipelines[v]? = some p) :
    ∃ q, c.pipelines[v]? = some q ∧ p = if c.pipeline = some v then q.stop else q := by
  rw [pipelines_stop, withPipeline] at hp
  cases hcurrent : c.pipeline with
  | none =>
    rw [hcurrent] at hp
    exact ⟨p, hp, rfl⟩
  | some v2 =>
    rw [hcurrent] at hp
    obtain ⟨q, hq, rfl⟩ := getElem?_modifyPipeline hp
    refine ⟨q, hq, ?_⟩
    simp only [Option.some.injEq]

theorem Sound.idle_stop (hc : c.Sound) : c.stop.Idle where
  own h hh := by
    rw [ownHandles_stop] at hh
    obtain ⟨h', -, rfl⟩ := List.mem_map.1 hh
    rfl
  pipelines p hp := by
    obtain ⟨v, hv⟩ := List.mem_iff_getElem?.1 hp
    obtain ⟨q, hq, rfl⟩ := getElem?_pipelines_stop hv
    split
    · exact (hc.pipelines q (List.mem_of_getElem? hq)).idle_stop
    · next hne => exact hc.idle v q hq hne
  pipeline := pipeline_stop

theorem Sound.down_stop (hc : c.Sound) : c.stop.Down := 
  ⟨lifecycle_stop, stopped_stop, hc.idle_stop⟩

theorem Sound.stop (hc : c.Sound) : c.stop.Sound where
  single := by
    rw [singleHandles_stop]
    intro h hh
    obtain ⟨h', hh', rfl⟩ := List.mem_map.1 hh
    exact (hc.single h' hh').release
  arrays := by
    rw [arrays_stop.1, arrays_stop.2]
    exact hc.arrays
  pipelines p hp := by
    obtain ⟨v, hv⟩ := List.mem_iff_getElem?.1 hp
    obtain ⟨q, hq, rfl⟩ := getElem?_pipelines_stop hv
    have hsound := hc.pipelines q (List.mem_of_getElem? hq)
    split
    · exact hsound.stop
    · exact hsound
  idle v p hp _ := hc.idle_stop.pipelines p (List.mem_of_getElem? hp)
  known v hv := nomatch pipeline_stop.symm.trans hv

theorem allocated_stop : c.stop.allocated = c.allocated := by
  have hwith : (c.withPipeline Pipeline.stop).allocated = c.allocated := by
    rw [withPipeline]
    split
    · exact allocated_modifyPipeline fun p => Pipeline.made_stop
    · rfl
  rw [← hwith]
  refine allocated_congr ?_ (congrArg _ pipelines_stop)
  have hown : (c.withPipeline Pipeline.stop).ownHandles = c.ownHandles := by
    rw [withPipeline]
    split <;> rfl
  rw [hown, ownHandles_stop, List.map_map]
  rfl

/-! ## Bodies that create nothing -/

/-- The body creates nothing any more: it has no creation ahead, or it will find out at its next
check that the connection has been stopped. -/
def Inert (c : Connection) (i : ℕ) : Prop :=
  ∀ s, c.bodies[i]? = some s → s.ended = true ∨ (c.Down ∧ s.sendingHello = false)

theorem Down.isShuttingDown (hc : c.Down) : c.isShuttingDown = true := by
  rw [Connection.isShuttingDown, hc.lifecycle]
  rfl

/-- A body that goes on after the connection has been stopped finds out at its next check; at most
it closes the link sockets of its own pipeline. -/
theorem Down.proceed (options : ConnectionOptions) (o : Outcome) {s : Stage} (hc : c.Down)
    (hs : s.sendingHello = false) (hended : s.ended = false) :
    ((c.proceed options o s).1 = c ∨
      ∃ v2, (c.proceed options o s).1 = c.modifyPipeline v2 Pipeline.initBondingFailed) ∧
    (c.proceed options o s).2.sendingHello = false := by
  have hdown := hc.isShuttingDown
  cases s with
  | storage =>
    simp only [Connection.proceed, hdown, if_true]
    split <;> exact ⟨.inl rfl, rfl⟩
  | timerFile => simp [Connection.proceed, hdown, Stage.sendingHello]
  | epochFile => simp [Connection.proceed, hdown, Stage.sendingHello]
  | bindLink v2 link links =>
    cases hbonding : options.bonding with
    | none => simp [Connection.proceed, hbonding, Stage.sendingHello]
    | some cfg =>
      -- Its link socket is closed, so the body runs into the catch clause.
      have hclosed : ((c.pipelines[v2]?.getD .create).linkSocket link).held = 0 := by
        cases hp : c.pipelines[v2]? with
        | none => cases link <;> rfl
        | some p =>
          obtain ⟨-, -, -, hprimary, hbackup, -⟩ := Pipeline.forall_handles.1
            (hc.idle.pipelines p (List.mem_of_getElem? hp))
          cases link
          · exact hprimary
          · exact hbackup
      have hnext : c.proceed options o (.bindLink v2 link links) =
          (c.modifyPipeline v2 Pipeline.initBondingFailed, .bonding v2) := by
        simp [Connection.proceed, hbonding, hclosed]
      rw [hnext]
      exact ⟨.inr ⟨v2, rfl⟩, rfl⟩
  | bonding v2 => simp [Connection.proceed, hdown, Stage.sendingHello]
  | hello v2 => nomatch hs
  | helloSent => nomatch hs
  | reliableClient => simp [Connection.proceed, setupConfigWatchers, hdown, Stage.sendingHello]
  | watchers => simp [Connection.proceed, hc.stopped, Stage.sendingHello]
  | clientStarted => nomatch hended
  | clientThrew => nomatch hended
  | done => nomatch hended

theorem Down.modifyPipeline {v2 : ℕ} (hc : c.Down) :
    (c.modifyPipeline v2 Pipeline.initBondingFailed).Down :=
  ⟨hc.lifecycle, hc.stopped, hc.idle.modifyPipeline fun _ hp => hp.initBondingFailed⟩

/-- A step of a body that has ended creates nothing. -/
theorem proceed_ended (options : ConnectionOptions) (o : Outcome) {s : Stage}
    (hs : s.ended = true) : (c.proceed options o s).1.allocated = c.allocated ∧
      (c.proceed options o s).2 = .done := by
  cases s <;> try contradiction
  case clientStarted =>
    simp only [proceed]
    split <;> exact ⟨rfl, rfl⟩
  case clientThrew => exact ⟨allocated_stop, rfl⟩
  case done => exact ⟨rfl, rfl⟩

theorem resume_eq {i : ℕ} {s : Stage} (hi : c.bodies[i]? = some s) (o : Outcome) :
    c.resume options i o = { (c.proceed options o s).1 with
      bodies := c.bodies.set i (c.proceed options o s).2 } := by
  rw [resume, hi]

theorem getElem?_set_eq {i : ℕ} {s t t' : Stage} (hi : c.bodies[i]? = some s)
    (ht : (c.bodies.set i t)[i]? = some t') : t' = t := by
  obtain ⟨hlt, -⟩ := List.getElem?_eq_some_iff.1 hi
  rw [List.getElem?_set_self hlt] at ht
  exact (Option.some.inj ht).symm

theorem Inert.resume (options : ConnectionOptions) {i : ℕ} (hinert : c.Inert i) (o : Outcome) :
    (c.resume options i o).allocated = c.allocated ∧ (c.resume options i o).Inert i := by
  cases hi : c.bodies[i]? with
  | none =>
    have hsame : c.resume options i o = c := by rw [Connection.resume, hi]
    rw [hsame]
    exact ⟨rfl, hinert⟩
  | some s =>
    rw [resume_eq hi]
    cases hended : s.ended with
    | true =>
      obtain ⟨hallocated, hdone⟩ := proceed_ended (c := c) options o hended
      refine ⟨hallocated, fun t ht => .inl ?_⟩
      rw [getElem?_set_eq hi ht, hdone]
      rfl
    | false =>
      obtain ⟨hdown, hhello⟩ := (hinert s hi).resolve_left (by rw [hended]; decide)
      obtain ⟨hnext, hhello'⟩ := hdown.proceed options o hhello hended
      have hkept : (c.proceed options o s).1.allocated = c.allocated ∧
          (c.proceed options o s).1.Down := by
        rcases hnext with hsame | ⟨v2, hsame⟩
        · rw [hsame]
          exact ⟨rfl, hdown⟩
        · rw [hsame]
          exact ⟨allocated_modifyPipeline fun p => Pipeline.made_initBondingFailed,
            hdown.modifyPipeline⟩
      refine ⟨hkept.1, fun t ht => .inr ?_⟩
      rw [getElem?_set_eq hi ht]
      exact ⟨⟨hkept.2.lifecycle, hkept.2.stopped, ⟨hkept.2.idle.own, hkept.2.idle.pipelines,
        hkept.2.idle.pipeline⟩⟩, hhello'⟩

/-- The body with the given number creates something if it goes on long enough. -/
def CanAllocate (options : ConnectionOptions) (c : Connection) (i : ℕ) : Prop :=
  ∃ os : List Outcome,
    c.allocated < (run (fun c o => c.resume options i o) c os).allocated

theorem Inert.not_canAllocate (options : ConnectionOptions) {i : ℕ} (hinert : c.Inert i) :
    ¬ c.CanAllocate options i := by
  rintro ⟨os, hlt⟩
  have hrun : (run (fun c o => c.resume options i o) c os).allocated = c.allocated ∧
      (run (fun c o => c.resume options i o) c os).Inert i := by
    refine run_invariant (I := fun c' : Connection => c'.allocated = c.allocated ∧ c'.Inert i)
      (fun c' o hc' => ?_) ⟨rfl, hinert⟩ os
    obtain ⟨hallocated, hinert'⟩ := hc'.2.resume options o
    exact ⟨hallocated.trans hc'.1, hinert'⟩
  omega

/-! ## Orderly calls -/

/-- The calls of the connection and the continuations of its `start()` bodies. -/
def Event.IsCall : Event → Prop
  | .start | .stop | .resume _ _ => True
  | _ => False

/-- A `start()` that the lifecycle accepts finds no body that may still create something, and a
`stop()`, also that of a body whose start has failed, finds no body in `sendHello`. -/
def Orderly (c : Connection) : Event → Prop
  | .start => (c.lifecycle.transition .starting).2 = true → ∀ s ∈ c.bodies, s.ended = true
  | .stop => ∀ s ∈ c.bodies, s.sendingHello = false
  | .resume i _ => c.bodies[i]? = some .clientThrew → ∀ s ∈ c.bodies, s.sendingHello = false
  | _ => True

instance : ∀ e, Decidable (c.Orderly e)
  | .start => inferInstanceAs (Decidable (_ → _))
  | .stop => inferInstanceAs (Decidable (∀ s ∈ c.bodies, s.sendingHello = false))
  | .resume _ _ => inferInstanceAs (Decidable (_ → _))
  | .socketError | .recoveryTimer _ | .helloSent _ _ | .helloRetry _ _ | .keepalive _
  | .subscriptionError | .subscriptionRetry _ => isTrue trivial

/-- **The invariant.** While the connection is up, at most one body has something left to create,
and what it is about to create is not there yet. -/
structure Inv (c : Connection) : Prop where
  sound : c.Sound
  lifecycle : c.lifecycle = .created ∨ c.lifecycle = .starting ∨ c.lifecycle = .ready ∨
    c.lifecycle = .stopped
  created : c.lifecycle = .created → c.Idle ∧ c.bodies = []
  down : c.lifecycle = .stopped → c.Down ∧ ∀ s ∈ c.bodies, s.sendingHello = false
  alone : c.lifecycle ≠ .stopped → ∀ (i j : ℕ) (s t : Stage), c.bodies[i]? = some s →
    c.bodies[j]? = some t → s.ended = false → t.ended = false → i = j
  before : c.lifecycle ≠ .stopped → ∀ s ∈ c.bodies, s.ended = false → c.Before s

theorem idle_new : new.Idle := ⟨by decide, nofun, rfl⟩

theorem inv_new : new.Inv where
  sound := ⟨forall_singleHandles.2 ⟨Handle.single_empty, Handle.single_empty, Handle.single_empty,
    Handle.single_empty, Handle.single_empty, Handle.single_empty, Handle.single_empty,
    Handle.single_empty, Handle.single_empty, Handle.single_empty⟩, ⟨rfl, rfl⟩, nofun, nofun,
    nofun⟩
  lifecycle := .inl rfl
  created _ := ⟨idle_new, rfl⟩
  down := nofun
  alone _ _ _ _ _ hi := nomatch hi
  before _ _ hs := nomatch hs

theorem start_refused (hlifecycle : (c.lifecycle.transition .starting).2 = false) :
    c.start options = c := by
  rw [start]
  split
  · rfl
  · next heq => rw [heq] at hlifecycle; nomatch hlifecycle

theorem start_accepted (hlifecycle : (c.lifecycle.transition .starting).2 = true) :
    c.start options = if options.validStart then
      { c with
        lifecycle := .starting
        stopped := false
        dedupeCleanupTimer := c.dedupeCleanupTimer.restart
        bodies := c.bodies ++ [.storage] }
    else { c with lifecycle := .stopped, stopped := true } := by
  have hmem : LifecycleState.starting ∈ c.lifecycle.validTransitions := by
    by_contra hmem
    rw [LifecycleState.transition, if_neg hmem] at hlifecycle
    nomatch hlifecycle
  rw [start, LifecycleState.transition, if_pos hmem]

theorem not_sendingHello {s : Stage} (hs : s.ended = true) : s.sendingHello = false := by
  cases s <;> first | rfl | nomatch hs

theorem Inv.start (hc : c.Inv) (horderly : c.Orderly .start) : (c.start options).Inv := by
  cases haccepted : (c.lifecycle.transition .starting).2 with
  | false =>
    rw [start_refused haccepted]
    exact hc
  | true =>
    have hended := horderly haccepted
    have hidle : c.Idle := by
      rcases hc.lifecycle with h | h | h | h
      · exact (hc.created h).1
      · rw [h] at haccepted
        nomatch haccepted
      · rw [h] at haccepted
        nomatch haccepted
      · exact (hc.down h).1.idle
    rw [start_accepted haccepted]
    split
    · obtain ⟨h₁, hrest⟩ := forall_singleHandles.1 hc.sound.single
      refine ⟨⟨forall_singleHandles.2 ⟨h₁.restart, hrest⟩, hc.sound.arrays, hc.sound.pipelines,
        hc.sound.idle, hc.sound.known⟩, .inr (.inl rfl), nofun, nofun, fun _ => ?_, fun _ => ?_⟩
      · -- Only the new body has not ended.
        have hnone : ∀ s ∈ c.bodies, ¬ s.ended = false := fun s hs => by simp [hended s hs]
        intro i j s t hi hj hs ht
        rw [eq_length_of_append_singleton hnone hi hs, eq_length_of_append_singleton hnone hj ht]
      · intro s hs hs'
        rcases List.mem_append.1 hs with hs | hs
        · exact absurd (hended s hs) (by rw [hs']; decide)
        · rw [List.mem_singleton.1 hs]
          have hown : ∀ h, h ∈ c.ownHandles → h.held = 0 := hidle.own
          simp only [ownHandles, singleHandles, List.cons_append, List.nil_append,
            List.forall_mem_cons] at hown
          obtain ⟨-, -, hsocket, -, hping, hheartbeat, -, -, -, -, hwatchers, -⟩ := hown
          exact ⟨hsocket, hping, hheartbeat, hwatchers, hidle.pipeline⟩
    · exact ⟨⟨hc.sound.single, hc.sound.arrays, hc.sound.pipelines, hc.sound.idle,
        hc.sound.known⟩, .inr (.inr (.inr rfl)), nofun,
        fun _ => ⟨⟨rfl, rfl, ⟨hidle.own, hidle.pipelines, hidle.pipeline⟩⟩,
          fun s hs => not_sendingHello (hended s hs)⟩,
        fun hne => absurd rfl hne, fun hne => absurd rfl hne⟩

theorem Inv.stop (hc : c.Inv) (horderly : c.Orderly .stop) : c.stop.Inv where
  sound := hc.sound.stop
  lifecycle := .inr (.inr (.inr lifecycle_stop))
  created h := nomatch lifecycle_stop.symm.trans h
  down _ := ⟨hc.sound.down_stop, by rw [bodies_stop]; exact horderly⟩
  alone h := absurd lifecycle_stop h
  before h := absurd lifecycle_stop h

/-- A body may move on as it likes once it has ended or the connection has been stopped. -/
theorem Inv.set {i : ℕ} {s : Stage} (hc : c.Inv) (hne : c.bodies ≠ [])
    (hhello : s.sendingHello = false) (hs : s.ended = true ∨ c.lifecycle = .stopped) :
    Inv { c with bodies := c.bodies.set i s } where
  sound := ⟨hc.sound.single, hc.sound.arrays, hc.sound.pipelines, hc.sound.idle, hc.sound.known⟩
  lifecycle := hc.lifecycle
  created h := absurd (hc.created h).2 hne
  down h := by
    obtain ⟨hdown, hquiet⟩ := hc.down h
    refine ⟨⟨hdown.lifecycle, hdown.stopped, ⟨hdown.idle.own, hdown.idle.pipelines,
      hdown.idle.pipeline⟩⟩, fun t ht => ?_⟩
    rcases List.mem_or_eq_of_mem_set ht with ht | rfl
    · exact hquiet t ht
    · exact hhello
  alone h j k t u hj hk ht hu := by
    have hs : ¬ s.ended = false := by simp [hs.resolve_right h]
    have hold : ∀ {j : ℕ} {t : Stage}, (c.bodies.set i s)[j]? = some t → t.ended = false →
        c.bodies[j]? = some t := getElem?_of_set (p := fun s : Stage => s.ended = false) hs
    exact hc.alone h j k t u (hold hj ht) (hold hk hu) ht hu
  before h t ht ht' := by
    rcases List.mem_or_eq_of_mem_set ht with ht | rfl
    · have := hc.before h t ht ht'
      cases t <;> exact this
    · rw [hs.resolve_right h] at ht'
      nomatch ht'

theorem Inv.advance {i : ℕ} {s : Stage} {next : Connection × Stage} (hc : c.Inv)
    (hi : c.bodies[i]? = some s) (hs : s.ended = false) (hup : c.lifecycle ≠ .stopped)
    (hnext : c.Advance next) : Inv { next.1 with bodies := c.bodies.set i next.2 } := by
  -- The body is the only one that had something left to create.
  have honly : ∀ (j : ℕ) (t : Stage), (c.bodies.set i next.2)[j]? = some t → t.ended = false →
      j = i ∧ t = next.2 :=
    fun _ _ => eq_of_set (p := fun s : Stage => s.ended = false) fun j t hj ht =>
      hc.alone hup i j s t hi hj hs ht
  have hlifecycle := hnext.lifecycle
  have hsound := hnext.sound
  refine ⟨⟨hsound.single, hsound.arrays, hsound.pipelines, hsound.idle, hsound.known⟩,
    ?_, fun h => ?_, fun h => ?_, fun _ j k t u hj hk ht hu => ?_, fun _ t ht ht' => ?_⟩
  · have := hc.lifecycle
    rwa [← hlifecycle] at this
  · rw [(hc.created (hlifecycle.symm.trans h)).2] at hi
    nomatch hi
  · exact absurd (hlifecycle.symm.trans h) hup
  · rw [(honly j t hj ht).1, (honly k u hk hu).1]
  · obtain ⟨j, hj⟩ := List.mem_iff_getElem?.1 ht
    rw [(honly j t hj ht').2]
    have := hnext.before
    cases h : next.2 <;> rw [h] at this <;> exact this

/-- `start()` sees its body through to the end. -/
theorem Inv.ready (hc : c.Inv) (hne : c.bodies ≠ []) (hup : c.lifecycle ≠ .stopped) :
    Inv { c.transition .ready with readyToSend := true } := by
  have hready : (c.lifecycle.transition .ready).1 = .ready := by
    rcases hc.lifecycle with h | h | h | h
    · exact absurd (hc.created h).2 hne
    · rw [h]
      rfl
    · rw [h]
      rfl
    · exact absurd h hup
  refine ⟨⟨hc.sound.single, hc.sound.arrays, hc.sound.pipelines, hc.sound.idle, hc.sound.known⟩,
    .inr (.inr (.inl hready)), fun h => (nomatch hready.symm.trans h),
    fun h => (nomatch hready.symm.trans h), fun _ => hc.alone hup, fun _ t ht ht' => ?_⟩
  have := hc.before hup t ht ht'
  cases t <;> exact this

theorem Inv.modifyPipeline {v2 : ℕ} (hc : c.Inv) (hdown : c.Down) :
    (c.modifyPipeline v2 Pipeline.initBondingFailed).Inv where
  sound := hc.sound.modifyPipeline (fun _ _ hp => hp.initBondingFailed)
    (.inr fun _ hp => hp.initBondingFailed)
  lifecycle := hc.lifecycle
  created h := nomatch hdown.lifecycle.symm.trans h
  down h := ⟨hdown.modifyPipeline, (hc.down h).2⟩
  alone h := absurd hdown.lifecycle h
  before h := absurd hdown.lifecycle h

theorem isShuttingDown_iff (hc : c.Inv) : c.isShuttingDown = true ↔ c.lifecycle = .stopped := by
  rw [isShuttingDown]
  rcases hc.lifecycle with h | h | h | h <;> rw [h] <;> decide

theorem Inv.resume (hc : c.Inv) {i : ℕ} {o : Outcome} (horderly : c.Orderly (.resume i o)) :
    (c.resume options i o).Inv := by
  cases hi : c.bodies[i]? with
  | none =>
    rw [Connection.resume, hi]
    exact hc
  | some s =>
    rw [resume_eq hi]
    have hne : c.bodies ≠ [] := fun h => by rw [h] at hi; nomatch hi
    have hmem : s ∈ c.bodies := List.mem_of_getElem? hi
    cases hended : s.ended with
    | true =>
      cases s <;> try contradiction
      case clientStarted =>
        simp only [proceed]
        split
        · exact hc.set hne rfl (.inl rfl)
        · next hup =>
          exact (hc.ready hne (mt (isShuttingDown_iff hc).2 hup)).set hne rfl (.inl rfl)
      case clientThrew =>
        have hstop := (hc.stop (horderly hi)).set (i := i) (by rwa [bodies_stop]) rfl
          (.inl (rfl : Stage.ended .done = true))
        rwa [bodies_stop] at hstop
      case done => exact hc.set hne rfl (.inl rfl)
    | false =>
      by_cases hup : c.lifecycle = .stopped
      · obtain ⟨hdown, hquiet⟩ := hc.down hup
        obtain ⟨hnext, hhello⟩ := hdown.proceed options o (hquiet s hmem) hended
        rcases hnext with hsame | ⟨v2, hsame⟩
        · rw [hsame]
          exact hc.set hne hhello (.inr hup)
        · rw [hsame]
          exact (hc.modifyPipeline hdown).set hne hhello (.inr hup)
      · exact hc.advance hi hended hup
          (advance_proceed options o hc.sound hended (hc.before hup s hmem hended))

/-- **One call.** Orderly calls and continuations keep the invariant. -/
theorem Inv.step (hc : c.Inv) {e : Event} (hcall : e.IsCall) (horderly : c.Orderly e) :
    (c.step options e).Inv := by
  cases e with
  | start => exact hc.start horderly
  | stop => exact hc.stop horderly
  | resume i o => exact hc.resume horderly
  | socketError => exact hcall.elim
  | recoveryTimer attempt => exact hcall.elim
  | helloSent k helloAcknowledged => exact hcall.elim
  | helloRetry v2 helloAcknowledged => exact hcall.elim
  | keepalive idle => exact hcall.elim
  | subscriptionError => exact hcall.elim
  | subscriptionRetry throws => exact hcall.elim

/-! ## After a `stop()` -/

theorem Inv.inert (hc : c.Inv) (hdown : c.lifecycle = .stopped) (i : ℕ) : c.Inert i :=
  fun s hi => .inr ⟨(hc.down hdown).1, (hc.down hdown).2 s (List.mem_of_getElem? hi)⟩

/-- Only `start()` brings a connection that has been stopped up again. -/
theorem lifecycle_resume (hc : c.Inv) (hdown : c.lifecycle = .stopped) (i : ℕ) (o : Outcome) :
    (c.resume options i o).lifecycle = .stopped := by
  cases hi : c.bodies[i]? with
  | none => rwa [Connection.resume, hi]
  | some s =>
    rw [resume_eq hi]
    obtain ⟨hd, hquiet⟩ := hc.down hdown
    cases hended : s.ended with
    | true =>
      cases s <;> try contradiction
      case clientStarted =>
        simp only [proceed, (isShuttingDown_iff hc).2 hdown, if_true]
        exact hdown
      case clientThrew => exact lifecycle_stop
      case done => exact hdown
    | false =>
      rcases (hd.proceed options o (hquiet s (List.mem_of_getElem? hi)) hended).1 with h | ⟨v2, h⟩
      · rw [h]
        exact hdown
      · rw [h]
        exact hdown

/-- A body that creates nothing any more never creates anything again. -/
theorem Inert.step (hc : c.Inv) {e : Event} (hcall : e.IsCall) (horderly : c.Orderly e) {i : ℕ}
    (hlt : i < c.bodies.length) (hinert : c.Inert i) :
    (c.step options e).Inert i ∧ i < (c.step options e).bodies.length := by
  have hnext : (c.step options e).Inv := hc.step hcall horderly
  cases e with
  | start =>
    simp only [Connection.step] at hnext ⊢
    cases haccepted : (c.lifecycle.transition .starting).2 with
    | false =>
      rw [start_refused haccepted]
      exact ⟨hinert, hlt⟩
    | true =>
      rw [start_accepted haccepted]
      split
      · refine ⟨fun s hi => .inl ?_, Nat.lt_of_lt_of_le hlt (by simp)⟩
        rw [show _ = (c.bodies ++ [Stage.storage])[i]? from rfl,
          List.getElem?_append_left hlt] at hi
        exact horderly haccepted s (List.mem_of_getElem? hi)
      · exact ⟨fun s hi => .inl (horderly haccepted s (List.mem_of_getElem? hi)), hlt⟩
  | stop => exact ⟨hnext.inert lifecycle_stop i, by rw [Connection.step, bodies_stop]; exact hlt⟩
  | resume j o =>
    simp only [Connection.step] at hnext ⊢
    have hlength : (c.resume options j o).bodies.length = c.bodies.length := by
      rw [Connection.resume]
      split
      · rfl
      · exact List.length_set
    refine ⟨?_, by rwa [hlength]⟩
    by_cases hdown : c.lifecycle = .stopped
    · exact hnext.inert (lifecycle_resume hc hdown j o) i
    · by_cases hji : j = i
      · rw [hji]
        exact (hinert.resume options o).2
      · intro s hs
        have hsame : (c.resume options j o).bodies[i]? = c.bodies[i]? := by
          rw [Connection.resume]
          split
          · rfl
          · exact List.getElem?_set_ne hji
        rcases hinert s (hsame ▸ hs) with hended | ⟨hd, -⟩
        · exact .inl hended
        · exact absurd hd.lifecycle hdown
  | socketError => exact hcall.elim
  | recoveryTimer attempt => exact hcall.elim
  | helloSent k helloAcknowledged => exact hcall.elim
  | helloRetry v2 helloAcknowledged => exact hcall.elim
  | keepalive idle => exact hcall.elim
  | subscriptionError => exact hcall.elim
  | subscriptionRetry throws => exact hcall.elim

/-! ## Start and stop -/

/-- The body with the given number is suspended. -/
def Suspended (c : Connection) (i : ℕ) : Prop := ∃ s, c.bodies[i]? = some s ∧ s ≠ .done

/-- One body, one socket and one pipeline at a time, and every timer once. -/
structure Exclusive (options : ConnectionOptions) (c : Connection) : Prop where
  one_body : ∀ i j, c.CanAllocate options i → c.CanAllocate options j → i = j
  one_socket : c.socketUdp.live ≤ 1
  one_pipeline : ∀ (v w : ℕ) (p q : Pipeline), c.pipelines[v]? = some p →
    c.pipelines[w]? = some q → p.Live → q.Live → v = w
  timers : ∀ h ∈ c.singleHandles ++ c.pipelines.flatMap Pipeline.handles, h.live ≤ 1

theorem CanAllocate.exists_body {i : ℕ} (hi : c.CanAllocate options i) :
    ∃ s, c.bodies[i]? = some s ∧ s.ended = false := by
  by_contra h
  push Not at h
  refine Inert.not_canAllocate options (fun s hs => .inl ?_) hi
  have := h s hs
  simpa using this

theorem Inv.exclusive (hc : c.Inv) : c.Exclusive options where
  one_body i j hi hj := by
    by_cases hdown : c.lifecycle = .stopped
    · exact absurd hi ((hc.inert hdown i).not_canAllocate options)
    · obtain ⟨s, hs, hs'⟩ := hi.exists_body
      obtain ⟨t, ht, ht'⟩ := hj.exists_body
      exact hc.alone hdown i j s t hs ht hs' ht'
  one_socket := by
    obtain ⟨-, -, hsocket, -⟩ := forall_singleHandles.1 hc.sound.single
    exact hsocket.live_le
  one_pipeline v w p q hp hq hlive hlive' := by
    have hcurrent : ∀ (v : ℕ) (p : Pipeline), c.pipelines[v]? = some p → p.Live →
        c.pipeline = some v := by
      intro v p hp hlive
      by_contra hne
      exact Pipeline.not_live (hc.sound.pipelines p (List.mem_of_getElem? hp))
        (hc.sound.idle v p hp hne) hlive
    exact Option.some.inj ((hcurrent v p hp hlive).symm.trans (hcurrent w q hq hlive'))
  timers h hh := by
    rcases List.mem_append.1 hh with hh | hh
    · exact (hc.sound.single h hh).live_le
    · obtain ⟨p, hp, hh⟩ := List.mem_flatMap.1 hh
      exact ((hc.sound.pipelines p hp).single h hh).live_le

/-- **Start and stop.** Where a `start()` never finds a body that may still create something, and a
`stop()` never finds one in `sendHello`, then at any time at most one body can create anything and
at most one socket and one pipeline are live; a body that was suspended when `stop()` was called
creates nothing when it goes on; and after a last `stop()` and all continuations nothing is live. -/
theorem start_stop_safe (options : ConnectionOptions) {events : List Event}
    (hcalls : ∀ e ∈ events, e.IsCall)
    (horderly : Along (Connection.step options) Orderly new events) :
    Exclusive options (run (Connection.step options) new events) ∧
      (∀ prior later i o, events = prior ++ .stop :: later →
        (run (Connection.step options) new prior).Suspended i →
        (run (Connection.step options) new (events ++ [.resume i o])).allocated =
          (run (Connection.step options) new events).allocated) ∧
      ∀ prior later, events = prior ++ .stop :: later → .start ∉ later →
        (∀ s ∈ (run (Connection.step options) new events).bodies, s = .done) →
        ∀ h ∈ (run (Connection.step options) new events).handles, h.live = 0 := by
  have hstep : ∀ c e, Inv c → c.Orderly e ∧ e.IsCall → (c.step options e).Inv :=
    fun c e hc he => hc.step he.2 he.1
  have hinv := Along.invariant hstep inv_new (horderly.and_mem hcalls)
  refine ⟨hinv.exclusive, ?_, ?_⟩
  · rintro prior later i o rfl ⟨s, hs, -⟩
    obtain ⟨hprior, hlater⟩ := along_append.1 (horderly.and_mem hcalls)
    have hbefore := Along.invariant hstep inv_new hprior
    have hstop := hbefore.stop hlater.1.1
    -- From the `stop()` on, the body creates nothing.
    have hlt : i < (run (Connection.step options) new prior).stop.bodies.length := by
      rw [bodies_stop]
      exact (List.getElem?_eq_some_iff.1 hs).1
    have hinert := (Along.invariant (I := fun c : Connection => c.Inv ∧ c.Inert i ∧
        i < c.bodies.length) (fun c e hc he => ⟨hc.1.step he.2 he.1,
          hc.2.1.step hc.1 he.2 he.1 hc.2.2⟩)
      ⟨hstop, hstop.inert lifecycle_stop i, hlt⟩ hlater.2).2.1
    rw [run_append, run_append, run_cons]
    exact (hinert.resume options o).1
  · rintro prior later rfl hstart -
    obtain ⟨hprior, hlater⟩ := along_append.1 (horderly.and_mem hcalls)
    have hstop := (Along.invariant hstep inv_new hprior).stop hlater.1.1
    have hdown := (Along.invariant (I := fun c : Connection => c.Inv ∧ c.lifecycle = .stopped)
      (fun c e hc he => by
        refine ⟨hc.1.step he.1.2 he.1.1, ?_⟩
        cases e with
        | start => exact absurd rfl he.2
        | stop => exact lifecycle_stop
        | resume i o => exact lifecycle_resume hc.1 hc.2 i o
        | socketError => exact he.1.2.elim
        | recoveryTimer attempt => exact he.1.2.elim
        | helloSent k helloAcknowledged => exact he.1.2.elim
        | helloRetry v2 helloAcknowledged => exact he.1.2.elim
        | keepalive idle => exact he.1.2.elim
        | subscriptionError => exact he.1.2.elim
        | subscriptionRetry throws => exact he.1.2.elim)
      ⟨hstop, lifecycle_stop⟩ (hlater.2.and_mem fun e he => show e ≠ .start from
        fun h => hstart (h ▸ he))).2
    rw [run_append, run_cons] at hinv ⊢
    exact hinv.sound.live_eq_zero (hinv.down hdown).1.idle

/-- A reliable client without bonding. -/
def reliableOptions : ConnectionOptions := ⟨true, 4446, 3, true, none⟩

/-- `n` continuations of the body with the given number. -/
def goOn (i n : ℕ) : List Event := List.replicate n (.resume i .ordinary)

/-- A start that is seen through, a stop, and another start that is stopped at its second await. -/
theorem start_stop_safe_restart :
    (run (Connection.step reliableOptions) new ((.start :: goOn 0 9) ++
      .stop :: (.start :: goOn 1 1) ++ .stop :: goOn 1 2)).handles.all fun h => h.live = 0 :=
  List.all_eq_true.2 fun h hh => decide_eq_true
    ((start_stop_safe reliableOptions (by simp [goOn, Event.IsCall]) (by decide +kernel)).2.2
      ((.start :: goOn 0 9) ++ .stop :: (.start :: goOn 1 1)) (goOn 1 2) rfl (by simp [goOn])
      (by decide +kernel) h hh)

/-- A `start()` whose body is suspended when `stop()` and a second `start()` are called goes on to
create a second socket and a second pipeline. After a last `stop()` and all continuations, one
socket and one pipeline are still live. -/
theorem superseded_start_leaks :
    let c := run (Connection.step reliableOptions) new
      (.start :: .stop :: .start :: goOn 0 3 ++ goOn 1 3)
    let last := run (Connection.step reliableOptions) c (.stop :: goOn 0 3 ++ goOn 1 3)
    c.socketUdp.live = 2 ∧ (∀ p ∈ c.pipelines, p.metricsInterval.live = 1) ∧
      c.pipelines.length = 2 ∧ (∀ s ∈ last.bodies, s = .done) ∧ last.socketUdp.live = 1 ∧
      ∃ p ∈ last.pipelines, p.metricsInterval.live = 1 := by
  decide +kernel

/-- A `stop()` that lands in the HELLO of the only `start()`: the body goes on to arm the interval
of the source snapshots. -/
theorem stop_during_hello_leaks :
    let c := run (Connection.step reliableOptions) new (.start :: goOn 0 4 ++ .stop :: goOn 0 4)
    (∀ s ∈ c.bodies, s = .done) ∧ c.sourceSnapshotTimer.live = 1 := by
  decide +kernel

end Connection

end EdgeLink
