import EdgeLink.App.ConnectionManager
import EdgeLink.App.InstanceRoutes
import EdgeLink.Codec.JsText
import EdgeLink.Foundations.Alarm

/-!
# Alerts

`domain/monitoring/alert-manager.ts` and `POST /monitoring/alerts` of `routes/monitoring.ts`: the
figures of a link are compared with thresholds, which can be changed while the link runs, and what
exceeds them is notified under a path of the metric.

* `AlertManager.notifications_run`: what is notified of a metric is an alarm on its own readings.
* `AlertManager.thresholds_run`: the thresholds of an accepted configuration stay in order.
-/

namespace EdgeLink

def MONITORING_ALERT_COOLDOWN : ℕ := 60000

structure Threshold where
  warning : Option JsNumber := none
  critical : Option JsNumber := none
  deriving DecidableEq

inductive AlertLevel where
  | warning
  | critical
  deriving DecidableEq

structure Alert where
  metric : String
  level : AlertLevel
  value : JsNumber
  threshold : JsNumber
  timestamp : ℤ

/-- A notification and its time. -/
structure Notification where
  time : ℤ
  path : String
  state : String
  message : String
  method : List String
  deriving DecidableEq

structure AlertManager where
  instanceId : String
  thresholds : OrderedMap String Threshold
  cooldown : JsNumber
  perMetricCooldown : OrderedMap String JsNumber
  notificationsEnabled : Bool
  activeAlerts : OrderedMap String Alert
  lastAlertTime : OrderedMap String ℤ

/-- The options of the constructor. -/
structure AlertConfig where
  thresholds : JsValue
  instanceId : String
  enabled : Bool
  cooldown : Option JsNumber := none
  cooldowns : List (String × JsNumber) := []

/-- The numbers of a threshold object. -/
def thresholdOf (v : JsValue) : Threshold where
  warning := match v.get "warning" with
    | .num n => some n
    | _ => none
  critical := match v.get "critical" with
    | .num n => some n
    | _ => none

/-- The metrics with the thresholds that they have by default. -/
def defaultThresholds : List (String × Threshold) :=
  [("rtt", ⟨some (.finite 300), some (.finite 800)⟩),
    ("packetLoss",
      ⟨some (.finite (roundFinite (3 / 100))), some (.finite (roundFinite (1 / 10)))⟩),
    ("retransmitRate",
      ⟨some (.finite (roundFinite (5 / 100))), some (.finite (roundFinite (15 / 100)))⟩),
    ("jitter", ⟨some (.finite 100), some (.finite 300)⟩),
    ("queueDepth", ⟨some (.finite 100), some (.finite 500)⟩)]

def resolveThresholds (thresholds : JsValue) : OrderedMap String Threshold where
  entries := defaultThresholds.map fun e =>
    (e.1, if truthy (thresholds.get e.1) then thresholdOf (thresholds.get e.1) else e.2)
  nodup := by
    have hdefault : (defaultThresholds.map Prod.fst).Nodup := by decide
    rwa [List.map_map]

def resolvePerMetricCooldown (cooldowns : List (String × JsNumber)) : OrderedMap String JsNumber :=
  cooldowns.foldl (fun perMetricCooldown e =>
    if JsNumber.lt (.finite 0) e.2 then perMetricCooldown.set e.1 e.2 else perMetricCooldown) .empty

/-- `value >= threshold` -/
def atLeast (value threshold : JsNumber) : Bool :=
  value ≠ .nan ∧ threshold ≠ .nan ∧ value.lt threshold = false

/-- The level of a value. -/
def Threshold.level (threshold : Threshold) (value : JsNumber) : Option AlertLevel :=
  if threshold.critical.any (atLeast value) then some .critical
  else if threshold.warning.any (atLeast value) then some .warning
  else none

/-- The bound of a level. -/
def Threshold.bound (threshold : Threshold) : AlertLevel → JsNumber
  | .warning => threshold.warning.getD (.finite 0)
  | .critical => threshold.critical.getD (.finite 0)

def AlertLevel.text : AlertLevel → String
  | .warning => "warning"
  | .critical => "critical"

/-- The state of a notification. -/
def notificationState : Option AlertLevel → String
  | none => "normal"
  | some .warning => "warn"
  | some .critical => "alert"

namespace AlertManager

def new (config : AlertConfig) : AlertManager where
  instanceId := config.instanceId
  thresholds := resolveThresholds config.thresholds
  cooldown := config.cooldown.getD (.finite MONITORING_ALERT_COOLDOWN)
  perMetricCooldown := resolvePerMetricCooldown config.cooldowns
  notificationsEnabled := config.enabled
  activeAlerts := .empty
  lastAlertTime := .empty

/-- Where the notifications of an instance are. -/
def namespacePath (instanceId : String) : String :=
  "notifications.signalk-edge-link." ++ if instanceId ≠ "" then instanceId ++ "." else ""

def notificationPath (m : AlertManager) (metric : String) : String :=
  namespacePath m.instanceId ++ metric

def emitNotification (m : AlertManager) (notification : Notification) : List Notification :=
  if m.notificationsEnabled then [notification] else []

/-- How numbers are written is a parameter. -/
def emitAlert (numberToString : ℚ → String) (m : AlertManager) (alert : Alert) :
    List Notification :=
  m.emitNotification
    { time := alert.timestamp
      path := m.notificationPath alert.metric
      state := notificationState (some alert.level)
      message := alert.metric ++ ": " ++ JsValue.numberText numberToString alert.value ++
        " exceeds " ++ alert.level.text ++ " threshold (" ++
        JsValue.numberText numberToString alert.threshold ++ ")"
      method := ["visual"] }

def emitClear (m : AlertManager) (metric : String) (now : ℤ) : List Notification :=
  m.emitNotification
    { time := now
      path := m.notificationPath metric
      state := notificationState none
      message := metric ++ ": returned to normal"
      method := [] }

/-- Whether the pause after an alert is over. -/
def cooldownExpired (m : AlertManager) (metric : String) (lastTime : Option ℤ) (now : ℤ) : Bool :=
  atLeast (.finite (now - lastTime.getD 0 : ℤ))
    ((m.perMetricCooldown.get? metric).getD m.cooldown)

/-- A check, what it returns and what it notifies. -/
def check (numberToString : ℚ → String) (m : AlertManager) (metric : String) (value : JsNumber)
    (now : ℤ) : AlertManager × Option Alert × List Notification :=
  match m.thresholds.get? metric with
  | none => (m, none, [])
  | some threshold =>
    let currentAlert := m.activeAlerts.get? metric
    match threshold.level value with
    | some level =>
      if currentAlert.map (·.level) ≠ some level ∨
          m.cooldownExpired metric (m.lastAlertTime.get? metric) now = true then
        let alert : Alert := ⟨metric, level, value, threshold.bound level, now⟩
        ({ m with
          activeAlerts := m.activeAlerts.set metric alert
          lastAlertTime := m.lastAlertTime.set metric now },
          some alert, m.emitAlert numberToString alert)
      else (m, none, [])
    | none =>
      if currentAlert.isSome then
        ({ m with activeAlerts := m.activeAlerts.delete metric }, none, m.emitClear metric now)
      else (m, none, [])

/-- The checks of several metrics, at one reading of the clock. -/
def checkAll (numberToString : ℚ → String) (now : ℤ) (m : AlertManager) :
    List (String × Option JsNumber) → AlertManager × List Alert × List Notification
  | [] => (m, [], [])
  | (_, none) :: metrics => checkAll numberToString now m metrics
  | (name, some value) :: metrics =>
    if (m.thresholds.get? name).isSome then
      let (m, alert, notifications) := m.check numberToString name value now
      let (m, alerts, rest) := checkAll numberToString now m metrics
      (m, alert.toList ++ alerts, notifications ++ rest)
    else checkAll numberToString now m metrics

def setThreshold (m : AlertManager) (metric : String) (thresholds : Threshold) : AlertManager :=
  let threshold := (m.thresholds.get? metric).getD {}
  { m with
    thresholds := m.thresholds.set metric
      { warning := thresholds.warning <|> threshold.warning
        critical := thresholds.critical <|> threshold.critical } }

def reset (m : AlertManager) : AlertManager :=
  { m with activeAlerts := .empty, lastAlertTime := .empty }

/-! ### The request -/

def ALERT_METRIC_ALLOWLIST : List String :=
  ["rtt", "packetLoss", "retransmitRate", "jitter", "queueDepth"]

/-- A number of the body: absent, refused or taken over. -/
def finiteField (body : JsValue) (name : String) : Except String (Option JsNumber) :=
  match body.get name with
  | .undefined => .ok none
  | .num (.finite q) => .ok (some (.finite q))
  | _ => .error (name ++ " must be a finite number")

/-- What a body asks to change, or why it is refused. -/
def requestedThreshold (m : AlertManager) (body : JsValue) : Except String (String × Threshold) :=
  match body.get "metric" with
  | .str metric =>
    if metric = "" then .error "metric is required"
    else if metric ∉ ALERT_METRIC_ALLOWLIST then
      .error ("metric must be one of: " ++ ", ".intercalate ALERT_METRIC_ALLOWLIST)
    else
      match finiteField body "warning", finiteField body "critical" with
      | .error error, _ => .error error
      | _, .error error => .error error
      | .ok warning, .ok critical =>
        if warning = none ∧ critical = none then
          .error "At least one of warning or critical is required"
        else
          let existingThreshold := (m.thresholds.get? metric).getD {}
          match warning <|> existingThreshold.warning, critical <|> existingThreshold.critical with
          | some effectiveWarning, some effectiveCritical =>
            if effectiveCritical.lt effectiveWarning then
              .error "warning must be less than or equal to critical"
            else .ok (metric, ⟨warning, critical⟩)
          | _, _ => .ok (metric, ⟨warning, critical⟩)
  | _ => .error "metric is required"

/-- `POST /monitoring/alerts` with a manager at hand: the manager after it, and the error or the
thresholds that it answers with. -/
def postAlerts (m : AlertManager) (body : JsValue) :
    AlertManager × Except String (OrderedMap String Threshold) :=
  match m.requestedThreshold body with
  | .error error => (m, .error error)
  | .ok (metric, update) =>
    let m := m.setThreshold metric update
    (m, .ok m.thresholds)

/-! ### Runs -/

/-- What a running link does with its alerts. -/
inductive Event where
  | checkAll (now : ℤ) (metrics : List (String × Option JsNumber))
  | postAlerts (body : JsValue)

section Run

variable (numberToString : ℚ → String)

def step (m : AlertManager) : Event → AlertManager
  | .checkAll now metrics => (m.checkAll numberToString now metrics).1
  | .postAlerts body => (m.postAlerts body).1

/-- What an event notifies. -/
def notifications (m : AlertManager) : Event → List Notification
  | .checkAll now metrics => (m.checkAll numberToString now metrics).2.2
  | .postAlerts _ => []

/-- The levels at which an event finds a metric. -/
def readings (metric : String) (m : AlertManager) : Event → List (ℤ × Option AlertLevel)
  | .checkAll now metrics => metrics.filterMap fun e =>
    if e.1 = metric then
      e.2.bind fun value => (m.thresholds.get? metric).map fun t => (now, t.level value)
    else none
  | .postAlerts _ => []

end Run

/-- A metric of a manager as an alarm. -/
def alarmOf (m : AlertManager) (metric : String) : Alarm AlertLevel ℤ :=
  ⟨(m.activeAlerts.get? metric).map (·.level), m.lastAlertTime.get? metric⟩

/-- The times and states that are notified under the path of a metric. -/
def notified (m : AlertManager) (metric : String) (notifications : List Notification) :
    List (ℤ × String) :=
  (notifications.filter (·.path = m.notificationPath metric)).map fun n => (n.time, n.state)

/-- Two managers that notify in the same way. -/
structure SameWay (m m' : AlertManager) : Prop where
  instanceId : m'.instanceId = m.instanceId
  cooldown : m'.cooldown = m.cooldown
  perMetricCooldown : m'.perMetricCooldown = m.perMetricCooldown
  enabled : m'.notificationsEnabled = m.notificationsEnabled

theorem SameWay.refl (m : AlertManager) : SameWay m m := ⟨rfl, rfl, rfl, rfl⟩

theorem SameWay.trans {m m' m'' : AlertManager} (h : SameWay m m') (h' : SameWay m' m'') :
    SameWay m m'' :=
  ⟨h'.instanceId.trans h.instanceId, h'.cooldown.trans h.cooldown,
    h'.perMetricCooldown.trans h.perMetricCooldown, h'.enabled.trans h.enabled⟩

theorem SameWay.notificationPath {m m' : AlertManager} (h : SameWay m m') :
    m'.notificationPath = m.notificationPath := by
  funext metric
  rw [AlertManager.notificationPath, AlertManager.notificationPath, h.instanceId]

theorem SameWay.notified {m m' : AlertManager} (h : SameWay m m') :
    m'.notified = m.notified := by
  funext metric notifications
  rw [AlertManager.notified, AlertManager.notified, h.notificationPath]

theorem SameWay.cooldownExpired {m m' : AlertManager} (h : SameWay m m') :
    m'.cooldownExpired = m.cooldownExpired := by
  funext metric lastTime now
  rw [AlertManager.cooldownExpired, AlertManager.cooldownExpired, h.perMetricCooldown, h.cooldown]

theorem notificationPath_inj {m : AlertManager} {metric metric' : String} :
    m.notificationPath metric = m.notificationPath metric' ↔ metric = metric' := by
  rw [notificationPath, notificationPath, String.append_right_inj]

/-- What has been done by part of a run, seen as an alarm on a metric. -/
structure Watches (m : AlertManager) (metric : String) (rs : List (ℤ × Option AlertLevel))
    (m' : AlertManager) (ns : List Notification) : Prop where
  same : SameWay m m'
  alarm : m'.alarmOf metric = run (Alarm.step (m.cooldownExpired metric)) (m.alarmOf metric) rs
  shown : m.notified metric ns =
    if m.notificationsEnabled then
      (trace (Alarm.step (m.cooldownExpired metric)) (Alarm.shown (m.cooldownExpired metric))
        (m.alarmOf metric) rs).map fun r => (r.1, notificationState r.2)
    else []

theorem Watches.refl (m : AlertManager) (metric : String) : Watches m metric [] m [] := by
  refine ⟨SameWay.refl m, rfl, ?_⟩
  cases m.notificationsEnabled <;> rfl

theorem Watches.trans {m m' m'' : AlertManager} {metric : String}
    {rs rs' : List (ℤ × Option AlertLevel)} {ns ns' : List Notification}
    (h : Watches m metric rs m' ns) (h' : Watches m' metric rs' m'' ns') :
    Watches m metric (rs ++ rs') m'' (ns ++ ns') := by
  have hsame := h.same
  have halarm := h'.alarm
  have hshown := h'.shown
  rw [hsame.cooldownExpired, h.alarm] at halarm hshown
  rw [hsame.notified, hsame.enabled] at hshown
  refine ⟨hsame.trans h'.same, ?_, ?_⟩
  · rw [run_append, halarm]
  · have happend : m.notified metric (ns ++ ns') =
        m.notified metric ns ++ m.notified metric ns' := by
      simp [AlertManager.notified]
    rw [happend, h.shown, hshown, trace_append]
    split_ifs <;> simp

section Check

variable (numberToString : ℚ → String) {m : AlertManager} {name : String} {t : Threshold}

/-- What a check does to the metric that is checked. -/
theorem check_cases (h : m.thresholds.get? name = some t) (value : JsNumber) (now : ℤ) :
    (¬ Alarm.Shows (m.cooldownExpired name) (m.alarmOf name) (now, t.level value) ∧
      m.check numberToString name value now = (m, none, [])) ∨
    (Alarm.Shows (m.cooldownExpired name) (m.alarmOf name) (now, t.level value) ∧
      ∃ alert : Alert, t.level value = some alert.level ∧ alert.metric = name ∧
        alert.timestamp = now ∧ m.check numberToString name value now =
          ({ m with
            activeAlerts := m.activeAlerts.set name alert
            lastAlertTime := m.lastAlertTime.set name now }, some alert,
            m.emitAlert numberToString alert)) ∨
    (Alarm.Shows (m.cooldownExpired name) (m.alarmOf name) (now, t.level value) ∧
      t.level value = none ∧ m.check numberToString name value now =
        ({ m with activeAlerts := m.activeAlerts.delete name }, none, m.emitClear name now)) := by
  rw [check, h]
  dsimp only
  cases hlevel : t.level value with
  | some level =>
    dsimp only
    split_ifs with hshows
    · refine Or.inr (Or.inl ⟨?_, ⟨name, level, value, t.bound level, now⟩, rfl, rfl, rfl, rfl⟩)
      rcases hshows with hne | hpause
      · exact Or.inl (Ne.symm hne)
      · exact Or.inr ⟨Option.some_ne_none level, hpause⟩
    · refine Or.inl ⟨?_, rfl⟩
      rintro (hne | ⟨-, hpause⟩)
      · exact hshows (Or.inl (Ne.symm hne))
      · exact hshows (Or.inr hpause)
  | none =>
    dsimp only
    split_ifs with hactive
    · refine Or.inr (Or.inr ⟨Or.inl ?_, rfl, rfl⟩)
      obtain ⟨alert, halert⟩ := Option.isSome_iff_exists.1 hactive
      simp [alarmOf, halert]
    · refine Or.inl ⟨?_, rfl⟩
      have hnone := Option.not_isSome_iff_eq_none.1 hactive
      rintro (hne | ⟨hne, -⟩)
      · exact hne (by rw [alarmOf, hnone]; rfl)
      · exact hne rfl

/-- A notification is seen under its own metric only. -/
theorem notified_emit (metric : String) {n : Notification}
    (hpath : n.path = m.notificationPath name) : m.notified metric (m.emitNotification n) =
      if m.notificationsEnabled then
        (if name = metric then [(n.time, n.state)] else [])
      else [] := by
  rw [emitNotification]
  cases m.notificationsEnabled with
  | false => rfl
  | true => by_cases hname : name = metric <;> simp [notified, hpath, notificationPath_inj, hname]

/-- A check is a reading of its own metric and leaves the others alone. -/
theorem check_watches (metric : String) (h : m.thresholds.get? name = some t) (value : JsNumber)
    (now : ℤ) :
    Watches m metric (if name = metric then [(now, t.level value)] else [])
        (m.check numberToString name value now).1 (m.check numberToString name value now).2.2 ∧
      (m.check numberToString name value now).1.thresholds = m.thresholds := by
  rcases check_cases numberToString h value now with
    ⟨hshows, hcheck⟩ | ⟨hshows, alert, hlevel, hmetric, htime, hcheck⟩ |
      ⟨hshows, hlevel, hcheck⟩ <;> rw [hcheck]
  · refine ⟨?_, rfl⟩
    split_ifs with hname
    · subst hname
      refine ⟨SameWay.refl m, ?_, ?_⟩
      · rw [run_cons, run_nil, Alarm.step, if_neg hshows]
      · rw [trace_cons, Alarm.shown, if_neg hshows]
        cases m.notificationsEnabled <;> rfl
    · exact Watches.refl m metric
  · refine ⟨⟨⟨rfl, rfl, rfl, rfl⟩, ?_, ?_⟩, rfl⟩
    · split_ifs with hname
      · subst hname
        rw [run_cons, run_nil, Alarm.step, if_pos hshows, hlevel]
        simp [alarmOf]
      · simp [alarmOf, OrderedMap.get?_set_of_ne _ (Ne.symm hname)]
    · dsimp only
      rw [emitAlert, notified_emit _ (congrArg m.notificationPath hmetric)]
      dsimp only
      rw [htime, ← hlevel]
      split_ifs with henabled hname
      · subst hname
        rw [trace_cons, Alarm.shown, if_pos hshows]
        rfl
      · rfl
      · rfl
  · refine ⟨⟨⟨rfl, rfl, rfl, rfl⟩, ?_, ?_⟩, rfl⟩
    · split_ifs with hname
      · subst hname
        rw [run_cons, run_nil, Alarm.step, if_pos hshows, hlevel]
        simp [alarmOf]
      · simp [alarmOf, OrderedMap.get?_delete, Ne.symm hname]
    · dsimp only
      rw [emitClear, notified_emit _ rfl]
      dsimp only
      rw [← hlevel]
      split_ifs with henabled hname
      · subst hname
        rw [trace_cons, Alarm.shown, if_pos hshows]
        rfl
      · rfl
      · rfl

/-- The checks of several metrics are a reading of each of them. -/
theorem checkAll_watches (metric : String) (metrics : List (String × Option JsNumber)) (now : ℤ)
    (m : AlertManager) :
    Watches m metric (readings metric m (.checkAll now metrics))
        (m.checkAll numberToString now metrics).1 (m.checkAll numberToString now metrics).2.2 ∧
      (m.checkAll numberToString now metrics).1.thresholds = m.thresholds := by
  induction metrics generalizing m with
  | nil => exact ⟨Watches.refl m metric, rfl⟩
  | cons e metrics ih =>
    obtain ⟨name, value⟩ := e
    cases value with
    | none =>
      rw [checkAll]
      have hreadings : readings metric m (.checkAll now ((name, none) :: metrics)) =
          readings metric m (.checkAll now metrics) := by
        simp [readings]
      rw [hreadings]
      exact ih m
    | some value =>
      rw [checkAll]
      cases ht : m.thresholds.get? name with
      | none =>
        have hreadings : readings metric m (.checkAll now ((name, some value) :: metrics)) =
            readings metric m (.checkAll now metrics) := by
          by_cases hname : name = metric
          · subst hname
            simp [readings, ht]
          · simp [readings, hname]
        have hnone : ¬ (none : Option Threshold).isSome = true := by simp
        rw [hreadings, if_neg hnone]
        exact ih m
      | some t =>
        obtain ⟨hone, hthresholds⟩ := check_watches numberToString metric ht value now
        obtain ⟨hrest, hthresholds'⟩ := ih (m.check numberToString name value now).1
        have hreadings : readings metric m (.checkAll now ((name, some value) :: metrics)) =
            (if name = metric then [(now, t.level value)] else []) ++ readings metric
              (m.check numberToString name value now).1 (.checkAll now metrics) := by
          rw [readings, readings, hthresholds]
          by_cases hname : name = metric
          · subst hname
            simp [ht]
          · simp [hname]
        have hsome : (some t).isSome = true := rfl
        rw [hreadings, if_pos hsome]
        exact ⟨hone.trans hrest, hthresholds'.trans hthresholds⟩

/-- A request changes thresholds and nothing else. -/
theorem postAlerts_cases (m : AlertManager) (body : JsValue) :
    (∃ error, m.requestedThreshold body = .error error ∧ m.postAlerts body = (m, .error error)) ∨
      ∃ metric update, m.requestedThreshold body = .ok (metric, update) ∧
        (m.postAlerts body).1 = m.setThreshold metric update := by
  rw [postAlerts]
  cases m.requestedThreshold body with
  | error error => exact Or.inl ⟨error, rfl, rfl⟩
  | ok requested => exact Or.inr ⟨requested.1, requested.2, rfl, rfl⟩

/-- What a run notifies of a metric is what an alarm shows of its readings. -/
theorem run_watches (metric : String) (m : AlertManager) (events : List Event) :
    Watches m metric (trace (step numberToString) (readings metric) m events)
      (run (step numberToString) m events)
      (trace (step numberToString) (notifications numberToString) m events) := by
  induction events generalizing m with
  | nil => exact Watches.refl m metric
  | cons e events ih =>
    rw [trace_cons, trace_cons, run_cons]
    refine Watches.trans ?_ (ih _)
    cases e with
    | checkAll now metrics => exact (checkAll_watches numberToString metric metrics now m).1
    | postAlerts body =>
      have halone : Watches m metric [] (m.postAlerts body).1 [] := by
        rcases postAlerts_cases m body with ⟨error, -, hpost⟩ | ⟨name, update, -, hpost⟩ <;>
          rw [hpost]
        · exact Watches.refl m metric
        · exact ⟨⟨rfl, rfl, rfl, rfl⟩, rfl, (Watches.refl m metric).shown⟩
      exact halone

end Check

theorem notificationState_inj {level level' : Option AlertLevel} :
    notificationState level = notificationState level' ↔ level = level' := by
  rcases level with _ | _ | _ <;> rcases level' with _ | _ | _ <;> decide

theorem notificationState_eq_normal {level : Option AlertLevel} :
    notificationState level = "normal" ↔ level = none :=
  @notificationState_inj level none

/-- **Alerts.** From its creation or a reset on, a manager has each metric at the level of its last
check. With notifications, the last one under the path of the metric says so too, the first one is
not that all is well, and of two in a row the second one tells another state or repeats the level
after the pause. Each of them is that of a check, at the time of the check. -/
theorem notifications_run (numberToString : ℚ → String) (m : AlertManager) (events : List Event)
    (metric : String) :
    let found := trace (step numberToString) (readings metric) m.reset events
    let notified := m.notified metric
      (trace (step numberToString) (notifications numberToString) m.reset events)
    ((run (step numberToString) m.reset events).activeAlerts.get? metric).map (·.level) =
        found.getLast?.bind (·.2) ∧
      (m.notificationsEnabled = false → notified = []) ∧
      (m.notificationsEnabled = true →
        (notified.getLast?.map (·.2)).getD "normal" =
          notificationState (found.getLast?.bind (·.2)) ∧
        (∀ n ∈ notified.head?, n.2 ≠ "normal") ∧
        notified.IsChain (fun n n' => n'.2 ≠ n.2 ∨
          (n'.2 ≠ "normal" ∧ m.cooldownExpired metric (some n.1) n'.1 = true)) ∧
        notified.Sublist (found.map fun r => (r.1, notificationState r.2))) := by
  have hsame : SameWay m m.reset := ⟨rfl, rfl, rfl, rfl⟩
  obtain ⟨-, halarm, hshown⟩ := run_watches numberToString metric m.reset events
  have hsilent : m.reset.alarmOf metric = Alarm.silent := rfl
  rw [hsame.cooldownExpired, hsilent] at halarm hshown
  rw [hsame.notified, hsame.enabled] at hshown
  dsimp only
  generalize trace (step numberToString) (readings metric) m.reset events = found at halarm hshown ⊢
  have hinv : Alarm.Inv (m.cooldownExpired metric) found _ _ := Alarm.inv_readings found
  obtain ⟨hactive, hlast, -, hfirst, hfollows, hsublist⟩ := hinv
  rw [hshown]
  refine ⟨?_, fun hdisabled => by rw [hdisabled]; rfl, fun henabled => ?_⟩
  · rw [← hactive, ← halarm]
    rfl
  · rw [if_pos henabled]
    refine ⟨?_, ?_, ?_, hsublist.map _⟩
    · rw [← hactive, hlast, List.getLast?_map]
      cases (trace (Alarm.step (m.cooldownExpired metric)) (Alarm.shown (m.cooldownExpired metric))
        Alarm.silent found).getLast? <;> rfl
    · intro n hn
      rw [List.head?_map] at hn
      obtain ⟨r, hr, rfl⟩ := Option.map_eq_some_iff.1 hn
      exact mt notificationState_eq_normal.1 (hfirst r hr)
    · rw [List.isChain_map]
      refine hfollows.imp fun r r' h => ?_
      dsimp only
      rw [Ne, Ne, notificationState_inj, notificationState_eq_normal]
      exact h

/-! ### Thresholds -/

/-- The manager of a client that starts with its options. -/
def initAlertManager (options : JsValue) (instanceId : String) : AlertManager :=
  new
    { thresholds :=
        if truthy (options.get "alertThresholds") then options.get "alertThresholds" else .obj []
      instanceId := instanceId
      enabled := options.get "enableNotifications" = .bool true }

/-- Finite bounds, the one for a warning no higher than the critical one. -/
structure Sane (t : Threshold) : Prop where
  finite_warning : ∀ n, t.warning = some n → ∃ q, n = .finite q
  finite_critical : ∀ n, t.critical = some n → ∃ q, n = .finite q
  ordered : ∀ w c, t.warning = some w → t.critical = some c → c.lt w = false

/-- Every metric has sane thresholds, and there are no other metrics. -/
def AllSane (m : AlertManager) : Prop :=
  m.thresholds.keys = ALERT_METRIC_ALLOWLIST ∧
    ∀ metric t, m.thresholds.get? metric = some t → Sane t

theorem sane_finite {w c : ℚ} (h : w ≤ c) : Sane ⟨some (.finite w), some (.finite c)⟩ where
  finite_warning := by simp
  finite_critical := by simp
  ordered := by simp [JsNumber.lt, h]

theorem sane_default : ∀ e ∈ defaultThresholds, Sane e.2 := by
  intro e he
  simp only [defaultThresholds, List.mem_cons, List.not_mem_nil, or_false] at he
  rcases he with rfl | rfl | rfl | rfl | rfl <;> exact sane_finite (by decide +kernel)

/-- The number of a property. -/
theorem num_of_match {v : JsValue} {n : JsNumber}
    (h : (match v with | .num n => some n | _ => none) = some n) : v = .num n := by
  cases v with
  | num n' => exact congrArg JsValue.num (Option.some.inj h)
  | _ => cases h

/-- The thresholds that a configuration may give for a metric are sane. -/
theorem sane_thresholdOf {p metric : String} {v : JsValue}
    (h : ConnectionConfig.thresholdError p metric v = none) : Sane (thresholdOf v) := by
  open ConnectionConfig in
  have hfinite : ∀ {key message : String}, optional (v.get key) (fun v =>
      errorIf (isFiniteNumber v = false) message) = none → ∀ n, v.get key = .num n →
      ∃ q, n = .finite q := by
    intro key message h n hn
    rw [optional_eq_none, errorIf_eq_none, hn] at h
    cases n with
    | finite q => exact ⟨q, rfl⟩
    | _ => simp [isFiniteNumber] at h
  rw [ConnectionConfig.thresholdError] at h
  by_cases hmetric : metric ∈ ["rtt", "packetLoss", "retransmitRate", "jitter", "queueDepth"]
  · by_cases hobject : ConnectionConfig.isObject v = false
    · rw [if_neg (not_not.2 hmetric), if_pos hobject] at h
      cases h
    · rw [if_neg (not_not.2 hmetric), if_neg hobject, ConnectionConfig.firstError_eq_none] at h
      simp only [List.forall_mem_append, List.forall_mem_cons] at h
      obtain ⟨⟨⟨hwarning, hcritical, -⟩, -⟩, hboth, -⟩ := h
      refine ⟨fun n hn => hfinite hwarning n (num_of_match hn), fun n hn =>
        hfinite hcritical n (num_of_match hn), fun w c hw hc => ?_⟩
      have hw := num_of_match hw
      have hc := num_of_match hc
      obtain ⟨qw, rfl⟩ := hfinite hwarning w hw
      obtain ⟨qc, rfl⟩ := hfinite hcritical c hc
      rw [hw, hc, ConnectionConfig.optional_eq_none, ConnectionConfig.optional_eq_none,
        ConnectionConfig.errorIf_eq_none] at hboth
      simpa [JsNumber.lt, ConnectionConfig.numberOf] using hboth
  · rw [if_pos hmetric] at h
    cases h

theorem thresholds_resolve {thresholds : JsValue} (h : ∀ metric ∈ ALERT_METRIC_ALLOWLIST,
    truthy (thresholds.get metric) = true → Sane (thresholdOf (thresholds.get metric)))
    {metric : String} {t : Threshold}
    (ht : (resolveThresholds thresholds).get? metric = some t) : Sane t := by
  obtain ⟨e, he, heq⟩ := List.mem_map.1 (OrderedMap.mem_entries.2 ht)
  obtain ⟨rfl, rfl⟩ := Prod.mk.inj heq
  have hmetric : e.1 ∈ ALERT_METRIC_ALLOWLIST := by
    have hkeys : defaultThresholds.map Prod.fst = ALERT_METRIC_ALLOWLIST := rfl
    exact hkeys ▸ List.mem_map_of_mem he
  split_ifs with hgiven
  · exact h e.1 hmetric hgiven
  · exact sane_default e he

/-- A client starts with sane thresholds. -/
theorem allSane_init {platform : ConfigPlatform} {options : JsValue} {p : String}
    (h : validateConnectionConfig platform options p = none) (instanceId : String) :
    (initAlertManager options instanceId).AllSane := by
  have herror : ConnectionConfig.optional (options.get "alertThresholds")
      (ConnectionConfig.alertThresholdsError p) = none :=
    ConnectionConfig.error_eq_none_of_valid h (by simp [ConnectionConfig.connectionErrors])
  refine ⟨rfl, fun metric t ht => ?_⟩
  refine thresholds_resolve (fun metric _ hgiven => ?_) ht
  -- a threshold that is given is one of the configuration, which has passed its check
  split_ifs at hgiven ⊢ with hthresholds
  · rw [ConnectionConfig.optional_eq_none, ConnectionConfig.alertThresholdsError] at herror
    rcases herror with hundefined | herror
    · rw [hundefined] at hthresholds
      cases hthresholds
    · cases hobject : options.get "alertThresholds" with
      | obj fields =>
        rw [hobject] at herror hgiven
        have hisObject : ConnectionConfig.isObject (.obj fields) = true := rfl
        rw [if_pos hisObject, ConnectionConfig.firstError_eq_none, List.forall_mem_map] at herror
        dsimp only at hgiven ⊢
        cases hfield : fields.lookup metric with
        | none => simp [JsValue.get, hfield, truthy] at hgiven
        | some v =>
          have hget : (JsValue.obj fields).get metric = v := by simp [JsValue.get, hfield]
          rw [hget]
          exact sane_thresholdOf (herror (metric, v) (mem_of_lookup hfield))
      | _ => simp [hobject, ConnectionConfig.isObject] at herror
  · simp [JsValue.get, truthy] at hgiven

theorem finiteField_ok {body : JsValue} {name : String} {n : Option JsNumber}
    (h : finiteField body name = .ok n) : ∀ n', n = some n' → ∃ q, n' = .finite q := by
  rw [finiteField] at h
  split at h
  · obtain rfl := Except.ok.inj h
    simp
  · obtain rfl := Except.ok.inj h
    simp
  · cases h

/-- What a request that is not refused asks for. -/
theorem requestedThreshold_ok {m : AlertManager} {body : JsValue} {metric : String}
    {update : Threshold} (h : m.requestedThreshold body = .ok (metric, update)) :
    metric ∈ ALERT_METRIC_ALLOWLIST ∧
      (∀ n, update.warning = some n → ∃ q, n = .finite q) ∧
      (∀ n, update.critical = some n → ∃ q, n = .finite q) ∧
      ∀ w c, (update.warning <|> ((m.thresholds.get? metric).getD {}).warning) = some w →
        (update.critical <|> ((m.thresholds.get? metric).getD {}).critical) = some c →
        c.lt w = false := by
  rw [requestedThreshold] at h
  cases hname : body.get "metric" with
  | str name =>
    rw [hname] at h
    dsimp only at h
    split_ifs at h with hempty hlisted
    cases hwarning : finiteField body "warning" with
    | error error => rw [hwarning] at h; cases h
    | ok warning =>
      cases hcritical : finiteField body "critical" with
      | error error => rw [hwarning, hcritical] at h; cases h
      | ok critical =>
        rw [hwarning, hcritical] at h
        dsimp only at h
        split_ifs at h with hneither
        split at h
        next w c hw hc =>
          split_ifs at h with hless
          obtain ⟨rfl, rfl⟩ := Prod.mk.inj (Except.ok.inj h)
          refine ⟨hlisted, finiteField_ok hwarning, finiteField_ok hcritical, ?_⟩
          intro w' c' hw' hc'
          obtain rfl := Option.some.inj (hw.symm.trans hw')
          obtain rfl := Option.some.inj (hc.symm.trans hc')
          exact Bool.eq_false_iff.2 hless
        next hnone =>
          obtain ⟨rfl, rfl⟩ := Prod.mk.inj (Except.ok.inj h)
          refine ⟨hlisted, finiteField_ok hwarning, finiteField_ok hcritical, ?_⟩
          intro w c hw hc
          exact (hnone w c hw hc).elim
  | _ => rw [hname] at h; cases h

/-- A request that is not refused leaves sane thresholds. -/
theorem AllSane.postAlerts {m : AlertManager} (h : m.AllSane) (body : JsValue) :
    (m.postAlerts body).1.AllSane := by
  rcases postAlerts_cases m body with ⟨error, -, hpost⟩ | ⟨metric, update, hrequest, hpost⟩ <;>
    rw [hpost]
  · exact h
  · obtain ⟨hlisted, hwarning, hcritical, hordered⟩ := requestedThreshold_ok hrequest
    have hold : Sane ((m.thresholds.get? metric).getD {}) := by
      cases ht : m.thresholds.get? metric with
      | none => exact ⟨by simp, by simp, by simp⟩
      | some t => exact h.2 metric t ht
    have hfinite : ∀ {new old : Option JsNumber}, (∀ n, new = some n → ∃ q, n = .finite q) →
        (∀ n, old = some n → ∃ q, n = .finite q) →
        ∀ n, (new <|> old) = some n → ∃ q, n = .finite q := by
      intro new old hnew hold n hn
      cases new with
      | none => exact hold n hn
      | some n' => exact hnew n hn
    refine ⟨?_, OrderedMap.forall_get?_set (fun metric' t' _ ht' => h.2 metric' t' ht') ?_⟩
    · exact (OrderedMap.keys_set_of_mem (h.1 ▸ hlisted) _).trans h.1
    · exact ⟨hfinite hwarning hold.finite_warning, hfinite hcritical hold.finite_critical, hordered⟩

/-- **Thresholds.** With an accepted configuration, and whatever is requested of the running
manager, there are thresholds for exactly the known metrics, all of them finite, and no warning is
above its critical bound. -/
theorem thresholds_run {platform : ConfigPlatform} {options : JsValue} {p : String}
    (numberToString : ℚ → String) (h : validateConnectionConfig platform options p = none)
    (instanceId : String) (events : List Event) :
    (run (step numberToString) (initAlertManager options instanceId) events).AllSane := by
  refine run_invariant (fun m e hm => ?_) (allSane_init h instanceId) events
  cases e with
  | checkAll now metrics =>
    have hkept := (checkAll_watches numberToString "rtt" metrics now m).2
    show (m.checkAll numberToString now metrics).1.AllSane
    rw [AllSane, hkept]
    exact hm
  | postAlerts body => exact hm.postAlerts body

/-- A client that is warned at 200 ms. -/
def watchedClient : JsValue :=
  .obj (("alertThresholds", .obj [("rtt", .obj [("warning", .num (.finite 200))])]) ::
    ConnectionConfig.legacyClient)

/-- A critical bound below the warning, which is refused, and one above it. -/
def twoRequests : List Event :=
  [150, 900].map fun q => .postAlerts
    (.obj [("metric", .str "rtt"), ("critical", .num (.finite q))])

theorem thresholds_run_twoRequests :
    let m := run (step fun _ => "") (initAlertManager watchedClient "shore") twoRequests
    m.AllSane ∧ m.thresholds.get? "rtt" = some ⟨some (.finite 200), some (.finite 900)⟩ :=
  have hvalid :
      validateConnectionConfig ConnectionConfig.legacyPlatform watchedClient "" = none := by
    decide +kernel
  ⟨thresholds_run (fun _ => "") hvalid "shore" twoRequests, by decide +kernel⟩

end AlertManager

end EdgeLink
