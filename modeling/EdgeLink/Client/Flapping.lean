import EdgeLink.Client.Bonding
import EdgeLink.Foundations.Lists

/-!
# Anti-flapping

The automatic switches of the bonding manager over a run, each recorded with what it was decided
on (`BondingManager.switches`). With a clock that does not go back and without forced switches,

* `Guarded`: every failback waits for the delay and for a primary link that is much better than
  its thresholds, every failover goes to a backup link that is not down, and leaves a primary
  link that is down, or degraded after its dwell;
* `anti_flapping`: this holds of every switch of every run; a health check makes at most one; and
  two switches in a row are as far apart as the second one's guard says.
-/

namespace EdgeLink

namespace BondingManager

/-- The clock does not go back, from one event to the next and within one. -/
def ClockForward (m : BondingManager) : BondingEvent → Prop
  | .checkHealth r => m.clock ≤ r.primary ∧ r.primary ≤ r.backup ∧ r.backup ≤ r.failover ∧
      r.failover ≤ r.failback ∧ r.failback ≤ r.switch
  | .heartbeatResponse _ _ sentNow now => m.clock ≤ sentNow ∧ sentNow ≤ now
  | .forceFailover now => m.clock ≤ now
  | _ => True

instance (m : BondingManager) (ev : BondingEvent) : Decidable (m.ClockForward ev) := by
  cases ev <;> unfold ClockForward <;> infer_instance

/-- When the last switch to a link was made. -/
def lastSwitch (target : LinkName) (switches : List Switch) : Option Time :=
  switches.foldl (fun last s => if s.target = target then some s.recorded else last) none

/-- The active link after some switches. -/
def activeAfter (switches : List Switch) : LinkName :=
  (switches.getLast?.map Switch.target).getD .primary

theorem lastSwitch_append (target : LinkName) (switches : List Switch) (s : Switch) :
    lastSwitch target (switches ++ [s]) =
      if s.target = target then some s.recorded else lastSwitch target switches := by
  simp only [lastSwitch, List.foldl_append, List.foldl_cons, List.foldl_nil]

@[simp] theorem activeAfter_append (switches : List Switch) (s : Switch) :
    activeAfter (switches ++ [s]) = s.target := by
  simp [activeAfter]

/-- The guard of a failback, with the time of the last failover. -/
structure FailbackGuard (fl : Rounding) (lastFailover : Time) (s : Switch) : Prop where
  delay : s.thresholds.failbackDelay ≤ s.decided - lastFailover
  up : s.primary.status ≠ .down
  rtt : s.primary.rtt < fl (s.thresholds.rttThreshold * fl.BONDING_FAILBACK_RTT_HYSTERESIS)
  loss : s.primary.loss < fl (s.thresholds.lossThreshold * fl.BONDING_FAILBACK_LOSS_HYSTERESIS)

/-- The guard of a failover, with the time the primary link became active. -/
structure FailoverGuard (primaryActive : Time) (s : Switch) : Prop where
  up : s.backup.status ≠ .down
  degraded : s.primary.status ≠ .down →
    BONDING_FAILOVER_MIN_DWELL ≤ s.decided - primaryActive ∧
      (s.thresholds.rttThreshold < s.primary.rtt ∨ s.thresholds.lossThreshold < s.primary.loss)

/-- A switch after the switches `before` leaves the active link, and its guard is met. -/
structure Guarded (fl : Rounding) (startup : Time) (before : List Switch) (s : Switch) :
    Prop where
  alternates : s.target ≠ activeAfter before
  clock : s.decided ≤ s.recorded
  failback : s.target = .primary →
    ∃ t, lastSwitch .backup before = some t ∧ FailbackGuard fl t s
  failover : s.target = .backup → FailoverGuard ((lastSwitch .primary before).getD startup) s

/-- Two switches in a row are at least the failback delay apart, or the dwell, unless the primary
link went down. -/
structure Spaced (a b : Switch) : Prop where
  alternates : b.target ≠ a.target
  failback : b.target = .primary → b.thresholds.failbackDelay ≤ b.recorded - a.recorded
  failover : b.target = .backup → b.primary.status ≠ .down →
    BONDING_FAILOVER_MIN_DWELL ≤ b.recorded - a.recorded

/-- **Anti-flapping**, of the automatic switches since a startup. -/
structure AntiFlapping (fl : Rounding) (startup : Time) (switches : List Switch) : Prop where
  guarded : ∀ before s after, switches = before ++ s :: after → Guarded fl startup before s
  spaced : ∀ before a b after, switches = before ++ a :: b :: after → Spaced a b

/-- A step makes at most one switch, to the link that is not active, and in a health check only. -/
def OneSwitch (fl : Rounding) (m : BondingManager) (ev : BondingEvent) : Prop :=
  ((m.step fl ev).switches = m.switches ∧ (m.step fl ev).activeLink = m.activeLink) ∨
    ∃ r s, ev = .checkHealth r ∧ (m.step fl ev).switches = m.switches ++ [s] ∧
      s.target ≠ m.activeLink ∧ (m.step fl ev).activeLink = s.target

/-! ## The log -/

section Log

variable {fl : Rounding} {startup : Time} {switches : List Switch} {s : Switch}

theorem Guarded.spaced {before : List Switch} {a b : Switch}
    (h : Guarded fl startup (before ++ [a]) b) : Spaced a b := by
  have halt := h.alternates
  rw [activeAfter_append] at halt
  have hclock := h.clock
  refine ⟨halt, fun hb => ?_, fun hb hup => ?_⟩
  · obtain ⟨t, ht, hguard⟩ := h.failback hb
    have ha : a.target = .backup := by
      cases hat : a.target
      · exact absurd (hb.trans hat.symm) halt
      · rfl
    rw [lastSwitch_append, if_pos ha] at ht
    have hdelay := hguard.delay
    obtain rfl := Option.some.inj ht
    exact hdelay.trans (Int.sub_le_sub_right hclock _)
  · have ha : a.target = .primary := by
      cases hat : a.target
      · rfl
      · exact absurd (hb.trans hat.symm) halt
    have hdwell := ((h.failover hb).degraded hup).1
    rw [lastSwitch_append, if_pos ha, Option.getD_some] at hdwell
    exact hdwell.trans (Int.sub_le_sub_right hclock _)

theorem antiFlapping_nil : AntiFlapping fl startup [] where
  guarded before s after h := by simp at h
  spaced before a b after h := by simp at h

/-- One more guarded switch. -/
theorem AntiFlapping.append (h : AntiFlapping fl startup switches)
    (hs : Guarded fl startup switches s) : AntiFlapping fl startup (switches ++ [s]) := by
  have hguarded : ∀ before s' after, switches ++ [s] = before ++ s' :: after →
      Guarded fl startup before s' := by
    intro before s' after heq
    rcases append_singleton_eq_append_cons heq with ⟨rfl, rfl⟩ | ⟨after', heq⟩
    · exact hs
    · exact h.guarded before s' after' heq
  refine ⟨hguarded, fun before a b after heq => ?_⟩
  exact (hguarded (before ++ [a]) b after (by rw [heq]; simp)).spaced

end Log

/-! ## The run -/

/-- What the manager remembers of its switches. -/
structure Remembers (fl : Rounding) (startup : Time) (m : BondingManager) : Prop where
  active : m.activeLink = activeAfter m.switches
  failover : m.activeLink = .backup → lastSwitch .backup m.switches = some m.lastFailoverTime
  failback : m.lastFailbackTime = (lastSwitch .primary m.switches).getD startup
  flapping : AntiFlapping fl startup m.switches

section Run

variable {fl : Rounding} {startup : Time} {m m' : BondingManager}

theorem Remembers.of_eq (h : Remembers fl startup m) (hactive : m'.activeLink = m.activeLink)
    (hover : m'.lastFailoverTime = m.lastFailoverTime)
    (hback : m'.lastFailbackTime = m.lastFailbackTime) (hlog : m'.switches = m.switches) :
    Remembers fl startup m' := by
  obtain ⟨h1, h2, h3, h4⟩ := h
  exact ⟨by rw [hactive, hlog, h1], by rw [hactive, hlog, hover]; exact h2,
    by rw [hback, hlog, h3], by rw [hlog]; exact h4⟩

/-- An automatic failover is guarded, and remembered. -/
theorem Remembers.failover_step (h : Remembers fl startup m) {decided recorded : Time}
    (hdec : m.shouldFailover decided = true) (hclock : decided ≤ recorded) :
    m.activeLink = .primary ∧
      ((m.logSwitch .backup decided recorded).failover recorded).activeLink = .backup ∧
      ((m.logSwitch .backup decided recorded).failover recorded).switches =
        m.switches ++ [m.switchTo .backup decided recorded] ∧
      Remembers fl startup ((m.logSwitch .backup decided recorded).failover recorded) := by
  obtain ⟨hactive, hup, hwhy⟩ := shouldFailover_spec hdec
  have hguard : Guarded fl startup m.switches (m.switchTo .backup decided recorded) := by
    refine ⟨?_, hclock, nofun, fun _ => ⟨hup, fun hprimary => ?_⟩⟩
    · rw [← h.active, hactive]
      nofun
    · rw [← h.failback]
      exact hwhy.resolve_left hprimary
  obtain ⟨hact, -, -⟩ := status_failover (m := m.logSwitch .backup decided recorded) hactive recorded
  obtain ⟨hover, hback, hlog⟩ :=
    failover_frame (m := m.logSwitch .backup decided recorded) hactive recorded
  have hlog : ((m.logSwitch .backup decided recorded).failover recorded).switches =
      m.switches ++ [m.switchTo .backup decided recorded] := hlog
  refine ⟨hactive, hact, hlog, ?_, fun _ => ?_, ?_, ?_⟩
  · rw [hact, hlog, activeAfter_append]
    rfl
  · rw [hover, hlog, lastSwitch_append]
    exact if_pos rfl
  · rw [hback, hlog, lastSwitch_append, if_neg (show
      (m.switchTo .backup decided recorded).target ≠ .primary from nofun)]
    exact h.failback
  · rw [hlog]
    exact h.flapping.append hguard

/-- An automatic failback is guarded, and remembered. -/
theorem Remembers.failback_step (h : Remembers fl startup m) {decided recorded : Time}
    (hdec : m.shouldFailback fl decided = true) (hclock : decided ≤ recorded) :
    m.activeLink = .backup ∧
      ((m.logSwitch .primary decided recorded).failback recorded).activeLink = .primary ∧
      ((m.logSwitch .primary decided recorded).failback recorded).switches =
        m.switches ++ [m.switchTo .primary decided recorded] ∧
      Remembers fl startup ((m.logSwitch .primary decided recorded).failback recorded) := by
  obtain ⟨hactive, hdelay, hup, hrtt, hloss⟩ := shouldFailback_spec hdec
  have hguard : Guarded fl startup m.switches (m.switchTo .primary decided recorded) := by
    refine ⟨?_, hclock, fun _ => ⟨m.lastFailoverTime, h.failover hactive, ?_⟩, nofun⟩
    · rw [← h.active, hactive]
      nofun
    · exact ⟨hdelay, hup, hrtt, hloss⟩
  obtain ⟨hact, -, -⟩ := status_failback (m := m.logSwitch .primary decided recorded) hactive recorded
  obtain ⟨hback, hlog⟩ :=
    failback_frame (m := m.logSwitch .primary decided recorded) hactive recorded
  have hlog : ((m.logSwitch .primary decided recorded).failback recorded).switches =
      m.switches ++ [m.switchTo .primary decided recorded] := hlog
  refine ⟨hactive, hact, hlog, ?_, fun hno => ?_, ?_, ?_⟩
  · rw [hact, hlog, activeAfter_append]
    rfl
  · rw [hact] at hno
    nomatch hno
  · rw [hback, hlog, lastSwitch_append, if_pos (show (m.switchTo .primary decided recorded).target =
      .primary from rfl)]
    rfl
  · rw [hlog]
    exact h.flapping.append hguard

/-- A health check keeps what is remembered. -/
theorem Remembers.checkHealth (h : Remembers fl startup m) {r : Readings}
    (hclock : m.ClockForward (.checkHealth r)) :
    Remembers fl startup (m.checkHealth fl r) ∧
      (((m.checkHealth fl r).switches = m.switches ∧
        (m.checkHealth fl r).activeLink = m.activeLink) ∨
        ∃ s, (m.checkHealth fl r).switches = m.switches ++ [s] ∧ s.target ≠ m.activeLink ∧
          (m.checkHealth fl r).activeLink = s.target) := by
  obtain ⟨-, -, -, hover, hback⟩ := hclock
  have hm : Remembers fl startup (m.measured fl r) := h.of_eq rfl rfl rfl rfl
  unfold BondingManager.checkHealth
  dsimp only
  split_ifs with hfailover hfailback
  · obtain ⟨hactive, hact, hlog, hrem⟩ := hm.failover_step hfailover (hover.trans hback)
    refine ⟨hrem, Or.inr ⟨_, hlog, ?_, hact⟩⟩
    rw [show m.activeLink = .primary from hactive]
    nofun
  · obtain ⟨hactive, hact, hlog, hrem⟩ := hm.failback_step hfailback hback
    refine ⟨hrem, Or.inr ⟨_, hlog, ?_, hact⟩⟩
    rw [show m.activeLink = .backup from hactive]
    nofun
  · exact ⟨hm, Or.inl ⟨rfl, rfl⟩⟩

theorem remembers_setLink (h : Remembers fl startup m) (name : LinkName) (link : LinkState) :
    Remembers fl startup (m.setLink name link) ∧ (m.setLink name link).switches = m.switches := by
  cases name
  · exact ⟨h.of_eq rfl rfl rfl rfl, rfl⟩
  · exact ⟨h.of_eq rfl rfl rfl rfl, rfl⟩

/-- **Every step but a forced switch** keeps what is remembered, and makes at most one switch. -/
theorem Remembers.step (h : Remembers fl startup m) {ev : BondingEvent}
    (hclock : m.ClockForward ev) (hforce : ∀ now, ev ≠ .forceFailover now) :
    OneSwitch fl m ev ∧ Remembers fl startup (m.step fl ev) := by
  have hlink : ∀ name link, m.step fl ev = m.setLink name link →
      OneSwitch fl m ev ∧ Remembers fl startup (m.step fl ev) := by
    intro name link heq
    have hrem := remembers_setLink h name link
    unfold OneSwitch
    rw [heq]
    exact ⟨Or.inl ⟨hrem.2, activeLink_setLink m name link⟩, hrem.1⟩
  have hsame : m.step fl ev = m → OneSwitch fl m ev ∧ Remembers fl startup (m.step fl ev) := by
    intro heq
    unfold OneSwitch
    rw [heq]
    exact ⟨Or.inl ⟨rfl, rfl⟩, h⟩
  cases ev with
  | checkHealth r =>
    by_cases htimer : m.healthCheckTimer = true
    · obtain ⟨hrem, hone⟩ := h.checkHealth hclock
      have heq : m.step fl (.checkHealth r) = { m.checkHealth fl r with clock := r.switch } := by
        simp only [BondingManager.step, htimer, if_true]
      unfold OneSwitch
      rw [heq]
      refine ⟨hone.imp_right fun hone => ?_, hrem.of_eq rfl rfl rfl rfl⟩
      obtain ⟨s, hlog, hne, hactive⟩ := hone
      exact ⟨r, s, rfl, hlog, hne, hactive⟩
    · exact hsame (by simp only [BondingManager.step, htimer, Bool.false_eq_true, if_false])
  | heartbeatResponse name seq sentNow now =>
    cases hget : (m.link name).pendingHeartbeats.get? seq with
    | none => exact hsame (by simp only [BondingManager.step, hget])
    | some sendTime =>
      have heq : m.step fl (.heartbeatResponse name seq sentNow now) =
          { m.setLink name ((m.link name).recordHeartbeatRtt fl seq (sentNow - sendTime) now
            (m.activeLink = name)) with clock := now } := by
        simp only [BondingManager.step, hget]
      have hrem := remembers_setLink h name ((m.link name).recordHeartbeatRtt fl seq
        (sentNow - sendTime) now (m.activeLink = name))
      unfold OneSwitch
      rw [heq]
      exact ⟨Or.inl ⟨hrem.2, activeLink_setLink m name _⟩, hrem.1.of_eq rfl rfl rfl rfl⟩
  | socketError name => exact hlink name _ rfl
  | bindFailed name =>
    by_cases hbinding : (m.link name).binding = true
    · exact hlink name _ (by simp only [BondingManager.step, hbinding, if_true]; rfl)
    · exact hsame (by simp only [BondingManager.step, hbinding, Bool.false_eq_true, if_false])
  | recoveryTimer name created =>
    by_cases htimer : (m.link name).recoveryTimer = true
    · by_cases hstopped : m.stopped = true
      · exact hlink name _ (by simp only [BondingManager.step, htimer, hstopped, if_true]; rfl)
      · exact hlink name _ (by
          simp only [BondingManager.step, htimer, hstopped, Bool.false_eq_true, if_true, if_false]
          rfl)
    · exact hsame (by simp only [BondingManager.step, htimer, Bool.false_eq_true, if_false])
  | bound name =>
    by_cases hbinding : (m.link name).binding = true
    · exact hlink name _ (by simp only [BondingManager.step, hbinding, if_true]; rfl)
    · exact hsame (by simp only [BondingManager.step, hbinding, Bool.false_eq_true, if_false])
  | forceFailover now => exact absurd rfl (hforce now)
  | setThresholds thresholds => exact ⟨Or.inl ⟨rfl, rfl⟩, h.of_eq rfl rfl rfl rfl⟩
  | stop => exact ⟨Or.inl ⟨rfl, rfl⟩, h.of_eq rfl rfl rfl rfl⟩

end Run

/-- **Anti-flapping.** Over every run without forced switches and with a clock that does not go
back, every automatic switch is guarded and far enough from the one before, and a health check
makes at most one. -/
theorem anti_flapping (fl : Rounding) (primaryInterface backupInterface : Bool)
    (thresholds : FailoverThresholds) (now : Time) (es : List BondingEvent)
    (hclock : Along (step fl) ClockForward
      (initialized primaryInterface backupInterface thresholds now) es)
    (hforce : ∀ ev ∈ es, ∀ t, ev ≠ .forceFailover t) :
    AntiFlapping fl now
        (run (step fl) (initialized primaryInterface backupInterface thresholds now) es).switches ∧
      Along (step fl) (OneSwitch fl)
        (initialized primaryInterface backupInterface thresholds now) es := by
  have hinit : Remembers fl now (initialized primaryInterface backupInterface thresholds now) :=
    ⟨rfl, nofun, rfl, antiFlapping_nil⟩
  have hsteps := Along.and_mem hclock hforce
  constructor
  · exact (Along.invariant (I := Remembers fl now)
      (fun m ev h hev => (h.step hev.1 hev.2).2) hinit hsteps).flapping
  · exact Along.of_invariant (I := Remembers fl now)
      (fun m ev h hev => h.step hev.1 hev.2) hinit hsteps

/-- The primary link fails, comes back, and is active again after the delay. -/
def failsAndReturns : List BondingEvent :=
  [.socketError .primary, .checkHealth ⟨1000, 1000, 1001, 1001, 1002⟩,
    .heartbeatResponse .primary 0 1100 1100, .checkHealth ⟨31000, 31000, 31000, 31001, 31001⟩,
    .checkHealth ⟨32000, 32000, 32000, 32001, 32003⟩]

/-- Two switches are made in this run, and they are as they should be. -/
theorem anti_flapping_returns :
    (run (step id) (initialized false false {} 0) failsAndReturns).switches.map Switch.recorded =
      [1002, 32003] ∧
    AntiFlapping id 0 (run (step id) (initialized false false {} 0) failsAndReturns).switches :=
  ⟨by decide +kernel, (anti_flapping id false false {} 0 failsAndReturns (by decide +kernel)
    (by simp [failsAndReturns])).1⟩

end BondingManager

end EdgeLink
