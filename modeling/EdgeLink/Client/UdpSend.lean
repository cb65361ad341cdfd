import EdgeLink.Foundations.Lists
import EdgeLink.Foundations.Run

/-!
# Sending a datagram with retries

`udpSendAsync` of `transport/udp-socket-manager.ts`. Every attempt of a chain hands the datagram to
the socket and races the send against a timeout of its own; an attempt that fails for lack of buffer
space waits and then starts the next one. The attempts share one cancellation flag, which any of
their timeouts sets. Socket callbacks, back-off timers, timeouts and the continuations of promises
are events, which may come in any order: a continuation may be delayed for any time.

* `Inv` is the invariant of a chain: only the last attempt is still to hear from the socket or to
  wait, and whatever is resolved goes back to a success that the socket has reported.
* `bounded_send`: the bounds, over every behaviour of socket and timers.
-/

namespace EdgeLink

def UDP_RETRY_MAX : ℕ := 3

/-- What a send callback reports. -/
inductive SendReport
  | success
  /-- `EAGAIN` or `ENOBUFS` -/
  | retriable
  | fatal
  deriving DecidableEq

inductive Settlement
  | resolved
  | rejected
  deriving DecidableEq

/-- How far the send callback of an attempt is. -/
inductive CallbackPhase
  /-- it has not been called -/
  | waiting
  /-- it waits for its back-off timer -/
  | backingOff
  /-- its back-off timer has fired, and it is about to go on -/
  | woken
  /-- it waits for the next attempt -/
  | retrying
  | finished
  deriving DecidableEq

inductive TimeoutPhase
  | armed
  | fired
  | cleared
  deriving DecidableEq

/-- One call of `sendWithRetry`. -/
structure SendAttempt where
  callback : CallbackPhase
  sendPromise : Option Settlement
  timeout : TimeoutPhase
  /-- how `Promise.race` has been decided -/
  race : Option Settlement
  /-- how the promise that the call has returned is settled -/
  returned : Option Settlement
  deriving DecidableEq

/-- What happens in a chain, as the caller and the socket see it. -/
inductive SendHappening
  /-- `socket.send` is called -/
  | send
  | reported (report : SendReport)
  | timedOut
  | onRetry (retryCount : ℕ)
  | onError (retryCount : ℕ)
  /-- the promise of the caller is settled -/
  | settled (settlement : Settlement)
  deriving DecidableEq

/-- A chain of attempts. -/
structure UdpSend where
  /-- the `retryCount` of the first attempt -/
  retryCount : ℕ
  /-- the first attempt first -/
  attempts : List SendAttempt
  aborted : Bool
  /-- what has happened, oldest first -/
  log : List SendHappening
  deriving DecidableEq

/-- What the outside decides: a level is the place of an attempt in its chain. -/
inductive SendEvent
  /-- the socket calls the send callback of an attempt -/
  | callback (level : ℕ) (report : SendReport)
  | backoffTimer (level : ℕ)
  /-- the callback goes on after its back-off; `socket.send` may throw -/
  | wake (level : ℕ) (throws : Bool)
  | timeoutTimer (level : ℕ)
  /-- the `finally` of an attempt runs -/
  | raceSettled (level : ℕ)
  /-- the callback goes on after the next attempt -/
  | retrySettled (level : ℕ)

/-- Settle the send promise of an attempt, for the first time. -/
def SendAttempt.settle (a : SendAttempt) (settlement : Settlement) : SendAttempt :=
  match a.sendPromise with
  | some _ => a
  | none => { a with sendPromise := some settlement, race := a.race.or (some settlement) }

/-- The send callback of an attempt is through, and settles its promise. -/
def SendAttempt.finish (a : SendAttempt) (settlement : Settlement) : SendAttempt :=
  { a with callback := .finished }.settle settlement

namespace UdpSend

/-- Hand the datagram to the socket, and arm the timeout. -/
def sendWithRetry (s : UdpSend) (throws : Bool) : UdpSend :=
  let attempt : SendAttempt := ⟨.waiting, none, .armed, none, none⟩
  { s with
    attempts := s.attempts ++
      [if throws then attempt.finish .rejected else attempt]
    log := s.log ++ [.send] }

/-- A chain that has just been started on a socket. -/
def udpSendAsync (retryCount : ℕ) (throws : Bool) : UdpSend :=
  sendWithRetry ⟨retryCount, [], false, []⟩ throws

/-- The callback of an attempt has been called with an error. -/
def sendFailed (s : UdpSend) (level : ℕ) (a : SendAttempt) (retriable : Bool) : UdpSend :=
  let retryCount := s.retryCount + level
  if s.aborted then
    { s with attempts := s.attempts.set level (a.finish .rejected) }
  else if retryCount < UDP_RETRY_MAX ∧ retriable then
    { s with
      attempts := s.attempts.set level { a with callback := .backingOff }
      log := s.log ++ [.onRetry (retryCount + 1)] }
  else
    { s with
      attempts := s.attempts.set level (a.finish .rejected)
      log := s.log ++ [.onError retryCount] }

/-- An event at an attempt of the chain. -/
def stepAttempt (s : UdpSend) (a : SendAttempt) : SendEvent → UdpSend
  | .callback level report =>
    if a.callback = .waiting then
      let s := { s with log := s.log ++ [SendHappening.reported report] }
      match report with
      | .success =>
        { s with attempts := s.attempts.set level (a.finish .resolved) }
      | .retriable => s.sendFailed level a true
      | .fatal => s.sendFailed level a false
    else s
  | .backoffTimer level =>
    if a.callback = .backingOff then
      { s with attempts := s.attempts.set level { a with callback := .woken } }
    else s
  | .wake level throws =>
    if a.callback = .woken then
      if s.aborted then
        { s with attempts := s.attempts.set level (a.finish .rejected) }
      else
        { s with attempts := s.attempts.set level { a with callback := .retrying } }.sendWithRetry
          throws
    else s
  | .timeoutTimer level =>
    if a.timeout = .armed then
      { s with
        attempts := s.attempts.set level
          { a with timeout := .fired, race := a.race.or (some .rejected) }
        aborted := true
        log := s.log ++ [.timedOut] }
    else s
  | .raceSettled level =>
    match a.race, a.returned with
    | some settlement, none =>
      { s with
        attempts := s.attempts.set level
          { a with
            timeout := if a.timeout = .armed then .cleared else a.timeout
            returned := some settlement }
        log := if level = 0 then s.log ++ [.settled settlement] else s.log }
    | _, _ => s
  | .retrySettled level =>
    match a.callback, s.attempts[level + 1]?.bind (·.returned) with
    | .retrying, some settlement =>
      { s with attempts := s.attempts.set level (a.finish settlement) }
    | _, _ => s

/-- The attempt at which an event happens. -/
def level : SendEvent → ℕ
  | .callback level _ => level
  | .backoffTimer level => level
  | .wake level _ => level
  | .timeoutTimer level => level
  | .raceSettled level => level
  | .retrySettled level => level

def step (s : UdpSend) (ev : SendEvent) : UdpSend :=
  match s.attempts[level ev]? with
  | some a => s.stepAttempt a ev
  | none => s

end UdpSend

/-! ## The invariant -/

/-- The attempt may still have something to do with the socket. -/
def SendAttempt.Active (a : SendAttempt) : Prop :=
  a.callback = .waiting ∨ a.callback = .backingOff ∨ a.callback = .woken

/-- One of the promises of the attempt is resolved. -/
def SendAttempt.Resolved (a : SendAttempt) : Prop :=
  a.sendPromise = some .resolved ∨ a.race = some .resolved ∨ a.returned = some .resolved

def SendHappening.isOnError : SendHappening → Bool
  | .onError _ => true
  | _ => false

/-- After a timeout the socket and the error callback are left alone. -/
def LeavesAlone (x y : SendHappening) : Prop :=
  x = .timedOut → y ≠ .send ∧ y.isOnError = false

theorem SendAttempt.resolved_settle {a : SendAttempt} {settlement : Settlement}
    (h : (a.settle settlement).Resolved) : a.Resolved ∨ settlement = .resolved := by
  unfold SendAttempt.settle at h
  split at h
  · exact Or.inl h
  next hnone =>
    rcases h with h | h | h
    · exact Or.inr (Option.some.inj h)
    · cases hrace : a.race with
      | none =>
        simp only [hrace, Option.none_or] at h
        exact Or.inr (Option.some.inj h)
      | some r =>
        simp only [hrace, Option.some_or] at h
        exact Or.inl (Or.inr (Or.inl (hrace.trans h)))
    · exact Or.inl (Or.inr (Or.inr h))

@[simp] theorem SendAttempt.callback_finish (a : SendAttempt) (settlement : Settlement) :
    (a.finish settlement).callback = .finished := by
  unfold SendAttempt.finish SendAttempt.settle
  split <;> rfl

theorem SendAttempt.not_active_finish (a : SendAttempt) (settlement : Settlement) :
    ¬ (a.finish settlement).Active := by
  simp [SendAttempt.Active]

namespace UdpSend

/-- **The invariant of a chain.** -/
structure Inv (s : UdpSend) : Prop where
  sends : s.log.count .send = s.attempts.length
  /-- only the last attempt is active -/
  last : ∀ {i a}, s.attempts[i]? = some a → a.Active → i + 1 = s.attempts.length
  budget : ∀ {i}, i + 1 < s.attempts.length → s.retryCount + i < UDP_RETRY_MAX
  waits : ∀ {i a}, s.attempts[i]? = some a → a.callback = .backingOff ∨ a.callback = .woken →
    s.retryCount + i < UDP_RETRY_MAX
  timedOut : .timedOut ∈ s.log → s.aborted = true
  order : s.log.Pairwise LeavesAlone
  errors : s.log.countP SendHappening.isOnError = 0 ∨
    (s.log.countP SendHappening.isOnError = 1 ∧ ∀ a ∈ s.attempts, ¬ a.Active)
  success : ∀ a ∈ s.attempts, a.Resolved → .reported .success ∈ s.log
  settled : .settled .resolved ∈ s.log → .reported .success ∈ s.log

section Kept

variable {s : UdpSend} {i : ℕ} {a a' : SendAttempt} {b : Bool} {l : List SendHappening}

/-- What is logged when nothing is aborted follows no timeout. -/
theorem Inv.order_append (h : s.Inv) (hquiet : l.Pairwise LeavesAlone)
    (hnew : s.aborted = true → .send ∉ l ∧ l.countP SendHappening.isOnError = 0) :
    (s.log ++ l).Pairwise LeavesAlone := by
  refine List.pairwise_append.2 ⟨h.order, hquiet, fun x hx y hy hout => ?_⟩
  subst hout
  obtain ⟨hsend, herror⟩ := hnew (h.timedOut hx)
  refine ⟨fun heq => hsend (heq ▸ hy), ?_⟩
  exact Bool.eq_false_iff.2 fun hy' => List.countP_eq_zero.1 herror y hy hy'

/-- An attempt changes, and the socket is not called. -/
theorem Inv.update (h : s.Inv) (ha : s.attempts[i]? = some a)
    (hactive : a'.Active → a.Active)
    (hwaits : a'.callback = .backingOff ∨ a'.callback = .woken → s.retryCount + i < UDP_RETRY_MAX)
    (hb : s.aborted = true ∨ .timedOut ∈ l → b = true)
    (hquiet : l.Pairwise LeavesAlone) (hsend : .send ∉ l)
    (herror : l.countP SendHappening.isOnError = 0 ∨
      (l.countP SendHappening.isOnError = 1 ∧ s.aborted = false ∧ a.Active ∧ ¬ a'.Active))
    (hresolved : a'.Resolved → a.Resolved ∨ .reported .success ∈ s.log ++ l)
    (hsettled : .settled .resolved ∈ l → a.Resolved) :
    Inv { s with attempts := s.attempts.set i a', aborted := b, log := s.log ++ l } := by
  have hmem : a ∈ s.attempts := List.mem_of_getElem? ha
  constructor
  case sends =>
    rw [List.count_append, h.sends, List.count_eq_zero.2 hsend, List.length_set, Nat.add_zero]
  case last =>
    intro j c hc hcactive
    rw [List.length_set]
    rcases getElem?_set_cases hc with ⟨rfl, rfl⟩ | ⟨-, hc⟩
    · exact h.last ha (hactive hcactive)
    · exact h.last hc hcactive
  case budget =>
    intro j hj
    rw [List.length_set] at hj
    exact h.budget hj
  case waits =>
    intro j c hc hcwaits
    rcases getElem?_set_cases hc with ⟨rfl, rfl⟩ | ⟨-, hc⟩
    · exact hwaits hcwaits
    · exact h.waits hc hcwaits
  case timedOut =>
    intro hout
    rcases List.mem_append.1 hout with hout | hout
    · exact hb (Or.inl (h.timedOut hout))
    · exact hb (Or.inr hout)
  case order =>
    refine h.order_append hquiet fun haborted => ⟨hsend, ?_⟩
    rcases herror with herror | ⟨-, hfalse, -⟩
    · exact herror
    · rw [haborted] at hfalse
      nomatch hfalse
  case errors =>
    rw [List.countP_append]
    rcases herror with herror | ⟨herror, -, hwas, hnot⟩
    · rw [herror, Nat.add_zero]
      refine h.errors.imp id fun ⟨hone, hquiet⟩ => ⟨hone, fun c hc hcactive => ?_⟩
      rcases List.mem_or_eq_of_mem_set hc with hc | rfl
      · exact hquiet c hc hcactive
      · exact hquiet a hmem (hactive hcactive)
    · rcases h.errors with hzero | ⟨-, hquiet⟩
      · refine Or.inr ⟨by rw [hzero, herror], fun c hc hcactive => ?_⟩
        obtain ⟨j, hj⟩ := List.mem_iff_getElem?.1 hc
        rcases getElem?_set_cases hj with ⟨-, rfl⟩ | ⟨hne, hj⟩
        · exact hnot hcactive
        · have := h.last hj hcactive
          have := h.last ha hwas
          omega
      · exact absurd hwas (hquiet a hmem)
  case success =>
    intro c hc hcresolved
    rcases List.mem_or_eq_of_mem_set hc with hc | rfl
    · exact List.mem_append_left _ (h.success c hc hcresolved)
    · rcases hresolved hcresolved with hwas | hnew
      · exact List.mem_append_left _ (h.success a hmem hwas)
      · exact hnew
  case settled =>
    intro hres
    refine List.mem_append_left _ ?_
    rcases List.mem_append.1 hres with hres | hres
    · exact h.settled hres
    · exact h.success a hmem (hsettled hres)

/-- An attempt changes, and nothing is logged. -/
theorem Inv.quiet (h : s.Inv) (ha : s.attempts[i]? = some a) (hactive : a'.Active → a.Active)
    (hwaits : a'.callback = .backingOff ∨ a'.callback = .woken → s.retryCount + i < UDP_RETRY_MAX)
    (hresolved : a'.Resolved → a.Resolved) :
    Inv { s with attempts := s.attempts.set i a' } := by
  have hnext := h.update ha (b := s.aborted) (l := []) hactive hwaits
    (fun hout => hout.elim id fun hout => nomatch hout) List.Pairwise.nil List.not_mem_nil
    (Or.inl rfl) (fun hres => Or.inl (hresolved hres)) (fun hres => nomatch hres)
  rwa [List.append_nil] at hnext

/-- The socket is called once more. -/
theorem Inv.sendWithRetry (h : s.Inv) (haborted : s.aborted = false)
    (hnone : ∀ a ∈ s.attempts, ¬ a.Active)
    (herrors : s.log.countP SendHappening.isOnError = 0)
    (hbudget : ∀ i, i + 1 = s.attempts.length → s.retryCount + i < UDP_RETRY_MAX) (throws : Bool) :
    (s.sendWithRetry throws).Inv := by
  set attempt : SendAttempt := ⟨.waiting, none, .armed, none, none⟩
  set first := if throws then attempt.finish .rejected else attempt with hfirst
  have hphase : first.callback ≠ .backingOff ∧ first.callback ≠ .woken ∧ ¬ first.Resolved := by
    cases throws <;>
      simp [hfirst, attempt, SendAttempt.finish, SendAttempt.settle, SendAttempt.Resolved]
  have hmem : ∀ {a}, a ∈ s.attempts ++ [first] → a ∈ s.attempts ∨ a = first := fun ha =>
    (List.mem_append.1 ha).imp id List.mem_singleton.1
  show Inv { s with attempts := s.attempts ++ [first], log := s.log ++ [.send] }
  constructor
  case sends =>
    rw [List.count_append, h.sends, List.length_append]
    rfl
  case last =>
    intro i a hi ha
    rw [List.length_append, List.length_singleton]
    rcases getElem?_append_singleton hi with hi | ⟨rfl, -⟩
    · exact absurd ha (hnone a (List.mem_of_getElem? hi))
    · rfl
  case budget =>
    intro i hi
    rw [List.length_append, List.length_singleton] at hi
    rcases Nat.lt_or_eq_of_le (Nat.le_of_lt_succ hi) with hi | hi
    · exact h.budget hi
    · exact hbudget i hi
  case waits =>
    intro i a hi hwaits
    rcases getElem?_append_singleton hi with hi | ⟨-, rfl⟩
    · exact h.waits hi hwaits
    · exact absurd hwaits (not_or.2 ⟨hphase.1, hphase.2.1⟩)
  case timedOut =>
    intro hout
    rcases List.mem_append.1 hout with hout | hout
    · exact h.timedOut hout
    · simp at hout
  case order =>
    refine h.order_append (List.pairwise_singleton _ _) fun htrue => ?_
    rw [haborted] at htrue
    nomatch htrue
  case errors =>
    rw [List.countP_append, herrors]
    exact Or.inl rfl
  case success =>
    intro a ha hresolved
    rcases hmem ha with ha | rfl
    · exact List.mem_append_left _ (h.success a ha hresolved)
    · exact absurd hresolved hphase.2.2
  case settled =>
    intro hres
    refine List.mem_append_left _ (h.settled ?_)
    rcases List.mem_append.1 hres with hres | hres
    · exact hres
    · simp at hres

theorem inv_udpSendAsync (retryCount : ℕ) (throws : Bool) :
    (udpSendAsync retryCount throws).Inv := by
  have hempty : Inv ⟨retryCount, [], false, []⟩ := by
    constructor <;> simp
  exact hempty.sendWithRetry rfl (by simp) rfl (by simp) throws

/-- A send callback is through. -/
theorem Inv.finish (h : s.Inv) (ha : s.attempts[i]? = some a) (settlement : Settlement)
    (hquiet : l.Pairwise LeavesAlone) (hsend : .send ∉ l) (hout : .timedOut ∉ l)
    (hsettled : .settled .resolved ∉ l)
    (herror : l.countP SendHappening.isOnError = 0 ∨
      (l.countP SendHappening.isOnError = 1 ∧ s.aborted = false ∧ a.Active))
    (hresolved : settlement = .resolved → .reported .success ∈ s.log ++ l) :
    Inv { s with attempts := s.attempts.set i (a.finish settlement), log := s.log ++ l } := by
  have hnot := a.not_active_finish settlement
  refine h.update ha (fun hact => absurd hact hnot) (fun hw => ?_) (fun hb => ?_) hquiet hsend ?_
    (fun hres => ?_) (fun hin => absurd hin hsettled)
  · rw [SendAttempt.callback_finish] at hw
    simp at hw
  · exact hb.elim id fun hin => absurd hin hout
  · exact herror.imp id fun ⟨hone, haborted, hwas⟩ => ⟨hone, haborted, hwas, hnot⟩
  · exact (SendAttempt.resolved_settle hres).imp id hresolved

/-- A send callback with an error. -/
theorem Inv.sendFailed (h : s.Inv) (ha : s.attempts[i]? = some a) (hwaiting : a.callback = .waiting)
    (report : SendReport) (retriable : Bool) :
    Inv (UdpSend.sendFailed { s with log := s.log ++ [SendHappening.reported report] } i a
      retriable) := by
  have hwas : a.Active := Or.inl hwaiting
  unfold UdpSend.sendFailed
  dsimp only
  split_ifs with haborted hretry
  · exact h.finish ha _ (List.pairwise_singleton _ _) (by simp) (by simp) (by simp) (Or.inl rfl)
      (fun heq => nomatch heq)
  · rw [List.append_assoc]
    exact h.update ha (fun _ => hwas) (fun _ => hretry.1) (by simp) (by simp [LeavesAlone])
      (by simp) (Or.inl rfl) (fun hres => Or.inl hres) (by simp)
  · rw [List.append_assoc]
    exact h.finish ha _ (by simp [LeavesAlone]) (by simp) (by simp) (by simp)
      (Or.inr ⟨rfl, Bool.eq_false_iff.2 haborted, hwas⟩) (fun heq => nomatch heq)

theorem resolved_race_or {race : Option Settlement}
    (h : race.or (some .rejected) = some .resolved) : race = some .resolved := by
  cases race with
  | none => nomatch h
  | some settlement => exact h

theorem Inv.wake (h : s.Inv) (ha : s.attempts[i]? = some a) (hwoken : a.callback = .woken)
    (haborted : s.aborted = false) (throws : Bool) :
    (UdpSend.sendWithRetry
      { s with attempts := s.attempts.set i { a with callback := .retrying } } throws).Inv := by
  have hwas : a.Active := Or.inr (Or.inr hwoken)
  have hlast : i + 1 = s.attempts.length := h.last ha hwas
  have hnot : ¬ SendAttempt.Active { a with callback := .retrying } := by
    simp [SendAttempt.Active]
  have hnext : Inv { s with attempts := s.attempts.set i { a with callback := .retrying } } :=
    h.quiet ha (fun hact => absurd hact hnot) (by simp) id
  refine hnext.sendWithRetry haborted (fun c hc hactive => ?_) ?_ (fun j hj => ?_) throws
  · -- the attempt that went on was the only active one
    obtain ⟨j, hj⟩ := List.mem_iff_getElem?.1 hc
    have hjlast := hnext.last hj hactive
    rw [List.length_set] at hjlast
    obtain rfl : j = i := by omega
    rw [List.getElem?_set_self (List.getElem?_eq_some_iff.1 ha).1] at hj
    exact hnot (Option.some.inj hj ▸ hactive)
  · exact h.errors.resolve_right fun herror => herror.2 a (List.mem_of_getElem? ha) hwas
  · rw [List.length_set] at hj
    obtain rfl : j = i := by omega
    exact h.waits ha (Or.inr hwoken)

theorem Inv.raceSettled (h : s.Inv) (ha : s.attempts[i]? = some a) {settlement : Settlement}
    (hrace : a.race = some settlement) (timeout : TimeoutPhase) :
    Inv { s with
      attempts := s.attempts.set i
        { a with timeout := timeout, returned := some settlement }
      log := if i = 0 then s.log ++ [.settled settlement] else s.log } := by
  have hresolved : settlement = .resolved → a.Resolved := fun heq =>
    Or.inr (Or.inl (heq ▸ hrace))
  have hkept : SendAttempt.Resolved { a with timeout := timeout, returned := some settlement } →
      a.Resolved := by
    rintro (hres | hres | hres)
    · exact Or.inl hres
    · exact Or.inr (Or.inl hres)
    · exact hresolved (Option.some.inj hres)
  split_ifs
  · exact h.update ha id (fun hw => h.waits ha hw) (by simp) (List.pairwise_singleton _ _)
      (by simp) (Or.inl rfl) (fun hres => Or.inl (hkept hres))
      (fun hin => hresolved (SendHappening.settled.inj (List.mem_singleton.1 hin)).symm)
  · exact h.quiet ha id (fun hw => h.waits ha hw) hkept

theorem Inv.stepAttempt (h : s.Inv) (ev : SendEvent) (ha : s.attempts[level ev]? = some a) :
    (s.stepAttempt a ev).Inv := by
  cases ev with
  | callback level report =>
    change s.attempts[level]? = some a at ha
    dsimp only [UdpSend.stepAttempt]
    split_ifs with hwaiting
    · cases report with
      | success =>
        exact h.finish ha _ (List.pairwise_singleton _ _) (by simp) (by simp) (by simp) (Or.inl rfl)
          (fun _ => by simp)
      | retriable => exact h.sendFailed ha hwaiting _ _
      | fatal => exact h.sendFailed ha hwaiting _ _
    · exact h
  | backoffTimer level =>
    change s.attempts[level]? = some a at ha
    dsimp only [UdpSend.stepAttempt]
    split_ifs with hback
    · exact h.quiet ha (fun _ => Or.inr (Or.inl hback)) (fun _ => h.waits ha (Or.inl hback)) id
    · exact h
  | wake level throws =>
    change s.attempts[level]? = some a at ha
    dsimp only [UdpSend.stepAttempt]
    split_ifs with hwoken haborted
    · have hnext := h.finish ha .rejected (l := []) List.Pairwise.nil (by simp)
        (by simp) (by simp) (Or.inl rfl) (fun heq => nomatch heq)
      rwa [List.append_nil] at hnext
    · exact h.wake ha hwoken (Bool.eq_false_iff.2 haborted) throws
    · exact h
  | timeoutTimer level =>
    change s.attempts[level]? = some a at ha
    dsimp only [UdpSend.stepAttempt]
    split_ifs with harmed
    · refine h.update ha id (fun hw => h.waits ha hw) (fun _ => rfl) (List.pairwise_singleton _ _)
        (by simp) (Or.inl rfl) (fun hres => Or.inl ?_) (by simp)
      exact hres.imp id (Or.imp resolved_race_or id)
    · exact h
  | raceSettled level =>
    change s.attempts[level]? = some a at ha
    dsimp only [UdpSend.stepAttempt]
    split
    next settlement hrace _ => exact h.raceSettled ha hrace _
    next => exact h
  | retrySettled level =>
    change s.attempts[level]? = some a at ha
    dsimp only [UdpSend.stepAttempt]
    split
    next settlement _ hreturned =>
      have hnext := h.finish ha settlement (l := []) List.Pairwise.nil (by simp)
        (by simp) (by simp) (Or.inl rfl) (fun heq => ?_)
      · rwa [List.append_nil] at hnext
      · obtain ⟨next, hnext, hres⟩ := Option.bind_eq_some_iff.1 hreturned
        subst heq
        exact List.mem_append_left _
          (h.success next (List.mem_of_getElem? hnext) (Or.inr (Or.inr hres)))
    next => exact h

theorem Inv.step (h : s.Inv) (ev : SendEvent) : (s.step ev).Inv := by
  unfold UdpSend.step
  split
  next a ha => exact h.stepAttempt ev ha
  next => exact h

end Kept

theorem inv_run (retryCount : ℕ) (throws : Bool) (es : List SendEvent) :
    (run step (udpSendAsync retryCount throws) es).Inv :=
  run_invariant (fun _ ev h => h.step ev) (inv_udpSendAsync retryCount throws) es

theorem Inv.length_le {s : UdpSend} (h : s.Inv) : s.attempts.length ≤ UDP_RETRY_MAX + 1 := by
  by_contra hlong
  have := h.budget (i := s.attempts.length - 2) (by omega)
  omega

/-- **A datagram is sent within bounds.** Whatever the socket answers, and in whatever order its
callbacks, the back-off timers and the timeouts come: the socket is called at most
`UDP_RETRY_MAX + 1` times, after a timeout neither the socket nor `onError` is called, `onError` is
called at most once, and the promise of the caller resolves only if the socket has reported a
success. -/
theorem bounded_send (retryCount : ℕ) (throws : Bool) (es : List SendEvent) :
    let log := (run step (udpSendAsync retryCount throws) es).log
    log.count .send ≤ UDP_RETRY_MAX + 1 ∧
    (∀ before after, log = before ++ .timedOut :: after →
      .send ∉ after ∧ ∀ retryCount, .onError retryCount ∉ after) ∧
    log.countP SendHappening.isOnError ≤ 1 ∧
    (.settled .resolved ∈ log → .reported .success ∈ log) := by
  have h := inv_run retryCount throws es
  refine ⟨h.sends ▸ h.length_le, fun before after hlog => ?_, ?_, h.settled⟩
  · have horder := h.order
    rw [hlog] at horder
    have hafter := (List.pairwise_cons.1 (List.pairwise_append.1 horder).2.1).1
    exact ⟨fun hsend => (hafter _ hsend rfl).1 rfl,
      fun retryCount herror => nomatch (hafter _ herror rfl).2⟩
  · rcases h.errors with hzero | ⟨hone, -⟩
    · rw [hzero]
      exact Nat.zero_le 1
    · exact Nat.le_of_eq hone

/-- A success of the second attempt comes back to the caller through both. -/
example : (run step (udpSendAsync 0 false)
    [.callback 0 .retriable, .backoffTimer 0, .wake 0 false, .callback 1 .success, .raceSettled 1,
      .retrySettled 0, .raceSettled 0]).log =
    [.send, .reported .retriable, .onRetry 1, .send, .reported .success, .settled .resolved] := by
  decide

end UdpSend

end EdgeLink
