import EdgeLink.Foundations.Run
import Mathlib.Data.List.Pairwise
import Mathlib.Algebra.Order.Group.Int

/-!
# Fixed windows

A limit on how often something may happen: the first request opens a window of a fixed length, in
which a fixed number of requests are granted, and the first request after its end opens the next.

* `Window.countP_le`: in no interval as long as a window are twice as many granted as in one window.
  This many less one can be.
* `Window.limit_le_countP`: where a request is refused, as many as the limit have been granted in
  the time of one window before it.
* `WindowTable`: a component that keeps a window for every key, and may forget one that is over.
  `granted_eq` says that it serves each key as if there were no other.
-/

namespace EdgeLink

/-- What has been granted in a window, and when it is over. -/
structure Window where
  count : ℕ
  reset : ℤ
  deriving DecidableEq

namespace Window

variable (length : ℤ) (limit : ℕ)

/-- Whether a request is granted. -/
def allows (w : Option Window) (now : ℤ) : Bool :=
  match w with
  | some w => decide (w.reset ≤ now) || decide (w.count < limit)
  | none => true

/-- The window after a request. -/
def offer (w : Option Window) (now : ℤ) : Option Window :=
  match w with
  | some w =>
    if now < w.reset then some { w with count := if w.count < limit then w.count + 1 else w.count }
    else some ⟨1, now + length⟩
  | none => some ⟨1, now + length⟩

/-- The time of a request that is granted. -/
def grant (w : Option Window) (now : ℤ) : List ℤ := if allows limit w now then [now] else []

/-- The times at which requests are granted. -/
def granted (w : Option Window) (times : List ℤ) : List ℤ :=
  trace (offer length limit) (grant limit) w times

section Bounds

variable {length : ℤ} {limit : ℕ} {w : Option Window} {times : List ℤ} {t now : ℤ}

theorem granted_cons : granted length limit w (now :: times) =
    grant limit w now ++ granted length limit (offer length limit w now) times := rfl

theorem grant_sublist : (grant limit w now).Sublist [now] := by
  rw [grant]
  split_ifs <;> simp

theorem granted_sublist : (granted length limit w times).Sublist times := by
  induction times generalizing w with
  | nil => exact List.Sublist.slnil
  | cons now times ih => exact grant_sublist.append ih

/-- Nothing is granted in an interval that is over. -/
theorem countP_granted_of_le (h : ∀ x ∈ times, t + length ≤ x) :
    (granted length limit w times).countP (fun x => t ≤ x ∧ x < t + length) = 0 := by
  refine List.countP_eq_zero.2 fun x hx => ?_
  have hle := h x (granted_sublist.subset hx)
  simp only [decide_eq_true_eq]
  omega

/-- In a window that lasts to the end of an interval, what is left of the window is granted. -/
theorem countP_granted_covered {c : ℕ} {r : ℤ} (hr : t + length ≤ r)
    (hsorted : times.Pairwise (· ≤ ·)) :
    (granted length limit (some ⟨c, r⟩) times).countP (fun x => t ≤ x ∧ x < t + length) ≤
      limit - c := by
  induction times generalizing c with
  | nil => exact Nat.zero_le _
  | cons now times ih =>
    obtain ⟨hnow, hsorted⟩ := List.pairwise_cons.1 hsorted
    by_cases hend : now < r
    · by_cases hc : c < limit
      · rw [granted_cons, offer, if_pos hend, if_pos hc, List.countP_append]
        dsimp only
        have hrest := ih (c := c + 1) hsorted
        have hone := List.countP_le_length (p := fun x : ℤ => decide (t ≤ x ∧ x < t + length))
          (l := grant limit (some ⟨c, r⟩) now)
        have hlen : (grant limit (some ⟨c, r⟩) now).length ≤ 1 := grant_sublist.length_le
        omega
      · have hnone : grant limit (some ⟨c, r⟩) now = [] := by simp [grant, allows, hc, hend]
        rw [granted_cons, offer, if_pos hend, if_neg hc, hnone, List.nil_append]
        exact ih hsorted
    · rw [countP_granted_of_le]
      · exact Nat.zero_le _
      · refine List.forall_mem_cons.2 ⟨by omega, fun x hx => ?_⟩
        have hle := hnow x hx
        omega

/-- What a window may still grant. -/
def room (limit : ℕ) : Option Window → ℕ
  | some w => limit - w.count
  | none => 0

theorem countP_granted_from (hlimit : 0 < limit) (htimes : ∀ x ∈ times, t ≤ x)
    (hsorted : times.Pairwise (· ≤ ·)) :
    (granted length limit w times).countP (fun x => t ≤ x ∧ x < t + length) ≤
      room limit w + limit := by
  induction times generalizing w with
  | nil => exact Nat.zero_le _
  | cons now times ih =>
    obtain ⟨hnow, htimes⟩ := List.forall_mem_cons.1 htimes
    obtain ⟨-, hsorted'⟩ := List.pairwise_cons.1 hsorted
    have hlen : (grant limit w now).length ≤ 1 := grant_sublist.length_le
    have hone := List.countP_le_length (p := fun x : ℤ => decide (t ≤ x ∧ x < t + length))
      (l := grant limit w now)
    rw [granted_cons, List.countP_append]
    -- a window that opens now lasts to the end of the interval
    have hopens : (granted length limit (some ⟨1, now + length⟩) times).countP
        (fun x => t ≤ x ∧ x < t + length) ≤ limit - 1 :=
      countP_granted_covered (by omega) hsorted'
    cases w with
    | none =>
      rw [offer]
      omega
    | some w =>
      by_cases hend : now < w.reset
      · rw [offer, if_pos hend]
        have hrest := ih (w := some { w with
          count := if w.count < limit then w.count + 1 else w.count }) htimes hsorted'
        by_cases hc : w.count < limit
        · rw [if_pos hc] at hrest ⊢
          simp only [room] at hrest ⊢
          omega
        · rw [if_neg hc] at hrest ⊢
          have hnone : grant limit (some w) now = [] := by simp [grant, allows, hc, hend]
          rw [hnone, List.countP_nil, Nat.zero_add]
          exact hrest
      · rw [offer, if_neg hend]
        omega

/-- **What one interval sees**: less than two windows grant. -/
theorem countP_granted_le (hlimit : 0 < limit) (hw : ∀ w', w = some w' → 0 < w'.count)
    (hsorted : times.Pairwise (· ≤ ·)) :
    (granted length limit w times).countP (fun x => t ≤ x ∧ x < t + length) ≤ 2 * limit - 1 := by
  induction times generalizing w with
  | nil => exact Nat.zero_le _
  | cons now times ih =>
    by_cases hnow : t ≤ now
    · have hall : ∀ x ∈ now :: times, t ≤ x := List.forall_mem_cons.2
        ⟨hnow, fun x hx => hnow.trans ((List.pairwise_cons.1 hsorted).1 x hx)⟩
      have hle : (granted length limit w (now :: times)).countP
          (fun x => t ≤ x ∧ x < t + length) ≤ room limit w + limit :=
        countP_granted_from hlimit hall hsorted
      have hroom : room limit w ≤ limit - 1 := by
        cases w with
        | none => exact Nat.zero_le _
        | some w' =>
          have hpos := hw w' rfl
          rw [room]
          omega
      omega
    · have hnone : (grant limit w now).countP (fun x => t ≤ x ∧ x < t + length) = 0 := by
        refine List.countP_eq_zero.2 fun x hx => ?_
        obtain rfl := List.mem_singleton.1 (grant_sublist.subset hx)
        simp [hnow]
      rw [granted_cons, List.countP_append, hnone, Nat.zero_add]
      refine ih (fun w' hw' => ?_) (List.pairwise_cons.1 hsorted).2
      cases w with
      | none =>
        obtain rfl := Option.some.inj hw'
        exact Nat.one_pos
      | some w'' =>
        have hpos := hw w'' rfl
        rw [offer] at hw'
        split_ifs at hw' <;> obtain rfl := Option.some.inj hw'
        · exact Nat.succ_pos _
        · exact hpos
        · exact Nat.one_pos

/-- The bound is reached around the end of a window. -/
example : (granted 10 2 none [0, 9, 10, 11]).countP (fun x => 9 ≤ x ∧ x < 9 + 10) = 3 := by decide

/-- What a window has counted has been granted since it opened. -/
def Earned (length : ℤ) (w : Option Window) (past : List ℤ) (now : ℤ) : Prop :=
  ∀ c r, w = some ⟨c, r⟩ → c ≤ past.countP (fun x => r - length ≤ x) ∧ r ≤ now + length

theorem Earned.offer {past : List ℤ} {last : ℤ} (h : Earned length w past last) (limit : ℕ)
    (hle : last ≤ now) :
    Earned length (offer length limit w now) (past ++ grant limit w now) now := by
  intro c r hc
  have hopens : allows limit w now = true → some (Window.mk 1 (now + length)) = some ⟨c, r⟩ →
      c ≤ (past ++ grant limit w now).countP (fun x => r - length ≤ x) ∧ r ≤ now + length := by
    intro hallows heq
    obtain ⟨rfl, rfl⟩ := Window.mk.inj (Option.some.inj heq)
    refine ⟨?_, le_rfl⟩
    rw [grant, if_pos hallows, List.countP_append, List.countP_singleton]
    simp
  cases w with
  | none => exact hopens rfl hc
  | some w =>
    rw [Window.offer] at hc
    split_ifs at hc with hend hcount
    · obtain ⟨rfl, rfl⟩ := Window.mk.inj (Option.some.inj hc)
      obtain ⟨hpast, hr⟩ := h w.count w.reset rfl
      have hgrant : grant limit (some w) now = [now] := by simp [grant, allows, hcount]
      have hsince : w.reset - length ≤ now := by omega
      rw [hgrant, List.countP_append, List.countP_singleton, if_pos (by simpa using hsince)]
      exact ⟨by omega, by omega⟩
    · obtain ⟨rfl, rfl⟩ := Window.mk.inj (Option.some.inj hc)
      obtain ⟨hpast, hr⟩ := h w.count w.reset rfl
      rw [List.countP_append]
      exact ⟨by omega, by omega⟩
    · exact hopens (by simp [allows, not_lt.1 hend]) hc

theorem Earned.run {past : List ℤ} {last : ℤ} (h : Earned length w past last)
    (hlast : ∀ x ∈ times, last ≤ x) (hsorted : times.Pairwise (· ≤ ·)) (hend : ∀ x ∈ times, x ≤ now)
    (hle : last ≤ now) :
    Earned length (EdgeLink.run (Window.offer length limit) w times)
      (past ++ granted length limit w times) now := by
  induction times generalizing w past last with
  | nil =>
    intro c r hc
    obtain ⟨hpast, hr⟩ := h c r hc
    rw [granted, trace, List.append_nil]
    exact ⟨hpast, by omega⟩
  | cons x times ih =>
    obtain ⟨hx, hsorted⟩ := List.pairwise_cons.1 hsorted
    obtain ⟨hxnow, hend⟩ := List.forall_mem_cons.1 hend
    have hstep := h.offer limit (hlast x List.mem_cons_self)
    have hrest := ih hstep hx hsorted hend hxnow
    rwa [List.append_assoc] at hrest

/-- **A request is refused for a reason.** -/
theorem limit_le_countP (hsorted : (times ++ [now]).Pairwise (· ≤ ·))
    (hrefused : allows limit (EdgeLink.run (offer length limit) none times) now = false) :
    limit ≤ (granted length limit none times).countP (fun x => now - length < x ∧ x ≤ now) := by
  obtain ⟨hsorted, -, hend⟩ := List.pairwise_append.1 hsorted
  replace hend : ∀ x ∈ times, x ≤ now := fun x hx => hend x hx now (List.mem_singleton_self _)
  have hearned : Earned length (EdgeLink.run (offer length limit) none times)
      (granted length limit none times) now := by
    cases times with
    | nil => exact fun c r hc => by cases hc
    | cons x times =>
      have hnone : Earned length none [] x := fun c r hc => by cases hc
      refine hnone.run (List.forall_mem_cons.2 ⟨le_rfl, (List.pairwise_cons.1 hsorted).1⟩) hsorted
        hend (hend x List.mem_cons_self)
  cases hw : EdgeLink.run (offer length limit) none times with
  | none =>
    rw [hw] at hrefused
    cases hrefused
  | some w =>
    obtain ⟨hcount, -⟩ := hearned w.count w.reset hw
    rw [hw] at hrefused
    simp only [allows, Bool.or_eq_false_iff, decide_eq_false_iff_not, not_le, not_lt] at hrefused
    refine hrefused.2.trans (hcount.trans (List.countP_mono_left fun x hx hxr => ?_))
    have hxnow := hend x (granted_sublist.subset hx)
    simp only [decide_eq_true_eq] at hxr ⊢
    omega

end Bounds

/-! ## Windows that are over -/

/-- Windows that serve every request from now on alike. -/
def Alike (now : ℤ) (w w' : Option Window) : Prop :=
  w = w' ∨ ((∀ x, w = some x → x.reset ≤ now) ∧ ∀ x, w' = some x → x.reset ≤ now)

section Alike

variable {now now' : ℤ} {w w' w'' : Option Window}

theorem Alike.refl (now : ℤ) (w : Option Window) : Alike now w w := Or.inl rfl

theorem Alike.mono (h : Alike now w w') (hle : now ≤ now') : Alike now' w w' :=
  h.imp id fun hover => ⟨fun x hx => (hover.1 x hx).trans hle, fun x hx => (hover.2 x hx).trans hle⟩

theorem Alike.trans (h : Alike now w w') (h' : Alike now w' w'') : Alike now w w'' := by
  rcases h with rfl | ⟨hw, hw'⟩
  · exact h'
  · rcases h' with rfl | ⟨-, hw''⟩
    · exact Or.inr ⟨hw, hw'⟩
    · exact Or.inr ⟨hw, hw''⟩

theorem offer_of_over (length : ℤ) (limit : ℕ) (h : ∀ x, w = some x → x.reset ≤ now) :
    offer length limit w now = some ⟨1, now + length⟩ ∧ allows limit w now = true := by
  cases w with
  | none => exact ⟨rfl, rfl⟩
  | some x =>
    have hx := h x rfl
    exact ⟨if_neg (not_lt.2 hx), by simp [allows, hx]⟩

/-- Windows that are alike are the same after a request. -/
theorem Alike.offer (h : Alike now w w') (length : ℤ) (limit : ℕ) :
    offer length limit w now = offer length limit w' now ∧ allows limit w now = allows limit w' now := by
  rcases h with rfl | ⟨hw, hw'⟩
  · exact ⟨rfl, rfl⟩
  · obtain ⟨ho, ha⟩ := offer_of_over length limit hw
    obtain ⟨ho', ha'⟩ := offer_of_over length limit hw'
    exact ⟨ho.trans ho'.symm, ha.trans ha'.symm⟩

end Alike

end Window

/-! ## Tables of windows -/

/-- A component that keeps a window for every key: a request is served by the window of its key, and
otherwise a window stays what it is, or is over and forgotten. -/
structure WindowTable (σ κ ε : Type*) (length : ℤ) (limit : ℕ) where
  step : σ → ε → σ
  now : ε → ℤ
  /-- the key of a request -/
  key : ε → Option κ
  window : σ → κ → Option Window
  allows : σ → ε → Bool
  served : ∀ s e k, key e = some k → allows s e = Window.allows limit (window s k) (now e) ∧
    Window.Alike (now e) (window (step s e) k) (Window.offer length limit (window s k) (now e))
  others : ∀ s e k, key e ≠ some k → Window.Alike (now e) (window (step s e) k) (window s k)

namespace WindowTable

variable {σ κ ε : Type*} [DecidableEq κ] {length : ℤ} {limit : ℕ}
  (T : WindowTable σ κ ε length limit)

/-- The times at which requests for a key are made. -/
def times (k : κ) (es : List ε) : List ℤ := (es.filter fun e => T.key e = some k).map T.now

/-- The times at which requests for a key are granted. -/
def granted (k : κ) (s : σ) (es : List ε) : List ℤ :=
  trace T.step (fun s e => if T.key e = some k ∧ T.allows s e = true then [T.now e] else []) s es

variable {T} {k : κ} {s : σ} {es : List ε} {w : Option Window} {t : ℤ}

/-- **Every key is served as if there were no other**, whatever windows are forgotten. -/
theorem granted_run (hw : Window.Alike t (T.window s k) w) (ht : ∀ e ∈ es, t ≤ T.now e)
    (hsorted : (es.map T.now).Pairwise (· ≤ ·)) :
    T.granted k s es = Window.granted length limit w (T.times k es) ∧
      ∀ now, (∀ e ∈ es, T.now e ≤ now) → t ≤ now → Window.Alike now
        (T.window (run T.step s es) k)
        (run (Window.offer length limit) w (T.times k es)) := by
  induction es generalizing s w t with
  | nil => exact ⟨rfl, fun now _ hle => hw.mono hle⟩
  | cons e es ih =>
    obtain ⟨hte, -⟩ := List.forall_mem_cons.1 ht
    rw [List.map_cons, List.pairwise_cons] at hsorted
    obtain ⟨hfirst, hsorted⟩ := hsorted
    have hrest : ∀ e' ∈ es, T.now e ≤ T.now e' := fun e' he' =>
      hfirst _ (List.mem_map_of_mem he')
    by_cases hkey : T.key e = some k
    · obtain ⟨hallows, hstep⟩ := T.served s e k hkey
      obtain ⟨hoffer, hsame⟩ := (hw.mono hte).offer length limit
      rw [hoffer] at hstep
      obtain ⟨hgranted, hend⟩ := ih hstep hrest hsorted
      have htimes : T.times k (e :: es) = T.now e :: T.times k es := by
        simp [times, hkey]
      rw [htimes]
      refine ⟨?_, fun now hnow hle => hend now (fun e' he' => hnow e' (List.mem_cons_of_mem _ he'))
        (hnow e List.mem_cons_self)⟩
      rw [Window.granted_cons, ← hgranted, granted, trace_cons, Window.grant, ← hsame, ← hallows]
      simp [hkey, granted]
    · have hstep := (T.others s e k hkey).trans (hw.mono hte)
      obtain ⟨hgranted, hend⟩ := ih hstep hrest hsorted
      have htimes : T.times k (e :: es) = T.times k es := by simp [times, hkey]
      rw [htimes, ← hgranted, granted, trace_cons]
      refine ⟨by simp [hkey, granted], fun now hnow hle => hend now
        (fun e' he' => hnow e' (List.mem_cons_of_mem _ he')) (hnow e List.mem_cons_self)⟩

theorem granted_eq (hs : T.window s k = none) (hsorted : (es.map T.now).Pairwise (· ≤ ·)) :
    T.granted k s es = Window.granted length limit none (T.times k es) ∧
      ∀ now, (∀ e ∈ es, T.now e ≤ now) → Window.Alike now (T.window (run T.step s es) k)
        (run (Window.offer length limit) none (T.times k es)) := by
  cases es with
  | nil => exact ⟨rfl, fun now _ => Or.inl hs⟩
  | cons e es =>
    have hfirst : ∀ e' ∈ e :: es, T.now e ≤ T.now e' := by
      rw [List.map_cons, List.pairwise_cons] at hsorted
      exact List.forall_mem_cons.2 ⟨le_rfl, fun e' he' => hsorted.1 _ (List.mem_map_of_mem he')⟩
    obtain ⟨hgranted, halike⟩ := granted_run (Or.inl hs) hfirst hsorted
    exact ⟨hgranted, fun now hnow => halike now hnow (hnow e List.mem_cons_self)⟩

/-- What is granted to a key depends on its own requests alone. -/
theorem granted_filter (hs : T.window s k = none) (hsorted : (es.map T.now).Pairwise (· ≤ ·)) :
    T.granted k s es = T.granted k s (es.filter fun e => T.key e = some k) := by
  have hsorted' := hsorted.sublist (List.filter_sublist (p := fun e => T.key e = some k).map T.now)
  rw [(granted_eq hs hsorted).1, (granted_eq hs hsorted').1, times, times, List.filter_filter]
  simp

/-- No key is served more often than less than two windows allow, in an interval as long as one. -/
theorem countP_granted_le (hlimit : 0 < limit) (hs : T.window s k = none)
    (hsorted : (es.map T.now).Pairwise (· ≤ ·)) (t : ℤ) :
    (T.granted k s es).countP (fun x => t ≤ x ∧ x < t + length) ≤ 2 * limit - 1 := by
  rw [(granted_eq hs hsorted).1]
  refine Window.countP_granted_le hlimit (fun w' hw' => by cases hw') ?_
  exact (hsorted.sublist (List.filter_sublist.map _))

/-- A request is refused only where its key has been served to the limit. -/
theorem limit_le_countP {e : ε} (hs : T.window s k = none)
    (hsorted : ((es ++ [e]).map T.now).Pairwise (· ≤ ·)) (hkey : T.key e = some k)
    (hrefused : T.allows (run T.step s es) e = false) :
    limit ≤ (T.granted k s es).countP (fun x => T.now e - length < x ∧ x ≤ T.now e) := by
  rw [List.map_append, List.pairwise_append] at hsorted
  obtain ⟨hsorted, -, hlast⟩ := hsorted
  replace hlast : ∀ e' ∈ es, T.now e' ≤ T.now e := fun e' he' =>
    hlast _ (List.mem_map_of_mem he') _ (by simp)
  obtain ⟨hgranted, hend⟩ := granted_eq hs hsorted
  have halike := hend (T.now e) hlast
  rw [hgranted]
  refine Window.limit_le_countP ?_ ?_
  · refine List.pairwise_append.2 ⟨hsorted.sublist (List.filter_sublist.map _), by simp, ?_⟩
    intro x hx y hy
    obtain ⟨e', he', rfl⟩ := List.mem_map.1 hx
    obtain rfl := List.mem_singleton.1 hy
    exact hlast e' (List.mem_of_mem_filter he')
  · have hsame := (halike.offer length limit).2
    rw [← hsame, ← (T.served _ e k hkey).1]
    exact hrefused

end WindowTable

end EdgeLink
