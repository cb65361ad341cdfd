import EdgeLink.Foundations.FixedWindow
import EdgeLink.Server.Context

/-!
# The limit for addresses without a session

`preAuthRateLimited` of `reliable-server/context.ts` over whole runs. It keeps a fixed window for
every address, and forgets those that are over once there are too many.

* `preAuth_limited`: what the limit promises for every address, and how large the table can get.
-/

namespace EdgeLink

namespace PreAuth

/-- A packet without a session: when it arrives, and from which address. -/
abbrev Arrival := Time × String

def step (ctx : ServerContext) (e : Arrival) : ServerContext := (preAuthRateLimited ctx e.1 e.2).1

def allows (ctx : ServerContext) (e : Arrival) : Bool := !(preAuthRateLimited ctx e.1 e.2).2

/-- The window of an address; what is counted beyond the limit makes no difference. -/
def window (ctx : ServerContext) (address : String) : Option Window :=
  (ctx.preAuthByIp.get? address).map fun e =>
    ⟨min e.1 UDP_RATE_LIMIT_MAX_PACKETS, e.2 + UDP_RATE_LIMIT_WINDOW⟩

section Table

variable {ctx : ServerContext} {now : Time} {address a : String}

/-- The table before the packet is counted. -/
def opened (ctx : ServerContext) (now : Time) (address : String) : OrderedMap String (ℕ × Time) :=
  let byIp := ctx.preAuthByIp.set address (0, now)
  if MAX_CLIENT_SESSIONS * 4 < byIp.size then
    byIp.filter fun _ e => decide (now - e.2 < UDP_RATE_LIMIT_WINDOW)
  else byIp

theorem opened_self : (opened ctx now address).get? address = some (0, now) := by
  rw [opened]
  split_ifs
  · rw [OrderedMap.get?_filter, OrderedMap.get?_set_self]
    simp [UDP_RATE_LIMIT_WINDOW]
  · exact OrderedMap.get?_set_self ..

/-- Of another address, a window that is over may have been forgotten. -/
theorem opened_others (h : a ≠ address) :
    (opened ctx now address).get? a = ctx.preAuthByIp.get? a ∨
      ((opened ctx now address).get? a = none ∧
        ∀ e, ctx.preAuthByIp.get? a = some e → e.2 + UDP_RATE_LIMIT_WINDOW ≤ now) := by
  rw [opened]
  split_ifs
  · rw [OrderedMap.get?_filter, OrderedMap.get?_set_of_ne _ h]
    cases ctx.preAuthByIp.get? a with
    | none => exact Or.inl rfl
    | some e =>
      by_cases hopen : now - e.2 < UDP_RATE_LIMIT_WINDOW
      · exact Or.inl (by simp [hopen])
      · refine Or.inr ⟨by simp [not_lt.1 hopen], fun e' he' => ?_⟩
        obtain rfl := Option.some.inj he'
        linarith
  · exact Or.inl (OrderedMap.get?_set_of_ne _ h _)

/-- **One packet**: its address opens a window, or is counted in the one it has. -/
theorem preAuthRateLimited_cases (ctx : ServerContext) (now : Time) (address : String) :
    ((∀ e, ctx.preAuthByIp.get? address = some e → e.2 + UDP_RATE_LIMIT_WINDOW ≤ now) ∧
      (preAuthRateLimited ctx now address).2 = false ∧
      (preAuthRateLimited ctx now address).1.preAuthByIp =
        (opened ctx now address).set address (1, now)) ∨
    ∃ count start, ctx.preAuthByIp.get? address = some (count, start) ∧
      now < start + UDP_RATE_LIMIT_WINDOW ∧
      (preAuthRateLimited ctx now address).2 = decide (UDP_RATE_LIMIT_MAX_PACKETS < count + 1) ∧
      (preAuthRateLimited ctx now address).1.preAuthByIp =
        ctx.preAuthByIp.set address (count + 1, start) := by
  have hfresh : ∀ b : Bool, b = true →
      (if b = true then (if MAX_CLIENT_SESSIONS * 4 < (ctx.preAuthByIp.set address (0, now)).size then
          (ctx.preAuthByIp.set address (0, now)).filter fun _ e =>
            decide (now - e.2 < UDP_RATE_LIMIT_WINDOW)
        else ctx.preAuthByIp.set address (0, now)) else ctx.preAuthByIp) = opened ctx now address :=
    fun b hb => if_pos hb
  rw [preAuthRateLimited]
  dsimp only
  cases hget : ctx.preAuthByIp.get? address with
  | none =>
    left
    dsimp only
    rw [hfresh true rfl, opened_self]
    exact ⟨fun e he => (by cases he), rfl, rfl⟩
  | some e =>
    obtain ⟨count, start⟩ := e
    dsimp only
    by_cases hover : UDP_RATE_LIMIT_WINDOW ≤ now - start
    · left
      rw [hfresh _ (decide_eq_true hover), opened_self]
      refine ⟨fun e he => ?_, rfl, rfl⟩
      obtain rfl := Option.some.inj he
      linarith
    · right
      rw [if_neg (by simpa using hover), hget]
      exact ⟨count, start, rfl, by linarith, rfl, rfl⟩

/-- The limit as a table of windows. -/
def table : WindowTable ServerContext String Arrival UDP_RATE_LIMIT_WINDOW
    UDP_RATE_LIMIT_MAX_PACKETS where
  step := step
  now := Prod.fst
  key e := some e.2
  window := window
  allows := allows
  served ctx e a hkey := by
    obtain rfl := Option.some.inj hkey
    rcases preAuthRateLimited_cases ctx e.1 e.2 with ⟨hover, hlimited, hmap⟩ |
      ⟨count, start, hget, hopen, hlimited, hmap⟩
    · have hw : ∀ x, window ctx e.2 = some x → x.reset ≤ e.1 := by
        intro x hx
        obtain ⟨entry, hentry, rfl⟩ := Option.map_eq_some_iff.1 hx
        exact hover entry hentry
      obtain ⟨hoffer, hallows⟩ :=
        Window.offer_of_over UDP_RATE_LIMIT_WINDOW UDP_RATE_LIMIT_MAX_PACKETS hw
      refine ⟨by rw [allows, hlimited, hallows]; rfl, Or.inl ?_⟩
      rw [hoffer, step, window, hmap, OrderedMap.get?_set_self]
      rfl
    · have hw : window ctx e.2 =
          some ⟨min count UDP_RATE_LIMIT_MAX_PACKETS, start + UDP_RATE_LIMIT_WINDOW⟩ := by
        rw [window, hget]
        rfl
      refine ⟨?_, Or.inl ?_⟩
      · rw [allows, hlimited, hw, Window.allows, Bool.eq_iff_iff]
        simp only [Bool.not_eq_true', Bool.or_eq_true, decide_eq_true_eq, decide_eq_false_iff_not,
          not_le.2 hopen, false_or, min_lt_iff, lt_irrefl, or_false]
        omega
      · rw [hw, step, window, hmap, OrderedMap.get?_set_self, Window.offer, if_pos hopen]
        simp only [Option.map_some, Option.some.injEq, Window.mk.injEq, and_true]
        split_ifs <;> omega
  others ctx e a hkey := by
    have hne : a ≠ e.2 := fun heq => hkey (heq ▸ rfl)
    rcases preAuthRateLimited_cases ctx e.1 e.2 with ⟨-, -, hmap⟩ | ⟨count, start, -, -, -, hmap⟩
    · rw [step, window, window, hmap, OrderedMap.get?_set_of_ne _ hne]
      rcases opened_others hne with hsame | ⟨hnone, hover⟩
      · exact Or.inl (by rw [hsame])
      · refine Or.inr ⟨fun x hx => by simp [hnone] at hx, fun x hx => ?_⟩
        obtain ⟨entry, hentry, rfl⟩ := Option.map_eq_some_iff.1 hx
        exact hover entry hentry
    · rw [step, window, window, hmap, OrderedMap.get?_set_of_ne _ hne]
      exact Window.Alike.refl _ _

/-! ## The size of the table -/

/-- The table holds addresses that have sent packets, each with the time at which one of them opened
its window, and is small, or all its windows were opened in one second, the one before some packet.
-/
def Bounded (byIp : OrderedMap String (ℕ × Time)) (es : List Arrival) : Prop :=
  (∀ a e, byIp.get? a = some e → (e.2, a) ∈ es) ∧
    (byIp.size ≤ MAX_CLIENT_SESSIONS * 4 ∨ ∃ now ∈ es.map Prod.fst,
      ∀ a e, byIp.get? a = some e → e.2 ≤ now ∧ now < e.2 + UDP_RATE_LIMIT_WINDOW)

variable {byIp : OrderedMap String (ℕ × Time)} {es : List Arrival}

theorem Bounded.append (h : Bounded byIp es) (e : Arrival) : Bounded byIp (es ++ [e]) := by
  obtain ⟨hmem, hsize⟩ := h
  refine ⟨fun a e he => List.mem_append_left _ (hmem a e he), hsize.imp id ?_⟩
  rintro ⟨now, hnow, hrecent⟩
  exact ⟨now, by simp [List.mem_map.1 hnow], hrecent⟩

/-- Counting a packet in a window changes neither the addresses nor when the windows opened. -/
theorem Bounded.recount (h : Bounded byIp es) {count count' : ℕ} {start : Time}
    (hget : byIp.get? address = some (count, start)) :
    Bounded (byIp.set address (count', start)) es := by
  obtain ⟨hmem, hsize⟩ := h
  have hold : ∀ a entry, (byIp.set address (count', start)).get? a = some entry →
      ∃ entry', byIp.get? a = some entry' ∧ entry'.2 = entry.2 := by
    intro a entry ha
    rw [OrderedMap.get?_set] at ha
    split_ifs at ha with heq
    · obtain rfl := Option.some.inj ha
      exact ⟨(count, start), heq ▸ hget, rfl⟩
    · exact ⟨entry, ha, rfl⟩
  refine ⟨fun a entry ha => ?_, hsize.imp (fun hsize => ?_) ?_⟩
  · obtain ⟨entry', ha', heq⟩ := hold a entry ha
    exact heq ▸ hmem a entry' ha'
  · rw [OrderedMap.size_set, if_neg (by simp [hget])]
    exact hsize
  · rintro ⟨now, hnow, hrecent⟩
    refine ⟨now, hnow, fun a entry ha => ?_⟩
    obtain ⟨entry', ha', heq⟩ := hold a entry ha
    exact heq ▸ hrecent a entry' ha'

theorem Bounded.opened (h : Bounded ctx.preAuthByIp es) (hpast : ∀ x ∈ es, x.1 ≤ now)
    (address : String) : Bounded (opened ctx now address) (es ++ [(now, address)]) := by
  have hset : ∀ a e, (ctx.preAuthByIp.set address (0, now)).get? a = some e →
      (e.2, a) ∈ es ++ [(now, address)] := by
    intro a e he
    rw [OrderedMap.get?_set] at he
    split_ifs at he with heq
    · obtain rfl := Option.some.inj he
      simp [heq]
    · exact List.mem_append_left _ (h.1 a e he)
  have hpast' : ∀ x ∈ es ++ [(now, address)], x.1 ≤ now :=
    List.forall_mem_append.2 ⟨hpast, List.forall_mem_singleton.2 le_rfl⟩
  rw [PreAuth.opened]
  split_ifs with hsize
  · refine ⟨fun a e he => ?_, Or.inr ⟨now, by simp, fun a e he => ?_⟩⟩ <;>
      rw [OrderedMap.get?_filter, Option.filter_eq_some_iff] at he
    · exact hset a e he.1
    · have hopen : now - e.2 < UDP_RATE_LIMIT_WINDOW := of_decide_eq_true he.2
      exact ⟨hpast' _ (hset a e he.1), by linarith⟩
  · exact ⟨hset, Or.inl (not_lt.1 hsize)⟩

theorem Bounded.step {e : Arrival} (h : Bounded ctx.preAuthByIp es) (hpast : ∀ x ∈ es, x.1 ≤ e.1) :
    Bounded (PreAuth.step ctx e).preAuthByIp (es ++ [e]) := by
  rw [PreAuth.step]
  rcases preAuthRateLimited_cases ctx e.1 e.2 with ⟨-, -, hmap⟩ | ⟨count, start, hget, -, -, hmap⟩
  · rw [hmap]
    exact (h.opened hpast e.2).recount opened_self
  · rw [hmap]
    exact (h.append e).recount hget

/-- **The table in a run.** -/
theorem Bounded.run {past : List Arrival} (h : Bounded ctx.preAuthByIp past)
    (hclock : ((past ++ es).map Prod.fst).Pairwise (· ≤ ·)) :
    Bounded (run PreAuth.step ctx es).preAuthByIp (past ++ es) := by
  induction es generalizing ctx past with
  | nil => simpa using h
  | cons e es ih =>
    rw [List.append_cons] at hclock ⊢
    rw [run_cons]
    refine ih (h.step fun x hx => ?_) hclock
    -- the packet comes after those that have been counted
    rw [List.map_append, List.map_append, List.append_assoc] at hclock
    exact (List.pairwise_append.1 hclock).2.2 _ (List.mem_map_of_mem hx) _ (by simp)

end Table

/-- **The limit for addresses without a session.** While the clock does not go back, for every
address: what is let through depends on its own packets alone, in no second are 400 let through, and
a packet is dropped only when 200 have been let through in the second before. The table holds
addresses that have sent packets, and never more than 400 of them, unless all their windows were
opened in the second before some packet. -/
theorem preAuth_limited {es : List Arrival} (hclock : (es.map Prod.fst).Pairwise (· ≤ ·))
    {ctx : ServerContext} (hctx : ctx.preAuthByIp = OrderedMap.empty) (address : String) :
    table.granted address ctx es = table.granted address ctx (es.filter fun e => e.2 = address) ∧
      (∀ t, (table.granted address ctx es).countP
        (fun x => t ≤ x ∧ x < t + UDP_RATE_LIMIT_WINDOW) < 2 * UDP_RATE_LIMIT_MAX_PACKETS) ∧
      (∀ before now after, es = before ++ (now, address) :: after →
        (preAuthRateLimited (run step ctx before) now address).2 = true →
        UDP_RATE_LIMIT_MAX_PACKETS ≤ (table.granted address ctx before).countP
          (fun x => now - UDP_RATE_LIMIT_WINDOW < x ∧ x ≤ now)) ∧
      Bounded (run step ctx es).preAuthByIp es := by
  have hnone : table.window ctx address = none := by
    show window ctx address = none
    rw [window, hctx]
    rfl
  refine ⟨?_, fun t => ?_, ?_, ?_⟩
  · rw [table.granted_filter hnone hclock]
    congr 1
    exact List.filter_congr fun e _ => by simp [table]
  · exact lt_of_le_of_lt (WindowTable.countP_granted_le (by decide) hnone hclock t) (by decide)
  · rintro before now after rfl hlimited
    rw [List.append_cons, List.map_append] at hclock
    refine table.limit_le_countP (e := (now, address)) hnone
      (List.pairwise_append.1 hclock).1 rfl ?_
    show allows (run step ctx before) (now, address) = false
    rw [allows, hlimited]
    rfl
  · have hempty : Bounded ctx.preAuthByIp [] := by
      rw [hctx]
      exact ⟨fun a e he => (by cases he), Or.inl (Nat.zero_le _)⟩
    exact hempty.run hclock

theorem preAuth_limited_twoAddresses :
    (table.granted "10.0.0.1" createServerContext
      [(0, "10.0.0.1"), (5, "10.0.0.2"), (1200, "10.0.0.1")]).countP
        (fun x => 300 ≤ x ∧ x < 300 + UDP_RATE_LIMIT_WINDOW) < 2 * UDP_RATE_LIMIT_MAX_PACKETS :=
  (preAuth_limited (by decide) rfl "10.0.0.1").2.1 300

end PreAuth

end EdgeLink
