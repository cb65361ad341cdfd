import EdgeLink.App.ConfigFiles
import EdgeLink.Server.CapturedReplay
import Mathlib.Algebra.Order.Floor.Semiring

/-!
# Restarts of a client

`resolveMonotonicEpoch` of `transport/reliability/connection-epoch.ts`, over the link of
`Server.CapturedReplay`. A client keeps its last epoch in a file, and starts with the later of the
clock and the next epoch after the one in the file. The file is a cell, as `configFiles_atomic` has
it: loading or saving it may fail, a start may be given up once the epoch is saved, and a loss of
power may take the file back. A start waits while the file is loaded and while it is saved, and
another one may begin meanwhile, so that two starts can resolve one epoch.

* `Device.step_epochFile`: what a device does to the file is what one does to a cell.
* `Device.restarts_protected`: when restarts raise the epoch, and that captured datagrams then stay
  without effect.
-/

namespace EdgeLink

/-! ## The epoch of a start -/

/-- The epoch that a load finds. -/
def storedEpoch : ConfigFileResult → ℚ
  | .ok data =>
    match data.get "epoch" with
    | .num (.finite v) => if 0 < v then v else 0
    | _ => 0
  | _ => 0

/-- The epoch of a start; `none` stands for a client without a file. -/
def resolveMonotonicEpoch (now : ℚ) : Option ConfigFileResult → ℚ
  | none => now
  | some result => max now (storedEpoch result + 1)

/-- What is saved of an epoch. -/
def epochData (epoch : ℚ) : JsValue := .obj [("epoch", .num (.finite epoch))]

/-- A start that has read the clock and loaded the file. -/
structure PendingStart where
  now : ℕ
  loaded : ConfigFileResult
  /-- its save has returned -/
  saved : Bool

namespace PendingStart

/-- The epoch that the start has found. -/
def stored (p : PendingStart) : ℚ := storedEpoch p.loaded

/-- The epoch that the start resolves. -/
def epoch (p : PendingStart) : ℚ := resolveMonotonicEpoch p.now (some p.loaded)

end PendingStart

/-! ## A device -/

/-- A client on its device, with the server and the network, the file of the epoch, and the starts
that are resolving their epochs. -/
structure Device where
  link : Link
  epochFile : AtomicCell (List Char)
  starts : List PendingStart

inductive DeviceEvent where
  /-- a start reads the clock and loads the file, or cannot -/
  | load (now : ℕ) (loaded : Bool)
  /-- the epoch of a start is saved, or cannot be -/
  | save (i : ℕ) (saved : Bool)
  /-- a start has its epoch, and goes on with a first number or is given up -/
  | leave (i : ℕ) (initialSequence : Option Seq)
  | powerLoss (text : Option (List Char))
  | link (ev : LinkEvent)

namespace Device

variable (cfg : ServerConfig) (home : ℚ → Peer) (format : JsonFormat)

/-- A device that has never started. -/
def new : Device := ⟨Link.new 0 0, ⟨none, [], none⟩, []⟩

/-- What loading the file of the epoch gives. -/
def loadEpoch (d : Device) (loaded : Bool) : ConfigFileResult :=
  if loaded then loadResult format d.epochFile.current else .readError

/-- A start that reads the clock and the file now. -/
def begun (d : Device) (now : ℕ) (loaded : Bool) : PendingStart :=
  ⟨now, d.loadEpoch format loaded, false⟩

/-- The epoch of a start is written to the file. -/
def writeEpoch (d : Device) (p : PendingStart) : AtomicCell (List Char) :=
  { d.epochFile with
    past := d.epochFile.past ++ [format.print (epochData p.epoch)]
    current := some (format.print (epochData p.epoch)) }

def step (d : Device) : DeviceEvent → Device
  | .load now loaded => { d with starts := d.starts ++ [d.begun format now loaded] }
  | .save i saved =>
    match d.starts[i]? with
    | some p =>
      if p.saved then d
      else { d with
        epochFile := if saved then d.writeEpoch format p else d.epochFile
        starts := d.starts.set i { p with saved := true } }
    | none => d
  | .leave i initialSequence =>
    match d.starts[i]? with
    | some p =>
      if p.saved then { d with
        link := match initialSequence with
          | some sequence => d.link.step cfg (.restart ⌊p.epoch⌋₊ sequence)
          | none => d.link
        starts := d.starts.eraseIdx i }
      else d
    | none => d
  | .powerLoss text => { d with epochFile := { d.epochFile with current := text }, starts := [] }
  | .link ev => { d with link := d.link.step cfg ev }

/-- The packets dispatched in a step. -/
def dispatches (d : Device) : DeviceEvent → List PendingData
  | .link ev => d.link.dispatches cfg ev
  | _ => []

/-! ## Conditions -/

/-- What the model asks of a step: numbers stay exact, JSON reads back what it has printed, a loss
of power takes the file back to a text that it has had, and the link does what it is allowed to. -/
def Sane (d : Device) : DeviceEvent → Prop
  | .load now loaded => (d.begun format now loaded).epoch < 2 ^ 53 ∧
      format.Prints (epochData (d.begun format now loaded).epoch)
  | .powerLoss text => d.epochFile.Held text
  | .link (.restart ..) => False
  | .link ev => Allowed cfg home d.link ev
  | _ => True

instance (d : Device) : ∀ e, Decidable (d.Sane cfg home format e)
  | .load .. => inferInstanceAs (Decidable (_ ∧ _))
  | .save .. | .leave .. => isTrue trivial
  | .powerLoss _ => inferInstanceAs (Decidable (AtomicCell.Held _ _))
  | .link (.restart ..) => isFalse id
  | .link (.sendHello ..) | .link (.sendData _) | .link (.deliver ..) | .link (.inside _) =>
    inferInstanceAs (Decidable (Allowed _ _ _ _))

/-- A start that goes on raises the epoch. -/
def Rises (d : Device) : DeviceEvent → Prop
  | .leave i (some _) => ∀ p ∈ d.starts[i]?, p.saved = true → (d.link.epoch : ℚ) < p.epoch
  | _ => True

/-- A start that goes on has a clock that is past the last epoch, or has found that epoch in the
file, or a later one. -/
def Fresh (d : Device) : DeviceEvent → Prop
  | .leave i (some _) => ∀ p ∈ d.starts[i]?, p.saved = true →
      d.link.epoch < p.now ∨ (d.link.epoch : ℚ) ≤ p.stored
  | _ => True

/-- Nothing fails, a loss of power takes nothing back, and no start begins while another one is
resolving its epoch. -/
def Smooth (d : Device) : DeviceEvent → Prop
  | .load _ loaded => loaded = true ∧ d.starts.length = 0
  | .save _ saved => saved = true
  | .powerLoss text => text = d.epochFile.current
  | _ => True

instance (d : Device) : ∀ e, Decidable (d.Smooth e)
  | .load .. => inferInstanceAs (Decidable (_ ∧ _))
  | .save .. => inferInstanceAs (Decidable (_ = _))
  | .powerLoss _ => inferInstanceAs (Decidable (_ = _))
  | .leave .. | .link _ => isTrue trivial

end Device

/-! ## The file -/

section File

variable {cfg : ServerConfig} {home : ℚ → Peer} {format : JsonFormat} {d : Device} {e : DeviceEvent}

/-- What a device does to the file of its epoch. -/
theorem Device.step_epochFile (he : d.Sane cfg home format e) :
    AtomicCell.Step d.epochFile (d.step cfg format e).epochFile := by
  cases e with
  | load now loaded => exact .idle _
  | save i saved =>
    rw [Device.step]
    cases d.starts[i]? with
    | none => exact .idle _
    | some p =>
      dsimp only
      split_ifs
      · exact .idle _
      · exact .write _ _
      · exact .idle _
  | leave i initialSequence =>
    rw [Device.step]
    cases d.starts[i]? with
    | none => exact .idle _
    | some p =>
      dsimp only
      split_ifs <;> exact .idle _
  | powerLoss text => exact .back _ he
  | link ev => exact .idle _

/-- The epoch of a start is a natural number that the file can hold. -/
structure PendingStart.Counted (format : JsonFormat) (p : PendingStart) : Prop where
  count : ∃ n : ℕ, p.stored = n ∧ p.epoch = (max p.now (n + 1) : ℕ)
  exact : p.epoch < 2 ^ 53
  prints : format.Prints (epochData p.epoch)

/-- Every text that the file has had is that of an epoch, and so will be those to come. -/
structure Device.Counted (format : JsonFormat) (d : Device) : Prop where
  held : d.epochFile.Held d.epochFile.current
  initial : d.epochFile.initial = none
  past : ∀ text ∈ d.epochFile.past, ∃ n : ℕ, text = format.print (epochData n) ∧
    format.Prints (epochData n)
  starts : ∀ p ∈ d.starts, p.Counted format

theorem storedEpoch_of_prints {n : ℕ} (hn : format.Prints (epochData n)) :
    storedEpoch (loadResult format (some (format.print (epochData n)))) = n := by
  have hget : (epochData n).stringify.get "epoch" = .num (.finite n) := rfl
  rw [loadResult, ConfigFiles.parseContent, hn.2]
  simp only [storedEpoch, hget]
  split_ifs with hpos
  · rfl
  · exact le_antisymm n.cast_nonneg (not_lt.1 hpos)

/-- What a start saves is what the next one loads. -/
theorem PendingStart.Counted.storedEpoch_eq {p : PendingStart} (h : p.Counted format) :
    storedEpoch (loadResult format (some (format.print (epochData p.epoch)))) = p.epoch := by
  obtain ⟨n, -, hepoch⟩ := h.count
  have hprints := h.prints
  rw [hepoch] at hprints ⊢
  exact storedEpoch_of_prints hprints

theorem PendingStart.Counted.stored_lt {p : PendingStart} (h : p.Counted format) :
    p.stored < p.epoch := by
  obtain ⟨n, hstored, hepoch⟩ := h.count
  rw [hstored, hepoch]
  exact_mod_cast (by omega : n < max p.now (n + 1))

/-- The epoch that a load finds is a natural number. -/
theorem Device.Counted.stored (h : d.Counted format) (loaded : Bool) :
    ∃ n : ℕ, storedEpoch (d.loadEpoch format loaded) = n := by
  cases loaded
  · exact ⟨0, by simp [Device.loadEpoch, storedEpoch]⟩
  · show ∃ n : ℕ, storedEpoch (loadResult format d.epochFile.current) = n
    rcases h.held with hinitial | ⟨text, htext, hcurrent⟩
    · rw [hinitial, h.initial]
      exact ⟨0, by simp [loadResult, storedEpoch]⟩
    · obtain ⟨n, rfl, hn⟩ := h.past text htext
      rw [hcurrent]
      exact ⟨n, storedEpoch_of_prints hn⟩

theorem Device.Counted.begun (h : d.Counted format) {now : ℕ} {loaded : Bool}
    (he : d.Sane cfg home format (.load now loaded)) :
    (d.begun format now loaded).Counted format := by
  refine ⟨?_, he.1, he.2⟩
  obtain ⟨n, hn⟩ := h.stored loaded
  refine ⟨n, hn, ?_⟩
  rw [PendingStart.epoch, resolveMonotonicEpoch, Device.begun, hn]
  push_cast
  rfl

theorem Device.Counted.writeEpoch (h : d.Counted format) {p : PendingStart}
    (hp : p.Counted format) : ∀ text ∈ (d.writeEpoch format p).past,
      ∃ n : ℕ, text = format.print (epochData n) ∧ format.Prints (epochData n) := by
  obtain ⟨n, -, hepoch⟩ := hp.count
  refine List.forall_mem_append.2 ⟨h.past, List.forall_mem_singleton.2 ⟨max p.now (n + 1), ?_⟩⟩
  rw [← hepoch]
  exact ⟨rfl, hp.prints⟩

theorem Device.Counted.step (h : d.Counted format) (he : d.Sane cfg home format e) :
    (d.step cfg format e).Counted format := by
  have hheld := (Device.step_epochFile he).held h.held
  cases e with
  | load now loaded =>
    exact ⟨hheld, h.initial, h.past,
      List.forall_mem_append.2 ⟨h.starts, List.forall_mem_singleton.2 (h.begun he)⟩⟩
  | save i saved =>
    rw [Device.step] at hheld ⊢
    cases hi : d.starts[i]? with
    | none => exact h
    | some p =>
      rw [hi] at hheld
      dsimp only at hheld ⊢
      split_ifs at hheld ⊢ with hsaved hok
      · exact h
      all_goals
        have hp : p.Counted format := h.starts p (List.mem_of_getElem? hi)
        have hstarts : ∀ q ∈ d.starts.set i { p with saved := true }, q.Counted format := by
          intro q hq
          rcases List.mem_or_eq_of_mem_set hq with hq | rfl
          · exact h.starts q hq
          · exact ⟨hp.count, hp.exact, hp.prints⟩
      · exact ⟨hheld, h.initial, h.writeEpoch hp, hstarts⟩
      · exact ⟨hheld, h.initial, h.past, hstarts⟩
  | leave i initialSequence =>
    rw [Device.step] at hheld ⊢
    cases hi : d.starts[i]? with
    | none => exact h
    | some p =>
      dsimp only
      split_ifs
      · exact ⟨h.held, h.initial, h.past, fun q hq => h.starts q (List.mem_of_mem_eraseIdx hq)⟩
      · exact h
  | powerLoss text => exact ⟨hheld, h.initial, h.past, by simp [Device.step]⟩
  | link ev => exact ⟨hheld, h.initial, h.past, h.starts⟩

/-- **When a start raises the epoch.** -/
theorem Device.Counted.rises_iff (h : d.Counted format) : d.Rises e ↔ d.Fresh e := by
  cases e with
  | leave i initialSequence =>
    cases initialSequence with
    | none => exact Iff.rfl
    | some sequence =>
      rw [Device.Rises, Device.Fresh]
      refine forall_congr' fun p => forall_congr' fun hp => forall_congr' fun _ => ?_
      obtain ⟨n, hstored, hepoch⟩ := (h.starts p (List.mem_of_getElem? hp)).count
      rw [hstored, hepoch]
      norm_cast
      omega
  | load now loaded => exact Iff.rfl
  | save i saved => exact Iff.rfl
  | powerLoss text => exact Iff.rfl
  | link ev => exact Iff.rfl

/-- The file holds the last epoch, or a later one, and so does what the one start under way has
loaded; when its save has returned, the file holds its epoch. -/
structure Device.Current (format : JsonFormat) (d : Device) : Prop where
  file : (d.link.epoch : ℚ) ≤ storedEpoch (loadResult format d.epochFile.current)
  single : d.starts.length ≤ 1
  loaded : ∀ p ∈ d.starts, (d.link.epoch : ℚ) ≤ p.stored
  saved : ∀ p ∈ d.starts, p.saved = true →
    storedEpoch (loadResult format d.epochFile.current) = p.epoch

theorem Link.epoch_step {s : Link} {ev : LinkEvent}
    (hev : ∀ epoch sequence, ev ≠ .restart epoch sequence) : (s.step cfg ev).epoch = s.epoch := by
  cases ev with
  | restart epoch sequence => exact absurd rfl (hev epoch sequence)
  | _ => rfl

/-- The one start under way is the first of the list. -/
theorem eq_singleton_of_getElem? {α : Type*} {l : List α} {i : ℕ} {a : α} (hlength : l.length ≤ 1)
    (h : l[i]? = some a) : l = [a] ∧ i = 0 := by
  obtain ⟨hi, hget⟩ := List.getElem?_eq_some_iff.1 h
  obtain rfl : i = 0 := by omega
  obtain ⟨b, rfl⟩ := List.length_eq_one_iff.1 (by omega : l.length = 1)
  obtain rfl : b = a := hget
  exact ⟨rfl, rfl⟩

/-- A start that is under way alone, and goes on, raises the epoch. -/
theorem Device.Current.rises (hcurrent : d.Current format) (h : d.Counted format) : d.Rises e := by
  cases e with
  | leave i initialSequence =>
    cases initialSequence with
    | none => trivial
    | some sequence =>
      intro p hp _
      have hmem : p ∈ d.starts := List.mem_of_getElem? hp
      exact (hcurrent.loaded p hmem).trans_lt (h.starts p hmem).stored_lt
  | load now loaded => trivial
  | save i saved => trivial
  | powerLoss text => trivial
  | link ev => trivial

/-- Where nothing fails, nothing is taken back and starts do not overlap, the file stays current. -/
theorem Device.Counted.smooth (h : d.Counted format) (hcurrent : d.Current format)
    (he : d.Sane cfg home format e) (hsmooth : d.Smooth e) :
    (d.step cfg format e).Current format := by
  cases e with
  | load now loaded =>
    obtain ⟨rfl, hnone⟩ := hsmooth
    have hstarts : d.starts = [] := List.length_eq_zero_iff.1 hnone
    rw [Device.step, hstarts, List.nil_append]
    exact ⟨hcurrent.file, le_rfl, List.forall_mem_singleton.2 hcurrent.file,
      List.forall_mem_singleton.2 fun hsaved => absurd hsaved Bool.false_ne_true⟩
  | save i saved =>
    obtain rfl := hsmooth
    rw [Device.step]
    cases hi : d.starts[i]? with
    | none => exact hcurrent
    | some p =>
      dsimp only
      rw [if_pos rfl]
      split_ifs
      · exact hcurrent
      · have hmem : p ∈ d.starts := List.mem_of_getElem? hi
        have hp := h.starts p hmem
        obtain ⟨hstarts, rfl⟩ := eq_singleton_of_getElem? hcurrent.single hi
        have hstored : storedEpoch (loadResult format (d.writeEpoch format p).current) = p.epoch :=
          hp.storedEpoch_eq
        rw [hstarts, List.set_cons_zero]
        refine ⟨?_, le_rfl, List.forall_mem_singleton.2 (hcurrent.loaded p hmem),
          List.forall_mem_singleton.2 fun _ => hstored⟩
        show (d.link.epoch : ℚ) ≤ storedEpoch (loadResult format (d.writeEpoch format p).current)
        rw [hstored]
        exact ((hcurrent.loaded p hmem).trans_lt hp.stored_lt).le
  | leave i initialSequence =>
    rw [Device.step]
    cases hi : d.starts[i]? with
    | none => exact hcurrent
    | some p =>
      dsimp only
      split_ifs with hsaved
      · obtain ⟨hstarts, rfl⟩ := eq_singleton_of_getElem? hcurrent.single hi
        have hmem : p ∈ d.starts := List.mem_of_getElem? hi
        obtain ⟨n, -, hepoch⟩ := (h.starts p hmem).count
        rw [hstarts, List.eraseIdx_cons_zero]
        refine ⟨?_, Nat.zero_le 1, by simp, by simp⟩
        cases initialSequence with
        | none => exact hcurrent.file
        | some sequence =>
          show ((⌊p.epoch⌋₊ : ℕ) : ℚ) ≤ storedEpoch (loadResult format d.epochFile.current)
          rw [hcurrent.saved p hmem hsaved, hepoch, Nat.floor_natCast]
      · exact hcurrent
  | powerLoss text =>
    obtain rfl := hsmooth
    exact ⟨hcurrent.file, Nat.zero_le 1, by simp [Device.step], by simp [Device.step]⟩
  | link ev =>
    have hepoch : (d.link.step cfg ev).epoch = d.link.epoch := by
      refine Link.epoch_step fun epoch sequence heq => ?_
      subst heq
      exact he
    have hlink : (d.step cfg format (.link ev)).link.epoch = d.link.epoch := hepoch
    refine ⟨?_, hcurrent.single, ?_, hcurrent.saved⟩
    · rw [hlink]
      exact hcurrent.file
    · rw [hlink]
      exact hcurrent.loaded

end File

/-! ## Replays across restarts -/

section Replay

variable {cfg : ServerConfig} {home : ℚ → Peer} {format : JsonFormat} {base : ℕ → Seq} {s : Link}
  {ev : LinkEvent} {d : Device} {e : DeviceEvent}

/-- A step of the link that may dispatch a packet for the first time. -/
theorem LinkInv.step_first (hauth : cfg.authenticatedHeaders = true)
    (hbound : cfg.epochBoundAuth = true) (h : LinkInv home base s) (hev : Allowed cfg home s ev)
    (n : ℕ) :
    ((s.dispatches cfg ev).countP (isPacket n) = 0 ∧ ∃ base', LinkInv home base' (s.step cfg ev)) ∨
      ((s.dispatches cfg ev).countP (isPacket n) ≤ 1 ∧
        ∃ base', LinkInv home base' (s.step cfg ev) ∧ Spent home base' n (s.step cfg ev)) := by
  rcases s.step_cases cfg ev with ⟨he, hd⟩ | ⟨sev, hsev, hsent, he, hd⟩
  · obtain ⟨base', hs', -⟩ := h.client hev
    rw [hd]
    exact Or.inl ⟨rfl, base', he ▸ hs'⟩
  · have hharm := hev.1 sev hsev
    have hs' := h.server hauth hbound hharm hsent
    rw [hd]
    rcases h.spent_first hharm n with h0 | ⟨h1, hspent⟩
    · exact Or.inl ⟨h0, base, he ▸ hs'⟩
    · exact Or.inr ⟨h1, base, he ▸ hs', he ▸ hspent⟩

/-- A step of the link after the packet has been dispatched. -/
theorem Spent.step (hauth : cfg.authenticatedHeaders = true) (hbound : cfg.epochBoundAuth = true)
    {n : ℕ} (hspent : Spent home base n s) (h : LinkInv home base s) (hev : Allowed cfg home s ev) :
    (s.dispatches cfg ev).countP (isPacket n) = 0 ∧
      ∃ base', LinkInv home base' (s.step cfg ev) ∧ Spent home base' n (s.step cfg ev) := by
  rcases s.step_cases cfg ev with ⟨he, hd⟩ | ⟨sev, hsev, hsent, he, hd⟩
  · obtain ⟨base', hs', hkeep⟩ := h.client hev
    rw [hd]
    exact ⟨rfl, base', he ▸ hs', he ▸ hkeep n hspent⟩
  · have hharm := hev.1 sev hsev
    obtain ⟨h0, hspent'⟩ := hspent.server h hharm
    rw [hd]
    exact ⟨h0, base, he ▸ h.server hauth hbound hharm hsent, he ▸ hspent'⟩

/-- **What a device does to its link**: nothing, or what the link allows. -/
theorem Device.link_step (h : d.Counted format) (he : d.Sane cfg home format e)
    (hrises : d.Rises e) :
    ((d.step cfg format e).link = d.link ∧ d.dispatches cfg e = []) ∨
      ∃ ev, Allowed cfg home d.link ev ∧ (d.step cfg format e).link = d.link.step cfg ev ∧
        (d.link.dispatches cfg ev = d.dispatches cfg e) := by
  cases e with
  | load now loaded => exact Or.inl ⟨rfl, rfl⟩
  | save i saved =>
    refine Or.inl ⟨?_, rfl⟩
    rw [Device.step]
    cases d.starts[i]? with
    | none => rfl
    | some p =>
      dsimp only
      split_ifs <;> rfl
  | leave i initialSequence =>
    rw [Device.step]
    cases hi : d.starts[i]? with
    | none => exact Or.inl ⟨rfl, rfl⟩
    | some p =>
      dsimp only
      split_ifs with hsaved
      · cases initialSequence with
        | none => exact Or.inl ⟨rfl, rfl⟩
        | some sequence =>
          refine Or.inr ⟨.restart ⌊p.epoch⌋₊ sequence, ⟨?_, ?_⟩, rfl, rfl⟩
          · rintro sev ⟨⟩
          · have hp := h.starts p (List.mem_of_getElem? hi)
            obtain ⟨n, -, hepoch⟩ := hp.count
            have hlt := hrises p hi hsaved
            have hexact := hp.exact
            rw [hepoch] at hlt hexact ⊢
            rw [Nat.floor_natCast]
            norm_cast at hlt hexact
            omega
      · exact Or.inl ⟨rfl, rfl⟩
  | powerLoss text => exact Or.inl ⟨rfl, rfl⟩
  | link ev =>
    refine Or.inr ⟨ev, ?_, rfl, rfl⟩
    cases ev with
    | restart epoch sequence => exact absurd he id
    | _ => exact he

/-- **Replay protection outlives restarts.** On a device that starts for the first time, whose
losses of power take the file of the epoch back to texts that it has had, with both options of the
server on, and over steps that the link allows (`Allowed`):
- while nothing fails, nothing is taken back and no start begins while another one is resolving its
  epoch, every start raises the epoch, whatever the clock;
- in general the starts raise the epoch exactly when each has read a clock past the last epoch, or
  has found that epoch, or a later one, in the file;
- and while they do, no packet of the client is dispatched twice. -/
theorem Device.restarts_protected (hauth : cfg.authenticatedHeaders = true)
    (hbound : cfg.epochBoundAuth = true) {es : List DeviceEvent}
    (hsane : Along (Device.step cfg format) (Device.Sane cfg home format) Device.new es) :
    (Along (Device.step cfg format) Device.Smooth Device.new es →
      Along (Device.step cfg format) Device.Rises Device.new es) ∧
    (Along (Device.step cfg format) Device.Rises Device.new es ↔
      Along (Device.step cfg format) Device.Fresh Device.new es) ∧
    (Along (Device.step cfg format) Device.Rises Device.new es → ∀ n,
      (trace (Device.step cfg format) (Device.dispatches cfg) Device.new es).countP
        (isPacket n) ≤ 1) := by
  have hnew : Device.new.Counted format :=
    ⟨Or.inl rfl, rfl, by simp [Device.new], by simp [Device.new]⟩
  refine ⟨fun hsmooth => ?_, ?_, fun hrises n => ?_⟩
  · refine Along.of_invariant (I := fun d => d.Counted format ∧ d.Current format)
      (C := fun d e => d.Sane cfg home format e ∧ d.Smooth e) ?_ ⟨hnew, ?_⟩ (hsane.and hsmooth)
    · rintro d e ⟨h, hcurrent⟩ ⟨he, hsmooth⟩
      exact ⟨hcurrent.rises h, h.step he, h.smooth hcurrent he hsmooth⟩
    · refine ⟨?_, Nat.zero_le 1, by simp [Device.new], by simp [Device.new]⟩
      simp [Device.new, Link.new, loadResult, storedEpoch]
  · exact Along.congr_of_invariant (I := fun d => d.Counted format)
      (fun d e h he => ⟨h.rises_iff, fun _ => h.step he⟩) hnew hsane
  · refine countP_trace_le_one
      (I := fun d es => (d.Counted format ∧ ∃ base, LinkInv home base d.link) ∧
        Along (Device.step cfg format)
          (fun d e => d.Sane cfg home format e ∧ d.Rises e) d es)
      (J := fun d es => (d.Counted format ∧
          ∃ base, LinkInv home base d.link ∧ Spent home base n d.link) ∧
        Along (Device.step cfg format)
          (fun d e => d.Sane cfg home format e ∧ d.Rises e) d es) ?_ ?_
      ⟨⟨hnew, _, linkInv_new home (by norm_num) 0⟩, hsane.and hrises⟩
    · rintro d e es ⟨⟨h, base, hlink⟩, ⟨he, hrises⟩, hrest⟩
      rcases Device.link_step h he hrises with ⟨hsame, hd⟩ | ⟨ev, hev, hstep, hd⟩
      · rw [hd]
        exact Or.inl ⟨rfl, ⟨h.step he, base, hsame ▸ hlink⟩, hrest⟩
      · rw [← hd]
        rcases hlink.step_first hauth hbound hev n with ⟨h0, hlink'⟩ | ⟨h1, hlink'⟩
        · exact Or.inl ⟨h0, ⟨h.step he, hstep ▸ hlink'⟩, hrest⟩
        · exact Or.inr ⟨h1, ⟨h.step he, hstep ▸ hlink'⟩, hrest⟩
    · rintro d e es ⟨⟨h, base, hlink, hspent⟩, ⟨he, hrises⟩, hrest⟩
      rcases Device.link_step h he hrises with ⟨hsame, hd⟩ | ⟨ev, hev, hstep, hd⟩
      · rw [hd]
        exact ⟨rfl, ⟨h.step he, base, hsame ▸ hlink, hsame ▸ hspent⟩, hrest⟩
      · rw [← hd]
        obtain ⟨h0, hlink'⟩ := hspent.step hauth hbound hlink hev
        exact ⟨h0, ⟨h.step he, hstep ▸ hlink'⟩, hrest⟩

/-- JSON, as far as `epochData` goes. -/
def epochFormat : JsonFormat where
  print
    | .obj [("epoch", .num (.finite q))] =>
      "\x7b\n  \"epoch\": ".toList ++ Nat.toDigits 10 q.num.toNat ++ "\n\x7d".toList
    | _ => "null".toList
  parse text :=
    let digits := (text.drop 13).take (text.length - 15)
    if text = "\x7b\n  \"epoch\": ".toList ++ digits ++ "\n\x7d".toList then
      some (epochData (digits.foldl (fun n c => 10 * n + (c.toNat - 48)) 0 : ℕ))
    else if text = "null".toList then some .null
    else none

/-- A packet that is captured before a restart and sent again after it; the clock has gone back. -/
def restartedDevice : List DeviceEvent :=
  let client : Peer := ⟨"10.0.0.1", 4446⟩
  [.load 5 true, .save 0 true, .leave 0 (some 100), .link (.sendHello 90 "boat" 0),
    .link (.sendData (some [])), .link (.deliver 1 client 0), .link (.deliver 2 client 1),
    .link (.inside (.resume 3 0)), .powerLoss (some (epochFormat.print (epochData 5))),
    .load 3 true, .save 0 true, .leave 0 (some 200), .link (.deliver 4 client 1),
    .link (.inside (.resume 5 0))]

theorem Device.restarts_protected_clockBack :
    let cfg : ServerConfig := { epochBoundAuth := true }
    Along (Device.step cfg epochFormat) Device.Rises Device.new restartedDevice ∧
      (trace (Device.step cfg epochFormat) (Device.dispatches cfg) Device.new
        restartedDevice).countP (isPacket 1) ≤ 1 := by
  intro cfg
  have hsane : Along (Device.step cfg epochFormat)
      (Device.Sane cfg (fun _ => ⟨"10.0.0.1", 4446⟩) epochFormat) Device.new restartedDevice := by
    decide +kernel
  have hsmooth : Along (Device.step cfg epochFormat) Device.Smooth Device.new restartedDevice := by
    decide +kernel
  obtain ⟨hrises, -, honce⟩ := Device.restarts_protected rfl rfl hsane
  exact ⟨hrises hsmooth, honce (hrises hsmooth) 1⟩

end Replay

end EdgeLink
