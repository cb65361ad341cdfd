import EdgeLink.Foundations.SharedClock
import EdgeLink.Server.SourceRegistry
import Mathlib.Data.Finset.Insert
import Mathlib.Data.Fintype.Defs
import Mathlib.Data.List.MinMax

/-!
# The last writer of a source's identity

Which update a field of a record has its value from. The record is a register with one clock: each
field is merged by itself, but against the timestamp of the update that came in last.

* `Application`: an update as `upsertFromDelta` applies it.
* `written`: the updates that are written. An update whose record would have the hash of the one
  that stands is taken for a repetition of it and skipped.
* `represents_first`, `represents_next`: the record of a key is the register of the updates written
  to it.
* `lastWriterWins_iff`: the fields end at the values of the newest updates if and only if the
  order of the applications lets these updates decide.
* `inOrder_of_ordered`: the order of the timestamps is such an order, where only repetitions are
  skipped.
* `field_eq_of_lastWriterWins`: where the last writer wins, the order does not matter.
-/

namespace EdgeLink

open JsValue

inductive IdentityField where
  | label
  | type
  | src
  | instanceName
  | pgn
  | deviceId
  deriving DecidableEq

instance : Fintype IdentityField :=
  ⟨{.label, .type, .src, .instanceName, .pgn, .deviceId}, fun f => by cases f <;> decide⟩

def SourceIdentity.get (identity : SourceIdentity) : IdentityField → JsValue
  | .label => identity.label
  | .type => identity.type
  | .src => identity.src
  | .instanceName => identity.instanceName
  | .pgn => identity.pgn
  | .deviceId => identity.deviceId

/-- The identity with these fields. -/
def SourceIdentity.ofFields (v : IdentityField → JsValue) : SourceIdentity :=
  ⟨v .label, v .type, v .src, v .instanceName, v .pgn, v .deviceId⟩

@[simp] theorem SourceIdentity.get_ofFields (v : IdentityField → JsValue) (f : IdentityField) :
    (SourceIdentity.ofFields v).get f = v f := by
  cases f <;> rfl

theorem SourceIdentity.ext_get {identity identity' : SourceIdentity}
    (h : ∀ f, identity.get f = identity'.get f) : identity = identity' := by
  cases identity
  cases identity'
  simp only [SourceIdentity.mk.injEq]
  exact ⟨h .label, h .type, h .src, h .instanceName, h .pgn, h .deviceId⟩

/-- A value that is not blank. -/
def present (v : JsValue) : Option JsValue := if isBlank v then none else some v

/-- An update with what `upsertFromDelta` is given beside it. -/
structure Application where
  update : DeltaUpdate
  sourceClientInstanceId : String
  now : Time

/-- The arguments of a call of `upsertFromDelta`. -/
structure RegistryCall where
  delta : Delta
  sourceClientInstanceId : String
  now : Time

def RegistryCall.applications (call : RegistryCall) : List Application :=
  call.delta.updates.map fun update => ⟨update, call.sourceClientInstanceId, call.now⟩

/-- The call with one update. -/
def Application.call (a : Application) : RegistryCall where
  delta := ⟨none, [a.update]⟩
  sourceClientInstanceId := a.sourceClientInstanceId
  now := a.now

/-- The applications of a sequence of calls, in their order. -/
def applications (calls : List RegistryCall) : List Application :=
  calls.flatMap (·.applications)

namespace RegistryPlatform

variable (platform : RegistryPlatform)

/-- The value that an update itself carries for a field. -/
def carried (update : DeltaUpdate) : IdentityField → Option JsValue
  | .label => (normalizeText ((sourceObject update).get "label")).map .str
  | .type => (normalizeText ((sourceObject update).get "type")).map .str
  | .src => (normalizeText ((sourceObject update).get "src")).map .str
  | .instanceName => (normalizeText ((sourceObject update).get "instance")).map .str
  | .pgn => (platform.parseSourceFields update).pgn.map fun q => .num (.finite q)
  | .deviceId => (normalizeText ((sourceObject update).get "deviceId")).map .str

/-- The time of an update, `none` when it has no valid timestamp. -/
def parsedTimestamp (update : DeltaUpdate) : Option Time :=
  (update.timestamp.bind fun timestamp => normalizeText (.str timestamp)).bind platform.dateParse

end RegistryPlatform

namespace Application

variable (platform : RegistryPlatform)

def time (a : Application) : Time := (platform.parsedTimestamp a.update).getD a.now

/-- The value of a field in the identity of the update, with its defaults. -/
def identityValue (a : Application) (f : IdentityField) : JsValue :=
  ((platform.toCanonicalIdentity a.update a.sourceClientInstanceId).map (·.get f)).getD .undefined

/-- The value that the source object of the update carries for a field. -/
def carried (a : Application) (f : IdentityField) : Option JsValue :=
  platform.carried a.update f

/-- The value that the identity of the update has for a field. -/
def provided (a : Application) (f : IdentityField) : Option JsValue :=
  present (a.identityValue platform f)

/-- The update as a write to a register. -/
def write (a : Application) : Register IdentityField JsValue Time where
  time := a.time platform
  value := a.provided platform

/-- The update has a valid timestamp and goes to the record of `key`. -/
def Applicable (key : String) (a : Application) : Prop :=
  (platform.toCanonicalIdentity a.update a.sourceClientInstanceId).map
    (platform.createSourceKey a.update) = some key ∧ (platform.parsedTimestamp a.update).isSome

instance (key : String) (a : Application) : Decidable (a.Applicable platform key) :=
  inferInstanceAs (Decidable (_ ∧ _))

/-- The record of the update before a merge. -/
def base (key : String) (a : Application) (identity : SourceIdentity) : MergedRecord :=
  RegistryPlatform.buildMergedBase a.update identity key a.sourceClientInstanceId none a.now

end Application

namespace SourceRegistry

/-- The value of a field in the record of a key. -/
def field (s : SourceRegistry) (key : String) (f : IdentityField) : Option JsValue :=
  (s.records.get? key).bind fun record => present (record.identity.get f)

variable (platform : RegistryPlatform)

/-- The updates as a register, the most recent first. -/
def register (p : Application) (earlier : List Application) : Register IdentityField JsValue Time :=
  .after (p.write platform) (earlier.map (·.write platform))

/-- The identity that updates leave when all of them are written, the most recent first. A field for
which none of them has a value is as the first one has it. -/
def identityAfter : List Application → SourceIdentity
  | [] => .ofFields fun _ => .undefined
  | p :: earlier => .ofFields fun f => ((register platform p earlier).value f).getD
      ((earlier.getLast?.getD p).identityValue platform f)

/-- The record that an update would leave has the hash of the one that it finds, so that it is not
written. -/
def Skipped (key : String) (a : Application) : List Application → Prop
  | [] => False
  | p :: earlier =>
    toMergeHash platform.numberToString (p.base key (identityAfter platform (p :: earlier))) =
      toMergeHash platform.numberToString (a.base key (identityAfter platform (a :: p :: earlier)))

instance (key : String) (a : Application) :
    (earlier : List Application) → Decidable (Skipped platform key a earlier)
  | [] => inferInstanceAs (Decidable False)
  | _ :: _ => inferInstanceAs (Decidable (_ = _))

/-- The updates that are written, of updates with the most recent first. -/
def written (key : String) : List Application → List Application
  | [] => []
  | a :: earlier =>
    if Skipped platform key a (written key earlier) then written key earlier
    else a :: written key earlier

section

/-! What it is for an update to carry a value is a parameter: its source object has one
(`carried`), or its identity has one (`provided`). -/

variable (carries : Application → IdentityField → Option JsValue)

/-- Of the updates that carry the field, none is later than this one. -/
def IsNewest (apps : List Application) (f : IdentityField) (a : Application) : Prop :=
  (carries a f).isSome ∧ ∀ b ∈ apps, (carries b f).isSome → b.time platform ≤ a.time platform

instance (apps : List Application) (f : IdentityField) (a : Application) :
    Decidable (IsNewest platform carries apps f a) := inferInstanceAs (Decidable (_ ∧ _))

/-- Each field ends at the value that the newest update with a value for it carries. -/
def LastWriterWins (apps : List Application) (final : IdentityField → Option JsValue) : Prop :=
  ∀ f, ∀ a ∈ apps, IsNewest platform carries apps f a → final f = carries a f

/-- The value of the update that decides a field, of the updates that are written in the order of
their application. -/
def decided (key : String) (apps : List Application) (f : IdentityField) : Option JsValue :=
  (Register.decider f ((written platform key apps.reverse).map (·.write platform))).bind (·.value f)

/-- For each field the decider has the value that the newest update carries. -/
def InOrder (key : String) (apps : List Application) : Prop :=
  ∀ f, ∀ a ∈ apps, IsNewest platform carries apps f a → decided platform key apps f = carries a f

instance (key : String) (apps : List Application) : Decidable (InOrder platform carries key apps) :=
  inferInstanceAs (Decidable (∀ f, ∀ a ∈ apps, IsNewest platform carries apps f a →
    decided platform key apps f = carries a f))

end

/-- Only repetitions are skipped: an update that is not written changes no field, and has the time
of the one that was written before it. -/
def CollisionFree (key : String) (apps : List Application) : Prop :=
  ∀ later a earlier p ws, apps.reverse = later ++ a :: earlier →
    written platform key earlier = p :: ws → Skipped platform key a (p :: ws) →
    identityAfter platform (a :: p :: ws) = identityAfter platform (p :: ws) ∧
      a.time platform = p.time platform

/-- The record `r` is the register of the updates written to it, the last of which is `p`. -/
structure Represents (key : String) (p : Application) (earlier : List Application)
    (r : SourceReplicationRecord) : Prop where
  time : (r.updateTimestamp.bind fun timestamp => normalizeText (.str timestamp)).bind
    platform.dateParse = some (p.time platform)
  identity : r.identity = identityAfter platform (p :: earlier)
  hash : r.mergeHash = toMergeHash platform.numberToString (p.base key r.identity)

/-- The record of `key` is the one seen last. -/
def Newest (s : SourceRegistry) (key : String) (r : SourceReplicationRecord) : Prop :=
  s.records.entries.getLast? = some (key, r)

/-! ## The fields of an identity -/

theorem not_isObjectType_ofText (text : Option String) : (ofText text).isObjectType = false := by
  cases text <;> rfl

theorem not_isObjectType_of_identity {update : DeltaUpdate} {client : String}
    {identity : SourceIdentity} (h : platform.toCanonicalIdentity update client = some identity)
    (f : IdentityField) : (identity.get f).isObjectType = false := by
  obtain ⟨-, hidentity⟩ := Option.ite_none_right_eq_some.1 h
  obtain rfl := Option.some.inj hidentity
  cases f
  case label | type => rfl
  case pgn =>
    rw [SourceIdentity.get]
    cases (platform.parseSourceFields update).pgn <;> rfl
  all_goals exact not_isObjectType_ofText _

theorem not_isObjectType_identityValue (a : Application) (f : IdentityField) :
    (a.identityValue platform f).isObjectType = false := by
  rw [Application.identityValue]
  rcases h : platform.toCanonicalIdentity a.update a.sourceClientInstanceId with _ | identity
  · rfl
  · exact not_isObjectType_of_identity platform h f

theorem normalizeText_ne {v : JsValue} {text : String} (h : normalizeText v = some text) :
    text ≠ "" ∧ trim text = text := by
  cases v with
  | str s =>
    rw [normalizeText] at h
    split_ifs at h with hs
    cases h
    exact ⟨hs, trim_trim s⟩
  | _ => cases h

/-! ## The merge of one field -/

variable (numberToString : ℚ → String)

/-- Of values that are not objects the later one is chosen, unless it is blank. -/
theorem chooseValue_scalar {current incoming : JsValue} (hcurrent : current.isObjectType = false)
    (hincoming : incoming.isObjectType = false) (currentTs incomingTs : Time) :
    (chooseValue numberToString current incoming currentTs incomingTs).1 =
      if isBlank incoming then current
      else if isBlank current then incoming
      else if currentTs ≤ incomingTs then incoming else current := by
  rw [chooseValue]
  split_ifs with hin hcur heq hle hscalar hle
  · rfl
  · rfl
  · exact heq
  · rfl
  · rfl
  all_goals simp [hcurrent, hincoming] at *

/-- The merge of a field is that of a register, with a blank where the register has no value. -/
theorem chooseValue_getD {v : Option JsValue} {blank incoming : JsValue}
    (hblank : v = none → isBlank blank) (hv : ∀ x ∈ v, isBlank x = false)
    (hcurrent : (v.getD blank).isObjectType = false) (hincoming : incoming.isObjectType = false)
    (currentTs incomingTs : Time) :
    (chooseValue numberToString (v.getD blank) incoming currentTs incomingTs).1 =
      (Register.mergeValue (currentTs ≤ incomingTs) v (present incoming)).getD blank := by
  rw [chooseValue_scalar numberToString hcurrent hincoming]
  by_cases hin : isBlank incoming
  · simp [present, hin]
  cases v with
  | none => simp [present, hin, hblank rfl]
  | some x => by_cases hle : currentTs ≤ incomingTs <;> simp [present, hin, hv x rfl, hle]

theorem get_mergeExistingRecord (r : SourceReplicationRecord) (base : MergedRecord)
    (updateTsMs : Time) (f : IdentityField) :
    (platform.mergeExistingRecord r base updateTsMs).1.identity.get f =
      (chooseValue platform.numberToString (r.identity.get f) (base.identity.get f)
        (platform.resolveExistingTs r) updateTsMs).1 := by
  cases f <;> rfl

/-! ## The record of a key -/

theorem get?_of_newest {s : SourceRegistry} {key : String} {r : SourceReplicationRecord}
    (h : Newest s key r) : s.records.get? key = some r :=
  OrderedMap.mem_entries.1 (List.mem_of_getLast? h)

theorem newest_refresh {s : SourceRegistry} {records : OrderedMap String SourceReplicationRecord}
    {key : String} {r : SourceReplicationRecord} (h : s.records = refresh records key r) :
    Newest s key r := by
  rw [Newest, h, refresh, OrderedMap.set, dif_pos (OrderedMap.get?_delete_self ..)]
  exact List.getLast?_concat ..

/-- The record that is seen now stays. -/
theorem Newest.evict {s : SourceRegistry} {key : String} {r : SourceReplicationRecord} {now : Time}
    (h : Newest s key r) (hseen : r.lastSeenAt = now) :
    Newest (s.evictStaleAndOverflow now) key r := by
  have hstale : staleCount s.records.entries now < s.records.entries.length := by
    apply lt_of_le_of_ne (List.takeWhile_prefix _).length_le
    intro hlength
    have hall := (List.takeWhile_prefix _).eq_of_length hlength
    have hlast : (key, r) ∈ s.records.entries := List.mem_of_getLast? h
    rw [← hall] at hlast
    have hfresh := List.mem_takeWhile_imp hlast
    rw [decide_eq_true_eq, hseen] at hfresh
    have hpast : now - SOURCE_REGISTRY_TTL_MS < now := Int.sub_lt_self now (by decide)
    exact (hfresh.trans hpast).false
  have hkept : ¬s.records.entries.length ≤ staleCount s.records.entries now +
      (s.records.size - staleCount s.records.entries now - SOURCE_REGISTRY_MAX_RECORDS) := by
    rw [OrderedMap.size, SOURCE_REGISTRY_MAX_RECORDS]
    omega
  rw [Newest, evictStaleAndOverflow, OrderedMap.dropOldest]
  dsimp only
  rw [List.getLast?_drop, if_neg hkept]
  exact h

/-- The record that stands in the registry after a merge. -/
def stored (existing : Option SourceReplicationRecord) (merged : MergedRecord) (now : Time) :
    SourceReplicationRecord :=
  match existing.filter (·.mergeHash = toMergeHash platform.numberToString merged) with
  | some record => { record with lastSeenAt := now }
  | none =>
    { merged with
      lastSeenAt := now
      lastUpdatedAt := now
      mergeHash := toMergeHash platform.numberToString merged }

/-- What a merge leaves in the registry. -/
theorem newest_storeMerged (s : SourceRegistry) (key : String)
    (existing : Option SourceReplicationRecord) (merged : MergedRecord) (now : Time) :
    Newest (storeMerged platform s key existing merged now) key
      (stored platform existing merged now) := by
  rw [storeMerged, stored]
  dsimp only
  cases existing.filter (·.mergeHash = toMergeHash platform.numberToString merged) with
  | some record => exact newest_refresh rfl
  | none =>
    dsimp only
    split_ifs
    · exact (newest_refresh rfl).evict rfl
    · exact newest_refresh rfl

theorem newest_upsertSingleUpdate (s : SourceRegistry) {a : Application} {identity : SourceIdentity}
    {key : String}
    (hid : platform.toCanonicalIdentity a.update a.sourceClientInstanceId = some identity)
    (hkey : platform.createSourceKey a.update identity = key) :
    Newest (s.upsertSingleUpdate platform a.update a.sourceClientInstanceId a.now) key
      (stored platform (s.records.get? key) (mergedRecord platform a.update identity key
        a.sourceClientInstanceId (s.records.get? key) a.now).1 a.now) := by
  rw [upsertSingleUpdate, hid]
  dsimp only
  rw [hkey]
  exact newest_storeMerged ..

/-! ## The record is a register -/

theorem normalizeText_normalizeText (text : Option String) :
    (text.bind fun t => normalizeText (.str t)).bind (fun t => normalizeText (.str t)) =
      text.bind fun t => normalizeText (.str t) := by
  cases text with
  | none => rfl
  | some t =>
    simp only [Option.bind_some]
    rcases h : normalizeText (.str t) with _ | trimmed
    · rfl
    · rw [Option.bind_some, normalizeText, (normalizeText_ne h).2, if_neg (normalizeText_ne h).1]

variable {platform} {key : String} {apps earlier : List Application} {a p : Application}
  {identity : SourceIdentity}

theorem parse_of_applicable (ha : a.Applicable platform key) :
    platform.parsedTimestamp a.update = some (a.time platform) := by
  obtain ⟨t, ht⟩ := Option.isSome_iff_exists.1 ha.2
  rw [Application.time, ht, Option.getD_some]

/-- The timestamp of a record, which has been normalised once more, parses as the update's. -/
theorem parse_renormalized (ha : a.Applicable platform key) :
    ((a.update.timestamp.bind fun t => normalizeText (.str t)).bind
      fun t => normalizeText (.str t)).bind platform.dateParse = some (a.time platform) := by
  rw [normalizeText_normalizeText]
  exact parse_of_applicable ha

theorem identityValue_eq
    (hid : platform.toCanonicalIdentity a.update a.sourceClientInstanceId = some identity)
    (f : IdentityField) : a.identityValue platform f = identity.get f := by
  rw [Application.identityValue, hid, Option.map_some, Option.getD_some]

/-! ### The identity of a record -/

theorem getD_present (v : JsValue) : (present v).getD v = v := by
  rw [present]
  split_ifs <;> rfl

/-- A field has the value of one of the updates, or none of them has one. -/
theorem register_value_cases (p : Application) (earlier : List Application) (f : IdentityField) :
    (∃ b ∈ p :: earlier, (register platform p earlier).value f = some (b.identityValue platform f) ∧
        isBlank (b.identityValue platform f) = false) ∨
      ((register platform p earlier).value f = none ∧
        ∀ b ∈ p :: earlier, isBlank (b.identityValue platform f)) := by
  have hpresent : ∀ b : Application, (b.write platform).value f =
      present (b.identityValue platform f) := fun _ => rfl
  rw [register, Register.value_after]
  rcases hd : Register.decider f (p.write platform :: earlier.map (·.write platform)) with _ | w
  · refine Or.inr ⟨by rw [hd, Option.bind_none], fun b hb => ?_⟩
    have hnone := Register.decider_eq_none.1 hd (b.write platform)
      (by rw [← List.map_cons]; exact List.mem_map_of_mem hb)
    rw [hpresent, present] at hnone
    by_contra hblank
    rw [if_neg hblank] at hnone
    cases hnone
  · have hmem := Register.mem_of_decider hd
    rw [← List.map_cons] at hmem
    obtain ⟨b, hb, rfl⟩ := List.mem_map.1 hmem
    have hsome := Register.isSome_of_decider hd
    rw [hpresent, present] at hsome
    have hblank : ¬isBlank (b.identityValue platform f) := by
      intro hblank
      rw [if_pos hblank] at hsome
      cases hsome
    refine Or.inl ⟨b, hb, ?_, by simpa using hblank⟩
    rw [hd, Option.bind_some, hpresent, present, if_neg hblank]

theorem mem_oldest (p : Application) (earlier : List Application) :
    earlier.getLast?.getD p ∈ p :: earlier := by
  cases h : earlier.getLast? with
  | none => exact List.mem_cons_self
  | some b => exact List.mem_cons_of_mem _ (List.mem_of_getLast? h)

theorem isBlank_oldest {f : IdentityField} (h : (register platform p earlier).value f = none) :
    isBlank ((earlier.getLast?.getD p).identityValue platform f) := by
  rcases register_value_cases p earlier f with ⟨b, -, hvalue, -⟩ | ⟨-, hblank⟩
  · rw [h] at hvalue
    cases hvalue
  · exact hblank _ (mem_oldest p earlier)

theorem not_isBlank_of_register {f : IdentityField} {v : JsValue}
    (h : v ∈ (register platform p earlier).value f) : isBlank v = false := by
  rcases register_value_cases p earlier f with ⟨b, -, hvalue, hb⟩ | ⟨hnone, -⟩
  · obtain rfl := Option.some.inj (hvalue.symm.trans h)
    exact hb
  · exact absurd (hnone.symm.trans h) (Option.some_ne_none v).symm

/-- The value of a field of the identity is that of the register. -/
theorem present_identityAfter (p : Application) (earlier : List Application) (f : IdentityField) :
    present ((identityAfter platform (p :: earlier)).get f) =
      (register platform p earlier).value f := by
  rw [identityAfter, SourceIdentity.get_ofFields, present]
  cases hvalue : (register platform p earlier).value f with
  | none => rw [Option.getD_none, if_pos (isBlank_oldest hvalue)]
  | some v => rw [Option.getD_some, if_neg (by simp [not_isBlank_of_register hvalue])]

theorem not_isObjectType_identityAfter (p : Application) (earlier : List Application)
    (f : IdentityField) :
    ((identityAfter platform (p :: earlier)).get f).isObjectType = false := by
  rw [identityAfter, SourceIdentity.get_ofFields]
  rcases register_value_cases p earlier f with ⟨b, -, hvalue, -⟩ | ⟨hnone, -⟩
  · rw [hvalue, Option.getD_some]
    exact not_isObjectType_identityValue platform b f
  · rw [hnone, Option.getD_none]
    exact not_isObjectType_identityValue platform _ f

/-- One more update is merged into the identity. -/
theorem identityAfter_cons (a p : Application) (earlier : List Application) (f : IdentityField) :
    (identityAfter platform (a :: p :: earlier)).get f =
      (chooseValue platform.numberToString ((identityAfter platform (p :: earlier)).get f)
        (a.identityValue platform f) (p.time platform) (a.time platform)).1 := by
  have holdest : (p :: earlier).getLast?.getD a = earlier.getLast?.getD p := by
    rw [List.getLast?_cons, Option.getD_some]
  have hscalar : ((identityAfter platform (p :: earlier)).get f).isObjectType = false :=
    not_isObjectType_identityAfter p earlier f
  have htime : (register platform p earlier).time = p.time platform := Register.time_after ..
  have hmerge : register platform a (p :: earlier) =
      (register platform p earlier).merge (a.write platform) := rfl
  simp only [identityAfter, SourceIdentity.get_ofFields, holdest] at hscalar ⊢
  rw [chooseValue_getD platform.numberToString isBlank_oldest
    (fun v hv => not_isBlank_of_register hv) hscalar
    (not_isObjectType_identityValue platform a f), hmerge, Register.merge, htime]
  rfl

/-! ### One update -/

/-- The first update is written. -/
theorem represents_first (ha : a.Applicable platform key)
    (hid : platform.toCanonicalIdentity a.update a.sourceClientInstanceId = some identity) :
    Represents platform key a [] (stored platform none (a.base key identity) a.now) where
  time := parse_renormalized ha
  identity := SourceIdentity.ext_get fun f => by
    rw [identityAfter, SourceIdentity.get_ofFields]
    have hfirst : ((register platform a []).value f).getD
        ((([] : List Application).getLast?.getD a).identityValue platform f) =
        a.identityValue platform f := getD_present _
    rw [hfirst, identityValue_eq hid]
    rfl
  hash := rfl

section Next

variable {r : SourceReplicationRecord}

theorem resolveExistingTs_of_represents (hr : Represents platform key p earlier r) :
    platform.resolveExistingTs r = p.time platform := by
  rw [RegistryPlatform.resolveExistingTs, hr.time, Option.getD_some]

/-- The identity that an update would leave. -/
theorem identity_mergedRecord (hr : Represents platform key p earlier r)
    (hid : platform.toCanonicalIdentity a.update a.sourceClientInstanceId = some identity) :
    (mergedRecord platform a.update identity key a.sourceClientInstanceId (some r)
        a.now).1.identity = identityAfter platform (a :: p :: earlier) := by
  apply SourceIdentity.ext_get
  intro f
  rw [identityAfter_cons, ← hr.identity, ← resolveExistingTs_of_represents hr, identityValue_eq hid]
  exact get_mergeExistingRecord ..

/-- The next update is skipped, or written. -/
theorem represents_next (hr : Represents platform key p earlier r) (ha : a.Applicable platform key)
    (hid : platform.toCanonicalIdentity a.update a.sourceClientInstanceId = some identity) :
    let merged := (mergedRecord platform a.update identity key a.sourceClientInstanceId (some r)
      a.now).1
    if Skipped platform key a (p :: earlier) then
      Represents platform key p earlier (stored platform (some r) merged a.now)
    else Represents platform key a (p :: earlier) (stored platform (some r) merged a.now) := by
  intro merged
  have hidentity : merged.identity = identityAfter platform (a :: p :: earlier) :=
    identity_mergedRecord hr hid
  have hhash : toMergeHash platform.numberToString merged =
      toMergeHash platform.numberToString (a.base key merged.identity) := rfl
  have hsame : r.mergeHash = toMergeHash platform.numberToString merged ↔
      Skipped platform key a (p :: earlier) := by
    rw [hr.hash, hhash, hr.identity, hidentity]
    rfl
  rw [stored]
  split_ifs with hskip
  · rw [Option.filter_some_pos (by simpa using hsame.2 hskip)]
    exact ⟨hr.time, hr.identity, hr.hash⟩
  · rw [Option.filter_some_neg (by simpa using fun h => hskip (hsame.1 h))]
    exact ⟨parse_renormalized ha, hidentity, rfl⟩

end Next

theorem lastSeenAt_stored (existing : Option SourceReplicationRecord) (merged : MergedRecord)
    (now : Time) : (stored platform existing merged now).lastSeenAt = now := by
  rw [stored]
  split <;> rfl

/-! ## Runs -/

/-- The record of `key` after the applications `done`, the most recent first. -/
def Holds (platform : RegistryPlatform) (key : String) (s : SourceRegistry) :
    List Application → Prop
  | [] => s.records.get? key = none
  | a :: done => ∃ p earlier r, written platform key (a :: done) = p :: earlier ∧ Newest s key r ∧
      r.lastSeenAt = a.now ∧ Represents platform key p earlier r

/-- One update. -/
theorem holds_upsertSingleUpdate {s : SourceRegistry} {done : List Application}
    (ha : a.Applicable platform key) (h : Holds platform key s done) :
    Holds platform key
      (s.upsertSingleUpdate platform a.update a.sourceClientInstanceId a.now) (a :: done) := by
  obtain ⟨identity, hid, hkey⟩ := Option.map_eq_some_iff.1 ha.1
  have hnewest := newest_upsertSingleUpdate platform s hid hkey
  cases done with
  | nil =>
    rw [show s.records.get? key = none from h] at hnewest
    exact ⟨a, [], _, rfl, hnewest, lastSeenAt_stored .., represents_first ha hid⟩
  | cons b done =>
    obtain ⟨p, earlier, r, hwritten, hr, -, hrepresents⟩ := h
    have hnext := represents_next hrepresents ha hid
    rw [get?_of_newest hr] at hnewest
    rw [Holds, written, hwritten]
    split_ifs at hnext ⊢
    · exact ⟨p, earlier, _, rfl, hnewest, lastSeenAt_stored .., hnext⟩
    · exact ⟨a, p :: earlier, _, rfl, hnewest, lastSeenAt_stored .., hnext⟩

theorem holds_evict {s : SourceRegistry} {done : List Application}
    (h : Holds platform key s (a :: done)) :
    Holds platform key (s.evictStaleAndOverflow a.now) (a :: done) := by
  obtain ⟨p, earlier, r, hwritten, hr, hseen, hrepresents⟩ := h
  exact ⟨p, earlier, r, hwritten, hr.evict hseen, hseen, hrepresents⟩

/-- `upsertFromDelta`. -/
def upsert (platform : RegistryPlatform) (s : SourceRegistry) (call : RegistryCall) :
    SourceRegistry :=
  s.upsertFromDelta platform call.delta call.sourceClientInstanceId call.now

/-- The updates of one call. -/
theorem holds_upsert {s : SourceRegistry} {done : List Application} {call : RegistryCall}
    (hcall : call.delta.updates ≠ []) (happs : ∀ a ∈ call.applications, a.Applicable platform key)
    (h : Holds platform key s done) :
    Holds platform key (upsert platform s call) (call.applications.reverse ++ done) := by
  obtain ⟨⟨context, updates⟩, client, now⟩ := call
  -- the updates of a call have one reading of the clock
  have hfold : ∀ (updates : List DeltaUpdate) (s : SourceRegistry) (done : List Application),
      (∀ u ∈ updates, (⟨u, client, now⟩ : Application).Applicable platform key) →
      Holds platform key s done →
      Holds platform key (updates.foldl (fun s u => s.upsertSingleUpdate platform u client now) s)
        ((updates.map fun u => (⟨u, client, now⟩ : Application)).reverse ++ done) := by
    intro updates
    induction updates with
    | nil => exact fun _ _ _ h => h
    | cons u updates ih =>
      intro s done happs h
      rw [List.map_cons, List.reverse_cons, List.append_assoc]
      exact ih _ _ (fun u hu => happs u (List.mem_cons_of_mem _ hu))
        (holds_upsertSingleUpdate (a := ⟨u, client, now⟩) (happs u List.mem_cons_self) h)
  have hupdates := hfold updates s done (fun u hu => happs _ (List.mem_map_of_mem hu)) h
  obtain ⟨before, u, rfl⟩ := (List.eq_nil_or_concat updates).resolve_left hcall
  simp only [upsert, upsertFromDelta, RegistryCall.applications]
  rw [List.concat_eq_append, List.map_append, List.map_singleton, List.reverse_append,
    List.reverse_singleton, List.singleton_append, List.cons_append] at hupdates ⊢
  exact holds_evict (a := ⟨u, client, now⟩) hupdates

/-- A run of calls. -/
theorem holds_run {calls : List RegistryCall}
    (hcalls : ∀ call ∈ calls, call.delta.updates ≠ [])
    (happs : ∀ a ∈ applications calls, a.Applicable platform key) {s : SourceRegistry}
    {done : List Application} (h : Holds platform key s done) :
    Holds platform key (run (upsert platform) s calls) ((applications calls).reverse ++ done) := by
  induction calls generalizing s done with
  | nil => exact h
  | cons call calls ih =>
    obtain ⟨hcall, hcalls⟩ := List.forall_mem_cons.1 hcalls
    rw [applications, List.flatMap_cons] at happs
    rw [applications, List.flatMap_cons, List.reverse_append, List.append_assoc, run_cons]
    exact ih hcalls (fun a ha => happs a (List.mem_append_right _ ha))
      (holds_upsert hcall (fun a ha => happs a (List.mem_append_left _ ha)) h)

/-- The fields of a record are those of the deciders of the updates written to it. -/
theorem field_run {s : SourceRegistry} (hnew : s.records.get? key = none)
    {calls : List RegistryCall} (hcalls : ∀ call ∈ calls, call.delta.updates ≠ [])
    (happs : ∀ a ∈ applications calls, a.Applicable platform key) :
    (run (upsert platform) s calls).field key = decided platform key (applications calls) := by
  funext f
  have hholds := holds_run hcalls happs (show Holds platform key s [] from hnew)
  rw [List.append_nil] at hholds
  rw [decided]
  cases hdone : (applications calls).reverse with
  | nil =>
    rw [hdone] at hholds
    rw [field, show (run (upsert platform) s calls).records.get? key = none from hholds]
    rfl
  | cons a done =>
    rw [hdone] at hholds
    obtain ⟨p, earlier, r, hwritten, hr, -, hrepresents⟩ := hholds
    rw [field, get?_of_newest hr, Option.bind_some, hrepresents.identity, present_identityAfter,
      register, Register.value_after, hwritten]
    rfl

/-- **The last writer wins if and only if the order lets it.** Updates with valid timestamps are
applied to the record of one key, from any registry without one. -/
theorem lastWriterWins_iff (platform : RegistryPlatform) {key : String} {s : SourceRegistry}
    (hnew : s.records.get? key = none) {calls : List RegistryCall}
    (hcalls : ∀ call ∈ calls, call.delta.updates ≠ [])
    (happs : ∀ a ∈ applications calls, a.Applicable platform key) :
    ∀ carries ∈ [Application.carried platform, Application.provided platform],
      (LastWriterWins platform carries (applications calls)
          ((run (upsert platform) s calls).field key) ↔
        InOrder platform carries key (applications calls)) := by
  intro carries _
  rw [LastWriterWins, InOrder, field_run hnew hcalls happs]

/-- A platform for texts in lower case, integers and three timestamps. -/
def textPlatform : RegistryPlatform where
  toLowerCase s := s
  stringToNumber _ := .nan
  numberToString q := toString q.num
  dateParse s :=
    if s = "2026-01-01T00:00:01Z" then some 1767225601000
    else if s = "2026-01-01T00:00:05Z" then some 1767225605000
    else if s = "2026-01-01T00:00:10Z" then some 1767225610000
    else none
  sha256 _ := ""

/-- An update of the source `n2k.1` with a label. -/
def labelled (label timestamp : String) : Application where
  update :=
    { source := .obj [("label", .str label), ("type", .str "NMEA2000")]
      sourceRef := some "n2k.1"
      timestamp := some timestamp
      values := [] }
  sourceClientInstanceId := "boat-1"
  now := 1767225620000

/-- The newest update is applied first. -/
def outOfOrder : List Application :=
  [labelled "gps" "2026-01-01T00:00:10Z", labelled "ais" "2026-01-01T00:00:01Z",
    labelled "depth" "2026-01-01T00:00:05Z"]

/-- The label of the update applied last stays: the one before it has set the clock back. -/
theorem not_lastWriterWins_outOfOrder :
    (∀ a ∈ outOfOrder, a.Applicable textPlatform "source-ref:n2k.1") ∧
    (outOfOrder.Pairwise fun a b => a.time textPlatform ≠ b.time textPlatform) ∧
    ∀ carries ∈ [Application.carried textPlatform, Application.provided textPlatform],
      ¬LastWriterWins textPlatform carries outOfOrder
        ((run (upsert textPlatform) new (outOfOrder.map Application.call)).field
          "source-ref:n2k.1") := by
  refine ⟨by decide +kernel, by decide +kernel, fun carries hcarries hwins => ?_⟩
  have hlabel : (run (upsert textPlatform) new (outOfOrder.map Application.call)).field
      "source-ref:n2k.1" .label = some (.str "depth") := by decide +kernel
  have hnewest : ∀ carries ∈ [Application.carried textPlatform, Application.provided textPlatform],
      IsNewest textPlatform carries outOfOrder .label (labelled "gps" "2026-01-01T00:00:10Z") ∧
        carries (labelled "gps" "2026-01-01T00:00:10Z") .label = some (.str "gps") := by
    decide +kernel
  obtain ⟨hgps, hcarried⟩ := hnewest carries hcarries
  have hfinal := hwins .label _ List.mem_cons_self hgps
  rw [hlabel, hcarried] at hfinal
  exact absurd hfinal (by decide)

def inOrder : List Application :=
  [labelled "ais" "2026-01-01T00:00:01Z", labelled "depth" "2026-01-01T00:00:05Z"]

theorem lastWriterWins_inOrder :
    LastWriterWins textPlatform (Application.carried textPlatform)
        (applications (inOrder.map Application.call))
        ((run (upsert textPlatform) new (inOrder.map Application.call)).field
          "source-ref:n2k.1") ∧
      LastWriterWins textPlatform (Application.provided textPlatform)
        (applications (inOrder.map Application.call))
        ((run (upsert textPlatform) new (inOrder.map Application.call)).field
          "source-ref:n2k.1") := by
  have happs : applications (inOrder.map Application.call) = inOrder := rfl
  have hskipped : ¬ Skipped textPlatform "source-ref:n2k.1"
      (labelled "depth" "2026-01-01T00:00:05Z") [labelled "ais" "2026-01-01T00:00:01Z"] := by
    decide +kernel
  have hwritten : written textPlatform "source-ref:n2k.1" inOrder.reverse = inOrder.reverse :=
    if_neg hskipped
  have hdecided : ∀ carries ∈ [Application.carried textPlatform,
      Application.provided textPlatform], ∀ f, ∀ a ∈ inOrder,
      IsNewest textPlatform carries inOrder f a →
        (Register.decider f (inOrder.reverse.map (·.write textPlatform))).bind (·.value f) =
          carries a f := by
    decide +kernel
  have hinOrder : ∀ carries ∈ [Application.carried textPlatform,
      Application.provided textPlatform],
      InOrder textPlatform carries "source-ref:n2k.1" inOrder := by
    intro carries hcarries f a ha hnewest
    rw [decided, hwritten]
    exact hdecided carries hcarries f a ha hnewest
  have hwins := lastWriterWins_iff textPlatform
    (show (new.records.get? "source-ref:n2k.1") = none from rfl)
    (show ∀ call ∈ inOrder.map Application.call, call.delta.updates ≠ [] by decide)
    (by rw [happs]; decide +kernel)
  rw [happs] at hwins ⊢
  exact ⟨(hwins _ (by simp)).2 (hinOrder _ (by simp)), (hwins _ (by simp)).2 (hinOrder _ (by simp))⟩

/-! ## Orders in which the last writer wins -/

theorem written_eq_cons (key : String) (a : Application) (earlier : List Application) :
    ∃ p ws, written platform key (a :: earlier) = p :: ws := by
  induction earlier generalizing a with
  | nil => exact ⟨a, [], rfl⟩
  | cons b earlier ih =>
    obtain ⟨p, ws, hwritten⟩ := ih b
    rw [written, hwritten]
    split_ifs
    · exact ⟨p, ws, rfl⟩
    · exact ⟨a, p :: ws, rfl⟩

/-- Where only repetitions are skipped, the register is that of all updates. -/
theorem register_written (hfree : CollisionFree platform key apps) {later : List Application}
    (happs : apps.reverse = later ++ a :: earlier) {ws : List Application}
    (hwritten : written platform key (a :: earlier) = p :: ws) :
    register platform p ws = register platform a earlier := by
  induction earlier generalizing a later p ws with
  | nil =>
    obtain ⟨rfl, rfl⟩ := List.cons.inj hwritten
    rfl
  | cons b earlier ih =>
    obtain ⟨q, vs, hb⟩ : ∃ q vs, written platform key (b :: earlier) = q :: vs :=
      written_eq_cons key b earlier
    have happs' : apps.reverse = (later ++ [a]) ++ b :: earlier := by
      rw [happs, List.append_assoc, List.singleton_append]
    have hbefore : register platform q vs = register platform b earlier := ih happs' hb
    have hmerge : register platform a (b :: earlier) =
        (register platform q vs).merge (a.write platform) := by
      rw [hbefore]
      rfl
    rw [written, hb] at hwritten
    split_ifs at hwritten with hskip
    · obtain ⟨rfl, rfl⟩ := List.cons.inj hwritten
      obtain ⟨hidentity, htime⟩ := hfree later a (b :: earlier) q vs happs hb hskip
      have hvalue : (register platform q vs).value = (register platform a (q :: vs)).value := by
        funext f
        rw [← present_identityAfter, ← present_identityAfter, hidentity]
      rw [hmerge]
      exact Register.ext ((Register.time_after ..).trans htime.symm) hvalue
    · obtain ⟨rfl, rfl⟩ := List.cons.inj hwritten
      rw [hmerge]
      rfl

theorem decided_eq (hfree : CollisionFree platform key apps) (f : IdentityField) :
    decided platform key apps f =
      (Register.decider f (apps.map (·.write platform)).reverse).bind (·.value f) := by
  rw [decided, ← List.map_reverse]
  cases hdone : apps.reverse with
  | nil => rfl
  | cons a earlier =>
    obtain ⟨p, ws, hwritten⟩ : ∃ p ws, written platform key (a :: earlier) = p :: ws :=
      written_eq_cons key a earlier
    have hnone : apps.reverse = [] ++ a :: earlier := hdone
    have hregister := register_written hfree hnone hwritten
    rw [hwritten, List.map_cons, List.map_cons, ← Register.value_after, ← Register.value_after]
    exact congrArg (·.value f) hregister

/-- Updates that come in the order of their timestamps, and carry whatever there is in their
identities, come in such an order. -/
theorem inOrder_of_ordered {carries : Application → IdentityField → Option JsValue}
    (hfree : CollisionFree platform key apps)
    (hordered : apps.Pairwise fun a b => a.time platform ≤ b.time platform)
    (hdistinct : ∀ a ∈ apps, ∀ b ∈ apps, a.time platform = b.time platform → carries a = carries b)
    (hcarries : ∀ a ∈ apps, a.provided platform = carries a) :
    InOrder platform carries key apps := by
  intro f a ha hnewest
  have hreverse : (apps.map (·.write platform)).reverse.Pairwise fun w prev => prev.time ≤ w.time :=
    List.pairwise_reverse.2 (List.pairwise_map.2 hordered)
  have hvalue : ∀ b ∈ apps, (b.write platform).value f = carries b f :=
    fun b hb => congrFun (hcarries b hb) f
  have hmem : a.write platform ∈ (apps.map (·.write platform)).reverse :=
    List.mem_reverse.2 (List.mem_map_of_mem ha)
  rw [decided_eq hfree, Register.decider_of_ordered hreverse.isChain]
  have hfind : ((apps.map (·.write platform)).reverse.find? fun w => (w.value f).isSome).isSome :=
    List.find?_isSome.2 ⟨a.write platform, hmem, by rw [hvalue a ha]; exact hnewest.1⟩
  obtain ⟨w, hw⟩ := Option.isSome_iff_exists.1 hfind
  obtain ⟨hsome, later, earlier, happend, hnot⟩ := List.find?_eq_some_iff_append.1 hw
  obtain ⟨b, hb, rfl⟩ := List.mem_map.1 (List.mem_reverse.1 (List.mem_of_find?_eq_some hw))
  rw [hvalue b hb] at hsome
  -- the newest update is not after the last one that carries the field
  have hle : a.time platform ≤ b.time platform := by
    rw [happend] at hmem hreverse
    rcases List.mem_append.1 hmem with hlater | hrest
    · have habsurd := hnot _ hlater
      rw [hvalue a ha, hnewest.1] at habsurd
      exact absurd habsurd (by decide)
    · rcases List.mem_cons.1 hrest with heq | hearlier
      · exact (congrArg Register.time heq).le
      · exact List.rel_of_pairwise_cons (List.pairwise_append.1 hreverse).2.1 hearlier
  rw [hw, Option.bind_some, hvalue b hb,
    hdistinct a ha b hb (hle.antisymm (hnewest.2 b hb hsome))]

theorem exists_isNewest {carries : Application → IdentityField → Option JsValue}
    {f : IdentityField} (h : ∃ a ∈ apps, (carries a f).isSome) :
    ∃ a ∈ apps, IsNewest platform carries apps f a := by
  obtain ⟨b, hb, hcarries⟩ := h
  have hmem : b ∈ apps.filter fun a => (carries a f).isSome := List.mem_filter.2 ⟨hb, hcarries⟩
  rcases hmax : (apps.filter fun a => (carries a f).isSome).argmax (·.time platform) with _ | a
  · rw [List.argmax_eq_none.1 hmax] at hmem
    exact absurd hmem List.not_mem_nil
  obtain ⟨ha, hsome⟩ := List.mem_filter.1 (List.argmax_mem hmax)
  exact ⟨a, ha, hsome, fun b hb hcarries =>
    List.le_of_mem_argmax (List.mem_filter.2 ⟨hb, hcarries⟩) hmax⟩

theorem written_sublist (key : String) (apps : List Application) :
    (written platform key apps).Sublist apps := by
  induction apps with
  | nil => exact List.Sublist.refl _
  | cons a apps ih =>
    rw [written]
    split_ifs
    · exact ih.cons a
    · exact ih.cons_cons a

theorem decided_eq_none {f : IdentityField}
    (h : ∀ w ∈ apps.map (·.write platform), w.value f = none) :
    decided platform key apps f = none := by
  rw [decided, Register.decider_eq_none.2, Option.bind_none]
  intro w hw
  obtain ⟨a, ha, rfl⟩ := List.mem_map.1 hw
  exact h _ (List.mem_map_of_mem (List.mem_reverse.1 ((written_sublist key _).subset ha)))

/-- Where the last writer wins, the order of the updates and their repetitions do not matter. -/
theorem field_eq_of_lastWriterWins {s s' : SourceRegistry} (hnew : s.records.get? key = none)
    (hnew' : s'.records.get? key = none) {calls calls' : List RegistryCall}
    (hcalls : ∀ call ∈ calls, call.delta.updates ≠ [])
    (hcalls' : ∀ call ∈ calls', call.delta.updates ≠ [])
    (happs : ∀ a ∈ applications calls, a.Applicable platform key)
    (happs' : ∀ a ∈ applications calls', a.Applicable platform key)
    (hsame : ∀ w, w ∈ (applications calls).map (·.write platform) ↔
      w ∈ (applications calls').map (·.write platform))
    (hwins : LastWriterWins platform (Application.provided platform) (applications calls)
      ((run (upsert platform) s calls).field key))
    (hwins' : LastWriterWins platform (Application.provided platform) (applications calls')
      ((run (upsert platform) s' calls').field key)) :
    (run (upsert platform) s calls).field key = (run (upsert platform) s' calls').field key := by
  funext f
  by_cases h : ∃ a ∈ applications calls, (a.provided platform f).isSome
  · obtain ⟨a, ha, hsome, hnewest⟩ := exists_isNewest h
    obtain ⟨a', ha', hwrite⟩ := List.mem_map.1 ((hsame _).1 (List.mem_map_of_mem ha))
    have htime : a'.time platform = a.time platform := congrArg Register.time hwrite
    have hvalue : a'.provided platform f = a.provided platform f :=
      congrFun (congrArg Register.value hwrite) f
    rw [hwins f a ha ⟨hsome, hnewest⟩, hwins' f a' ha' ⟨hvalue ▸ hsome, ?_⟩, hvalue]
    intro b' hb' hb'some
    obtain ⟨b, hb, hbwrite⟩ := List.mem_map.1 ((hsame _).2 (List.mem_map_of_mem hb'))
    have hbtime : b.time platform = b'.time platform := congrArg Register.time hbwrite
    have hbvalue : b.provided platform f = b'.provided platform f :=
      congrFun (congrArg Register.value hbwrite) f
    rw [htime, ← hbtime]
    exact hnewest b hb (hbvalue ▸ hb'some)
  · -- no update provides the field
    have hnone : ∀ w ∈ (applications calls).map (·.write platform), w.value f = none := by
      intro w hw
      obtain ⟨a, ha, rfl⟩ := List.mem_map.1 hw
      by_contra hsome
      exact h ⟨a, ha, Option.isSome_iff_ne_none.2 hsome⟩
    rw [field_run hnew hcalls happs, field_run hnew' hcalls' happs', decided_eq_none hnone,
      decided_eq_none fun w hw => hnone w ((hsame w).2 hw)]

end SourceRegistry

end EdgeLink
