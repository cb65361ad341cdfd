import EdgeLink.Codec.JsText
import EdgeLink.Codec.SnapshotLeaves

/-!
# Attribution of received deltas

`codec/source-dispatch.ts`: the `$source` under which a received update is handed to the server.
What a server makes of an update before it is sent to the next node is not the plugin's: it is a
parameter here, of which `KeepsSource` is assumed.

* `attribution_settles`: the first node that an update passes settles its reference.
* `snapshot_attribution`: what a node sends of its tree under a reference is nowhere handed to the
  server under the plugin's own name.
-/

namespace EdgeLink

open JsValue

/-! ## Trimmed strings -/

/-- A string that does not begin or end with white space. -/
theorem trim_eq_self_iff {s : String} : trim s = s ↔
    s.toList.dropWhile isTrimmed = s.toList ∧
      s.toList.reverse.dropWhile isTrimmed = s.toList.reverse := by
  have hlist : trim s = s ↔
      ((s.toList.dropWhile isTrimmed).reverse.dropWhile isTrimmed).reverse = s.toList := by
    rw [trim, ← String.toList_inj, String.toList_ofList]
  rw [hlist]
  constructor
  · intro h
    have hhead : s.toList.dropWhile isTrimmed = s.toList := by
      have hlength := congrArg List.length h
      have hle : ((s.toList.dropWhile isTrimmed).reverse.dropWhile isTrimmed).length ≤
          (s.toList.dropWhile isTrimmed).reverse.length := (List.dropWhile_sublist _).length_le
      rw [List.length_reverse] at hle hlength
      exact (List.dropWhile_sublist _).eq_of_length_le (by omega)
    rw [hhead] at h
    exact ⟨hhead, by rw [← List.reverse_inj, h, List.reverse_reverse]⟩
  · rintro ⟨hhead, hlast⟩
    rw [hhead, hlast, List.reverse_reverse]

theorem dropWhile_append_of_self {α : Type*} {p : α → Bool} {l : List α} (r : List α) (hl : l ≠ [])
    (h : l.dropWhile p = l) : (l ++ r).dropWhile p = l ++ r := by
  cases l with
  | nil => exact absurd rfl hl
  | cons a l =>
    have hp : ¬ p a = true := by
      intro hp
      rw [List.dropWhile_cons_of_pos hp] at h
      have hle := (List.dropWhile_sublist p (l := l)).length_le
      rw [h, List.length_cons] at hle
      omega
    rw [List.cons_append, List.dropWhile_cons_of_neg hp]

/-- Trimmed strings are trimmed when they are joined. -/
theorem trim_join {a b : String} (ha : trim a = a) (hb : trim b = b) (ha0 : a ≠ "") (hb0 : b ≠ "")
    (sep : String) : trim (a ++ sep ++ b) = a ++ sep ++ b := by
  have hne : ∀ {s : String}, s ≠ "" → s.toList ≠ [] := fun hs h => hs (String.toList_eq_nil_iff.1 h)
  rw [trim_eq_self_iff] at ha hb ⊢
  simp only [String.toList_append, List.reverse_append, List.append_assoc]
  exact ⟨dropWhile_append_of_self _ (hne ha0) ha.1,
    dropWhile_append_of_self _ (by simpa using hne hb0) hb.2⟩

@[simp] theorem trim_empty : trim "" = "" := rfl

/-! ## The plugin's own name -/

theorem isOwnSource_iff {name : String} : isOwnSource name = true ↔
    name.toList = "signalk-edge-link".toList ∨
      ∃ c, (c = '.' ∨ c = ':') ∧ "signalk-edge-link".toList ++ [c] <+: name.toList := by
  rw [isOwnSource]
  simp only [Bool.or_eq_true, beq_iff_eq, List.isPrefixOf_iff_prefix, String.ext_iff]
  constructor
  · rintro ((h | h) | h)
    · exact Or.inl h
    · exact Or.inr ⟨'.', Or.inl rfl, h⟩
    · exact Or.inr ⟨':', Or.inr rfl, h⟩
  · rintro (h | ⟨c, rfl | rfl, h⟩)
    · exact Or.inl (Or.inl h)
    · exact Or.inl (Or.inr h)
    · exact Or.inr h

/-- What follows a dot makes a name neither the plugin's own nor another's. -/
theorem isOwnSource_join (label rest : String) :
    isOwnSource (label ++ "." ++ rest) = isOwnSource label := by
  have hdot : ".".toList = ['.'] := rfl
  rw [Bool.eq_iff_iff, isOwnSource_iff, isOwnSource_iff]
  simp only [String.toList_append, hdot, List.append_assoc, List.singleton_append]
  have hplain : '.' ∉ "signalk-edge-link".toList := by decide
  generalize "signalk-edge-link".toList = own at hplain
  constructor
  · rintro (h | ⟨c, hc, h⟩)
    · exact absurd (h ▸ by simp) hplain
    · have hlabel := List.prefix_append label.toList ('.' :: rest.toList)
      rcases List.prefix_or_prefix_of_prefix h hlabel with hlong | hshort
      · exact Or.inr ⟨c, hc, hlong⟩
      · rcases List.prefix_concat_iff.1 hshort with hfull | ⟨t, ht⟩
        · exact Or.inr ⟨c, hc, hfull ▸ List.prefix_rfl⟩
        · cases t with
          | nil => exact Or.inl (by simpa using ht)
          | cons x t =>
            -- the name goes on where the label ends, and there stands the dot
            rw [← ht, List.append_assoc, List.prefix_append_right_inj, List.cons_append,
              List.cons_prefix_cons] at h
            exact absurd (ht ▸ by simp [h.1]) hplain
  · rintro (h | ⟨c, hc, h⟩)
    · exact Or.inr ⟨'.', Or.inl rfl, by rw [h]; simp⟩
    · exact Or.inr ⟨c, hc, h.trans (List.prefix_append _ _)⟩

namespace SourceDispatch

variable (numberToString : ℚ → String)

/-- `trimmedString` of the source: blank when there is no string. -/
def trimmedText : JsValue → String
  | .str s => trim s
  | _ => ""

/-- The reference of a structured source. -/
def deriveSourceRefFromObject (source : JsValue) : String :=
  let label := trimmedText (source.get "label")
  let canName := trimmedText (source.get "canName")
  let srcValue := source.get "src"
  let src := if srcValue = .undefined ∨ srcValue = .null then ""
    else trim (srcValue.toText numberToString)
  let talker := trimmedText (source.get "talker")
  if label = "" then ""
  else if canName ≠ "" then label ++ "." ++ canName
  else if src ≠ "" then label ++ "." ++ src
  else if talker ≠ "" then label ++ "." ++ talker
  else label

/-- The reference that the structured source of an update gives. -/
def derivedRef (update : DeltaUpdate) : String :=
  match update.source with
  | .obj _ => deriveSourceRefFromObject numberToString update.source
  | _ => ""

/-- The reference that an update names itself. -/
def explicitRef (update : DeltaUpdate) : String := trim (update.sourceRef.getD "")

def resolveSourceRef (update : DeltaUpdate) : String :=
  let explicit := explicitRef update
  let derived := derivedRef numberToString update
  if explicit ≠ "" then
    if isOwnSource explicit = false then explicit
    else if derived = "" ∨ isOwnSource derived then explicit
    else derived
  else derived

def hasEdgeLinkOwnDataValues (update : DeltaUpdate) : Bool :=
  update.values.any fun v => "networking.edgeLink.".toList.isPrefixOf v.path.toList

/-- The reference under which an update is stored. -/
def dispatchedRef (update : DeltaUpdate) : String :=
  let sourceRef := resolveSourceRef numberToString update
  if sourceRef ≠ "signalk-edge-link" ∧ isOwnSource sourceRef ∧ hasEdgeLinkOwnDataValues update then
    "signalk-edge-link"
  else sourceRef

def prepareUpdateForDispatch (update : DeltaUpdate) : DeltaUpdate where
  values := update.values
  timestamp := update.timestamp
  metaEntries := update.metaEntries
  sourceRef :=
    let sourceRef := dispatchedRef numberToString update
    if sourceRef = "" then none else some sourceRef

/-- The label of the structured source of an update. -/
def sourceLabel (update : DeltaUpdate) : String :=
  match update.source with
  | .obj _ => trimmedText (update.source.get "label")
  | _ => ""

/-- Take out a stale reference where a structured source tells the real one. -/
def normalizeUpdate (update : DeltaUpdate) : DeltaUpdate :=
  let sourceRef := explicitRef update
  if sourceRef = "" ∨ isOwnSource sourceRef = false then update
  else if sourceLabel update = "" ∨ isOwnSource (sourceLabel update) then update
  else { update with sourceRef := none }

def normalizeDeltaSourceRefs (delta : Delta) : Delta :=
  { delta with updates := delta.updates.map normalizeUpdate }

/-- What is handed to the Signal K server. -/
def handleMessageBySource (delta : Delta) : Option Delta :=
  if delta.updates = [] then none
  else some { delta with updates := delta.updates.map (prepareUpdateForDispatch numberToString) }

/-- What a node that receives an update hands to its server. -/
def received (update : DeltaUpdate) : DeltaUpdate :=
  prepareUpdateForDispatch numberToString (normalizeUpdate update)

/-- **What is assumed of a node**, which takes an update from its server to the next one: the server
stores the values under the `$source` that they come with, and they are sent under the same. Nothing
is assumed of an update without a `$source`, for which the server makes one up, nor of the values
and the structured source that an update is sent with. -/
def KeepsSource (relay : DeltaUpdate → DeltaUpdate) : Prop :=
  ∀ update ref, update.sourceRef = some ref → (relay update).sourceRef = some ref

/-- What the last of several nodes hands to its server, of an update handed to that of the first. -/
def handedOn (relays : List (DeltaUpdate → DeltaUpdate)) (handed : DeltaUpdate) : DeltaUpdate :=
  relays.foldl (fun handed relay => received numberToString (relay handed)) handed

/-! ## The derived reference -/

@[simp] theorem trim_trimmedText (v : JsValue) : trim (trimmedText v) = trimmedText v := by
  cases v <;> simp [trimmedText]

@[simp] theorem trim_explicitRef (update : DeltaUpdate) :
    trim (explicitRef update) = explicitRef update := trim_trim _

/-- A reference that a label gives: the label itself, or the label and a suffix after a dot. -/
def FromLabel (label ref : String) : Prop :=
  ref = label ∨ ∃ rest, trim rest = rest ∧ rest ≠ "" ∧ ref = label ++ "." ++ rest

theorem FromLabel.isOwnSource_eq {label ref : String} (h : FromLabel label ref) :
    isOwnSource ref = isOwnSource label := by
  rcases h with rfl | ⟨rest, -, -, rfl⟩
  · rfl
  · exact isOwnSource_join label rest

theorem FromLabel.trim_eq {label ref : String} (h : FromLabel label ref)
    (hlabel : trim label = label) (hne : label ≠ "") : trim ref = ref := by
  rcases h with rfl | ⟨rest, htrim, hrest, rfl⟩
  · exact hlabel
  · exact trim_join hlabel htrim hne hrest "."

theorem FromLabel.ne_empty {label ref : String} (h : FromLabel label ref) (hne : label ≠ "") :
    ref ≠ "" := by
  rcases h with rfl | ⟨rest, -, -, rfl⟩
  · exact hne
  · simp [hne]

theorem fromLabel_derive (source : JsValue) (h : trimmedText (source.get "label") ≠ "") :
    FromLabel (trimmedText (source.get "label"))
      (deriveSourceRefFromObject numberToString source) := by
  simp only [deriveSourceRefFromObject, if_neg h]
  split_ifs with hcan hsrc hblank htalker hblank htalker
  · exact Or.inr ⟨_, trim_trimmedText _, hcan, rfl⟩
  · exact absurd rfl hblank
  · exact Or.inr ⟨_, trim_trimmedText _, htalker, rfl⟩
  · exact Or.inl rfl
  · exact Or.inr ⟨_, trim_trim _, hblank, rfl⟩
  · exact Or.inr ⟨_, trim_trimmedText _, htalker, rfl⟩
  · exact Or.inl rfl

/-- Without a label there is no derived reference, and with one it comes from the label. -/
theorem derivedRef_cases (update : DeltaUpdate) :
    (sourceLabel update = "" ∧ derivedRef numberToString update = "") ∨
      (sourceLabel update ≠ "" ∧
        FromLabel (sourceLabel update) (derivedRef numberToString update)) := by
  rw [sourceLabel, derivedRef]
  split
  · by_cases hlabel : trimmedText (update.source.get "label") = ""
    · exact Or.inl ⟨hlabel, by simp [deriveSourceRefFromObject, hlabel]⟩
    · exact Or.inr ⟨hlabel, fromLabel_derive numberToString update.source hlabel⟩
  · exact Or.inl ⟨rfl, rfl⟩

/-! ## The resolved reference -/

theorem trim_resolveSourceRef (update : DeltaUpdate) :
    trim (resolveSourceRef numberToString update) = resolveSourceRef numberToString update := by
  have hderived : trim (derivedRef numberToString update) = derivedRef numberToString update := by
    rcases derivedRef_cases numberToString update with ⟨-, hblank⟩ | ⟨hlabel, hfrom⟩
    · rw [hblank, trim_empty]
    · apply hfrom.trim_eq _ hlabel
      rw [sourceLabel]
      split <;> simp
  simp only [resolveSourceRef]
  split_ifs
  · exact trim_explicitRef update
  · exact trim_explicitRef update
  · exact hderived
  · exact hderived

/-- Taking out a stale reference does not change what the source object gives. -/
theorem resolve_normalizeUpdate (update : DeltaUpdate) :
    resolveSourceRef numberToString (normalizeUpdate update) =
      resolveSourceRef numberToString update := by
  rw [normalizeUpdate]
  by_cases hfresh : explicitRef update = "" ∨ isOwnSource (explicitRef update) = false
  · rw [if_pos hfresh]
  by_cases hlabel : sourceLabel update = "" ∨ isOwnSource (sourceLabel update) = true
  · rw [if_neg hfresh, if_pos hlabel]
  rw [if_neg hfresh, if_neg hlabel]
  push Not at hfresh hlabel
  -- the derived reference is fresh, so the stale one would not have been used anyway
  obtain ⟨-, hfrom⟩ : sourceLabel update ≠ "" ∧
      FromLabel (sourceLabel update) (derivedRef numberToString update) :=
    (derivedRef_cases numberToString update).resolve_left fun h => hlabel.1 h.1
  have hderived : ¬(derivedRef numberToString update = "" ∨
      isOwnSource (derivedRef numberToString update) = true) := by
    rintro (h | h)
    · exact hfrom.ne_empty hlabel.1 h
    · exact hlabel.2 (hfrom.isOwnSource_eq ▸ h)
  have hblank : explicitRef { update with sourceRef := none } = "" := trim_empty
  have hsame : derivedRef numberToString { update with sourceRef := none } =
      derivedRef numberToString update := rfl
  simp only [resolveSourceRef, hblank, hsame, ne_eq, not_true_eq_false, if_false, hfresh.1,
    not_false_eq_true, if_true, if_neg hfresh.2, if_neg hderived]

theorem prepare_normalizeUpdate (update : DeltaUpdate) :
    prepareUpdateForDispatch numberToString (normalizeUpdate update) =
      prepareUpdateForDispatch numberToString update := by
  have hvalues : (normalizeUpdate update).values = update.values := by
    rw [normalizeUpdate]; split_ifs <;> rfl
  have htimestamp : (normalizeUpdate update).timestamp = update.timestamp := by
    rw [normalizeUpdate]; split_ifs <;> rfl
  have hmeta : (normalizeUpdate update).metaEntries = update.metaEntries := by
    rw [normalizeUpdate]; split_ifs <;> rfl
  have href : dispatchedRef numberToString (normalizeUpdate update) =
      dispatchedRef numberToString update := by
    rw [dispatchedRef, dispatchedRef, resolve_normalizeUpdate, hasEdgeLinkOwnDataValues, hvalues]
    rfl
  rw [prepareUpdateForDispatch, prepareUpdateForDispatch, hvalues, htimestamp, hmeta, href]

/-! ## Settled updates -/

/-- An update that is stored the way it is. -/
structure Settled (update : DeltaUpdate) : Prop where
  /-- there is no structured source any more -/
  source : update.source = .undefined
  /-- the reference is no blank one -/
  trimmed : ∀ ref, update.sourceRef = some ref → trim ref = ref ∧ ref ≠ ""
  /-- the plugin's own data have the plugin's bare name -/
  ownData : ∀ ref, update.sourceRef = some ref → isOwnSource ref = true →
    hasEdgeLinkOwnDataValues update = true → ref = "signalk-edge-link"

theorem settled_prepare (update : DeltaUpdate) :
    Settled (prepareUpdateForDispatch numberToString update) := by
  have hvalues : hasEdgeLinkOwnDataValues (prepareUpdateForDispatch numberToString update) =
    hasEdgeLinkOwnDataValues update := rfl
  have href : ∀ ref, (prepareUpdateForDispatch numberToString update).sourceRef = some ref →
      ref = dispatchedRef numberToString update ∧ ref ≠ "" := by
    intro ref h
    by_cases hblank : dispatchedRef numberToString update = ""
    · simp [prepareUpdateForDispatch, hblank] at h
    · obtain rfl : dispatchedRef numberToString update = ref := by
        simpa [prepareUpdateForDispatch, hblank] using h
      exact ⟨rfl, hblank⟩
  refine ⟨rfl, fun ref h => ?_, fun ref h hown hdata => ?_⟩
  · obtain ⟨rfl, hne⟩ := href ref h
    refine ⟨?_, hne⟩
    rw [dispatchedRef]
    split_ifs
    · decide
    · exact trim_resolveSourceRef numberToString update
  · obtain ⟨rfl, -⟩ := href ref h
    rw [hvalues] at hdata
    rw [dispatchedRef] at hown ⊢
    split_ifs at hown ⊢ with hcond
    · rfl
    · by_contra hne
      exact hcond ⟨hne, hown, hdata⟩

theorem Settled.prepare_eq {update : DeltaUpdate} (h : Settled update) :
    prepareUpdateForDispatch numberToString update = update := by
  have hderived : derivedRef numberToString update = "" := by rw [derivedRef, h.source]
  have hresolve : resolveSourceRef numberToString update = explicitRef update := by
    simp only [resolveSourceRef, hderived, true_or, if_true, ite_self]
    split_ifs with hblank
    · rfl
    · exact (not_not.1 hblank).symm
  have href : (if dispatchedRef numberToString update = "" then none
      else some (dispatchedRef numberToString update)) = update.sourceRef := by
    rw [dispatchedRef, hresolve, explicitRef]
    cases hsource : update.sourceRef with
    | none => simp [isOwnSource]
    | some ref =>
      obtain ⟨htrim, hne⟩ := h.trimmed ref hsource
      rw [Option.getD_some, htrim]
      split_ifs with hcond hblank
      · exact absurd (h.ownData ref hsource hcond.2.1 hcond.2.2) hcond.1
      · exact absurd (h.ownData ref hsource hcond.2.1 hcond.2.2) hcond.1
      · rfl
  cases update
  simp only [prepareUpdateForDispatch] at href ⊢
  rw [href, ← h.source]

/-! ## Attribution -/

/-- What may become of a received update. -/
structure Attributed (update stored : DeltaUpdate) : Prop where
  values : stored.values = update.values
  timestamp : stored.timestamp = update.timestamp
  metaEntries : stored.metaEntries = update.metaEntries
  settled : Settled stored
  /-- a reference to another source is kept -/
  kept : explicitRef update ≠ "" → isOwnSource (explicitRef update) = false →
    stored.sourceRef = some (explicitRef update)
  /-- a blank or stale one gives way to the label of the structured source -/
  fromLabel : (explicitRef update = "" ∨ isOwnSource (explicitRef update) = true) →
    sourceLabel update ≠ "" → isOwnSource (sourceLabel update) = false →
    ∃ ref, stored.sourceRef = some ref ∧ FromLabel (sourceLabel update) ref
  /-- the plugin's own name is left where nothing else is known -/
  own : ∀ ref, stored.sourceRef = some ref → isOwnSource ref = true →
    (explicitRef update = "" ∨ isOwnSource (explicitRef update) = true) ∧
      (sourceLabel update = "" ∨ isOwnSource (sourceLabel update) = true)
  unnamed : stored.sourceRef = none ↔ explicitRef update = "" ∧ sourceLabel update = ""

/-- The reference in terms of the two names that an update brings. -/
theorem resolve_cases (update : DeltaUpdate) :
    (explicitRef update ≠ "" ∧ isOwnSource (explicitRef update) = false ∧
        resolveSourceRef numberToString update = explicitRef update) ∨
      ((explicitRef update = "" ∨ isOwnSource (explicitRef update) = true) ∧
        sourceLabel update ≠ "" ∧
        (explicitRef update = "" ∨ isOwnSource (sourceLabel update) = false) ∧
        FromLabel (sourceLabel update) (resolveSourceRef numberToString update)) ∨
      (isOwnSource (explicitRef update) = true ∧
        (sourceLabel update = "" ∨ isOwnSource (sourceLabel update) = true) ∧
        resolveSourceRef numberToString update = explicitRef update) ∨
      (explicitRef update = "" ∧ sourceLabel update = "" ∧
        resolveSourceRef numberToString update = "") := by
  rcases derivedRef_cases numberToString update with ⟨hlabel, hderived⟩ | ⟨hlabel, hfrom⟩
  · by_cases hblank : explicitRef update = ""
    · refine Or.inr (Or.inr (Or.inr ⟨hblank, hlabel, ?_⟩))
      simp [resolveSourceRef, hblank, hderived]
    · have hresolve : resolveSourceRef numberToString update = explicitRef update := by
        simp [resolveSourceRef, hblank, hderived]
      cases hown : isOwnSource (explicitRef update) with
      | false => exact Or.inl ⟨hblank, rfl, hresolve⟩
      | true => exact Or.inr (Or.inr (Or.inl ⟨rfl, Or.inl hlabel, hresolve⟩))
  · have hderived := hfrom.ne_empty hlabel
    by_cases hblank : explicitRef update = ""
    · refine Or.inr (Or.inl ⟨Or.inl hblank, hlabel, Or.inl hblank, ?_⟩)
      simpa [resolveSourceRef, hblank] using hfrom
    · cases hown : isOwnSource (explicitRef update) with
      | false => exact Or.inl ⟨hblank, rfl, by simp [resolveSourceRef, hblank, hown]⟩
      | true =>
        cases hstale : isOwnSource (sourceLabel update) with
        | false =>
          refine Or.inr (Or.inl ⟨Or.inr rfl, hlabel, Or.inr rfl, ?_⟩)
          simpa [resolveSourceRef, hblank, hown, hderived, hfrom.isOwnSource_eq, hstale] using hfrom
        | true =>
          refine Or.inr (Or.inr (Or.inl ⟨rfl, Or.inr rfl, ?_⟩))
          simp [resolveSourceRef, hblank, hown, hfrom.isOwnSource_eq, hstale]

/-- The reference of the plugin's own data is as stale as the one it replaces. -/
theorem dispatchedRef_cases (update : DeltaUpdate) :
    dispatchedRef numberToString update = resolveSourceRef numberToString update ∨
      (isOwnSource (resolveSourceRef numberToString update) = true ∧
        dispatchedRef numberToString update = "signalk-edge-link") := by
  simp only [dispatchedRef]
  split_ifs with h
  · exact Or.inr ⟨h.2.1, rfl⟩
  · exact Or.inl rfl

theorem dispatchedRef_of_fresh {update : DeltaUpdate}
    (h : isOwnSource (resolveSourceRef numberToString update) = false) :
    dispatchedRef numberToString update = resolveSourceRef numberToString update :=
  (dispatchedRef_cases numberToString update).resolve_right fun hown => by simp [h] at hown

@[simp] theorem isOwnSource_empty : isOwnSource "" = false := rfl

theorem isOwnSource_dispatchedRef (update : DeltaUpdate) :
    isOwnSource (dispatchedRef numberToString update) =
      isOwnSource (resolveSourceRef numberToString update) := by
  rcases dispatchedRef_cases numberToString update with h | ⟨hown, h⟩
  · rw [h]
  · rw [h, hown]
    rfl

theorem sourceRef_prepare (update : DeltaUpdate) :
    (prepareUpdateForDispatch numberToString update).sourceRef =
      if dispatchedRef numberToString update = "" then none
      else some (dispatchedRef numberToString update) := by
  rw [prepareUpdateForDispatch]

theorem attributed_prepare (update : DeltaUpdate) :
    Attributed update (prepareUpdateForDispatch numberToString update) := by
  have hsome : ∀ {ref}, (prepareUpdateForDispatch numberToString update).sourceRef = some ref →
      isOwnSource (resolveSourceRef numberToString update) = isOwnSource ref := by
    intro ref h
    rw [← isOwnSource_dispatchedRef]
    rw [sourceRef_prepare] at h
    split_ifs at h
    rw [Option.some.inj h]
  have hfresh : ∀ {ref}, resolveSourceRef numberToString update = ref → ref ≠ "" →
      isOwnSource ref = false →
      (prepareUpdateForDispatch numberToString update).sourceRef = some ref := by
    rintro ref rfl hne hown
    rw [sourceRef_prepare, dispatchedRef_of_fresh numberToString hown, if_neg hne]
  have hnone : (prepareUpdateForDispatch numberToString update).sourceRef = none ↔
      resolveSourceRef numberToString update = "" := by
    rw [sourceRef_prepare, ite_eq_left_iff]
    rcases dispatchedRef_cases numberToString update with h | ⟨hown, h⟩
    · simp [h]
    · rw [h]
      exact ⟨fun hall => absurd (hall (by decide)) (by simp), fun hr => by simp [hr] at hown⟩
  refine ⟨rfl, rfl, rfl, settled_prepare numberToString update, fun hne hfr => ?_,
    fun hstale hlabel hlabelFresh => ?_, fun ref href hown => ?_, ?_⟩
  · rcases resolve_cases numberToString update with
      ⟨-, -, h⟩ | ⟨h | h, -⟩ | ⟨h, -⟩ | ⟨h, -⟩
    · exact hfresh h hne hfr
    · exact absurd h hne
    · simp [hfr] at h
    · simp [hfr] at h
    · exact absurd h hne
  · rcases resolve_cases numberToString update with
      ⟨hne, hfr, -⟩ | ⟨-, -, -, hfrom⟩ | ⟨-, h | h, -⟩ | ⟨-, h, -⟩
    · rcases hstale with h | h
      · exact absurd h hne
      · simp [hfr] at h
    · have hfr := hfrom.isOwnSource_eq.trans hlabelFresh
      exact ⟨_, hfresh rfl (hfrom.ne_empty hlabel) hfr, hfrom⟩
    · exact absurd h hlabel
    · simp [hlabelFresh] at h
    · exact absurd h hlabel
  · rw [← hsome href] at hown
    rcases resolve_cases numberToString update with
      ⟨-, hfr, h⟩ | ⟨hstale, -, -, hfrom⟩ | ⟨hexplicit, hlabel, -⟩ | ⟨-, -, h⟩
    · rw [h, hfr] at hown
      nomatch hown
    · exact ⟨hstale, Or.inr (hfrom.isOwnSource_eq ▸ hown)⟩
    · exact ⟨Or.inr hexplicit, hlabel⟩
    · rw [h, isOwnSource_empty] at hown
      nomatch hown
  · rw [hnone]
    rcases resolve_cases numberToString update with
      ⟨hne, -, h⟩ | ⟨-, hlabel, -, hfrom⟩ | ⟨hown, -, h⟩ | ⟨hblank, hlabel, h⟩
    · simp [h, hne]
    · simp [hfrom.ne_empty hlabel, hlabel]
    · have hne : explicitRef update ≠ "" := fun hblank => by simp [hblank] at hown
      simp [h, hne]
    · simp [h, hblank, hlabel]

/-! ## Deltas on their way from node to node -/

theorem map_prepare_normalize (updates : List DeltaUpdate) :
    (updates.map normalizeUpdate).map (prepareUpdateForDispatch numberToString) =
      updates.map (prepareUpdateForDispatch numberToString) := by
  induction updates with
  | nil => rfl
  | cons update updates ih => simp only [List.map_cons, ih, prepare_normalizeUpdate]

theorem map_prepare_prepare (updates : List DeltaUpdate) :
    (updates.map (prepareUpdateForDispatch numberToString)).map
        (prepareUpdateForDispatch numberToString) =
      updates.map (prepareUpdateForDispatch numberToString) := by
  induction updates with
  | nil => rfl
  | cons update updates ih =>
    simp only [List.map_cons, ih, (settled_prepare numberToString update).prepare_eq]

theorem handle_normalize (delta : Delta) :
    handleMessageBySource numberToString (normalizeDeltaSourceRefs delta) =
      handleMessageBySource numberToString delta := by
  rw [handleMessageBySource, handleMessageBySource, normalizeDeltaSourceRefs,
    map_prepare_normalize]
  simp only [List.map_eq_nil_iff]

/-- What is handed to the server is handed to it again as it is. -/
theorem handle_handle {delta handed : Delta}
    (h : handleMessageBySource numberToString delta = some handed) :
    handleMessageBySource numberToString handed = some handed := by
  rw [handleMessageBySource] at h
  split_ifs at h with hempty
  obtain rfl := Option.some.inj h
  rw [handleMessageBySource, if_neg (by simpa using hempty), map_prepare_prepare]

/-- A reference to another source goes from node to node. -/
theorem received_of_fresh {update : DeltaUpdate} {ref : String} (href : update.sourceRef = some ref)
    (htrim : trim ref = ref) (hne : ref ≠ "") (hown : isOwnSource ref = false) :
    (received numberToString update).sourceRef = some ref := by
  have hexplicit : explicitRef update = ref := by rw [explicitRef, href, Option.getD_some, htrim]
  rw [received, prepare_normalizeUpdate]
  have hkept := (attributed_prepare numberToString update).kept (hexplicit.trans_ne hne)
    (hexplicit ▸ hown)
  exact hkept.trans (congrArg some hexplicit)

theorem handedOn_of_fresh {relays : List (DeltaUpdate → DeltaUpdate)}
    (hrelays : ∀ relay ∈ relays, KeepsSource relay) {handed : DeltaUpdate} {ref : String}
    (href : handed.sourceRef = some ref) (htrim : trim ref = ref) (hne : ref ≠ "")
    (hown : isOwnSource ref = false) :
    (handedOn numberToString relays handed).sourceRef = some ref := by
  induction relays generalizing handed with
  | nil => exact href
  | cons relay relays ih =>
    obtain ⟨hrelay, hrest⟩ := List.forall_mem_cons.1 hrelays
    exact ih hrest (received_of_fresh numberToString (hrelay handed ref href) htrim hne hown)

/-- **Attribution over a chain of nodes.** A node hands the updates of a delta to its server with
their values, under references as `Attributed` says, also where stale references are not taken out
before; what has been handed over once is handed over again as it is. A reference to another source
is then kept by any nodes that the update passes. -/
theorem attribution_settles {delta handed : Delta}
    (h : handleMessageBySource numberToString (normalizeDeltaSourceRefs delta) = some handed) :
    handleMessageBySource numberToString delta = some handed ∧
      handleMessageBySource numberToString handed = some handed ∧
      handed.context = delta.context ∧ List.Forall₂ Attributed delta.updates handed.updates ∧
      ∀ update ∈ handed.updates, ∀ ref, update.sourceRef = some ref → isOwnSource ref = false →
        ∀ relays : List (DeltaUpdate → DeltaUpdate), (∀ relay ∈ relays, KeepsSource relay) →
          (handedOn numberToString relays update).sourceRef = some ref := by
  rw [handle_normalize] at h
  have hagain := handle_handle numberToString h
  refine ⟨h, hagain, ?_⟩
  rw [handleMessageBySource] at h
  split_ifs at h with hempty
  obtain rfl := Option.some.inj h
  refine ⟨rfl, ?_, fun update hupdate ref href hown relays hrelays => ?_⟩
  · rw [List.forall₂_map_right_iff, List.forall₂_same]
    exact fun update _ => attributed_prepare numberToString update
  · obtain ⟨origin, -, rfl⟩ := List.mem_map.1 hupdate
    obtain ⟨htrim, hne⟩ := (settled_prepare numberToString origin).trimmed ref href
    exact handedOn_of_fresh numberToString hrelays href htrim hne hown

/-- A node whose server makes up a `$source` where there is none, and which adds the source object
of a snapshot. -/
def snapshotRelay (update : DeltaUpdate) : DeltaUpdate :=
  match update.sourceRef with
  | none => { update with sourceRef := some "signalk-edge-link.XX" }
  | some ref => { update with source := .obj [("label", .str ref)] }

theorem keepsSource_snapshotRelay : KeepsSource snapshotRelay := by
  intro update ref h
  rw [snapshotRelay, h]

/-- A stale reference gives way to the bedroom's, which two more nodes keep. -/
theorem attribution_settles_bedroom :
    let update : DeltaUpdate :=
      { sourceRef := some "signalk-edge-link.42", source := .obj [("label", .str "bedroom")],
        values := [⟨"environment.inside.temperature", .num (.finite 290)⟩] }
    let handed := received (fun _ => "0") update
    handed.sourceRef = some "bedroom" ∧
      (handedOn (fun _ => "0") [snapshotRelay, snapshotRelay] handed).sourceRef =
        some "bedroom" := by
  intro update handed
  have h : handleMessageBySource (fun _ => "0")
      (normalizeDeltaSourceRefs ⟨"vessels.self", [update]⟩) = some ⟨"vessels.self", [handed]⟩ := rfl
  have href : handed.sourceRef = some "bedroom" := by decide +kernel
  obtain ⟨-, -, -, -, hchain⟩ := attribution_settles (fun _ => "0") h
  refine ⟨href, hchain handed (List.mem_singleton_self handed) "bedroom" href (by decide)
    [snapshotRelay, snapshotRelay] ?_⟩
  simpa using keepsSource_snapshotRelay

/-! ## Snapshots -/

/-- The leaf that a group begins with is one that is sent. -/
theorem source_of_mem_grouped {tree : List (String × JsValue)} {entry : SnapshotGroup}
    (h : entry ∈ (grouped (sentLeaves tree)).values) :
    shouldSkipOwnInjectedLeaf entry.source (buildSourceLookup tree) = false := by
  obtain ⟨key, hget⟩ := OrderedMap.mem_values.1 h
  rw [get?_grouped] at hget
  cases hleaves : (sentLeaves tree).filter (fun e => groupKey e = key) with
  | nil => simp [hleaves, groupOf] at hget
  | cons e es =>
    obtain rfl : ⟨e.1, e.2.source, e.2.timestamp, _⟩ = entry := by
      simpa [hleaves, groupOf] using hget
    have hsent : e ∈ sentLeaves tree :=
      List.mem_of_mem_filter (hleaves ▸ List.mem_cons_self : e ∈ _)
    obtain ⟨node, -, hnode⟩ := List.mem_flatMap.1 hsent
    obtain ⟨leaf, hleaf, rfl⟩ := List.mem_map.1 hnode
    simpa using (List.mem_filter.1 hleaf).2

/-- The label that the sources of the tree give a reference. -/
def lookupLabel (tree : List (String × JsValue)) (sourceRef : String) : String :=
  trimmedText ((((buildSourceLookup tree).get? sourceRef).getD .undefined).get "label")

theorem shouldSkip_eq (tree : List (String × JsValue)) (sourceRef : String) :
    shouldSkipOwnInjectedLeaf (some sourceRef) (buildSourceLookup tree) =
      (isOwnSource sourceRef && (lookupLabel tree sourceRef == "" ||
        isOwnSource (lookupLabel tree sourceRef))) := by
  have htext : ∀ v : JsValue, trim ((stringOf v).getD "") = trimmedText v := by
    intro v
    cases v <;> rfl
  rw [shouldSkipOwnInjectedLeaf, lookupLabel, Option.getD_some, htext]

/-- The label of the source object that a snapshot adds to a reference which the sources know. -/
theorem sourceLabel_snapshot {tree : List (String × JsValue)} {update : DeltaUpdate}
    {sourceRef : String} (h : lookupLabel tree sourceRef ≠ "")
    (hsource : update.source = resolveSource sourceRef (buildSourceLookup tree)) :
    sourceLabel update = lookupLabel tree sourceRef := by
  rw [lookupLabel] at h ⊢
  cases hget : (buildSourceLookup tree).get? sourceRef with
  | none =>
    rw [hget] at h
    exact absurd rfl h
  | some found =>
    have hfound : update.source = found := by rw [hsource, resolveSource, hget]
    rw [sourceLabel, hfound, Option.getD_some]
    cases found <;> rfl

/-- **A node never passes its own name on.** Where references do not begin or end with white space,
the values of a snapshot are handed to the server of the node that receives them without a reference
if the tree has none, and else under one that is not the plugin's own: the one that the tree has,
or, for one of the plugin's own, one from the label that the sources of the tree give it. Any
further nodes keep it. -/
theorem snapshot_attribution (tree : List (String × JsValue)) (delta : Delta)
    (hdelta : delta ∈ collectValuesSnapshot (.obj tree))
    (htrim : ∀ update ∈ delta.updates, ∀ ref, update.sourceRef = some ref → trim ref = ref) :
    ∃ update handed, delta.updates = [update] ∧
      handleMessageBySource numberToString (normalizeDeltaSourceRefs delta) =
        some ⟨delta.context, [handed]⟩ ∧
      handed.values = update.values ∧ (update.sourceRef = none → handed.sourceRef = none) ∧
      ∀ ref, update.sourceRef = some ref → ∃ ref', handed.sourceRef = some ref' ∧
        isOwnSource ref' = false ∧
        (isOwnSource ref = false → ref' = ref) ∧
        (isOwnSource ref = true → FromLabel (lookupLabel tree ref) ref') ∧
        ∀ relays : List (DeltaUpdate → DeltaUpdate), (∀ relay ∈ relays, KeepsSource relay) →
          (handedOn numberToString relays handed).sourceRef = some ref' := by
  have hcollect : collectValuesSnapshot (.obj tree) =
      buildSnapshotDeltas (grouped (sentLeaves tree)) (buildSourceLookup tree) := by
    rw [← groupLeavesByMeasurement_eq]
    rfl
  rw [hcollect, buildSnapshotDeltas, List.mem_map] at hdelta
  obtain ⟨entry, hentry, rfl⟩ := hdelta
  have hskip := source_of_mem_grouped (List.mem_of_mem_filter hentry)
  obtain ⟨update, hupdate⟩ : ∃ update : DeltaUpdate,
      (snapshotDelta (buildSourceLookup tree) entry).updates = [update] := ⟨_, rfl⟩
  have hattributed := attributed_prepare numberToString update
  have hfields := hupdate
  rw [snapshotDelta, List.singleton_inj] at hfields
  have hsourceRef : update.sourceRef = entry.source.filter (· ≠ "") := by rw [← hfields]
  have hsource : update.source =
      (update.sourceRef.map (resolveSource · (buildSourceLookup tree))).getD .undefined := by
    rw [hsourceRef, ← hfields]
  set handed := prepareUpdateForDispatch numberToString update with hhanded
  have hchain : ∀ {ref}, handed.sourceRef = some ref → isOwnSource ref = false →
      ∀ relays : List (DeltaUpdate → DeltaUpdate), (∀ relay ∈ relays, KeepsSource relay) →
        (handedOn numberToString relays handed).sourceRef = some ref := by
    intro ref href hown relays hrelays
    obtain ⟨htrimmed, hne⟩ := hattributed.settled.trimmed ref href
    exact handedOn_of_fresh numberToString hrelays href htrimmed hne hown
  refine ⟨update, handed, hupdate, ?_, hattributed.values, fun hnone => ?_, fun ref href => ?_⟩
  · rw [handle_normalize, handleMessageBySource, hupdate, if_neg (List.cons_ne_nil _ _)]
    rfl
  · rw [hnone, Option.map_none, Option.getD_none] at hsource
    exact hattributed.unnamed.2 ⟨by rw [explicitRef, hnone, Option.getD_none, trim_empty],
      by rw [sourceLabel, hsource]⟩
  · rw [href, Option.map_some, Option.getD_some] at hsource
    obtain ⟨hentryRef, hne⟩ := Option.filter_eq_some_iff.1 (hsourceRef.symm.trans href)
    have hexplicit : explicitRef update = ref := by
      rw [explicitRef, href, Option.getD_some]
      exact htrim update (hupdate ▸ List.mem_singleton_self update) ref href
    cases hown : isOwnSource ref with
    | false =>
      have hkept := hattributed.kept (hexplicit.trans_ne (of_decide_eq_true hne)) (hexplicit ▸ hown)
      rw [hexplicit] at hkept
      exact ⟨ref, hkept, hown, fun _ => rfl, by simp, hchain hkept hown⟩
    | true =>
      rw [hentryRef, shouldSkip_eq, hown, Bool.true_and, Bool.or_eq_false_iff, beq_eq_false_iff_ne]
        at hskip
      have hlabel := sourceLabel_snapshot hskip.1 hsource
      obtain ⟨ref', href', hfrom⟩ := hattributed.fromLabel (Or.inr (hexplicit ▸ hown))
        (hlabel.trans_ne hskip.1) (hlabel ▸ hskip.2)
      rw [hlabel] at hfrom
      have hfresh := hfrom.isOwnSource_eq.trans hskip.2
      exact ⟨ref', href', hfresh, by simp, fun _ => hfrom, hchain href' hfresh⟩

/-- The tree of a relay, with a value of an autopilot that the plugin has put there. -/
def relayTree : List (String × JsValue) :=
  [("vessels", .obj [("self", .obj [("rudder", valueNode 1 "signalk-edge-link.p")])]),
    ("sources", .obj [("signalk-edge-link", .obj [("p", .obj [("label", .str "pilot")])])])]

/-- Three nodes further the value has the autopilot's name. -/
theorem snapshot_attribution_relayTree :
    ∃ delta ∈ collectValuesSnapshot (.obj relayTree), ∃ update handed ref',
      delta.updates = [update] ∧ update.sourceRef = some "signalk-edge-link.p" ∧
      isOwnSource ref' = false ∧ FromLabel "pilot" ref' ∧
      (handedOn (fun _ => "0") [snapshotRelay, snapshotRelay] handed).sourceRef = some ref' := by
  obtain ⟨delta, hdelta⟩ : ∃ delta, collectValuesSnapshot (.obj relayTree) = [delta] :=
    List.length_eq_one_iff.1 (by decide +kernel)
  have href : ∀ d ∈ collectValuesSnapshot (.obj relayTree), ∀ update ∈ d.updates,
      update.sourceRef = some "signalk-edge-link.p" := by decide +kernel
  have hmem : delta ∈ collectValuesSnapshot (.obj relayTree) := by rw [hdelta, List.mem_singleton]
  have htrim : ∀ update ∈ delta.updates, ∀ ref, update.sourceRef = some ref → trim ref = ref := by
    intro update hupdate ref h
    rw [href delta hmem update hupdate, Option.some.injEq] at h
    subst h
    decide +kernel
  have hrelays : ∀ relay ∈ [snapshotRelay, snapshotRelay], KeepsSource relay := by
    simpa using keepsSource_snapshotRelay
  obtain ⟨update, handed, hupdate, -, -, -, hnamed⟩ :=
    snapshot_attribution (fun _ => "0") relayTree delta hmem htrim
  have hupdateRef := href delta hmem update (hupdate ▸ List.mem_singleton_self update)
  obtain ⟨ref', -, hfresh, -, hfrom, hchain⟩ := hnamed _ hupdateRef
  have hlabel : lookupLabel relayTree "signalk-edge-link.p" = "pilot" := by decide +kernel
  exact ⟨delta, hmem, update, handed, ref', hupdate, hupdateRef, hfresh,
    hlabel ▸ hfrom (by decide +kernel), hchain _ hrelays⟩

end SourceDispatch

end EdgeLink
