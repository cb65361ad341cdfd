import EdgeLink.Client.ProcessDelta
import EdgeLink.Codec.JsonInjective
import EdgeLink.Foundations.Text
import Mathlib.Data.List.Forall2

/-!
# What a dedupe key tells of a delta

The key of `buildOutboundDedupeKey` is a sequence of texts, each with a tag and its length. The
texts can be read back from it, so deltas with the same key have the same texts; what has the same
text is not always the same.

* `buildOutboundDedupeKey_eq_iff`: two keys are equal exactly for deltas that look alike.
-/

namespace EdgeLink

open JsValue

/-! ## The texts of a key -/

/-- The texts of an update. -/
structure UpdateTexts where
  sourceRef : String
  /-- label, type and src, when the source is an object -/
  source : Option (String × String × String)
  timestamp : String
  /-- path and value -/
  values : List (String × String)

/-- Whether `update.source` is an object. -/
def IsSource (source : JsValue) : Prop := source.isObjectType = true ∧ source ≠ .null

instance (source : JsValue) : Decidable (IsSource source) := inferInstanceAs (Decidable (_ ∧ _))

def DeltaUpdate.texts (opts : ProducerOptions) (update : DeltaUpdate) : UpdateTexts where
  sourceRef := update.sourceRef.getD ""
  source :=
    if IsSource update.source then
      some (propertyText opts (update.source.get "label"),
        propertyText opts (update.source.get "type"), propertyText opts (update.source.get "src"))
    else none
  timestamp := update.timestamp.getD ""
  values := update.values.map fun v => (v.path, valueText opts v.value)

def sourceCode (source : Option (String × String × String)) : List Char :=
  source.elim [] fun s =>
    (keyPart "sl" s.1).toList ++ ((keyPart "st" s.2.1).toList ++ (keyPart "ss" s.2.2).toList)

def valueCode (v : String × String) : List Char :=
  '|' :: 'v' :: ((keyPart "p" v.1).toList ++ (keyPart "v" v.2).toList)

def UpdateTexts.code (u : UpdateTexts) : List Char :=
  '|' :: 'u' :: ((keyPart "s" u.sourceRef).toList ++ (sourceCode u.source ++
    ((keyPart "t" u.timestamp).toList ++ u.values.flatMap valueCode)))

theorem toList_dedupeKeyOfUpdate (opts : ProducerOptions) (update : DeltaUpdate) :
    (dedupeKeyOfUpdate opts update).toList = (update.texts opts).code := by
  have hvalues : (String.join (update.values.map (dedupeKeyOfValue opts))).toList =
      (update.texts opts).values.flatMap valueCode := by
    simp [DeltaUpdate.texts, List.flatMap_map, valueCode, dedupeKeyOfValue]
  have hsource : (if update.source.isObjectType ∧ update.source ≠ .null then
      keyPart "sl" (propertyText opts (update.source.get "label")) ++
        keyPart "st" (propertyText opts (update.source.get "type")) ++
        keyPart "ss" (propertyText opts (update.source.get "src"))
      else "").toList = sourceCode (update.texts opts).source := by
    rw [DeltaUpdate.texts]
    split_ifs <;> simp_all [sourceCode, IsSource]
  rw [dedupeKeyOfUpdate, UpdateTexts.code, String.toList_append, String.toList_append,
    String.toList_append, String.toList_append, hvalues, hsource]
  simp [DeltaUpdate.texts]

theorem toList_buildOutboundDedupeKey (opts : ProducerOptions) (delta : Delta) :
    (buildOutboundDedupeKey opts delta).toList = (keyPart "c" (delta.context.getD "")).toList ++
      (delta.updates.map (·.texts opts)).flatMap UpdateTexts.code := by
  simp [buildOutboundDedupeKey, List.flatMap_map, toList_dedupeKeyOfUpdate]

/-! ## Reading a key -/

theorem separates_keyPart (tag raw raw' : String) :
    Separates (fun _ => True) (fun raw => (keyPart tag raw).toList) raw raw' := by
  intro t t' _ _ h
  simp only [keyPart, String.toList_append, List.append_assoc] at h
  have hcolon : ∀ n : ℕ, ∀ c ∈ (toString n).toList, decide (c ≠ ':') = true := by
    intro n c hc
    refine decide_eq_true ?_
    rintro rfl
    exact colon_notMem_repr n hc
  obtain ⟨hlength, hrest⟩ := append_inj_of_stop (hcolon _) (hcolon _) (by simp) (by simp)
    (List.append_cancel_left h)
  obtain ⟨hraw, ht⟩ := append_inj_of_weight
    (w := fun c : Char => if c.toNat < 0x10000 then 1 else 2) (fun c => by split_ifs <;> omega)
    (repr_injective (String.toList_inj.1 hlength)) (List.append_cancel_left hrest)
  exact ⟨String.toList_inj.1 hraw, ht⟩

theorem separates_valueCode (v w : String × String) :
    Separates (fun _ => True) valueCode v w := by
  intro t t' _ _ h
  simp only [valueCode, List.cons_append, List.append_assoc] at h
  obtain ⟨hpath, hrest⟩ := separates_keyPart "p" v.1 w.1 _ _ trivial trivial
    (List.tail_eq_of_cons_eq (List.tail_eq_of_cons_eq h))
  obtain ⟨hvalue, ht⟩ := separates_keyPart "v" v.2 w.2 _ _ trivial trivial hrest
  exact ⟨Prod.ext hpath hvalue, ht⟩

/-- The timestamp is behind the source. -/
theorem separates_sourceCode (s s' : Option (String × String × String)) :
    Separates (fun t => t.head? = some 't') sourceCode s s' := by
  intro t t' ht ht' h
  have hhead : ∀ (s : String × String × String) (t : List Char),
      (sourceCode (some s) ++ t).head? = some 's' := by
    intro s t
    simp [sourceCode, keyPart]
  cases s with
  | none =>
    cases s' with
    | none => exact ⟨rfl, h⟩
    | some s' =>
      have := hhead s' t'
      rw [← h] at this
      exact absurd (ht.symm.trans this) (by decide)
  | some s =>
    cases s' with
    | none =>
      have := hhead s t
      rw [h] at this
      exact absurd (ht'.symm.trans this) (by decide)
    | some s' =>
      simp only [sourceCode, Option.elim_some, List.append_assoc] at h
      obtain ⟨hlabel, h⟩ := separates_keyPart "sl" s.1 s'.1 _ _ trivial trivial h
      obtain ⟨htype, h⟩ := separates_keyPart "st" s.2.1 s'.2.1 _ _ trivial trivial h
      obtain ⟨hsrc, h⟩ := separates_keyPart "ss" s.2.2 s'.2.2 _ _ trivial trivial h
      exact ⟨congrArg some (Prod.ext hlabel (Prod.ext htype hsrc)), h⟩

/-- Another update comes next, or the end. -/
def EndsUpdate (t : List Char) : Prop := t = [] ∨ ∃ s, t = '|' :: 'u' :: s

theorem separates_updateCode (u u' : UpdateTexts) :
    Separates EndsUpdate UpdateTexts.code u u' := by
  intro t t' ht ht' h
  simp only [UpdateTexts.code, List.cons_append, List.append_assoc] at h
  obtain ⟨href, h⟩ := separates_keyPart "s" u.sourceRef u'.sourceRef _ _ trivial trivial
    (List.tail_eq_of_cons_eq (List.tail_eq_of_cons_eq h))
  obtain ⟨hsource, h⟩ := separates_sourceCode u.source u'.source _ _ (by simp [keyPart])
    (by simp [keyPart]) h
  obtain ⟨htimestamp, h⟩ := separates_keyPart "t" u.timestamp u'.timestamp _ _ trivial trivial h
  obtain ⟨hvalues, hrest⟩ := Separates.flatMap (E := EndsUpdate)
    (fun v _ w _ => separates_valueCode v w)
    (fun v _ t => ⟨trivial, by simp [EndsUpdate, valueCode]⟩) (fun _ _ => trivial) _ _ ht ht' h
  refine ⟨?_, hrest⟩
  cases u
  cases u'
  simp only [UpdateTexts.mk.injEq]
  exact ⟨href, hsource, htimestamp, hvalues⟩

/-- The texts of a delta can be read back from its key. -/
theorem buildOutboundDedupeKey_eq_iff_texts {opts : ProducerOptions} {d d' : Delta} :
    buildOutboundDedupeKey opts d = buildOutboundDedupeKey opts d' ↔
      d.context.getD "" = d'.context.getD "" ∧
        d.updates.map (·.texts opts) = d'.updates.map (·.texts opts) := by
  rw [← String.toList_inj, toList_buildOutboundDedupeKey, toList_buildOutboundDedupeKey]
  constructor
  · intro h
    obtain ⟨hcontext, hupdates⟩ := separates_keyPart "c" _ _ _ _ trivial trivial h
    refine ⟨hcontext, ?_⟩
    exact (Separates.flatMap (R := EndsUpdate) (E := fun t => t = [])
      (fun u _ u' _ => separates_updateCode u u')
      (fun u _ t => ⟨Or.inr ⟨_, rfl⟩, by simp [UpdateTexts.code]⟩) (fun t ht => Or.inl ht)
      [] [] rfl rfl (by simpa using hupdates)).1
  · rintro ⟨hcontext, hupdates⟩
    rw [hcontext, hupdates]

/-! ## The texts of values -/

section ValueText

variable {opts : ProducerOptions}

/-- Values that are not the same and have the same text: what is absent and `null`, and a text and
the value that has this text. -/
inductive Clash (opts : ProducerOptions) : JsValue → JsValue → Prop
  | absent : Clash opts .undefined .null
  | null : Clash opts .null .undefined
  | text {v : JsValue} (hv : ∀ s, v ≠ .str s) : Clash opts (.str (valueText opts v)) v
  | ofText {v : JsValue} (hv : ∀ s, v ≠ .str s) : Clash opts v (.str (valueText opts v))

theorem valueText_str (s : String) : valueText opts (.str s) = s := by
  simp [valueText, isObjectType, toText]

/-- The text of a value, from its comparison key. -/
def textOfRepr (opts : ProducerOptions) : JsValue.Repr → String
  | .undefined => ""
  | .nan => "NaN"
  | .posInf => "Infinity"
  | .negInf => "-Infinity"
  | .json .null => ""
  | .json (.str s) => s
  | .json tree => tree.jsonText opts.numberToString

theorem valueText_eq_textOfRepr (v : JsValue) :
    valueText opts v = textOfRepr opts (stableRepr v) := by
  cases v with
  | num n =>
    cases n <;> simp [valueText, isObjectType, toText, numberText, stableRepr, stringify,
      textOfRepr, jsonText]
  | _ => simp [valueText, isObjectType, toText, stableRepr, stringify, textOfRepr, jsonText]

/-- Everything but strings, what is absent, `null` and the numbers that JSON does not have. -/
def HasJsonText (v : JsValue) : Prop :=
  (∃ b, v = .bool b) ∨ (∃ q, v = .num (.finite q)) ∨ (∃ items, v = .arr items) ∨
    ∃ fields, v = .obj fields

theorem valueText_of_hasJsonText (opts : ProducerOptions) {v : JsValue} (h : HasJsonText v) :
    valueText opts v = (stringify v).jsonText opts.numberToString ∧
      stableRepr v = .json (stringify v) := by
  rcases h with ⟨b, rfl⟩ | ⟨q, rfl⟩ | ⟨items, rfl⟩ | ⟨fields, rfl⟩ <;>
    simp [valueText, isObjectType, toText, stringify, jsonText, stableRepr]

theorem valueText_ne_of_hasJsonText (hnum : NumberTexts opts.numberToString) {v : JsValue}
    (h : HasJsonText v) :
    valueText opts v ≠ "" ∧ valueText opts v ≠ "NaN" ∧ valueText opts v ≠ "Infinity" ∧
      valueText opts v ≠ "-Infinity" := by
  obtain ⟨c, hc, hkind⟩ := head_jsonText hnum (written_stringify v) []
  rw [← (valueText_of_hasJsonText opts h).1, List.append_nil] at hc
  refine ⟨?_, ?_, ?_, ?_⟩
  · intro heq
    rw [heq] at hc
    cases hc
  · intro heq
    rw [heq] at hc
    obtain rfl := Option.some.inj hc
    cases hkind
  · intro heq
    rw [heq] at hc
    obtain rfl := Option.some.inj hc
    cases hkind
  · intro heq
    rw [heq] at hc
    obtain rfl := Option.some.inj hc
    rcases h with ⟨b, rfl⟩ | ⟨q, rfl⟩ | ⟨items, rfl⟩ | ⟨fields, rfl⟩
    · cases b <;> cases hkind
    · have hI : 'I' ∈ (opts.numberToString q).toList := by
        have htext : valueText opts (.num (.finite q)) = opts.numberToString q := by
          simp [valueText, isObjectType, toText, numberText]
        rw [← htext, heq]
        decide
      exact absurd (hnum.numeric q 'I' hI) (by decide)
    · cases hkind
    · cases hkind

/-- `undefined`, `null` and the numbers that JSON does not have. -/
def NoJsonText (v : JsValue) : Prop :=
  v = .undefined ∨ v = .null ∨ v = .num .nan ∨ v = .num .posInf ∨ v = .num .negInf

theorem noJsonText_or_hasJsonText {v : JsValue} (hv : ∀ s, v ≠ .str s) :
    NoJsonText v ∨ HasJsonText v := by
  cases v with
  | str s => exact absurd rfl (hv s)
  | num n => cases n <;> simp [NoJsonText, HasJsonText]
  | _ => simp [NoJsonText, HasJsonText]

theorem valueText_ne_of_noJsonText (hnum : NumberTexts opts.numberToString) {v w : JsValue}
    (hv : NoJsonText v) (hw : HasJsonText w) : valueText opts v ≠ valueText opts w := by
  obtain ⟨hempty, hnan, hpos, hneg⟩ := valueText_ne_of_hasJsonText hnum hw
  rcases hv with rfl | rfl | rfl | rfl | rfl
  · exact hempty.symm
  · exact hempty.symm
  · exact hnan.symm
  · exact hpos.symm
  · exact hneg.symm

theorem eq_of_valueText (hnum : NumberTexts opts.numberToString) {v w : JsValue}
    (hv : NoJsonText v ∨ HasJsonText v) (hw : NoJsonText w ∨ HasJsonText w)
    (h : valueText opts v = valueText opts w) :
    stableRepr v = stableRepr w ∨ Clash opts v w := by
  rcases hv with hv | hv
  · rcases hw with hw | hw
    · rcases hv with rfl | rfl | rfl | rfl | rfl <;> rcases hw with rfl | rfl | rfl | rfl | rfl <;>
        first
          | exact Or.inl rfl
          | exact Or.inr .absent
          | exact Or.inr .null
          | simp [valueText, isObjectType, toText, numberText] at h
    · exact absurd h (valueText_ne_of_noJsonText hnum hv hw)
  · rcases hw with hw | hw
    · exact absurd h.symm (valueText_ne_of_noJsonText hnum hw hv)
    · obtain ⟨htext, hrepr⟩ := valueText_of_hasJsonText opts hv
      obtain ⟨htext', hrepr'⟩ := valueText_of_hasJsonText opts hw
      rw [htext, htext'] at h
      rw [hrepr, hrepr', jsonText_inj hnum (written_stringify v) (written_stringify w) h]
      exact Or.inl rfl

/-- Two values have the same text exactly when they are the same or clash. -/
theorem valueText_eq_iff (hnum : NumberTexts opts.numberToString) {v w : JsValue} :
    valueText opts v = valueText opts w ↔ stableRepr v = stableRepr w ∨ Clash opts v w := by
  constructor
  · intro h
    by_cases hv : ∃ s, v = .str s
    · obtain ⟨s, rfl⟩ := hv
      rw [valueText_str] at h
      subst h
      by_cases hw : ∃ s, w = .str s
      · obtain ⟨s, rfl⟩ := hw
        exact Or.inl (by rw [valueText_str])
      · exact Or.inr (.text (not_exists.1 hw))
    · by_cases hw : ∃ s, w = .str s
      · obtain ⟨s, rfl⟩ := hw
        rw [valueText_str] at h
        subst h
        exact Or.inr (.ofText (not_exists.1 hv))
      · exact eq_of_valueText hnum (noJsonText_or_hasJsonText (not_exists.1 hv))
          (noJsonText_or_hasJsonText (not_exists.1 hw)) h
  · rintro (h | h)
    · rw [valueText_eq_textOfRepr, valueText_eq_textOfRepr, h]
    · cases h with
      | absent => rfl
      | null => rfl
      | text => exact valueText_str _
      | ofText => exact (valueText_str _).symm

end ValueText

/-! ## Deltas that look alike -/

/-- How the fields of two deltas are compared. -/
structure Comparison where
  text : Option String → Option String → Prop
  source : JsValue → JsValue → Prop
  value : JsValue → JsValue → Prop
  metaEntries : Option (List DeltaMeta) → Option (List DeltaMeta) → Prop

namespace Comparison

variable (c : Comparison)

def Values (v v' : DeltaValue) : Prop := v.path = v'.path ∧ c.value v.value v'.value

/-- Two updates compare, field by field. -/
structure Updates (u u' : DeltaUpdate) : Prop where
  sourceRef : c.text u.sourceRef u'.sourceRef
  source : c.source u.source u'.source
  timestamp : c.text u.timestamp u'.timestamp
  values : List.Forall₂ c.Values u.values u'.values
  metaEntries : c.metaEntries u.metaEntries u'.metaEntries

/-- Two deltas compare, field by field. -/
structure Deltas (d d' : Delta) : Prop where
  context : c.text d.context d'.context
  updates : List.Forall₂ c.Updates d.updates d'.updates

end Comparison

/-- The properties of a source that identify it. -/
def sourceProperties : List String := ["label", "type", "src"]

/-- The same fields, values and metadata as JSON values. -/
def same : Comparison where
  text := Eq
  source s s' := ∀ name ∈ sourceProperties, wire false (s.get name) = wire false (s'.get name)
  value v w := wire false v = wire false w
  metaEntries ms ms' :=
    (ms.getD []).map (fun m => (m.path, wire false m.value)) =
      (ms'.getD []).map fun m => (m.path, wire false m.value)

/-- The same for a reader of texts: what is absent is the empty text, a source's properties are
their texts, a value may be another one with the same text, and metadata is not looked at. -/
def alike (opts : ProducerOptions) : Comparison where
  text a b := a.getD "" = b.getD ""
  source s s' := (IsSource s ↔ IsSource s') ∧
    (IsSource s → ∀ name ∈ sourceProperties,
      propertyText opts (s.get name) = propertyText opts (s'.get name))
  value v w := stableRepr v = stableRepr w ∨ Clash opts v w
  metaEntries _ _ := True

section Alike

variable {opts : ProducerOptions}

theorem alike_values_iff (hnum : NumberTexts opts.numberToString) {v v' : DeltaValue} :
    (alike opts).Values v v' ↔
      (v.path, valueText opts v.value) = (v'.path, valueText opts v'.value) := by
  rw [Prod.mk.injEq, valueText_eq_iff hnum]
  rfl

theorem forall₂_map_iff {β γ : Type*} {R : β → β → Prop} (f : β → γ)
    (h : ∀ a b, R a b ↔ f a = f b) {as bs : List β} :
    List.Forall₂ R as bs ↔ as.map f = bs.map f := by
  rw [← List.forall₂_eq_eq_eq, List.forall₂_map_left_iff, List.forall₂_map_right_iff]
  exact ⟨fun hR => hR.imp fun a b => (h a b).1, fun hR => hR.imp fun a b => (h a b).2⟩

theorem alike_updates_iff (hnum : NumberTexts opts.numberToString) {u u' : DeltaUpdate} :
    (alike opts).Updates u u' ↔ u.texts opts = u'.texts opts := by
  have hvalues : List.Forall₂ (alike opts).Values u.values u'.values ↔
      (u.texts opts).values = (u'.texts opts).values :=
    forall₂_map_iff (fun v : DeltaValue => (v.path, valueText opts v.value))
      fun _ _ => alike_values_iff hnum
  have hsource : (alike opts).source u.source u'.source ↔
      (u.texts opts).source = (u'.texts opts).source := by
    simp only [alike, DeltaUpdate.texts, sourceProperties]
    by_cases hs : IsSource u.source <;> by_cases hs' : IsSource u'.source <;> simp [hs, hs']
  constructor
  · intro h
    rw [DeltaUpdate.texts, DeltaUpdate.texts, UpdateTexts.mk.injEq]
    exact ⟨h.sourceRef, hsource.1 h.source, h.timestamp, hvalues.1 h.values⟩
  · intro h
    exact ⟨congrArg UpdateTexts.sourceRef h, hsource.2 (congrArg UpdateTexts.source h),
      congrArg UpdateTexts.timestamp h, hvalues.2 (congrArg UpdateTexts.values h), trivial⟩

/-- **What a key tells.** Two deltas have the same key exactly when they look alike. -/
theorem buildOutboundDedupeKey_eq_iff (hnum : NumberTexts opts.numberToString) {d d' : Delta} :
    buildOutboundDedupeKey opts d = buildOutboundDedupeKey opts d' ↔ (alike opts).Deltas d d' := by
  have hupdates : List.Forall₂ (alike opts).Updates d.updates d'.updates ↔
      d.updates.map (·.texts opts) = d'.updates.map (·.texts opts) :=
    forall₂_map_iff (DeltaUpdate.texts opts) fun _ _ => alike_updates_iff hnum
  rw [buildOutboundDedupeKey_eq_iff_texts, ← hupdates]
  exact ⟨fun h => ⟨h.1, h.2⟩, fun h => ⟨h.1, h.2⟩⟩

/-- Two deltas that are not the same and look alike. -/
def Confusable (opts : ProducerOptions) (d d' : Delta) : Prop :=
  (alike opts).Deltas d d' ∧ ¬ same.Deltas d d'

/-- **What suppression drops.** Of two deltas with the same key the second is a duplicate of the
first exactly when they cannot be confused. -/
theorem duplicate_iff_not_confusable (opts : ProducerOptions)
    (hnum : NumberTexts opts.numberToString) (d d' : Delta) :
    (buildOutboundDedupeKey opts d = buildOutboundDedupeKey opts d' → same.Deltas d d') ↔
      ¬ Confusable opts d d' := by
  rw [buildOutboundDedupeKey_eq_iff hnum, Confusable, not_and_not_right]

end Alike

/-! ## Deltas that are confused -/

/-- Integers in decimal, other numbers as numerator and denominator. -/
def fractionText (q : ℚ) : String :=
  if q.den = 1 then toString q.num else toString q.num ++ "e" ++ toString q.den

theorem e_notMem_int_repr (n : ℤ) : 'e' ∉ n.repr.toList := fun h =>
  (isDigit_of_mem_int_repr h).elim (by decide) (by decide)

theorem fractionText_injective : Function.Injective fractionText := by
  intro p q h
  have hne : ∀ (m n : ℤ) (d : ℕ), toString m ≠ toString n ++ "e" ++ toString d := by
    intro m n d heq
    refine e_notMem_int_repr m ?_
    rw [show m.repr = _ from heq]
    simp
  unfold fractionText at h
  split_ifs at h with hp hq hq
  · exact Rat.ext (int_repr_injective h) (hp.trans hq.symm)
  · exact absurd h (hne _ _ _)
  · exact absurd h.symm (hne _ _ _)
  · have hstop : ∀ n : ℤ, ∀ c ∈ n.repr.toList, decide (c ≠ 'e') = true := by
      intro n c hc
      refine decide_eq_true ?_
      rintro rfl
      exact e_notMem_int_repr n hc
    have hlists := congrArg String.toList h
    simp only [String.toList_append, List.append_assoc] at hlists
    obtain ⟨hnum, hden⟩ := append_inj_of_stop (hstop p.num) (hstop q.num) (by simp) (by simp) hlists
    exact Rat.ext (int_repr_injective (String.toList_inj.1 hnum))
      (repr_injective (String.toList_inj.1 (List.append_cancel_left hden)))

theorem numberTexts_fractionText : NumberTexts fractionText := by
  refine ⟨fractionText_injective, ?_, ?_⟩
  · intro q
    have hnum : ∀ n : ℤ, toString n ≠ "" := by
      rintro (n | n)
      · exact Nat.repr_ne_empty
      · simp [toString, Int.repr]
    unfold fractionText
    split_ifs
    · exact hnum _
    · simp
  · intro q c hc
    have hnum : ∀ n : ℤ, c ∈ n.repr.toList → isNumberChar c := by
      intro n hn
      rcases isDigit_of_mem_int_repr hn with rfl | hdigit
      · rfl
      · simp [isNumberChar, hdigit]
    unfold fractionText at hc
    split_ifs at hc
    · exact hnum _ hc
    · simp only [String.toList_append, List.mem_append, or_assoc] at hc
      rcases hc with hc | hc | hc
      · exact hnum _ hc
      · obtain rfl : c = 'e' := by simpa using hc
        rfl
      · simp [isNumberChar, isDigit_of_mem_repr hc]

/-- Options that keep the plugin's own data. -/
def exampleOptions : ProducerOptions := ⟨false, fractionText⟩

/-- One value of path `steering.autopilot.state`. -/
def stateDelta (value : JsValue) : Delta where
  context := some "vessels.self"
  updates := [{ sourceRef := some "pilot", values := [⟨"steering.autopilot.state", value⟩] }]

theorem not_same_of_value {v w : JsValue} (h : wire false v ≠ wire false w) :
    ¬ same.Deltas (stateDelta v) (stateDelta w) := by
  intro hsame
  have hvalues := hsame.updates
  rw [stateDelta, stateDelta, List.forall₂_cons] at hvalues
  have hentry := hvalues.1.values
  rw [List.forall₂_cons] at hentry
  exact h hentry.1.2

theorem duplicate_iff_not_confusable_stateDelta :
    (buildOutboundDedupeKey exampleOptions (stateDelta (.num (.finite 1))) =
        buildOutboundDedupeKey exampleOptions (stateDelta (.num (.finite 2))) →
      same.Deltas (stateDelta (.num (.finite 1))) (stateDelta (.num (.finite 2)))) ↔
      ¬ Confusable exampleOptions (stateDelta (.num (.finite 1))) (stateDelta (.num (.finite 2))) :=
  duplicate_iff_not_confusable exampleOptions numberTexts_fractionText _ _

/-- The number 1 is sent, and the text 1 is suppressed. -/
theorem number_suppresses_text :
    outboundDelta exampleOptions (stateDelta (.num (.finite 1))) =
        some (stateDelta (.num (.finite 1))) ∧
      outboundDelta exampleOptions (stateDelta (.str "1")) = some (stateDelta (.str "1")) ∧
      buildOutboundDedupeKey exampleOptions (stateDelta (.num (.finite 1))) =
        buildOutboundDedupeKey exampleOptions (stateDelta (.str "1")) ∧
      (admitDelta exampleOptions
        (admitDelta exampleOptions .empty 0 (stateDelta (.num (.finite 1)))).1 100
          (stateDelta (.str "1"))).2 = none ∧
      ¬ same.Deltas (stateDelta (.num (.finite 1))) (stateDelta (.str "1")) :=
  ⟨by decide +kernel, by decide +kernel, by decide +kernel, by decide +kernel,
    not_same_of_value (by decide +kernel)⟩

end EdgeLink
