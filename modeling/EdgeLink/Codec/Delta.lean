import EdgeLink.Codec.JsValue
import Mathlib.Data.List.DropRight

/-!
# Deltas

The messages of the Signal K data model as `foundation/types` has them, and the sanitiser that
drops what a server would reject (`codec/delta-sanitizer.ts`).

* `Delta.leaves` lists the (context, path, value) triples that a delta carries.
* `leaves_sanitizeDeltaForSignalK`: sanitising keeps exactly the leaves with a valid path.
-/

namespace EdgeLink

structure DeltaValue where
  path : String
  value : JsValue
  deriving DecidableEq

structure DeltaMeta where
  path : String
  value : JsValue
  deriving DecidableEq

structure DeltaUpdate where
  /-- the structured source object, `undefined` when absent -/
  source : JsValue := .undefined
  /-- the `$source` reference -/
  sourceRef : Option String := none
  timestamp : Option String := none
  values : List DeltaValue
  /-- the `meta` property -/
  metaEntries : Option (List DeltaMeta) := none
  deriving DecidableEq

structure Delta where
  context : Option String
  updates : List DeltaUpdate
  deriving DecidableEq

/-- A value with the place it belongs to. -/
structure Leaf where
  context : Option String
  path : String
  value : JsValue
  deriving DecidableEq

/-- The values of an update, with their places. -/
def DeltaUpdate.leaves (context : Option String) (update : DeltaUpdate) : List Leaf :=
  update.values.map fun v => ⟨context, v.path, v.value⟩

/-- The values of a delta, with their places. -/
def Delta.leaves (delta : Delta) : List Leaf := delta.updates.flatMap (·.leaves delta.context)

/-- White space in the sense of `String.prototype.trim`. -/
def isTrimmed (c : Char) : Bool :=
  let n := c.toNat
  (9 ≤ n && n ≤ 13) || n == 0x20 || n == 0xA0 || n == 0x1680 || (0x2000 ≤ n && n ≤ 0x200A) ||
    n == 0x2028 || n == 0x2029 || n == 0x202F || n == 0x205F || n == 0x3000 || n == 0xFEFF

/-- `String.prototype.trim`. -/
def trim (s : String) : String :=
  String.ofList (((s.toList.dropWhile isTrimmed).reverse.dropWhile isTrimmed).reverse)

/-- What is trimmed at the end keeps the first character that stays. -/
private theorem dropWhile_rdropWhile (p : Char → Bool) (l : List Char) :
    ((l.dropWhile p).rdropWhile p).dropWhile p = (l.dropWhile p).rdropWhile p := by
  rcases h : l.dropWhile p with _ | ⟨c, rest⟩
  · rfl
  have hc : p c = false := by
    have hhead := List.head?_dropWhile_not p l
    rwa [h] at hhead
  have hkeep : ∃ kept, (c :: rest).rdropWhile p = c :: kept := by
    rw [List.rdropWhile, List.reverse_cons, List.dropWhile_append]
    split_ifs with hrest
    · exact ⟨[], by simp [List.dropWhile, hc]⟩
    · exact ⟨(rest.reverse.dropWhile p).reverse, by simp⟩
  obtain ⟨kept, hkept⟩ := hkeep
  rw [hkept, List.dropWhile_cons_of_neg (by simp [hc])]

@[simp] theorem trim_trim (s : String) : trim (trim s) = trim s := by
  have h := dropWhile_rdropWhile isTrimmed s.toList
  simp only [trim, String.toList_ofList]
  change String.ofList (List.rdropWhile isTrimmed (List.dropWhile isTrimmed
    (List.rdropWhile isTrimmed (List.dropWhile isTrimmed s.toList)))) = _
  rw [h, List.rdropWhile_idempotent]
  rfl

/-- A path that is not empty after trimming. -/
def isValidValuePath (path : String) : Bool := path.toList.any fun c => !isTrimmed c

theorem ne_empty_of_isValidValuePath {path : String} (h : isValidValuePath path = true) :
    path ≠ "" := by
  rintro rfl
  revert h
  decide

/-- Whether an update carries metadata. -/
def DeltaUpdate.hasMeta (update : DeltaUpdate) : Bool :=
  match update.metaEntries with
  | some (_ :: _) => true
  | _ => false

/-- Drop the invalid entries of an update, and the update when nothing is left of it. -/
def sanitizeUpdateForSignalK (update : DeltaUpdate) : Option DeltaUpdate :=
  let values := update.values.filter fun v => isValidValuePath v.path
  if values = [] ∧ update.hasMeta = false then none else some { update with values := values }

/-- Drop what a server would reject, and the delta when nothing is left of it. -/
def sanitizeDeltaForSignalK (delta : Delta) : Option Delta :=
  match delta.updates.filterMap sanitizeUpdateForSignalK with
  | [] => none
  | updates => some { delta with updates := updates }

/-- The sanitiser of a batch. -/
def sanitizeDeltaPayloadForSignalK (deltas : List Delta) : Option (List Delta) :=
  match deltas.filterMap sanitizeDeltaForSignalK with
  | [] => none
  | sanitized => some sanitized

theorem leaves_sanitizeUpdateForSignalK (context : Option String) (update : DeltaUpdate) :
    ((sanitizeUpdateForSignalK update).map (·.leaves context)).getD [] =
      (update.leaves context).filter fun l => isValidValuePath l.path := by
  simp only [sanitizeUpdateForSignalK, DeltaUpdate.leaves, List.filter_map]
  split_ifs with h
  · simpa [Function.comp_def] using h.1
  · rfl

/-- Sanitising keeps exactly the leaves with a valid path. -/
theorem leaves_sanitizeDeltaForSignalK (delta : Delta) :
    ((sanitizeDeltaForSignalK delta).map Delta.leaves).getD [] =
      delta.leaves.filter fun l => isValidValuePath l.path := by
  have hupd : ∀ updates : List DeltaUpdate,
      (updates.filterMap sanitizeUpdateForSignalK).flatMap (·.leaves delta.context) =
        (updates.flatMap (·.leaves delta.context)).filter fun l => isValidValuePath l.path := by
    intro updates
    induction updates with
    | nil => rfl
    | cons u updates ih =>
      have hu := leaves_sanitizeUpdateForSignalK delta.context u
      rw [List.flatMap_cons, List.filter_append, ← ih, ← hu]
      cases h : sanitizeUpdateForSignalK u <;> simp [h]
  rw [Delta.leaves, ← hupd, sanitizeDeltaForSignalK]
  split
  next h => simp [h]
  next updates h => simp [Delta.leaves]

end EdgeLink
