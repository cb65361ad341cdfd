import EdgeLink.App.ConnectionManager
import EdgeLink.Codec.Delta
import EdgeLink.Codec.JsText

/-!
# Instance ids

The id of a connection is made from its name, twice: the manager makes the ids of the instances it
creates (`slugify` of `app/connection.ts`, `generateInstanceId`), and the management routes derive
the ids of the configured connections (`slugifyConnectionName`, `deriveConnectionIds`,
`findConnectionIndexByInstanceId` of `connection-config.ts`).

* `slugify_trim`: that only one of the two copies trims the name makes no difference.
* `suffixLoop_firstUnused`: the search for a free suffix ends.
* `instanceIds_spec`: the two derivations agree, and the ids are pairwise distinct.

How a name is put in lower case is a parameter: nothing depends on it.
-/

namespace EdgeLink

open JsValue

/-- A character of the class `[a-z0-9]`. -/
def isSlugChar (c : Char) : Bool := ('a' ≤ c ∧ c ≤ 'z') ∨ ('0' ≤ c ∧ c ≤ '9')

/-- `.replace(/[^a-z0-9]+/g, "-")`, inside or outside of a run of other characters. -/
def hyphenateRuns : Bool → List Char → List Char
  | _, [] => []
  | inRun, c :: rest =>
    if isSlugChar c then c :: hyphenateRuns false rest
    else if inRun then hyphenateRuns true rest
    else '-' :: hyphenateRuns true rest

/-- `.replace(/^-+|-+$/g, "")`. -/
def stripHyphens (l : List Char) : List Char := (l.dropWhile (· = '-')).rdropWhile (· = '-')

def slugChars (l : List Char) : List Char := stripHyphens (hyphenateRuns false l)

/-- `s || "connection"`. -/
def orConnection (s : String) : String := if s = "" then "connection" else s

section Derivations

variable (toLowerCase : String → String)

/-- `slugify` of `app/connection.ts`. -/
def slugify (name : String) : String :=
  orConnection (String.ofList (slugChars (toLowerCase name).toList))

def slugifyConnectionName : JsValue → String
  | .str name =>
    if name = "" then "connection"
    else orConnection (String.ofList (slugChars (trim (toLowerCase name)).toList))
  | _ => "connection"

/-- `config && config.name ? config.name : "connection"` -/
def nameOfConfig (config : JsValue) : JsValue :=
  if truthy config ∧ truthy (config.get "name") then config.get "name" else .str "connection"

/-- The ids of the connections, when some ids are used. -/
def connectionIdsFrom (used : List String) : List JsValue → List String
  | [] => []
  | config :: connections =>
    let base := slugifyConnectionName toLowerCase (nameOfConfig config)
    let id :=
      if base ∉ used then base else numberedId base (firstUnused used base used.length 1)
    id :: connectionIdsFrom (used ++ [id]) connections

def deriveConnectionIds (connections : List JsValue) : List String :=
  connectionIdsFrom toLowerCase [] connections

def findConnectionIndexByInstanceId (connections : List JsValue) (instanceId : String) : ℤ :=
  match (deriveConnectionIds toLowerCase connections).findIdx? (· = instanceId) with
  | some i => i
  | none => -1

end Derivations

/-! ## Slugs -/

theorem hyphenateRuns_false (l : List Char) :
    hyphenateRuns false l = hyphenateRuns true l ∨
      hyphenateRuns false l = '-' :: hyphenateRuns true l := by
  cases l with
  | nil => exact Or.inl rfl
  | cons c rest =>
    by_cases hc : isSlugChar c = true
    · exact Or.inl (by simp [hyphenateRuns, hc])
    · exact Or.inr (by simp [hyphenateRuns, hc])

/-- A last character that is replaced adds at most a hyphen. -/
theorem hyphenateRuns_concat {c : Char} (hc : isSlugChar c = false) (inRun : Bool) (l : List Char) :
    hyphenateRuns inRun (l ++ [c]) = hyphenateRuns inRun l ∨
      hyphenateRuns inRun (l ++ [c]) = hyphenateRuns inRun l ++ ['-'] := by
  induction l generalizing inRun with
  | nil => cases inRun <;> simp [hyphenateRuns, hc]
  | cons d rest ih =>
    rw [List.cons_append, hyphenateRuns, hyphenateRuns]
    split_ifs
    · exact (ih false).imp (congrArg _) (congrArg _)
    · exact ih true
    · exact (ih true).imp (congrArg _) (congrArg _)

theorem stripHyphens_cons (l : List Char) : stripHyphens ('-' :: l) = stripHyphens l := rfl

theorem stripHyphens_concat (l : List Char) : stripHyphens (l ++ ['-']) = stripHyphens l := by
  unfold stripHyphens
  rw [List.dropWhile_append]
  split_ifs with hall
  · rw [List.isEmpty_iff.1 hall]
    rfl
  · exact List.rdropWhile_concat_pos _ _ _ (decide_eq_true rfl)

theorem slugChars_cons {c : Char} (hc : isSlugChar c = false) (l : List Char) :
    slugChars (c :: l) = slugChars l := by
  have hcons : hyphenateRuns false (c :: l) = '-' :: hyphenateRuns true l := by
    simp [hyphenateRuns, hc]
  unfold slugChars
  rw [hcons, stripHyphens_cons]
  rcases hyphenateRuns_false l with h | h
  · rw [h]
  · rw [h, stripHyphens_cons]

theorem slugChars_concat {c : Char} (hc : isSlugChar c = false) (l : List Char) :
    slugChars (l ++ [c]) = slugChars l := by
  unfold slugChars
  rcases hyphenateRuns_concat hc false l with h | h
  · rw [h]
  · rw [h, stripHyphens_concat]

theorem slugChars_dropWhile {p : Char → Bool} (hp : ∀ c, p c = true → isSlugChar c = false)
    (l : List Char) : slugChars (l.dropWhile p) = slugChars l := by
  induction l with
  | nil => rfl
  | cons c rest ih =>
    rw [List.dropWhile_cons]
    split_ifs with hc
    · rw [ih, slugChars_cons (hp c hc)]
    · rfl

theorem slugChars_rdropWhile {p : Char → Bool} (hp : ∀ c, p c = true → isSlugChar c = false)
    (l : List Char) : slugChars (l.rdropWhile p) = slugChars l := by
  induction l using List.reverseRecOn with
  | nil => rfl
  | append_singleton rest c ih =>
    by_cases hc : p c = true
    · rw [List.rdropWhile_concat_pos _ _ _ hc, ih, slugChars_concat (hp c hc)]
    · rw [List.rdropWhile_concat_neg _ _ _ hc]

/-- White space is no part of a slug. -/
theorem isSlugChar_of_isTrimmed {c : Char} (h : isTrimmed c = true) : isSlugChar c = false := by
  rw [Bool.eq_false_iff]
  intro hslug
  have hrange : (97 ≤ c.toNat ∧ c.toNat ≤ 122) ∨ (48 ≤ c.toNat ∧ c.toNat ≤ 57) :=
    of_decide_eq_true hslug
  simp only [isTrimmed, Bool.or_eq_true, Bool.and_eq_true, decide_eq_true_eq, beq_iff_eq] at h
  omega

theorem slugChars_trim (s : String) : slugChars (trim s).toList = slugChars s.toList := by
  rw [trim, String.toList_ofList]
  change slugChars ((s.toList.dropWhile isTrimmed).rdropWhile isTrimmed) = _
  rw [slugChars_rdropWhile fun c => isSlugChar_of_isTrimmed,
    slugChars_dropWhile fun c => isSlugChar_of_isTrimmed]

/-- **The two slugs agree**: what `trim` removes lies in the runs at the edges, which make hyphens
that are removed. -/
theorem slugify_trim (toLowerCase : String → String) {name : String} (hname : name ≠ "") :
    slugifyConnectionName toLowerCase (.str name) = slugify toLowerCase name := by
  rw [slugifyConnectionName, if_neg hname, slugChars_trim]
  rfl

/-! ## The search for a free suffix -/

/-- `while (used.has(base + "-" + n)) n++`, from a number to the one at which it ends. -/
inductive SuffixLoop (used : List String) (base : String) : ℕ → ℕ → Prop
  | exit {n : ℕ} : numberedId base n ∉ used → SuffixLoop used base n n
  | next {n m : ℕ} : numberedId base n ∈ used → SuffixLoop used base (n + 1) m →
      SuffixLoop used base n m

theorem suffixLoop_of_notMem {used : List String} {base : String} {fuel n : ℕ}
    (h : numberedId base (firstUnused used base fuel n) ∉ used) :
    SuffixLoop used base n (firstUnused used base fuel n) := by
  induction fuel generalizing n with
  | zero => exact .exit h
  | succ fuel ih =>
    rw [firstUnused] at h ⊢
    split_ifs at h ⊢ with hused
    · exact .next hused (ih h)
    · exact .exit hused

/-- **The search ends**, whatever ids are used: at the latest after as many steps as there are. -/
theorem suffixLoop_firstUnused (used : List String) (base : String) :
    SuffixLoop used base 1 (firstUnused used base used.length 1) :=
  suffixLoop_of_notMem (firstUnused_notMem used base)

/-! ## The two derivations -/

/-- A connection as the configuration holds it: an object whose name is a string or absent. -/
def HasName (config : JsValue) : Prop :=
  (∃ fields, config = .obj fields) ∧
    (config.get "name" = .undefined ∨ ∃ name, config.get "name" = .str name)

theorem connectionIdsFrom_nodup (toLowerCase : String → String) {used : List String}
    (hused : used.Nodup) (connections : List JsValue) :
    (used ++ connectionIdsFrom toLowerCase used connections).Nodup := by
  induction connections generalizing used with
  | nil => simpa [connectionIdsFrom] using hused
  | cons config connections ih =>
    rw [connectionIdsFrom]
    set base := slugifyConnectionName toLowerCase (nameOfConfig config)
    set id := if base ∉ used then base else numberedId base (firstUnused used base used.length 1)
      with hid
    have hfree : id ∉ used := by
      rw [hid]
      split_ifs with hbase
      · exact firstUnused_notMem used base
      · exact hbase
    have hnext : (used ++ [id]).Nodup := by
      rw [← List.concat_eq_append]
      exact hused.concat hfree
    rw [List.append_cons]
    exact ih hnext

section Agreement

variable (toLowerCase : String → String) (numberToString : ℚ → String)
  (sanitizeConnectionConfig : JsValue → JsValue) (isValidConnectionConfig : JsValue → Bool)

/-- The manager with the functions of the source that its ids depend on. -/
def managerDeps : ManagerDeps where
  sanitizeConnectionConfig := sanitizeConnectionConfig
  isValidConnectionConfig := isValidConnectionConfig
  toText := JsValue.toText numberToString
  slugify := slugify toLowerCase

@[simp] theorem managerDeps_slugify : (managerDeps toLowerCase numberToString
    sanitizeConnectionConfig isValidConnectionConfig).slugify = slugify toLowerCase := by
  rw [managerDeps]

/-- Both derivations make the slug of the same name. -/
theorem slugify_nameOr {config : JsValue} (h : HasName config) :
    slugify toLowerCase (nameOr (managerDeps toLowerCase numberToString sanitizeConnectionConfig
      isValidConnectionConfig) config "connection") =
    slugifyConnectionName toLowerCase (nameOfConfig config) := by
  obtain ⟨⟨fields, rfl⟩, hname | ⟨name, hname⟩⟩ := h
  · simp [nameOr, nameOfConfig, hname, truthy, slugify_trim]
  · by_cases hempty : name = ""
    · simp [nameOr, nameOfConfig, hname, truthy, hempty, slugify_trim]
    · simp [nameOr, nameOfConfig, hname, truthy, hempty, slugify_trim, managerDeps, JsValue.toText]

/-- Both derivations make the same id of a connection. -/
theorem connectionIdsFrom_cons {config : JsValue} (h : HasName config) (used : List String)
    (connections : List JsValue) :
    let deps := managerDeps toLowerCase numberToString sanitizeConnectionConfig
      isValidConnectionConfig
    let id := generateInstanceId deps.slugify (nameOr deps config "connection") used
    connectionIdsFrom toLowerCase used (config :: connections) =
      id :: connectionIdsFrom toLowerCase (used ++ [id]) connections := by
  intro deps id
  have hid : id = generateInstanceId deps.slugify (nameOr deps config "connection") used := rfl
  clear_value id
  rw [managerDeps_slugify, generateInstanceId, slugify_nameOr toLowerCase numberToString _ _ h]
    at hid
  rw [connectionIdsFrom, hid]

/-- The manager makes the ids that the routes derive, and registers the instances in this order. -/
theorem createInstances_ids {connections : List JsValue} (h : ∀ c ∈ connections, HasName c)
    (s : Manager) (owned : OrderedMap String ℕ) :
    let created := Manager.createInstances (managerDeps toLowerCase numberToString
      sanitizeConnectionConfig isValidConnectionConfig) s owned connections
    let ids := connectionIdsFrom toLowerCase owned.keys connections
    created.2.keys = owned.keys ++ ids ∧
    (∀ id ∉ ids, created.1.instances.get? id = s.instances.get? id) ∧
    ∀ (i : ℕ) id, ids[i]? = some id → created.1.instances.get? id = some (s.table.length + i) := by
  induction connections generalizing s owned with
  | nil => simp [Manager.createInstances, connectionIdsFrom]
  | cons config connections ih =>
    have hrest : ∀ c ∈ connections, HasName c := fun c hc => h c (List.mem_cons_of_mem _ hc)
    set deps := managerDeps toLowerCase numberToString sanitizeConnectionConfig
      isValidConnectionConfig with hdeps
    set id := generateInstanceId deps.slugify (nameOr deps config "connection") owned.keys with hid
    have hfree : id ∉ owned.keys := generateInstanceId_notMem _ _ _
    have hcons : connectionIdsFrom toLowerCase owned.keys (config :: connections) =
        id :: connectionIdsFrom toLowerCase (owned.keys ++ [id]) connections :=
      connectionIdsFrom_cons toLowerCase numberToString sanitizeConnectionConfig
        isValidConnectionConfig (h config List.mem_cons_self) owned.keys connections
    have hnodup := connectionIdsFrom_nodup toLowerCase owned.nodup_keys (config :: connections)
    have hset : (owned.set id s.table.length).keys = owned.keys ++ [id] :=
      OrderedMap.keys_set_of_not_mem hfree _
    obtain ⟨hkeys, hother, hplace⟩ := ih hrest
      { s with
        table := s.table ++ [⟨s.startGeneration, isServer config, [], .idle, false⟩]
        instances := s.instances.set id s.table.length }
      (owned.set id s.table.length)
    rw [hset] at hkeys hother hplace
    rw [hcons] at hnodup ⊢
    have hlast : id ∉ connectionIdsFrom toLowerCase (owned.keys ++ [id]) connections :=
      (List.nodup_cons.1 (List.nodup_append.1 hnodup).2.1).1
    refine ⟨?_, fun other hnot => ?_, fun i other hi => ?_⟩
    · rw [List.append_cons]
      exact hkeys
    · rw [List.mem_cons, not_or] at hnot
      rw [Manager.createInstances, hother other hnot.2]
      exact OrderedMap.get?_set_of_ne _ hnot.1 _
    · cases i with
      | zero =>
        obtain rfl : id = other := Option.some.inj hi
        rw [Manager.createInstances, hother id hlast]
        exact OrderedMap.get?_set_self ..
      | succ i =>
        rw [Manager.createInstances, hplace i other hi, List.length_append, List.length_singleton]
        exact congrArg some (by omega)

/-- **Instance ids are unique, and the two derivations agree**: the manager creates its instances
under the ids that the routes derive, place by place, and no two are equal; the search for a suffix
ends; and an id leads the routes to the configuration of the instance that runs under it. -/
theorem instanceIds_spec {connections : List JsValue} (h : ∀ c ∈ connections, HasName c)
    (s : Manager) :
    let created := Manager.createInstances (managerDeps toLowerCase numberToString
      sanitizeConnectionConfig isValidConnectionConfig) s OrderedMap.empty connections
    let ids := deriveConnectionIds toLowerCase connections
    created.2.keys = ids ∧ ids.Nodup ∧
    (∀ used base, SuffixLoop used base 1 (firstUnused used base used.length 1)) ∧
    ∀ (i : ℕ) id, ids[i]? = some id →
      findConnectionIndexByInstanceId toLowerCase connections id = i ∧
      created.1.instances.get? id = some (s.table.length + i) := by
  have hnodup : (deriveConnectionIds toLowerCase connections).Nodup :=
    connectionIdsFrom_nodup toLowerCase List.nodup_nil connections
  obtain ⟨hkeys, -, hplace⟩ := createInstances_ids toLowerCase numberToString
    sanitizeConnectionConfig isValidConnectionConfig h s OrderedMap.empty
  refine ⟨hkeys, hnodup, suffixLoop_firstUnused, fun i id hi => ⟨?_, hplace i id hi⟩⟩
  obtain ⟨hlt, hget⟩ := List.getElem?_eq_some_iff.1 hi
  have hfind : (deriveConnectionIds toLowerCase connections).findIdx? (· = id) = some i := by
    rw [List.findIdx?_eq_some_iff_getElem]
    refine ⟨hlt, by simpa using hget, fun j hj => ?_⟩
    rw [← hget, decide_eq_true_eq]
    exact fun heq => Nat.ne_of_lt hj ((List.Nodup.getElem_inj_iff hnodup).1 heq)
  rw [findConnectionIndexByInstanceId, hfind]

end Agreement

/-- A suffixed duplicate meets a connection whose own slug it would be. -/
theorem instanceIds_spec_suffixed :
    let config (name : String) : JsValue := .obj [("name", .str name)]
    let connections := [config "a", config " A-1 ", config "a", config "a-1", .obj []]
    deriveConnectionIds String.toLower connections =
        ["a", "a-1", "a-2", "a-1-1", "connection"] ∧
      findConnectionIndexByInstanceId String.toLower connections "a-2" = 2 := by
  intro config connections
  have hnamed : ∀ c ∈ connections, HasName c := by
    simp [connections, config, HasName, JsValue.get]
  have hids : deriveConnectionIds String.toLower connections =
      ["a", "a-1", "a-2", "a-1-1", "connection"] := by decide +kernel
  refine ⟨hids, ?_⟩
  exact ((instanceIds_spec String.toLower (fun _ => "") id (fun _ => true) hnamed Manager.new).2.2.2
    2 "a-2" (by rw [hids]; rfl)).1

end EdgeLink
