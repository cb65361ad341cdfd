import EdgeLink.Codec.JsValue
import EdgeLink.Foundations.OrderedMap
import EdgeLink.Foundations.Run
import EdgeLink.Foundations.Text
import Mathlib.Data.List.Nodup
import Mathlib.Data.List.Perm.Subperm
import Mathlib.Data.List.Range

/-!
# The connection manager

`app/connection-manager.ts` and `app/connection-manager/start.ts`: the manager creates one instance
for each connection, registers it under an id, starts the servers and then the clients, and rolls
back what it has created when it finds after an await that a newer call has superseded it.

The calls of the manager, the completions of the instances' starts and the continuations of the
manager's own starts are events, so that a run is any interleaving of them. Of an instance the model
only knows that it may acquire resources while its start is pending, that it holds them when its
start has succeeded, and that after its `stop()` it holds none and acquires none.

* `generateInstanceId_notMem`: the ids of one call differ.
* `Instance.Valid`: what holds of one instance, kept by everything that can happen to it.
* `getElem?_update`: what a step that touches some of the instances does to each of them.
-/

namespace EdgeLink

open JsValue

/-! ## The options -/

/-- What the manager uses to read a configuration: how the fields of a connection are cleaned up,
which connections are valid, the text of a value, and the slug of a name. -/
structure ManagerDeps where
  sanitizeConnectionConfig : JsValue → JsValue
  isValidConnectionConfig : JsValue → Bool
  toText : JsValue → String
  slugify : String → String

/-- Whether JavaScript takes a value for true. -/
def truthy : JsValue → Bool
  | .undefined => false
  | .null => false
  | .bool b => b
  | .num .nan => false
  | .num (.finite q) => q ≠ 0
  | .str s => s ≠ ""
  | _ => true

/-- Whether a connection listens. -/
def isServer (options : JsValue) : Bool :=
  options.get "serverType" = .bool true ∨ options.get "serverType" = .str "server"

/-- The name of a connection, or a fallback. -/
def nameOr (deps : ManagerDeps) (options : JsValue) (fallback : String) : String :=
  if truthy (options.get "name") then deps.toText (options.get "name") else fallback

def numberedId (base : String) (n : ℕ) : String := base ++ "-" ++ n.repr

/-- The first number from `n` on that makes an unused id. -/
def firstUnused (usedIds : List String) (base : String) : ℕ → ℕ → ℕ
  | 0, n => n
  | fuel + 1, n =>
    if numberedId base n ∈ usedIds then firstUnused usedIds base fuel (n + 1) else n

def generateInstanceId (slugify : String → String) (name : String) (usedIds : List String) :
    String :=
  let base := slugify name
  if base ∉ usedIds then base
  else numberedId base (firstUnused usedIds base usedIds.length 1)

/-- The options as the configuration of one connection. -/
def asConnection (deps : ManagerDeps) (options : JsValue) : JsValue :=
  match options with
  | .obj fields => .obj (fields.filter (·.1 ≠ "name") ++
      [("name", .str (nameOr deps options "default"))])
  | _ => .obj [("name", .str (nameOr deps options "default"))]

/-- The connections of the options: an array, or the options themselves. -/
def parseConnectionList (deps : ManagerDeps) (options : JsValue) : Option (List JsValue) :=
  match options.get "connections" with
  | .arr (connection :: connections) => some (connection :: connections)
  | _ => if truthy (options.get "serverType") then some [asConnection deps options] else none

/-- The sanitized connections, when no two servers share a port and all are valid. -/
def prepareConnectionList (deps : ManagerDeps) (connectionList : List JsValue) :
    Option (List JsValue) :=
  if ¬ ((connectionList.filter (isServer ·)).map (·.get "udpPort")).Nodup then none
  else
    let sanitized := connectionList.map deps.sanitizeConnectionConfig
    if sanitized.all deps.isValidConnectionConfig then some sanitized else none

/-! ## The manager -/

inductive InstanceCall where
  | start
  | stop
  deriving DecidableEq

inductive StartState where
  | idle
  | pending
  | succeeded
  | failed
  deriving DecidableEq

/-- A connection instance: the call of the manager that created it, the calls it has received, how
its start stands, and whether it holds a resource. -/
structure Instance where
  generation : ℕ
  serverMode : Bool
  calls : List InstanceCall
  startState : StartState
  holding : Bool
  deriving DecidableEq

namespace Instance

def Stopped (inst : Instance) : Prop := .stop ∈ inst.calls

instance (inst : Instance) : Decidable inst.Stopped := by
  unfold Stopped
  infer_instance

def start (inst : Instance) : Instance :=
  { inst with calls := inst.calls ++ [.start], startState := .pending }

def stop (inst : Instance) : Instance :=
  { inst with calls := inst.calls ++ [.stop], holding := false }

/-- The start allocates something, unless the instance has been stopped. -/
def acquire (inst : Instance) : Instance :=
  if inst.startState = .pending ∧ ¬ inst.Stopped then { inst with holding := true } else inst

/-- The start completes. A failed one may leave something behind. -/
def settle (inst : Instance) (ok leftover : Bool) : Instance :=
  if inst.startState = .pending then
    { inst with
      startState := if ok then .succeeded else .failed
      holding := if inst.Stopped then inst.holding else ok || leftover }
  else inst

end Instance

/-- Where a start of the manager is suspended. -/
inductive StartPhase where
  | servers
  | clients
  | done
  deriving DecidableEq

/-- A call of `start()`: the instances it has created, by id, and where it stands. -/
structure StartAttempt where
  owned : OrderedMap String ℕ
  phase : StartPhase

/-- The manager, with every instance ever created. An instance is known by its position in
`table`, a call of `start()` by its generation. -/
structure Manager where
  startGeneration : ℕ
  instances : OrderedMap String ℕ
  table : List Instance
  attempts : OrderedMap ℕ StartAttempt

inductive ManagerEvent where
  | start (options : JsValue)
  | stop
  /-- an instance whose start is pending allocates something -/
  | acquire (h : ℕ)
  /-- the start of an instance completes -/
  | startSettled (h : ℕ) (ok leftover : Bool)
  /-- a call of `start()` continues after an await -/
  | resume (generation : ℕ)

namespace Manager

def new : Manager := ⟨0, OrderedMap.empty, [], OrderedMap.empty⟩

/-- Apply a function to some instances. -/
def update (s : Manager) (hs : List ℕ) (f : Instance → Instance) : Manager :=
  { s with table := s.table.mapIdx fun h inst => if h ∈ hs then f inst else inst }

/-- Create and register one instance for each connection. -/
def createInstances (deps : ManagerDeps) (s : Manager) (owned : OrderedMap String ℕ) :
    List JsValue → Manager × OrderedMap String ℕ
  | [] => (s, owned)
  | cfg :: connectionList =>
    let id := generateInstanceId deps.slugify (nameOr deps cfg "connection") owned.keys
    let h := s.table.length
    createInstances deps
      { s with
        table := s.table ++ [⟨s.startGeneration, isServer cfg, [], .idle, false⟩]
        instances := s.instances.set id h }
      (owned.set id h) connectionList

/-- The instances of one mode. -/
def group (s : Manager) (owned : OrderedMap String ℕ) (serverMode : Bool) : List ℕ :=
  owned.values.filter fun h => (s.table[h]?.map Instance.serverMode) = some serverMode

def startGroup (s : Manager) (owned : OrderedMap String ℕ) (serverMode : Bool) : Manager :=
  s.update (s.group owned serverMode) Instance.start

/-- Stop and clear every registered instance. -/
def teardownAll (s : Manager) : Manager :=
  { s.update s.instances.values Instance.stop with instances := OrderedMap.empty }

/-- Roll back only what a superseded start has created. -/
def teardownOwned (s : Manager) (owned : OrderedMap String ℕ) : Manager :=
  { s.update owned.values Instance.stop with
    instances := s.instances.filter fun id h => owned.get? id ≠ some h }

/-- Whether some start of the instances has failed. -/
def startError (s : Manager) (owned : OrderedMap String ℕ) : Prop :=
  ∃ h ∈ owned.values, (s.table[h]?.map Instance.startState) = some .failed

instance (s : Manager) (owned : OrderedMap String ℕ) : Decidable (s.startError owned) := by
  unfold startError
  infer_instance

/-- A call of `start()`, up to its first await. -/
def start (deps : ManagerDeps) (s : Manager) (options : JsValue) : Manager :=
  let s := { s with startGeneration := s.startGeneration + 1 }
  let s := if 0 < s.instances.size then s.teardownAll else s
  match (parseConnectionList deps options).bind (prepareConnectionList deps) with
  | none => s
  | some connectionList =>
    let created := createInstances deps s OrderedMap.empty connectionList
    let s := created.1.startGroup created.2 true
    { s with attempts := s.attempts.set s.startGeneration ⟨created.2, .servers⟩ }

def stop (s : Manager) : Manager :=
  { s with startGeneration := s.startGeneration + 1 }.teardownAll

/-- A call of `start()` that has been superseded rolls back, and ends. -/
def rollBack (s : Manager) (generation : ℕ) (attempt : StartAttempt) : Manager :=
  let s := s.teardownOwned attempt.owned
  { s with attempts := s.attempts.set generation { attempt with phase := .done } }

/-- A call of `start()` continues: after the servers, and after the clients. -/
def resume (s : Manager) (generation : ℕ) (attempt : StartAttempt) : Manager :=
  match attempt.phase with
  | .servers =>
    if generation ≠ s.startGeneration then s.rollBack generation attempt
    else
      let s := s.startGroup attempt.owned false
      { s with attempts := s.attempts.set generation { attempt with phase := .clients } }
  | .clients =>
    if generation ≠ s.startGeneration then s.rollBack generation attempt
    else
      let s := if s.startError attempt.owned then s.teardownAll else s
      { s with attempts := s.attempts.set generation { attempt with phase := .done } }
  | .done => s

/-- Whether no start of the instances that a call waits for is pending. -/
def Awaited (s : Manager) (attempt : StartAttempt) : Prop :=
  ∀ h ∈ attempt.owned.values, (s.table[h]?.map Instance.startState) ≠ some .pending

instance (s : Manager) (attempt : StartAttempt) : Decidable (s.Awaited attempt) := by
  unfold Awaited
  infer_instance

/-- One step of the manager. -/
def step (deps : ManagerDeps) (s : Manager) : ManagerEvent → Manager
  | .start options => s.start deps options
  | .stop => s.stop
  | .acquire h => s.update [h] Instance.acquire
  | .startSettled h ok leftover => s.update [h] (Instance.settle · ok leftover)
  | .resume generation =>
    match s.attempts.get? generation with
    | none => s
    | some attempt => if s.Awaited attempt then s.resume generation attempt else s

end Manager

/-! ## The ids -/

theorem numberedId_injective (base : String) : Function.Injective (numberedId base) := by
  intro m n h
  have hlist := congrArg String.toList h
  simp only [numberedId, String.toList_append, List.append_cancel_left_eq] at hlist
  exact repr_injective (String.toList_injective hlist)

/-- Where the search ends at a used id, every id that it has looked at is used. -/
theorem mem_of_firstUnused_mem {usedIds : List String} {base : String} {fuel n : ℕ}
    (h : numberedId base (firstUnused usedIds base fuel n) ∈ usedIds) {i : ℕ} (hi : i ≤ fuel) :
    numberedId base (n + i) ∈ usedIds := by
  induction fuel generalizing n i with
  | zero => rwa [Nat.le_zero.1 hi]
  | succ fuel ih =>
    rw [firstUnused] at h
    split_ifs at h with hused
    · cases i with
      | zero => exact hused
      | succ i =>
        rw [show n + (i + 1) = n + 1 + i by omega]
        exact ih h (by omega)
    · exact absurd h hused

theorem firstUnused_notMem (usedIds : List String) (base : String) :
    numberedId base (firstUnused usedIds base usedIds.length 1) ∉ usedIds := by
  intro hmem
  -- otherwise more numbered ids than there are would be used
  have hsubset : (List.range (usedIds.length + 1)).map (fun i => numberedId base (1 + i)) ⊆
      usedIds := by
    intro id hid
    obtain ⟨i, hi, rfl⟩ := List.mem_map.1 hid
    exact mem_of_firstUnused_mem hmem (by simpa [Nat.lt_succ_iff] using hi)
  have hnodup : ((List.range (usedIds.length + 1)).map fun i => numberedId base (1 + i)).Nodup := by
    refine List.nodup_range.map fun i j hij => ?_
    have := numberedId_injective _ hij
    omega
  have hlength := (List.Nodup.subperm hnodup hsubset).length_le
  rw [List.length_map, List.length_range] at hlength
  omega

/-- The generated id is unused. -/
theorem generateInstanceId_notMem (slugify : String → String) (name : String)
    (usedIds : List String) : generateInstanceId slugify name usedIds ∉ usedIds := by
  rw [generateInstanceId]
  split_ifs with hbase
  · exact firstUnused_notMem usedIds (slugify name)
  · exact hbase

/-! ## The instances -/

namespace Instance

variable {inst : Instance} {g : ℕ}

/-- What holds of an instance while the manager is at generation `g`. -/
structure Valid (g : ℕ) (inst : Instance) : Prop where
  /-- no start after a stop -/
  orderly : inst.calls.Pairwise fun a b => a = .stop → b ≠ .start
  released : inst.Stopped → inst.holding = false
  holds : ¬ inst.Stopped → inst.startState = .succeeded → inst.holding = true
  le : inst.generation ≤ g
  past : inst.generation < g → inst.Stopped

@[simp] theorem stopped_start : inst.start.Stopped ↔ inst.Stopped := by
  simp [start, Stopped]

@[simp] theorem stopped_stop : inst.stop.Stopped := by
  simp [stop, Stopped]

@[simp] theorem stopped_acquire : inst.acquire.Stopped ↔ inst.Stopped := by
  rw [acquire]
  split_ifs <;> rfl

@[simp] theorem stopped_settle {ok leftover : Bool} :
    (inst.settle ok leftover).Stopped ↔ inst.Stopped := by
  rw [settle]
  split_ifs <;> rfl

theorem Valid.start (h : inst.Valid g) (hrunning : ¬ inst.Stopped) : inst.start.Valid g where
  orderly := by
    rw [Instance.start, List.pairwise_append]
    refine ⟨h.orderly, List.pairwise_singleton _ _, fun a ha b _ hstop => ?_⟩
    rw [hstop] at ha
    exact absurd ha hrunning
  released hstopped := absurd (stopped_start.1 hstopped) hrunning
  holds _ hsucceeded := nomatch hsucceeded
  le := h.le
  past hlt := stopped_start.2 (h.past hlt)

theorem Valid.stop (h : inst.Valid g) : inst.stop.Valid g where
  orderly := by
    rw [Instance.stop, List.pairwise_append]
    refine ⟨h.orderly, List.pairwise_singleton _ _, fun a _ b hb _ => ?_⟩
    rw [List.mem_singleton.1 hb]
    exact nofun
  released _ := rfl
  holds hrunning := absurd stopped_stop hrunning
  le := h.le
  past _ := stopped_stop

theorem Valid.acquire (h : inst.Valid g) : inst.acquire.Valid g := by
  rw [Instance.acquire]
  split_ifs with hpending
  · exact ⟨h.orderly, fun hstopped => absurd hstopped hpending.2, fun _ _ => rfl, h.le, h.past⟩
  · exact h

theorem Valid.settle (h : inst.Valid g) (ok leftover : Bool) :
    (inst.settle ok leftover).Valid g := by
  rw [Instance.settle]
  by_cases hpending : inst.startState = .pending
  · rw [if_pos hpending]
    refine ⟨h.orderly, fun (hstopped : inst.Stopped) => ?_,
      fun (hrunning : ¬ inst.Stopped) hsucceeded => ?_, h.le, h.past⟩
    · change (if inst.Stopped then inst.holding else ok || leftover) = false
      rw [if_pos hstopped]
      exact h.released hstopped
    · change (if inst.Stopped then inst.holding else ok || leftover) = true
      rw [if_neg hrunning]
      cases ok with
      | true => rfl
      | false => exact nomatch hsucceeded
  · rw [if_neg hpending]
    exact h

/-- A later call leaves the instances of the past alone when they have been stopped. -/
theorem Valid.mono (h : inst.Valid g) (hstopped : inst.Stopped) {g' : ℕ} (hle : g ≤ g') :
    inst.Valid g' :=
  ⟨h.orderly, h.released, h.holds, h.le.trans hle, fun _ => hstopped⟩

end Instance

namespace Manager

variable {s : Manager} {deps : ManagerDeps}

/-! ## What the parts of a step do to the instances -/

theorem getElem?_update (s : Manager) (hs : List ℕ) (f : Instance → Instance) (h : ℕ) :
    (s.update hs f).table[h]? =
      s.table[h]?.map fun inst => if h ∈ hs then f inst else inst := by
  rw [update, List.getElem?_mapIdx]

/-- An instance after an update comes from one before it. -/
theorem exists_of_getElem?_update {hs : List ℕ} {f : Instance → Instance} {h : ℕ}
    {inst : Instance} (hinst : (s.update hs f).table[h]? = some inst) :
    ∃ inst', s.table[h]? = some inst' ∧ inst = if h ∈ hs then f inst' else inst' := by
  rw [getElem?_update] at hinst
  obtain ⟨inst', hinst', rfl⟩ := Option.map_eq_some_iff.1 hinst
  exact ⟨inst', hinst', rfl⟩

theorem getElem?_update_of_notMem {hs : List ℕ} {h : ℕ} (hmem : h ∉ hs)
    (f : Instance → Instance) : (s.update hs f).table[h]? = s.table[h]? := by
  rw [getElem?_update]
  simp [hmem]

end Manager

end EdgeLink
