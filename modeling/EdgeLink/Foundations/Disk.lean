import Mathlib.Data.List.Basic
import Mathlib.Logic.Function.Basic

/-!
# Files that outlive a crash

A disk has files, and names for them. Of each file there is what a read sees and what a crash would
leave (`seen`, `kept`), and the same goes for the names. What has not been synced may be written
back at any time, and then in any state; a crash takes every file and every name back to what was
kept.

* `Disk.Frozen`: a file of which nothing is pending. Only opening it for writing, and writing to it,
  change what it holds.
* `Disk.Sound`: every name of a class, seen or kept, stands for a frozen file with a content that
  the name may have. `Sound.replace` is the rule for replacing such a file: write a file under
  another name, sync it, rename it.
* `AtomicCell`: what such a file is to its readers, a value that is replaced as a whole, and that a
  crash may take back to one that it has had.
-/

namespace EdgeLink

/-- A file: what a read sees, and what a crash leaves of it. -/
structure File (α : Type*) where
  seen : List α
  kept : List α

/-- The files, and which of them a name stands for: for a reader, and after a crash. -/
structure Disk (π α : Type*) where
  files : List (File α)
  names : π → Option ℕ
  keptNames : π → Option ℕ

namespace Disk

variable {π α : Type*}

/-! ## Operations -/

def modifyFile (d : Disk π α) (file : ℕ) (f : File α → File α) : Disk π α :=
  { d with files := d.files.modify file f }

/-- Write at the end of a file. -/
def write (d : Disk π α) (file : ℕ) (text : List α) : Disk π α :=
  d.modifyFile file fun f => { f with seen := f.seen ++ text }

def sync (d : Disk π α) (file : ℕ) : Disk π α :=
  d.modifyFile file fun f => { f with kept := f.seen }

/-- What a reader finds under a name. -/
def content (d : Disk π α) (p : π) : Option (List α) :=
  (d.names p).bind fun file => d.files[file]?.map File.seen

/-- Something of a file that is not synced reaches the disk. -/
def writeBack [DecidableEq α] (d : Disk π α) (file : ℕ) (text : List α) : Disk π α :=
  d.modifyFile file fun f => if f.seen = f.kept then f else { f with kept := text }

def crash (d : Disk π α) : Disk π α where
  files := d.files.map fun f => { f with seen := f.kept }
  names := d.keptNames
  keptNames := d.keptNames

variable [DecidableEq π]

/-- Open a file for writing: it is truncated, or created. -/
def create (d : Disk π α) (p : π) : Disk π α × ℕ :=
  match d.names p with
  | some file => (d.modifyFile file fun f => { f with seen := [] }, file)
  | none =>
    ({ d with
      files := d.files ++ [⟨[], []⟩]
      names := Function.update d.names p (some d.files.length) }, d.files.length)

def unlink (d : Disk π α) (p : π) : Disk π α := { d with names := Function.update d.names p none }

/-- Let the name `q` stand for the file of `p`, which loses its name. -/
def rename (d : Disk π α) (p q : π) : Disk π α :=
  match d.names p with
  | some file => { d with names := Function.update (Function.update d.names q (some file)) p none }
  | none => d

/-- What a name stands for reaches the disk. -/
def keepName (d : Disk π α) (p : π) : Disk π α :=
  { d with keptNames := Function.update d.keptNames p (d.names p) }

/-! ### The names after an operation -/

section Names

variable {d : Disk π α} {p q r : π} {file : ℕ}

theorem names_unlink : (d.unlink p).names q = if q = p then none else d.names q :=
  Function.update_apply ..

theorem keptNames_keepName :
    (d.keepName p).keptNames q = if q = p then d.names p else d.keptNames q :=
  Function.update_apply ..

theorem rename_eq (h : d.names p = some file) : d.rename p q =
    { d with names := Function.update (Function.update d.names q (some file)) p none } := by
  rw [rename, h]

theorem names_rename (h : d.names p = some file) : (d.rename p q).names r =
    if r = p then none else if r = q then some file else d.names r := by
  rw [rename_eq h]
  show Function.update _ _ _ _ = _
  rw [Function.update_apply, Function.update_apply]

theorem names_create_of_ne (h : q ≠ p) : (d.create p).1.names q = d.names q := by
  rw [create]
  split
  · rfl
  · exact Function.update_of_ne h _ _

theorem create_of_none (h : d.names p = none) : d.create p =
    ({ d with
      files := d.files ++ [⟨[], []⟩]
      names := Function.update d.names p (some d.files.length) }, d.files.length) := by
  rw [create, h]

theorem names_create_self : (d.create p).1.names p = some (d.create p).2 := by
  rw [create]
  split
  next file hname => exact hname
  · exact Function.update_self ..

@[simp] theorem keptNames_create : (d.create p).1.keptNames = d.keptNames := by
  rw [create]
  split <;> rfl

end Names

/-! ## Frozen files -/

omit [DecidableEq π]

section Frozen

variable {d : Disk π α} {file file' : ℕ} {text t : List α} {p q : π}

/-- A file of which nothing is pending. -/
def Frozen (d : Disk π α) (file : ℕ) (t : List α) : Prop := d.files[file]? = some ⟨t, t⟩

theorem Frozen.lt (h : d.Frozen file t) : file < d.files.length :=
  (List.getElem?_eq_some_iff.1 h).1

/-- What leaves an unpended file alone leaves a frozen file alone. -/
theorem Frozen.modifyFile {f : File α → File α} (h : d.Frozen file t)
    (hf : file = file' → f ⟨t, t⟩ = ⟨t, t⟩) : (d.modifyFile file' f).Frozen file t := by
  rw [Frozen, Disk.modifyFile, List.getElem?_modify, h]
  split_ifs with heq
  · exact congrArg some (hf heq.symm)
  · rfl

theorem Frozen.write (h : d.Frozen file t) (hne : file ≠ file') : (d.write file' text).Frozen file t :=
  h.modifyFile fun heq => absurd heq hne

theorem Frozen.sync (h : d.Frozen file t) : (d.sync file').Frozen file t := h.modifyFile fun _ => rfl

theorem Frozen.writeBack [DecidableEq α] (h : d.Frozen file t) :
    (d.writeBack file' text).Frozen file t :=
  h.modifyFile fun _ => if_pos rfl

theorem Frozen.crash (h : d.Frozen file t) : d.crash.Frozen file t := by
  rw [Frozen, Disk.crash, List.getElem?_map, h]
  rfl

theorem Frozen.create [DecidableEq π] (h : d.Frozen file t) (hp : d.names p ≠ some file) :
    (d.create p).1.Frozen file t := by
  rw [Disk.create]
  cases hname : d.names p with
  | some file' => exact h.modifyFile fun heq => absurd (heq ▸ hname) hp
  | none =>
    show (d.files ++ [⟨[], []⟩])[file]? = _
    rw [List.getElem?_append_left h.lt]
    exact h

theorem Frozen.content (h : d.Frozen file t) (hp : d.names p = some file) : d.content p = some t := by
  rw [Disk.content, hp, Option.bind_some, h]
  rfl

end Frozen

/-! ## Names of a class -/

/-- A file that a name of the class stands for, now or after a crash. -/
def Exposed (d : Disk π α) (Public : π → Prop) (file : ℕ) : Prop :=
  ∃ p, Public p ∧ (d.names p = some file ∨ d.keptNames p = some file)

section Exposed

variable {d : Disk π α} {Public : π → Prop} {file file' : ℕ} {p q : π} [DecidableEq π]

theorem Exposed.of_create (h : (d.create p).1.Exposed Public file) (hp : ¬ Public p) :
    d.Exposed Public file := by
  obtain ⟨q, hq, hname⟩ := h
  have hne : q ≠ p := fun heq => hp (heq ▸ hq)
  rw [names_create_of_ne hne, keptNames_create] at hname
  exact ⟨q, hq, hname⟩

theorem Exposed.of_rename (h : (d.rename p q).Exposed Public file) (hfile : d.names p = some file') :
    d.Exposed Public file ∨ file = file' := by
  obtain ⟨r, hr, hname | hname⟩ := h
  · rw [names_rename hfile] at hname
    split_ifs at hname
    · exact Or.inr (Option.some.inj hname).symm
    · exact Or.inl ⟨r, hr, Or.inl hname⟩
  · rw [rename_eq hfile] at hname
    exact Or.inl ⟨r, hr, Or.inr hname⟩

theorem Exposed.of_unlink (h : (d.unlink p).Exposed Public file) : d.Exposed Public file := by
  obtain ⟨q, hq, hname | hname⟩ := h
  · rw [names_unlink] at hname
    split_ifs at hname
    exact ⟨q, hq, Or.inl hname⟩
  · exact ⟨q, hq, Or.inr hname⟩

theorem Exposed.of_keepName (h : (d.keepName p).Exposed Public file) : d.Exposed Public file := by
  obtain ⟨q, hq, hname | hname⟩ := h
  · exact ⟨q, hq, Or.inl hname⟩
  · rw [keptNames_keepName] at hname
    split_ifs at hname with heq
    · exact ⟨q, hq, Or.inl (heq ▸ hname)⟩
    · exact ⟨q, hq, Or.inr hname⟩

end Exposed

/-- **Every name of the class stands for a frozen file**, now and after a crash, with a content that
the name may have. -/
structure Sound (d : Disk π α) (Public : π → Prop) (May : π → List α → Prop) : Prop where
  seen : ∀ p file, Public p → d.names p = some file → ∃ t, d.Frozen file t ∧ May p t
  kept : ∀ p file, Public p → d.keptNames p = some file → ∃ t, d.Frozen file t ∧ May p t

namespace Sound

variable {d : Disk π α} {Public : π → Prop} {May May' : π → List α → Prop} {file : ℕ}
  {text : List α} {p q : π}

theorem mono (h : d.Sound Public May) (hmay : ∀ p t, Public p → May p t → May' p t) :
    d.Sound Public May' where
  seen p file hp hname :=
    let ⟨t, hfrozen, ht⟩ := h.seen p file hp hname
    ⟨t, hfrozen, hmay p t hp ht⟩
  kept p file hp hname :=
    let ⟨t, hfrozen, ht⟩ := h.kept p file hp hname
    ⟨t, hfrozen, hmay p t hp ht⟩

theorem frozen (h : d.Sound Public May) (hfile : d.Exposed Public file) : ∃ t, d.Frozen file t := by
  obtain ⟨p, hp, hname | hname⟩ := hfile
  · obtain ⟨t, ht, -⟩ := h.seen p file hp hname
    exact ⟨t, ht⟩
  · obtain ⟨t, ht, -⟩ := h.kept p file hp hname
    exact ⟨t, ht⟩

theorem content (h : d.Sound Public May) (hp : Public p) {t : List α} (ht : d.content p = some t) :
    May p t := by
  obtain ⟨file, hname, -⟩ := Option.bind_eq_some_iff.1 ht
  obtain ⟨t', hfrozen, hmay⟩ := h.seen p file hp hname
  obtain rfl : t' = t := Option.some.inj ((hfrozen.content hname).symm.trans ht)
  exact hmay

/-- What leaves the names and the exposed files alone keeps a disk sound. -/
theorem of_frozen (h : d.Sound Public May) {d' : Disk π α} (hnames : d'.names = d.names)
    (hkept : d'.keptNames = d.keptNames)
    (hfrozen : ∀ file t, d.Exposed Public file → d.Frozen file t → d'.Frozen file t) :
    d'.Sound Public May where
  seen p file hp hname := by
    rw [hnames] at hname
    obtain ⟨t, ht, hmay⟩ := h.seen p file hp hname
    exact ⟨t, hfrozen file t ⟨p, hp, Or.inl hname⟩ ht, hmay⟩
  kept p file hp hname := by
    rw [hkept] at hname
    obtain ⟨t, ht, hmay⟩ := h.kept p file hp hname
    exact ⟨t, hfrozen file t ⟨p, hp, Or.inr hname⟩ ht, hmay⟩

theorem write (h : d.Sound Public May) (hfile : ¬ d.Exposed Public file) :
    (d.write file text).Sound Public May :=
  h.of_frozen rfl rfl fun _ _ hexposed ht => ht.write fun heq => hfile (heq ▸ hexposed)

theorem sync (h : d.Sound Public May) : (d.sync file).Sound Public May :=
  h.of_frozen rfl rfl fun _ _ _ ht => ht.sync

theorem writeBack [DecidableEq α] (h : d.Sound Public May) :
    (d.writeBack file text).Sound Public May :=
  h.of_frozen rfl rfl fun _ _ _ ht => ht.writeBack

theorem crash (h : d.Sound Public May) : d.crash.Sound Public May := by
  have hkept : ∀ p file, Public p → d.keptNames p = some file →
      ∃ t, d.crash.Frozen file t ∧ May p t := by
    intro p file hp hname
    obtain ⟨t, ht, hmay⟩ := h.kept p file hp hname
    exact ⟨t, ht.crash, hmay⟩
  exact ⟨hkept, hkept⟩

variable [DecidableEq π]

theorem unlink (h : d.Sound Public May) : (d.unlink p).Sound Public May where
  seen q file hq hname := by
    rw [names_unlink] at hname
    split_ifs at hname
    exact h.seen q file hq hname
  kept := h.kept

theorem keepName (h : d.Sound Public May) : (d.keepName p).Sound Public May where
  seen := h.seen
  kept q file hq hname := by
    rw [keptNames_keepName] at hname
    split_ifs at hname with heq
    · subst heq
      exact h.seen q file hq hname
    · exact h.kept q file hq hname

/-- A file that is opened for writing is not an exposed one. -/
theorem create (h : d.Sound Public May) (hp : ¬ Public p)
    (hname : ∀ file, d.names p = some file → ¬ d.Exposed Public file) :
    (d.create p).1.Sound Public May := by
  have hfrozen : ∀ file t, d.Exposed Public file → d.Frozen file t → (d.create p).1.Frozen file t :=
    fun file t hexposed ht => ht.create fun heq => hname file heq hexposed
  have hnames : ∀ q, Public q → (d.create p).1.names q = d.names q := fun q hq =>
    names_create_of_ne fun heq => hp (heq ▸ hq)
  refine ⟨fun q file hq hname' => ?_, fun q file hq hname' => ?_⟩
  · rw [hnames q hq] at hname'
    obtain ⟨t, ht, hmay⟩ := h.seen q file hq hname'
    exact ⟨t, hfrozen file t ⟨q, hq, Or.inl hname'⟩ ht, hmay⟩
  · rw [keptNames_create] at hname'
    obtain ⟨t, ht, hmay⟩ := h.kept q file hq hname'
    exact ⟨t, hfrozen file t ⟨q, hq, Or.inr hname'⟩ ht, hmay⟩

/-- **The rule for replacing a file**: renaming keeps a disk sound when the file is frozen, with a
content that its new name may have. -/
theorem replace (h : d.Sound Public May) (hfile : d.names p = some file)
    {t : List α} (ht : d.Frozen file t) (hmay : May q t) : (d.rename p q).Sound Public May := by
  refine ⟨fun q' file' hq' hname => ?_, ?_⟩
  · rw [names_rename hfile] at hname
    rw [rename_eq hfile]
    split_ifs at hname with hne heq
    · subst heq
      obtain rfl := Option.some.inj hname
      exact ⟨t, ht, hmay⟩
    · exact h.seen q' file' hq' hname
  · rw [rename_eq hfile]
    exact h.kept

end Sound

end Disk

/-! ## Cells -/

/-- A value that is replaced as a whole, with what it was at first and what has been written. -/
structure AtomicCell (β : Type*) where
  initial : Option β
  past : List β
  current : Option β

namespace AtomicCell

variable {β : Type*}

/-- The values that a cell has had. -/
def Held (r : AtomicCell β) (v : Option β) : Prop := v = r.initial ∨ ∃ b ∈ r.past, v = some b

instance [DecidableEq β] (r : AtomicCell β) (v : Option β) : Decidable (r.Held v) :=
  inferInstanceAs (Decidable (_ ∨ _))

inductive Step : AtomicCell β → AtomicCell β → Prop
  | idle (r : AtomicCell β) : Step r r
  | write (r : AtomicCell β) (b : β) : Step r { r with past := r.past ++ [b], current := some b }
  /-- a crash takes the cell back -/
  | back (r : AtomicCell β) {v : Option β} : r.Held v → Step r { r with current := v }

/-- A cell never holds anything but what has been written, or what it held at first. -/
theorem Step.held {r r' : AtomicCell β} (h : Step r r') (hr : r.Held r.current) : r'.Held r'.current := by
  cases h with
  | idle => exact hr
  | write b => exact Or.inr ⟨b, by simp, rfl⟩
  | back hv => exact hv

end AtomicCell

end EdgeLink
