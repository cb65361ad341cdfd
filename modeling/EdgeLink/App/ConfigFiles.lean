import EdgeLink.Codec.JsValue
import EdgeLink.Foundations.Disk
import EdgeLink.Foundations.Lists
import EdgeLink.Foundations.Run

/-!
# Configuration files

`saveConfigFile` and `loadConfigFileSafe` of `foundation/config-io.ts`. A save writes a temporary
file with a name of its own, syncs it and renames it; whatever fails on the way, it removes the
temporary file. Any number of saves and loads are under way at once, each makes its next call to the
file system when its last one has settled, and between any two calls the machine may crash.

How JSON is printed and read is a parameter.

* `Intact`: what holds of the disk, of every save and of every load.
* `configFiles_atomic`: to its readers, a configuration file is a cell that whole texts are written
  to, and what a load returns is one of them.
* `configFiles_linearizable`: what a load returns was in the file at one moment while it ran.
-/

namespace EdgeLink

/-- How JSON is printed, `JSON.stringify(data, null, 2)`, and read back. -/
structure JsonFormat where
  print : JsValue → List Char
  parse : List Char → Option JsValue

/-- A value that has a text, which reads back as what `JSON.stringify` writes down of it. -/
def JsonFormat.Prints (format : JsonFormat) (data : JsValue) : Prop :=
  data ≠ .undefined ∧ format.parse (format.print data) = some data.stringify

instance (format : JsonFormat) (data : JsValue) : Decidable (format.Prints data) :=
  inferInstanceAs (Decidable (_ ∧ _))

structure FilePath where
  dir : String
  base : String
  deriving DecidableEq

/-- The name of the temporary file of a save. -/
def tempPath (filePath : FilePath) (unique : String) : FilePath :=
  ⟨filePath.dir, "." ++ filePath.base ++ "." ++ unique ++ ".tmp"⟩

/-- The name begins with a dot. -/
def Hidden (path : FilePath) : Prop := path.base.toList.head? = some '.'

instance (path : FilePath) : Decidable (Hidden path) := by
  unfold Hidden
  infer_instance

/-- A name that configuration files have. -/
def Public (path : FilePath) : Prop := ¬ Hidden path

instance (path : FilePath) : Decidable (Public path) := inferInstanceAs (Decidable (¬ Hidden path))

/-- Where a save stands: which call to the file system it makes next. -/
inductive SavePhase
  | opening
  | writing (file : ℕ) (rest : List Char)
  | syncing (file : ℕ)
  | closing (file : ℕ)
  /-- the file is that of the temporary name -/
  | renamingTemp (file : ℕ)
  /-- a failed save closes what it has opened -/
  | cleanupClose (file : ℕ)
  | cleanupUnlink
  | finished (ok : Bool)

structure Save where
  filePath : FilePath
  tempPath : FilePath
  text : List Char
  phase : SavePhase

inductive ConfigFileResult
  | ok (data : JsValue)
  | notFound
  | parseError
  | readError

inductive LoadPhase
  | opening
  | reading (file : ℕ) (content : List Char)
  | finished (result : ConfigFileResult)

structure Load where
  filePath : FilePath
  phase : LoadPhase

/-- The disk, the saves and loads of the running process, the temporary names that have been used,
and what has been renamed into place, in this order. -/
structure ConfigFiles where
  disk : Disk FilePath Char
  saves : List Save
  loads : List Load
  made : List FilePath
  log : List (FilePath × List Char)

inductive ConfigFilesEvent
  | save (filePath : FilePath) (unique : String) (data : JsValue)
  | load (filePath : FilePath)
  /-- the next call of a save succeeds or fails; a write takes some of the text -/
  | saveStep (k : ℕ) (ok : Bool) (count : ℕ)
  | loadStep (k : ℕ) (ok : Bool) (count : ℕ)
  | writeBack (file : ℕ) (text : List Char)
  | keepName (path : FilePath)
  | crash

namespace ConfigFiles

variable (format : JsonFormat)

/-- The next call of a save. -/
def stepSave (s : ConfigFiles) (k : ℕ) (save : Save) (ok : Bool) (count : ℕ) : ConfigFiles :=
  let proceed := fun disk phase => { s with
    disk := disk
    saves := s.saves.set k { save with phase := phase } }
  match save.phase with
  | .opening =>
    if ok then
      let opened := s.disk.create save.tempPath
      proceed opened.1 (.writing opened.2 save.text)
    else proceed s.disk .cleanupUnlink
  | .writing file rest =>
    if ok then
      let disk := s.disk.write file (rest.take (count + 1))
      let rest := rest.drop (count + 1)
      proceed disk (if rest = [] then .syncing file else .writing file rest)
    else proceed s.disk (.cleanupClose file)
  | .syncing file =>
    if ok then proceed (s.disk.sync file) (.closing file) else proceed s.disk (.cleanupClose file)
  | .closing file =>
    if ok then proceed s.disk (.renamingTemp file) else proceed s.disk (.cleanupClose file)
  | .renamingTemp _ =>
    if ok then
      { proceed (s.disk.rename save.tempPath save.filePath) (.finished true) with
        log := s.log ++ [(save.filePath, save.text)] }
    else proceed s.disk .cleanupUnlink
  | .cleanupClose _ => proceed s.disk .cleanupUnlink
  | .cleanupUnlink =>
    proceed (if ok then s.disk.unlink save.tempPath else s.disk) (.finished false)
  | .finished _ => s

/-- What a load makes of the whole content of a file. -/
def parseContent (content : List Char) : ConfigFileResult :=
  match format.parse content with
  | some data => .ok data
  | none => .parseError

/-- The next call of a load. -/
def nextLoad (disk : Disk FilePath Char) (load : Load) (ok : Bool) (count : ℕ) : LoadPhase :=
  match load.phase with
  | .opening =>
    if ok then
      match disk.names load.filePath with
      | some file => .reading file []
      | none => .finished .notFound
    else .finished .readError
  | .reading file content =>
    if ok then
      let rest := ((disk.files[file]?.map File.seen).getD []).drop content.length
      if rest = [] then .finished (parseContent format content)
      else .reading file (content ++ rest.take (count + 1))
    else .finished .readError
  | .finished result => .finished result

def step (s : ConfigFiles) : ConfigFilesEvent → ConfigFiles
  | .save filePath unique data =>
    { s with
      saves := s.saves ++ [⟨filePath, tempPath filePath unique, format.print data, .opening⟩]
      made := s.made ++ [tempPath filePath unique] }
  | .load filePath => { s with loads := s.loads ++ [⟨filePath, .opening⟩] }
  | .saveStep k ok count =>
    match s.saves[k]? with
    | some save => s.stepSave k save ok count
    | none => s
  | .loadStep k ok count =>
    match s.loads[k]? with
    | some load =>
      { s with loads := s.loads.set k { load with phase := nextLoad format s.disk load ok count } }
    | none => s
  | .writeBack file text => { s with disk := s.disk.writeBack file text }
  | .keepName path => { s with disk := s.disk.keepName path }
  | .crash => { s with disk := s.disk.crash, saves := [], loads := [] }

end ConfigFiles

/-! ## Saves -/

theorem hidden_tempPath (filePath : FilePath) (unique : String) : Hidden (tempPath filePath unique) := by
  rw [Hidden, tempPath]
  simp only [String.toList_append]
  rfl

namespace Save

/-- The file that a save writes. -/
def file? (save : Save) : Option ℕ :=
  match save.phase with
  | .writing file _ => some file
  | .syncing file => some file
  | .closing file => some file
  | .renamingTemp file => some file
  | _ => none

/-- **Where a save stands, on the disk**: under the temporary name is what it has written so far,
the whole text once that is synced. -/
def Progress (disk : Disk FilePath Char) (save : Save) : Prop :=
  match save.phase with
  | .opening => disk.names save.tempPath = none
  | .writing file rest => disk.names save.tempPath = some file ∧
      ∃ written, disk.files[file]?.map File.seen = some written ∧ written ++ rest = save.text
  | .syncing file => disk.names save.tempPath = some file ∧
      disk.files[file]?.map File.seen = some save.text
  | .closing file => disk.names save.tempPath = some file ∧ disk.Frozen file save.text
  | .renamingTemp file => disk.names save.tempPath = some file ∧ disk.Frozen file save.text
  | _ => True

/-- What leaves the file of a save and its name alone leaves it where it stands. -/
theorem Progress.of_same {disk disk' : Disk FilePath Char} {save : Save} (h : save.Progress disk)
    (hname : disk'.names save.tempPath = disk.names save.tempPath)
    (hseen : ∀ file, save.file? = some file →
      disk'.files[file]?.map File.seen = disk.files[file]?.map File.seen)
    (hfrozen : ∀ file t, save.file? = some file → disk.Frozen file t → disk'.Frozen file t) :
    save.Progress disk' := by
  rw [Progress.eq_def] at h ⊢
  rw [file?.eq_def] at hseen hfrozen
  cases hphase : save.phase <;> simp only [hphase] at h hseen hfrozen ⊢
  case opening => rwa [hname]
  case writing => rwa [hname, hseen _ rfl]
  case syncing => rwa [hname, hseen _ rfl]
  case closing => exact ⟨hname.trans h.1, hfrozen _ _ rfl h.2⟩
  case renamingTemp => exact ⟨hname.trans h.1, hfrozen _ _ rfl h.2⟩

/-- While a save has a file, its temporary name stands for it. -/
theorem Progress.named {disk : Disk FilePath Char} {save : Save} (h : save.Progress disk) {file : ℕ}
    (hfile : save.file? = some file) :
    disk.names save.tempPath = some file ∧ file < disk.files.length := by
  rw [Progress.eq_def] at h
  rw [file?.eq_def] at hfile
  cases hphase : save.phase <;> simp only [hphase] at h hfile <;> cases hfile
  case writing.refl =>
    obtain ⟨hname, written, hseen, -⟩ := h
    obtain ⟨f, hf, -⟩ := Option.map_eq_some_iff.1 hseen
    exact ⟨hname, (List.getElem?_eq_some_iff.1 hf).1⟩
  case syncing.refl =>
    obtain ⟨f, hf, -⟩ := Option.map_eq_some_iff.1 h.2
    exact ⟨h.1, (List.getElem?_eq_some_iff.1 hf).1⟩
  case closing.refl => exact ⟨h.1, h.2.lt⟩
  case renamingTemp.refl => exact ⟨h.1, h.2.lt⟩

end Save

/-! ## Everything on the disk -/

section Intact

variable (format : JsonFormat) (s₀ s : ConfigFiles)

/-- What a configuration file may hold: what it held at the start, or what has been saved. -/
def Published (path : FilePath) (text : List Char) : Prop :=
  s₀.disk.content path = some text ∨ (path, text) ∈ s.log

/-- What a load has read so far. -/
def Load.Progress (load : Load) : Prop :=
  match load.phase with
  | .opening => True
  | .reading file content => ∃ text, s.disk.Frozen file text ∧ Published s₀ s load.filePath text ∧
      content <+: text
  | .finished .notFound => s₀.disk.content load.filePath = none
  | .finished .readError => True
  | .finished result => ∃ text, Published s₀ s load.filePath text ∧
      result = ConfigFiles.parseContent format text

/-- A file that a configuration file's name stands for, or that is being read. -/
def Shown (file : ℕ) : Prop :=
  s.disk.Exposed Public file ∨ ∃ load ∈ s.loads, ∃ content, load.phase = .reading file content

/-- **What holds between any two calls.** -/
structure Intact : Prop where
  sound : s.disk.Sound Public (Published s₀ s)
  saves : ∀ save ∈ s.saves, save.Progress s.disk ∧ Hidden save.tempPath ∧ save.tempPath ∈ s.made ∧
    Public save.filePath ∧ ∃ data, format.Prints data ∧ save.text = format.print data
  apart : ∀ (j k : ℕ) (a b : Save), s.saves[j]? = some a → s.saves[k]? = some b → j ≠ k →
    a.tempPath ≠ b.tempPath ∧ ∀ file, a.file? = some file → b.file? ≠ some file
  unshown : ∀ save ∈ s.saves, ∀ file, save.file? = some file → ¬ Shown s file
  fresh : ∀ path, Hidden path → path ∉ s.made → s.disk.names path = none ∧
    s.disk.keptNames path = none
  loads : ∀ load ∈ s.loads, Public load.filePath ∧ load.Progress format s₀ s
  there : ∀ path, Public path → s₀.disk.names path ≠ none →
    s.disk.names path ≠ none ∧ s.disk.keptNames path ≠ none
  finished : ∀ save ∈ s.saves, save.phase = .finished true → (save.filePath, save.text) ∈ s.log
  log : ∀ e ∈ s.log, Public e.1 ∧ ∃ data, format.Prints data ∧ e.2 = format.print data

end Intact

/-! ## Steps -/

section Steps

variable {format : JsonFormat} {s₀ s : ConfigFiles} {k : ℕ} {save : Save}

theorem Published.mono {log : List (FilePath × List Char)} (hlog : s.log ⊆ log) {path : FilePath}
    {text : List Char} (h : Published s₀ s path text) (s' : ConfigFiles) (hs' : s'.log = log) :
    Published s₀ s' path text :=
  h.imp id fun hmem => hs' ▸ hlog hmem

/-- A load is where it was on a disk on which what it reads is frozen. -/
theorem Load.Progress.mono {load : Load} {s' : ConfigFiles} (h : load.Progress format s₀ s)
    (hlog : s.log ⊆ s'.log)
    (hfrozen : ∀ file content, load.phase = .reading file content →
      ∀ t, s.disk.Frozen file t → s'.disk.Frozen file t) : load.Progress format s₀ s' := by
  have hmono : ∀ text, Published s₀ s load.filePath text → Published s₀ s' load.filePath text :=
    fun _ htext => htext.mono hlog s' rfl
  rw [Load.Progress.eq_def] at h ⊢
  cases hphase : load.phase with
  | opening => trivial
  | reading file content =>
    simp only [hphase] at h ⊢
    obtain ⟨text, ht, htext, hpre⟩ := h
    exact ⟨text, hfrozen file content hphase text ht, hmono text htext, hpre⟩
  | finished result =>
    cases result <;> simp only [hphase] at h ⊢
    case ok =>
      obtain ⟨text, htext, hresult⟩ := h
      exact ⟨text, hmono text htext, hresult⟩
    case notFound => exact h
    case parseError =>
      obtain ⟨text, htext, hresult⟩ := h
      exact ⟨text, hmono text htext, hresult⟩

/-- **What one call of a save may do**: to the disk it does nothing but to its own file and its own
name, and to the name that it saves under. -/
theorem Intact.proceed (h : Intact format s₀ s) (hk : s.saves[k]? = some save)
    {disk : Disk FilePath Char} {phase : SavePhase} {log : List (FilePath × List Char)}
    (hsound : disk.Sound Public fun path text =>
      s₀.disk.content path = some text ∨ (path, text) ∈ log)
    (hnames : ∀ path, Hidden path → path ≠ save.tempPath → disk.names path = s.disk.names path)
    (hkept : disk.keptNames = s.disk.keptNames)
    (hfiles : ∀ file, save.file? ≠ some file → file < s.disk.files.length →
      disk.files[file]? = s.disk.files[file]?)
    (hprogress : Save.Progress disk { save with phase := phase })
    (hown : ∀ file, Save.file? { save with phase := phase } = some file →
      (save.file? = some file ∨ s.disk.files.length ≤ file) ∧ ¬ disk.Exposed Public file)
    (hexposed : ∀ file, disk.Exposed Public file → s.disk.Exposed Public file ∨ save.file? = some file)
    (hthere : ∀ path, Public path → s.disk.names path ≠ none → disk.names path ≠ none)
    (hlog : s.log ⊆ log) (hfinished : phase = .finished true → (save.filePath, save.text) ∈ log)
    (hnew : ∀ e ∈ log, e ∈ s.log ∨ e = (save.filePath, save.text)) :
    Intact format s₀ { s with
      disk := disk
      saves := s.saves.set k { save with phase := phase }
      log := log } := by
  have hmem : save ∈ s.saves := List.mem_of_getElem? hk
  obtain ⟨-, hhidden, hmade, hpublic, data, hdata, htext⟩ := h.saves save hmem
  -- what another save, or a load, relies on is untouched
  have hother : ∀ (j : ℕ) (other : Save), s.saves[j]? = some other → j ≠ k →
      other.Progress disk ∧ other.tempPath ≠ save.tempPath ∧
        ∀ file, other.file? = some file → save.file? ≠ some file ∧ file < s.disk.files.length := by
    intro j other hj hne
    obtain ⟨hprogress', hhidden', -⟩ := h.saves other (List.mem_of_getElem? hj)
    obtain ⟨htemp, hfile⟩ := h.apart j k other save hj hk hne
    have hsame : ∀ file, other.file? = some file → disk.files[file]? = s.disk.files[file]? :=
      fun file hf => hfiles file (hfile file hf) (hprogress'.named hf).2
    refine ⟨hprogress'.of_same (hnames _ hhidden' htemp) (fun file hf => by rw [hsame file hf])
      (fun file t hf ht => (hsame file hf).trans ht), htemp, fun file hf =>
        ⟨hfile file hf, (hprogress'.named hf).2⟩⟩
  have hfrozen : ∀ file t, Shown s file → s.disk.Frozen file t → disk.Frozen file t :=
    fun file t hshown ht =>
      (hfiles file (fun heq => h.unshown save hmem file heq hshown) ht.lt).trans ht
  refine ⟨hsound, ?saves, ?apart, ?unshown, ?fresh, ?loads, ?there, ?finished, ?log⟩
  case saves =>
    intro other hother'
    obtain ⟨j, hj⟩ := List.mem_iff_getElem?.1 hother'
    rcases getElem?_set_cases hj with ⟨-, rfl⟩ | ⟨hne, hj⟩
    · exact ⟨hprogress, hhidden, hmade, hpublic, data, hdata, htext⟩
    · exact ⟨(hother j other hj hne).1, (h.saves other (List.mem_of_getElem? hj)).2⟩
  case apart =>
    intro i j a b hi hj hne
    rcases getElem?_set_cases hi with ⟨hik, ha⟩ | ⟨hik, hi⟩ <;>
      rcases getElem?_set_cases hj with ⟨hjk, hb⟩ | ⟨hjk, hj⟩
    · exact absurd (hik.trans hjk.symm) hne
    · obtain ⟨-, htemp, hfile⟩ := hother j b hj hjk
      rw [ha]
      refine ⟨htemp.symm, fun file hf hf' => ?_⟩
      rcases (hown file hf).1 with hold | hlarge
      · exact (hfile file hf').1 hold
      · exact absurd (hfile file hf').2 (by omega)
    · obtain ⟨-, htemp, hfile⟩ := hother i a hi hik
      rw [hb]
      refine ⟨htemp, fun file hf hf' => ?_⟩
      rcases (hown file hf').1 with hold | hlarge
      · exact (hfile file hf).1 hold
      · exact absurd (hfile file hf).2 (by omega)
    · exact h.apart i j a b hi hj hne
  case unshown =>
    rintro other hother' file hf (hshown | ⟨load, hload, content, hreading⟩)
    · obtain ⟨j, hj⟩ := List.mem_iff_getElem?.1 hother'
      rcases getElem?_set_cases hj with ⟨-, rfl⟩ | ⟨hne, hj⟩
      · exact (hown file hf).2 hshown
      · rcases hexposed file hshown with hold | hown'
        · exact h.unshown other (List.mem_of_getElem? hj) file hf (Or.inl hold)
        · exact ((hother j other hj hne).2.2 file hf).1 hown'
    · obtain ⟨j, hj⟩ := List.mem_iff_getElem?.1 hother'
      have hread : Shown s file := Or.inr ⟨load, hload, content, hreading⟩
      rcases getElem?_set_cases hj with ⟨-, rfl⟩ | ⟨-, hj⟩
      · rcases (hown file hf).1 with hold | hlarge
        · exact h.unshown save hmem file hold hread
        · have hprogress' := (h.loads load hload).2
          rw [Load.Progress.eq_def] at hprogress'
          simp only [hreading] at hprogress'
          obtain ⟨t, ht, -⟩ := hprogress'
          exact absurd ht.lt (by omega)
      · exact h.unshown other (List.mem_of_getElem? hj) file hf hread
  case fresh =>
    intro path hpath hnot
    have hne : path ≠ save.tempPath := fun heq => hnot (heq ▸ hmade)
    obtain ⟨hname, hkeptName⟩ := h.fresh path hpath hnot
    exact ⟨(hnames path hpath hne).trans hname, (congrFun hkept path).trans hkeptName⟩
  case loads =>
    intro load hload
    obtain ⟨hpublic', hprogress'⟩ := h.loads load hload
    exact ⟨hpublic', hprogress'.mono hlog fun file content hreading t ht =>
      hfrozen file t (Or.inr ⟨load, hload, content, hreading⟩) ht⟩
  case there =>
    intro path hpath hne
    obtain ⟨hname, hkeptName⟩ := h.there path hpath hne
    exact ⟨hthere path hpath hname, fun heq => hkeptName ((congrFun hkept path).symm.trans heq)⟩
  case finished =>
    intro other hother' hphase
    obtain ⟨j, hj⟩ := List.mem_iff_getElem?.1 hother'
    rcases getElem?_set_cases hj with ⟨-, rfl⟩ | ⟨-, hj⟩
    · exact hfinished hphase
    · exact hlog (h.finished other (List.mem_of_getElem? hj) hphase)
  case log =>
    intro e he
    rcases hnew e he with hold | rfl
    · exact h.log e hold
    · exact ⟨hpublic, data, hdata, htext⟩

/-- A file that a name of the class stands for is there. -/
theorem Intact.lt_of_exposed (h : Intact format s₀ s) {file : ℕ}
    (hfile : s.disk.Exposed Public file) : file < s.disk.files.length := by
  obtain ⟨t, ht⟩ := h.sound.frozen hfile
  exact ht.lt

/-- A call that changes nothing on the disk. -/
theorem Intact.proceed_same (h : Intact format s₀ s) (hk : s.saves[k]? = some save)
    {phase : SavePhase} (hprogress : Save.Progress s.disk { save with phase := phase })
    (hown : ∀ file, Save.file? { save with phase := phase } = some file → save.file? = some file)
    (hfinished : phase ≠ .finished true) :
    Intact format s₀ { s with saves := s.saves.set k { save with phase := phase } } :=
  h.proceed hk h.sound (fun _ _ _ => rfl) rfl (fun _ _ _ => rfl) hprogress
    (fun file hf => ⟨Or.inl (hown file hf), fun hexposed =>
      h.unshown save (List.mem_of_getElem? hk) file (hown file hf) (Or.inl hexposed)⟩)
    (fun _ hexposed => Or.inl hexposed) (fun _ _ hne => hne) (List.Subset.refl _)
    (fun heq => absurd heq hfinished) fun _ he => Or.inl he

/-- The temporary file is opened: it is a new one. -/
theorem Intact.openTemp (h : Intact format s₀ s) (hk : s.saves[k]? = some save)
    (hphase : save.phase = .opening) :
    Intact format s₀ { s with
      disk := (s.disk.create save.tempPath).1
      saves := s.saves.set k
        { save with phase := .writing (s.disk.create save.tempPath).2 save.text } } := by
  obtain ⟨hprogress, hhidden, -⟩ := h.saves save (List.mem_of_getElem? hk)
  have htemp : ¬ Public save.tempPath := not_not.2 hhidden
  have hname : s.disk.names save.tempPath = none := by
    rw [Save.Progress.eq_def] at hprogress
    simpa only [hphase] using hprogress
  have hself := Disk.names_create_self (d := s.disk) (p := save.tempPath)
  refine h.proceed hk ?_ (fun path _ hne => Disk.names_create_of_ne hne) Disk.keptNames_create ?_
    ⟨hself, [], ?_, rfl⟩ (fun file hf => ?_) (fun file hexposed => Or.inl (hexposed.of_create htemp))
    (fun path hpath hne => ?_) (List.Subset.refl _) (fun heq => by cases heq) fun _ he => Or.inl he
  · exact h.sound.create htemp fun file hfile => (by simp [hname] at hfile)
  · intro file _ hlt
    rw [Disk.create_of_none hname]
    exact List.getElem?_append_left hlt
  · rw [Disk.create_of_none hname]
    simp
  · rw [Disk.create_of_none hname] at hf
    obtain rfl : s.disk.files.length = file := Option.some.inj hf
    exact ⟨Or.inr le_rfl, fun hexposed =>
      absurd (h.lt_of_exposed (hexposed.of_create htemp)) (lt_irrefl _)⟩
  · have hother : path ≠ save.tempPath := fun heq => htemp (heq ▸ hpath)
    rwa [Disk.names_create_of_ne hother]

/-- Some more of the text is written. -/
theorem Intact.writeTemp (h : Intact format s₀ s) (hk : s.saves[k]? = some save) {file : ℕ}
    {rest : List Char} (hphase : save.phase = .writing file rest) (count : ℕ) :
    Intact format s₀ { s with
      disk := s.disk.write file (rest.take (count + 1))
      saves := s.saves.set k { save with
        phase := if rest.drop (count + 1) = [] then .syncing file
          else .writing file (rest.drop (count + 1)) } } := by
  have hmem := List.mem_of_getElem? hk
  obtain ⟨hprogress, -⟩ := h.saves save hmem
  have hfile : save.file? = some file := by
    rw [Save.file?.eq_def]
    simp only [hphase]
  rw [Save.Progress.eq_def] at hprogress
  simp only [hphase] at hprogress
  obtain ⟨hname, written, hseen, htext⟩ := hprogress
  have hunexposed : ¬ s.disk.Exposed Public file := fun hexposed =>
    h.unshown save hmem file hfile (Or.inl hexposed)
  have hseen' : (s.disk.write file (rest.take (count + 1))).files[file]?.map File.seen =
      some (written ++ rest.take (count + 1)) := by
    obtain ⟨f, hf, rfl⟩ := Option.map_eq_some_iff.1 hseen
    rw [Disk.write, Disk.modifyFile, List.getElem?_modify_eq, hf]
    rfl
  refine h.proceed hk (h.sound.write hunexposed) (fun _ _ _ => rfl) rfl ?_ ?_ (fun file' hf => ?_)
    (fun _ hexposed => Or.inl hexposed) (fun _ _ hne => hne) (List.Subset.refl _)
    (fun heq => ?_) fun _ he => Or.inl he
  · intro file' hne _
    have hother : file ≠ file' := fun heq => hne (heq ▸ hfile)
    exact List.getElem?_modify_ne _ _ hother
  · rw [Save.Progress.eq_def]
    split_ifs with hdrop
    · refine ⟨hname, hseen'.trans ?_⟩
      have htake : rest.take (count + 1) = rest := by
        simpa [hdrop] using List.take_append_drop (count + 1) rest
      rw [htake, htext]
    · exact ⟨hname, _, hseen', by rw [List.append_assoc, List.take_append_drop, htext]⟩
  · obtain rfl : file = file' := by
      rw [Save.file?.eq_def] at hf
      split_ifs at hf <;> exact Option.some.inj hf
    exact ⟨Or.inl hfile, hunexposed⟩
  · split_ifs at heq

/-- The text is synced. -/
theorem Intact.syncTemp (h : Intact format s₀ s) (hk : s.saves[k]? = some save) {file : ℕ}
    (hphase : save.phase = .syncing file) :
    Intact format s₀ { s with
      disk := s.disk.sync file
      saves := s.saves.set k { save with phase := .closing file } } := by
  have hmem := List.mem_of_getElem? hk
  obtain ⟨hprogress, -⟩ := h.saves save hmem
  have hfile : save.file? = some file := by
    rw [Save.file?.eq_def]
    simp only [hphase]
  rw [Save.Progress.eq_def] at hprogress
  simp only [hphase] at hprogress
  obtain ⟨hname, hseen⟩ := hprogress
  obtain ⟨f, hf, hseen⟩ := Option.map_eq_some_iff.1 hseen
  refine h.proceed hk h.sound.sync (fun _ _ _ => rfl) rfl ?_ ⟨hname, ?_⟩ (fun file' hf' => ?_)
    (fun _ hexposed => Or.inl hexposed) (fun _ _ hne => hne) (List.Subset.refl _)
    (fun heq => by cases heq) fun _ he => Or.inl he
  · intro file' hne _
    have hother : file ≠ file' := fun heq => hne (heq ▸ hfile)
    exact List.getElem?_modify_ne _ _ hother
  · rw [Disk.Frozen, Disk.sync, Disk.modifyFile, List.getElem?_modify_eq, hf]
    exact congrArg (fun t => some (File.mk t t)) hseen
  · obtain rfl : file = file' := Option.some.inj hf'
    exact ⟨Or.inl hfile, fun hexposed => h.unshown save hmem file hfile (Or.inl hexposed)⟩

/-- **The temporary file takes the place of the old one.** -/
theorem Intact.renameTemp (h : Intact format s₀ s) (hk : s.saves[k]? = some save) {file : ℕ}
    (hphase : save.phase = .renamingTemp file) :
    Intact format s₀ { s with
      disk := s.disk.rename save.tempPath save.filePath
      saves := s.saves.set k { save with phase := .finished true }
      log := s.log ++ [(save.filePath, save.text)] } := by
  have hmem := List.mem_of_getElem? hk
  obtain ⟨hprogress, hhidden, hmade, hpublic, -⟩ := h.saves save hmem
  have htemp : ¬ Public save.tempPath := not_not.2 hhidden
  have hfile : save.file? = some file := by
    rw [Save.file?.eq_def]
    simp only [hphase]
  rw [Save.Progress.eq_def] at hprogress
  simp only [hphase] at hprogress
  obtain ⟨hname, hfrozen⟩ := hprogress
  have hsubset : s.log ⊆ s.log ++ [(save.filePath, save.text)] := List.subset_append_left _ _
  refine h.proceed hk ?_ (fun path hpath hne => ?_) ?_ ?_ trivial (fun _ hf => by cases hf)
    (fun file' hexposed => ?_) (fun path hpath hne => ?_) hsubset (fun _ => by simp)
    fun e he => ?_
  · refine (h.sound.mono fun path text _ htext => ?_).replace hname hfrozen ?_
    · exact htext.imp id fun hin => hsubset hin
    · exact Or.inr (by simp)
  · have hother : path ≠ save.filePath := fun heq => hpublic (heq ▸ hpath)
    rw [Disk.names_rename hname, if_neg hne, if_neg hother]
  · rw [Disk.rename_eq hname]
  · intro file' _ _
    rw [Disk.rename_eq hname]
  · refine (hexposed.of_rename hname).imp id fun heq => ?_
    rw [heq, hfile]
  · have hother : path ≠ save.tempPath := fun heq => htemp (heq ▸ hpath)
    rw [Disk.names_rename hname, if_neg hother]
    split_ifs
    · simp
    · exact hne
  · simpa using he

/-- A failed save removes its temporary file. -/
theorem Intact.unlinkTemp (h : Intact format s₀ s) (hk : s.saves[k]? = some save) :
    Intact format s₀ { s with
      disk := s.disk.unlink save.tempPath
      saves := s.saves.set k { save with phase := .finished false } } := by
  obtain ⟨-, hhidden, -⟩ := h.saves save (List.mem_of_getElem? hk)
  have htemp : ¬ Public save.tempPath := not_not.2 hhidden
  refine h.proceed hk h.sound.unlink (fun path _ hne => ?_) rfl (fun _ _ _ => rfl) trivial
    (fun _ hf => by cases hf) (fun _ hexposed => Or.inl hexposed.of_unlink)
    (fun path hpath hne => ?_) (List.Subset.refl _) (fun heq => by simp at heq) fun _ he => Or.inl he
  · rw [Disk.names_unlink, if_neg hne]
  · have hother : path ≠ save.tempPath := fun heq => htemp (heq ▸ hpath)
    rwa [Disk.names_unlink, if_neg hother]

theorem Intact.stepSave (h : Intact format s₀ s) (hk : s.saves[k]? = some save) (ok : Bool)
    (count : ℕ) : Intact format s₀ (s.stepSave k save ok count) := by
  have hunshown := h.unshown save (List.mem_of_getElem? hk)
  have hprogress := (h.saves save (List.mem_of_getElem? hk)).1
  rw [ConfigFiles.stepSave.eq_def]
  cases hphase : save.phase with
  | opening =>
    cases ok
    · exact h.proceed_same hk trivial (fun _ hf => by cases hf) (by simp)
    · exact h.openTemp hk hphase
  | writing file rest =>
    cases ok
    · exact h.proceed_same hk trivial (fun _ hf => by cases hf) (by simp)
    · exact h.writeTemp hk hphase count
  | syncing file =>
    cases ok
    · exact h.proceed_same hk trivial (fun _ hf => by cases hf) (by simp)
    · exact h.syncTemp hk hphase
  | closing file =>
    cases ok
    · exact h.proceed_same hk trivial (fun _ hf => by cases hf) (by simp)
    · refine h.proceed_same hk ?_ (fun file' hf => ?_) (by simp)
      · rw [Save.Progress.eq_def] at hprogress ⊢
        simpa only [hphase] using hprogress
      · rw [Save.file?.eq_def] at hf ⊢
        simpa only [hphase] using hf
  | renamingTemp file =>
    cases ok
    · exact h.proceed_same hk trivial (fun _ hf => by cases hf) (by simp)
    · exact h.renameTemp hk hphase
  | cleanupClose file => exact h.proceed_same hk trivial (fun _ hf => by cases hf) (by simp)
  | cleanupUnlink =>
    cases ok
    · exact h.proceed_same hk trivial (fun _ hf => by cases hf) (by simp)
    · exact h.unlinkTemp hk
  | finished ok' => exact h

/-- A save begins, with a temporary name that has not been used. -/
theorem Intact.beginSave (h : Intact format s₀ s) {filePath : FilePath} {unique : String} {data : JsValue}
    (hpublic : Public filePath) (hnew : tempPath filePath unique ∉ s.made) (hdata : format.Prints data) :
    Intact format s₀ (s.step format (.save filePath unique data)) := by
  have hhidden := hidden_tempPath filePath unique
  have hmade : s.made ⊆ s.made ++ [tempPath filePath unique] := List.subset_append_left _ _
  have hname := (h.fresh _ hhidden hnew).1
  refine ⟨h.sound, ?saves, ?apart, ?unshown, ?fresh, h.loads, h.there, ?finished, h.log⟩
  case saves =>
    refine List.forall_mem_append.2 ⟨fun other hother => ?_, List.forall_mem_singleton.2 ?_⟩
    · obtain ⟨hprogress, hhidden', hmade', hrest⟩ := h.saves other hother
      exact ⟨hprogress, hhidden', hmade hmade', hrest⟩
    · exact ⟨hname, hhidden, List.mem_append_right _ (List.mem_singleton_self _), hpublic, data,
        hdata, rfl⟩
  case apart =>
    have hold : ∀ (j : ℕ) (other : Save), s.saves[j]? = some other →
        other.tempPath ≠ tempPath filePath unique := fun j other hj heq =>
      hnew (heq ▸ (h.saves other (List.mem_of_getElem? hj)).2.2.1)
    intro i j a b hi hj hne
    rcases getElem?_append_singleton hi with hi' | ⟨hi', ha⟩ <;>
      rcases getElem?_append_singleton hj with hj' | ⟨hj', hb⟩
    · exact h.apart i j a b hi' hj' hne
    · exact hb ▸ ⟨hold i a hi', fun file _ hf => by cases hf⟩
    · exact ha ▸ ⟨(hold j b hj').symm, fun file hf => by cases hf⟩
    · exact absurd (hi'.trans hj'.symm) hne
  case unshown =>
    refine List.forall_mem_append.2 ⟨h.unshown, List.forall_mem_singleton.2 fun file hf => ?_⟩
    cases hf
  case fresh => exact fun path hpath hnot => h.fresh path hpath fun hin => hnot (hmade hin)
  case finished =>
    refine List.forall_mem_append.2 ⟨h.finished, List.forall_mem_singleton.2 fun hphase => ?_⟩
    cases hphase

/-- The loads change and nothing else does. -/
theorem Intact.of_loads (h : Intact format s₀ s) {loads : List Load}
    (hloads : ∀ load ∈ loads, Public load.filePath ∧ load.Progress format s₀ s)
    (hreading : ∀ load ∈ loads, ∀ file content, load.phase = .reading file content → Shown s file) :
    Intact format s₀ { s with loads := loads } := by
  refine ⟨h.sound, h.saves, h.apart, fun save hsave file hf hshown => ?_, h.fresh, fun load hload => ?_,
    h.there, h.finished, h.log⟩
  · rcases hshown with hexposed | ⟨load, hload, content, hphase⟩
    · exact h.unshown save hsave file hf (Or.inl hexposed)
    · exact h.unshown save hsave file hf (hreading load hload file content hphase)
  · exact ⟨(hloads load hload).1, (hloads load hload).2.mono (List.Subset.refl _) fun _ _ _ _ ht => ht⟩

/-- A load makes its next call. -/
theorem Intact.nextLoad (h : Intact format s₀ s) {load : Load} (hload : load ∈ s.loads) (ok : Bool)
    (count : ℕ) :
    Load.Progress format s₀ s
        { load with phase := ConfigFiles.nextLoad format s.disk load ok count } ∧
      ∀ file content, ConfigFiles.nextLoad format s.disk load ok count = .reading file content →
        Shown s file := by
  obtain ⟨hpublic, hprogress⟩ := h.loads load hload
  rw [ConfigFiles.nextLoad.eq_def]
  cases hphase : load.phase with
  | opening =>
    cases ok
    · exact ⟨trivial, fun _ _ heq => by cases heq⟩
    · cases hname : s.disk.names load.filePath with
      | some file =>
        obtain ⟨text, ht, htext⟩ := h.sound.seen _ file hpublic hname
        refine ⟨⟨text, ht, htext, List.nil_prefix⟩, fun file' content heq => ?_⟩
        obtain rfl := (LoadPhase.reading.inj heq).1
        exact Or.inl ⟨_, hpublic, Or.inl hname⟩
      | none =>
        refine ⟨?_, fun _ _ heq => by cases heq⟩
        show s₀.disk.content load.filePath = none
        have hnone : s₀.disk.names load.filePath = none := by
          by_contra hne
          exact (h.there _ hpublic hne).1 hname
        rw [Disk.content, hnone]
        rfl
  | reading file content =>
    rw [Load.Progress.eq_def] at hprogress
    simp only [hphase] at hprogress
    obtain ⟨text, ht, htext, more, rfl⟩ := hprogress
    cases ok
    · exact ⟨trivial, fun _ _ heq => by cases heq⟩
    · have hrest : ((s.disk.files[file]?.map File.seen).getD []).drop content.length = more := by
        rw [ht]
        simp
      simp only [hrest, if_true]
      split_ifs with hmore
      · subst hmore
        refine ⟨?_, fun _ _ heq => by cases heq⟩
        have hcontent : Published s₀ s load.filePath content := by simpa using htext
        rw [Load.Progress.eq_def, ConfigFiles.parseContent]
        cases hparse : format.parse content with
        | some data => exact ⟨content, hcontent, by rw [ConfigFiles.parseContent, hparse]⟩
        | none => exact ⟨content, hcontent, by rw [ConfigFiles.parseContent, hparse]⟩
      · refine ⟨⟨content ++ more, ht, htext, ?_⟩, fun file' content' heq => ?_⟩
        · exact List.prefix_append_right_inj _ |>.2 (List.take_prefix _ _)
        · obtain rfl := (LoadPhase.reading.inj heq).1
          exact Or.inr ⟨load, hload, content, hphase⟩
  | finished result =>
    refine ⟨?_, fun _ _ heq => by cases heq⟩
    rw [Load.Progress.eq_def] at hprogress ⊢
    simpa only [hphase] using hprogress

theorem Intact.writeBack (h : Intact format s₀ s) (file : ℕ) (text : List Char) :
    Intact format s₀ (s.step format (.writeBack file text)) := by
  have hseen : ∀ f : ℕ, (s.disk.writeBack file text).files[f]?.map File.seen =
      s.disk.files[f]?.map File.seen := by
    intro f
    rw [Disk.writeBack, Disk.modifyFile, List.getElem?_modify]
    cases s.disk.files[f]? with
    | none => simp
    | some g =>
      have hseen : (if g.seen = g.kept then g else { g with kept := text }).seen = g.seen := by
        split_ifs <;> rfl
      split_ifs <;> simp [hseen]
  refine ⟨h.sound.writeBack, fun save hsave => ?_, h.apart, h.unshown, h.fresh, fun load hload => ?_,
    h.there, h.finished, h.log⟩
  · obtain ⟨hprogress, hrest⟩ := h.saves save hsave
    exact ⟨hprogress.of_same rfl (fun f _ => hseen f) fun f t _ ht => ht.writeBack, hrest⟩
  · obtain ⟨hpublic, hprogress⟩ := h.loads load hload
    exact ⟨hpublic, hprogress.mono (List.Subset.refl _) fun f content _ t ht => ht.writeBack⟩

theorem Intact.keepName (h : Intact format s₀ s) (path : FilePath) :
    Intact format s₀ (s.step format (.keepName path)) := by
  refine ⟨h.sound.keepName, fun save hsave => ?_, h.apart, fun save hsave file hf hshown => ?_,
    fun path' hpath hnot => ?_, fun load hload => ?_, fun path' hpath hne => ?_, h.finished, h.log⟩
  · obtain ⟨hprogress, hrest⟩ := h.saves save hsave
    exact ⟨hprogress.of_same rfl (fun _ _ => rfl) fun _ _ _ ht => ht, hrest⟩
  · exact h.unshown save hsave file hf (hshown.imp (fun hexposed => hexposed.of_keepName) id)
  · obtain ⟨hname, hkept⟩ := h.fresh path' hpath hnot
    refine ⟨hname, Disk.keptNames_keepName.trans ?_⟩
    split_ifs with heq
    · exact heq ▸ hname
    · exact hkept
  · obtain ⟨hpublic, hprogress⟩ := h.loads load hload
    exact ⟨hpublic, hprogress.mono (List.Subset.refl _) fun _ _ _ _ ht => ht⟩
  · obtain ⟨hname, hkept⟩ := h.there path' hpath hne
    refine ⟨hname, fun hnone => ?_⟩
    rw [ConfigFiles.step, Disk.keptNames_keepName] at hnone
    split_ifs at hnone with heq
    · exact hname (heq ▸ hnone)
    · exact hkept hnone

theorem Intact.crash (h : Intact format s₀ s) : Intact format s₀ (s.step format .crash) := by
  refine ⟨h.sound.crash, ?_, ?_, ?_, fun path hpath hnot => ?_, ?_, fun path hpath hne => ?_, ?_,
    h.log⟩
  · simp [ConfigFiles.step]
  · simp [ConfigFiles.step]
  · simp [ConfigFiles.step]
  · exact ⟨(h.fresh path hpath hnot).2, (h.fresh path hpath hnot).2⟩
  · simp [ConfigFiles.step]
  · exact ⟨(h.there path hpath hne).2, (h.there path hpath hne).2⟩
  · simp [ConfigFiles.step]

end Steps

/-! ## Whole runs -/

namespace ConfigFiles

/-- Nothing is under way, and the disk is at rest. -/
structure Idle (s : ConfigFiles) : Prop where
  saves : s.saves = []
  loads : s.loads = []
  log : s.log = []
  kept : s.disk.keptNames = s.disk.names
  frozen : ∀ path file, Public path → s.disk.names path = some file → ∃ t, s.disk.Frozen file t
  made : ∀ path, Hidden path → s.disk.names path ≠ none → path ∈ s.made

/-- A save has a temporary name of its own, and nobody saves or loads under a temporary name. -/
def Proper (format : JsonFormat) (s : ConfigFiles) : ConfigFilesEvent → Prop
  | .save filePath unique data => Public filePath ∧ tempPath filePath unique ∉ s.made ∧
      format.Prints data
  | .load filePath => Public filePath
  | _ => True

instance (format : JsonFormat) (s : ConfigFiles) : ∀ e, Decidable (Proper format s e)
  | .save .. => inferInstanceAs (Decidable (_ ∧ _ ∧ _))
  | .load _ => inferInstanceAs (Decidable (Public _))
  | .saveStep .. | .loadStep .. | .writeBack .. | .keepName _ | .crash => isTrue trivial

/-- A configuration file, as its readers see it. -/
def cell (s₀ s : ConfigFiles) (path : FilePath) : AtomicCell (List Char) where
  initial := s₀.disk.content path
  past := (s.log.filter (·.1 = path)).map Prod.snd
  current := s.disk.content path

end ConfigFiles

section Runs

open ConfigFiles

variable {format : JsonFormat} {s₀ s : ConfigFiles}

theorem Intact.of_idle (h : s₀.Idle) : Intact format s₀ s₀ := by
  have hcontent : ∀ path file, Public path → s₀.disk.names path = some file →
      ∃ t, s₀.disk.Frozen file t ∧ Published s₀ s₀ path t := by
    intro path file hpath hname
    obtain ⟨t, ht⟩ := h.frozen path file hpath hname
    exact ⟨t, ht, Or.inl (ht.content hname)⟩
  refine ⟨⟨hcontent, h.kept ▸ hcontent⟩, ?_, ?_, ?_, fun path hpath hnot => ?_, ?_,
    fun path _ hne => ⟨hne, h.kept ▸ hne⟩, ?_, ?_⟩
  · simp [h.saves]
  · simp [h.saves]
  · simp [h.saves]
  · have hnone : s₀.disk.names path = none := by
      by_contra hne
      exact hnot (h.made path hpath hne)
    exact ⟨hnone, h.kept ▸ hnone⟩
  · simp [h.loads]
  · simp [h.saves]
  · simp [h.log]

theorem Intact.step (h : Intact format s₀ s) (e : ConfigFilesEvent) (hproper : s.Proper format e) :
    Intact format s₀ (s.step format e) := by
  cases e with
  | save filePath unique data =>
    obtain ⟨hpublic, hnew, hdata⟩ := hproper
    exact h.beginSave hpublic hnew hdata
  | load filePath =>
    refine h.of_loads (List.forall_mem_append.2 ⟨h.loads, List.forall_mem_singleton.2 ?_⟩)
      (List.forall_mem_append.2 ⟨fun load hload file content hphase => ?_,
        List.forall_mem_singleton.2 fun file content hphase => by cases hphase⟩)
    · exact ⟨hproper, trivial⟩
    · exact Or.inr ⟨load, hload, content, hphase⟩
  | saveStep k ok count =>
    rw [ConfigFiles.step]
    cases hk : s.saves[k]? with
    | none => exact h
    | some save => exact h.stepSave hk ok count
  | loadStep k ok count =>
    rw [ConfigFiles.step]
    cases hk : s.loads[k]? with
    | none => exact h
    | some load =>
      have hmem := List.mem_of_getElem? hk
      obtain ⟨hprogress, hreading⟩ := h.nextLoad hmem ok count
      refine h.of_loads (fun other hother => ?_) fun other hother file content hphase => ?_
      · rcases List.mem_or_eq_of_mem_set hother with hold | rfl
        · exact h.loads other hold
        · exact ⟨(h.loads load hmem).1, hprogress⟩
      · rcases List.mem_or_eq_of_mem_set hother with hold | rfl
        · exact Or.inr ⟨other, hold, content, hphase⟩
        · exact hreading file content hphase
  | writeBack file text => exact h.writeBack file text
  | keepName path => exact h.keepName path
  | crash => exact h.crash

/-- Where neither the file of a public name nor its content changes. -/
theorem cell_eq {path : FilePath} {s' : ConfigFiles} (hlog : s'.log = s.log)
    (hcontent : s'.disk.content path = s.disk.content path) :
    cell s₀ s' path = cell s₀ s path := by
  rw [cell, cell, hlog, hcontent]

/-- What an exposed file holds stays there, when it stays frozen. -/
theorem Intact.content_eq (h : Intact format s₀ s) {path : FilePath} (hpath : Public path)
    {disk : Disk FilePath Char} (hname : disk.names path = s.disk.names path)
    (hfrozen : ∀ file t, s.disk.Exposed Public file → s.disk.Frozen file t → disk.Frozen file t) :
    disk.content path = s.disk.content path := by
  cases hfile : s.disk.names path with
  | none => rw [Disk.content, Disk.content, hname, hfile]; rfl
  | some file =>
    obtain ⟨t, ht, -⟩ := h.sound.seen path file hpath hfile
    rw [ht.content hfile]
    exact (hfrozen file t ⟨path, hpath, Or.inl hfile⟩ ht).content (hname.trans hfile)

theorem held_iff {path : FilePath} {v : Option (List Char)} :
    (cell s₀ s path).Held v ↔ v = s₀.disk.content path ∨
      ∃ text, (path, text) ∈ s.log ∧ v = some text := by
  refine or_congr Iff.rfl (exists_congr fun text => and_congr ?_ Iff.rfl)
  simp [cell]

/-- The content of a public name is one that the cell has had. -/
theorem Intact.held (h : Intact format s₀ s) {path : FilePath} (hpath : Public path) :
    (cell s₀ s path).Held (s.disk.content path) := by
  rw [held_iff]
  cases hcontent : s.disk.content path with
  | none =>
    left
    cases hname : s₀.disk.names path with
    | none => rw [Disk.content, hname]; rfl
    | some file =>
      -- a name that was there stands for a frozen file
      have hne := (h.there path hpath (by rw [hname]; simp)).1
      obtain ⟨file', hname'⟩ := Option.ne_none_iff_exists'.1 hne
      obtain ⟨t, ht, -⟩ := h.sound.seen path file' hpath hname'
      rw [ht.content hname'] at hcontent
      cases hcontent
  | some text =>
    rcases h.sound.content hpath hcontent with hinitial | hlog
    · exact Or.inl hinitial.symm
    · exact Or.inr ⟨text, hlog, rfl⟩

/-- A call of a save leaves the files that are shown as they are. -/
theorem Intact.frozen_stepSave (h : Intact format s₀ s) {k : ℕ} {save : Save}
    (hk : s.saves[k]? = some save) (ok : Bool) (count : ℕ) {file : ℕ} {t : List Char}
    (hshown : Shown s file) (ht : s.disk.Frozen file t) :
    (s.stepSave k save ok count).disk.Frozen file t := by
  have hprogress := (h.saves save (List.mem_of_getElem? hk)).1
  have hunshown := h.unshown save (List.mem_of_getElem? hk)
  rw [Save.Progress.eq_def] at hprogress
  rw [Save.file?.eq_def] at hunshown
  rw [ConfigFiles.stepSave.eq_def]
  cases hphase : save.phase with
  | opening =>
    simp only [hphase] at hprogress
    cases ok
    · exact ht
    · exact ht.create fun heq => by simp [hprogress] at heq
  | writing file' rest =>
    simp only [hphase] at hunshown
    cases ok
    · exact ht
    · exact ht.write fun heq => hunshown file' rfl (heq ▸ hshown)
  | syncing file' =>
    cases ok
    · exact ht
    · exact ht.sync
  | closing file' => cases ok <;> exact ht
  | renamingTemp file' =>
    simp only [hphase] at hprogress
    cases ok
    · exact ht
    · show (s.disk.rename save.tempPath save.filePath).Frozen file t
      rw [Disk.rename_eq hprogress.1]
      exact ht
  | cleanupClose file' => exact ht
  | cleanupUnlink => cases ok <;> exact ht
  | finished ok' => exact ht

/-- **A call of a save**, as the readers of a configuration file see it. -/
theorem Intact.cell_stepSave (h : Intact format s₀ s) {k : ℕ} {save : Save}
    (hk : s.saves[k]? = some save) (ok : Bool) (count : ℕ) {path : FilePath} (hpath : Public path) :
    AtomicCell.Step (cell s₀ s path) (cell s₀ (s.stepSave k save ok count) path) := by
  obtain ⟨hprogress, hhidden, -⟩ := h.saves save (List.mem_of_getElem? hk)
  have hne : path ≠ save.tempPath := fun heq => hpath (heq ▸ hhidden)
  have hunexposed : ∀ file, save.file? = some file → ¬ s.disk.Exposed Public file :=
    fun file hf hexposed => h.unshown save (List.mem_of_getElem? hk) file hf (Or.inl hexposed)
  have hsame : ∀ (disk : Disk FilePath Char) (phase : SavePhase),
      disk.content path = s.disk.content path →
      AtomicCell.Step (cell s₀ s path) (cell s₀ { s with
        disk := disk
        saves := s.saves.set k { save with phase := phase } } path) := by
    intro disk phase hcontent
    have hcell : cell s₀ { s with
        disk := disk
        saves := s.saves.set k { save with phase := phase } } path = cell s₀ s path :=
      cell_eq rfl hcontent
    exact hcell ▸ .idle _
  rw [Save.Progress.eq_def] at hprogress
  rw [Save.file?.eq_def] at hunexposed
  rw [ConfigFiles.stepSave.eq_def]
  cases hphase : save.phase with
  | opening =>
    simp only [hphase] at hprogress
    cases ok
    · exact hsame _ _ rfl
    · refine hsame _ _ (h.content_eq hpath (Disk.names_create_of_ne hne) fun file t _ ht => ?_)
      exact ht.create fun heq => by simp [hprogress] at heq
  | writing file rest =>
    simp only [hphase] at hunexposed
    cases ok
    · exact hsame _ _ rfl
    · refine hsame _ _ (h.content_eq hpath rfl fun file' t hexposed ht => ht.write fun heq => ?_)
      exact hunexposed file rfl (heq ▸ hexposed)
  | syncing file =>
    cases ok
    · exact hsame _ _ rfl
    · exact hsame _ _ (h.content_eq hpath rfl fun file' t _ ht => ht.sync)
  | closing file => cases ok <;> exact hsame _ _ rfl
  | renamingTemp file =>
    simp only [hphase] at hprogress
    obtain ⟨hname, hfrozen⟩ := hprogress
    cases ok
    · exact hsame _ _ rfl
    · by_cases hpathEq : path = save.filePath
      · -- the cell takes the text of the save
        have hcontent : (s.disk.rename save.tempPath save.filePath).content path = some save.text := by
          rw [Disk.content, Disk.names_rename hname, if_neg hne, if_pos hpathEq, Disk.rename_eq hname,
            Option.bind_some, hfrozen]
          rfl
        have hcell : cell s₀ { s with
            disk := s.disk.rename save.tempPath save.filePath
            saves := s.saves.set k { save with phase := .finished true }
            log := s.log ++ [(save.filePath, save.text)] } path =
            { cell s₀ s path with
              past := (cell s₀ s path).past ++ [save.text]
              current := some save.text } := by
          rw [cell, hcontent]
          simp [cell, hpathEq]
        exact hcell ▸ .write _ save.text
      · have hcontent : (s.disk.rename save.tempPath save.filePath).content path =
            s.disk.content path := by
          rw [Disk.content, Disk.names_rename hname, if_neg hne, if_neg hpathEq, Disk.rename_eq hname]
          rfl
        have hcell : cell s₀ { s with
            disk := s.disk.rename save.tempPath save.filePath
            saves := s.saves.set k { save with phase := .finished true }
            log := s.log ++ [(save.filePath, save.text)] } path = cell s₀ s path := by
          simp [cell, hcontent, Ne.symm hpathEq]
        exact hcell ▸ .idle _
  | cleanupClose file => exact hsame _ _ rfl
  | cleanupUnlink =>
    cases ok
    · exact hsame _ _ rfl
    · refine hsame _ _ ?_
      show (s.disk.unlink save.tempPath).content path = _
      rw [Disk.content, Disk.names_unlink, if_neg hne]
      rfl
  | finished ok' => exact .idle _

theorem Intact.cell_step (h : Intact format s₀ s) (e : ConfigFilesEvent) {path : FilePath}
    (hpath : Public path) :
    AtomicCell.Step (cell s₀ s path) (cell s₀ (s.step format e) path) := by
  cases e with
  | save filePath unique data => exact .idle _
  | load filePath => exact .idle _
  | saveStep k ok count =>
    rw [ConfigFiles.step]
    cases hk : s.saves[k]? with
    | none => exact .idle _
    | some save => exact h.cell_stepSave hk ok count hpath
  | loadStep k ok count =>
    rw [ConfigFiles.step]
    cases s.loads[k]? <;> exact .idle _
  | writeBack file text =>
    have hcell : cell s₀ (s.step format (.writeBack file text)) path = cell s₀ s path :=
      cell_eq rfl (h.content_eq hpath rfl fun _ _ _ ht => ht.writeBack)
    exact hcell ▸ .idle _
  | keepName path' => exact .idle _
  | crash =>
    have hheld : (cell s₀ s path).Held (s.disk.crash.content path) :=
      held_iff.2 (held_iff.1 (h.crash.held hpath))
    exact .back _ hheld

theorem Intact.of_run (h : Intact format s₀ s) {es : List ConfigFilesEvent}
    (hproper : Along (ConfigFiles.step format) (Proper format) s es) :
    Intact format s₀ (run (ConfigFiles.step format) s es) :=
  Along.invariant (I := Intact format s₀) (fun _ e hs he => hs.step e he) h hproper

theorem Intact.cell_run (h : Intact format s₀ s) {es : List ConfigFilesEvent}
    (hproper : Along (ConfigFiles.step format) (Proper format) s es) {path : FilePath} (hpath : Public path) :
    Relation.ReflTransGen AtomicCell.Step (cell s₀ s path)
      (cell s₀ (run (ConfigFiles.step format) s es) path) := by
  induction es generalizing s with
  | nil => exact .refl
  | cons e es ih => exact .head (h.cell_step e hpath) (ih (h.step e hproper.1) hproper.2)

/-- What has been saved can be loaded. -/
theorem Intact.parse_log (h : Intact format s₀ s) {path : FilePath} {text : List Char}
    (hmem : (path, text) ∈ s.log) : ∃ data : JsValue, parseContent format text = .ok data.stringify := by
  obtain ⟨-, data, hdata, htext⟩ := h.log _ hmem
  refine ⟨data, ?_⟩
  obtain rfl : text = format.print data := htext
  rw [parseContent, hdata.2]

/-- **Configuration files are atomic.** However the calls of the saves and loads under way fall,
fail and are cut short by crashes: a reader sees a configuration file as a cell that whole texts are
written to, or that a crash takes back to a text it has had. What a load returns is one of these
texts; it fails to parse only where the text from before the first save does. -/
theorem configFiles_atomic (hidle : s₀.Idle) {es : List ConfigFilesEvent}
    (hproper : Along (ConfigFiles.step format) (Proper format) s₀ es) {path : FilePath} (hpath : Public path) :
    let s := run (ConfigFiles.step format) s₀ es
    Relation.ReflTransGen AtomicCell.Step (cell s₀ s₀ path) (cell s₀ s path) ∧
      (cell s₀ s path).Held (s.disk.content path) ∧
      (∀ save ∈ s.saves, save.phase = .finished true → save.filePath = path →
        save.text ∈ (cell s₀ s path).past) ∧
      ∀ load ∈ s.loads, load.filePath = path → ∀ result, load.phase = .finished result →
        match result with
        | .notFound => s₀.disk.content path = none
        | .readError => True
        | .parseError => ∃ text, s₀.disk.content path = some text ∧ format.parse text = none
        | .ok data => ∃ text, (cell s₀ s path).Held (some text) ∧ format.parse text = some data := by
  intro s
  have h : Intact format s₀ s := (Intact.of_idle hidle).of_run hproper
  refine ⟨(Intact.of_idle hidle).cell_run hproper hpath, h.held hpath, ?_, ?_⟩
  · rintro save hsave hphase rfl
    have hlog := h.finished save hsave hphase
    simpa [cell] using hlog
  · rintro load hload rfl result hphase
    obtain ⟨-, hprogress⟩ := h.loads load hload
    rw [Load.Progress.eq_def] at hprogress
    cases result with
    | notFound => simpa only [hphase] using hprogress
    | readError => trivial
    | parseError =>
      simp only [hphase] at hprogress
      obtain ⟨text, htext, hresult⟩ := hprogress
      rcases htext with hinitial | hlog
      · refine ⟨text, hinitial, ?_⟩
        rw [parseContent] at hresult
        cases hparse : format.parse text with
        | none => rfl
        | some data => rw [hparse] at hresult; cases hresult
      · obtain ⟨data, hparse⟩ := h.parse_log hlog
        rw [hparse] at hresult
        cases hresult
    | ok data =>
      simp only [hphase] at hprogress
      obtain ⟨text, htext, hresult⟩ := hprogress
      refine ⟨text, held_iff.2 (htext.imp Eq.symm fun hlog => ⟨text, hlog, rfl⟩), ?_⟩
      rw [parseContent] at hresult
      cases hparse : format.parse text with
      | none => rw [hparse] at hresult; cases hresult
      | some data' => rw [hparse] at hresult; cases hresult; rfl

/-! ### The moment of a load -/

/-- What a load makes of the content of a file. -/
def loadResult (format : JsonFormat) : Option (List Char) → ConfigFileResult
  | some text => parseContent format text
  | none => .notFound

/-- A file that is shown stays as it is. -/
theorem Intact.frozen_step (h : Intact format s₀ s) (e : ConfigFilesEvent) {file : ℕ} {t : List Char}
    (hshown : Shown s file) (ht : s.disk.Frozen file t) : (s.step format e).disk.Frozen file t := by
  cases e with
  | save filePath unique data => exact ht
  | load filePath => exact ht
  | saveStep k ok count =>
    rw [ConfigFiles.step]
    cases hk : s.saves[k]? with
    | none => exact ht
    | some save => exact h.frozen_stepSave hk ok count hshown ht
  | loadStep k ok count =>
    rw [ConfigFiles.step]
    cases s.loads[k]? <;> exact ht
  | writeBack file' text => exact ht.writeBack
  | keepName path => exact ht
  | crash => exact ht.crash

/-- A load makes a call of its own, or stays where it is. -/
theorem loads_step {k : ℕ} {load : Load} (hk : s.loads[k]? = some load) {e : ConfigFilesEvent}
    (he : e ≠ .crash) : (s.step format e).loads[k]? = some load ∨ ∃ ok count,
      (s.step format e).loads[k]? =
        some { load with phase := ConfigFiles.nextLoad format s.disk load ok count } ∧
      (s.step format e).disk = s.disk := by
  cases e with
  | save filePath unique data => exact Or.inl hk
  | load filePath =>
    exact Or.inl ((List.getElem?_append_left (List.getElem?_eq_some_iff.1 hk).1).trans hk)
  | saveStep j ok count =>
    left
    rw [ConfigFiles.step]
    cases s.saves[j]? with
    | none => exact hk
    | some save =>
      show (s.stepSave j save ok count).loads[k]? = some load
      rw [ConfigFiles.stepSave.eq_def]
      cases save.phase <;> cases ok <;> exact hk
  | loadStep j ok count =>
    rw [ConfigFiles.step]
    cases hj : s.loads[j]? with
    | none => exact Or.inl hk
    | some other =>
      by_cases hjk : j = k
      · subst hjk
        obtain rfl : other = load := Option.some.inj (hj.symm.trans hk)
        refine Or.inr ⟨ok, count, ?_, rfl⟩
        exact List.getElem?_set_self (List.getElem?_eq_some_iff.1 hk).1
      · exact Or.inl ((List.getElem?_set_ne hjk).trans hk)
  | writeBack file text => exact Or.inl hk
  | keepName path => exact Or.inl hk
  | crash => exact absurd rfl he

/-- A load that has finished keeps its result. -/
theorem finished_run {k : ℕ} {load load' : Load} {result result' : ConfigFileResult}
    (hk : s.loads[k]? = some load) (hphase : load.phase = .finished result)
    {es : List ConfigFilesEvent} (hcrash : ∀ e ∈ es, e ≠ .crash)
    (hk' : (run (ConfigFiles.step format) s es).loads[k]? = some load')
    (hphase' : load'.phase = .finished result') : result' = result := by
  induction es generalizing s with
  | nil =>
    obtain rfl : load = load' := Option.some.inj (hk.symm.trans hk')
    exact LoadPhase.finished.inj (hphase'.symm.trans hphase)
  | cons e es ih =>
    obtain ⟨he, hrest⟩ := List.forall_mem_cons.1 hcrash
    rcases loads_step hk he with hsame | ⟨ok, count, hnext, -⟩
    · exact ih hsame hrest hk'
    · have hstill : ConfigFiles.nextLoad format s.disk load ok count = load.phase := by
        rw [ConfigFiles.nextLoad, hphase]
      rw [hstill] at hnext
      exact ih hnext hrest hk'

/-- **A load that has opened a file** returns what is in it, whatever is saved meanwhile. -/
theorem Intact.reading_run (h : Intact format s₀ s) {k file : ℕ} {load load' : Load}
    {content text : List Char} {result : ConfigFileResult} (hk : s.loads[k]? = some load)
    (hphase : load.phase = .reading file content) (ht : s.disk.Frozen file text)
    (hpre : content <+: text) {es : List ConfigFilesEvent}
    (hproper : Along (ConfigFiles.step format) (Proper format) s es) (hcrash : ∀ e ∈ es, e ≠ .crash)
    (hk' : (run (ConfigFiles.step format) s es).loads[k]? = some load')
    (hphase' : load'.phase = .finished result) :
    result = .readError ∨ result = parseContent format text := by
  induction es generalizing s load content with
  | nil =>
    obtain rfl : load = load' := Option.some.inj (hk.symm.trans hk')
    rw [hphase] at hphase'
    cases hphase'
  | cons e es ih =>
    obtain ⟨he, hrest⟩ := List.forall_mem_cons.1 hcrash
    have hshown : Shown s file := Or.inr ⟨load, List.mem_of_getElem? hk, content, hphase⟩
    have ht' := h.frozen_step e hshown ht
    have hstep := h.step e hproper.1
    rcases loads_step hk he with hsame | ⟨ok, count, hnext, -⟩
    · exact ih hstep hsame hphase ht' hpre hproper.2 hrest hk'
    · -- the next call fails, finds the end of the file, or reads on
      have hfinish : ∀ r, ConfigFiles.nextLoad format s.disk load ok count = .finished r →
          result = r := fun r hr => finished_run hnext hr hrest hk' hphase'
      rw [ConfigFiles.nextLoad.eq_def, hphase] at hfinish hnext
      obtain ⟨more, rfl⟩ := hpre
      have hmore : ((s.disk.files[file]?.map File.seen).getD []).drop content.length = more := by
        rw [ht]
        simp
      cases ok
      · exact Or.inl (hfinish _ rfl)
      · simp only [hmore, if_true] at hfinish hnext
        by_cases hend : more = []
        · refine Or.inr (hfinish _ ?_)
          rw [if_pos hend, hend, List.append_nil]
        · rw [if_neg hend] at hnext
          refine ih hstep hnext rfl ht' ?_ hproper.2 hrest hk'
          exact (List.prefix_append_right_inj _).2 (List.take_prefix _ _)

/-- **A load happens at one moment**: it returns what the file held between two of the steps that
were taken while it was under way. -/
theorem Intact.load_run (h : Intact format s₀ s) {k : ℕ} {load load' : Load}
    {result : ConfigFileResult} (hk : s.loads[k]? = some load) (hphase : load.phase = .opening)
    {es : List ConfigFilesEvent} (hproper : Along (ConfigFiles.step format) (Proper format) s es)
    (hcrash : ∀ e ∈ es, e ≠ .crash)
    (hk' : (run (ConfigFiles.step format) s es).loads[k]? = some load')
    (hphase' : load'.phase = .finished result) :
    result = .readError ∨ ∃ before after, es = before ++ after ∧
      result = loadResult format
        ((run (ConfigFiles.step format) s before).disk.content load.filePath) := by
  induction es generalizing s with
  | nil =>
    obtain rfl : load = load' := Option.some.inj (hk.symm.trans hk')
    rw [hphase] at hphase'
    cases hphase'
  | cons e es ih =>
    obtain ⟨he, hrest⟩ := List.forall_mem_cons.1 hcrash
    have hstep := h.step e hproper.1
    rcases loads_step hk he with hsame | ⟨ok, count, hnext, hdisk⟩
    · refine (ih hstep hsame hproper.2 hrest hk').imp id ?_
      rintro ⟨before, after, rfl, hresult⟩
      exact ⟨e :: before, after, rfl, hresult⟩
    · have hfinish : ∀ r, ConfigFiles.nextLoad format s.disk load ok count = .finished r →
          result = r := fun r hr => finished_run hnext hr hrest hk' hphase'
      rw [ConfigFiles.nextLoad.eq_def, hphase] at hfinish hnext
      cases ok
      · exact Or.inl (hfinish _ rfl)
      · have hpublic := (h.loads load (List.mem_of_getElem? hk)).1
        cases hname : s.disk.names load.filePath with
        | none =>
          refine Or.inr ⟨[], e :: es, rfl, hfinish _ ?_⟩
          simp only [hname, if_true, run_nil, Disk.content, Option.bind_none]
          rfl
        | some file =>
          obtain ⟨text, ht, -⟩ := h.sound.seen _ file hpublic hname
          simp only [hname, if_true] at hnext
          have hfrozen : (s.step format e).disk.Frozen file text := hdisk ▸ ht
          refine (hstep.reading_run hnext rfl hfrozen List.nil_prefix hproper.2 hrest hk'
            hphase').imp id fun hresult => ⟨[], e :: es, rfl, ?_⟩
          rw [run_nil, ht.content hname]
          exact hresult

/-- **Loads are linearizable.** Among any saves, and whatever calls fail, a load that finishes
before the machine crashes has failed to read, or has found the whole content that the file had at
one moment after the load began. -/
theorem configFiles_linearizable (hidle : s₀.Idle) {before es : List ConfigFilesEvent} {path : FilePath}
    (hproper : Along (ConfigFiles.step format) (Proper format) s₀ (before ++ .load path :: es))
    (hcrash : ∀ e ∈ es, e ≠ .crash) {load : Load} {result : ConfigFileResult}
    (hload : (run (ConfigFiles.step format) s₀ (before ++ .load path :: es)).loads[
      (run (ConfigFiles.step format) s₀ before).loads.length]? = some load)
    (hphase : load.phase = .finished result) :
    result = .readError ∨ ∃ during after, es = during ++ after ∧
      result = loadResult format
        ((run (ConfigFiles.step format) s₀ (before ++ .load path :: during)).disk.content path) := by
  obtain ⟨hbefore, hopen, hproper⟩ := along_append.1 hproper
  have h := (Intact.of_idle hidle).of_run hbefore
  have hk : ((run (ConfigFiles.step format) s₀ before).step format (.load path)).loads[
      (run (ConfigFiles.step format) s₀ before).loads.length]? = some ⟨path, .opening⟩ :=
    List.getElem?_concat_length ..
  rw [run_append, run_cons] at hload
  refine ((h.step _ hopen).load_run hk rfl hproper hcrash hload hphase).imp id ?_
  rintro ⟨during, after, rfl, hresult⟩
  exact ⟨during, after, rfl, by rw [run_append, run_cons]; exact hresult⟩

/-- JSON, as far as `true`, `false` and `null` go. -/
def keywordFormat : JsonFormat where
  print
    | .bool true => "true".toList
    | .bool false => "false".toList
    | _ => "null".toList
  parse text :=
    if text = "true".toList then some (.bool true)
    else if text = "false".toList then some (.bool false)
    else if text = "null".toList then some .null
    else none

def noFiles : ConfigFiles := ⟨⟨[], fun _ => none, fun _ => none⟩, [], [], [], []⟩

/-- A file is saved twice; the machine crashes while the second text is being written. -/
def savedTwice : List ConfigFilesEvent :=
  [.save ⟨"/edge", "timer.json"⟩ "1.a" (.bool true), .saveStep 0 true 0, .saveStep 0 true 1,
    .saveStep 0 true 1, .saveStep 0 true 0, .saveStep 0 true 0, .saveStep 0 true 0,
    .keepName ⟨"/edge", "timer.json"⟩, .save ⟨"/edge", "timer.json"⟩ "1.b" (.bool false),
    .saveStep 1 true 0, .saveStep 1 true 2, .crash, .load ⟨"/edge", "timer.json"⟩, .loadStep 0 true 0,
    .loadStep 0 true 9, .loadStep 0 true 0]

theorem configFiles_atomic_timer :
    let s := run (step keywordFormat) noFiles savedTwice
    (cell noFiles s ⟨"/edge", "timer.json"⟩).Held (s.disk.content ⟨"/edge", "timer.json"⟩) ∧
      s.disk.content ⟨"/edge", "timer.json"⟩ = some "true".toList := by
  have hidle : noFiles.Idle := by constructor <;> simp [noFiles]
  have hproper : Along (step keywordFormat) (Proper keywordFormat) noFiles savedTwice := by decide
  exact ⟨(configFiles_atomic hidle hproper (by decide)).2.1, by decide⟩

/-- The load after the crash finds the text of the first save. -/
theorem configFiles_linearizable_timer : ∃ during after, savedTwice.drop 13 = during ++ after ∧
    ConfigFileResult.ok (.bool true) = loadResult keywordFormat
      ((run (step keywordFormat) noFiles (savedTwice.take 12 ++
        .load ⟨"/edge", "timer.json"⟩ :: during)).disk.content ⟨"/edge", "timer.json"⟩) := by
  have hidle : noFiles.Idle := by constructor <;> simp [noFiles]
  have hproper : Along (step keywordFormat) (Proper keywordFormat) noFiles
      (savedTwice.take 12 ++ .load ⟨"/edge", "timer.json"⟩ :: savedTwice.drop 13) := by decide
  have hcrash : ∀ e ∈ savedTwice.drop 13, e ≠ .crash := by simp [savedTwice]
  have hload : (run (step keywordFormat) noFiles savedTwice).loads[0]? =
      some ⟨⟨"/edge", "timer.json"⟩, .finished (.ok (.bool true))⟩ := rfl
  exact (configFiles_linearizable hidle hproper hcrash hload rfl).resolve_left (by simp)

end Runs

end EdgeLink
