import AtsigCommon.Coroutine.Pool
import AtsigCommon.Python.Values

/-!
# Temporary files

`save_temp` makes a file with `mkstemp` and writes it in threads, `temp_file` gives a file to a
block, and both delete it when something goes wrong; what `save_temp` returns is deleted by the
caller with `delete_temp`.  Any number of them run at a time on one loop.

A call that is cancelled while its file is opened does not stop the thread that opens it.  The
thread may open the file after the call has deleted it, and opening for writing makes it again.

* `saveTemp`, `tempFile`, `deleteTemp` — the functions.
* `tempPool` — calls, blocks, deletions and those threads, in any interleaving, with any failures
  and cancellations.
* `temp_files_kept` — no call touches a file of another or one that was there before; what
  `save_temp` returns holds the content until it is deleted; and nothing else is left, except what
  such a thread makes and what a failing `os.close` or `os.remove` leaves.
* `temp_file_left` — a file that is left.
-/

namespace Atsig

open Coroutine Python

/-! ## The disk -/

/-- What each path holds. -/
abbrev Disk : Type := String → Option (List UInt8)

namespace Disk

/-- Opening for writing makes the file, or empties it. -/
def create (disk : Disk) (path : String) : Disk := Function.update disk path (some [])

/-- `os.remove` of a file that is there. -/
def erase (disk : Disk) (path : String) : Disk := Function.update disk path none

/-- What `delete_temp` leaves when nothing is raised. -/
def remove (disk : Disk) (path : String) : Disk :=
  if path ≠ "" ∧ (disk path).isSome = true then disk.erase path else disk

/-- Nothing has changed at other paths. -/
def OnlyAt (path : String) (disk disk' : Disk) : Prop :=
  ∀ other, other ≠ path → disk' other = disk other

variable {disk : Disk} {path : String}

lemma onlyAt_self : OnlyAt path disk disk := fun _ _ => rfl

lemma create_onlyAt : OnlyAt path disk (disk.create path) :=
  fun _ h => Function.update_of_ne h ..

lemma remove_onlyAt : OnlyAt path disk (disk.remove path) := by
  intro other h
  rw [remove]
  split
  · exact Function.update_of_ne h ..
  · rfl

lemma remove_self (hpath : path ≠ "") : disk.remove path path = none := by
  rw [remove]
  split
  · exact Function.update_self ..
  · next h =>
      cases hdisk : disk path with
      | none => rfl
      | some content => exact absurd ⟨hpath, by rw [hdisk]; rfl⟩ h

end Disk

/-! ## The functions -/

/-- What is awaited: a new file, the threads that open, write and close one, and the block of
`temp_file`, which works on its file. -/
inductive FileCommand
  | mkstemp (suffix : String)
  | openFile (path : String)
  | write (path : String) (content : List UInt8)
  | closeFile (path : String)
  | block (path : String)

@[reducible] def FileCommand.Answer : FileCommand → Type
  | .mkstemp _ => String
  | .openFile _ | .write _ _ | .closeFile _ | .block _ => Unit

@[reducible] def fileSig : Signature := ⟨Disk, FileCommand, FileCommand.Answer, Raised⟩

/-- Code that works with files. -/
abbrev Files (α : Type) : Type := Co fileSig α

def awaitFile (c : FileCommand) : Files c.Answer := Co.call (S := fileSig) c

/-- What the system calls that a task makes by itself raise, if it comes to them: `os.close` and
`os.remove`. -/
structure Faults where
  close : Option PyException := none
  remove : Option PyException := none
  deriving DecidableEq

/-- A system call that raises this, or nothing. -/
def ofFault : Option PyException → Files Unit
  | none => .ret ()
  | some e => .raise (.exception e)

/-- `delete_temp` -/
def deleteTemp (faults : Faults) (path : String) : Files Unit := do
  if path ≠ "" ∧ ((← Co.get : Disk) path).isSome = true then
    ofFault faults.remove
    .modify fun disk => disk.erase path
  else return ()

/-- `get_temp_path` -/
def getTempPath (faults : Faults) (suffix : String) : Files String := do
  let path ← awaitFile (.mkstemp suffix)
  ofFault faults.close
  return path

/-- `async with aiofiles.open(path, "wb") as f: await f.write(content)`.  The file is closed
whether or not it was written, and an error of the closing comes before one of the writing. -/
def writeFile (path : String) (content : List UInt8) : Files Unit := do
  awaitFile (.openFile path)
  let written ← (awaitFile (.write path content)).attempt
  awaitFile (.closeFile path)
  .ofExcept written

/-- `save_temp` -/
def saveTemp (faults : Faults) (content : List UInt8) (suffix : String) :
    Files (Option String) := do
  let path ← getTempPath faults suffix
  (writeFile path content).protect fun e => do
    deleteTemp faults path
    .raise e
  return some path

/-- A block with `temp_file`. -/
def tempFile (faults : Faults) (suffix : String) : Files (Option String) := do
  let path ← getTempPath faults suffix
  let ended ← (awaitFile (.block path)).attempt
  deleteTemp faults path
  match ended with
  | .ok () => return none
  | .error e => .raise e

/-- What a task does: `save_temp`, a block with `temp_file`, `delete_temp`, or the opening of a file
in a thread that goes on when its call was cancelled. -/
inductive FileJob
  | save (content : List UInt8) (suffix : String) (faults : Faults)
  | block (suffix : String) (faults : Faults)
  | delete (path : String) (faults : Faults)
  | reopen (path : String)
  deriving DecidableEq

/-- The task gets a file of its own. -/
def FileJob.OwnsFile : FileJob → Prop
  | .save .. | .block .. => True
  | .delete .. | .reopen _ => False

/-- The task is a call of `delete_temp` with this path. -/
def FileJob.Deletes (path : String) : FileJob → Prop
  | .delete other _ => other = path
  | .save .. | .block .. | .reopen _ => False

/-- The error of a system call of the task. -/
def FileJob.Fault (e : PyException) : FileJob → Prop
  | .save _ _ faults | .block _ faults => faults.close = some e ∨ faults.remove = some e
  | .delete _ faults => faults.remove = some e
  | .reopen _ => False

def FileJob.run : FileJob → Files (Option String)
  | .save content suffix faults => saveTemp faults content suffix
  | .block suffix faults => tempFile faults suffix
  | .delete path faults => do
      deleteTemp faults path
      return none
  | .reopen path => do
      .modify fun disk => disk.create path
      return none

/-! ## The pool -/

/-- Which task each name was made for, and the files whose opening goes on without its call. -/
structure TempNames (ι : Type) where
  made : String → Option ι
  late : String → Bool

/-- Nothing was made yet. -/
def TempNames.init (ι : Type) : TempNames ι := ⟨fun _ => none, fun _ => false⟩

/-- Tasks over one disk. -/
abbrev FilePool (ι : Type) := Pool fileSig (TempNames ι) ι (Option String)

section Pool

variable {ι : Type}

/-- A task has ended. -/
def FilePool.Ended (pool : FilePool ι) (i : ι) : Prop :=
  ∃ r disk, pool.tasks i = some (.done r disk)

/-- A call of `save_temp` has returned this path. -/
def FilePool.Returned (pool : FilePool ι) (i : ι) (path : String) : Prop :=
  ∃ disk, pool.tasks i = some (.done (.ok (some path)) disk)

/-- `delete_temp` was called with this path, and it has not raised. -/
def FilePool.Deleted (jobs : ι → FileJob) (pool : FilePool ι) (path : String) : Prop :=
  ∃ i token disk, (jobs i).Deletes path ∧ pool.tasks i = some (.done (.ok token) disk)

/-- A task has ended with the error of one of its system calls. -/
def FilePool.Faulted (jobs : ι → FileJob) (pool : FilePool ι) (i : ι) : Prop :=
  ∃ e disk, (jobs i).Fault e ∧ pool.tasks i = some (.done (.error (.exception e)) disk)

end Pool

variable {ι : Type} [DecidableEq ι]

/-- Any number of tasks, with the jobs `jobs`.  `mkstemp` gives a name that was never used.  An
opening that is cancelled was carried out, or is not, or goes on; a writing that fails leaves
anything.  Only what `save_temp` has returned is deleted from outside. -/
def tempPool (jobs : ι → FileJob) : Scheduler fileSig (TempNames ι) ι (Option String) where
  starts pool i x := x = (jobs i).run ∧ match jobs i with
    | .save .. | .block .. => True
    | .delete path _ => ∃ j, FilePool.Returned pool j path
    | .reopen path => pool.world.late path = true
  answers pool i c r w disk := match c with
    | .mkstemp suffix =>
        (∃ e, r = .error (.exception e) ∧ w = pool.world ∧ disk = pool.shared)
          ∨ ∃ path, r = .ok path ∧ path ≠ "" ∧ suffix.toList <:+ path.toList
            ∧ pool.world.made path = none ∧ pool.shared path = none
            ∧ w = { pool.world with made := Function.update pool.world.made path (some i) }
            ∧ disk = pool.shared.create path
    | .openFile path => match r with
        | .ok () => w = pool.world ∧ disk = pool.shared.create path
        | .error (.exception _) => w = pool.world ∧ disk = pool.shared
        | .error .cancelled => (disk = pool.shared ∨ disk = pool.shared.create path)
            ∧ (w = pool.world
              ∨ w = { pool.world with late := Function.update pool.world.late path true })
    | .write path content => w = pool.world ∧ Disk.OnlyAt path pool.shared disk
        ∧ (r = .ok () → disk path = some content)
    | .closeFile path => w = pool.world ∧ Disk.OnlyAt path pool.shared disk
        ∧ (r = .ok () → disk path = pool.shared path)
    | .block path => w = pool.world ∧ Disk.OnlyAt path pool.shared disk
  idles _ _ := False
  notes w _ _ := w

/-! ## The contract of a task -/

/-- What a task knows: its job, the disk when it last went on, its file, what it has written, and
whether the file is opened without it. -/
structure FileSeen where
  job : FileJob
  seen : Disk
  path : Option String
  written : Option (List UInt8)
  late : Bool

/-- A task begins. -/
def FileSeen.start (job : FileJob) (disk : Disk) : FileSeen := ⟨job, disk, none, none, false⟩

/-- **The contract.**  A task leaves the disk alone while it runs, works on its own file only, and
goes on only if that is not opened without it. -/
def ownFile : Contract fileSig FileSeen where
  may g disk c := disk = g.seen ∧ g.late = false ∧ g.job.OwnsFile ∧ match c with
    | .mkstemp _ => g.path = none
    | .openFile path | .write path _ | .closeFile path | .block path => g.path = some path
  env g _ c r g' disk := match c with
    | .mkstemp suffix => (∃ e, r = .error (.exception e) ∧ g' = { g with seen := disk })
        ∨ ∃ path, r = .ok path ∧ suffix.toList <:+ path.toList
          ∧ g' = ⟨g.job, disk, some path, none, false⟩
    | .openFile _ => match r with
        | .error .cancelled => ∃ late, g' = { g with seen := disk, written := none, late := late }
        | _ => g' = { g with seen := disk, written := none }
    | .write _ content => match r with
        | .ok () => g' = { g with seen := disk, written := some content }
        | .error _ => g' = { g with seen := disk, written := none }
    | .closeFile _ => match r with
        | .ok () => g' = { g with seen := disk }
        | .error _ => g' = { g with seen := disk, written := none }
    | .block _ => g' = { g with seen := disk, written := none }
  cut _ := False

/-- How a task returns. -/
def FileReturns (token : Option String) (g : FileSeen) (disk : Disk) : Prop :=
  g.late = false ∧ match g.job with
    | .save content suffix _ => ∃ path, token = some path ∧ g.path = some path
        ∧ suffix.toList <:+ path.toList ∧ g.written = some content ∧ disk = g.seen
    | .block .. => token = none ∧ ∃ path, g.path = some path ∧ disk = g.seen.remove path
    | .delete path _ => token = none ∧ g.path = none ∧ disk = g.seen.remove path
    | .reopen path => token = none ∧ g.path = none ∧ disk = g.seen.create path

/-- How a task raises: one of its system calls did, or it has deleted its file. -/
def FileRaises (e : Raised) (g : FileSeen) (disk : Disk) : Prop :=
  (∃ raised, e = .exception raised ∧ g.job.Fault raised ∧ disk = g.seen)
    ∨ (g.late = true → e = .cancelled) ∧ g.job.OwnsFile
      ∧ disk = g.path.elim g.seen fun path => g.seen.remove path

section Contracts

variable {g : FileSeen} {path suffix : String} {content : List UInt8} {disk : Disk}

lemma awaitFile_wp {c : FileCommand} {φ : c.Answer → FileSeen → Disk → Prop}
    {ψ : Raised → FileSeen → Disk → Prop} (hmay : ownFile.may g disk c)
    (hok : ∀ a g' disk', ownFile.env g disk c (.ok a) g' disk' → φ a g' disk')
    (herror : ∀ e g' disk', ownFile.env g disk c (.error e) g' disk' → ψ e g' disk') :
    (awaitFile c).wp ownFile φ ψ g disk := by
  rw [awaitFile, Co.wp_call (S := fileSig) c]
  exact ⟨hmay, hok, herror⟩

/-- `delete_temp` leaves no file, or `os.remove` raises and the disk stays as it is. -/
lemma deleteTemp_wp {faults : Faults} {φ : Unit → FileSeen → Disk → Prop}
    {ψ : Raised → FileSeen → Disk → Prop} (hok : φ () g (disk.remove path))
    (herror : ∀ e, faults.remove = some e → ψ (.exception e) g disk) :
    (deleteTemp faults path).wp ownFile φ ψ g disk := by
  rw [deleteTemp, Co.wp_bind, Co.wp_get]
  dsimp only
  rw [Disk.remove] at hok
  split_ifs at hok ⊢ with hfile
  · rw [Co.wp_bind]
    cases hremove : faults.remove with
    | none => exact hok
    | some e => exact herror e hremove
  · exact hok

/-- A file that was written holds the content; when it could not be written, it is the call's to
delete. -/
lemma writeFile_ownFile (hlate : g.late = false) (hpath : g.path = some path)
    (hjob : g.job.OwnsFile) :
    (writeFile path content).wp ownFile
      (fun _ g' disk => g' = { g with seen := disk, written := some content })
      (fun e g' disk => disk = g'.seen ∧ g'.path = some path ∧ (g'.late = true → e = .cancelled)
        ∧ g'.job = g.job)
      g g.seen := by
  have hnot : g.late ≠ true := by simp [hlate]
  rw [writeFile, Co.wp_bind]
  refine awaitFile_wp ⟨rfl, hlate, hjob, hpath⟩ (fun _ g' disk henv => ?_)
    (fun e g' disk henv => ?_)
  · obtain rfl := henv
    rw [Co.wp_bind, Co.wp_attempt]
    refine awaitFile_wp ⟨rfl, hlate, hjob, hpath⟩ (fun _ g' disk' henv => ?_)
      (fun e g' disk' henv => ?_)
    · obtain rfl := henv
      rw [Co.wp_bind]
      refine awaitFile_wp ⟨rfl, hlate, hjob, hpath⟩ (fun _ g' disk'' henv => ?_)
        (fun e g' disk'' henv => ?_)
      · obtain rfl := henv
        rfl
      · obtain rfl := henv
        exact ⟨rfl, hpath, fun h => absurd h hnot, rfl⟩
    · obtain rfl := henv
      rw [Co.wp_bind]
      refine awaitFile_wp ⟨rfl, hlate, hjob, hpath⟩ (fun _ g' disk'' henv => ?_)
        (fun e' g' disk'' henv => ?_)
      · obtain rfl := henv
        exact ⟨rfl, hpath, fun h => absurd h hnot, rfl⟩
      · obtain rfl := henv
        exact ⟨rfl, hpath, fun h => absurd h hnot, rfl⟩
  · cases e with
    | cancelled =>
        obtain ⟨late, rfl⟩ := henv
        exact ⟨rfl, hpath, fun _ => rfl, rfl⟩
    | exception e =>
        obtain rfl := henv
        exact ⟨rfl, hpath, fun h => absurd h hnot, rfl⟩

/-- `get_temp_path` gives a task its file, or `os.close` raises and the file is there. -/
lemma getTempPath_ownFile {faults : Faults} {job : FileJob} (hjob : job.OwnsFile)
    (hfault : ∀ e, faults.close = some e → job.Fault e)
    {φ : String → FileSeen → Disk → Prop}
    (hφ : ∀ path disk, suffix.toList <:+ path.toList →
      φ path ⟨job, disk, some path, none, false⟩ disk) :
    (getTempPath faults suffix).wp ownFile φ FileRaises (.start job disk) disk := by
  rw [getTempPath, Co.wp_bind]
  refine awaitFile_wp ⟨rfl, rfl, hjob, rfl⟩ (fun path g disk henv => ?_) (fun e g disk henv => ?_)
  · obtain ⟨_, ⟨⟩, -⟩ | ⟨_, ⟨⟩, hsuffix, rfl⟩ := henv
    rw [Co.wp_bind]
    cases hclose : faults.close with
    | none => exact hφ path disk hsuffix
    | some e => exact .inl ⟨e, rfl, hfault e hclose, rfl⟩
  · obtain ⟨_, -, rfl⟩ | ⟨_, ⟨⟩, -⟩ := henv
    exact .inr ⟨nofun, hjob, rfl⟩

lemma saveTemp_ownFile {faults : Faults} :
    (saveTemp faults content suffix).wp ownFile FileReturns FileRaises
      (.start (.save content suffix faults) disk) disk := by
  have hjob : (FileJob.save content suffix faults).OwnsFile := trivial
  rw [saveTemp, Co.wp_bind]
  refine getTempPath_ownFile hjob (fun e => .inl) fun path disk hsuffix => ?_
  rw [Co.wp_bind, Co.wp_protect]
  refine Co.wp_mono (writeFile_ownFile rfl rfl hjob) (fun _ g disk h => ?_) (fun e g disk h => ?_)
  · obtain rfl := h
    exact ⟨rfl, path, rfl, rfl, hsuffix, rfl, rfl⟩
  · obtain ⟨rfl, hpath, hlate, hsame⟩ := h
    rw [Co.wp_bind]
    refine deleteTemp_wp (.inr ⟨hlate, by rw [hsame]; exact hjob, by rw [hpath]; rfl⟩)
      fun e hremove => .inl ⟨e, rfl, ?_, rfl⟩
    rw [hsame]
    exact .inr hremove

lemma tempFile_ownFile {faults : Faults} :
    (tempFile faults suffix).wp ownFile FileReturns FileRaises
      (.start (.block suffix faults) disk) disk := by
  have hjob : (FileJob.block suffix faults).OwnsFile := trivial
  rw [tempFile, Co.wp_bind]
  refine getTempPath_ownFile hjob (fun e => .inl) fun path disk hsuffix => ?_
  rw [Co.wp_bind, Co.wp_attempt]
  refine awaitFile_wp ⟨rfl, rfl, hjob, rfl⟩ (fun _ g disk henv => ?_) (fun e g disk henv => ?_)
  · obtain rfl := henv
    rw [Co.wp_bind]
    exact deleteTemp_wp ⟨rfl, rfl, path, rfl, rfl⟩ fun e hremove => .inl ⟨e, rfl, .inr hremove, rfl⟩
  · obtain rfl := henv
    rw [Co.wp_bind]
    exact deleteTemp_wp (.inr ⟨nofun, hjob, rfl⟩) fun e hremove => .inl ⟨e, rfl, .inr hremove, rfl⟩

/-- Every job keeps the contract. -/
lemma FileJob.run_ownFile (job : FileJob) :
    job.run.wp ownFile FileReturns FileRaises (.start job disk) disk := by
  cases job with
  | save content suffix faults => exact saveTemp_ownFile
  | block suffix faults => exact tempFile_ownFile
  | delete path faults =>
      rw [FileJob.run, Co.wp_bind]
      exact deleteTemp_wp ⟨rfl, rfl, rfl, rfl⟩ fun e hremove => .inl ⟨e, rfl, hremove, rfl⟩
  | reopen path => exact ⟨rfl, rfl, rfl, rfl⟩

end Contracts

/-! ## The invariant -/

section Invariant

variable (jobs : ι → FileJob) {pool : FilePool ι} {gs : ι → FileSeen} {g : FileSeen} {i j : ι}
  {path : String} {disk₀ : Disk}

/-- What `save_temp` has returned holds the content, until it is deleted. -/
def FilePool.Kept (pool : FilePool ι) (i : ι) (path : String) : Prop :=
  ∃ content suffix faults, jobs i = .save content suffix faults ∧ suffix.toList <:+ path.toList
    ∧ (¬ pool.Deleted jobs path → pool.shared path = some content)
    ∧ (pool.Deleted jobs path → pool.shared path = none)

/-- The file of a task. -/
structure TaskFile (pool : FilePool ι) (g : FileSeen) (i : ι) : Prop where
  fresh : pool.tasks i = none → g.path = none
  late : g.late = true → pool.Ended i
  written : ¬ pool.Ended i → ∀ path content, g.path = some path → g.written = some content →
    pool.shared path = some content
  left : pool.Ended i → ∀ path, g.path = some path → (pool.shared path).isSome = true →
    pool.world.late path = true ∨ pool.Returned i path ∨ pool.Faulted jobs i
  kept : ∀ path, pool.Returned i path → g.path = some path ∧ g.late = false ∧ pool.Kept jobs i path

/-- **The invariant**: every file that was made belongs to one task, and what is not made is as it
was. -/
structure TempValid (disk₀ : Disk) (pool : FilePool ι) (gs : ι → FileSeen) : Prop where
  job : ∀ i, (gs i).job = jobs i
  made : ∀ path i, pool.world.made path = some i ↔ (gs i).path = some path
  named : ∀ path i, pool.world.made path = some i → path ≠ "" ∧ disk₀ path = none
  others : ∀ path, pool.world.made path = none → pool.shared path = disk₀ path
  late : ∀ path, pool.world.late path = true → ∃ i, (gs i).path = some path ∧ (gs i).late = true
  deleted : ∀ path, pool.Deleted jobs path → ∃ i, pool.Returned i path
  tasks : ∀ i, TaskFile jobs pool (gs i) i

variable {jobs}

omit [DecidableEq ι] in
/-- Another task has run: it leaves the file alone, deletes it after it was returned, or makes it
again after the call was cancelled. -/
lemma TaskFile.mono {pool' : FilePool ι} (h : TaskFile jobs pool g i)
    (htask : pool'.tasks i = pool.tasks i)
    (hlate : ∀ path, pool.world.late path = true → pool'.world.late path = true)
    (hdisk : ∀ path, g.path = some path →
      pool'.shared path = pool.shared path ∧ (pool'.Deleted jobs path ↔ pool.Deleted jobs path)
      ∨ pool.Returned i path ∧ pool'.shared path = none ∧ pool'.Deleted jobs path
      ∨ g.late = true ∧ pool'.world.late path = true) : TaskFile jobs pool' g i := by
  have hended : pool'.Ended i ↔ pool.Ended i := by simp only [FilePool.Ended, htask]
  have hreturned : ∀ path, pool'.Returned i path ↔ pool.Returned i path := by
    simp only [FilePool.Returned, htask, implies_true]
  have hfaulted : pool'.Faulted jobs i ↔ pool.Faulted jobs i := by
    simp only [FilePool.Faulted, htask]
  refine ⟨fun hnone => h.fresh (htask.symm.trans hnone), fun hg => hended.mpr (h.late hg),
    fun hnot path content hpath hcontent => ?_, fun hend path hpath hsome => ?_,
    fun path hret => ?_⟩
  · have hnot' : ¬ pool.Ended i := fun hend => hnot (hended.mpr hend)
    rcases hdisk path hpath with ⟨heq, -⟩ | ⟨⟨disk, hret⟩, -⟩ | ⟨hg, -⟩
    · rw [heq]
      exact h.written hnot' path content hpath hcontent
    · exact absurd ⟨_, disk, hret⟩ hnot'
    · exact absurd (h.late hg) hnot'
  · rcases hdisk path hpath with ⟨heq, -⟩ | ⟨-, hnone, -⟩ | ⟨-, hworld⟩
    · rw [heq] at hsome
      rcases h.left (hended.mp hend) path hpath hsome with hl | hr
      · exact .inl (hlate path hl)
      · exact .inr (hr.imp (hreturned path).mpr hfaulted.mpr)
    · rw [hnone] at hsome
      cases hsome
    · exact .inl hworld
  · obtain ⟨hpath, hg, content, suffix, faults, hjob, hsuffix, hcontent, hgone⟩ :=
      h.kept path ((hreturned path).mp hret)
    refine ⟨hpath, hg, content, suffix, faults, hjob, hsuffix, ?_⟩
    rcases hdisk path hpath with ⟨heq, hsame⟩ | ⟨-, hnone, hdeleted⟩ | ⟨hg', -⟩
    · rw [heq, hsame]
      exact ⟨hcontent, hgone⟩
    · exact ⟨fun hnot => absurd hdeleted hnot, fun _ => hnone⟩
    · rw [hg] at hg'
      cases hg'

section Run

variable {g' : FileSeen} {w : TempNames ι} {disk : Disk} {p : Program fileSig (Option String)}

lemma FilePool.deleted_run (hnot : ¬ pool.Ended i) :
    FilePool.Deleted jobs (pool.run (tempPool jobs) i w disk p) path
      ↔ ((jobs i).Deletes path ∧ ∃ token s, p = .done (.ok token) s) ∨ pool.Deleted jobs path := by
  constructor
  · rintro ⟨j, token, s, hj, htask⟩
    by_cases hji : j = i
    · subst hji
      rw [Pool.run_self] at htask
      exact .inl ⟨hj, token, s, Option.some.inj htask⟩
    · rw [Pool.run_of_ne hji] at htask
      exact .inr ⟨j, token, s, hj, htask⟩
  · rintro (⟨hi, token, s, rfl⟩ | ⟨j, token, s, hj, htask⟩)
    · exact ⟨i, token, s, hi, Pool.run_self⟩
    · refine ⟨j, token, s, hj, (Pool.run_of_ne ?_).trans htask⟩
      rintro rfl
      exact hnot ⟨_, s, htask⟩

omit [DecidableEq ι] in
lemma FileJob.OwnsFile.not_deletes {job : FileJob} (h : job.OwnsFile) : ¬ job.Deletes path := by
  cases job with
  | save | block => exact id
  | delete | reopen => exact h.elim

omit [DecidableEq ι] in
/-- What was deleted was returned by a task that has ended. -/
lemma TempValid.ended_of_deleted (h : TempValid jobs disk₀ pool gs)
    (hdeleted : pool.Deleted jobs path) (hpath : (gs i).path = some path) : pool.Ended i := by
  obtain ⟨j, hreturned⟩ := h.deleted path hdeleted
  have hother := ((h.tasks j).kept path hreturned).1
  have hmade := ((h.made path j).mpr hother).symm.trans ((h.made path i).mpr hpath)
  obtain rfl := Option.some.inj hmade
  obtain ⟨disk, htask⟩ := hreturned
  exact ⟨_, disk, htask⟩

/-- A task with a file of its own has run: it has changed nothing else. -/
lemma TempValid.runOwn (h : TempValid jobs disk₀ pool gs) (hnot : ¬ pool.Ended i)
    (hkind : (jobs i).OwnsFile) (hjob : g'.job = jobs i)
    (hpath : ∀ path, (gs i).path = some path → g'.path = some path)
    (hmade : ∀ path j, w.made path = some j ↔ (Function.update gs i g' j).path = some path)
    (hnamed : ∀ path, g'.path = some path → path ≠ "" ∧ disk₀ path = none)
    (hlate : ∀ path, w.late path = true ↔
      pool.world.late path = true ∨ g'.path = some path ∧ g'.late = true)
    (hdisk : ∀ path, g'.path ≠ some path → (p.state?.getD disk) path = pool.shared path)
    (hown : TaskFile jobs (pool.run (tempPool jobs) i w disk p) g' i) :
    TempValid jobs disk₀ (pool.run (tempPool jobs) i w disk p) (Function.update gs i g') := by
  have hforeign : ∀ j path, j ≠ i → (gs j).path = some path → g'.path ≠ some path := by
    intro j path hj hpath hpath'
    have hmine := (hmade path i).mpr (by rw [Function.update_self]; exact hpath')
    have hother := (hmade path j).mpr (by rw [Function.update_of_ne hj]; exact hpath)
    exact hj (Option.some.inj (hother.symm.trans hmine))
  have hdeleted : ∀ path, FilePool.Deleted jobs (pool.run (tempPool jobs) i w disk p) path
      ↔ pool.Deleted jobs path := by
    intro path
    rw [FilePool.deleted_run hnot]
    exact or_iff_right fun hdeletes => hkind.not_deletes hdeletes.1
  refine ⟨fun j => ?_, hmade, fun path j hj => ?_, fun path hnone => ?_, fun path hl => ?_,
    fun path hl => ?_, fun j => ?_⟩
  · by_cases hj : j = i
    · rw [hj, Function.update_self, hjob]
    · rw [Function.update_of_ne hj, h.job]
  · have hpath := (hmade path j).mp hj
    by_cases hji : j = i
    · rw [hji, Function.update_self] at hpath
      exact hnamed path hpath
    · rw [Function.update_of_ne hji] at hpath
      exact h.named path j ((h.made path j).mpr hpath)
  · have hothers : ∀ j, (Function.update gs i g' j).path ≠ some path := by
      intro j hj
      cases hnone.symm.trans ((hmade path j).mpr hj)
    have hmine := hothers i
    rw [Function.update_self] at hmine
    refine (hdisk path hmine).trans (h.others path (Option.eq_none_iff_forall_ne_some.mpr ?_))
    intro j hj
    have hold := (h.made path j).mp hj
    by_cases hji : j = i
    · rw [hji] at hold
      exact hmine (hpath path hold)
    · have hother := hothers j
      rw [Function.update_of_ne hji] at hother
      exact hother hold
  · rcases (hlate path).mp hl with hold | hnew
    · obtain ⟨j, hj, hg⟩ := h.late path hold
      have hji : j ≠ i := by
        rintro rfl
        exact hnot ((h.tasks j).late hg)
      exact ⟨j, by rw [Function.update_of_ne hji]; exact ⟨hj, hg⟩⟩
    · exact ⟨i, by rw [Function.update_self]; exact hnew⟩
  · obtain ⟨j, s, hj⟩ := h.deleted path ((hdeleted path).mp hl)
    refine ⟨j, s, (Pool.run_of_ne ?_).trans hj⟩
    rintro rfl
    exact hnot ⟨_, s, hj⟩
  · by_cases hj : j = i
    · rw [hj, Function.update_self]
      exact hown
    · rw [Function.update_of_ne hj]
      exact (h.tasks j).mono (Pool.run_of_ne hj) (fun path hl => (hlate path).mpr (.inl hl))
        fun path hpath => .inl ⟨hdisk path (hforeign j path hj hpath), hdeleted path⟩

omit [DecidableEq ι] in
lemma FilePool.not_ended_of_none (hnew : pool.tasks i = none) : ¬ pool.Ended i := by
  rintro ⟨r, s, htask⟩
  cases hnew.symm.trans htask

/-- A task without a file has run to its end in one step. -/
lemma TempValid.runOnce (h : TempValid jobs disk₀ pool gs) (hnew : pool.tasks i = none)
    {r : Except Raised (Option String)} (hr : ∀ path, r ≠ .ok (some path))
    (hothers : ∀ path, pool.world.made path = none → disk path = pool.shared path)
    (hreturned : ∀ path, (jobs i).Deletes path → ∃ j, pool.Returned j path)
    (hdisk : ∀ j path, (gs j).path = some path →
      disk path = pool.shared path ∧ ¬ ((jobs i).Deletes path ∧ ∃ token, r = .ok token)
      ∨ pool.Returned j path ∧ disk path = none ∧ (jobs i).Deletes path ∧ (∃ token, r = .ok token)
      ∨ (gs j).late = true ∧ pool.world.late path = true) :
    TempValid jobs disk₀ (pool.run (tempPool jobs) i pool.world pool.shared (.done r disk))
      (Function.update gs i (.start (jobs i) pool.shared)) := by
  have hnot := FilePool.not_ended_of_none hnew
  have hsame : ∀ j, (Function.update gs i (.start (jobs i) pool.shared) j).path = (gs j).path := by
    intro j
    by_cases hj : j = i
    · rw [hj, Function.update_self, (h.tasks i).fresh hnew]
      rfl
    · rw [Function.update_of_ne hj]
  have hdone : ∀ {j r s}, pool.tasks j = some (.done r s) → j ≠ i := by
    rintro j r s htask rfl
    cases hnew.symm.trans htask
  have hdeleted : ∀ path, FilePool.Deleted jobs
      (pool.run (tempPool jobs) i pool.world pool.shared (.done r disk)) path
      ↔ ((jobs i).Deletes path ∧ ∃ token, r = .ok token) ∨ pool.Deleted jobs path := by
    intro path
    rw [FilePool.deleted_run hnot]
    simp
  refine ⟨fun j => ?_, fun path j => ?_, h.named, fun path hnone => ?_, fun path hl => ?_,
    fun path hl => ?_, fun j => ?_⟩
  · by_cases hj : j = i
    · rw [hj, Function.update_self]
      rfl
    · rw [Function.update_of_ne hj, h.job]
  · rw [hsame]
    exact h.made path j
  · exact (hothers path hnone).trans (h.others path hnone)
  · obtain ⟨j, hj, hg⟩ := h.late path hl
    obtain ⟨r, s, htask⟩ := (h.tasks j).late hg
    exact ⟨j, by rw [Function.update_of_ne (hdone htask)]; exact ⟨hj, hg⟩⟩
  · have hold : ∃ j, pool.Returned j path := by
      rcases (hdeleted path).mp hl with hdel | hdel
      · exact hreturned path hdel.1
      · exact h.deleted path hdel
    obtain ⟨j, s, hj⟩ := hold
    exact ⟨j, s, (Pool.run_of_ne (hdone hj)).trans hj⟩
  · by_cases hj : j = i
    · subst hj
      rw [Function.update_self]
      refine ⟨fun _ => rfl, nofun, fun _ => nofun, fun _ => nofun, ?_⟩
      rintro path ⟨s, hs⟩
      obtain ⟨hreturn, -⟩ := Program.done.inj (Option.some.inj (Pool.run_self.symm.trans hs))
      exact absurd hreturn (hr path)
    · rw [Function.update_of_ne hj]
      refine (h.tasks j).mono (Pool.run_of_ne hj) (fun _ hl => hl) fun path hpath => ?_
      rw [hdeleted]
      rcases hdisk j path hpath with ⟨heq, hother⟩ | ⟨hret, hnone, hdel⟩ | hl
      · exact .inl ⟨heq, or_iff_right hother⟩
      · exact .inr (.inl ⟨hret, hnone, .inl hdel⟩)
      · exact .inr (.inr hl)

/-- What was returned is deleted. -/
lemma TempValid.runDelete (h : TempValid jobs disk₀ pool gs) (hnew : pool.tasks i = none)
    {faults : Faults} (hjob : jobs i = .delete path faults) (hreturned : pool.Returned j path) :
    TempValid jobs disk₀
      (pool.run (tempPool jobs) i pool.world pool.shared
        (.done (.ok none) (pool.shared.remove path)))
      (Function.update gs i (.start (jobs i) pool.shared)) := by
  obtain ⟨hpath, -⟩ := (h.tasks j).kept path hreturned
  have hmade := (h.made path j).mpr hpath
  have hdeletes : ∀ other, (jobs i).Deletes other ↔ path = other := by
    intro other
    rw [hjob]
    exact Iff.rfl
  refine h.runOnce hnew nofun (fun other hother => Disk.remove_onlyAt other ?_)
    (fun other hother => ?_) fun k other hk => ?_
  · rintro rfl
    cases hmade.symm.trans hother
  · obtain rfl := (hdeletes other).mp hother
    exact ⟨j, hreturned⟩
  · by_cases heq : other = path
    · subst heq
      obtain rfl := Option.some.inj (hmade.symm.trans ((h.made other k).mpr hk))
      exact .inr (.inl ⟨hreturned, Disk.remove_self (h.named other j hmade).1,
        (hdeletes other).mpr rfl, none, rfl⟩)
    · exact .inl ⟨Disk.remove_onlyAt other heq,
        fun hother => heq ((hdeletes other).mp hother.1).symm⟩

/-- A deletion that raises changes nothing. -/
lemma TempValid.runFault (h : TempValid jobs disk₀ pool gs) (hnew : pool.tasks i = none)
    (hreturned : ∀ path, (jobs i).Deletes path → ∃ j, pool.Returned j path) (e : Raised) :
    TempValid jobs disk₀ (pool.run (tempPool jobs) i pool.world pool.shared
        (.done (.error e) pool.shared))
      (Function.update gs i (.start (jobs i) pool.shared)) :=
  h.runOnce hnew nofun (fun _ _ => rfl) hreturned fun _ _ _ =>
    .inl ⟨rfl, fun hdeletes => nomatch hdeletes.2⟩

/-- A file is opened without its call. -/
lemma TempValid.runReopen (h : TempValid jobs disk₀ pool gs) (hnew : pool.tasks i = none)
    (hjob : jobs i = .reopen path) (hlate : pool.world.late path = true) :
    TempValid jobs disk₀
      (pool.run (tempPool jobs) i pool.world pool.shared
        (.done (.ok none) (pool.shared.create path)))
      (Function.update gs i (.start (jobs i) pool.shared)) := by
  obtain ⟨j, hpath, hg⟩ := h.late path hlate
  have hmade := (h.made path j).mpr hpath
  have hdeletes : ∀ other, ¬ (jobs i).Deletes other := by
    intro other
    rw [hjob]
    exact id
  refine h.runOnce hnew nofun (fun other hother => Disk.create_onlyAt other ?_)
    (fun other hother => absurd hother (hdeletes other)) fun k other hk => ?_
  · rintro rfl
    cases hmade.symm.trans hother
  · by_cases heq : other = path
    · subst heq
      obtain rfl := Option.some.inj (hmade.symm.trans ((h.made other k).mpr hk))
      exact .inr (.inr ⟨hg, hlate⟩)
    · exact .inl ⟨Disk.create_onlyAt other heq, fun hother => hdeletes other hother.1⟩

lemma FilePool.ended_run :
    FilePool.Ended (pool.run (tempPool jobs) i w disk p) i ↔ ∃ r s, p = .done r s := by
  simp only [FilePool.Ended, Pool.run_self, Option.some.injEq]

lemma FilePool.returned_run :
    FilePool.Returned (pool.run (tempPool jobs) i w disk p) i path
      ↔ ∃ s, p = .done (.ok (some path)) s := by
  simp only [FilePool.Returned, Pool.run_self, Option.some.injEq]

/-- A task that waits. -/
lemma taskFile_await {c : FileCommand} {s : Disk}
    {k : Except Raised c.Answer → Disk → Program fileSig (Option String)} (hlate : g'.late = false)
    (hwritten : ∀ path content, g'.path = some path → g'.written = some content →
      s path = some content) :
    TaskFile jobs (pool.run (tempPool jobs) i w disk (.await c s k)) g' i := by
  have hnot : ¬ FilePool.Ended (pool.run (tempPool jobs) i w disk (.await c s k)) i := by
    rw [FilePool.ended_run]
    rintro ⟨r, s', ⟨⟩⟩
  refine ⟨fun h => ?_, fun h => ?_, fun _ => hwritten, fun h => absurd h hnot, fun path h => ?_⟩
  · cases Pool.run_self.symm.trans h
  · cases hlate.symm.trans h
  · obtain ⟨s', ⟨⟩⟩ := FilePool.returned_run.mp h

/-- A task that has ended, and has deleted its file if it does not return it and no system call
raised. -/
lemma taskFile_done (hnot : ¬ pool.Ended i) (hkind : (jobs i).OwnsFile)
    {r : Except Raised (Option String)} {s : Disk}
    (hleft : ∀ path, g'.path = some path → r ≠ .ok (some path) →
      s path = none ∨ ∃ e, r = .error (.exception e) ∧ (jobs i).Fault e)
    (hkept : ∀ path, r = .ok (some path) → g'.path = some path ∧ g'.late = false
      ∧ ∃ content suffix faults, jobs i = .save content suffix faults
        ∧ suffix.toList <:+ path.toList ∧ s path = some content)
    (hundeleted : ∀ path, g'.path = some path → ¬ pool.Deleted jobs path) :
    TaskFile jobs (pool.run (tempPool jobs) i w disk (.done r s)) g' i := by
  have hended : FilePool.Ended (pool.run (tempPool jobs) i w disk (.done r s)) i :=
    FilePool.ended_run.mpr ⟨r, s, rfl⟩
  refine ⟨fun h => ?_, fun _ => hended, fun h => absurd hended h, fun _ path hpath hsome => ?_,
    fun path h => ?_⟩
  · cases Pool.run_self.symm.trans h
  · by_cases hr : r = .ok (some path)
    · exact .inr (.inl (FilePool.returned_run.mpr ⟨s, by rw [hr]⟩))
    · rcases hleft path hpath hr with hnone | ⟨e, rfl, hfault⟩
      · rw [show (pool.run (tempPool jobs) i w disk (.done r s)).shared path = none from hnone]
          at hsome
        cases hsome
      · exact .inr (.inr ⟨e, s, hfault, Pool.run_self⟩)
  · obtain ⟨s', heq⟩ := FilePool.returned_run.mp h
    cases heq
    obtain ⟨hpath, hg, content, suffix, faults, hjob, hsuffix, hcontent⟩ := hkept path rfl
    have hkeeps : ¬ FilePool.Deleted jobs
        (pool.run (tempPool jobs) i w disk (.done (.ok (some path)) s)) path := by
      rw [FilePool.deleted_run hnot]
      exact fun hdeleted => hdeleted.elim (fun h => hkind.not_deletes h.1) (hundeleted path hpath)
    exact ⟨hpath, hg, content, suffix, faults, hjob, hsuffix, fun _ => hcontent,
      fun h => absurd h hkeeps⟩

/-- What a task may have done when it stops, if it has, or may have, a file of its own. -/
lemma taskFile_settled (hnot : ¬ pool.Ended i) (hjob : g'.job = jobs i) (hkind : (jobs i).OwnsFile)
    (hname : ∀ path, g'.path = some path → path ≠ "" ∧ ¬ pool.Deleted jobs path)
    (hwritten : ∀ path content, g'.path = some path → g'.written = some content →
      g'.seen path = some content)
    (hp : p.Settled ownFile FileReturns FileRaises g') :
    TaskFile jobs (pool.run (tempPool jobs) i w disk p) g' i
      ∧ ∀ path, g'.path ≠ some path → (p.state?.getD disk) path = g'.seen path := by
  have hundeleted : ∀ path, g'.path = some path → ¬ pool.Deleted jobs path :=
    fun path hpath => (hname path hpath).2
  cases p with
  | spent => exact hp.elim
  | await c s k =>
      obtain ⟨rfl, hlate, -⟩ := hp
      exact ⟨taskFile_await hlate hwritten, fun _ _ => rfl⟩
  | done r s =>
      cases r with
      | error e =>
          rcases hp with ⟨raised, rfl, hfault, rfl⟩ | ⟨-, -, rfl⟩
          · rw [hjob] at hfault
            refine ⟨taskFile_done hnot hkind (fun _ _ _ => .inr ⟨raised, rfl, hfault⟩) nofun ?_,
              fun _ _ => rfl⟩
            exact hundeleted
          · cases hpath : g'.path with
            | none =>
                exact ⟨taskFile_done hnot hkind (fun path h => by cases hpath.symm.trans h) nofun
                  hundeleted, fun _ _ => rfl⟩
            | some path =>
                refine ⟨taskFile_done hnot hkind (fun other h _ => .inl ?_) nofun hundeleted,
                  fun other hother => Disk.remove_onlyAt other fun heq => hother (by rw [heq])⟩
                obtain rfl := Option.some.inj (hpath.symm.trans h)
                exact Disk.remove_self (hname path hpath).1
      | ok token =>
          obtain ⟨hlate, hp⟩ := hp
          rw [hjob] at hp
          cases hsave : jobs i with
          | delete path faults =>
              rw [hsave] at hkind
              exact hkind.elim
          | reopen path =>
              rw [hsave] at hkind
              exact hkind.elim
          | save content suffix faults =>
              rw [hsave] at hp
              obtain ⟨path, rfl, hpath, hsuffix, hcontent, rfl⟩ := hp
              refine ⟨taskFile_done hnot hkind (fun other h hne => ?_) ?_ hundeleted,
                fun _ _ => rfl⟩
              · exact absurd (by rw [Option.some.inj (hpath.symm.trans h)]) hne
              · rintro _ ⟨⟩
                exact ⟨hpath, hlate, content, suffix, faults, hsave, hsuffix,
                  hwritten path content hpath hcontent⟩
          | block suffix faults =>
              rw [hsave] at hp
              obtain ⟨rfl, path, hpath, rfl⟩ := hp
              refine ⟨taskFile_done hnot hkind (fun other h _ => .inl ?_) nofun hundeleted,
                fun other hother =>
                  Disk.remove_onlyAt other fun heq => hother (by rw [hpath, heq])⟩
              obtain rfl := Option.some.inj (hpath.symm.trans h)
              exact Disk.remove_self (hname path hpath).1

/-- A task runs that has no file. -/
lemma TempValid.without (h : TempValid jobs disk₀ pool gs) (hnot : ¬ pool.Ended i)
    (hkind : (jobs i).OwnsFile) (hjob : g'.job = jobs i) (hnone : (gs i).path = none)
    (hnone' : g'.path = none) (hseen : g'.seen = pool.shared)
    (hp : p.Settled ownFile FileReturns FileRaises g') :
    TempValid jobs disk₀ (pool.run (tempPool jobs) i pool.world pool.shared p)
      (Function.update gs i g') := by
  have hnever : ∀ path, g'.path ≠ some path := by
    rw [hnone']
    exact nofun
  have hsettled : TaskFile jobs (pool.run (tempPool jobs) i pool.world pool.shared p) g' i
      ∧ ∀ path, g'.path ≠ some path → (p.state?.getD pool.shared) path = g'.seen path :=
    taskFile_settled hnot hjob hkind (fun path h => absurd h (hnever path))
      (fun path _ h => absurd h (hnever path)) hp
  obtain ⟨hown, hdisk⟩ := hsettled
  rw [hseen] at hdisk
  refine h.runOwn hnot hkind hjob (fun path hpath => ?_) (fun path j => ?_)
    (fun path hpath => absurd hpath (hnever path)) (fun path => ?_) hdisk hown
  · cases hnone.symm.trans hpath
  · rw [h.made]
    by_cases hj : j = i
    · rw [hj, Function.update_self, hnone, hnone']
    · rw [Function.update_of_ne hj]
  · exact ⟨.inl, fun hl => hl.elim id fun hnew => absurd hnew.1 (hnever path)⟩

/-- A task goes on that has its file. -/
lemma TempValid.goesOn (h : TempValid jobs disk₀ pool gs) (hnot : ¬ pool.Ended i)
    (hkind : (jobs i).OwnsFile) (hjob : g'.job = (gs i).job) (hpath : (gs i).path = some path)
    (hpath' : g'.path = some path)
    (hmade : w.made = pool.world.made)
    (hlate : ∀ other, w.late other = true ↔
      pool.world.late other = true ∨ g'.path = some other ∧ g'.late = true)
    (hseen : g'.seen = disk) (hdisk : Disk.OnlyAt path pool.shared disk)
    (hwritten : ∀ content, g'.written = some content → disk path = some content)
    (hp : p.Settled ownFile FileReturns FileRaises g') :
    TempValid jobs disk₀ (pool.run (tempPool jobs) i w disk p) (Function.update gs i g') := by
  have hjob := hjob.trans (h.job i)
  have hnamed := h.named path i ((h.made path i).mpr hpath)
  have hsettled : TaskFile jobs (pool.run (tempPool jobs) i w disk p) g' i
      ∧ ∀ other, g'.path ≠ some other → (p.state?.getD disk) other = g'.seen other := by
    refine taskFile_settled hnot hjob hkind (fun other hother => ?_)
      (fun other content hother hcontent => ?_) hp
    · obtain rfl := Option.some.inj (hpath'.symm.trans hother)
      exact ⟨hnamed.1, fun hdeleted => hnot (h.ended_of_deleted hdeleted hpath)⟩
    · obtain rfl := Option.some.inj (hpath'.symm.trans hother)
      rw [hseen]
      exact hwritten content hcontent
  obtain ⟨hown, hlast⟩ := hsettled
  refine h.runOwn hnot hkind hjob (fun other hother => ?_) (fun other j => ?_)
    (fun other hother => ?_) hlate (fun other hother => ?_) hown
  · rw [hpath', ← hpath, hother]
  · rw [hmade, h.made]
    by_cases hj : j = i
    · rw [hj, Function.update_self, hpath, hpath']
    · rw [Function.update_of_ne hj]
  · obtain rfl := Option.some.inj (hpath'.symm.trans hother)
    exact hnamed
  · rw [hlast other hother, hseen]
    exact hdisk other fun heq => hother (by rw [hpath', heq])

/-- A task has got its file. -/
lemma TempValid.gets (h : TempValid jobs disk₀ pool gs) (hnot : ¬ pool.Ended i)
    (hkind : (jobs i).OwnsFile) (hnone : (gs i).path = none) (hpath : path ≠ "")
    (hunused : pool.world.made path = none) (hfree : pool.shared path = none)
    (hp : p.Settled ownFile FileReturns FileRaises
      ⟨jobs i, pool.shared.create path, some path, none, false⟩) :
    TempValid jobs disk₀
      (pool.run (tempPool jobs) i
        { pool.world with made := Function.update pool.world.made path (some i) }
        (pool.shared.create path) p)
      (Function.update gs i ⟨jobs i, pool.shared.create path, some path, none, false⟩) := by
  have hsettled : TaskFile jobs (pool.run (tempPool jobs) i
        { pool.world with made := Function.update pool.world.made path (some i) }
        (pool.shared.create path) p) ⟨jobs i, pool.shared.create path, some path, none, false⟩ i
      ∧ ∀ other, some path ≠ some other → (p.state?.getD (pool.shared.create path)) other
        = pool.shared.create path other := by
    refine taskFile_settled hnot rfl hkind ?_ nofun hp
    rintro _ ⟨⟩
    refine ⟨hpath, fun hdeleted => ?_⟩
    obtain ⟨j, hreturned⟩ := h.deleted path hdeleted
    cases hunused.symm.trans ((h.made path j).mpr ((h.tasks j).kept path hreturned).1)
  obtain ⟨hown, hlast⟩ := hsettled
  refine h.runOwn hnot hkind rfl (fun other hother => ?_) (fun other j => ?_) ?_
    (fun other => ⟨.inl, fun hl => hl.elim id fun hnew => nomatch hnew.2⟩) (fun other hother => ?_)
    hown
  · cases hnone.symm.trans hother
  · show Function.update pool.world.made path (some i) other = some j ↔ _
    by_cases hj : j = i
    · rw [hj, Function.update_self]
      by_cases hother : other = path
      · simp [hother]
      · rw [Function.update_of_ne hother, h.made, hnone]
        simp [Ne.symm hother]
    · rw [Function.update_of_ne hj, ← h.made]
      by_cases hother : other = path
      · simp [hother, hunused, Ne.symm hj]
      · rw [Function.update_of_ne hother]
  · rintro _ ⟨⟩
    exact ⟨hpath, (h.others path hunused).symm.trans hfree⟩
  · rw [hlast other hother]
    exact Disk.create_onlyAt other fun heq => hother (by rw [heq])

/-- A task begins. -/
lemma TempValid.start (h : TempValid jobs disk₀ pool gs) (hnew : pool.tasks i = none)
    {x : Files (Option String)} (hx : (tempPool jobs).starts pool i x)
    (hp : p.Settled ownFile FileReturns FileRaises (.start (jobs i) pool.shared)) :
    TempValid jobs disk₀ (pool.run (tempPool jobs) i pool.world pool.shared p)
      (Function.update gs i (.start (jobs i) pool.shared)) := by
  obtain ⟨-, hallowed⟩ := hx
  by_cases hkind : (jobs i).OwnsFile
  · exact h.without (FilePool.not_ended_of_none hnew) hkind rfl ((h.tasks i).fresh hnew) rfl rfl hp
  · -- a task without a file, which ends at once
    have hreturned : ∀ path, (jobs i).Deletes path → ∃ j, pool.Returned j path := by
      intro path hdeletes
      cases hjob : jobs i with
      | save | block | reopen =>
          rw [hjob] at hdeletes
          exact hdeletes.elim
      | delete other faults =>
          rw [hjob] at hdeletes hallowed
          obtain rfl : other = path := hdeletes
          exact hallowed
    cases p with
    | spent => exact hp.elim
    | await c s k => exact absurd hp.2.2.1 hkind
    | done r s =>
        cases r with
        | error e =>
            rcases hp with ⟨raised, rfl, -, rfl⟩ | ⟨-, howns, -⟩
            · exact h.runFault hnew hreturned _
            · exact absurd howns hkind
        | ok token =>
            obtain ⟨-, hp⟩ := hp
            cases hjob : jobs i with
            | save | block => exact absurd (by rw [hjob]; trivial) hkind
            | delete path faults =>
                simp only [FileSeen.start, hjob] at hp hallowed
                obtain ⟨rfl, -, rfl⟩ := hp
                obtain ⟨j, hreturned⟩ := hallowed
                rw [← hjob]
                exact h.runDelete hnew hjob hreturned
            | reopen path =>
                simp only [FileSeen.start, hjob] at hp hallowed
                obtain ⟨rfl, -, rfl⟩ := hp
                rw [← hjob]
                exact h.runReopen hnew hjob hallowed

/-- A task goes on with its file, which is not opened without it. -/
lemma TempValid.works (h : TempValid jobs disk₀ pool gs) (hnot : ¬ pool.Ended i)
    (hkind : (jobs i).OwnsFile) (hlate : (gs i).late = false) (hpath : (gs i).path = some path)
    (hdisk : Disk.OnlyAt path pool.shared disk) {written : Option (List UInt8)}
    (hwritten : ∀ content, written = some content → disk path = some content)
    (hp : p.Settled ownFile FileReturns FileRaises
      { gs i with seen := disk, written := written }) :
    TempValid jobs disk₀ (pool.run (tempPool jobs) i pool.world disk p)
      (Function.update gs i { gs i with seen := disk, written := written }) := by
  refine h.goesOn hnot hkind rfl hpath hpath rfl (fun other => ?_) rfl hdisk hwritten hp
  show _ ↔ _ ∨ _ ∧ (gs i).late = true
  simp [hlate]

/-- What was awaited is there: the contract tells what the task knows then. -/
lemma TempValid.resume (h : TempValid jobs disk₀ pool gs) {c : FileCommand} {s : Disk}
    {k : Except Raised c.Answer → Disk → Program fileSig (Option String)}
    {r : Except Raised c.Answer} (htask : pool.tasks i = some (.await c s k))
    (hmay : ownFile.may (gs i) s c) (hanswer : (tempPool jobs).answers pool i c r w disk) :
    ∃ g', ownFile.env (gs i) s c r g' disk
      ∧ ∀ p, Program.Settled ownFile FileReturns FileRaises g' p →
        TempValid jobs disk₀ (pool.run (tempPool jobs) i w disk p) (Function.update gs i g') := by
  have hnot : ¬ FilePool.Ended pool i := by
    rintro ⟨r', s', hdone⟩
    exact Pool.ne_done_of_await htask r' s' hdone
  obtain ⟨-, hlate, hkind, hpath⟩ := hmay
  rw [h.job] at hkind
  cases c with
  | mkstemp suffix =>
      obtain ⟨e, rfl, rfl, rfl⟩ | ⟨path, rfl, hname, hsuffix, hunused, hfree, rfl, rfl⟩ := hanswer
      · refine ⟨{ gs i with seen := pool.shared }, .inl ⟨e, rfl, rfl⟩, fun p hp => ?_⟩
        exact h.without hnot hkind (h.job i) hpath hpath rfl hp
      · refine ⟨⟨(gs i).job, pool.shared.create path, some path, none, false⟩,
          .inr ⟨path, rfl, hsuffix, rfl⟩, fun p hp => ?_⟩
        rw [h.job] at hp ⊢
        exact h.gets hnot hkind hpath hname hunused hfree hp
  | openFile path =>
      cases r with
      | ok a =>
          obtain ⟨rfl, rfl⟩ := hanswer
          exact ⟨{ gs i with seen := pool.shared.create path, written := none }, rfl, fun p hp =>
            h.works hnot hkind hlate hpath Disk.create_onlyAt nofun hp⟩
      | error e =>
          cases e with
          | exception e =>
              obtain ⟨rfl, rfl⟩ := hanswer
              exact ⟨{ gs i with seen := pool.shared, written := none }, rfl, fun p hp =>
                h.works hnot hkind hlate hpath Disk.onlyAt_self nofun hp⟩
          | cancelled =>
              obtain ⟨hdisk, hw⟩ := hanswer
              have hdisk : Disk.OnlyAt path pool.shared disk := by
                rcases hdisk with rfl | rfl
                · exact Disk.onlyAt_self
                · exact Disk.create_onlyAt
              rcases hw with rfl | rfl
              · refine ⟨{ gs i with seen := disk, written := none }, ⟨false, ?_⟩, fun p hp =>
                  h.works hnot hkind hlate hpath hdisk nofun hp⟩
                rw [← hlate]
              · -- the thread goes on
                refine ⟨{ gs i with seen := disk, written := none, late := true }, ⟨true, rfl⟩,
                  fun p hp => ?_⟩
                refine h.goesOn hnot hkind rfl hpath hpath rfl (fun other => ?_) rfl hdisk nofun hp
                show Function.update pool.world.late path true other = true ↔ _
                by_cases hother : other = path
                · simp [hother, hpath]
                · simp [hother, hpath, Ne.symm hother]
  | write path content =>
      obtain ⟨rfl, hdisk, hok⟩ := hanswer
      cases r with
      | ok a =>
          refine ⟨{ gs i with seen := disk, written := some content }, rfl, fun p hp =>
            h.works hnot hkind hlate hpath hdisk ?_ hp⟩
          rintro _ ⟨⟩
          exact hok rfl
      | error e =>
          exact ⟨{ gs i with seen := disk, written := none }, rfl, fun p hp =>
            h.works hnot hkind hlate hpath hdisk nofun hp⟩
  | closeFile path =>
      obtain ⟨rfl, hdisk, hok⟩ := hanswer
      cases r with
      | ok a =>
          refine ⟨{ gs i with seen := disk }, rfl, fun p hp =>
            h.works hnot hkind hlate hpath hdisk (fun content hcontent => ?_) hp⟩
          exact (hok rfl).trans ((h.tasks i).written hnot path content hpath hcontent)
      | error e =>
          exact ⟨{ gs i with seen := disk, written := none }, rfl, fun p hp =>
            h.works hnot hkind hlate hpath hdisk nofun hp⟩
  | block path =>
      obtain ⟨rfl, hdisk⟩ := hanswer
      exact ⟨{ gs i with seen := disk, written := none }, rfl, fun p hp =>
        h.works hnot hkind hlate hpath hdisk nofun hp⟩

end Run

/-- The invariant holds in every pool that is reached, and every task keeps the contract. -/
lemma tempValid_of_reachable (h : (tempPool jobs).Reachable (.init ι) disk₀ pool) :
    ∃ gs, TempValid jobs disk₀ pool gs ∧ ∀ i p, pool.tasks i = some p →
      p.wp ownFile FileReturns FileRaises (gs i) := by
  refine h.invariant ?_ ?_ ?_ nofun
  · refine ⟨fun i => .start (jobs i) disk₀, fun _ => rfl, fun _ _ => ⟨nofun, nofun⟩, nofun,
      fun _ _ => rfl, nofun, ?_, fun i => ⟨fun _ => rfl, nofun, fun _ => nofun, fun _ => nofun, ?_⟩⟩
    · rintro path ⟨i, token, disk, -, ⟨⟩⟩
    · rintro path ⟨disk, ⟨⟩⟩
  · intro pool gs i x hpool hnew hx
    refine ⟨.start (jobs i) pool.shared, ?_, fun p hp => hpool.start hnew hx hp⟩
    obtain ⟨rfl, -⟩ := hx
    exact (jobs i).run_ownFile
  · intro pool gs i c s k r w disk hpool htask hmay hanswer
    exact hpool.resume htask hmay hanswer

/-- **No temporary file is lost or left.**  Calls of `save_temp`, blocks with `temp_file`, calls of
`delete_temp` with what `save_temp` has returned, and threads that go on opening a file after its
call was cancelled run in any interleaving, with any failures and cancellations.  What was on the
disk before stays as it was.  What `save_temp` returns has the suffix and holds the content until it
is deleted.  A new file that is on the disk belongs to a task that has not ended, or was returned,
or an `os.close` or `os.remove` of its task raised, or its call was cancelled while a thread was
opening it.  So when all tasks have ended, what was returned was deleted, none of these system calls
raised and no opening was left behind, the disk is as it was. -/
theorem temp_files_kept (h : (tempPool jobs).Reachable (.init ι) disk₀ pool) :
    (∀ path, (disk₀ path).isSome = true → pool.shared path = disk₀ path)
      ∧ (∀ i path, pool.Returned i path → pool.Kept jobs i path)
      ∧ (∀ path, pool.shared path ≠ disk₀ path → ∃ i, pool.world.made path = some i
          ∧ (¬ pool.Ended i ∨ pool.Returned i path ∨ pool.Faulted jobs i
            ∨ pool.world.late path = true
              ∧ ∃ disk, pool.tasks i = some (.done (.error .cancelled) disk)))
      ∧ ((∀ i, pool.tasks i ≠ none → pool.Ended i) →
          (∀ i path, pool.Returned i path → pool.Deleted jobs path) →
          (∀ i, ¬ pool.Faulted jobs i) →
          (∀ path, pool.world.late path = false) → pool.shared = disk₀) := by
  obtain ⟨gs, hvalid, hkeep⟩ := tempValid_of_reachable h
  have hchanged : ∀ path, pool.shared path ≠ disk₀ path →
      ∃ i, pool.world.made path = some i ∧ (gs i).path = some path
        ∧ (pool.shared path).isSome = true := by
    intro path hne
    cases hmade : pool.world.made path with
    | none => exact absurd (hvalid.others path hmade) hne
    | some i =>
        refine ⟨i, rfl, (hvalid.made path i).mp hmade, ?_⟩
        rw [(hvalid.named path i hmade).2] at hne
        exact Option.isSome_iff_ne_none.mpr hne
  refine ⟨fun path hsome => ?_, fun i path hreturned => ((hvalid.tasks i).kept path hreturned).2.2,
    fun path hne => ?_, fun hended hdeleted hfaultless hlate => funext fun path => ?_⟩
  · by_contra hne
    obtain ⟨i, hmade, -⟩ := hchanged path hne
    rw [(hvalid.named path i hmade).2] at hsome
    cases hsome
  · obtain ⟨i, hmade, hpath, hsome⟩ := hchanged path hne
    refine ⟨i, hmade, ?_⟩
    by_cases hended : pool.Ended i
    · rcases (hvalid.tasks i).left hended path hpath hsome with hlate | hreturned | hfaulted
      · obtain ⟨j, hj, hg⟩ := hvalid.late path hlate
        obtain rfl := Option.some.inj (hmade.symm.trans ((hvalid.made path j).mpr hj))
        obtain ⟨r, disk, htask⟩ := hended
        have hwp := hkeep i _ htask
        cases r with
        | ok token => cases hg.symm.trans hwp.1
        | error e =>
            rcases hwp with ⟨raised, rfl, hfault, -⟩ | ⟨hcancelled, -, -⟩
            · rw [hvalid.job] at hfault
              exact .inr (.inr (.inl ⟨raised, disk, hfault, htask⟩))
            · obtain rfl := hcancelled hg
              exact .inr (.inr (.inr ⟨hlate, disk, htask⟩))
      · exact .inr (.inl hreturned)
      · exact .inr (.inr (.inl hfaulted))
    · exact .inl hended
  · by_contra hne
    obtain ⟨i, hmade, hpath, hsome⟩ := hchanged path hne
    have hended : pool.Ended i := hended i fun hnone => by
      cases hpath.symm.trans ((hvalid.tasks i).fresh hnone)
    rcases (hvalid.tasks i).left hended path hpath hsome with hl | hreturned | hfaulted
    · cases (hlate path).symm.trans hl
    · obtain ⟨content, suffix, faults, -, -, -, hgone⟩ :=
        ((hvalid.tasks i).kept path hreturned).2.2
      rw [hgone (hdeleted i path hreturned)] at hsome
      cases hsome
    · exact hfaultless i hfaulted

end Invariant

/-! ## Runs -/

section Runs

variable {jobs : ι → FileJob} {pool : FilePool ι} {disk₀ : Disk}

/-- What was awaited is there. -/
lemma filePool_goesOn (h : (tempPool jobs).Reachable (.init ι) disk₀ pool) (i : ι) (c : FileCommand)
    (r : Except Raised c.Answer) (w : TempNames ι) (disk : Disk) {s : Disk}
    {k : Except Raised c.Answer → Disk → Program fileSig (Option String)}
    (htask : pool.tasks i = some (.await c s k))
    (hanswer : (tempPool jobs).answers pool i c r w disk) :
    (tempPool jobs).Reachable (.init ι) disk₀ (pool.run (tempPool jobs) i w disk (k r disk)) :=
  h.step (.resume pool i c s k r w disk htask hanswer)

end Runs

/-- A file that is saved and deleted. -/
def saveAndDelete : Bool → FileJob
  | false => .save [104, 105] ".txt" {}
  | true => .delete "/tmp/a.txt" {}

lemma saveAndDelete_saved : ∃ (pool : FilePool Bool) (disk : Disk),
    (tempPool saveAndDelete).Reachable (.init Bool) (fun _ => none) pool
      ∧ pool.tasks false = some (.done (.ok (some "/tmp/a.txt")) disk) ∧ pool.tasks true = none
      ∧ ∀ path, pool.world.late path = false := by
  have h0 : (tempPool saveAndDelete).Reachable (.init Bool) (fun _ => none) _ := .init
  have h1 := h0.step (.start _ false _ rfl ⟨rfl, trivial⟩)
  have h2 := filePool_goesOn h1 false (.mkstemp ".txt") (.ok "/tmp/a.txt") _ _
    (by with_unfolding_all rfl)
    (.inr ⟨"/tmp/a.txt", rfl, by decide, by decide, rfl, rfl, rfl, rfl⟩)
  have h3 := filePool_goesOn h2 false (.openFile "/tmp/a.txt") (.ok ()) _ _
    (by with_unfolding_all rfl) ⟨rfl, rfl⟩
  have hwritten : ∀ disk : Disk, Disk.OnlyAt "/tmp/a.txt" disk
      (Function.update disk "/tmp/a.txt" (some [104, 105])) :=
    fun disk other hother => Function.update_of_ne hother ..
  have h4 := filePool_goesOn h3 false (.write "/tmp/a.txt" [104, 105]) (.ok ()) _ _
    (by with_unfolding_all rfl) ⟨rfl, hwritten _, fun _ => Function.update_self ..⟩
  have h5 := filePool_goesOn h4 false (.closeFile "/tmp/a.txt") (.ok ()) _ _
    (by with_unfolding_all rfl) ⟨rfl, Disk.onlyAt_self, fun _ => rfl⟩
  exact ⟨_, _, h5, Pool.run_self, by with_unfolding_all rfl, fun _ => rfl⟩

/-- Without a fault the file is deleted. -/
lemma saveAndDelete_deletes (disk : Disk) : (saveAndDelete true).run disk
    = .done (.ok none) (disk.remove "/tmp/a.txt") := by
  have hdelete : deleteTemp {} "/tmp/a.txt" disk = .done (.ok ()) (disk.remove "/tmp/a.txt") := by
    show (if _ then _ else _ : Files Unit) disk = _
    rw [Disk.remove]
    split_ifs <;> rfl
  show Program.andThen (deleteTemp {} "/tmp/a.txt" disk) _ = _
  rw [hdelete]
  rfl

/-- The file was returned and deleted, and the disk is as it was. -/
theorem temp_files_kept_deleted : ∃ pool : FilePool Bool,
    (tempPool saveAndDelete).Reachable (.init Bool) (fun _ => none) pool
      ∧ pool.Returned false "/tmp/a.txt" ∧ pool.shared = fun _ => none := by
  obtain ⟨pool, disk, h, hsaved, hnew, hlate⟩ := saveAndDelete_saved
  have hdelete := h.step (.start pool true _ hnew ⟨rfl, false, disk, hsaved⟩)
  have hdeletes := congrArg some (saveAndDelete_deletes pool.shared)
  refine ⟨_, hdelete, ⟨disk, (Pool.run_of_ne (by decide)).trans hsaved⟩, ?_⟩
  refine (temp_files_kept hdelete).2.2.2 (fun i _ => ?_) (fun i path hreturned => ?_) (fun i => ?_)
    hlate
  · cases i with
    | false => exact ⟨_, disk, (Pool.run_of_ne (by decide)).trans hsaved⟩
    | true => exact ⟨_, _, Pool.run_self.trans hdeletes⟩
  · refine ⟨true, none, _, ?_, Pool.run_self.trans hdeletes⟩
    obtain ⟨disk', htask⟩ := hreturned
    cases i with
    | false =>
        rw [Pool.run_of_ne (by decide)] at htask
        cases hsaved.symm.trans htask
        rfl
    | true => cases (Pool.run_self.trans hdeletes).symm.trans htask
  · rintro ⟨e, disk', hfault, -⟩
    cases i with
    | false => exact hfault.elim nofun nofun
    | true => cases hfault

/-- A call whose file is opened when it was cancelled. -/
def saveAndReopen : Bool → FileJob
  | false => .save [104, 105] ".txt" {}
  | true => .reopen "/tmp/a.txt"

/-- **A file that is left.**  The call is cancelled while a thread opens its file: it deletes the
file, and the thread makes it again. -/
theorem temp_file_left : ∃ (pool : FilePool Bool) (disk : Disk),
    (tempPool saveAndReopen).Reachable (.init Bool) (fun _ => none) pool
      ∧ pool.tasks false = some (.done (.error .cancelled) disk)
      ∧ pool.shared "/tmp/a.txt" = some [] := by
  have h0 : (tempPool saveAndReopen).Reachable (.init Bool) (fun _ => none) _ := .init
  have h1 := h0.step (.start _ false _ rfl ⟨rfl, trivial⟩)
  have h2 := filePool_goesOn h1 false (.mkstemp ".txt") (.ok "/tmp/a.txt") _ _
    (by with_unfolding_all rfl)
    (.inr ⟨"/tmp/a.txt", rfl, by decide, by decide, rfl, rfl, rfl, rfl⟩)
  have h3 := filePool_goesOn h2 false (.openFile "/tmp/a.txt") (.error .cancelled) _ _
    (by with_unfolding_all rfl) ⟨.inl rfl, .inr rfl⟩
  have h4 := h3.step (.start _ true _ (by with_unfolding_all rfl)
    ⟨rfl, by with_unfolding_all rfl⟩)
  exact ⟨_, _, h4, by with_unfolding_all rfl, by with_unfolding_all rfl⟩

end Atsig
