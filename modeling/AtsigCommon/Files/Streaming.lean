import Mathlib.Algebra.Order.Ring.Int
import Mathlib.Data.List.Basic

/-!
# A file in chunks

`iter_file` is a generator: its code runs between two calls of `next`, and what is closed, or is
thrown into, before the first `next` never runs at all.

* `iterFile` — one call of a method of the generator.
* `ChunksValid` — the invariant.
* `chunks_exact` — what was yielded is the beginning of the file in full chunks, the whole file if
  the generator has come to its end; and the file is closed exactly if the generator has begun and
  has ended, in whichever way.
-/

namespace Atsig

/-- A file, with what is left to read of it. -/
structure OpenFile where
  rest : List UInt8
  closed : Bool

namespace OpenFile

/-- How much `file.read(size)` asks for: everything, if the size is negative. -/
def wanted (file : OpenFile) (size : ℤ) : ℕ := if size < 0 then file.rest.length else size.toNat

/-- `file.read(size)` -/
def read (file : OpenFile) (size : ℤ) : List UInt8 × OpenFile :=
  (file.rest.take (file.wanted size), { file with rest := file.rest.drop (file.wanted size) })

/-- `file.close()` -/
def close (file : OpenFile) : OpenFile := { file with closed := true }

end OpenFile

/-- Where a generator is: before its first line, at a `yield`, or at its end. -/
inductive GeneratorPoint
  | created
  | suspended
  | finished
  deriving DecidableEq

/-- The generator, what it has yielded, and whether it has come to its end by itself. -/
structure IterFile where
  file : OpenFile
  point : GeneratorPoint
  chunks : List (List UInt8)
  whole : Bool

/-- `iter_file(file)` -/
def IterFile.start (content : List UInt8) : IterFile := ⟨⟨content, false⟩, .created, [], false⟩

/-- What is called: `next`, where the reading can fail, or `close` or `throw`. -/
inductive IterCall
  | next (fails : Bool)
  | close
  | throw

/-- `finally: file.close()` -/
def IterFile.finish (gen : IterFile) : IterFile :=
  { gen with file := gen.file.close, point := .finished }

/-- `while chunk := file.read(chunk_size): yield chunk` -/
def IterFile.goOn (gen : IterFile) (size : ℤ) : IterFile :=
  let (chunk, file) := gen.file.read size
  if chunk = [] then { gen with file := file, whole := true }.finish
  else { gen with file := file, point := .suspended, chunks := gen.chunks ++ [chunk] }

/-- `close` or `throw`: only at a `yield` is there a `finally` to run. -/
def IterFile.stop (gen : IterFile) : IterFile :=
  match gen.point with
  | .created => { gen with point := .finished }
  | .suspended => gen.finish
  | .finished => gen

/-- A call of a method of the generator. -/
def iterFile (size : ℤ) (gen : IterFile) : IterCall → IterFile
  | .next fails =>
      if gen.point = .finished then gen
      else if fails then gen.finish
      else gen.goOn size
  | .close | .throw => gen.stop

/-- The invariant: nothing is lost or made up, the chunks are full as long as something is left, and
the file is closed at the end. -/
structure ChunksValid (content : List UInt8) (size : ℤ) (gen : IterFile) : Prop where
  content : gen.chunks.flatten ++ gen.file.rest = content
  nonempty : ∀ chunk ∈ gen.chunks, chunk ≠ []
  full : ∀ chunk ∈ gen.chunks.dropLast, 0 ≤ size → (chunk.length : ℤ) = size
  last : ∀ chunk ∈ gen.chunks, 0 ≤ size → chunk.length ≤ size
    ∧ (gen.file.rest ≠ [] → (chunk.length : ℤ) = size)
  whole : gen.whole = true → gen.point = .finished ∧ (size ≠ 0 → gen.file.rest = [])
  opened : gen.point ≠ .finished → gen.file.closed = false

section Steps

variable {content : List UInt8} {size : ℤ} {gen : IterFile}

lemma ChunksValid.start : ChunksValid content size (.start content) := by
  refine ⟨rfl, ?_, ?_, ?_, nofun, fun _ => rfl⟩ <;> simp [IterFile.start]

lemma ChunksValid.finish (h : ChunksValid content size gen) :
    ChunksValid content size gen.finish :=
  ⟨h.content, h.nonempty, h.full, h.last, fun hwhole => ⟨rfl, (h.whole hwhole).2⟩,
    fun hpoint => absurd rfl hpoint⟩

/-- What is read, and how long it is. -/
lemma OpenFile.read_length (file : OpenFile) (hsize : 0 ≤ size) :
    ((file.read size).1.length : ℤ) ≤ size
      ∧ ((file.read size).2.rest ≠ [] → ((file.read size).1.length : ℤ) = size) := by
  have hwanted : file.wanted size = size.toNat := if_neg (not_lt.mpr hsize)
  simp only [read, hwanted, List.length_take]
  refine ⟨by omega, fun hrest => ?_⟩
  rw [ne_eq, List.drop_eq_nil_iff] at hrest
  omega

lemma OpenFile.read_append (file : OpenFile) :
    (file.read size).1 ++ (file.read size).2.rest = file.rest := List.take_append_drop ..

/-- Nothing is read only at the end of the file, or if nothing is asked for. -/
lemma OpenFile.read_eq_nil (file : OpenFile) (hsize : size ≠ 0) (h : (file.read size).1 = []) :
    file.rest = [] := by
  simp only [read, wanted, List.take_eq_nil_iff] at h
  rcases h with h | h
  · split at h
    · exact List.length_eq_zero_iff.mp h
    · omega
  · exact h

/-- The next chunk. -/
lemma ChunksValid.goOn (h : ChunksValid content size gen) (hpoint : gen.point ≠ .finished) :
    ChunksValid content size (gen.goOn size) := by
  have happend : (gen.file.read size).1 ++ (gen.file.read size).2.rest = gen.file.rest :=
    gen.file.read_append
  simp only [IterFile.goOn]
  split_ifs with hchunk
  · rw [hchunk, List.nil_append] at happend
    refine ⟨(congrArg _ happend).trans h.content, h.nonempty, h.full, fun chunk hmem => ?_,
      fun _ => ⟨rfl, fun hsize => ?_⟩, fun hfinished => absurd rfl hfinished⟩
    · exact happend.symm ▸ h.last chunk hmem
    · exact happend.trans (gen.file.read_eq_nil hsize hchunk)
  · have hrest : gen.file.rest ≠ [] := by
      rw [← happend]
      exact fun heq => hchunk (List.append_eq_nil_iff.mp heq).1
    have hfull : ∀ chunk ∈ gen.chunks, 0 ≤ size → (chunk.length : ℤ) = size :=
      fun chunk hmem hsize => (h.last chunk hmem hsize).2 hrest
    refine ⟨?_, fun chunk hmem => ?_, fun chunk hmem => ?_, fun chunk hmem hsize => ?_,
      fun hwhole => absurd (h.whole hwhole).1 hpoint, fun _ => h.opened hpoint⟩
    · simp only [List.flatten_append, List.flatten_singleton, List.append_assoc, happend]
      exact h.content
    · rcases List.mem_append.mp hmem with hold | hnew
      · exact h.nonempty chunk hold
      · rwa [List.mem_singleton.mp hnew]
    · rw [List.dropLast_concat] at hmem
      exact hfull chunk hmem
    · rcases List.mem_append.mp hmem with hold | hnew
      · exact ⟨(hfull chunk hold hsize).le, fun _ => hfull chunk hold hsize⟩
      · rw [List.mem_singleton.mp hnew]
        exact gen.file.read_length hsize

lemma ChunksValid.stop (h : ChunksValid content size gen) : ChunksValid content size gen.stop := by
  rw [IterFile.stop]
  split
  · exact ⟨h.content, h.nonempty, h.full, h.last, fun hwhole => ⟨rfl, (h.whole hwhole).2⟩,
      fun hpoint => absurd rfl hpoint⟩
  · exact h.finish
  · exact h

/-- **A call keeps the invariant.** -/
lemma ChunksValid.step (h : ChunksValid content size gen) (call : IterCall) :
    ChunksValid content size (iterFile size gen call) := by
  cases call with
  | next fails =>
      rw [iterFile]
      split_ifs with hpoint hfails
      · exact h
      · exact h.finish
      · exact h.goOn hpoint
  | close => exact h.stop
  | throw => exact h.stop

/-- All calls. -/
lemma ChunksValid.run (h : ChunksValid content size gen) (calls : List IterCall) :
    ChunksValid content size (calls.foldl (iterFile size) gen) := by
  induction calls generalizing gen with
  | nil => exact h
  | cons call calls ih => exact ih (h.step call)

/-- The generator has begun: the file is closed at its end, and only there. -/
def IterFile.Begun (gen : IterFile) : Prop :=
  gen.point ≠ .created ∧ (gen.file.closed = true ↔ gen.point = .finished)

lemma IterFile.begun_finish : gen.finish.Begun := ⟨nofun, iff_of_true rfl rfl⟩

lemma IterFile.begun_goOn (h : gen.file.closed = false) : (gen.goOn size).Begun := by
  simp only [goOn]
  split_ifs
  · exact begun_finish
  · exact ⟨nofun, iff_of_false (by simp [OpenFile.read, h]) nofun⟩

lemma IterFile.Begun.step (h : gen.Begun) (call : IterCall) : (iterFile size gen call).Begun := by
  have hstop : gen.stop.Begun := by
    rw [stop]
    split
    · next hpoint => exact absurd hpoint h.1
    · exact begun_finish
    · exact h
  cases call with
  | next fails =>
      rw [iterFile]
      split_ifs with hpoint hfails
      · exact h
      · exact begun_finish
      · exact begun_goOn (by simpa [hpoint] using h.2)
  | close => exact hstop
  | throw => exact hstop

lemma IterFile.Begun.run (h : gen.Begun) (calls : List IterCall) :
    (calls.foldl (iterFile size) gen).Begun := by
  induction calls generalizing gen with
  | nil => exact h
  | cons call calls ih => exact ih (h.step call)

/-- What has ended stays as it is. -/
lemma IterFile.run_finished (h : gen.point = .finished) (calls : List IterCall) :
    calls.foldl (iterFile size) gen = gen := by
  induction calls with
  | nil => rfl
  | cons call calls ih =>
      have hsame : iterFile size gen call = gen := by
        cases call <;> simp [iterFile, stop, h]
      rw [List.foldl_cons, hsame]
      exact ih

end Steps

/-- **The chunks of a file.**  Whatever calls are made on the generator, and wherever a reading
fails: what it has yielded is the beginning of the file, in chunks that are not empty and, but for
the last, as long as was asked for; it is the whole file if the generator came to its end.  The file
is closed if and only if the generator has ended and the first call was `next`: one that is closed,
or dropped, before its first chunk leaves the file open. -/
theorem chunks_exact (content : List UInt8) (size : ℤ) (calls : List IterCall) :
    let gen := calls.foldl (iterFile size) (.start content)
    gen.chunks.flatten ++ gen.file.rest = content
      ∧ (gen.whole = true → size ≠ 0 → gen.chunks.flatten = content)
      ∧ (∀ chunk ∈ gen.chunks, chunk ≠ [] ∧ (0 ≤ size → chunk.length ≤ size))
      ∧ (∀ chunk ∈ gen.chunks.dropLast, 0 ≤ size → (chunk.length : ℤ) = size)
      ∧ (gen.file.closed = true
          ↔ gen.point = .finished ∧ ∃ fails rest, calls = .next fails :: rest) := by
  intro gen
  have hvalid : ChunksValid content size gen := ChunksValid.start.run calls
  refine ⟨hvalid.content, fun hwhole hsize => ?_, fun chunk hmem => ?_, hvalid.full, ?_⟩
  · have hcontent := hvalid.content
    rwa [(hvalid.whole hwhole).2 hsize, List.append_nil] at hcontent
  · exact ⟨hvalid.nonempty chunk hmem, fun hsize => (hvalid.last chunk hmem hsize).1⟩
  · cases calls with
    | nil => exact iff_of_false nofun (fun h => nomatch h.1)
    | cons call calls =>
        cases call with
        | next fails =>
            have hbegun : gen.Begun := by
              refine IterFile.Begun.run ?_ calls
              cases fails with
              | true => exact IterFile.begun_finish
              | false => exact IterFile.begun_goOn rfl
            rw [hbegun.2]
            exact ⟨fun h => ⟨h, fails, calls, rfl⟩, And.left⟩
        | close =>
            have hgen : gen = { IterFile.start content with point := .finished } :=
              IterFile.run_finished rfl calls
            rw [hgen]
            exact iff_of_false nofun fun h => nomatch h.2
        | throw =>
            have hgen : gen = { IterFile.start content with point := .finished } :=
              IterFile.run_finished rfl calls
            rw [hgen]
            exact iff_of_false nofun fun h => nomatch h.2

/-- A generator that is closed after its first chunk. -/
def oneChunk : IterFile := [IterCall.next false, .close].foldl (iterFile 3) (.start [1, 2, 3, 4])

/-- It has closed the file. -/
theorem chunks_exact_abandoned : oneChunk.chunks = [[1, 2, 3]] ∧ oneChunk.file.closed = true :=
  ⟨rfl, (chunks_exact [1, 2, 3, 4] 3 [.next false, .close]).2.2.2.2.mpr ⟨rfl, false, _, rfl⟩⟩

end Atsig
