import ApiHeaders.Sink
import ApiHeaders.Source

/-!
# Disks

A disk is read and written by actions. What is done with one can be followed on a value, by taking
a source and a sink for the disk.

## Main definitions

* `Disk` is a disk.
* `Disk.gather` reads files, `Disk.commit` writes files until one cannot be written.
* `Disk.ofSink` is a disk whose contents are a value.

## Main statements

* `Disk.gather_ofSink` says that reading files from such a disk gives their texts and leaves it as
  it is.
* `Disk.commit_ofSink` says that writing files to it commits them to its sink.
-/

namespace ApiHeaders

/-- How files are read and written. -/
structure Disk (m : Type → Type) where
  read : Path → m (Except FileFault String)
  write : Path → String → m (Except Error Unit)

namespace Disk

variable {m : Type → Type} [Monad m]

/-- Reads files, as a source for their texts. -/
def gather (disk : Disk m) (paths : List Path) : m Source := do
  let texts ← paths.mapM fun p => do return (p.components, ← disk.read p)
  return fun p => (texts.lookup p.components).getD (.error .notFound)

/-- Writes files, in order, until one cannot be written. -/
def commit (disk : Disk m) : List NamedFile → m (Except Error Unit)
  | [] => return .ok ()
  | f :: fs => do
    match ← disk.write f.path f.text with
    | .ok () => disk.commit fs
    | .error e => return .error e

/-- A disk whose contents are a value. -/
def ofSink (source : σ → Source) (sink : Sink σ) : Disk (StateM σ) where
  read path := fun s => (source s path, s)
  write path text := fun s => sink.write s path text

theorem gather_ofSink (source : σ → Source) (sink : Sink σ) (paths : List Path) (s : σ) :
    (ofSink source sink).gather paths s =
      (fun p => ((paths.map fun p => (p.components, source s p)).lookup p.components).getD
        (.error .notFound), s) := by
  have htexts : (paths.mapM fun p => do
      return (p.components, ← (ofSink source sink).read p) : StateM σ _) s =
        (paths.map fun p => (p.components, source s p), s) := by
    induction paths with
    | nil => rfl
    | cons p ps ih =>
      rw [List.mapM_cons]
      exact congrArg (fun rest => ((p.components, source s p) :: rest.1, rest.2)) ih
  simp only [gather, bind, StateT.bind] at htexts ⊢
  rw [htexts]
  rfl

theorem commit_ofSink (source : σ → Source) (sink : Sink σ) (files : List NamedFile) (s : σ) :
    (ofSink source sink).commit files s = ApiHeaders.commit sink files s := by
  induction files generalizing s with
  | nil => rfl
  | cons f fs ih =>
    cases h : sink.write s f.path f.text with
    | mk r t =>
      have hw : (ofSink source sink).write f.path f.text s = (r, t) := h
      cases r with
      | ok =>
        simp only [commit, ApiHeaders.commit, bind, StateT.bind, hw, h]
        exact ih t
      | error =>
        simp only [commit, ApiHeaders.commit, bind, StateT.bind, hw, h]
        rfl

end Disk

end ApiHeaders
