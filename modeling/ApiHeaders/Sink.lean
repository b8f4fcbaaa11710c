import ApiHeaders.Error
import ApiHeaders.Table

/-!
# Where files go

Rendering hands finished files to a sink and touches no file system itself. A run stages its files
and commits them once nothing has failed.

## Main definitions

* `Sink` takes files one by one and may refuse some.
* `Staged` holds files in the order in which they were first written.
* `commit` hands files to a sink until it refuses one.
-/

namespace ApiHeaders

/-- A file with its path. -/
structure NamedFile where
  path : Path
  text : String
  deriving DecidableEq, Repr, Inhabited

/-- A destination of files, whose state is a value of `σ`. -/
structure Sink (σ : Type) where
  write : σ → Path → String → Except Error Unit × σ

/-- Hands files to a sink, in order, until it refuses one. -/
def commit (sink : Sink σ) (files : List NamedFile) (s : σ) : Except Error Unit × σ :=
  match files with
  | [] => (.ok (), s)
  | f :: fs =>
    match sink.write s f.path f.text with
    | (.ok (), s) => commit sink fs s
    | (.error e, s) => (.error e, s)

/-- Files held in memory. A file that is written again keeps its place and the first spelling of its
path. -/
abbrev Staged := Table (List Component) NamedFile

namespace Staged

def write (s : Staged) (path : Path) (text : String) : Staged :=
  s.upsert path.components fun old => ⟨(old.map (·.path)).getD path, text⟩

/-- The files in order of first writing. -/
def files (s : Staged) : List NamedFile := s.values

/-- Memory as a sink, which takes every file. -/
def sink : Sink Staged where
  write s path text := (.ok (), s.write path text)

end Staged

/-- A sink that lists what it takes and refuses the paths that are written as one of `refused`. -/
def recorder (refused : List String) : Sink (List NamedFile) where
  write files path text :=
    if path.text ∈ refused then (.error (.file path .refused), files)
    else (.ok (), files ++ [⟨path, text⟩])

end ApiHeaders
