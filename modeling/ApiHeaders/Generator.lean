import ApiHeaders.Config.Basic
import ApiHeaders.Registry.Document
import ApiHeaders.Renderer
import ApiHeaders.Source

/-!
# Running a configuration

Each registry is read once and shared by all outputs that name it, so what one output has written
is known to the next, until the registry is reset. All files of a run are staged, and nothing is
handed on unless every entry succeeds.

## Main definitions

* `Generator` holds the registries.
* `Generator.load` reads those that a configuration needs, from a `Source`.
* `select` names the sets of an output.
* `Run` is the state of a run; `Run.entry` follows one entry.
* `Generator.stage` gives the files of a run or says why there are none, `Generator.run` commits
  them to a sink.
-/

namespace ApiHeaders

/-- The registries read so far, and what files say about the time of their generation. -/
structure Generator where
  registries : Table (List Component) Registry := ∅
  timestamp : String
  deriving Inhabited

/-- The names of the sets that an output renders: those it lists, or else all features (or all
extensions) for one of its API families, less the excluded ones. -/
def select (r : Registry) (o : Output) : Except Error (List String) :=
  match o.included with
  | some names =>
    match names.find? fun name => (r.set? name).isNone with
    | some missing => .error (.unknownSet missing o.path)
    | none => .ok names
  | none =>
    .ok ((r.sets.values.filter fun s =>
      s.isFeature != o.extensions && s.name ∉ o.excluded && s.supportsAny o.apis).map (·.name))

/-- The state of a run. -/
structure Run where
  registries : Table (List Component) Registry
  staged : Staged := ∅
  produced : List Path := []
  warnings : List Warning := []

namespace Run

/-- Warns. -/
def warn (run : Run) (w : Warning) : Run := { run with warnings := run.warnings ++ [w] }

/-- Begins a file that may be begun before. -/
def begin (run : Run) (path : Path) : Run :=
  match Rendering.produce run.produced path with
  | some produced => { run with produced }
  | none => run.warn (.generatedAgain path)

/-- The target of an output. -/
def target (form : Form) (o : Output) : Target :=
  let t := { Target.of o.path o.apis form with preamble := o.preambleText }
  { t with moduleName := o.moduleName.getD t.moduleName }

/-- What the files of an output say about their origin. -/
def boilerplate (c : Config) (timestamp : String) (o : Output) : Boilerplate where
  license := c.license
  timestamp := timestamp
  registryName := o.registry.fileName
  generator := c.generator
  guardPrefix := c.guardPrefix

/-- Renders sets in order and joins their lines, until one fails. -/
def renderAll (sink : Sink σ) (b : Boilerplate) (t : Target) (guard : Bool) (st : Rendering σ) :
    List String → Except Failure (List String) × Rendering σ
  | [] => (.ok [], st)
  | name :: names =>
    match st.render sink b name t guard with
    | (.error e, st) => (.error e, st)
    | (.ok lines, st) =>
      match renderAll sink b t guard st names with
      | (.error e, st) => (.error e, st)
      | (.ok more, st) => (.ok (lines ++ more), st)

/-- Stages the file of a target. If satellites import its declarations, these are moved to the core
partition, and the file only exports the partitions. -/
def finish (run : Run) (b : Boilerplate) (t : Target) (imports content : List String) :
    Except Failure Unit × Run :=
  if imports = [] then
    (.ok (), { run with staged := run.staged.write t.path (t.file b content) })
  else
    let core := t.core
    match Rendering.produce run.produced core.path with
    | none => (.error (.raised (.annexCollision corePartition core.path)), run)
    | some produced =>
      let all := { t with imports := ("export import :" ++ corePartition ++ ";") :: imports }
      let staged := (run.staged.write core.path (core.file b content)).write t.path (all.file b [])
      (.ok (), { run with produced, staged })

/-- Generates one output. -/
def generate (run : Run) (c : Config) (timestamp : String) (form : Form) (o : Output) :
    Except Failure Unit × Run :=
  match run.registries.get? o.registry.components with
  | none => (.error (.raised (.unknownRegistry o.registry)), run)
  | some registry =>
    match select registry o with
    | .error e => (.error (.raised e), run)
    | .ok names =>
      let t := target form o
      let b := boilerplate c timestamp o
      let run := run.begin t.path
      let (content, st) := renderAll Staged.sink b t (form = .header)
        { registry, produced := run.produced, imports := [], sink := run.staged,
          warnings := run.warnings } names
      let run : Run :=
        { registries := run.registries.insert o.registry.components st.registry
          staged := st.sink
          produced := st.produced
          warnings := st.warnings }
      match content with
      | .error e => (.error e, run)
      | .ok content => run.finish b t st.imports content

/-- Follows an entry of a configuration. -/
def entry (run : Run) (c : Config) (timestamp : String) :
    Config.Entry → Except Failure Unit × Run
  | .output form o => run.generate c timestamp form o
  | .reset registry =>
    if run.registries.contains registry.components then
      (.ok (), { run with
        registries := run.registries.modify registry.components Registry.resetWritten })
    else (.error (.raised (.unknownRegistry registry)), run)

/-- Follows entries in order, until one fails. -/
def entries (run : Run) (c : Config) (timestamp : String) :
    List Config.Entry → Except Failure Unit × Run
  | [] => (.ok (), run)
  | e :: es =>
    match run.entry c timestamp e with
    | (.ok (), run) => run.entries c timestamp es
    | (.error e, run) => (.error e, run)

end Run

namespace Generator

/-- Puts a registry in the place of the file that it would be read from. -/
def withRegistry (g : Generator) (path : Path) (r : Registry) : Generator :=
  { g with registries := g.registries.insert path.components r }

/-- Reads the registries at the given paths that are not there yet, until one cannot be read. -/
def load (g : Generator) (source : Source) :
    List Path → Except Error Unit × Generator × List Warning
  | [] => (.ok (), g, [])
  | path :: paths =>
    if g.registries.contains path.components then g.load source paths
    else
      match source path with
      | .error fault => (.error (.file path fault), g, [])
      | .ok text =>
        match Registry.parse text with
        | .error e => (.error (.xml e), g, [])
        | .ok (r, warnings) =>
          let (outcome, g, more) := (g.withRegistry path r).load source paths
          (outcome, g, warnings ++ more)

/-- What a run does before anything is handed on: the files of the run, or why there are none. -/
def stage (g : Generator) (source : Source) (c : Config) :
    Except Failure (List NamedFile) × Generator × List Warning :=
  match g.load source c.registries with
  | (.error e, g, warnings) => (.error (.raised e), g, warnings)
  | (.ok (), g, warnings) =>
    let start : Run := { registries := g.registries, warnings }
    let (outcome, run) := start.entries c g.timestamp c.entries
    (outcome.map fun () => run.staged.files, { g with registries := run.registries }, run.warnings)

/-- Runs a configuration and commits its files to a sink. -/
def run (g : Generator) (source : Source) (c : Config) (sink : Sink σ) (s : σ) :
    Except Failure Unit × σ × Generator × List Warning :=
  match g.stage source c with
  | (.error e, g, warnings) => (.error e, s, g, warnings)
  | (.ok files, g, warnings) =>
    let (outcome, s) := commit sink files s
    (outcome.mapError .raised, s, g, warnings)

end Generator

end ApiHeaders
