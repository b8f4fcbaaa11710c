import ApiHeaders.Config.Error
import ApiHeaders.Platform
import ApiHeaders.Target

/-!
# Configurations

A configuration lists the steps of a run: files to be generated, and points at which a registry
forgets what it has written.

## Main definitions

* `Output` describes one file, `Config.Entry` is a step, `Config` is a whole configuration.
* `Config.rebase` resolves relative paths against a directory.
* `Config.registries` lists the registries that the outputs use.
* `Config.validate` refuses outputs without an API family.
-/

namespace ApiHeaders

/-- A file to be generated. -/
structure Output where
  path : Path
  registry : Path
  /-- The API families that the file is for. -/
  apis : List String
  /-- Whether extensions are selected where no sets are listed. -/
  extensions : Bool := false
  /-- The sets to be rendered, in order. -/
  included : Option (List String) := none
  /-- Sets that are left out of the selection. -/
  excluded : List String := []
  preamble : Option String := none
  /-- The namespace whose platform macros the file defines. -/
  platformScope : Option String := none
  /-- The name of a module, if it is not that of the file. -/
  moduleName : Option String := none
  deriving DecidableEq, Repr, Inhabited

/-- The platform macros of an output, then its own preamble. -/
def Output.preambleText (o : Output) : String :=
  (o.platformScope.map platformPreamble).getD "" ++ o.preamble.getD ""

/-- A step of a run. -/
inductive Config.Entry where
  | output (form : Form) (o : Output)
  /-- The registry forgets what it has written. -/
  | reset (registry : Path)
  deriving DecidableEq, Repr

/-- The steps of a run and what all its files share. -/
structure Config where
  /-- A comment at the top of every file. -/
  license : String := ""
  /-- What the names of all include guards start with. -/
  guardPrefix : String := "AL"
  /-- The tool that a reader of the files is told to run. -/
  generator : String := "genheaders.py"
  entries : List Config.Entry
  deriving DecidableEq, Repr

namespace Config

def Entry.output? : Entry → Option Output
  | output _ o => some o
  | reset _ => none

/-- The outputs of a configuration, in order. -/
def outputs (c : Config) : List Output := c.entries.filterMap (·.output?)

/-- Paths without those that name the same place as an earlier one. -/
def distinct (paths : List Path) : List Path :=
  paths.foldl (fun seen p => if seen.any (·.same p) then seen else seen ++ [p]) []

/-- The registries that the outputs use, in order of first use. -/
def registries (c : Config) : List Path := distinct (c.outputs.map (·.registry))

def Entry.rebase (directory : Path) : Entry → Entry
  | output form o =>
    output form { o with path := directory.join o.path, registry := directory.join o.registry }
  | reset registry => reset (directory.join registry)

/-- Resolves relative paths against a directory. -/
def rebase (c : Config) (directory : Path) : Config :=
  { c with entries := c.entries.map (·.rebase directory) }

/-- Refuses an output that is for no API family. -/
def validate (c : Config) : Except Error Config :=
  match c.outputs.find? (·.apis = []) with
  | some o => .error (.noFamily o.path)
  | none => .ok c

end Config

end ApiHeaders
