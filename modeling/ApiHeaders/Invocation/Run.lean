import ApiHeaders.Invocation
import ApiHeaders.Config.Load
import ApiHeaders.Disk
import ApiHeaders.Generator

/-!
# Following a command line

## Main definitions

* `Outcome` is how the program ends.
* `Invocation.run` follows a command, `Invocation.runArguments` a command line.
-/

namespace ApiHeaders

/-- How the program ends. -/
structure Outcome where
  /-- Zero for success, one for a failure, and two for a command line that cannot be followed. -/
  exitCode : UInt32 := 0
  /-- What is printed. -/
  output : String := ""
  /-- What is told to the user besides. -/
  notices : List String := []
  deriving DecidableEq, Repr

namespace Invocation

variable {m : Type → Type} [Monad m]

def failed (warnings : List Warning) (e : Error) : Outcome where
  exitCode := 1
  notices := warnings.map (·.message) ++ [e.message]

/-- The paths of files, one in a line. -/
def listing (files : List NamedFile) : String :=
  String.join (files.map fun f => f.path.text ++ "\n")

/-- Hands on the files of a run: lists them, or writes them to the disk. -/
def handOn (disk : Disk m) (dryRun : Bool) (warnings : List Warning) (files : List NamedFile) :
    m Outcome := do
  if dryRun then
    return { output := listing files, notices := warnings.map (·.message) }
  else
    match ← disk.commit files with
    | .ok () => return { notices := warnings.map (·.message) }
    | .error e => return failed warnings e

/-- Generates the files of a configuration. There is no outcome if this does not end. -/
def generate (disk : Disk m) (now : m String) (c : Invocation) (config : Config) :
    m (Option Outcome) := do
  let timestamp ← match c.timestamp with
    | some text => pure text
    | none => now
  let source ← disk.gather config.registries
  let g : Generator := { timestamp }
  match g.stage source config with
  | (.error .endless, _, _) => return none
  | (.error (.raised e), _, warnings) => return some (failed warnings e)
  | (.ok files, _, warnings) => return some (← handOn disk c.dryRun warnings files)

/-- Follows a command. -/
def run (disk : Disk m) (now : m String) (c : Invocation) : m (Option Outcome) := do
  let text ← disk.read c.config
  match (text.mapError (Error.file c.config)).bind (Config.ofFile c.config) with
  | .error e => return some (failed [] e)
  | .ok config => generate disk now c config

/-- Follows a command line. -/
def runArguments (disk : Disk m) (now : m String) (arguments : List String) :
    m (Option Outcome) :=
  match parse arguments with
  | .error fault => return some { exitCode := 2, notices := [fault.message, usage] }
  | .ok .help => return some { output := usage ++ "\n" }
  | .ok (.run c) => c.run disk now

end Invocation

end ApiHeaders
