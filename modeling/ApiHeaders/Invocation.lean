import ApiHeaders.Path

/-!
# The command line

## Main definitions

* `Invocation` is what a command line asks for.
* `Invocation.parse` reads a command line, `Invocation.Fault` says what is wrong with it.
* `Invocation.usage` is the text that tells how to use the program.
-/

namespace ApiHeaders

/-- A run that a command line asks for. -/
structure Invocation where
  config : Path
  /-- What files say about the time of their generation, if not the current time. -/
  timestamp : Option String := none
  /-- Whether files are only listed. -/
  dryRun : Bool := false
  verbose : Bool := false
  deriving DecidableEq, Repr

namespace Invocation

/-- What is wrong with a command line. -/
inductive Fault where
  | noConfig
  | emptyConfig
  | unexpected (argument : String)
  | repeated (option : String)
  | noValue (option : String)
  | needlessValue (option : String)
  deriving DecidableEq, Repr

def Fault.message : Fault → String
  | noConfig => "the configuration file is missing"
  | emptyConfig => "the name of the configuration file is empty"
  | unexpected argument => "unexpected argument: " ++ argument
  | repeated option => option ++ " is given more than once"
  | noValue option => option ++ " needs a value"
  | needlessValue option => option ++ " takes no value"

/-- What a command line asks for. -/
inductive Request where
  | help
  | run (c : Invocation)
  deriving DecidableEq, Repr

def usage : String :=
  "\n".intercalate [
    "Generates headers and modules from an XML registry of APIs.",
    "",
    "Usage: apiheaders [OPTIONS] <CONFIG>",
    "",
    "Arguments:",
    "  <CONFIG>  Configuration file that lists the files to be generated",
    "",
    "Options:",
    "      --timestamp <TIMESTAMP>  What files say about the time of their generation",
    "      --dry-run                List the files that would be written",
    "  -v, --verbose                Log in more detail",
    "  -h, --help                   Print this text"]

/-- What has been read of a command line. -/
structure Draft where
  config : Option String := none
  timestamp : Option String := none
  dryRun : Bool := false
  verbose : Bool := false
  help : Bool := false
  deriving DecidableEq, Repr

namespace Draft

def setConfig (d : Draft) (name : String) : Except Fault Draft :=
  match d.config with
  | some _ => .error (.unexpected name)
  | none => if name.isEmpty then .error .emptyConfig else .ok { d with config := some name }

def setTimestamp (d : Draft) (text : String) : Except Fault Draft :=
  match d.timestamp with
  | some _ => .error (.repeated "--timestamp")
  | none => .ok { d with timestamp := some text }

def setVerbose (d : Draft) (option : String) : Except Fault Draft :=
  if d.verbose then .error (.repeated option) else .ok { d with verbose := true }

/-- An option without a value, by its long name. -/
def setFlag (d : Draft) (option : String) : Except Fault Draft :=
  match option with
  | "--dry-run" =>
    if d.dryRun then .error (.repeated option) else .ok { d with dryRun := true }
  | "--verbose" => d.setVerbose option
  | "--help" => .ok { d with help := true }
  | _ => .error (.unexpected option)

/-- Options of one letter, written together. -/
def setLetters (d : Draft) : List Char → Except Fault Draft
  | [] => .ok d
  | 'v' :: cs => do (← d.setVerbose "-v").setLetters cs
  | 'h' :: _ => .ok { d with help := true }
  | c :: _ => .error (.unexpected (String.ofList ['-', c]))

/-- Whether an argument is an option. A single dash is not. -/
def isOption (argument : String) : Bool :=
  match argument.toList with
  | '-' :: _ :: _ => true
  | _ => false

/-- A long option, with the value that is attached to it. -/
def setLong (d : Draft) (option : String) (value : Option String) : Except Fault Draft :=
  match value with
  | none => d.setFlag option
  | some text =>
    if option = "--timestamp" then d.setTimestamp text
    else if option ∈ ["--dry-run", "--verbose", "--help"] then .error (.needlessValue option)
    else .error (.unexpected option)

/-- The name of a long option and the value that is attached to it. -/
def splitLong (argument : String) : String × Option String :=
  match Text.breakAt? '=' argument.toList with
  | some (name, value) => (String.ofList name, some (String.ofList value))
  | none => (argument, none)

/-- Reads arguments. After `--` none is an option. -/
def read (d : Draft) (options : Bool) : List String → Except Fault Draft
  | [] => .ok d
  | argument :: rest =>
    if d.help then .ok d
    else if !options || !isOption argument then do (← d.setConfig argument).read options rest
    else if argument = "--" then d.read false rest
    else if argument = "--timestamp" then
      match rest with
      | value :: rest =>
        if isOption value then .error (.noValue argument)
        else do (← d.setTimestamp value).read options rest
      | [] => .error (.noValue argument)
    else if argument.startsWith "--" then do
      let (name, value) := splitLong argument
      (← d.setLong name value).read options rest
    else do (← d.setLetters (argument.toList.drop 1)).read options rest

end Draft

/-- Reads the arguments of a command line. -/
def parse (arguments : List String) : Except Fault Request := do
  let d ← Draft.read {} true arguments
  if d.help then return .help
  else match d.config with
    | some name => return .run {
        config := ⟨name⟩, timestamp := d.timestamp, dryRun := d.dryRun, verbose := d.verbose }
    | none => throw .noConfig

end Invocation

end ApiHeaders
