import Std.Time.Format
import ApiHeaders.Invocation.Run

/-!
# The program

Connects the command line to the file system and the clock of the machine.
-/

namespace ApiHeaders

/-- What an error of the file system means for a file. -/
def FileFault.ofSystem : IO.Error → FileFault
  | .noFileOrDirectory .. => .notFound
  | .alreadyExists .. => .alreadyExists
  | e => .other (toString e)

/-- Does something with a file. -/
def attempt (action : IO α) : IO (Except FileFault α) := do
  match ← action.toBaseIO with
  | .ok a => return .ok a
  | .error e => return .error (.ofSystem e)

/-- The disk of the machine. Directories are made as they are needed. -/
def Disk.machine : Disk IO where
  read path := attempt (IO.FS.readFile path.text)
  write path text := do
    if let some d := path.directory? then
      if let .error fault ← attempt (IO.FS.createDirAll d.text) then
        return .error (.file d fault)
    return (← attempt (IO.FS.writeFile path.text text)).mapError (.file path)

/-- The current time, in UTC and with microseconds. -/
def now : IO String := do
  let utc := Std.Time.TimeZone.ZoneRules.UTC
  let time := Std.Time.DateTime.ofTimestamp (← Std.Time.Timestamp.now) utc
  return time.format "uuuu-MM-dd HH:mm:ss.SSSSSSxxx"

end ApiHeaders

open ApiHeaders in
def main (arguments : List String) : IO UInt32 := do
  let some outcome ← Invocation.runArguments Disk.machine now arguments
    | throw (.userError "the files for an annex are extracted from one another without an end")
  for notice in outcome.notices do IO.eprintln notice
  IO.print outcome.output
  return outcome.exitCode
