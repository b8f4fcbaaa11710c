import ApiHeaders.Config.Error
import ApiHeaders.Xml.Document

/-!
# Errors

What ends a run. Conditions that leave something out of the output and go on are warnings instead.

## Main definitions

* `Error` is what a run can end with, `Error.message` says so in words.
* `Failure` is an error, or that there is no end.
-/

namespace ApiHeaders

/-- Why a file cannot be read or written. -/
inductive FileFault where
  | notFound
  | alreadyExists
  | notDirectory
  | isDirectory
  /-- The destination does not take the file. -/
  | refused
  /-- Anything else that a system says. -/
  | other (reason : String)
  deriving DecidableEq, Repr

def FileFault.message : FileFault → String
  | notFound => "No such file or directory (os error 2)"
  | alreadyExists => "File exists (os error 17)"
  | notDirectory => "Not a directory (os error 20)"
  | isDirectory => "Is a directory (os error 21)"
  | refused => "refused"
  | other reason => reason

inductive Error where
  | xml (cause : Xml.Error)
  | file (path : Path) (fault : FileFault)
  | config (cause : Config.Error)
  /-- A set that `output` asks for does not exist. -/
  | unknownSet (name : String) (output : Path)
  /-- A registry is to be reset that nothing uses. -/
  | unknownRegistry (path : Path)
  /-- The marker of an external header was to be rendered. -/
  | headerMarker (name : String)
  /-- An extracted file would replace another file of the run. -/
  | annexCollision (annex : String) (path : Path)
  | malformedFunctionPointer (name text : String)
  deriving DecidableEq, Repr

def Error.message : Error → String
  | xml cause => "XML error: " ++ cause.message
  | file path fault => "IO error on " ++ path.text ++ ": " ++ fault.message
  | config cause => "Configuration error: " ++ cause.message
  | unknownSet name output =>
    "Unknown API set `" ++ name ++ "` requested by " ++ output.text
  | unknownRegistry path => "Unknown registry: " ++ path.text
  | headerMarker name =>
    "Internal consistency error: include marker `" ++ name ++ "` has no textual form"
  | annexCollision annex path =>
    "Annex `" ++ annex ++ "` collides with an already generated file: " ++ path.text
  | malformedFunctionPointer name text =>
    "Malformed function pointer `" ++ name ++ "`: " ++ text

/-- Why something comes to no result. -/
inductive Failure where
  /-- It ends with an error. -/
  | raised (e : Error)
  /-- It does not end: the file for an annex always has to be extracted into yet another one. -/
  | endless
  deriving DecidableEq, Repr

end ApiHeaders
