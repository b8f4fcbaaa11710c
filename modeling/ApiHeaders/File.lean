import ApiHeaders.Target
import ApiHeaders.Text.Case
import ApiHeaders.Text.Layout

/-!
# Files

The fixed text around the contents of a generated file.

## Main definitions

* `Boilerplate` is what all files of a run say about their origin.
* `Target.file` is the text of a whole file.
-/

namespace ApiHeaders

/-- What a generated file says about its origin. -/
structure Boilerplate where
  /-- A comment at the very top. -/
  license : String := ""
  timestamp : String := ""
  /-- The file name of the registry. -/
  registryName : String := "al.xml"
  /-- The tool that a reader is told to run. -/
  generator : String := "genheaders.py"
  /-- What the names of all include guards start with. -/
  guardPrefix : String := "AL"
  deriving DecidableEq, Repr, Inhabited

namespace Boilerplate

/-- The include guard of a file, such as `AL_AL_H` for `al.h`. -/
def guard (b : Boilerplate) (fileName : String) : String :=
  b.guardPrefix ++ "_" ++ Text.replaceChar '.' "_" (Text.upper fileName)

/-- The license, ended by a line feed. -/
def licenseBlock (b : Boilerplate) : String :=
  if b.license = "" || b.license.toList.getLast? = some '\n' then b.license else b.license ++ "\n"

/-- The comment that tells how a file came about. -/
def banner (b : Boilerplate) : List String := [
  "/* This file is auto-generated! Please do not edit it manually.",
  " * Instead, modify the API in " ++ b.registryName ++ " and regenerate using " ++ b.generator
    ++ ".",
  " *",
  " * Last regenerated: " ++ b.timestamp,
  " */"]

end Boilerplate

namespace Target

/-- The lines of a header. -/
def headerLines (t : Target) (b : Boilerplate) (content : String) : List String :=
  let guard := b.guard t.path.fileName
  ["#ifndef " ++ guard, "#define " ++ guard, ""] ++ b.banner
    ++ ["", "/* NOLINTBEGIN */", t.preamble, content, "#ifdef __cplusplus",
      "\x7d /* extern \"C\" */", "#endif", "/* NOLINTEND */", "", "#endif /* " ++ guard ++ " */"]

/-- The lines of a module. One without contents exports nothing itself. -/
def moduleLines (t : Target) (b : Boilerplate) (content : String) : List String :=
  b.banner ++ ["", "module;", "", t.preamble, "export module " ++ t.moduleName ++ ";"]
    ++ (if t.imports = [] then [] else "" :: t.imports)
    ++ (if content = "" then []
        else ["", "export extern \"C\" \x7b", content, "\x7d /* extern \"C\" */"])

/-- The text of a file with the given lines as its contents. -/
def file (t : Target) (b : Boilerplate) (content : List String) : String :=
  let content := Text.unlines content
  let lines := match t.form with
    | .header => t.headerLines b content
    | .module => t.moduleLines b content
  b.licenseBlock ++ String.join (lines.map (· ++ "\n"))

end Target

end ApiHeaders
