import ApiHeaders.Path
import ApiHeaders.Text.Pieces

/-!
# Targets

A target is a file that is to be generated. A set with an annex is extracted from a target into a
satellite, which is a target of its own next to it: a header includes the header that its satellite
belongs to, a module has its satellites as partitions.

## Main definitions

* `Form` tells headers from modules.
* `Target` is a file to be generated, `Target.of` one with nothing but its contents.
* `Target.annexPath`, `Target.satellite` and `Target.core` are the files next to a target.
-/

namespace ApiHeaders

/-- The shape of a generated file. -/
inductive Form where
  /-- A C header: macros, type definitions and prototypes. -/
  | header
  /-- A C++ module interface unit: constants and aliases. -/
  | module
  deriving DecidableEq, Repr, Inhabited

/-- How an empty list of parameters is written. -/
def Form.noParameters : Form → String
  | header => "(void)"
  | module => "()"

/-- A file that is to be generated. -/
structure Target where
  path : Path
  /-- The API families that the file is for. -/
  apis : List String
  form : Form
  /-- What stands before the contents. -/
  preamble : String
  moduleName : String
  /-- The import lines of a module. -/
  imports : List String
  deriving DecidableEq, Repr, Inhabited

/-- The partition that a module's own declarations move to once it has satellites. -/
def corePartition : String := "core"

namespace Target

/-- A target without preamble and imports, whose module has the name of the file. -/
def of (path : Path) (apis : List String) (form : Form) : Target where
  path; apis; form
  preamble := ""
  moduleName := path.stem
  imports := []

def targets (t : Target) (api : String) : Bool := api ∈ t.apis

/-- Whether the target is the file that an annex is extracted into. -/
def isAnnex (t : Target) (annex : String) : Bool := t.path.stem = annex

/-- The path of the file for an annex: next to the target, with the same extension. -/
def annexPath (t : Target) (annex : String) : Path :=
  let name : Path := ⟨annex ++ (t.path.extension?.map ("." ++ ·)).getD ""⟩
  match t.path.parent? with
  | some directory => directory.join name
  | none => name

/-- What a satellite header starts with. -/
def satellitePreamble (t : Target) : String :=
  "#include \"" ++ t.path.fileName ++ "\"\n" ++ "\n#ifdef __cplusplus\nextern \"C\" \x7b\n#endif\n"

/-- The target that an annex is extracted into. It includes the given headers. A satellite header
includes the header it belongs to as well; a satellite module repeats the preamble and imports
the core partition. -/
def satellite (t : Target) (annex : String) (headers : List String) : Target :=
  let includes := String.join (headers.map fun h => "#include <" ++ h ++ ">\n")
  { of (t.annexPath annex) t.apis t.form with
    preamble := includes ++ (match t.form with
      | .header => t.satellitePreamble
      | .module => t.preamble)
    moduleName := t.moduleName ++ ":" ++ annex
    imports := match t.form with
      | .header => []
      | .module => ["import :" ++ corePartition ++ ";"] }

/-- The target of a module's core partition. -/
def core (t : Target) : Target :=
  { of (t.annexPath (t.path.stem ++ "-" ++ corePartition)) t.apis t.form with
    preamble := t.preamble
    moduleName := t.moduleName ++ ":" ++ corePartition }

/-- The last part of a module's name, or the whole name if it has no parts. -/
def partitionName (moduleName : String) : String :=
  match Text.breakAtLast? ':' moduleName.toList with
  | some (_, part) => .ofList part
  | none => moduleName

/-- The line by which a satellite is referred to. -/
def reference (satellite : Target) : String :=
  match satellite.form with
  | .header => "#include \"" ++ satellite.path.fileName ++ "\""
  | .module => "export import :" ++ partitionName satellite.moduleName ++ ";"

end Target

end ApiHeaders
