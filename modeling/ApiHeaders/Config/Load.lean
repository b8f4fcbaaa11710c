import ApiHeaders.Config.Decode
import ApiHeaders.Source

/-!
# Configuration files

The paths in a configuration file are relative to the directory of the file.

## Main definitions

* `Config.ofFile` is the configuration in a file with a given text.
* `Config.load` reads a configuration file.
-/

namespace ApiHeaders.Config

/-- The configuration in the file at `path`, whose text is `text`. -/
def ofFile (path : Path) (text : String) : Except ApiHeaders.Error Config := do
  let c ← (ofYaml text).mapError .config
  return (path.parent?.map c.rebase).getD c

/-- Reads a configuration file. -/
def load (source : Source) (path : Path) : Except ApiHeaders.Error Config := do
  ofFile path (← source.read path)

end ApiHeaders.Config
