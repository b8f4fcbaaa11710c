import ApiHeaders.Error

/-!
# Where texts come from

## Main definitions

* `Source` gives the texts of files, as far as they can be read.
-/

namespace ApiHeaders

/-- The texts of the files that can be read. -/
abbrev Source := Path → Except FileFault String

/-- A place where nothing can be read. -/
def Source.empty : Source := fun _ => .error .notFound

/-- The text of a file. -/
def Source.read (source : Source) (path : Path) : Except Error String :=
  (source path).mapError (.file path)

end ApiHeaders
