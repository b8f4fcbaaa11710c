import ApiHeaders.Path
import ApiHeaders.Text.Printable
import ApiHeaders.Yaml.Atom

/-!
# Faults of a configuration

## Main definitions

* `Config.Error` says why a text is not a configuration.
* `Config.Mismatch` is a value that is not what its place asks for.
-/

namespace ApiHeaders.Config

/-- What stands where something else is expected. -/
inductive Found where
  | atom (a : Yaml.Atom)
  | sequence
  | map
  /-- A node whose tag names a variant. -/
  | variant
  deriving DecidableEq, Repr

/-- A value that is not what its place asks for. -/
inductive Mismatch where
  | missingField (name : String)
  | duplicateField (name : String)
  | unknownVariant (name : String) (known : List String)
  | invalidType (found : Found) (expected : String)
  deriving DecidableEq, Repr

/-- Why a text is not a configuration. -/
inductive Error where
  | malformed
  | mismatch (cause : Mismatch)
  /-- An output is for no API family. -/
  | noFamily (output : Path)
  deriving DecidableEq, Repr

def quote (s : String) : String := "`" ++ s ++ "`"

/-- A character inside double quotes. -/
def escaped (c : Char) : String :=
  match c with
  | '"' => "\\\""
  | '\\' => "\\\\"
  | '\n' => "\\n"
  | '\r' => "\\r"
  | '\t' => "\\t"
  | '\x00' => "\\0"
  | _ =>
    if Text.isPrintable c then .singleton c
    else "\\u\x7b" ++ .ofList (Nat.toDigits 16 c.toNat) ++ "\x7d"

/-- Whether a number needs more than 64 bits. -/
def isWide : Yaml.Atom → Bool
  | .natural n => 0x10000000000000000 ≤ n
  | .negative n => 0x8000000000000000 < n
  | _ => false

def Found.message : Found → String
  | atom .null => "unit value"
  | atom (.boolean b) => "boolean " ++ quote (if b then "true" else "false")
  | atom (.natural n) =>
    "integer " ++ quote (toString n) ++ if isWide (.natural n) then " as u128" else ""
  | atom (.negative n) =>
    "integer " ++ quote (toString (-(n : Int)))
      ++ if isWide (.negative n) then " as i128" else ""
  | atom (.float text) => "floating point " ++ quote text
  | atom (.string s) => "string \"" ++ String.join (s.toList.map escaped) ++ "\""
  | sequence => "sequence"
  | map => "map"
  | variant => "enum"

def Mismatch.message : Mismatch → String
  | missingField name => "missing field " ++ quote name
  | duplicateField name => "duplicate field " ++ quote name
  | unknownVariant name known =>
    "unknown variant " ++ quote name ++ ", expected one of " ++ ", ".intercalate (known.map quote)
  | invalidType found expected => "invalid type: " ++ found.message ++ ", expected " ++ expected

def Error.message : Error → String
  | malformed => "the text is not well-formed"
  | mismatch cause => cause.message
  | noFamily output => output.text ++ " targets no API family"

end ApiHeaders.Config
