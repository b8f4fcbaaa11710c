import ApiHeaders.Config.Basic
import ApiHeaders.Yaml.Node

/-!
# Configurations as text

A configuration is written as a YAML mapping whose fields are named as in the table below. Fields
with other names are passed over.

| Fields of | Required | Optional |
|---|---|---|
| a configuration | `outputs` | `license`, `guard_prefix`, `generator` |
| any entry of `outputs` | `kind` | |
| a `header` or `module` | `path`, `registry`, `apis` | `extensions`, `include`, `exclude`, |
| | | `preamble`, `platform_prefix`, `module_name` |
| a `reset` | `registry` | |

## Main definitions

* `Reading` reads a document, and `follow` goes where a reference leads.
* `Value` is a node inside an entry, its scalars told apart.
* `Fields` says how something is put together from named fields.
* `Config.ofYaml` reads a configuration.

## Which fault is reported

A text is read in order and the first fault counts. A whole entry is read before its fields are
looked at, and fields that are missing are reported after all that are there.

## Limits

References may lead back to where they stand, so what is read is bounded: by the number of
references that are followed, and by how deeply collections are nested.
-/

namespace ApiHeaders.Config

open Yaml (Node Atom Document)

def invalid (found : Found) (expected : String) : Error := .mismatch (.invalidType found expected)

/-! ## Reading nodes -/

/-- A reading of a document. Its state is how many references may still be followed. -/
abbrev Reading := StateT Nat (Except Error)

/-- How many references may be followed: a hundred for each step of a walk through the document. -/
def referenceLimit (d : Document) : Nat := 100 * d.root.steps

/-- How many collections may be nested. -/
def depthLimit : Nat := 128

/-- The node itself, or the one that a reference leads to. -/
def follow (d : Document) (n : Node) : Reading Node := do
  match n with
  | .reference number =>
    match ← get, d.target? number with
    | left + 1, some target => do
      set left
      return target
    | _, _ => throw .malformed
  | _ => return n

/-- The fault of a node that is not what its place asks for. -/
def unexpected (n : Node) (expected : String) : Error :=
  match n with
  | .scalar p quoted text =>
    match Atom.ofScalar? p.tag quoted text with
    | some a => invalid (.atom a) expected
    | none => .malformed
  | .sequence _ _ => invalid .sequence expected
  | .mapping _ _ => invalid .map expected
  | .reference _ | .broken => .malformed

/-- The text of a scalar, whatever it is. -/
def scalarText (d : Document) (expected : String) (n : Node) : Reading String := do
  match ← follow d n with
  | .scalar _ _ text => return text
  | n => throw (unexpected n expected)

/-- Whether a node is said to be a variant of something. None here may be. -/
def isVariant : Node → Bool
  | .scalar p _ _ | .sequence p _ | .mapping p _ => p.tag.any (·.isVariant)
  | .reference _ | .broken => false

/-- A node inside an entry, its scalars told apart. -/
inductive Value where
  | atom (a : Atom)
  | sequence (items : List Value)
  | map (entries : List (Value × Value))
  deriving Repr

namespace Value

def found : Value → Found
  | atom a => .atom a
  | sequence _ => .sequence
  | map _ => .map

/-- A scalar inside an entry. Whole numbers have at most 64 bits. -/
def ofAtom (expected : String) (a : Atom) : Except Error Value :=
  if isWide a then .error (invalid (.atom a) expected) else .ok (atom a)

/-- Reads a node in which at most `depth` collections are nested. -/
def ofNode (d : Document) (expected : String) (depth : Nat) (n : Node) : Reading Value := do
  let n ← follow d n
  if isVariant n then throw .malformed
  match n, depth with
  | .scalar p quoted text, _ =>
    match Atom.ofScalar? p.tag quoted text with
    | some a => ofAtom expected a
    | none => throw .malformed
  | .sequence _ items, depth + 1 => return sequence (← items.mapM (ofNode d "any value" depth))
  | .mapping _ entries, depth + 1 =>
    return map (← entries.mapM fun (k, n) => do
      let key ← ofNode d "any value" depth k
      return (key, ← ofNode d "any value" depth n))
  | _, _ => throw .malformed

/-! ## Values of fields -/

def string (expected : String) : Value → Except Error String
  | atom (.string s) => .ok s
  | v => .error (invalid v.found expected)

def text : Value → Except Error String := string "a string"

def path (v : Value) : Except Error Path := (v.string "path string").map Path.mk

def flag : Value → Except Error Bool
  | atom (.boolean b) => .ok b
  | v => .error (invalid v.found "a boolean")

def texts : Value → Except Error (List String)
  | sequence vs => vs.mapM text
  | v => .error (invalid v.found "a sequence")

/-- A value that may be null, which is the same as its absence. -/
def optional (f : Value → Except Error α) : Value → Except Error (Option α)
  | atom .null => .ok none
  | v => (f v).map some

end Value

/-! ## Fields -/

/-- How something is put together from named fields. -/
structure Fields (α : Type) where
  /-- The names of the fields, those that are required before the others. -/
  names : List String
  /-- How many fields are required. -/
  required : Nat
  /-- What there is without any field. -/
  start : α
  /-- Puts in the value of a field. -/
  assign : α → String → Value → Except Error α

namespace Fields

/-- The field that a key names, by its name or its number. -/
def name? (f : Fields α) : Value → Except Error (Option String)
  | .atom (.string s) => .ok (f.names.find? (· = s))
  | .atom (.natural n) => .ok f.names[n]?
  | v => .error (invalid v.found "field identifier")

/-- Puts together fields that are given with their names. -/
def ofMap (f : Fields α) (a : α) (seen : List String) : List (Value × Value) → Except Error α
  | [] =>
    match (f.names.take f.required).find? (· ∉ seen) with
    | some name => .error (.mismatch (.missingField name))
    | none => .ok a
  | (key, v) :: rest => do
    match ← f.name? key with
    | none => f.ofMap a seen rest
    | some name =>
      if name ∈ seen then .error (.mismatch (.duplicateField name))
      else f.ofMap (← f.assign a name v) (name :: seen) rest

/-- Puts together fields that are given in the order of their names. -/
def ofList (f : Fields α) (vs : List Value) : Except Error α := do
  let a ← (f.names.zip vs).foldlM (fun a (name, v) => f.assign a name v) f.start
  if f.required ≤ vs.length && vs.length ≤ f.names.length then return a else throw .malformed

end Fields

def outputFields : Fields Output where
  names := ["path", "registry", "apis", "extensions", "include", "exclude", "preamble",
    "platform_prefix", "module_name"]
  required := 3
  start := { path := ⟨""⟩, registry := ⟨""⟩, apis := [] }
  assign o name v := do
    match name with
    | "path" => return { o with path := ← v.path }
    | "registry" => return { o with registry := ← v.path }
    | "apis" => return { o with apis := ← v.texts }
    | "extensions" => return { o with extensions := ← v.flag }
    | "include" => return { o with included := ← v.optional Value.texts }
    | "exclude" => return { o with excluded := ← v.texts }
    | "preamble" => return { o with preamble := ← v.optional Value.text }
    | "platform_prefix" => return { o with platformScope := ← v.optional Value.text }
    | "module_name" => return { o with moduleName := ← v.optional Value.text }
    | _ => return o

/-- The registry of a reset. -/
def resetFields : Fields Path where
  names := ["registry"]
  required := 1
  start := ⟨""⟩
  assign _ _ v := v.path

/-! ## Entries -/

/-- What an entry of a configuration is. -/
inductive Kind where
  | output (form : Form)
  | reset
  deriving DecidableEq, Repr

def kinds : List (String × Kind) :=
  [("header", .output .header), ("module", .output .module), ("reset", .reset)]

/-- The entry with the fields that `read` puts together. -/
def Kind.entry (read : {α : Type} → Fields α → Except Error α) : Kind → Except Error Entry
  | output form => (read outputFields).map (.output form)
  | reset => (read resetFields).map .reset

/-- How deeply collections may be nested in a field of an entry, which is itself in a list in the
configuration. -/
def fieldDepth : Nat := depthLimit - 3

def Kind.ofNode (d : Document) (n : Node) : Reading Kind := do
  let name ← scalarText d "variant identifier" n
  match kinds.lookup name with
  | some kind => return kind
  | none => throw (.mismatch (.unknownVariant name (kinds.map (·.1))))

/-- Takes the `kind` out of the entries of a mapping. -/
def splitKind (d : Document) (kind : Option Kind) (others : List (Value × Value)) :
    List (Node × Node) → Reading (Kind × List (Value × Value))
  | [] =>
    match kind with
    | some kind => return (kind, others)
    | none => throw (.mismatch (.missingField "kind"))
  | (k, n) :: rest => do
    match ← Value.ofNode d "a type tag `kind` or any other value" fieldDepth k with
    | .atom (.string "kind") =>
      if kind.isSome then throw (.mismatch (.duplicateField "kind"))
      else splitKind d (some (← Kind.ofNode d n)) others rest
    | key => splitKind d kind (others ++ [(key, ← Value.ofNode d "any value" fieldDepth n)]) rest

/-- An entry is a mapping. A sequence of its `kind` and its fields will do as well. -/
def Entry.ofNode (d : Document) (n : Node) : Reading Entry := do
  let expected := "internally tagged enum ConfigEntry"
  let n ← follow d n
  if isVariant n then throw (invalid .variant expected)
  match n with
  | .mapping _ entries => do
    let (kind, fields) ← splitKind d none [] entries
    kind.entry fun f => f.ofMap f.start [] fields
  | .sequence _ [] => throw (.mismatch (.missingField "kind"))
  | .sequence _ (n :: ns) => do
    let kind ← Kind.ofNode d n
    let values ← ns.mapM (Value.ofNode d "any value" fieldDepth)
    kind.entry fun f => f.ofList values
  | n => throw (unexpected n expected)

/-! ## Configurations -/

/-- The entries of a configuration. Nothing at all stands for none. -/
def entriesOfNode (d : Document) (n : Node) : Reading (List Entry) := do
  match ← follow d n with
  | .scalar _ false "" => return []
  | .sequence _ ns => ns.mapM (Entry.ofNode d)
  | n => throw (unexpected n "a sequence")

/-- Puts in the value of a field, if there is one of that name. -/
def assign (d : Document) (c : Config) (name : String) (n : Node) : Option (Reading Config) :=
  let text := scalarText d "a string" n
  match name with
  | "license" => some (return { c with license := ← text })
  | "guard_prefix" => some (return { c with guardPrefix := ← text })
  | "generator" => some (return { c with generator := ← text })
  | "outputs" => some (return { c with entries := ← entriesOfNode d n })
  | _ => none

/-- Reads the fields of a configuration, of which those in `seen` have been read. -/
def ofEntries (d : Document) (c : Config) (seen : List String) :
    List (Node × Node) → Reading Config
  | [] => if "outputs" ∈ seen then return c else throw (.mismatch (.missingField "outputs"))
  | (k, n) :: rest => do
    let name ← scalarText d "field identifier" k
    match assign d c name n with
    | some assigned =>
      if name ∈ seen then throw (.mismatch (.duplicateField name))
      else ofEntries d (← assigned) (name :: seen) rest
    | none => if n.isWhole then ofEntries d c seen rest else throw .malformed

def ofDocument (d : Document) : Reading Config := do
  match ← follow d d.root with
  | .mapping _ entries => ofEntries d { entries := [] } [] entries
  | .scalar _ false "" => ofEntries d { entries := [] } [] []
  | n => throw (unexpected n "struct Config")

/-- Reads a configuration, in which every output is for some API family. -/
def ofYaml (text : String) : Except Error Config := do
  let d := Document.ofText text
  let c ← (ofDocument d).run' (referenceLimit d)
  if d.isOnly then c.validate else throw .malformed

end ApiHeaders.Config
