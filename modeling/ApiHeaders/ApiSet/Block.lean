import ApiHeaders.Declaration.Render
import ApiHeaders.Logged

/-!
# The blocks of a set

A set is written in three passes over its requirements. The first takes all declarations but
commands, the others take the commands, once as prototypes and once as function pointer types.
A feature is linked directly and has its prototypes first; an extension is loaded through function
pointers and has those first.

## Main definitions

* `Pass` is one of the three, `Pass.order` their order.
* `Block` is a declaration as it stands in a set: live, or commented out if another set has
  written it before.
* `Block.ofReference` is the block for one reference.
* `Section` holds the blocks of one requirement, `ApiSet.sections` those of a pass.
-/

namespace ApiHeaders

/-- A walk over the requirements of a set. -/
inductive Pass where
  | types
  | prototypes
  | pointers
  deriving DecidableEq, Repr

namespace Pass

/-- The pass over commands that comes first. -/
def leading : SetKind → Pass
  | .feature => prototypes
  | .extension => pointers

/-- The pass over commands that comes second. -/
def trailing : SetKind → Pass
  | .feature => pointers
  | .extension => prototypes

def order (kind : SetKind) : List Pass := [types, leading kind, trailing kind]

/-- Whether a pass writes a declaration. No pass writes the marker of a header. -/
def accepts (p : Pass) (d : Declaration) : Bool :=
  !d.isHeader && d.isCommand == (p ≠ types)

/-- Whether a pass is the first that sees a kind of declaration, and so is the one to warn. -/
def warns (p : Pass) (kind : SetKind) : Bool := p = types || p = leading kind

end Pass

/-- Text commented out. Nothing in it can end the comment early. -/
def suppressed (text : String) : List String :=
  match Text.lines (Text.replaceTerminator text) with
  | [line] => ["/* " ++ line ++ " */"]
  | lines => ["/*"] ++ lines.map inner ++ [" */"]
where
  /-- A line inside the comment, without blanks at its end. -/
  inner (line : String) : String := .ofList (Text.trimEnd (" * " ++ line).toList)

/-- A declaration as it stands in a set. -/
structure Block where
  declaration : Declaration
  /-- The other set that has written the declaration before. -/
  writer : Option String
  lines : List String
  deriving DecidableEq, Repr

/-- The set other than `s` that has written a declaration. -/
def Registry.otherWriter? (r : Registry) (s : ApiSet) (name : String) : Option String :=
  (r.writtenBy? name).filter (· ≠ s.name)

namespace Block

def isLive (b : Block) : Bool := b.writer.isNone

/-- The namespace of a command. -/
def scope (b : Block) : String :=
  match b.declaration with
  | .command c => c.scope
  | _ => ""

/-- The block of a declaration: its lines if it is live, and else those of its bare form, commented
out. -/
def of (r : Registry) (t : Target) (p : Pass) (writer : Option String) (d : Declaration) :
    Except Error Block :=
  let pointer := decide (p = .pointers)
  match writer with
  | none => (d.render pointer r t).map fun text => ⟨d, none, Text.lines text⟩
  | some w => (d.withoutDoc.render pointer r t).map fun text => ⟨d, some w, suppressed text⟩

/-- The block for a reference of a set, if the pass writes one. -/
def ofReference (r : Registry) (s : ApiSet) (t : Target) (p : Pass) (name : String) :
    Logged (Option Block) :=
  match r.find? name with
  | none => do
    if p = .types then Logged.warn (.unavailable name s.name)
    return none
  | some d =>
    if p.accepts d then do
      let writer := r.otherWriter? s name
      if p.warns s.kind then
        if let some w := writer then Logged.warn (.alreadyWritten name s.name w)
      return some (← .ofExcept (of r t p writer d))
    else return none

end Block

/-- The blocks of one requirement in one pass. -/
structure Section where
  comment : Option String
  blocks : List Block
  deriving DecidableEq, Repr

/-- The blocks of a requirement. The pass over function pointer types does not repeat comments. -/
def Requirement.section (req : Requirement) (r : Registry) (s : ApiSet) (t : Target) (p : Pass) :
    Logged Section := do
  let blocks ← Logged.traverse (Block.ofReference r s t p) req.names
  return ⟨if p = .pointers then none else req.comment, blocks.filterMap id⟩

/-- The blocks of a pass, by the requirements that apply to the target. -/
def ApiSet.sections (s : ApiSet) (r : Registry) (t : Target) (p : Pass) : Logged (List Section) :=
  Logged.traverse (·.section r s t p) (s.requirements.filter (·.appliesTo t.apis))

end ApiHeaders
