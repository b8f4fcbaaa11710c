import ApiHeaders.ApiSet.Block

/-!
# The layout of a set

The blocks of a set are set apart by empty lines, requirements are announced by their comments, and
the prototypes of a namespace stand between directives that leave them out on demand.

## Main definitions

* `Entry` is a block with the comment above it and the space below it.
* `Item` is what a laid out set is made of; `Item.lines` are its lines.
* `Pass.items` lays out the sections of a pass.
* `ApiSet.inlineLines` is a whole set.
-/

namespace ApiHeaders

/-- A block, the comment above it, and whether an empty line follows. -/
structure Entry where
  comment : Option String
  block : Block
  spaced : Bool
  deriving DecidableEq, Repr

/-- A part of a laid out set. -/
inductive Item where
  | openPrototypes (scope : String)
  | closePrototypes (scope : String)
  /-- The announcement of function pointer types. -/
  | heading
  | comment (text : String)
  | block (b : Block)
  | blank
  deriving DecidableEq, Repr

def Item.lines : Item → List String
  | openPrototypes scope => ["#ifndef " ++ scope ++ "_NO_PROTOTYPES"]
  | closePrototypes scope => ["#endif /* " ++ scope ++ "_NO_PROTOTYPES */", ""]
  | heading =>
    ["/* Pointer-to-function types, useful for storing dynamically loaded AL entry", " * points.",
      " */"]
  | comment text => ["/* " ++ text ++ " */"]
  | block b => b.lines
  | blank => [""]

/-- The blocks of a section as entries. The comment stands above the first one. A block of several
lines and the last one are followed by an empty line. -/
def Section.entriesFrom (comment : Option String) : List Block → List Entry
  | [] => []
  | b :: bs => ⟨comment, b, 1 < b.lines.length || bs = []⟩ :: entriesFrom none bs

def Section.entries (s : Section) : List Entry := entriesFrom s.comment s.blocks

def Entry.items (e : Entry) : List Item :=
  (e.comment.map .comment).toList ++ [.block e.block] ++ if e.spaced then [.blank] else []

/-- Entries between the directives of their namespaces. `opened` is the namespace whose directive
is open. -/
def fencedItems (opened : Option String) : List Entry → List Item
  | [] => (opened.map .closePrototypes).toList
  | e :: es =>
    if opened = some e.block.scope then e.items ++ fencedItems opened es
    else
      (opened.map .closePrototypes).toList ++ [.openPrototypes e.block.scope] ++ e.items
        ++ fencedItems (some e.block.scope) es

/-- The sections of a pass, laid out. Only features announce their function pointer types. -/
def Pass.items (p : Pass) (kind : SetKind) (sections : List Section) : List Item :=
  let entries := sections.flatMap (·.entries)
  match p with
  | types => entries.flatMap (·.items)
  | prototypes => fencedItems none entries
  | pointers =>
    (if kind = .feature && entries ≠ [] then [.heading] else []) ++ entries.flatMap (·.items)

namespace ApiSet

/-- The parts of a set, pass by pass. -/
def items (s : ApiSet) (r : Registry) (t : Target) : Logged (List Item) := do
  let passes ← Logged.traverse
    (fun p => do return p.items s.kind (← s.sections r t p)) (Pass.order s.kind)
  return passes.flatten

/-- The lines that open a set: its guard and its documentation. -/
def opening (s : ApiSet) (r : Registry) (guard : Bool) : List String :=
  (if guard then ["#ifndef " ++ s.name, "#define " ++ s.name ++ " 1"] else [])
    ++ Text.lines (Doc.render r.groups none s.doc)

/-- The lines that close the guard of a set. -/
def closing (s : ApiSet) (guard : Bool) : List String :=
  if guard then ["#endif /* " ++ s.name ++ " */", ""] else []

/-- The lines of a set that is not extracted from the target. -/
def inlineLines (s : ApiSet) (r : Registry) (t : Target) (guard : Bool) :
    Logged (List String) := do
  let items ← s.items r t
  return s.opening r guard ++ items.flatMap Item.lines ++ s.closing guard

/-- The lines that stand in a header for a set that is extracted from it. -/
def referenceLines (s : ApiSet) (r : Registry) (guard : Bool) (reference : String) : List String :=
  s.opening r guard ++ [reference] ++ if guard then s.closing guard else [""]

/-- The external headers that a set refers to, each once. -/
def headers (s : ApiSet) (r : Registry) : List String :=
  (s.references.filterMap fun name =>
    match r.find? name with
    | some (.header header) => some header
    | _ => none).eraseDups

/-- The annex that a set is extracted into, unless the target is its file already. -/
def annexFrom? (s : ApiSet) (t : Target) : Option String := s.annex.filter (!t.isAnnex ·)

end ApiSet

end ApiHeaders
