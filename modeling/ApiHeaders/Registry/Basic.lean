import ApiHeaders.ApiSet
import ApiHeaders.Declaration
import ApiHeaders.Table
import ApiHeaders.Warning

/-!
# Registries

A registry holds what one source declares, in order, and remembers which set has written which
declaration. A declaration that several sets require is so written once only, until the memory is
cleared.

## Main definitions

* `Registry` is the state of a registry.
* `Registry.insert`, `Registry.insertSet` and `Registry.addMember` fill its tables.
* `Registry.writtenBy?`, `Registry.markWritten` and `Registry.resetWritten` are its memory.
* `Registry.Item` is something that a source contributes; `Registry.takeAll` takes up several and
  lists the warnings.
-/

namespace ApiHeaders

/-- What one source declares, and what of it is written. -/
structure Registry where
  declarations : Table String Declaration := ∅
  sets : Table String ApiSet := ∅
  /-- The enumerants of each group, in the order in which they were added. -/
  groups : Table String (List String) := ∅
  /-- The size in bytes of the longest return type of each namespace. -/
  returnWidths : Table String Nat := ∅
  /-- The set that last wrote each declaration. -/
  written : Table String String := ∅
  deriving Inhabited

namespace Registry

def find? (r : Registry) (name : String) : Option Declaration := r.declarations.get? name

def set? (r : Registry) (name : String) : Option ApiSet := r.sets.get? name

/-- The members of a group. -/
def group? (r : Registry) (name : String) : Option (List String) := r.groups.get? name

/-- The width that the return types of a namespace need. -/
def returnWidth (r : Registry) (scope : String) : Nat := (r.returnWidths.get? scope).getD 0

/-- The set that has written a declaration. -/
def writtenBy? (r : Registry) (name : String) : Option String := r.written.get? name

/-- Notes that a set has written all that it refers to. -/
def markWritten (r : Registry) (s : ApiSet) : Registry :=
  { r with written := s.references.foldl (fun w name => w.insert name s.name) r.written }

/-- Forgets what was written. -/
def resetWritten (r : Registry) : Registry := { r with written := ∅ }

/-- Makes room for the return type of a declaration. -/
def widen (widths : Table String Nat) : Declaration → Table String Nat
  | .command c => widths.upsert c.scope fun width => max (width.getD 0) c.returnType.utf8ByteSize
  | _ => widths

/-- Adds a declaration; one of the same name is replaced. -/
def insert (r : Registry) (d : Declaration) : Registry :=
  { r with
    declarations := r.declarations.insert d.name d
    returnWidths := widen r.returnWidths d }

/-- Adds a set; one of the same name is replaced. -/
def insertSet (r : Registry) (s : ApiSet) : Registry := { r with sets := r.sets.insert s.name s }

/-- Adds an enumerant to a group. -/
def addMember (r : Registry) (group member : String) : Registry :=
  { r with groups := r.groups.upsert group fun members => members.getD [] ++ [member] }

/-- Something that a source contributes to a registry. -/
inductive Item where
  | declaration (d : Declaration)
  | set (s : ApiSet)
  | member (group name : String)
  /-- Something that cannot be taken up. -/
  | skipped (warning : Warning)

/-- Takes up an item. -/
def take (r : Registry) : Item → Registry
  | .declaration d => r.insert d
  | .set s => r.insertSet s
  | .member group name => r.addMember group name
  | .skipped _ => r

/-- What there is to say before an item is taken up. -/
def remarks (r : Registry) : Item → List Warning
  | .declaration d => if r.declarations.contains d.name then [.redefinition d.name] else []
  | .set s => if r.sets.contains s.name then [.setRedefinition s.name] else []
  | .member _ _ => []
  | .skipped warning => [warning]

/-- Takes up items in order and lists what there was to say. -/
def takeAll (r : Registry) : List Item → Registry × List Warning
  | [] => (r, [])
  | item :: items =>
    let (r', warnings) := (r.take item).takeAll items
    (r', r.remarks item ++ warnings)

theorem takeAll_fst (r : Registry) (items : List Item) :
    (r.takeAll items).1 = items.foldl take r := by
  induction items generalizing r with
  | nil => rfl
  | cons item items ih => simp [takeAll, ih]

@[simp] theorem writtenBy?_resetWritten (r : Registry) (name : String) :
    r.resetWritten.writtenBy? name = none := rfl

/-- After a set is marked, it is the writer of all it refers to, and nothing else has changed. -/
theorem writtenBy?_markWritten (r : Registry) (s : ApiSet) (name : String) :
    (r.markWritten s).writtenBy? name =
      if name ∈ s.references then some s.name else r.writtenBy? name := by
  simp only [writtenBy?, markWritten]
  generalize r.written = w
  induction s.references generalizing w with
  | nil => simp
  | cons n ns ih =>
    simp only [List.foldl_cons, ih, Table.get?_insert, List.mem_cons]
    by_cases h : name ∈ ns
    · simp [h]
    · by_cases hn : n = name
      · simp [hn]
      · simp [h, hn, Ne.symm hn]

end Registry

end ApiHeaders
