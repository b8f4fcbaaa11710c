/-!
# Declarations

What a registry declares. Commands, enumerants and types never share an identifier, so all of them
are declarations of one kind or another under one name.

## Main definitions

* `Command`, `Enumerant`, `Typedef` and `Verbatim` are the declarations that have a text.
* `Declaration` is any of them, or the marker of an external header.
-/

namespace ApiHeaders

/-- A parameter of a command. -/
structure Parameter where
  type : String
  name : String
  /-- Type and name together, as the registry writes them. -/
  repr : String
  deriving DecidableEq, Repr, Inhabited

/-- A function of the API. -/
structure Command where
  name : String
  /-- The namespace whose macros the command uses, such as `AL` or `ALC`. -/
  scope : String
  returnType : String
  parameters : List Parameter
  /-- The name of the command's function pointer type. -/
  pointerName : String
  /-- The only API family that exports the command, if not all do. -/
  exportedOn : Option String
  noexcept : Bool
  doc : Option (List String)
  deprecated : Option String
  deriving DecidableEq, Repr, Inhabited

/-- What an enumerant names as a property of an object class. -/
structure Property where
  /-- The class of objects that have the property. -/
  owner : Option String := none
  type : Option String := none
  /-- A numeric range, a list of values, or the name of a group of enumerants. -/
  range : Option String := none
  default : Option String := none
  /-- The class of the object that a handle of this property refers to. -/
  valueClass : Option String := none
  deriving DecidableEq, Repr, Inhabited

/-- A named constant. -/
structure Enumerant where
  name : String
  value : String
  property : Option Property
  groups : List String
  doc : Option (List String)
  deprecated : Option String
  deriving DecidableEq, Repr, Inhabited

/-- A type that is another name for the type written on its left. -/
structure Typedef where
  type : String
  name : String
  /-- The whole definition, as the registry writes it. -/
  repr : String
  doc : Option (List String)
  deprecated : Option String
  deriving DecidableEq, Repr, Inhabited

/-- Code that is taken over as it stands. -/
structure Verbatim where
  name : String
  category : Option String
  repr : String
  doc : Option (List String)
  deprecated : Option String
  deriving DecidableEq, Repr, Inhabited

/-- Whether the code defines a function pointer type. -/
def Verbatim.isFunctionPointer (v : Verbatim) : Bool := v.category = some "funcpointer"

/-- A declaration of a registry. -/
inductive Declaration where
  | command (c : Command)
  | enumerant (e : Enumerant)
  | typedef (t : Typedef)
  | verbatim (v : Verbatim)
  /-- A header outside the registry that others have to include. -/
  | header (name : String)
  deriving DecidableEq, Repr, Inhabited

namespace Declaration

/-- The name that a declaration is found under. -/
def name : Declaration → String
  | command c => c.name
  | enumerant e => e.name
  | typedef t => t.name
  | verbatim v => v.name
  | header name => name

def isCommand : Declaration → Bool
  | command _ => true
  | _ => false

def isHeader : Declaration → Bool
  | header _ => true
  | _ => false

/-- A declaration without its documentation. -/
def withoutDoc : Declaration → Declaration
  | command c => command { c with doc := none }
  | enumerant e => enumerant { e with doc := none }
  | typedef t => typedef { t with doc := none }
  | verbatim v => verbatim { v with doc := none }
  | header name => header name

@[simp] theorem name_withoutDoc (d : Declaration) : d.withoutDoc.name = d.name := by cases d <;> rfl

@[simp] theorem isCommand_withoutDoc (d : Declaration) : d.withoutDoc.isCommand = d.isCommand := by
  cases d <;> rfl

end Declaration

end ApiHeaders
