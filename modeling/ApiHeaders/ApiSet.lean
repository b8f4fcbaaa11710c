/-!
# API sets

Features and extensions, and what they require.

## Main definitions

* `Requirement` lists declarations by name, for all API families or for one.
* `ApiSet` is a feature or an extension.
-/

namespace ApiHeaders

/-- Names that an API set requires together. -/
structure Requirement where
  names : List String := []
  comment : Option String := none
  /-- The only API family that the requirement is for. -/
  api : Option String := none
  deriving DecidableEq, Repr, Inhabited

/-- Whether a requirement applies where the families `apis` are targeted. -/
def Requirement.appliesTo (r : Requirement) (apis : List String) : Bool := r.api.all (· ∈ apis)

inductive SetKind where
  | feature
  | extension
  deriving DecidableEq, Repr, Inhabited

/-- A feature or an extension. -/
structure ApiSet where
  kind : SetKind
  name : String
  /-- The API families that support the set. -/
  apis : List String
  requirements : List Requirement
  /-- The base name of the file that the set is extracted into. -/
  annex : Option String
  doc : Option (List String)
  deriving DecidableEq, Repr, Inhabited

namespace ApiSet

def isFeature (s : ApiSet) : Bool := s.kind = .feature

def supportsAny (s : ApiSet) (apis : List String) : Bool := s.apis.any (· ∈ apis)

/-- The names that a set requires, in order. -/
def references (s : ApiSet) : List String := s.requirements.flatMap (·.names)

end ApiSet

end ApiHeaders
