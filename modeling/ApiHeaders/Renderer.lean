import ApiHeaders.ApiSet.Layout
import ApiHeaders.File
import ApiHeaders.Sink

/-!
# Rendering sets

A set without an annex is rendered into its target. A set with one is rendered into the file of the
annex, and the target refers to that file: a header by a line in the place of the set, a module by
one of its imports. What a set refers to counts as written from the moment it is rendered.

## Main definitions

* `Rendering` is the state between sets.
* `Rendering.reserve` reserves the path of a satellite.
* `Rendering.renderSet` renders a set into a target, `Rendering.render` one that is named.
-/

namespace ApiHeaders

/-- What rendering works on. -/
structure Rendering (σ : Type) where
  registry : Registry
  /-- The paths of all files that were begun. -/
  produced : List Path
  /-- The import lines for the satellites of modules. -/
  imports : List String
  /-- The state of the sink that satellites go to. -/
  sink : σ
  warnings : List Warning

namespace Rendering

/-- Notes that a file is begun, unless one at its place is. -/
def produce (produced : List Path) (path : Path) : Option (List Path) :=
  if produced.any (·.same path) then none else some (produced ++ [path])

/-- Reserves the file for an annex of a target. The core partition of a module is not to be had,
nor is the target itself or a file that was begun before. -/
def reserve (st : Rendering σ) (t : Target) (annex : String) : Except Error (Rendering σ) :=
  let path := t.annexPath annex
  if (t.form = .module && annex = corePartition) || path.same t.path then
    .error (.annexCollision annex path)
  else
    match produce st.produced path with
    | none => .error (.annexCollision annex path)
    | some produced => .ok { st with produced }

/-- Renders a set into the target itself. -/
def renderInline (st : Rendering σ) (s : ApiSet) (t : Target) (guard : Bool) :
    Except Failure (List String) × Rendering σ :=
  let lines := s.inlineLines st.registry t guard
  let st := { st with warnings := st.warnings ++ lines.warnings }
  match lines.result with
  | .ok lines => (.ok lines, { st with registry := st.registry.markWritten s })
  | .error e => (.error (.raised e), st)

/-- Lets a target refer to a satellite, by its lines or by an import. -/
def refer (st : Rendering σ) (s : ApiSet) (t satellite : Target) (guard : Bool) :
    List String × Rendering σ :=
  match t.form with
  | .header => (s.referenceLines st.registry guard satellite.reference, st)
  | .module => ([], { st with imports := st.imports ++ [satellite.reference] })

/-- Renders a set into a target with at most `fuel` files extracted from one another. -/
def renderWithin (sink : Sink σ) (b : Boilerplate) (guard : Bool) (s : ApiSet) (fuel : Nat)
    (t : Target) (st : Rendering σ) : Except Failure (List String) × Rendering σ :=
  match s.annexFrom? t with
  | none => st.renderInline s t guard
  | some annex =>
    match fuel with
    | 0 => (.error .endless, st)
    | fuel + 1 =>
      match st.reserve t annex with
      | .error e => (.error (.raised e), st)
      | .ok st =>
        let satellite := t.satellite annex (s.headers st.registry)
        match renderWithin sink b guard s fuel satellite st with
        | (.error e, st) => (.error e, st)
        | (.ok content, st) =>
          match sink.write st.sink satellite.path (satellite.file b content) with
          | (.error e, written) => (.error (.raised e), { st with sink := written })
          | (.ok (), written) =>
            let (lines, st) := { st with sink := written }.refer s t satellite guard
            (.ok lines, st)

section Equations

variable {sink : Sink σ} {b : Boilerplate} {guard : Bool} {s : ApiSet} {fuel : Nat} {t : Target}
  {st : Rendering σ}

theorem renderWithin_of_none (h : s.annexFrom? t = none) :
    renderWithin sink b guard s fuel t st = st.renderInline s t guard := by
  unfold renderWithin
  rw [h]

theorem renderWithin_of_error {annex : String} {e : Error} (h : s.annexFrom? t = some annex)
    (hst : st.reserve t annex = .error e) :
    renderWithin sink b guard s (fuel + 1) t st = (.error (.raised e), st) := by
  rw [renderWithin, h]
  simp only [hst]

theorem renderWithin_of_reserve {annex : String} {st₁ : Rendering σ}
    (h : s.annexFrom? t = some annex) (hst : st.reserve t annex = .ok st₁) :
    renderWithin sink b guard s (fuel + 1) t st =
      let satellite := t.satellite annex (s.headers st₁.registry)
      match renderWithin sink b guard s fuel satellite st₁ with
      | (.error e, st) => (.error e, st)
      | (.ok content, st) =>
        match sink.write st.sink satellite.path (satellite.file b content) with
        | (.error e, written) => (.error (.raised e), { st with sink := written })
        | (.ok (), written) =>
          let (lines, st) := { st with sink := written }.refer s t satellite guard
          (.ok lines, st) := by
  rw [renderWithin, h]
  simp only [hst]

end Equations

/-- How many files are extracted from one another at most, if that ends. An annex leads up from a
target, or down to new directories until there was a file before. -/
def extractionLimit (produced : List Path) (t : Target) : Nat :=
  2 * (t.path.components.length + (produced.map (·.components.length)).foldr max 0) + 4

/-- Renders a set into a target. -/
def renderSet (st : Rendering σ) (sink : Sink σ) (b : Boilerplate) (s : ApiSet) (t : Target)
    (guard : Bool) : Except Failure (List String) × Rendering σ :=
  renderWithin sink b guard s (extractionLimit st.produced t) t st

/-- Renders the set of a name into a target. -/
def render (st : Rendering σ) (sink : Sink σ) (b : Boilerplate) (name : String) (t : Target)
    (guard : Bool) : Except Failure (List String) × Rendering σ :=
  match st.registry.set? name with
  | none => (.error (.raised (.unknownSet name t.path)), st)
  | some s => st.renderSet sink b s t guard

end Rendering

end ApiHeaders
