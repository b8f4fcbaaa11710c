import ApiHeaders.Proofs.Neighbours
import ApiHeaders.Proofs.Sinks

/-!
# Extracting sets

A set that is extracted has the lines in its own file that it would have in the target, and the
registry remembers the same of it.

## Main definitions

* `Rendering.withoutAnnex` lets a set stay in the files that it is selected for.
* `Rendering.Collides` says that the file for an annex is not to be had.

## Main statements

* `ApiSet.items_congr` says what of a target the parts of a set depend on.
* `Rendering.renderWithin_extracted` says what extracting a set comes to.
* `extracted_as_inline` compares it with rendering the set into the target.
-/

namespace ApiHeaders

variable {σ : Type} {sink : Sink σ} {b : Boilerplate} {guard : Bool} {s : ApiSet} {t t' : Target}
  {r : Registry} {name a : String}

/-! ### What the lines of a set depend on -/

/-- The parts of a set depend on the form and the API families of the target only. -/
theorem ApiSet.items_congr (hform : t'.form = t.form) (hapis : t'.apis = t.apis) :
    s.items r t' = s.items r t := by
  obtain ⟨path, apis, form, preamble, moduleName, imports⟩ := t
  obtain ⟨path', apis', form', preamble', moduleName', imports'⟩ := t'
  cases hform
  cases hapis
  rfl

/-- Neither the sets of the registry nor the annex of the set matter to its lines. -/
theorem ApiSet.inlineLines_withoutAnnex (sets : Table String ApiSet) :
    ({ s with annex := none } : ApiSet).inlineLines { r with sets } t guard =
      s.inlineLines r t guard :=
  rfl

/-- A registry in which a set has no annex. -/
def Registry.withoutAnnex (r : Registry) (name : String) : Registry :=
  { r with sets := r.sets.modify name fun s => { s with annex := none } }

theorem Registry.set?_withoutAnnex (h : r.set? name = some s) :
    (r.withoutAnnex name).set? name = some { s with annex := none } := by
  have hget : r.sets.get? name = some s := h
  simp [withoutAnnex, set?, hget]

namespace Rendering

variable {st : Rendering σ}

theorem renderInline_congr (hform : t'.form = t.form) (hapis : t'.apis = t.apis) :
    st.renderInline s t' guard = st.renderInline s t guard := by
  rw [renderInline, ApiSet.inlineLines, ApiSet.items_congr hform hapis]
  rfl

/-! ### The file for an annex -/

/-- The file for an annex is not to be had: it is begun already, or the annex is called like the
core partition of a module. -/
def Collides (st : Rendering σ) (t : Target) (a : String) : Prop :=
  (∃ p ∈ st.produced, p.same (t.annexPath a)) ∨ t.form = .module ∧ a = corePartition

theorem reserve_of_collides (h : st.Collides t a) :
    st.reserve t a = .error (.annexCollision a (t.annexPath a)) := by
  rw [reserve]
  rcases h with hproduced | hcore
  · have hany : st.produced.any (·.same (t.annexPath a)) = true := List.any_eq_true.2 hproduced
    simp only [produce, hany]
    split <;> rfl
  · simp [hcore]

theorem reserve_of_not_collides (h : ¬st.Collides t a)
    (hother : (t.annexPath a).components ≠ t.path.components) :
    st.reserve t a = .ok { st with produced := st.produced ++ [t.annexPath a] } := by
  rw [Collides, not_or] at h
  obtain ⟨hproduced, hcore⟩ := h
  have hany : st.produced.any (·.same (t.annexPath a)) = false := by
    rw [Bool.eq_false_iff, ne_eq, List.any_eq_true]
    exact hproduced
  have hother : (t.annexPath a).same t.path = false := by simpa [Path.same] using hother
  simp [reserve, produce, hany, hcore, hother]

/-- What a reservation checks, and what it changes. -/
theorem reserve_eq_ok_iff {st' : Rendering σ} :
    st.reserve t a = .ok st' ↔
      ¬st.Collides t a ∧ (t.annexPath a).components ≠ t.path.components ∧
        st' = { st with produced := st.produced ++ [t.annexPath a] } := by
  constructor
  · intro h
    have hfree : ¬st.Collides t a := by
      intro hcollides
      rw [reserve_of_collides hcollides] at h
      cases h
    have hother : (t.annexPath a).components ≠ t.path.components := by
      intro hsame
      rw [reserve, if_pos (by simp [Path.same, hsame])] at h
      cases h
    rw [reserve_of_not_collides hfree hother] at h
    exact ⟨hfree, hother, (Except.ok.inj h).symm⟩
  · rintro ⟨hfree, hother, rfl⟩
    exact reserve_of_not_collides hfree hother

/-- No other error comes of a reservation. -/
theorem eq_annexCollision_of_reserve {e : Error} (h : st.reserve t a = .error e) :
    e = .annexCollision a (t.annexPath a) := by
  simp only [reserve] at h
  split at h
  · cases h
    rfl
  · split at h
    · cases h
      rfl
    · cases h

/-! ### Extracting a set -/

/-- What a set comes to that is extracted: the lines that it would have in the target make up the
contents of its satellite. -/
theorem renderWithin_extracted {fuel : Nat} (ha : s.annexFrom? t = some a)
    (hsatellite : (t.satellite a (s.headers st.registry)).isAnnex a) :
    renderWithin sink b guard s (fuel + 1) t st =
      match st.reserve t a with
      | .error e => (.error (.raised e), st)
      | .ok st₁ =>
        let satellite := t.satellite a (s.headers st.registry)
        match st₁.renderInline s t guard with
        | (.error e, st) => (.error e, st)
        | (.ok content, st) =>
          match sink.write st.sink satellite.path (satellite.file b content) with
          | (.error e, written) => (.error (.raised e), { st with sink := written })
          | (.ok (), written) =>
            let (lines, st) := { st with sink := written }.refer s t satellite guard
            (.ok lines, st) := by
  cases hst : st.reserve t a with
  | error e => exact renderWithin_of_error ha hst
  | ok st₁ =>
    have hregistry : st₁.registry = st.registry := by rw [eq_of_reserve hst]
    have hannex : s.annex = some a := (Option.filter_eq_some_iff.1 ha).1
    have hnone : s.annexFrom? (t.satellite a (s.headers st.registry)) = none := by
      rw [ApiSet.annexFrom?, hannex, Option.filter_some, hsatellite]
      rfl
    have hinline : renderWithin sink b guard s fuel (t.satellite a (s.headers st.registry)) st₁ =
        st₁.renderInline s t guard := (renderWithin_of_none hnone).trans (renderInline_congr rfl rfl)
    have hrender : renderWithin sink b guard s (fuel + 1) t st = _ := renderWithin_of_reserve ha hst
    simp only [hregistry, hinline] at hrender
    exact hrender

theorem render_of_set? {st : Rendering σ} (h : st.registry.set? name = some s) (sink : Sink σ)
    (b : Boilerplate) (t : Target) (guard : Bool) :
    ∃ fuel, st.render sink b name t guard = renderWithin sink b guard s (fuel + 1) t st := by
  obtain ⟨fuel, hfuel⟩ : ∃ fuel, extractionLimit st.produced t = fuel + 1 := by
    refine ⟨extractionLimit st.produced t - 1, ?_⟩
    unfold extractionLimit
    omega
  refine ⟨fuel, ?_⟩
  rw [render, h]
  simp only [renderSet, hfuel]

/-- A rendering in whose registry a set has no annex. -/
def withoutAnnex (st : Rendering σ) (name : String) : Rendering σ :=
  { st with registry := st.registry.withoutAnnex name }

/-- Rendering into the target takes no notice of the annex. -/
theorem renderInline_withoutAnnex (st : Rendering σ) (s : ApiSet) (name : String) (t : Target)
    (guard : Bool) :
    (st.withoutAnnex name).renderInline { s with annex := none } t guard =
      ((st.renderInline s t guard).1, (st.renderInline s t guard).2.withoutAnnex name) := by
  have hlines : ({ s with annex := none } : ApiSet).inlineLines (st.withoutAnnex name).registry t
      guard = s.inlineLines st.registry t guard := s.inlineLines_withoutAnnex _
  rw [renderInline, renderInline, hlines]
  cases (s.inlineLines st.registry t guard).result <;> rfl

/-- Without its annex, a set is rendered into the target. -/
theorem render_withoutAnnex (h : st.registry.set? name = some s) :
    (st.withoutAnnex name).render sink b name t guard =
      ((st.renderInline s t guard).1, (st.renderInline s t guard).2.withoutAnnex name) := by
  have hset : (st.withoutAnnex name).registry.set? name = some { s with annex := none } :=
    Registry.set?_withoutAnnex h
  obtain ⟨fuel, hrender⟩ := render_of_set? hset sink b t guard
  rw [hrender, renderWithin_of_none rfl, renderInline_withoutAnnex]

end Rendering

/-- A set that is extracted has the lines in its own file that it would have in the target without
its annex, and counts as written to the same extent. Extracting it fails only if its file is not to
be had, if the set cannot be rendered into the target either, or if the sink refuses its file. -/
theorem extracted_as_inline {st : Rendering σ} {ext : String}
    (hs : st.registry.set? name = some s) (ha : s.annex = some a) (hempty : a ≠ "")
    (hslash : '/' ∉ a.toList) (hext : t.path.extension? = some ext) (hextempty : ext ≠ "")
    (hstem : t.path.stem ≠ a) (sink : Sink σ) (b : Boilerplate) (guard : Bool) :
    let inline := (st.withoutAnnex name).render sink b name t guard
    let extracted := st.render sink b name t guard
    let satellite := t.satellite a (s.headers st.registry)
    let written := fun lines => sink.write st.sink satellite.path (satellite.file b lines)
    satellite.path.components = t.path.components.dropLast ++ [.named (a ++ "." ++ ext)] ∧
    (∀ content, extracted.1 = .ok content →
      ∃ lines, inline.1 = .ok lines ∧ written lines = (.ok (), extracted.2.sink) ∧
        extracted.2.registry.written = inline.2.registry.written) ∧
    ∀ e, extracted.1 = .error e ↔
      st.Collides t a ∧ e = .raised (.annexCollision a satellite.path) ∨
      ¬st.Collides t a ∧ inline.1 = .error e ∨
      ¬st.Collides t a ∧ ∃ lines refusal, inline.1 = .ok lines ∧
        (written lines).1 = .error refusal ∧ e = .raised refusal := by
  intro inline extracted satellite written
  have hfits : t.Fits a := Target.fits_of_extension hext hextempty hempty
  obtain ⟨file, hfile, -⟩ := Path.eq_of_extension? hext
  have hannex : s.annexFrom? t = some a := by
    rw [ApiSet.annexFrom?, ha]
    simp [Target.isAnnex, hstem]
  have hsatellite := Target.isAnnex_satellite hfile hfits hslash (s.headers st.registry)
  refine ⟨Target.components_annexPath_of_extension hext hfits hslash, ?_⟩
  have hinline : inline = _ := Rendering.render_withoutAnnex hs
  obtain ⟨fuel, hextracted⟩ := Rendering.render_of_set? hs sink b t guard
  rw [Rendering.renderWithin_extracted hannex hsatellite] at hextracted
  change extracted = _ at hextracted
  by_cases hcollides : st.Collides t a
  · rw [Rendering.reserve_of_collides hcollides] at hextracted
    simp only [hextracted, hcollides, not_true, false_and, or_false, true_and, Except.error.injEq]
    refine ⟨?_, fun e => eq_comm⟩
    intro _ h
    cases h
  · have hother := Target.components_annexPath_ne hfile hfits hslash hstem
    rw [Rendering.reserve_of_not_collides hcollides hother] at hextracted
    simp only [Rendering.renderInline] at hextracted hinline
    simp only [hcollides, false_and, false_or, not_false_eq_true, true_and]
    cases hlines : (s.inlineLines st.registry t guard).result with
    | error e =>
      simp only [hlines] at hextracted hinline
      rw [hextracted, hinline]
      simp
    | ok lines =>
      simp only [hlines] at hextracted hinline
      rw [hinline]
      cases hwrite : written lines with
      | mk result after =>
        have hwrite' : sink.write st.sink (t.satellite a (s.headers st.registry)).path
          ((t.satellite a (s.headers st.registry)).file b lines) = (result, after) := hwrite
        rw [hwrite'] at hextracted
        cases result with
        | error e =>
          rw [hextracted]
          simp [hwrite, eq_comm (a := Failure.raised e)]
        | ok =>
          obtain ⟨st', hsink, hregistry, hextracted⟩ : ∃ st' : Rendering σ, st'.sink = after ∧
              st'.registry = st.registry.markWritten s ∧
              extracted = (.ok (st'.refer s t satellite guard).1,
                (st'.refer s t satellite guard).2) := ⟨_, rfl, rfl, hextracted⟩
          rw [hextracted]
          simp only [Except.ok.injEq, reduceCtorEq, false_or, exists_and_left, exists_eq_left',
            hwrite, false_and, exists_false, forall_eq', Rendering.sink_refer,
            Rendering.registry_refer, hsink, hregistry, true_and]
          exact ⟨rfl, fun _ => trivial⟩

/-- The set `B` is to be extracted from its files. -/
def extractingB : Rendering (List NamedFile) where
  registry := (sharedConstant none).insertSet { requiringConstant "B" none with annex := some "efx" }
  produced := [⟨"include/al.h"⟩]
  imports := []
  sink := []
  warnings := []

/-- Extracted from a header in a folder, the set is written into one file in the same folder. -/
theorem constant_extracted_as_inline :
    let t := Target.of ⟨"include/al.h"⟩ ["al"] .header
    ∃ lines, ((extractingB.withoutAnnex "B").render (recorder []) {} "B" t true).1 = .ok lines ∧
      (extractingB.render (recorder []) {} "B" t true).2.sink =
        [⟨⟨"include/efx.h"⟩, (t.satellite "efx" []).file {} lines⟩] := by
  intro t
  let s : ApiSet := { requiringConstant "B" none with annex := some "efx" }
  have hs : extractingB.registry.set? "B" = some s := rfl
  have hext : t.path.extension? = some "h" := by decide
  obtain ⟨-, hok, -⟩ := extracted_as_inline hs rfl (by decide) (by decide) hext (by decide)
    (by decide) (recorder []) {} true
  have hsome : (extractingB.render (recorder []) {} "B" t true).1.toOption.isSome := by decide
  cases hextracted : (extractingB.render (recorder []) {} "B" t true).1 with
  | error e =>
    rw [hextracted] at hsome
    cases hsome
  | ok content =>
    obtain ⟨lines, hinline, hwritten, -⟩ := hok content hextracted
    have hheaders : s.headers extractingB.registry = [] := by decide
    have hpath : (t.satellite "efx" []).path = ⟨"include/efx.h"⟩ := by decide
    rw [hheaders] at hwritten
    have hsink := (congrArg Prod.snd hwritten).symm
    refine ⟨lines, hinline, hsink.trans ?_⟩
    simp only [recorder, List.not_mem_nil, if_false, hpath]
    rfl

end ApiHeaders
