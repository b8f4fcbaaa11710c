import ApiHeaders.Proofs.Written

/-!
# Renderings that resemble one another

Two renderings run side by side: of the same set or of sets with the same lines, with registries
that differ in what the lines do not show, into targets that differ in what stands before their
contents, with sinks that answer alike. Both end in the same way.

## Main definitions

* `Resembles` lists what has to be the same on both sides.
* `Rendering.Alike` compares the states of two renderings.

## Main statements

* `Rendering.renderWithin_alike` runs two renderings side by side.
-/

namespace ApiHeaders

variable {σ τ : Type}

/-- What keeps renderings of `s` and `s'` alike, where `registries`, `targets` and `sinks` say what
may differ between the two sides. -/
structure Resembles (registries : Registry → Registry → Prop) (targets : Target → Target → Prop)
    (sinks : σ → τ → Prop) (sink : Sink σ) (sink' : Sink τ) (b b' : Boilerplate) (guard : Bool)
    (s s' : ApiSet) : Prop where
  name : s'.name = s.name
  annex : s'.annex = s.annex
  opening : ∀ {r r'}, registries r r' → s'.opening r' guard = s.opening r guard
  lines : ∀ {r r' t t'}, registries r r' → targets t t' →
    s'.inlineLines r' t' guard = s.inlineLines r t guard
  marked : ∀ {r r'}, registries r r' → registries (r.markWritten s) (r'.markWritten s')
  target : ∀ {t t'}, targets t t' → t' = { t with preamble := t'.preamble }
  satellite : ∀ {r r' t t'} (a : String), registries r r' → targets t t' →
    targets (t.satellite a (s.headers r)) (t'.satellite a (s'.headers r'))
  /-- The sinks answer alike when they are handed satellites. -/
  taken : ∀ {r r' t t' x y} (a : String) (content : List String), registries r r' →
    targets t t' → sinks x y →
    let satellite := t.satellite a (s.headers r)
    let satellite' := t'.satellite a (s'.headers r')
    ∃ y', sink'.write y satellite'.path (satellite'.file b' content) =
        ((sink.write x satellite.path (satellite.file b content)).1, y') ∧
      sinks (sink.write x satellite.path (satellite.file b content)).2 y'

namespace Rendering

/-- Two renderings that differ in their registries and in the states of their sinks only. -/
structure Alike (registries : Registry → Registry → Prop) (sinks : σ → τ → Prop)
    (st : Rendering σ) (st' : Rendering τ) : Prop where
  registry : registries st.registry st'.registry
  produced : st'.produced = st.produced
  imports : st'.imports = st.imports
  sink : sinks st.sink st'.sink
  warnings : st'.warnings = st.warnings

variable {registries : Registry → Registry → Prop} {targets : Target → Target → Prop}
  {sinks : σ → τ → Prop} {sink : Sink σ} {sink' : Sink τ} {b b' : Boilerplate} {guard : Bool}
  {s s' : ApiSet} {t t' : Target} {st st₁ : Rendering σ} {st' : Rendering τ} {a : String}

/-- A file can be reserved on both sides or on none. -/
theorem Alike.reserve_eq (h : st.Alike registries sinks st')
    (ht : t' = { t with preamble := t'.preamble }) (a : String) :
    st'.reserve t' a =
      (st.reserve t a).map fun st₁ => { st' with produced := st₁.produced } := by
  have hpath : t'.annexPath a = t.annexPath a := by rw [ht]; rfl
  have hform : t'.form = t.form := by rw [ht]
  have hown : t'.path = t.path := by rw [ht]
  simp only [reserve, hpath, hform, hown, h.produced]
  split
  · rfl
  · cases produce st.produced (t.annexPath a) <;> rfl

theorem Alike.reserve_of_ok (h : st.Alike registries sinks st')
    (ht : t' = { t with preamble := t'.preamble }) (hreserve : st.reserve t a = .ok st₁) :
    ∃ st₁', st'.reserve t' a = .ok st₁' ∧ st₁.Alike registries sinks st₁' := by
  have hreserve' := h.reserve_eq ht a
  rw [hreserve] at hreserve'
  refine ⟨_, hreserve', ?_⟩
  rw [eq_of_reserve hreserve]
  exact ⟨h.registry, rfl, h.imports, h.sink, h.warnings⟩

/-- Rendering a set into the target itself comes to the same on both sides. -/
theorem Alike.renderInline
    (h : Resembles registries targets sinks sink sink' b b' guard s s')
    (hst : st.Alike registries sinks st') (ht : targets t t') :
    ∃ st₁', st'.renderInline s' t' guard = ((st.renderInline s t guard).1, st₁') ∧
      (st.renderInline s t guard).2.Alike registries sinks st₁' := by
  simp only [Rendering.renderInline, h.lines hst.registry ht, hst.warnings]
  cases (s.inlineLines st.registry t guard).result with
  | error e => exact ⟨_, rfl, hst.registry, hst.produced, hst.imports, hst.sink, rfl⟩
  | ok lines => exact ⟨_, rfl, h.marked hst.registry, hst.produced, hst.imports, hst.sink, rfl⟩

/-- Satellites are referred to in the same way on both sides. -/
theorem Alike.refer
    (h : Resembles registries targets sinks sink sink' b b' guard s s')
    (hst : st.Alike registries sinks st') (ht : targets t t') {satellite satellite' : Target}
    (hsatellite : targets satellite satellite') :
    ∃ st₁', st'.refer s' t' satellite' guard = ((st.refer s t satellite guard).1, st₁') ∧
      (st.refer s t satellite guard).2.Alike registries sinks st₁' := by
  have hform : t'.form = t.form := by rw [h.target ht]
  have hreference : satellite'.reference = satellite.reference := by
    rw [h.target hsatellite]
    rfl
  have hclosing : s'.closing guard = s.closing guard := by
    rw [ApiSet.closing, ApiSet.closing, h.name]
  simp only [Rendering.refer, hform, ApiSet.referenceLines, h.opening hst.registry, hclosing,
    hreference, hst.imports]
  cases t.form with
  | header => exact ⟨_, rfl, hst⟩
  | module => exact ⟨_, rfl, hst.registry, hst.produced, rfl, hst.sink, hst.warnings⟩

/-- Two renderings that resemble one another give the same lines or the same error, and are alike
in the end. -/
theorem renderWithin_alike (h : Resembles registries targets sinks sink sink' b b' guard s s')
    (fuel : Nat) (t : Target) (st : Rendering σ) :
    ∀ t' (st' : Rendering τ), targets t t' → st.Alike registries sinks st' →
      ∃ st₁', renderWithin sink' b' guard s' fuel t' st' =
          ((renderWithin sink b guard s fuel t st).1, st₁') ∧
        (renderWithin sink b guard s fuel t st).2.Alike registries sinks st₁' := by
  have hannexFrom {t t' : Target} (ht : targets t t') : s'.annexFrom? t' = s.annexFrom? t := by
    rw [ApiSet.annexFrom?, ApiSet.annexFrom?, h.annex, h.target ht]
    rfl
  fun_induction renderWithin sink b guard s fuel t st with
  | case1 fuel t st ha =>
    intro t' st' ht hst
    rw [renderWithin_of_none ((hannexFrom ht).trans ha)]
    exact hst.renderInline h ht
  | case2 t st annex ha =>
    intro t' st' ht hst
    rw [renderWithin, (hannexFrom ht).trans ha]
    exact ⟨_, rfl, hst⟩
  | case3 t st annex ha fuel e hreserve =>
    intro t' st' ht hst
    have hreserve' := hst.reserve_eq (h.target ht) annex
    rw [hreserve] at hreserve'
    rw [renderWithin_of_error ((hannexFrom ht).trans ha) hreserve']
    exact ⟨_, rfl, hst⟩
  | case4 t st annex ha fuel st₁ hreserve satellite e st₂ hinner ih =>
    intro t' st' ht hst
    obtain ⟨st₁', hreserve', hst₁⟩ := hst.reserve_of_ok (h.target ht) hreserve
    obtain ⟨st₂', hinner', hst₂⟩ := ih _ st₁' (h.satellite annex hst₁.registry ht) hst₁
    rw [hinner] at hinner' hst₂
    rw [renderWithin_of_reserve ((hannexFrom ht).trans ha) hreserve']
    simp only [hinner']
    exact ⟨_, rfl, hst₂⟩
  | case5 t st annex ha fuel st₁ hreserve satellite content st₂ hinner e written hwrite ih =>
    intro t' st' ht hst
    obtain ⟨st₁', hreserve', hst₁⟩ := hst.reserve_of_ok (h.target ht) hreserve
    obtain ⟨st₂', hinner', hst₂⟩ := ih _ st₁' (h.satellite annex hst₁.registry ht) hst₁
    rw [hinner] at hinner' hst₂
    obtain ⟨written', hwrite', hwritten⟩ := h.taken annex content hst₁.registry ht hst₂.sink
    rw [hwrite] at hwrite' hwritten
    rw [renderWithin_of_reserve ((hannexFrom ht).trans ha) hreserve']
    simp only [hinner', hwrite']
    exact ⟨_, rfl, hst₂.registry, hst₂.produced, hst₂.imports, hwritten, hst₂.warnings⟩
  | case6 t st annex ha fuel st₁ hreserve satellite content st₂ hinner written hwrite lines st₃
      hrefer ih =>
    intro t' st' ht hst
    obtain ⟨st₁', hreserve', hst₁⟩ := hst.reserve_of_ok (h.target ht) hreserve
    have hsatellite := h.satellite annex hst₁.registry ht
    obtain ⟨st₂', hinner', hst₂⟩ := ih _ st₁' hsatellite hst₁
    rw [hinner] at hinner' hst₂
    obtain ⟨written', hwrite', hwritten⟩ := h.taken annex content hst₁.registry ht hst₂.sink
    rw [hwrite] at hwrite' hwritten
    have hst₂w : ({ st₂ with sink := written } : Rendering σ).Alike registries sinks
        { st₂' with sink := written' } :=
      ⟨hst₂.registry, hst₂.produced, hst₂.imports, hwritten, hst₂.warnings⟩
    obtain ⟨st₃', hrefer', hst₃⟩ := hst₂w.refer h ht hsatellite
    rw [hrefer] at hrefer' hst₃
    rw [renderWithin_of_reserve ((hannexFrom ht).trans ha) hreserve']
    simp only [hinner', hwrite', hrefer']
    exact ⟨_, rfl, hst₃⟩

end Rendering

end ApiHeaders
