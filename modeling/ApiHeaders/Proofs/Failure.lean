import ApiHeaders.Proofs.Covering
import ApiHeaders.Proofs.Extraction

/-!
# Renderings that fail

A set is marked, its files are handed on and its imports are noted only after all of its passes have
come to their end. So a rendering that fails leaves nothing behind but the paths that it reserved on
the way to the target where it failed.

## Main definitions

* `Declaration.Malformed` says which declarations have no text.
* `ApiSet.Extracted` follows a set through the satellites that it is extracted into.
* `Rendering.FailsAt` says why a set cannot be rendered into a target.
* `Rendering.Fails` says what a rendering that failed left behind.

## Main statements

* `ApiSet.malformed_of_items` says why the passes over a set fail.
* `Rendering.fails_of_renderWithin` says where a rendering failed and what it left behind.
-/

namespace ApiHeaders

variable {σ : Type} {sink : Sink σ} {b : Boilerplate} {guard : Bool} {s : ApiSet} {t t' : Target}
  {r : Registry} {paths : List Path} {fuel : Nat} {name a : String} {e : Error}
  {failure : Failure}

/-! ### Passes that fail -/

/-- The only declarations that may have no text are function pointer types in modules. The error
holds the definition that cannot be read. -/
inductive Declaration.Malformed : Declaration → Form → Error → Prop
  | functionPointer {v : Verbatim} (hv : v.isFunctionPointer) :
      Malformed (.verbatim v) .module (.malformedFunctionPointer v.name v.repr)

theorem Declaration.Malformed.of_withoutDoc {d : Declaration} {form : Form}
    (h : d.withoutDoc.Malformed form e) : d.Malformed form e := by
  cases d with
  | verbatim v =>
    cases h with
    | functionPointer hv => exact .functionPointer (v := v) hv
  | command | enumerant | typedef | header => cases h

theorem Verbatim.malformed_of_render {v : Verbatim} {form : Form}
    (h : v.render r form = .error e) : (Declaration.verbatim v).Malformed form e := by
  simp only [Verbatim.render] at h
  split at h
  · next hcond =>
    rw [Bool.and_eq_true] at hcond
    obtain rfl : form = .module := of_decide_eq_true hcond.1
    split at h
    · cases h
    · cases h
      exact .functionPointer hcond.2
  · cases h

theorem Declaration.malformed_of_render {d : Declaration} {pointer : Bool}
    (hd : d.isHeader = false) (h : d.render pointer r t = .error e) : d.Malformed t.form e := by
  cases d with
  | verbatim v => exact Verbatim.malformed_of_render (map_eq_error.1 h)
  | header => cases hd
  | command | enumerant | typedef => cases h

theorem Declaration.isHeader_withoutDoc (d : Declaration) : d.withoutDoc.isHeader = d.isHeader := by
  cases d <;> rfl

/-- No pass takes the marker of a header for a declaration, and everything else but malformed
declarations has a block. -/
theorem Block.malformed_of_of {p : Pass} {writer : Option String} {d : Declaration}
    (hd : p.accepts d) (h : Block.of r t p writer d = .error e) : d.Malformed t.form e := by
  have hheader : d.isHeader = false := by
    rw [Pass.accepts, Bool.and_eq_true, Bool.not_eq_true'] at hd
    exact hd.1
  cases writer with
  | none => exact Declaration.malformed_of_render hheader (map_eq_error.1 h)
  | some w =>
    refine (Declaration.malformed_of_render ?_ (map_eq_error.1 h)).of_withoutDoc
    rw [Declaration.isHeader_withoutDoc, hheader]

theorem Block.malformed_of_ofReference {p : Pass}
    (h : (Block.ofReference r s t p name).result = .error e) :
    ∃ d, r.find? name = some d ∧ d.Malformed t.form e := by
  rw [Block.result_ofReference] at h
  split at h
  · cases h
  · next d hd =>
    obtain ⟨hfound, haccepts⟩ := Option.filter_eq_some_iff.1 hd
    exact ⟨d, hfound, malformed_of_of haccepts (map_eq_error.1 h)⟩

/-- If the passes over a set fail, one of the declarations that it refers to is malformed. -/
theorem ApiSet.malformed_of_items (h : (s.items r t).result = .error e) :
    ∃ name ∈ s.targeted t, ∃ d, r.find? name = some d ∧ d.Malformed t.form e := by
  obtain ⟨p, -, hpass⟩ :=
    Logged.exists_of_traverse_eq_error (Logged.result_bind_pure_eq_error.1 h)
  obtain ⟨req, hreq, hsection⟩ :=
    Logged.exists_of_traverse_eq_error (Logged.result_bind_pure_eq_error.1 hpass)
  obtain ⟨name, hname, hreference⟩ :=
    Logged.exists_of_traverse_eq_error (Logged.result_bind_pure_eq_error.1 hsection)
  exact ⟨name, List.mem_flatMap.2 ⟨req, hreq, hname⟩, Block.malformed_of_ofReference hreference⟩

/-! ### Renderings that fail -/

/-- The satellites that a set is extracted into, each from the one before, lead from one target to
another. -/
inductive ApiSet.Extracted (s : ApiSet) (r : Registry) : Target → List Path → Target → Prop
  | here {t : Target} : Extracted s r t [] t
  | satellite {t t' : Target} {a : String} {paths : List Path} (h : s.annexFrom? t = some a)
      (rest : Extracted s r (t.satellite a (s.headers r)) paths t') :
      Extracted s r t (t.annexPath a :: paths) t'

namespace Rendering

variable {st st₁ : Rendering σ}

/-- Why a set cannot be rendered into a target: one of its passes fails, its file is not to be had,
or there is no end to the files that it is extracted into. -/
inductive FailsAt (st : Rendering σ) (s : ApiSet) (t : Target) : Failure → Prop
  | pass {e : Error} (h : s.annexFrom? t = none)
      (hitems : (s.items st.registry t).result = .error e) : FailsAt st s t (.raised e)
  | refused {a : String} {e : Error} (h : s.annexFrom? t = some a)
      (hst : st.reserve t a = .error e) : FailsAt st s t (.raised e)
  | endless {a : String} (h : s.annexFrom? t = some a) : FailsAt st s t .endless

/-- A rendering of a set that came to no lines, and what it left behind: some reserved paths. -/
structure Fails (st : Rendering σ) (s : ApiSet) (t : Target) (e : Failure) (st' : Rendering σ) :
    Prop where
  target : ∃ paths t', s.Extracted st.registry t paths t' ∧
    st'.produced = st.produced ++ paths ∧ st'.FailsAt s t' e
  registry : st'.registry = st.registry
  sink : st'.sink = st.sink
  imports : st'.imports = st.imports

theorem FailsAt.fails (h : st.FailsAt s t failure) : st.Fails s t failure st :=
  ⟨⟨[], t, .here, (List.append_nil _).symm, h⟩, rfl, rfl, rfl⟩

theorem fails_of_renderInline (h : s.annexFrom? t = none)
    (he : (st.renderInline s t guard).1 = .error failure) :
    st.Fails s t failure (st.renderInline s t guard).2 := by
  rw [renderInline_fst, mapError_eq_error] at he
  obtain ⟨e, he, rfl⟩ := he
  have hitems : (s.items st.registry t).result = .error e := by
    rw [s.result_inlineLines] at he
    exact map_eq_error.1 he
  simp only [renderInline, he]
  exact ⟨⟨[], t, .here, (List.append_nil _).symm, .pass h hitems⟩, rfl, rfl, rfl⟩

/-- A rendering fails if the satellite cannot be rendered. -/
theorem Fails.extracted {st' : Rendering σ} (ha : s.annexFrom? t = some a)
    (hst : st.reserve t a = .ok st₁)
    (h : st₁.Fails s (t.satellite a (s.headers st₁.registry)) failure st') :
    st.Fails s t failure st' := by
  obtain ⟨-, -, rfl⟩ := reserve_eq_ok_iff.1 hst
  obtain ⟨paths, t', hextracted, hproduced, hfails⟩ := h.target
  refine ⟨⟨t.annexPath a :: paths, t', .satellite ha hextracted, ?_, hfails⟩, h.registry, h.sink,
    h.imports⟩
  rw [hproduced, List.append_assoc, List.singleton_append]

/-- A set that cannot be rendered leaves nothing behind but paths. -/
theorem fails_of_renderWithin (hsink : sink.TakesAll) (b : Boilerplate) (guard : Bool) (s : ApiSet)
    (fuel : Nat) (t : Target) (st : Rendering σ) :
    ∀ e, (renderWithin sink b guard s fuel t st).1 = .error e →
      st.Fails s t e (renderWithin sink b guard s fuel t st).2 := by
  fun_induction renderWithin sink b guard s fuel t st with
  | case1 fuel t st ha => exact fun e he => fails_of_renderInline ha he
  | case2 t st annex ha =>
    intro e he
    cases he
    exact (FailsAt.endless ha).fails
  | case3 t st annex ha fuel e' hst =>
    intro e he
    cases he
    exact (FailsAt.refused ha hst).fails
  | case4 t st annex ha fuel st₁ hst satellite e' st₂ hinner ih =>
    intro e he
    cases he
    have hfails := ih e' (by rw [hinner])
    rw [hinner] at hfails
    exact hfails.extracted ha hst
  | case5 t st annex ha fuel st₁ hst satellite content st₂ hinner e' written hwrite ih =>
    exact absurd hwrite hsink.not_refused
  | case6 =>
    intro e he
    cases he

end Rendering

/-- A rendering that fails leaves no half-done work: the registry and what it remembers, the imports
and the sink are as before, and no paths were added but those of the satellites on the way to the
target where it failed. -/
theorem failed_rendering_leaves_paths (hsink : sink.TakesAll) {st : Rendering σ}
    (h : (st.render sink b name t guard).1 = .error failure) :
    let st' := (st.render sink b name t guard).2
    st'.registry = st.registry ∧ st'.sink = st.sink ∧ st'.imports = st.imports ∧
      (st.registry.set? name = none ∧ failure = .raised (.unknownSet name t.path) ∧
          st'.produced = st.produced ∨
        ∃ s paths t', st.registry.set? name = some s ∧ s.Extracted st.registry t paths t' ∧
          st'.produced = st.produced ++ paths ∧ st'.FailsAt s t' failure) := by
  intro st'
  cases hs : st.registry.set? name with
  | none =>
    have hrender : st.render sink b name t guard =
        (.error (.raised (.unknownSet name t.path)), st) := by
      rw [Rendering.render, hs]
    have hst' : st' = st := congrArg Prod.snd hrender
    rw [hrender] at h
    cases h
    rw [hst']
    exact ⟨rfl, rfl, rfl, .inl ⟨rfl, rfl, rfl⟩⟩
  | some s =>
    obtain ⟨fuel, hrender⟩ := Rendering.render_of_set? hs sink b t guard
    have hst' : st' = (Rendering.renderWithin sink b guard s (fuel + 1) t st).2 :=
      congrArg Prod.snd hrender
    rw [hrender] at h
    have hfails := Rendering.fails_of_renderWithin hsink b guard s (fuel + 1) t st failure h
    rw [← hst'] at hfails
    obtain ⟨paths, t', hextracted, hproduced, hfailsAt⟩ := hfails.target
    exact ⟨hfails.registry, hfails.sink, hfails.imports,
      .inr ⟨s, paths, t', rfl, hextracted, hproduced, hfailsAt⟩⟩

/-- The set `A` is to be extracted from its files, and requires a function pointer type whose
definition is none. -/
def extractingBroken : Rendering (List NamedFile) where
  registry :=
    (({} : Registry).insert (.verbatim
      { name := "CB", category := some "funcpointer", repr := "int CB;", doc := none,
        deprecated := none })).insertSet
      { kind := .extension, name := "A", apis := ["al"], requirements := [{ names := ["CB"] }],
        annex := some "efx", doc := none }
  produced := [⟨"al.cppm"⟩]
  imports := []
  sink := []
  warnings := []

/-- The path of the partition stays reserved, and there is no partition. -/
theorem broken_partition_left :
    let t := Target.of ⟨"al.cppm"⟩ ["al"] .module
    let out := extractingBroken.render (recorder []) {} "A" t false
    out.1 = .error (.raised (.malformedFunctionPointer "CB" "int CB;")) ∧
      out.2.registry = extractingBroken.registry ∧ out.2.sink = [] ∧ out.2.imports = [] ∧
      out.2.produced.map (·.text) = ["al.cppm", "efx.cppm"] := by
  intro t out
  have hout : out.1 = .error (.raised (.malformedFunctionPointer "CB" "int CB;")) := by
    decide +kernel
  obtain ⟨hregistry, hsink, himports, -⟩ := failed_rendering_leaves_paths takesAll_recorder hout
  exact ⟨hout, hregistry, hsink, himports, by decide +kernel⟩

end ApiHeaders
