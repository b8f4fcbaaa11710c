import ApiHeaders.Proofs.History
import ApiHeaders.Proofs.Selection

/-!
# Satellites of satellites

A set can be extracted from its satellite once more, if the file of that is not called by the annex.
Every file that a header comes with is its own or that of such a satellite, however deep.

## Main definitions

* `Target.Descends` says that a set is extracted into a target, directly or through others.
* `Run.writings` lists what is written for the sets of a header.

## Main statements

* `Rendering.records_renderWithin` says what rendering a set into a header comes to.
* `Run.mem_outputFiles` lists the files that a header comes with.
-/

namespace ApiHeaders

variable {b : Boilerplate} {t t' : Target} {s : ApiSet} {r : Registry}

/-- What is written for a set that is rendered into a target. -/
def ApiSet.writing (s : ApiSet) (r : Registry) (t : Target) : Writing := ⟨s, s.writtenInto r t, r⟩

/-- A set is extracted from a target into another one, directly or through others. -/
inductive Target.Descends (s : ApiSet) (r : Registry) (t : Target) : Target → Prop
  | first {annex : String} (h : s.annexFrom? t = some annex) :
      Descends s r t (t.satellite annex (s.headers r))
  | next {t' : Target} {annex : String} (before : Descends s r t t')
      (h : s.annexFrom? t' = some annex) : Descends s r t (t'.satellite annex (s.headers r))

/-- What is extracted from a satellite is extracted from the target that it belongs to. -/
theorem Target.Descends.of_satellite {annex : String} (ha : s.annexFrom? t = some annex)
    (h : (t.satellite annex (s.headers r)).Descends s r t') : t.Descends s r t' := by
  induction h with
  | first h => exact .next (.first ha) h
  | next _ h ih => exact .next ih h

/-- The file of a satellite. -/
def ApiSet.satelliteFile (s : ApiSet) (r : Registry) (b : Boilerplate) (t : Target) : NamedFile :=
  ⟨t.path, t.file b ((s.writing r t).inHeader t)⟩

namespace Rendering

variable {st st' : Rendering (List NamedFile)} {lines : List String}

/-- What rendering a set into a header comes to: the lines that the header has in its place, and the
files of satellites. -/
structure Records (st : Rendering (List NamedFile)) (s : ApiSet) (b : Boilerplate) (t : Target)
    (lines : List String) (st' : Rendering (List NamedFile)) : Prop where
  lines : lines = (s.writing st.registry t).inHeader t
  registry : st'.registry = st.registry.markWritten s
  imports : st'.imports = st.imports
  sink : ∀ f ∈ st'.sink, f ∈ st.sink ∨
    ∃ t', t.Descends s st.registry t' ∧ f = s.satelliteFile st.registry b t'

theorem records_renderWithin (b : Boilerplate) (s : ApiSet) (fuel : Nat) (t : Target)
    (st : Rendering (List NamedFile)) :
    t.form = .header → ∀ lines st',
      renderWithin (recorder []) b true s fuel t st = (.ok lines, st') →
        st.Records s b t lines st' := by
  fun_induction renderWithin (recorder []) b true s fuel t st with
  | case1 fuel t st ha =>
    intro hform lines st' h
    obtain ⟨-, hlines, hst⟩ := renderInline_eq_ok h
    have hinto : s.writing st.registry t = ⟨s, t, st.registry⟩ := by
      rw [ApiSet.writing, ApiSet.writtenInto_of_none ha]
    constructor
    case lines =>
      rw [hlines, hinto, Writing.inHeader, ha]
      rfl
    case registry => rw [hst]
    case imports => rw [hst]
    case sink =>
      rw [hst]
      exact fun f hf => .inl hf
  | case2 =>
    intro _ _ _ h
    cases h
  | case3 =>
    intro _ _ _ h
    cases h
  | case4 =>
    intro _ _ _ h
    cases h
  | case5 =>
    intro _ _ _ h
    cases h
  | case6 t st annex ha fuel st₁ hst satellite content st₂ hinner written hwrite lines₁ st₃ hrefer
      ih =>
    intro hform lines st' h
    cases h
    have hst₁ := eq_of_reserve hst
    have hregistry : st₁.registry = st.registry := by rw [hst₁]
    obtain ⟨hcontent, hmarked, himports, hsink⟩ := ih hform content st₂ hinner
    have htarget : satellite = t.satellite annex (s.headers st.registry) := by
      rw [← hregistry]
    simp only [recorder, List.not_mem_nil, if_false] at hwrite
    cases hwrite
    have hinto : s.writing st.registry t = ⟨s, satellite, st.registry⟩ := by
      rw [ApiSet.writing, ApiSet.writtenInto_of_annex ha, htarget]
    rw [hregistry] at hcontent hmarked hsink
    simp only [refer, hform] at hrefer
    cases hrefer
    constructor
    case lines =>
      rw [hinto, Writing.inHeader, ha, hmarked]
      rfl
    case registry => exact hmarked
    case imports =>
      rw [hst₁] at himports
      exact himports
    case sink =>
      intro f hf
      rcases List.mem_append.1 hf with hf | hf
      · rcases hsink f hf with hf | ⟨t', hdescends, hf⟩
        · left
          rw [hst₁] at hf
          exact hf
        · rw [htarget] at hdescends
          exact .inr ⟨t', hdescends.of_satellite ha, hf⟩
      · refine .inr ⟨satellite, ?_, ?_⟩
        · rw [htarget]
          exact .first ha
        · rw [List.mem_singleton.1 hf, hcontent]
          rfl

theorem records_render {name : String} (hform : t.form = .header)
    (h : st.render (recorder []) b name t true = (.ok lines, st')) :
    ∃ s, st.registry.set? name = some s ∧ st.Records s b t lines st' := by
  unfold render at h
  split at h
  · cases h
  · next s hs => exact ⟨s, hs, records_renderWithin b s _ t st hform lines st' h⟩

end Rendering

namespace Run

variable {c : Config} {timestamp : String} {o : Output} {run run' : Run}

/-- A file of a satellite that comes with a header with the given sets. -/
def IsSatelliteFile (b : Boilerplate) (t : Target) (ws : List Writing) (f : NamedFile) : Prop :=
  ∃ w ∈ ws, ∃ t', t.Descends w.set w.registry t' ∧ f = w.set.satelliteFile w.registry b t'

/-- The sets of a header, one after the other. -/
theorem records_renderAll (hform : t.form = .header) (names : List String)
    {st st' : Rendering (List NamedFile)} {content : List String}
    (h : renderAll (recorder []) b t true st names = (.ok content, st')) :
    content = (st.registry.selection t names).flatMap (·.inHeader t) ∧
      st'.imports = st.imports ∧
      ∀ f ∈ st'.sink, f ∈ st.sink ∨ IsSatelliteFile b t (st.registry.selection t names) f := by
  induction names generalizing st content with
  | nil =>
    cases h
    exact ⟨rfl, rfl, fun f hf => .inl hf⟩
  | cons name names ih =>
    rw [renderAll] at h
    split at h
    · cases h
    · next lines st₁ hfirst =>
      split at h
      · cases h
      · next more st₂ hrest =>
        cases h
        obtain ⟨s, hs, hlines, hregistry, himports, hsink⟩ :=
          Rendering.records_render hform hfirst
        obtain ⟨hmore, himports', hsink'⟩ := ih hrest
        have hselection : st.registry.selection t (name :: names) =
            s.writing st.registry t :: st₁.registry.selection t names := by
          rw [Registry.selection, hs, hregistry]
          rfl
        rw [hselection]
        refine ⟨by rw [hlines, hmore, List.flatMap_cons], himports'.trans himports, ?_⟩
        intro f hf
        rcases hsink' f hf with hf | ⟨w, hw, hfile⟩
        · rcases hsink f hf with hf | hfile
          · exact .inl hf
          · exact .inr ⟨s.writing st.registry t, List.mem_cons_self, hfile⟩
        · exact .inr ⟨w, List.mem_cons_of_mem _ hw, hfile⟩

/-- What is written for the sets of a header. -/
def writings (run : Run) (o : Output) : List Writing :=
  match run.registries.get? o.registry.components with
  | none => []
  | some r =>
    match select r o with
    | .error _ => []
    | .ok names => r.selection (target .header o) names

/-- The files that a header comes with: those of its satellites and its own. -/
theorem mem_outputFiles {f : NamedFile} (h : run.generate c timestamp .header o = (.ok (), run'))
    (hf : f ∈ run.outputFiles c timestamp .header o) :
    let b := boilerplate c timestamp o
    let t := target .header o
    f = ⟨t.path, t.file b ((run.writings o).flatMap (·.inHeader t))⟩ ∨
      IsSatelliteFile b t (run.writings o) f := by
  intro b t
  obtain ⟨r, names, content, st, hr, hselect, hrecorded, hfiles, -⟩ := outputFiles_of_generate h
  have hwritings : run.writings o = r.selection t names := by
    simp only [writings, hr, hselect]
    rfl
  obtain ⟨hcontent, himports, hsink⟩ := records_renderAll (t := t) rfl names hrecorded
  have hnone : st.imports = [] := himports
  rw [hfiles, finishedFiles, if_pos hnone] at hf
  rw [hwritings]
  rcases List.mem_append.1 hf with hf | hf
  · rcases hsink f hf with hf | hfile
    · cases hf
    · exact .inr hfile
  · rw [List.mem_singleton.1 hf, hcontent]
    exact .inl rfl

end Run

end ApiHeaders
