import ApiHeaders.Proofs.Cutoff
import ApiHeaders.Proofs.Failure
import ApiHeaders.Proofs.Parsed

/-!
# How a run can end

If its registries can be read, a run fails at an entry, for one of few reasons. The registries that
outputs use are there, the sets that they select are found again, and no pass comes to the marker of
a header. Only an annex with a slash can keep a run from ending.

## Main definitions

* `Registry.Fails` says why a set of a registry cannot be rendered.
* `Generator.Ends` says why a run can come to nothing at an entry.

## Main statements

* `Run.ends_of_generate` says how an output can end a run.
* `Generator.follows_of_stage_eq_error` finds the entry that ended a run.
-/

namespace ApiHeaders

variable {σ : Type} {sink : Sink σ} {b : Boilerplate} {guard : Bool} {s : ApiSet} {t : Target}
  {r r' : Registry} {form : Form} {o : Output} {name a : String} {names : List String} {n : Nat}
  {e : Error} {failure : Failure}

/-! ### Sets -/

/-- Why a set of a registry cannot be rendered into files of a form. -/
inductive Registry.Fails (r : Registry) (form : Form) : Failure → Prop
  | malformed {name : String} {d : Declaration} {e : Error} (hd : r.find? name = some d)
      (h : d.Malformed form e) : Fails r form (.raised e)
  | annexCollision {a : String} {path : Path} : Fails r form (.raised (.annexCollision a path))
  | endless {name : String} {s : ApiSet} {a : String} (hs : r.set? name = some s)
      (hannex : s.annex = some a) (hslash : '/' ∈ a.toList) : Fails r form .endless

theorem Registry.Fails.of_agree {on : Set String} (h : r'.Fails form failure)
    (hagree : r.Agree on r') : r.Fails form failure := by
  cases h with
  | malformed hd h =>
    rw [hagree.find?_eq] at hd
    exact .malformed hd h
  | annexCollision => exact .annexCollision
  | endless hs hannex hslash =>
    rw [hagree.set?_eq] at hs
    exact .endless hs hannex hslash

theorem ApiSet.Extracted.form_eq {t' : Target} {paths : List Path} (h : s.Extracted r t paths t') :
    t'.form = t.form := by
  induction h with
  | here => rfl
  | satellite _ _ ih => exact ih

namespace Rendering

variable {st st' : Rendering σ}

/-- Rendering changes nothing of the registry but its memory. -/
theorem tables_render (st : Rendering σ) (sink : Sink σ) (b : Boilerplate) (name : String)
    (t : Target) (guard : Bool) :
    st.registry.Agree ∅ (st.render sink b name t guard).2.registry := by
  rw [render]
  split
  · exact .refl ∅ _
  · next s _ =>
    rw [renderSet, registry_renderWithin]
    split
    · exact st.registry.tables_markAll [s]
    · exact .refl ∅ _

theorem exists_slash_of_endless (hs : st.registry.set? name = some s) (hannex : s.annex = some a)
    (h : (st.render sink b name t guard).1 = .error .endless) : '/' ∈ a.toList := by
  by_contra hslash
  obtain ⟨m, -, out, hout⟩ := exists_extractsTo hannex (t.endsWithin hslash) st
  exact (render_endless_iff hs).1 h m out hout

/-- Why a set that is there cannot be rendered. -/
theorem fails_of_render (hsink : sink.TakesAll) (hs : st.registry.set? name = some s)
    (h : (st.render sink b name t guard).1 = .error failure) :
    st.registry.Fails t.form failure := by
  obtain ⟨fuel, hrender⟩ := render_of_set? hs sink b t guard
  have hfails :=
    fails_of_renderWithin hsink b guard s (fuel + 1) t st failure (by rw [← hrender, h])
  obtain ⟨paths, t', hextracted, -, hfailsAt⟩ := hfails.target
  cases hfailsAt with
  | pass _ hitems =>
    rw [hfails.registry] at hitems
    obtain ⟨n, -, d, hd, hmalformed⟩ := ApiSet.malformed_of_items hitems
    exact .malformed hd (hextracted.form_eq ▸ hmalformed)
  | refused _ hst =>
    rw [eq_annexCollision_of_reserve hst]
    exact .annexCollision
  | endless ha =>
    have hannex := (Option.filter_eq_some_iff.1 ha).1
    exact .endless hs hannex (exists_slash_of_endless hs hannex h)

end Rendering

/-! ### Entries -/

namespace Run

variable {st st' : Rendering σ} {run run' : Run} {c : Config} {timestamp : String}
  {es : List Config.Entry} {imports content : List String}

/-- Sets are rendered until one of them cannot be. -/
theorem exists_render_of_renderAll
    (h : renderAll sink b t guard st names = (.error failure, st')) :
    ∃ name ∈ names, ∃ st₁ : Rendering σ, st.registry.Agree ∅ st₁.registry ∧
      (st₁.render sink b name t guard).1 = .error failure := by
  induction names generalizing st with
  | nil => cases h
  | cons name names ih =>
    have htables := st.tables_render sink b name t guard
    rw [renderAll] at h
    split at h
    · next e' st₁ hrender =>
      cases h
      exact ⟨name, List.mem_cons_self, st, .refl ∅ _, by rw [hrender]⟩
    · next lines st₁ hrender =>
      rw [hrender] at htables
      split at h
      · next e' st₂ hrest =>
        cases h
        obtain ⟨name', hname', st₂, hagree, hfails⟩ := ih hrest
        exact ⟨name', List.mem_cons_of_mem name hname', st₂, htables.trans hagree, hfails⟩
      · cases h

theorem eq_annexCollision_of_finish
    (h : run.finish b t imports content = (.error failure, run')) :
    failure = .raised (.annexCollision corePartition t.core.path) := by
  simp only [finish] at h
  split at h
  · cases h
  · split at h
    · cases h
      rfl
    · cases h

/-- Entries are followed until one of them fails. -/
theorem exists_entry_of_entries (h : run.entries c timestamp es = (.error failure, run')) :
    ∃ before entry after run₁, es = before ++ entry :: after ∧
      run.entries c timestamp before = (.ok (), run₁) ∧
      run₁.entry c timestamp entry = (.error failure, run') := by
  induction es generalizing run with
  | nil => cases h
  | cons entry es ih =>
    rw [entries] at h
    split at h
    · next run₁ hentry =>
      obtain ⟨before, failing, after, run₂, rfl, hbefore, hfails⟩ := ih h
      exact ⟨entry :: before, failing, after, run₂, rfl, (entries_cons hentry).trans hbefore,
        hfails⟩
    · next e' run₁ hentry =>
      cases h
      exact ⟨[], entry, es, run, rfl, rfl, hentry⟩

end Run

/-- Why a run of a generator can come to nothing at an entry that it comes to in the state `run` and
leaves in the state `run'`. -/
inductive Generator.Ends (g : Generator) (c : Config) (run run' : Run) :
    Config.Entry → Failure → Prop
  /-- A registry is to be reset that was not there and that no output uses. -/
  | unknownRegistry {p : Path} (hmissing : g.registries.get? p.components = none)
      (hunused : ∀ o ∈ c.outputs, o.registry.components ≠ p.components) :
      Ends g c run run' (.reset p) (.raised (.unknownRegistry p))
  /-- An output lists a set that its registry lacks, and nothing has been done about the output. -/
  | unknownSet {form : Form} {o : Output} {r : Registry} {names : List String} {name : String}
      (hr : run.registries.get? o.registry.components = some r)
      (hincluded : o.included = some names) (hname : name ∈ names) (hlacks : r.set? name = none)
      (hsame : run' = run) : Ends g c run run' (.output form o) (.raised (.unknownSet name o.path))
  | annexCollision {form : Form} {o : Output} {a : String} {path : Path} :
      Ends g c run run' (.output form o) (.raised (.annexCollision a path))
  /-- The registry of a module has a function pointer type whose definition cannot be read. -/
  | malformedFunctionPointer {o : Output} {r : Registry} {name : String} {v : Verbatim}
      (hr : run.registries.get? o.registry.components = some r)
      (hfound : r.find? name = some (.verbatim v)) (hv : v.isFunctionPointer) :
      Ends g c run run' (.output .module o) (.raised (.malformedFunctionPointer v.name v.repr))
  /-- The run does not end, because the annex of a set leads to another directory. -/
  | endless {form : Form} {o : Output} {r : Registry} {name : String} {s : ApiSet} {a : String}
      (hr : run.registries.get? o.registry.components = some r) (hs : r.set? name = some s)
      (hannex : s.annex = some a) (hslash : '/' ∈ a.toList) :
      Ends g c run run' (.output form o) .endless

section Entries

variable {run run' : Run} {g : Generator} {c : Config} {timestamp : String}

theorem Registry.Fails.ends (h : r.Fails form failure)
    (hr : run.registries.get? o.registry.components = some r) :
    g.Ends c run run' (.output form o) failure := by
  cases h with
  | malformed hd hmalformed =>
    cases hmalformed with
    | functionPointer hv => exact .malformedFunctionPointer hr hd hv
  | annexCollision => exact .annexCollision
  | endless hs hannex hslash => exact .endless hr hs hannex hslash

/-- How an output whose registry is there can end a run. -/
theorem Run.ends_of_generate (hr : run.registries.get? o.registry.components = some r)
    (hkeyed : r.Keyed) (h : run.generate c timestamp form o = (.error failure, run')) :
    g.Ends c run run' (.output form o) failure := by
  cases hselect : select r o with
  | error e' =>
    obtain ⟨names, name, hincluded, hname, hlacks, rfl⟩ := unknown_of_select hselect
    simp only [generate, hr, hselect] at h
    cases h
    exact .unknownSet hr hincluded hname hlacks rfl
  | ok names =>
    rw [generate_of_select hr hselect] at h
    cases hall : renderAll Staged.sink (boilerplate c timestamp o) (target form o)
        (form = .header) ((run.begin o.path).rendering r) names with
    | mk outcome st =>
      simp only [hall] at h
      cases outcome with
      | ok content =>
        rw [eq_annexCollision_of_finish h]
        exact .annexCollision
      | error e' =>
        cases h
        obtain ⟨name, hname, st₁, hagree, hrender⟩ := exists_render_of_renderAll hall
        obtain ⟨s, hs⟩ := exists_set?_of_select hkeyed hselect hname
        have hs₁ : st₁.registry.set? name = some s := (hagree.set?_eq name).trans hs
        have hfails := Rendering.fails_of_render (fun _ _ _ => rfl) hs₁ hrender
        exact (hfails.of_agree hagree).ends hr

end Entries

/-! ### Runs -/

theorem Config.exists_mem_registries {c : Config} (ho : o ∈ c.outputs) :
    ∃ p ∈ c.registries, p.components = o.registry.components := by
  have hfound : ((c.outputs.map (·.registry)).find?
      (·.components = o.registry.components)).isSome :=
    List.find?_isSome.2 ⟨o.registry, List.mem_map_of_mem ho, decide_eq_true rfl⟩
  obtain ⟨p, hp⟩ := Option.isSome_iff_exists.1 hfound
  rw [← find?_distinct] at hp
  exact ⟨p, List.mem_of_find?_eq_some hp, by simpa using List.find?_some hp⟩

namespace Generator

variable {g g' g₁ : Generator} {source : Source} {c : Config} {run run' : Run}
  {entry : Config.Entry} {warnings w₁ : List Warning} {timestamp : String}

/-- The registries of all outputs are there after they were read. -/
theorem exists_get?_of_load (hload : g.load source c.registries = (.ok (), g₁, w₁))
    (ho : o ∈ c.outputs) : ∃ r, g₁.registries.get? o.registry.components = some r := by
  obtain ⟨p, hp, hplace⟩ := Config.exists_mem_registries ho
  rw [← Option.isSome_iff_exists, ← hplace]
  exact contains_load hload hp

/-- How an entry can end a run whose registries have been read. -/
theorem ends_of_entry (hparsed : Registries.Parsed g.registries)
    (hload : g.load source c.registries = (.ok (), g₁, w₁))
    (htables : Registries.Agree (fun _ => ∅) g₁.registries run.registries)
    (hmem : entry ∈ c.entries) (h : run.entry c timestamp entry = (.error failure, run')) :
    g.Ends c run run' entry failure := by
  cases entry with
  | output form o =>
    have ho : o ∈ c.outputs := List.mem_filterMap.2 ⟨.output form o, hmem, rfl⟩
    obtain ⟨r₁, hr₁⟩ := exists_get?_of_load hload ho
    obtain ⟨r, hr, hagree⟩ := htables.get?_eq_some hr₁
    have hr₁parsed := parsed_load hparsed hload _ _ hr₁
    exact Run.ends_of_generate hr (hr₁parsed.of_agree hagree).keyed h
  | reset p =>
    rw [Run.entry] at h
    split at h
    · cases h
    · next hnot =>
      cases h
      rw [htables.contains_eq, Table.contains, Option.isSome_iff_exists] at hnot
      have hnone : g₁.registries.get? p.components = none :=
        Option.eq_none_iff_forall_ne_some.2 fun r hr => hnot ⟨r, hr⟩
      refine .unknownRegistry ?_ fun o ho hplace => ?_
      · rw [get?_load hload] at hnone
        exact (Option.or_eq_none_iff.1 hnone).1
      · exact hnot (hplace ▸ exists_get?_of_load hload ho)

/-- A run that fails after its registries were read fails at one of its entries. -/
theorem follows_of_stage_eq_error (hload : g.load source c.registries = (.ok (), g₁, w₁))
    (h : g.stage source c = (.error failure, g', warnings)) :
    ∃ run entry run', g.Follows source c run entry ∧ entry ∈ c.entries ∧
      Registries.Agree (fun _ => ∅) g₁.registries run.registries ∧
      run.entry c g.timestamp entry = (.error failure, run') ∧
      g'.registries = run'.registries := by
  rw [stage, hload] at h
  simp only [timestamp_of_load hload] at h
  cases hentries : Run.entries { registries := g₁.registries, warnings := w₁ } c g.timestamp
      c.entries with
  | mk outcome run' =>
    rw [hentries] at h
    cases outcome with
    | ok => cases h
    | error e' =>
      cases h
      obtain ⟨before, entry, after, run, hall, hbefore, hentry⟩ :=
        Run.exists_entry_of_entries hentries
      exact ⟨run, entry, run', ⟨g₁, w₁, before, after, hload, hall, hbefore⟩, by simp [hall],
        Run.tables_entries hbefore, hentry, rfl⟩

/-- A run whose registries can be read fails at an entry, which can only have a few reasons, and
then nothing is committed; or a file is refused while the files of all entries are committed. -/
theorem failed_run_ends (hparsed : Registries.Parsed g.registries)
    (hload : (g.load source c.registries).1 = .ok ()) {sink : Sink σ} {x x' : σ}
    (h : g.run source c sink x = (.error failure, x', g', warnings)) :
    (x' = x ∧ ∃ run entry run', g.Follows source c run entry ∧
      run.entry c g.timestamp entry = (.error failure, run') ∧ g'.registries = run'.registries ∧
      g.Ends c run run' entry failure) ∨
    ∃ files e, (g.stage source c).1 = .ok files ∧ failure = .raised e ∧
      sink.Receives x files (.error e) x' := by
  obtain ⟨g₁, w₁, hload⟩ : ∃ g₁ w₁, g.load source c.registries = (.ok (), g₁, w₁) :=
    ⟨_, _, Prod.ext hload rfl⟩
  rw [Generator.run] at h
  split at h
  · next e' g₂ w₂ hstage =>
    cases h
    obtain ⟨run, entry, run', hfollows, hmem, htables, hentry, hregistries⟩ :=
      follows_of_stage_eq_error hload hstage
    exact .inl ⟨rfl, run, entry, run', hfollows, hentry, hregistries,
      ends_of_entry hparsed hload htables hmem hentry⟩
  · next files g₂ w₂ hstage =>
    have hreceives := receives_commit sink files x
    cases hcommit : commit sink files x with
    | mk outcome x₁ =>
      rw [hcommit] at h hreceives
      simp only [Prod.mk.injEq, mapError_eq_error] at h
      obtain ⟨⟨e, rfl, rfl⟩, rfl, -, -⟩ := h
      exact .inr ⟨files, e, by rw [hstage], rfl, hreceives⟩

end Generator

/-- A document with a function pointer type whose definition is none. -/
def brokenDocument : String :=
  "<registry><types><type category=\"funcpointer\">int <name>CB</name>;</type></types>"
    ++ "<feature api=\"al\" name=\"A\"><require><type name=\"CB\"/></require></feature></registry>"

def readingBroken : Source := fun _ => .ok brokenDocument

/-- A generator that has read the document before. -/
def brokenGenerator : Generator :=
  Generator.withRegistry { timestamp := "T" } ⟨"al.xml"⟩
    ((readingBroken.registry? ⟨"al.xml"⟩).getD {})

/-- A header of the feature and a module of it, from another file. -/
def brokenConfig : Config where
  entries := [.output .header { path := ⟨"al.h"⟩, registry := ⟨"al.xml"⟩, apis := ["al"] },
    .output .module { path := ⟨"al.cppm"⟩, registry := ⟨"b.xml"⟩, apis := ["al"] }]

/-- The run fails at the module, and the header is not committed either. -/
theorem broken_module_ends_run :
    let g := brokenGenerator
    let out := g.run readingBroken brokenConfig (recorder []) []
    let e : Failure := .raised (.malformedFunctionPointer "CB" "int CB;")
    Registries.Parsed g.registries ∧ (g.load readingBroken brokenConfig.registries).1 = .ok () ∧
      out.1 = .error e ∧ out.2.1 = [] ∧
      ∃ run entry run', g.Follows readingBroken brokenConfig run entry ∧
        run.entry brokenConfig "T" entry = (.error e, run') ∧
        g.Ends brokenConfig run run' entry e := by
  intro g out e
  have hfacts : (readingBroken.registry? ⟨"al.xml"⟩).isSome ∧
      (g.load readingBroken brokenConfig.registries).1 = .ok () ∧ out.1 = .error e := by
    decide +kernel
  obtain ⟨hread, hload, hout⟩ := hfacts
  have hparsed : Registries.Parsed g.registries := by
    intro place r hr
    obtain ⟨r', hr'⟩ := Option.isSome_iff_exists.1 hread
    simp only [g, brokenGenerator, Generator.withRegistry, Table.get?_insert, Table.get?_empty,
      hr', Option.getD_some, Option.ite_none_right_eq_some] at hr
    exact Source.parsed_of_registry? (hr'.trans hr.2)
  cases hrun : out with
  | mk outcome rest =>
    obtain ⟨x', g', warnings⟩ := rest
    rw [hrun] at hout
    obtain rfl : outcome = .error e := hout
    rcases Generator.failed_run_ends hparsed hload hrun with
      ⟨hx, run, entry, run', hfollows, hentry, -, hends⟩ | ⟨files, _, -, -, hreceives⟩
    · exact ⟨hparsed, hload, rfl, hx, run, entry, run', hfollows, hentry, hends⟩
    · cases hreceives with
      | upTo _ refused => exact absurd refused takesAll_recorder.not_refused

end ApiHeaders
