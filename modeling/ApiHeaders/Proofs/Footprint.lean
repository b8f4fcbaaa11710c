import ApiHeaders.Proofs.History
import ApiHeaders.Proofs.Replay

/-!
# The footprint of an output

An output marks the sets that it selects in its registry, and begins the files that it stages. All
that it takes from the run is its registry, as far as the sets refer to it, and the files that were
begun before: the more there are, the sooner it fails, but its files do not depend on them.

## Main definitions

* `Registry.selected` lists the sets of an output.
* `Run.Begun` says that a file at a place was begun.
* `Run.Recording` takes an output that succeeds apart.

## Main statements

* `Run.registries_of_generate` and `Run.begun_of_generate` say what an output does to the run.
* `Run.generate_replay` says that an output that succeeds does so in another run as well.
-/

namespace ApiHeaders

variable {run run' : Run} {c : Config} {timestamp : String} {form : Form} {o : Output}
  {r : Registry} {names : List String} {place : List Component} {path : Path} {b : Boilerplate}
  {t : Target} {imports content : List String} {produced : List Path}

/-- The sets that an output selects. -/
def Registry.selected (r : Registry) (o : Output) : List ApiSet :=
  match select r o with
  | .error _ => []
  | .ok names => names.filterMap r.set?

theorem Registry.selected_of_select (h : select r o = .ok names) :
    r.selected o = names.filterMap r.set? := by
  rw [selected, h]

theorem Registry.Agree.selected_eq {r' : Registry} {on : Set String} (h : r.Agree on r')
    (o : Output) : r'.selected o = r.selected o := by
  have hset? : r'.set? = r.set? := funext h.set?_eq
  rw [selected, selected, select_agree h, hset?]

theorem Rendering.produce_of_forall_ne (h : ∀ p ∈ produced, path.components ≠ p.components) :
    produce produced path = some (produced ++ [path]) := by
  rw [produce, if_neg]
  rw [List.any_eq_true]
  rintro ⟨p, hp, hsame⟩
  exact h p hp (of_decide_eq_true hsame).symm

namespace Run

/-- A file at a place was begun. -/
def Begun (run : Run) (place : List Component) : Prop := ∃ p ∈ run.produced, p.components = place

theorem not_begun_of_produced_eq_nil (h : run.produced = []) : ¬run.Begun place := by
  rintro ⟨p, hp, -⟩
  rw [h] at hp
  cases hp

theorem begun_begin : (run.begin path).Begun place ↔ run.Begun place ∨ path.components = place := by
  rw [Run.begin]
  cases hproduce : Rendering.produce run.produced path with
  | some produced =>
    obtain ⟨rfl, -⟩ := Rendering.eq_of_produce hproduce
    simp [Begun, or_and_right, exists_or]
  | none =>
    have hany : run.produced.any (·.same path) := by
      by_contra hnone
      rw [Rendering.produce, if_neg hnone] at hproduce
      cases hproduce
    obtain ⟨p, hp, hsame⟩ := List.any_eq_true.1 hany
    have hplace : p.components = path.components := of_decide_eq_true hsame
    refine ⟨.inl, ?_⟩
    rintro (hbegun | rfl)
    · exact hbegun
    · exact ⟨p, hp, hplace⟩

/-! ### The last files of an output -/

/-- The core partition is not needed, or its file was not begun. -/
def HasCore (produced : List Path) (t : Target) (imports : List String) : Prop :=
  imports = [] ∨ ∀ p ∈ produced, t.core.path.components ≠ p.components

/-- The last files of an output, if they are to be had: its own, after that of the core partition
if there is one. -/
def lastFiles (b : Boilerplate) (t : Target) (imports content : List String) : List NamedFile :=
  if imports = [] then [⟨t.path, t.file b content⟩]
  else
    let all := { t with imports := ("export import :" ++ corePartition ++ ";") :: imports }
    [⟨t.core.path, t.core.file b content⟩, ⟨t.path, all.file b []⟩]

theorem exists_own (b : Boilerplate) (t : Target) (imports content : List String) :
    ∃ f ∈ lastFiles b t imports content, f.path = t.path := by
  rw [lastFiles]
  split
  · exact ⟨_, List.mem_singleton_self _, rfl⟩
  · exact ⟨_, List.mem_cons_of_mem _ (List.mem_singleton_self _), rfl⟩

theorem finishedFiles_of_hasCore (h : HasCore produced t imports) :
    finishedFiles produced b t imports content = lastFiles b t imports content := by
  rw [finishedFiles, lastFiles]
  by_cases himports : imports = []
  · rw [if_pos himports, if_pos himports]
  · have hcore := Rendering.produce_of_forall_ne (h.resolve_left himports)
    rw [if_neg himports, if_neg himports, hcore]

/-- An output whose target is begun ends well if there is a file for the core partition. -/
theorem finish_of_hasCore (b : Boilerplate) (content : List String)
    (h : HasCore run.produced t imports) (htarget : run.Begun t.path.components) :
    ∃ run', run.finish b t imports content = (.ok (), run') ∧ run'.registries = run.registries ∧
      ∀ place, run'.Begun place ↔
        run.Begun place ∨ ∃ f ∈ lastFiles b t imports content, f.path.components = place := by
  rw [finish, lastFiles]
  by_cases himports : imports = []
  · rw [if_pos himports, if_pos himports]
    refine ⟨_, rfl, rfl, ?_⟩
    intro place
    refine ⟨.inl, ?_⟩
    rintro (hbegun | ⟨f, hf, rfl⟩)
    · exact hbegun
    · rw [List.mem_singleton.1 hf]
      exact htarget
  · have hcore := Rendering.produce_of_forall_ne (h.resolve_left himports)
    rw [if_neg himports, if_neg himports]
    simp only [hcore]
    refine ⟨_, rfl, rfl, ?_⟩
    intro place
    constructor
    · rintro ⟨p, hp, hplace⟩
      rcases List.mem_append.1 hp with hp | hp
      · exact .inl ⟨p, hp, hplace⟩
      · exact .inr ⟨_, List.mem_cons_self, by rw [← List.mem_singleton.1 hp, hplace]⟩
    · rintro (⟨p, hp, hplace⟩ | ⟨f, hf, hplace⟩)
      · exact ⟨p, List.mem_append_left _ hp, hplace⟩
      · rcases List.mem_cons.1 hf with rfl | hf
        · exact ⟨t.core.path, List.mem_append_right _ (List.mem_singleton_self _), hplace⟩
        · rw [List.mem_singleton.1 hf] at hplace
          obtain ⟨p, hp, hplace'⟩ := htarget
          exact ⟨p, List.mem_append_left _ hp, hplace'.trans hplace⟩

theorem hasCore_of_finish (h : run.finish b t imports content = (.ok (), run')) :
    HasCore run.produced t imports := by
  rw [finish] at h
  split at h
  · next himports => exact .inl himports
  · simp only at h
    split at h
    · cases h
    · next hproduce => exact .inr (Rendering.eq_of_produce hproduce).2

/-! ### Outputs -/

theorem registries_begin (run : Run) (path : Path) :
    (run.begin path).registries = run.registries := by
  rcases run.begin_eq path with ⟨h, -⟩ | h
  · rw [h]
  · rw [h]
    rfl

/-- What the sets of an output are recorded from. -/
def outset (run : Run) (o : Output) (r : Registry) : Rendering (List NamedFile) :=
  ((run.begin o.path).rendering r).into []

/-- An output that succeeds, taken apart: its sets are rendered in a way that can be replayed, and
there is room for the core partition. -/
structure Recording (run : Run) (c : Config) (timestamp : String) (form : Form) (o : Output)
    (r : Registry) (content : List String) (g : Growth) : Prop where
  registry : run.registries.get? o.registry.components = some r
  sets : g.sets = r.selected o
  replays : ∃ names, select r o = .ok names ∧
    Rendering.Replays (fun st => renderAll (recorder []) (boilerplate c timestamp o) (target form o)
      (form = .header) st names) (run.outset o r) content g
  core : HasCore ((run.outset o r).grow g).produced (target form o) g.imports

theorem begun_outset : (∃ p ∈ (run.outset o r).produced, p.components = place) ↔
    run.Begun place ∨ o.path.components = place :=
  begun_begin

/-- An output that succeeds can be taken apart. -/
theorem exists_recording (h : run.generate c timestamp form o = (.ok (), run')) :
    ∃ r content g, run.Recording c timestamp form o r content g := by
  obtain ⟨r, names, content, st, hr, hselect, hrender, hfinish⟩ := generate_eq_ok h
  rw [renderAll_recorded] at hrender
  cases hrecorded : run.recorded c timestamp form o r names with
  | mk result st =>
    rw [hrecorded] at hrender
    cases hrender
    obtain ⟨g, hsets, hreplays⟩ := Rendering.replays_renderAll _ _ _ _ _ _ _ hrecorded
    have hst := hreplays.render_eq
    change run.recorded c timestamp form o r names = _ at hst
    rw [hrecorded] at hst
    cases hst
    refine ⟨r, content, g, hr, ?_, ⟨names, hselect, hreplays⟩, hasCore_of_finish hfinish⟩
    rw [hsets, Registry.selected_of_select hselect]
    rfl

namespace Recording

variable {g : Growth} {run₂ : Run} {r₂ : Registry}

theorem begun_iff (h : run.Recording c timestamp form o r content g) :
    (∃ p ∈ g.begun, p.components = place) ↔ ∃ f ∈ g.files, f.path.components = place := by
  obtain ⟨names, -, hreplays⟩ := h.replays
  exact hreplays.begun_iff

/-- What an output does to the run. -/
theorem generate_eq (h : run.Recording c timestamp form o r content g) :
    ∃ run', run.generate c timestamp form o = (.ok (), run') ∧
      run'.registries = run.registries.insert o.registry.components (r.markAll (r.selected o)) ∧
      run.outputFiles c timestamp form o =
        g.files ++ lastFiles (boilerplate c timestamp o) (target form o) g.imports content ∧
      ∀ place, run'.Begun place ↔ run.Begun place ∨
        ∃ f ∈ run.outputFiles c timestamp form o, f.path.components = place := by
  obtain ⟨names, hselect, hreplays⟩ := h.replays
  have hrecorded : run.recorded c timestamp form o r names =
      (.ok content, (run.outset o r).grow g) :=
    hreplays.render_eq
  have hfiles : run.outputFiles c timestamp form o =
      g.files ++ lastFiles (boilerplate c timestamp o) (target form o) g.imports content := by
    simp only [outputFiles, h.registry, hselect, hrecorded]
    rw [← finishedFiles_of_hasCore h.core]
    rfl
  let staged := (run.begin o.path).staged.putAll ((run.outset o r).grow g).sink
  let rendered := (run.begin o.path).rendered o (((run.outset o r).grow g).into staged)
  have hplaces (place : List Component) : rendered.Begun place ↔
      run.Begun place ∨ o.path.components = place ∨ ∃ f ∈ g.files, f.path.components = place := by
    rw [← h.begun_iff, ← or_assoc, ← begun_outset (r := r)]
    change (∃ p ∈ (run.outset o r).produced ++ g.begun, _) ↔ _
    simp only [List.mem_append, or_and_right, exists_or]
  have htarget : rendered.Begun (target form o).path.components := (hplaces _).2 (.inr (.inl rfl))
  obtain ⟨run', hfinish, hregistries, hbegun⟩ :=
    finish_of_hasCore (boilerplate c timestamp o) content h.core htarget
  refine ⟨run', ?_, ?_, hfiles, ?_⟩
  · rw [generate_of_select h.registry hselect, renderAll_recorded, hrecorded]
    exact hfinish
  · rw [hregistries, ← h.sets, ← run.registries_begin o.path]
    rfl
  · obtain ⟨own, hown, hpath⟩ :=
      exists_own (boilerplate c timestamp o) (target form o) g.imports content
    intro place
    rw [hbegun, hplaces, hfiles]
    simp only [List.mem_append, or_and_right, exists_or]
    constructor
    · rintro ((hbegun | rfl | hfile) | hlast)
      · exact .inl hbegun
      · exact .inr (.inr ⟨own, hown, congrArg Path.components hpath⟩)
      · exact .inr (.inl hfile)
      · exact .inr (.inr hlast)
    · rintro (hbegun | hfile | hlast)
      · exact .inl (.inl hbegun)
      · exact .inl (.inr (.inr hfile))
      · exact .inr hlast

/-- An output takes nothing from the run but what its registry remembers of its sets, and whether
its files were begun. -/
theorem replay (h : run.Recording c timestamp form o r content g)
    (hr₂ : run₂.registries.get? o.registry.components = some r₂)
    (hagree : r.Agree (Registry.referenced (r.selected o)) r₂)
    (hbegun : ∀ f ∈ run.outputFiles c timestamp form o,
      run₂.Begun f.path.components → run.Begun f.path.components) :
    run₂.Recording c timestamp form o r₂ content g := by
  obtain ⟨names, hselect, hreplays⟩ := h.replays
  obtain ⟨-, -, -, hfiles, -⟩ := h.generate_eq
  -- What was begun in the other run at the place of a file was begun here, too.
  have hhere {place : List Component}
      (hplace : ∃ f ∈ run.outputFiles c timestamp form o, f.path.components = place)
      (hother : ∃ p ∈ (run₂.outset o r₂).produced, p.components = place) :
      ∃ p ∈ (run.outset o r).produced, p.components = place := by
    obtain ⟨f, hf, rfl⟩ := hplace
    rw [begun_outset] at hother ⊢
    exact hother.imp_left (hbegun f hf)
  have hfresh : g.Fresh (run₂.outset o r₂).produced := by
    intro p hp q hq hsame
    obtain ⟨f, hf, hplace⟩ := h.begun_iff.1 ⟨p, hp, rfl⟩
    obtain ⟨q', hq', hsame'⟩ := hhere
      ⟨f, by rw [hfiles]; exact List.mem_append_left _ hf, hplace⟩ ⟨q, hq, hsame.symm⟩
    exact hreplays.fresh p hp q' hq' hsame'.symm
  have hagrees (st : Rendering (List NamedFile)) (hst : r₂.Agree g.names st.registry) :
      r.Agree g.names st.registry := by
    rw [Growth.names, h.sets] at hst ⊢
    exact hagree.trans hst
  refine ⟨hr₂, ?_, ⟨names, ?_, hfresh, hreplays.nodup, hreplays.paths, ?_⟩, ?_⟩
  · rw [h.sets, hagree.selected_eq]
  · rw [select_agree hagree, hselect]
  · exact fun st hst => hreplays.replay st (hagrees st hst)
  · rcases h.core with himports | hcore
    · exact .inl himports
    · by_cases himports : g.imports = []
      · exact .inl himports
      · right
        intro p hp hsame
        have hmem : ⟨(target form o).core.path,
            (target form o).core.file (boilerplate c timestamp o) content⟩ ∈
              run.outputFiles c timestamp form o := by
          rw [hfiles, lastFiles, if_neg himports]
          exact List.mem_append_right _ List.mem_cons_self
        rcases List.mem_append.1 hp with hp | hp
        · obtain ⟨q, hq, hsame'⟩ := hhere ⟨_, hmem, rfl⟩ ⟨p, hp, hsame.symm⟩
          exact hcore q (List.mem_append_left _ hq) hsame'.symm
        · exact hcore p (List.mem_append_right _ hp) hsame

end Recording

/-! ### What an output does to the run -/

variable {run₂ : Run} {r₂ : Registry}

/-- An output that succeeds marks its sets. -/
theorem registries_of_generate (h : run.generate c timestamp form o = (.ok (), run')) :
    ∃ r, run.registries.get? o.registry.components = some r ∧
      run'.registries = run.registries.insert o.registry.components (r.markAll (r.selected o)) := by
  obtain ⟨r, content, g, hrecording⟩ := exists_recording h
  obtain ⟨run'', hgenerate, hregistries, -⟩ := hrecording.generate_eq
  rw [h] at hgenerate
  cases hgenerate
  exact ⟨r, hrecording.registry, hregistries⟩

/-- An output that succeeds begins the files that it stages. -/
theorem begun_of_generate (h : run.generate c timestamp form o = (.ok (), run'))
    (place : List Component) : run'.Begun place ↔ run.Begun place ∨
      ∃ f ∈ run.outputFiles c timestamp form o, f.path.components = place := by
  obtain ⟨r, content, g, hrecording⟩ := exists_recording h
  obtain ⟨run'', hgenerate, -, -, hbegun⟩ := hrecording.generate_eq
  rw [h] at hgenerate
  cases hgenerate
  exact hbegun place

/-- An output that succeeds does so in every run that agrees on its sets and has begun none of its
files that was not begun here. It stages the same files there. -/
theorem generate_replay (h : run.generate c timestamp form o = (.ok (), run'))
    (hr : run.registries.get? o.registry.components = some r)
    (hr₂ : run₂.registries.get? o.registry.components = some r₂)
    (hagree : r.Agree (Registry.referenced (r.selected o)) r₂)
    (hbegun : ∀ f ∈ run.outputFiles c timestamp form o,
      run₂.Begun f.path.components → run.Begun f.path.components) :
    ∃ run₂', run₂.generate c timestamp form o = (.ok (), run₂') ∧
      run₂.outputFiles c timestamp form o = run.outputFiles c timestamp form o := by
  obtain ⟨r', content, g, hrecording⟩ := exists_recording h
  have hr' := hrecording.registry
  rw [hr] at hr'
  cases hr'
  obtain ⟨-, -, -, hfiles, -⟩ := hrecording.generate_eq
  obtain ⟨run₂', hgenerate, -, hfiles₂, -⟩ :=
    (hrecording.replay hr₂ hagree hbegun).generate_eq
  exact ⟨run₂', hgenerate, hfiles₂.trans hfiles.symm⟩

end Run

end ApiHeaders
