import ApiHeaders.Proofs.Commit
import ApiHeaders.Proofs.Footprint

/-!
# Following entries in another run

Entries that succeed in one run do so in another one whose registries agree and in which fewer files
were begun, and they stage the same files there. What a run commits at a place is the last of the
texts that its entries stage for it.

## Main definitions

* `Run.Covers` says that entries that succeed in one run do so in another one.
* `Generator.Holds` says that no registry must be read for a configuration.
* `Generator.Reaches` says in which state a run is after some entries.
* `Generator.Commits` says that a run succeeds and what it hands to its sink.
* `textIn` is the text at a place among some files.

## Main statements

* `Run.Covers.entries` follows entries in the other run.
* `Run.textIn_staged` says what is staged at a place.
* `Generator.stage_eq_ok_iff` says what a run comes to.
-/

namespace ApiHeaders

variable {run run' run₂ : Run} {c : Config} {timestamp : String} {form : Form} {o : Output}
  {e : Config.Entry} {es xs ys before after : List Config.Entry}
  {names : List Component → Set String} {place : List Component}

namespace Run

/-! ### Entries one after the other -/

theorem entry_reset_eq_ok {registry : Path}
    (h : run.entry c timestamp (.reset registry) = (.ok (), run')) :
    run.registries.contains registry.components ∧ run' =
      { run with
        registries := run.registries.modify registry.components Registry.resetWritten } := by
  rw [entry] at h
  split at h
  · next hthere =>
    cases h
    exact ⟨hthere, rfl⟩
  · cases h

variable {run₁ : Run}

theorem entries_cons (hentry : run.entry c timestamp e = (.ok (), run₁)) :
    run.entries c timestamp (e :: es) = run₁.entries c timestamp es := by
  rw [Run.entries, hentry]

theorem entriesFiles_cons (hentry : run.entry c timestamp e = (.ok (), run₁)) :
    run.entriesFiles c timestamp (e :: es) =
      run.entryFiles c timestamp e ++ run₁.entriesFiles c timestamp es := by
  rw [entriesFiles, hentry]

theorem entries_append (hxs : run.entries c timestamp xs = (.ok (), run')) :
    run.entries c timestamp (xs ++ ys) = run'.entries c timestamp ys := by
  induction xs generalizing run with
  | nil =>
    cases hxs
    rfl
  | cons e xs ih =>
    obtain ⟨run₁, hentry, hrest⟩ := entries_cons_eq_ok hxs
    rw [List.cons_append, entries_cons hentry]
    exact ih hrest

theorem entriesFiles_append (hxs : run.entries c timestamp xs = (.ok (), run')) :
    run.entriesFiles c timestamp (xs ++ ys) =
      run.entriesFiles c timestamp xs ++ run'.entriesFiles c timestamp ys := by
  induction xs generalizing run with
  | nil =>
    cases hxs
    rfl
  | cons e xs ih =>
    obtain ⟨run₁, hentry, hrest⟩ := entries_cons_eq_ok hxs
    rw [List.cons_append, entriesFiles_cons hentry, entriesFiles_cons hentry, ih hrest,
      List.append_assoc]

/-- The entries of the configuration itself do not matter to an entry that is followed. -/
theorem entries_withEntries (run : Run) (c : Config) (others : List Config.Entry)
    (timestamp : String) (es : List Config.Entry) :
    run.entries { c with entries := others } timestamp es = run.entries c timestamp es := by
  induction es generalizing run with
  | nil => rfl
  | cons e es ih =>
    have hentry : run.entry { c with entries := others } timestamp e =
        run.entry c timestamp e := rfl
    rw [Run.entries, Run.entries, hentry]
    split
    · exact ih _
    · rfl

/-! ### Covering -/

/-- A run covers another one: their registries agree, and it has begun all files that the other one
has. -/
structure Covers (names : List Component → Set String) (run run₂ : Run) : Prop where
  registries : Registries.Agree names run.registries run₂.registries
  begun : ∀ place, run₂.Begun place → run.Begun place

theorem Covers.generate (h : Covers names run run₂)
    (hnames : names o.registry.components = Set.univ)
    (hgenerate : run.generate c timestamp form o = (.ok (), run')) :
    ∃ run₂', run₂.generate c timestamp form o = (.ok (), run₂') ∧
      run₂.outputFiles c timestamp form o = run.outputFiles c timestamp form o ∧
      Covers names run' run₂' := by
  obtain ⟨r, hr, hregistries⟩ := registries_of_generate hgenerate
  obtain ⟨r₂, hr₂, hagree⟩ := h.registries.get?_eq_some hr
  rw [hnames] at hagree
  obtain ⟨run₂', hgenerate₂, hfiles⟩ := generate_replay hgenerate hr hr₂
    (hagree.mono (Set.subset_univ _)) fun f _ => h.begun f.path.components
  refine ⟨run₂', hgenerate₂, hfiles, ?_, ?_⟩
  · obtain ⟨r₂', hr₂', hregistries₂⟩ := registries_of_generate hgenerate₂
    rw [hr₂] at hr₂'
    cases hr₂'
    rw [hregistries, hregistries₂, hagree.selected_eq]
    exact h.registries.insert ((hagree.markAll _).mono (Set.subset_univ _))
  · intro place
    rw [begun_of_generate hgenerate, begun_of_generate hgenerate₂, hfiles]
    exact Or.imp_left (h.begun place)

theorem Covers.entry (h : Covers names run run₂)
    (hnames : ∀ form o, e = .output form o → names o.registry.components = Set.univ)
    (hentry : run.entry c timestamp e = (.ok (), run')) :
    ∃ run₂', run₂.entry c timestamp e = (.ok (), run₂') ∧
      run₂.entryFiles c timestamp e = run.entryFiles c timestamp e ∧ Covers names run' run₂' := by
  cases e with
  | output form o => exact h.generate (hnames form o rfl) hentry
  | reset registry =>
    obtain ⟨hthere, rfl⟩ := entry_reset_eq_ok hentry
    rw [← h.registries.contains_eq] at hthere
    rw [entry, if_pos hthere]
    exact ⟨_, rfl, rfl, h.registries.reset _, h.begun⟩

/-- Entries that succeed in a run do so in every run that it covers. -/
theorem Covers.entries (h : Covers names run run₂)
    (hnames : ∀ form o, .output form o ∈ es → names o.registry.components = Set.univ)
    (hentries : run.entries c timestamp es = (.ok (), run')) :
    ∃ run₂', run₂.entries c timestamp es = (.ok (), run₂') ∧
      run₂.entriesFiles c timestamp es = run.entriesFiles c timestamp es ∧
      Covers names run' run₂' := by
  induction es generalizing run run₂ with
  | nil =>
    cases hentries
    exact ⟨run₂, rfl, rfl, h⟩
  | cons e es ih =>
    obtain ⟨run₁, hentry, hrest⟩ := entries_cons_eq_ok hentries
    obtain ⟨run₂₁, hentry₂, hfiles, hcovers⟩ := h.entry
      (fun form o he => hnames form o (he ▸ List.mem_cons_self)) hentry
    obtain ⟨run₂', hrest₂, hfiles', hcovers'⟩ := ih hcovers
      (fun form o ho => hnames form o (List.mem_cons_of_mem _ ho)) hrest
    refine ⟨run₂', ?_, ?_, hcovers'⟩
    · rw [entries_cons hentry₂, hrest₂]
    · rw [entriesFiles_cons hentry, entriesFiles_cons hentry₂, hfiles, hfiles']

/-! ### What entries leave alone -/

/-- An entry that succeeds changes nothing of a registry but its memory. -/
theorem tables_entry (hentry : run.entry c timestamp e = (.ok (), run')) :
    Registries.Agree (fun _ => ∅) run.registries run'.registries := by
  cases e with
  | output form o =>
    obtain ⟨r, hr, hregistries⟩ := registries_of_generate hentry
    rw [hregistries]
    intro place
    rw [Table.get?_insert]
    by_cases hplace : o.registry.components = place
    · rw [if_pos hplace, ← hplace, hr]
      exact .some (r.tables_markAll _)
    · rw [if_neg hplace]
      exact Registries.Agree.refl (fun _ => ∅) run.registries place
  | reset registry =>
    obtain ⟨-, rfl⟩ := entry_reset_eq_ok hentry
    intro place
    rw [Table.get?_modify]
    by_cases hplace : registry.components = place
    · rw [if_pos hplace, hplace]
      cases run.registries.get? place with
      | none => exact .none
      | some r => exact .some ⟨rfl, fun name hname => absurd hname (Set.notMem_empty name)⟩
    · rw [if_neg hplace]
      exact Registries.Agree.refl (fun _ => ∅) run.registries place

/-- Entries that succeed change nothing of the registries but their memories. -/
theorem tables_entries (hentries : run.entries c timestamp es = (.ok (), run')) :
    Registries.Agree (fun _ => ∅) run.registries run'.registries := by
  induction es generalizing run with
  | nil =>
    cases hentries
    exact .refl _ _
  | cons e es ih =>
    obtain ⟨run₁, hentry, hrest⟩ := entries_cons_eq_ok hentries
    exact (tables_entry hentry).trans (ih hrest)

end Run

/-! ### Runs -/

theorem Config.mem_of_mem_distinct {paths : List Path} {p : Path} (h : p ∈ distinct paths) :
    p ∈ paths := by
  have hfold (seen paths : List Path)
      (hp : p ∈ paths.foldl
        (fun seen p => if seen.any (·.same p) then seen else seen ++ [p]) seen) :
      p ∈ seen ∨ p ∈ paths := by
    induction paths generalizing seen with
    | nil => exact .inl hp
    | cons q paths ih =>
      rcases ih _ hp with hseen | hpaths
      · simp only at hseen
        split at hseen
        · exact .inl hseen
        · rcases List.mem_append.1 hseen with hseen | hq
          · exact .inl hseen
          · exact .inr (List.mem_cons.2 (.inl (List.mem_singleton.1 hq)))
      · exact .inr (List.mem_cons_of_mem _ hpaths)
  exact (hfold [] paths h).resolve_left List.not_mem_nil

/-- The text at a place among some files. -/
def textIn (files : List NamedFile) (place : List Component) : Option String :=
  (files.find? (·.path.components = place)).map (·.text)

theorem textIn_append (files files' : List NamedFile) (place : List Component) :
    textIn (files ++ files') place = (textIn files place).or (textIn files' place) := by
  rw [textIn, List.find?_append]
  unfold textIn
  cases files.find? (·.path.components = place) <;> rfl

theorem textIn_eq_none {files : List NamedFile}
    (h : ∀ f ∈ files, f.path.components ≠ place) : textIn files place = none := by
  rw [textIn, List.find?_eq_none.2 (by simpa using h)]
  rfl

/-- The text of a file among files at different places. -/
theorem textIn_of_mem {files : List NamedFile} {f : NamedFile}
    (hnodup : (files.map (·.path.components)).Nodup) (hf : f ∈ files) :
    textIn files f.path.components = some f.text := by
  rw [textIn]
  cases hfind : files.find? (·.path.components = f.path.components) with
  | none =>
    have hother := List.find?_eq_none.1 hfind f hf
    simp at hother
  | some f' =>
    have hplace : f'.path.components = f.path.components := by simpa using List.find?_some hfind
    obtain rfl := List.inj_on_of_nodup_map hnodup (List.mem_of_find?_eq_some hfind) hf hplace
    rfl

theorem Run.staged_of_entries (hentries : run.entries c timestamp es = (.ok (), run'))
    (hstaged : run.staged = ∅) :
    run'.staged = Staged.putAll ∅ (run.entriesFiles c timestamp es) := by
  rw [← hstaged, ← run.staged_entries c timestamp es, hentries]

/-- What entries leave staged at a place is the last that they stage there. -/
theorem Run.textIn_staged (hentries : run.entries c timestamp es = (.ok (), run'))
    (hstaged : run.staged = ∅) (place : List Component) :
    textIn run'.staged.files place = textIn (run.entriesFiles c timestamp es).reverse place := by
  have hall := staged_of_entries hentries hstaged
  have hkeyed : run'.staged.Keyed := hall ▸ Staged.keyed_empty.putAll _
  rw [textIn, Staged.find?_files hkeyed, hall, Staged.textAt?_putAll]
  exact Option.or_none

/-- A sink that takes every file. -/
def Sink.TakesAll (sink : Sink σ) : Prop := ∀ s path text, (sink.write s path text).1 = .ok ()

theorem Sink.TakesAll.not_refused {sink : Sink σ} (h : sink.TakesAll) {s s' : σ} {path : Path}
    {text : String} {e : Error} : sink.write s path text ≠ (.error e, s') := by
  intro hwrite
  have htaken := h s path text
  rw [hwrite] at htaken
  cases htaken

theorem takesAll_recorder : (recorder []).TakesAll := by
  intro files path text
  rfl

theorem Sink.TakesAll.takes {sink : Sink σ} (h : sink.TakesAll) (files : List NamedFile) (s : σ) :
    ∃ s', sink.Takes s files s' := by
  induction files generalizing s with
  | nil => exact ⟨s, .nil s⟩
  | cons f files ih =>
    obtain ⟨s', htakes⟩ := ih (sink.write s f.path f.text).2
    exact ⟨s', .cons (Prod.ext (h s f.path f.text) rfl) htakes⟩

namespace Generator

variable {g g' : Generator} {source : Source} {files : List NamedFile} {warnings : List Warning}

theorem run_eq_ok_iff {sink : Sink σ} {s s' : σ} :
    g.run source c sink s = (.ok (), s', g', warnings) ↔
      ∃ files, g.stage source c = (.ok files, g', warnings) ∧ sink.Takes s files s' := by
  rw [Generator.run]
  split
  · next e g₁ w₁ hstage =>
    rw [hstage]
    simp
  · next files g₁ w₁ hstage =>
    rw [hstage]
    constructor
    · intro hrun
      cases hcommit : commit sink files s with
      | mk result s₁ =>
        simp only [hcommit, Prod.mk.injEq] at hrun
        obtain ⟨hresult, rfl, rfl, rfl⟩ := hrun
        rw [mapError_eq_ok] at hresult
        exact ⟨files, rfl, commit_eq_ok_iff.1 (hcommit.trans (by rw [hresult]))⟩
    · rintro ⟨files', hfiles, htakes⟩
      cases hfiles
      rw [commit_eq_ok_iff.2 htakes]
      rfl

/-- Whether all registries are there that a configuration needs. -/
def Holds (g : Generator) (c : Config) : Prop :=
  ∀ o ∈ c.outputs, g.registries.contains o.registry.components

instance (g : Generator) (c : Config) : Decidable (g.Holds c) :=
  inferInstanceAs (Decidable (∀ o ∈ c.outputs, g.registries.contains o.registry.components))

/-- The state that a run starts from if no registry must be read. -/
def start (g : Generator) : Run := { registries := g.registries }

theorem load_of_contains {paths : List Path}
    (h : ∀ p ∈ paths, g.registries.contains p.components) :
    g.load source paths = (.ok (), g, []) := by
  induction paths with
  | nil => rfl
  | cons path paths ih =>
    rw [load, if_pos (h path List.mem_cons_self)]
    exact ih fun p hp => h p (List.mem_cons_of_mem _ hp)

theorem load_registries (h : g.Holds c) : g.load source c.registries = (.ok (), g, []) := by
  apply load_of_contains
  intro p hp
  obtain ⟨o, ho, rfl⟩ := List.mem_map.1 (Config.mem_of_mem_distinct hp)
  exact h o ho

/-! ### The states of a run -/

/-- A run is in a state after the entries `before` of its configuration. -/
def Reaches (g : Generator) (source : Source) (c : Config) (before : List Config.Entry)
    (run : Run) : Prop :=
  ∃ g₁ w₁, g.load source c.registries = (.ok (), g₁, w₁) ∧
    Run.entries { registries := g₁.registries, warnings := w₁ } c g.timestamp before = (.ok (), run)

theorem Reaches.unique (h : g.Reaches source c before run) (h' : g.Reaches source c before run') :
    run = run' := by
  obtain ⟨g₁, w₁, hload, hentries⟩ := h
  obtain ⟨g₂, w₂, hload', hentries'⟩ := h'
  rw [hload] at hload'
  cases hload'
  rw [hentries] at hentries'
  cases hentries'
  rfl

theorem Reaches.append (h : g.Reaches source c before run)
    (hentries : run.entries c g.timestamp es = (.ok (), run')) :
    g.Reaches source c (before ++ es) run' := by
  obtain ⟨g₁, w₁, hload, hbefore⟩ := h
  exact ⟨g₁, w₁, hload, (Run.entries_append hbefore).trans hentries⟩

theorem Reaches.follow {run₁ : Run} (h : g.Reaches source c before run)
    (hentry : run.entry c g.timestamp e = (.ok (), run₁))
    (hes : run₁.entries c g.timestamp es = (.ok (), run')) :
    g.Reaches source c (before ++ e :: es) run' :=
  h.append ((Run.entries_cons hentry).trans hes)

/-- The state before some of the entries of a run that comes past them. -/
theorem Reaches.exists_of_append (h : g.Reaches source c (before ++ after) run') :
    ∃ run, g.Reaches source c before run ∧ run.entries c g.timestamp after = (.ok (), run') := by
  obtain ⟨g₁, w₁, hload, hentries⟩ := h
  obtain ⟨run, hbefore, hafter⟩ := Run.entries_append_eq_ok hentries
  exact ⟨run, ⟨g₁, w₁, hload, hbefore⟩, hafter⟩

/-- If no registry must be read, a run starts with those that are there. -/
theorem reaches_iff (h : g.Holds c) :
    g.Reaches source c before run ↔ g.start.entries c g.timestamp before = (.ok (), run) := by
  rw [Reaches, load_registries h]
  constructor
  · rintro ⟨g₁, w₁, hload, hentries⟩
    cases hload
    exact hentries
  · intro hentries
    exact ⟨g, [], rfl, hentries⟩

/-- Staging comes to what the entries of the configuration lead to. -/
theorem stage_eq_ok_iff :
    g.stage source c = (.ok files, g', warnings) ↔
      ∃ run, g.Reaches source c c.entries run ∧ files = run.staged.files ∧
        g' = { g with registries := run.registries } ∧ warnings = run.warnings := by
  rw [stage]
  split
  · next e g₁ w₁ hload => simp [Reaches, hload]
  · next g₁ w₁ hload =>
    have htimestamp := timestamp_of_load hload
    cases hentries : Run.entries { registries := g₁.registries, warnings := w₁ } c g.timestamp
        c.entries with
    | mk outcome run =>
      cases outcome <;> simp [Reaches, hload, htimestamp, hentries, Except.map, eq_comm]

/-- If no registry must be read, staging comes to what the entries lead to from the start. -/
theorem stage_eq_ok_iff_of_holds (h : g.Holds { c with entries := es }) :
    g.stage source { c with entries := es } = (.ok files, g', warnings) ↔
      ∃ run, g.start.entries c g.timestamp es = (.ok (), run) ∧ files = run.staged.files ∧
        g' = { g with registries := run.registries } ∧ warnings = run.warnings := by
  simp only [stage_eq_ok_iff, reaches_iff h, Run.entries_withEntries]

/-- A run that succeeds comes past all of its entries. -/
theorem reaches_of_stage (h : g.stage source c = (.ok files, g', warnings))
    (hentries : c.entries = before ++ after) :
    ∃ run run', g.Reaches source c before run ∧
      run.entries c g.timestamp after = (.ok (), run') ∧ files = run'.staged.files ∧
      warnings = run'.warnings := by
  obtain ⟨run', hreaches, hfiles, -, hwarnings⟩ := stage_eq_ok_iff.1 h
  obtain ⟨run, hbefore, hafter⟩ := (hentries ▸ hreaches).exists_of_append
  exact ⟨run, run', hbefore, hafter, hfiles, hwarnings⟩

/-! ### What is committed -/

/-- A run succeeds and hands some files to its sink. -/
structure Commits (g : Generator) (source : Source) (c : Config) (sink : Sink σ) (s : σ)
    (files : List NamedFile) (s' : σ) (g' : Generator) : Prop where
  run : ∃ warnings, g.run source c sink s = (.ok (), s', g', warnings)
  staged : (g.stage source c).1 = .ok files
  taken : sink.Takes s files s'

theorem Commits.paths_eq {sink : Sink σ} {s s' : σ} {paths : List String}
    (h : g.Commits source c sink s files s' g')
    (hpaths : (g.stage source c).1.map (·.map (·.path.text)) = .ok paths) :
    files.map (·.path.text) = paths := by
  rw [h.staged] at hpaths
  exact Except.ok.inj hpaths

theorem commits_of_run {sink : Sink σ} {s s' : σ}
    (h : g.run source c sink s = (.ok (), s', g', warnings)) :
    ∃ files, g.stage source c = (.ok files, g', warnings) ∧
      g.Commits source c sink s files s' g' := by
  obtain ⟨files, hstage, htaken⟩ := run_eq_ok_iff.1 h
  exact ⟨files, hstage, ⟨warnings, h⟩, by rw [hstage], htaken⟩

theorem commits_of_stage {sink : Sink σ} (hsink : sink.TakesAll)
    (h : g.stage source c = (.ok files, g', warnings)) (s : σ) :
    ∃ s', g.Commits source c sink s files s' g' := by
  obtain ⟨s', htaken⟩ := hsink.takes files s
  exact ⟨s', ⟨warnings, run_eq_ok_iff.2 ⟨files, h, htaken⟩⟩, by rw [h], htaken⟩

end Generator

end ApiHeaders
