import ApiHeaders.Proofs.Cutoff
import ApiHeaders.Proofs.Failure
import ApiHeaders.Proofs.Splitting

/-!
# What becomes of extracted files

Next to its own file, an output stages those of its satellites and of its core partition. Their
places are its own: no entry before has begun them, and an entry after it can only come back to one
of them as to its own path, of which the run warns.

## Main definitions

* `Run.extractedFiles` are the files of an output next to its own.
* `Generator.Survives` says what a run does to an extracted file.
* `Run.Taken` says which places are taken while an output is rendered.

## Main statements

* `Run.Recording.outputFiles_eq` says what the files of an output are.
* `extracted_survive` says what becomes of extracted files, and that the run fails if the place of
  one is taken.
-/

namespace ApiHeaders

variable {run run' : Run} {c : Config} {timestamp : String} {form : Form} {o : Output}
  {r : Registry} {place : List Component} {e : Config.Entry} {es before after : List Config.Entry}

namespace Run

/-! ### The files of an output -/

/-- The files of an output next to its own, which is the last one. -/
def extractedFiles (run : Run) (c : Config) (timestamp : String) (form : Form) (o : Output) :
    List NamedFile :=
  (run.outputFiles c timestamp form o).dropLast

theorem lastFiles_eq (b : Boilerplate) (t : Target) (imports content : List String) :
    ∃ cores own, lastFiles b t imports content = cores ++ [own] ∧ own.path = t.path ∧
      (cores = [] ∨ imports ≠ [] ∧ ∃ core, cores = [core] ∧ core.path = t.core.path) := by
  rw [lastFiles]
  split
  · exact ⟨[], _, rfl, rfl, .inl rfl⟩
  · next himports => exact ⟨[_], _, rfl, rfl, .inr ⟨himports, _, rfl, rfl⟩⟩

/-- An output stages its own file after those that are extracted from it. All of them are at
different places, and no extracted file was begun before. -/
theorem Recording.outputFiles_eq {content : List String} {g : Growth}
    (h : run.Recording c timestamp form o r content g) :
    (∃ own, run.outputFiles c timestamp form o =
        run.extractedFiles c timestamp form o ++ [own] ∧ own.path = o.path) ∧
      ((run.outputFiles c timestamp form o).map (·.path.components)).Nodup ∧
      ∀ f ∈ run.extractedFiles c timestamp form o, ¬run.Begun f.path.components := by
  obtain ⟨names, -, hreplays⟩ := h.replays
  obtain ⟨-, -, -, hfiles, -⟩ := h.generate_eq
  obtain ⟨cores, own, hlast, hown, hcores⟩ :=
    lastFiles_eq (boilerplate c timestamp o) (target form o) g.imports content
  rw [hlast, ← List.append_assoc] at hfiles
  have hextracted : run.extractedFiles c timestamp form o = g.files ++ cores := by
    rw [extractedFiles, hfiles, List.dropLast_concat]
  have hfresh : ∀ f ∈ g.files, ∀ p ∈ (run.outset o r).produced,
      f.path.components ≠ p.components := by
    intro f hf
    exact hreplays.fresh f.path (hreplays.paths.mem_iff.1 (List.mem_map_of_mem hf))
  have hcore : ∀ f ∈ cores, ∀ p ∈ (run.outset o r).produced ++ g.begun,
      f.path.components ≠ p.components := by
    intro f hf
    rcases hcores with rfl | ⟨himports, core, rfl, hpath⟩
    · cases hf
    · rw [List.mem_singleton.1 hf, hpath]
      exact h.core.resolve_left himports
  have hnew : ∀ f ∈ g.files ++ cores, ∀ p ∈ (run.outset o r).produced,
      f.path.components ≠ p.components := by
    intro f hf p hp
    rcases List.mem_append.1 hf with hf | hf
    · exact hfresh f hf p hp
    · exact hcore f hf p (List.mem_append_left _ hp)
  have hnodup : ((g.files ++ cores).map (·.path.components)).Nodup := by
    rw [List.map_append, List.nodup_append]
    refine ⟨?_, ?_, ?_⟩
    · have hperm := hreplays.paths.map Path.components
      rw [List.map_map] at hperm
      exact hperm.nodup_iff.2 hreplays.nodup
    · rcases hcores with rfl | ⟨-, core, rfl, -⟩
      · exact List.nodup_nil
      · exact List.nodup_singleton _
    · intro place hplace place' hplace' heq
      obtain ⟨f, hf, rfl⟩ := List.mem_map.1 hplace
      obtain ⟨f', hf', rfl⟩ := List.mem_map.1 hplace'
      have hbegun := hreplays.paths.mem_iff.1 (List.mem_map_of_mem hf)
      exact hcore f' hf' f.path (List.mem_append_right _ hbegun) heq.symm
  rw [hextracted]
  refine ⟨⟨own, hfiles, hown⟩, ?_, ?_⟩
  · rw [hfiles, List.map_append, List.nodup_append]
    refine ⟨hnodup, List.nodup_singleton _, ?_⟩
    intro place hplace place' hplace' heq
    obtain ⟨f, hf, rfl⟩ := List.mem_map.1 hplace
    obtain ⟨f', hf', rfl⟩ := List.mem_map.1 hplace'
    rw [List.mem_singleton.1 hf', hown] at heq
    obtain ⟨p, hp, hsame⟩ : ∃ p ∈ (run.outset o r).produced, p.components = f.path.components :=
      begun_outset.2 (.inr heq.symm)
    exact hnew f hf p hp hsame.symm
  · intro f hf hbegun
    obtain ⟨p, hp, hsame⟩ := (begun_outset (o := o) (r := r)).2 (.inl hbegun)
    exact hnew f hf p hp hsame.symm

/-! ### What entries leave behind -/

theorem begun_of_entries (h : run.entries c timestamp es = (.ok (), run'))
    (place : List Component) : run'.Begun place ↔ run.Begun place ∨
      ∃ f ∈ run.entriesFiles c timestamp es, f.path.components = place := by
  induction es generalizing run with
  | nil =>
    cases h
    simp [entriesFiles]
  | cons e es ih =>
    obtain ⟨run₁, hentry, hrest⟩ := entries_cons_eq_ok h
    have hfirst : run₁.Begun place ↔ run.Begun place ∨
        ∃ f ∈ run.entryFiles c timestamp e, f.path.components = place := by
      cases e with
      | output form o => exact begun_of_generate hentry place
      | reset registry =>
        obtain ⟨-, rfl⟩ := entry_reset_eq_ok hentry
        simp [entryFiles, Begun]
    rw [ih hrest, hfirst, entriesFiles_cons hentry, or_assoc]
    simp only [List.mem_append, or_and_right, exists_or]

theorem warnings_generate (h : run.generate c timestamp form o = (.ok (), run')) :
    (run.begin o.path).warnings ⊆ run'.warnings := by
  obtain ⟨r, names, content, st, -, -, hrender, hfinish⟩ := generate_eq_ok h
  have hall := progress_renderAll (boilerplate c timestamp o) (target form o) (form = .header) names
    ((run.begin o.path).rendering r)
  rw [hrender] at hall
  have hwarnings := warnings_finish ((run.begin o.path).rendered o st)
    (boilerplate c timestamp o) (target form o) st.imports content
  rw [hfinish] at hwarnings
  rw [hwarnings]
  exact hall.warnings

theorem warnings_entries (h : run.entries c timestamp es = (.ok (), run')) :
    run.warnings ⊆ run'.warnings := by
  induction es generalizing run with
  | nil =>
    cases h
    exact List.Subset.refl _
  | cons e es ih =>
    obtain ⟨run₁, hentry, hrest⟩ := entries_cons_eq_ok h
    refine List.Subset.trans ?_ (ih hrest)
    cases e with
    | output form o =>
      exact List.Subset.trans (run.progress_begin o.path).warnings (warnings_generate hentry)
    | reset registry =>
      obtain ⟨-, rfl⟩ := entry_reset_eq_ok hentry
      exact List.Subset.refl _

/-- An output whose path was begun before is warned of. -/
theorem warned_of_begun (h : run.generate c timestamp form o = (.ok (), run'))
    (hbegun : run.Begun o.path.components) : .generatedAgain o.path ∈ run'.warnings := by
  apply warnings_generate h
  rcases run.begin_eq o.path with ⟨-, hnew⟩ | hwarned
  · obtain ⟨p, hp, hsame⟩ := hbegun
    exact absurd hsame.symm (hnew p hp)
  · rw [hwarned]
    exact List.mem_append_right _ (List.mem_singleton_self _)

/-- A file that was begun before is only staged again as the own file of an output, of which the run
warns. -/
theorem own_of_begun {f : NamedFile} (h : run.entry c timestamp e = (.ok (), run'))
    (hf : f ∈ run.entryFiles c timestamp e) (hbegun : run.Begun f.path.components) :
    ∃ form o, e = .output form o ∧ (run.entryFiles c timestamp e).getLast? = some f ∧
      f.path = o.path ∧ .generatedAgain o.path ∈ run'.warnings := by
  cases e with
  | reset registry => cases hf
  | output form o =>
    obtain ⟨r, content, g, hrecording⟩ := exists_recording h
    obtain ⟨⟨own, hfiles, hown⟩, -, hnew⟩ := hrecording.outputFiles_eq
    rw [entryFiles, hfiles] at hf ⊢
    rcases List.mem_append.1 hf with hextracted | hlast
    · exact absurd hbegun (hnew f hextracted)
    · cases List.mem_singleton.1 hlast
      refine ⟨form, o, rfl, List.getLast?_concat, hown, ?_⟩
      rw [hown] at hbegun
      exact warned_of_begun h hbegun

/-! ### Places that are taken -/

/-- A place is taken while an output is rendered: by a file that was begun before, by its own file,
or by one of those that were extracted from it so far. -/
def Taken (run : Run) (o : Output) (extracted : List Path) (place : List Component) : Prop :=
  run.Begun place ∨ o.path.components = place ∨ ∃ p ∈ extracted, p.components = place

section Rendered

variable {b : Boilerplate} {t : Target} {guard : Bool} {names rest : List String}
  {content : List String} {st : Rendering (List NamedFile)}

/-- The files that are begun while an output is rendered are at the places that are taken. -/
theorem taken_iff
    (h : renderAll (recorder []) b t guard (run.outset o r) names = (.ok content, st))
    (paths : List Path) :
    run.Taken o (st.sink.map (·.path) ++ paths) place ↔
      ∃ p ∈ st.produced ++ paths, p.components = place := by
  obtain ⟨g, -, hreplays⟩ := Rendering.replays_renderAll _ _ _ _ _ _ _ h
  have hst := hreplays.render_eq
  rw [h] at hst
  cases hst
  have hfiles : (∃ p ∈ ((run.outset o r).grow g).sink.map (·.path), p.components = place) ↔
      ∃ p ∈ g.begun, p.components = place := by
    have hsink : ((run.outset o r).grow g).sink = g.files := List.nil_append _
    rw [hsink, hreplays.begun_iff]
    simp only [List.mem_map, exists_exists_and_eq_and]
  simp only [Taken, List.mem_append, or_and_right, exists_or, hfiles]
  rw [← or_assoc, ← begun_outset (r := r)]
  simp only [Rendering.grow, List.mem_append, or_and_right, exists_or, or_assoc]

theorem renderAll_append_error {σ : Type} {sink : Sink σ} {e : Failure} {st st₁ st₂ : Rendering σ}
    (hfirst : renderAll sink b t guard st names = (.ok content, st₁))
    (hrest : renderAll sink b t guard st₁ rest = (.error e, st₂)) :
    renderAll sink b t guard st (names ++ rest) = (.error e, st₂) := by
  induction names generalizing st content with
  | nil =>
    cases hfirst
    exact hrest
  | cons name names ih =>
    rw [renderAll] at hfirst
    split at hfirst
    · cases hfirst
    · next lines st' hrender =>
      split at hfirst
      · cases hfirst
      · next more st'' hmore =>
        cases hfirst
        simp only [List.cons_append, renderAll, hrender, ih hmore]

end Rendered

end Run

/-- A set is not extracted to a place that is taken, or one before is taken already. -/
theorem ApiSet.Extracted.exists_clash {σ : Type} {s : ApiSet} {t t' : Target} {paths : List Path}
    {a : String} (h : s.Extracted r t paths t') (sink : Sink σ) (b : Boilerplate) (guard : Bool)
    (st : Rendering σ) (hregistry : st.registry = r) (ha : s.annexFrom? t' = some a)
    (htaken : ∃ p ∈ st.produced ++ paths, p.components = (t'.annexPath a).components) :
    ∃ path ∈ paths ++ [t'.annexPath a], ∃ n st',
      Rendering.ExtractsTo sink b guard s st t n
        (.error (.raised (.annexCollision a path)), st') := by
  induction h generalizing st with
  | @here t =>
    have hcollides : st.Collides t a := by
      obtain ⟨p, hp, hsame⟩ := htaken
      rw [List.append_nil] at hp
      exact .inl ⟨p, hp, decide_eq_true hsame⟩
    exact ⟨_, List.mem_singleton_self _, 1, st,
      .refused ha (Rendering.reserve_of_collides hcollides)⟩
  | @satellite t t' a' paths ha' rest ih =>
    obtain rfl : a' = a :=
      Option.some.inj ((Option.filter_eq_some_iff.1 ha').1.symm.trans
        (Option.filter_eq_some_iff.1 ha).1)
    cases hst : st.reserve t a' with
    | error e =>
      rw [Rendering.eq_annexCollision_of_reserve hst] at hst
      exact ⟨_, List.mem_cons_self, 1, st, .refused ha' hst⟩
    | ok st₁ =>
      obtain ⟨-, -, rfl⟩ := Rendering.reserve_eq_ok_iff.1 hst
      subst hregistry
      rw [← List.singleton_append, ← List.append_assoc] at htaken
      obtain ⟨path, hpath, n, st', hends⟩ :=
        ih { st with produced := st.produced ++ [t.annexPath a'] } rfl ha htaken
      have hstops := Rendering.ExtractsTo.extracted ha' hst hends
      exact ⟨path, List.mem_cons_of_mem _ hpath, n + 1, st', hstops⟩

/-! ### The files of a run -/

namespace Generator

variable {g g' : Generator} {source : Source} {files : List NamedFile} {warnings : List Warning}
  {f : NamedFile}

/-- What a run with some outcome does to a file that is extracted from an output between the entries
`before` and `after`. -/
structure Survives (g : Generator) (source : Source) (c : Config) (before : List Config.Entry)
    (entry : Config.Entry) (after : List Config.Entry) (files : List NamedFile)
    (warnings : List Warning) (f : NamedFile) : Prop where
  /-- No entry before stages a file at the same place. -/
  earlier : ∀ es e rest run, before = es ++ e :: rest → g.Reaches source c es run →
    ∀ f' ∈ run.entryFiles c g.timestamp e, ¬f'.path.same f.path
  /-- An entry after it can do so only if its output has that path, and the run warns of it. -/
  later : ∀ es e rest run, after = es ++ e :: rest →
    g.Reaches source c (before ++ entry :: es) run →
    ∀ f' ∈ run.entryFiles c g.timestamp e, f'.path.same f.path →
      ∃ form o, e = .output form o ∧ (run.entryFiles c g.timestamp e).getLast? = some f' ∧
        f'.path = o.path ∧ .generatedAgain o.path ∈ warnings
  /-- If there is no such output, the file is committed as it was rendered. -/
  committed : (∀ form o, .output form o ∈ after → ¬o.path.same f.path) →
    textIn files f.path.components = some f.text

/-- The files that entries stage are begun then. -/
theorem Reaches.begun_of_mem (hreaches : g.Reaches source c before run)
    (hreaches' : g.Reaches source c (before ++ e :: es) run')
    (hf : f ∈ run.entryFiles c g.timestamp e) : run'.Begun f.path.components := by
  obtain ⟨run₁, hbefore, hrest⟩ := hreaches'.exists_of_append
  obtain rfl := hreaches.unique hbefore
  rw [Run.begun_of_entries hrest, Run.entriesFiles]
  exact .inr ⟨f, List.mem_append_left _ hf, rfl⟩

/-- After an output, only outputs with its path come back to the place of one of its files. -/
theorem again_of_begun {entry : Config.Entry}
    (h : g.stage source c = (.ok files, g', warnings))
    (hentries : c.entries = before ++ entry :: after) (hreaches : g.Reaches source c before run)
    (hf : f ∈ run.entryFiles c g.timestamp entry)
    {rest : List Config.Entry} {run₂ : Run} (hafter : after = es ++ e :: rest)
    (hreaches₂ : g.Reaches source c (before ++ entry :: es) run₂) {f' : NamedFile}
    (hf' : f' ∈ run₂.entryFiles c g.timestamp e) (hsame : f'.path.same f.path) :
    ∃ form o, e = .output form o ∧ (run₂.entryFiles c g.timestamp e).getLast? = some f' ∧
      f'.path = o.path ∧ .generatedAgain o.path ∈ warnings := by
  have hsplit : c.entries = (before ++ entry :: es) ++ e :: rest := by
    rw [hentries, hafter, List.append_assoc, List.cons_append]
  obtain ⟨run₀, run', hreaches', hrest, -, rfl⟩ := reaches_of_stage h hsplit
  obtain rfl := hreaches₂.unique hreaches'
  obtain ⟨run₃, hentry, hlast⟩ := Run.entries_cons_eq_ok hrest
  have hbegun : run₂.Begun f'.path.components := by
    rw [of_decide_eq_true hsame]
    exact hreaches.begun_of_mem hreaches₂ hf
  obtain ⟨form, o, he, hown, hpath, hwarned⟩ := Run.own_of_begun hentry hf' hbegun
  exact ⟨form, o, he, hown, hpath, Run.warnings_entries hlast hwarned⟩

/-- Extracted files survive, unless a later output has their path. -/
theorem survives (h : g.stage source c = (.ok files, g', warnings))
    (hentries : c.entries = before ++ .output form o :: after)
    (hreaches : g.Reaches source c before run)
    (hf : f ∈ run.extractedFiles c g.timestamp form o) :
    g.Survives source c before (.output form o) after files warnings f := by
  obtain ⟨run₀, run', hreaches', hafter, hfiles, -⟩ := reaches_of_stage h hentries
  obtain rfl := hreaches.unique hreaches'
  obtain ⟨run₁, hgenerate, hrest⟩ := Run.entries_cons_eq_ok hafter
  obtain ⟨r, content, growth, hrecording⟩ := Run.exists_recording hgenerate
  obtain ⟨⟨own, hown, -⟩, hnodup, hnew⟩ := hrecording.outputFiles_eq
  have hmem : f ∈ run.outputFiles c g.timestamp form o := by
    rw [hown]
    exact List.mem_append_left _ hf
  refine ⟨?_, ?_, ?_⟩
  · rintro es e rest run₂ rfl hreaches₂ f' hf' hsame
    have hbegun := hreaches₂.begun_of_mem hreaches hf'
    rw [of_decide_eq_true hsame] at hbegun
    exact hnew f hf hbegun
  · intro es e rest run₂ hsplit hreaches₂ f' hf' hsame
    exact again_of_begun h hentries hreaches hmem hsplit hreaches₂ hf' hsame
  · intro hother
    obtain ⟨g₁, w₁, hload, hbefore⟩ := hreaches
    have hreaches : g.Reaches source c before run := ⟨g₁, w₁, hload, hbefore⟩
    have hall := (Run.entries_append hbefore).trans hafter
    have hnone :
        textIn (run₁.entriesFiles c g.timestamp after).reverse f.path.components = none := by
      apply textIn_eq_none
      intro f' hf' hsame
      obtain ⟨es, e, rest, run₂, hsplit, hes, hf'⟩ := Run.mem_entriesFiles (List.mem_reverse.1 hf')
      obtain ⟨form', o', rfl, -, hpath, -⟩ := again_of_begun h hentries hreaches hmem hsplit
        (hreaches.follow hgenerate hes) hf' (decide_eq_true hsame)
      refine hother form' o' (hsplit ▸ List.mem_append_right _ List.mem_cons_self) ?_
      exact hpath ▸ decide_eq_true hsame
    have htext : textIn (run.outputFiles c g.timestamp form o).reverse f.path.components =
        some f.text := by
      apply textIn_of_mem
      · rw [List.map_reverse]
        exact List.nodup_reverse.2 hnodup
      · exact List.mem_reverse.2 hmem
    rw [hfiles, Run.textIn_staged hall rfl, Run.entriesFiles_append hbefore,
      Run.entriesFiles_cons hgenerate, Run.entryFiles]
    simp only [List.reverse_append, textIn_append, hnone, htext, Option.none_or, Option.some_or]

/-! ### Clashes -/

/-- An output of a run has rendered the sets `names` and has come to a state; `rest` are the sets
that it has still to render. -/
structure Renders (g : Generator) (source : Source) (c : Config) (run : Run) (form : Form)
    (o : Output) (names rest : List String) (st : Rendering (List NamedFile)) : Prop where
  entry : ∃ before after, c.entries = before ++ .output form o :: after ∧
    g.Reaches source c before run
  rendered : ∃ r content, run.registries.get? o.registry.components = some r ∧
    select r o = .ok (names ++ rest) ∧
    Run.renderAll (recorder []) (Run.boilerplate c g.timestamp o) (Run.target form o)
      (form = .header) (run.outset o r) names = (.ok content, st)

variable {names rest : List String} {name : String} {st : Rendering (List NamedFile)}
  {failure : Failure}

/-- An output that fails ends the run. -/
theorem Renders.stage_eq_error (h : g.Renders source c run form o names rest st)
    (hgenerate : (run.generate c g.timestamp form o).1 = .error failure) :
    (g.stage source c).1 = .error failure := by
  obtain ⟨before, after, hentries, g₁, w₁, hload, hbefore⟩ := h.entry
  have hentry : run.entry c g.timestamp (.output form o) =
      (.error failure, (run.generate c g.timestamp form o).2) := Prod.ext hgenerate rfl
  rw [stage, hload]
  simp only [timestamp_of_load hload, hentries, Run.entries_append hbefore, Run.entries, hentry]
  rfl

/-- A set that is rendered cannot be extracted to a place that is taken. -/
theorem Renders.clash (h : g.Renders source c run form o names (name :: rest) st) {s : ApiSet}
    (hs : st.registry.set? name = some s) {paths : List Path} {t : Target}
    (hextracted : s.Extracted st.registry (Run.target form o) paths t) {a : String}
    (ha : s.annexFrom? t = some a)
    (htaken : run.Taken o (st.sink.map (·.path) ++ paths) (t.annexPath a).components) :
    ∃ path ∈ paths ++ [t.annexPath a],
      (g.stage source c).1 = .error (.raised (.annexCollision a path)) := by
  obtain ⟨r, content, hr, hselect, hrendered⟩ := h.rendered
  rw [Run.taken_iff hrendered] at htaken
  obtain ⟨path, hpath, n, st₁, hends⟩ := hextracted.exists_clash (recorder [])
    (Run.boilerplate c g.timestamp o) (form = .header) st rfl ha htaken
  refine ⟨path, hpath, h.stage_eq_error ?_⟩
  have hall : run.recorded c g.timestamp form o r (names ++ name :: rest) =
      (.error (.raised (.annexCollision a path)), st₁) := by
    apply Run.renderAll_append_error hrendered
    simp only [Run.renderAll, hends.render_eq hs]
  rw [Run.generate_of_select hr hselect, Run.renderAll_recorded, hall]

/-- The core partition cannot be begun at a place that is taken. -/
theorem Renders.clash_core (h : g.Renders source c run form o names [] st)
    (himports : st.imports ≠ [])
    (htaken : run.Taken o (st.sink.map (·.path)) (Run.target form o).core.path.components) :
    (g.stage source c).1 =
      .error (.raised (.annexCollision corePartition (Run.target form o).core.path)) := by
  obtain ⟨r, content, hr, hselect, hrendered⟩ := h.rendered
  apply h.stage_eq_error
  rw [← List.append_nil (st.sink.map (·.path)), Run.taken_iff hrendered, List.append_nil] at htaken
  obtain ⟨p, hp, hsame⟩ := htaken
  have hproduce : Rendering.produce st.produced (Run.target form o).core.path = none := by
    rw [Rendering.produce, if_pos]
    exact List.any_eq_true.2 ⟨p, hp, decide_eq_true hsame⟩
  have hall : run.recorded c g.timestamp form o r (names ++ []) = (.ok content, st) := by
    rw [List.append_nil]
    exact hrendered
  rw [Run.generate_of_select hr hselect, Run.renderAll_recorded, hall]
  simp only [Run.finish, Rendering.into, Run.rendered, himports, if_false, hproduce]

end Generator

/-- In a run that succeeds, an extracted file is staged by its own output, once and by no entry
before. An entry after it can only stage the same place as the own file of an output with that
path, of which the run warns; if there is none, the file is committed as it was rendered. The run
fails if a set is to be extracted to a place that is taken, whatever else would become of it, or if
the core partition is to be begun at one. -/
theorem extracted_survive :
    (∀ (g g' : Generator) (source : Source) (c : Config) (files : List NamedFile)
      (warnings : List Warning) (before after : List Config.Entry) (form : Form) (o : Output),
      g.stage source c = (.ok files, g', warnings) →
      c.entries = before ++ .output form o :: after →
      ∃ run own, g.Reaches source c before run ∧
        run.outputFiles c g.timestamp form o =
          run.extractedFiles c g.timestamp form o ++ [own] ∧ own.path = o.path ∧
        ((run.outputFiles c g.timestamp form o).map (·.path.components)).Nodup ∧
        ∀ f ∈ run.extractedFiles c g.timestamp form o,
          g.Survives source c before (.output form o) after files warnings f) ∧
    ∀ (g : Generator) (source : Source) (c : Config) (run : Run) (form : Form) (o : Output)
      (names : List String) (st : Rendering (List NamedFile)),
      (∀ (name : String) (rest : List String) (s : ApiSet) (paths : List Path) (t : Target)
        (a : String),
        g.Renders source c run form o names (name :: rest) st →
        st.registry.set? name = some s →
        s.Extracted st.registry (Run.target form o) paths t → s.annexFrom? t = some a →
        run.Taken o (st.sink.map (·.path) ++ paths) (t.annexPath a).components →
        ∃ path ∈ paths ++ [t.annexPath a],
          (g.stage source c).1 = .error (.raised (.annexCollision a path))) ∧
      (g.Renders source c run form o names [] st → st.imports ≠ [] →
        run.Taken o (st.sink.map (·.path)) (Run.target form o).core.path.components →
        (g.stage source c).1 =
          .error (.raised (.annexCollision corePartition (Run.target form o).core.path))) := by
  refine ⟨?_, fun g source c run form o names st => ⟨?_, fun h => h.clash_core⟩⟩
  · intro g g' source c files warnings before after form o hstage hentries
    obtain ⟨run, run', hreaches, hafter, -, -⟩ := Generator.reaches_of_stage hstage hentries
    obtain ⟨run₁, hgenerate, -⟩ := Run.entries_cons_eq_ok hafter
    obtain ⟨r, content, growth, hrecording⟩ := Run.exists_recording hgenerate
    obtain ⟨⟨own, hfiles, hown⟩, hnodup, -⟩ := hrecording.outputFiles_eq
    exact ⟨run, own, hreaches, hfiles, hown, hnodup,
      fun f hf => Generator.survives hstage hentries hreaches hf⟩
  · intro name rest s paths t a h hs hextracted ha htaken
    exact h.clash hs hextracted ha htaken

/-- A generator that has a registry already, in which the set `B` is to be extracted. -/
def extractingGenerator : Generator :=
  Generator.withRegistry { timestamp := "T" } ⟨"al.xml"⟩ extractingB.registry

/-- The set `B` is extracted from the first header, and the second one goes to another file. -/
def keepingConfig : Config where
  entries := [.output .header (headerFor "B" "al.h"), headerA]

/-- The second header has the path of the satellite for `B`. -/
def overwritingConfig : Config where
  entries := [.output .header (headerFor "B" "al.h"), .output .header (headerFor "A" "efx.h")]

/-- The same headers, of which the one with the path of the satellite is the first now. -/
def clashingConfig : Config where
  entries := [.output .header (headerFor "A" "efx.h"), .output .header (headerFor "B" "al.h")]

/-- The state in which the second one of these headers is generated. -/
def clashingRun : Run :=
  (extractingGenerator.start.entries clashingConfig "T"
    [.output .header (headerFor "A" "efx.h")]).2

/-- A satellite is lost if a later output has its path. -/
theorem satellite_overwritten : ∃ files g' warnings run,
    extractingGenerator.stage Source.empty overwritingConfig = (.ok files, g', warnings) ∧
      extractingGenerator.Reaches Source.empty overwritingConfig [] run ∧
      ∃ f ∈ run.extractedFiles overwritingConfig "T" .header (headerFor "B" "al.h"),
        textIn files f.path.components ≠ some f.text := by
  refine ⟨_, _, _, extractingGenerator.start, rfl, ⟨_, _, rfl, rfl⟩, ?_⟩
  decide +kernel

/-- The satellite is committed as it was rendered if the second header goes to another file. If the
headers come in the other order, the run fails. -/
theorem satellite_kept :
    (∃ files g' warnings run,
      extractingGenerator.stage Source.empty keepingConfig = (.ok files, g', warnings) ∧
        extractingGenerator.Reaches Source.empty keepingConfig [] run ∧
        (run.extractedFiles keepingConfig "T" .header (headerFor "B" "al.h")).map (·.path.text) =
          ["efx.h"] ∧
        ∀ f ∈ run.extractedFiles keepingConfig "T" .header (headerFor "B" "al.h"),
          textIn files f.path.components = some f.text) ∧
      (extractingGenerator.stage Source.empty clashingConfig).1 =
        .error (.raised (.annexCollision "efx" ⟨"efx.h"⟩)) := by
  constructor
  · obtain ⟨files, g', warnings, hstage⟩ : ∃ files g' warnings,
        extractingGenerator.stage Source.empty keepingConfig = (.ok files, g', warnings) :=
      ⟨_, _, _, rfl⟩
    obtain ⟨run, own, hreaches, -, -, -, hsurvives⟩ :=
      extracted_survive.1 _ _ _ _ _ _ [] [headerA] .header (headerFor "B" "al.h") hstage rfl
    obtain rfl : extractingGenerator.start = run :=
      Generator.Reaches.unique ⟨_, _, rfl, rfl⟩ hreaches
    have hpaths : (extractingGenerator.start.extractedFiles keepingConfig "T" .header
        (headerFor "B" "al.h")).map (·.path.components) = [[.named "efx.h"]] := rfl
    refine ⟨files, g', warnings, _, hstage, hreaches, rfl, ?_⟩
    intro f hf
    refine (hsurvives f hf).committed ?_
    intro form o ho hsame
    have hplace : f.path.components = [.named "efx.h"] := by
      have hmem := List.mem_map_of_mem (f := (·.path.components)) hf
      rw [hpaths] at hmem
      exact List.mem_singleton.1 hmem
    cases List.mem_singleton.1 ho
    rw [Path.same, hplace] at hsame
    revert hsame
    decide
  · have hreaches : extractingGenerator.Reaches Source.empty clashingConfig
        [.output .header (headerFor "A" "efx.h")] clashingRun := ⟨_, _, rfl, rfl⟩
    have hbegun : clashingRun.Begun [.named "efx.h"] :=
      ⟨⟨"efx.h"⟩, List.mem_singleton_self _, rfl⟩
    have hrenders : extractingGenerator.Renders Source.empty clashingConfig clashingRun .header
        (headerFor "B" "al.h") [] ["B"] (clashingRun.outset (headerFor "B" "al.h")
          (extractingB.registry.markWritten (requiringConstant "A" none))) :=
      ⟨⟨_, [], rfl, hreaches⟩, _, [], rfl, rfl, rfl⟩
    obtain ⟨path, hpath, hstage⟩ := (extracted_survive.2 _ _ _ _ _ _ _ _).1 "B" []
      { requiringConstant "B" none with annex := some "efx" } [] _ "efx" hrenders rfl .here rfl
      (.inl hbegun)
    obtain rfl := List.mem_singleton.1 hpath
    exact hstage

end ApiHeaders
