import ApiHeaders.Proofs.Sinks
import ApiHeaders.Proofs.Staging
import Mathlib.Data.List.Nodup

/-!
# The history of a run

The files that a run stages, one after the other, also those that are staged again later on. What
is committed is read off this history: every place once, in the order of first staging, with the
text that was staged last.

## Main definitions

* `Run.outputFiles` are the files that an output stages, `Run.entriesFiles` those of several
  entries, `Generator.history` those of a whole run.
* `Generator.Follows` says in which state an entry is followed.

## Main statements

* `Run.staged_entries` says that these are all the files that entries stage.
* `Generator.follows_of_mem_history` finds the entry that stages a file.
* `Staged.paths_putAll` and `Staged.textAt?_putAll` say what is staged after a history.
-/

namespace ApiHeaders

/-! ### Staging one file after the other -/

namespace Staged

variable {staged : Staged} {place : List Component}

def put (staged : Staged) (f : NamedFile) : Staged := staged.write f.path f.text

def putAll (staged : Staged) (files : List NamedFile) : Staged := files.foldl put staged

@[simp] theorem putAll_nil (staged : Staged) : staged.putAll [] = staged := rfl

@[simp] theorem putAll_cons (staged : Staged) (f : NamedFile) (files : List NamedFile) :
    staged.putAll (f :: files) = (staged.put f).putAll files := rfl

theorem putAll_append (staged : Staged) (xs ys : List NamedFile) :
    staged.putAll (xs ++ ys) = (staged.putAll xs).putAll ys :=
  List.foldl_append

theorem keyed_empty : (∅ : Staged).Keyed := nofun

theorem Keyed.putAll (h : staged.Keyed) (files : List NamedFile) : (staged.putAll files).Keyed := by
  induction files generalizing staged with
  | nil => exact h
  | cons f files ih => exact ih (h.write f.path f.text)

theorem Keyed.components_files (h : staged.Keyed) :
    staged.files.map (·.path.components) = staged.keys := by
  rw [files, Table.values, Table.keys, List.map_map]
  exact List.map_congr_left fun entry hentry => h entry hentry

theorem Keyed.nodup_components (h : staged.Keyed) :
    (staged.files.map (·.path.components)).Nodup :=
  h.components_files ▸ staged.nodup

theorem Keyed.textAt?_of_mem {f : NamedFile} (h : staged.Keyed) (hf : f ∈ staged.files) :
    staged.textAt? f.path.components = some f.text := by
  rw [← find?_files h]
  cases hfind : staged.files.find? (·.path.components = f.path.components) with
  | none =>
    have hother := List.find?_eq_none.1 hfind f hf
    simp at hother
  | some g =>
    have hplace : g.path.components = f.path.components := by simpa using List.find?_some hfind
    obtain rfl : g = f :=
      List.inj_on_of_nodup_map h.nodup_components (List.mem_of_find?_eq_some hfind) hf hplace
    rfl

/-- The paths of entries after one is written: a new place goes to the end, and one that is there
keeps its first spelling. -/
theorem paths_upsertEntry {entries : List (List Component × NamedFile)}
    (h : ∀ e ∈ entries, e.2.path.components = e.1) (path : Path) (text : String) :
    (Table.upsertEntry path.components
        (fun old => ⟨(old.map (·.path)).getD path, text⟩) entries).map (·.2.path) =
      if (entries.map (·.2.path)).any (·.same path) then entries.map (·.2.path)
      else entries.map (·.2.path) ++ [path] := by
  induction entries with
  | nil => rfl
  | cons e entries ih =>
    obtain ⟨key, file⟩ := e
    have hkey : file.path.components = key := h (key, file) List.mem_cons_self
    have hrest := ih fun e he => h e (List.mem_cons_of_mem _ he)
    by_cases hplace : key = path.components
    · simp [Table.upsertEntry, hplace, Path.same, hkey]
    · rw [Table.upsertEntry, if_neg hplace, List.map_cons, List.map_cons, List.any_cons, hrest]
      have hother : file.path.same path = false := by simpa [Path.same, hkey] using hplace
      rw [hother, Bool.false_or]
      split <;> rfl

theorem paths_put (h : staged.Keyed) (f : NamedFile) :
    (staged.put f).files.map (·.path) =
      if (staged.files.map (·.path)).any (·.same f.path) then staged.files.map (·.path)
      else staged.files.map (·.path) ++ [f.path] := by
  have hpaths := paths_upsertEntry h f.path f.text
  have hfiles (staged : Staged) :
      staged.files.map (·.path) = staged.entries.map (·.2.path) := List.map_map
  rw [hfiles, hfiles]
  exact hpaths

/-- The paths that are staged after a history, in order. -/
theorem paths_putAll (h : staged.Keyed) (files : List NamedFile) :
    (staged.putAll files).files.map (·.path) =
      (files.map (·.path)).foldl (fun seen p => if seen.any (·.same p) then seen else seen ++ [p])
        (staged.files.map (·.path)) := by
  induction files generalizing staged with
  | nil => rfl
  | cons f files ih =>
    have hput : (staged.put f).Keyed := h.write f.path f.text
    rw [putAll_cons, ih hput, paths_put h f]
    rfl

/-- The text that is staged for a place after a history. -/
theorem textAt?_putAll (staged : Staged) (files : List NamedFile) (place : List Component) :
    (staged.putAll files).textAt? place =
      ((files.reverse.find? (·.path.components = place)).map (·.text)).or
        (staged.textAt? place) := by
  induction files generalizing staged with
  | nil => rfl
  | cons f files ih =>
    rw [putAll_cons, ih, put, textAt?_write, List.reverse_cons, List.find?_append]
    cases files.reverse.find? (·.path.components = place) with
    | some g => rfl
    | none => by_cases hf : f.path.components = place <;> simp [hf]

end Staged

/-! ### The files of a run -/

/-- The recorder and the staging area answer alike, and what is staged is what was recorded. -/
theorem agrees_recorder (staged : Staged) (b : Boilerplate) :
    Sink.Agrees (fun files staged' => staged' = staged.putAll files) (recorder []) b Staged.sink b := by
  rintro files staged' rfl t content
  refine ⟨_, rfl, ?_⟩
  change _ = staged.putAll (files ++ [⟨t.path, t.file b content⟩])
  rw [Staged.putAll_append]
  rfl

namespace Run

/-- The files that finishing an output stages: its own, after that of the core partition if there
is one. -/
def finishedFiles (produced : List Path) (b : Boilerplate) (t : Target)
    (imports content : List String) : List NamedFile :=
  if imports = [] then [⟨t.path, t.file b content⟩]
  else
    match Rendering.produce produced t.core.path with
    | none => []
    | some _ =>
      let all := { t with imports := ("export import :" ++ corePartition ++ ";") :: imports }
      [⟨t.core.path, t.core.file b content⟩, ⟨t.path, all.file b []⟩]

theorem finishedFiles_of_produce {produced produced' : List Path} {b : Boilerplate} {t : Target}
    {imports content : List String} (himports : imports ≠ [])
    (h : Rendering.produce produced t.core.path = some produced') :
    finishedFiles produced b t imports content =
      [⟨t.core.path, t.core.file b content⟩,
        ⟨t.path, { t with
          imports := ("export import :" ++ corePartition ++ ";") :: imports }.file b []⟩] := by
  rw [finishedFiles, if_neg himports, h]

/-- The sets of an output, rendered into a recorder. -/
def recorded (run : Run) (c : Config) (timestamp : String) (form : Form) (o : Output)
    (r : Registry) (names : List String) :
    Except Failure (List String) × Rendering (List NamedFile) :=
  renderAll (recorder []) (boilerplate c timestamp o) (target form o) (form = .header)
    (((run.begin o.path).rendering r).into []) names

/-- The files that an output stages, in order. -/
def outputFiles (run : Run) (c : Config) (timestamp : String) (form : Form) (o : Output) :
    List NamedFile :=
  match run.registries.get? o.registry.components with
  | none => []
  | some r =>
    match select r o with
    | .error _ => []
    | .ok names =>
      let (content, st) := run.recorded c timestamp form o r names
      st.sink ++ match content with
        | .error _ => []
        | .ok content => finishedFiles st.produced (boilerplate c timestamp o) (target form o)
            st.imports content

/-- The files that an entry stages. -/
def entryFiles (run : Run) (c : Config) (timestamp : String) : Config.Entry → List NamedFile
  | .output form o => run.outputFiles c timestamp form o
  | .reset _ => []

/-- The files that entries stage, in order, until one fails. -/
def entriesFiles (run : Run) (c : Config) (timestamp : String) :
    List Config.Entry → List NamedFile
  | [] => []
  | e :: es =>
    run.entryFiles c timestamp e ++
      match run.entry c timestamp e with
      | (.ok (), run) => run.entriesFiles c timestamp es
      | (.error _, _) => []

variable {c : Config} {timestamp : String} {form : Form} {o : Output}

theorem staged_finish (run : Run) (b : Boilerplate) (t : Target) (imports content : List String) :
    (run.finish b t imports content).2.staged =
      run.staged.putAll (finishedFiles run.produced b t imports content) := by
  simp only [finish, finishedFiles]
  split
  · rfl
  · cases Rendering.produce run.produced t.core.path <;> rfl

/-- Rendering the sets of an output comes to what the recorder has seen of it. -/
theorem renderAll_recorded (run : Run) (c : Config) (timestamp : String) (form : Form) (o : Output)
    (r : Registry) (names : List String) :
    renderAll Staged.sink (boilerplate c timestamp o) (target form o) (form = .header)
        ((run.begin o.path).rendering r) names =
      ((run.recorded c timestamp form o r names).1,
        (run.recorded c timestamp form o r names).2.into
          ((run.begin o.path).staged.putAll
            (run.recorded c timestamp form o r names).2.sink)) := by
  obtain ⟨staged, hrender, rfl⟩ := renderAll_into
    (agrees_recorder (run.begin o.path).staged (boilerplate c timestamp o)) (target form o)
    (form = .header) names (((run.begin o.path).rendering r).into []) rfl
  exact hrender

theorem staged_begin (run : Run) (path : Path) : (run.begin path).staged = run.staged := by
  rcases run.begin_eq path with ⟨h, -⟩ | h
  · rw [h]
  · rw [h]
    rfl

/-- The files of an output that succeeds. -/
theorem outputFiles_of_generate {run run' : Run}
    (h : run.generate c timestamp form o = (.ok (), run')) :
    ∃ r names content st,
      run.registries.get? o.registry.components = some r ∧ select r o = .ok names ∧
      run.recorded c timestamp form o r names = (.ok content, st) ∧
      run.outputFiles c timestamp form o =
        st.sink ++ finishedFiles st.produced (boilerplate c timestamp o) (target form o) st.imports
          content ∧
      (st.imports = [] ∨
        ∃ produced, Rendering.produce st.produced (target form o).core.path = some produced) := by
  obtain ⟨r, names, content, st', hr, hselect, hrender, hfinish⟩ := generate_eq_ok h
  rw [renderAll_recorded] at hrender
  cases hrecorded : run.recorded c timestamp form o r names with
  | mk result st =>
    rw [hrecorded] at hrender
    cases hrender
    refine ⟨r, names, content, st, hr, hselect, hrecorded, ?_, ?_⟩
    · simp only [outputFiles, hr, hselect, hrecorded]
    · by_cases himports : st.imports = []
      · exact .inl himports
      · right
        change (finish _ _ _ st.imports _) = _ at hfinish
        rw [finish, if_neg himports] at hfinish
        simp only at hfinish
        split at hfinish
        · cases hfinish
        · next produced hproduced => exact ⟨produced, hproduced⟩

theorem staged_generate (run : Run) (c : Config) (timestamp : String) (form : Form) (o : Output) :
    (run.generate c timestamp form o).2.staged =
      run.staged.putAll (run.outputFiles c timestamp form o) := by
  unfold outputFiles
  cases hr : run.registries.get? o.registry.components with
  | none =>
    unfold generate
    simp only [hr]
    rfl
  | some r =>
    cases hselect : select r o with
    | error e =>
      unfold generate
      simp only [hr, hselect]
      rfl
    | ok names =>
      rw [generate_of_select hr hselect, renderAll_recorded, staged_begin]
      simp only [hselect]
      cases run.recorded c timestamp form o r names with
      | mk content st =>
        cases content with
        | error e =>
          simp only [List.append_nil]
          rfl
        | ok content =>
          simp only [staged_finish]
          rw [Staged.putAll_append]
          rfl

theorem staged_entry (run : Run) (c : Config) (timestamp : String) (e : Config.Entry) :
    (run.entry c timestamp e).2.staged = run.staged.putAll (run.entryFiles c timestamp e) := by
  cases e with
  | output form o => exact run.staged_generate c timestamp form o
  | reset registry =>
    simp only [entry]
    split <;> rfl

/-- What entries have staged in the end. -/
theorem staged_entries (run : Run) (c : Config) (timestamp : String) (es : List Config.Entry) :
    (run.entries c timestamp es).2.staged = run.staged.putAll (run.entriesFiles c timestamp es) := by
  induction es generalizing run with
  | nil => rfl
  | cons e es ih =>
    have hentry := run.staged_entry c timestamp e
    rw [entries, entriesFiles, Staged.putAll_append, ← hentry]
    cases run.entry c timestamp e with
    | mk result run₁ =>
      cases result with
      | ok => exact ih run₁
      | error => rfl

end Run

/-- A file that entries stage is staged by one of them, after those before it. -/
theorem Run.mem_entriesFiles {run : Run} {c : Config} {timestamp : String}
    {es : List Config.Entry} {f : NamedFile} (hf : f ∈ run.entriesFiles c timestamp es) :
    ∃ before e after run₁, es = before ++ e :: after ∧
      run.entries c timestamp before = (.ok (), run₁) ∧ f ∈ run₁.entryFiles c timestamp e := by
  induction es generalizing run with
  | nil => cases hf
  | cons e es ih =>
    rw [entriesFiles] at hf
    rcases List.mem_append.1 hf with hf | hf
    · exact ⟨[], e, es, run, rfl, rfl, hf⟩
    · split at hf
      · next run₁ hentry =>
        obtain ⟨before, e', after, run₂, rfl, hbefore, hf⟩ := ih hf
        refine ⟨e :: before, e', after, run₂, rfl, ?_, hf⟩
        rw [entries, hentry]
        exact hbefore
      · cases hf

namespace Generator

variable {g g' : Generator} {source : Source} {c : Config}

/-- The files that a run stages, in order. -/
def history (g : Generator) (source : Source) (c : Config) : List NamedFile :=
  match g.load source c.registries with
  | (.error _, _, _) => []
  | (.ok (), g, warnings) =>
    Run.entriesFiles { registries := g.registries, warnings } c g.timestamp c.entries

theorem timestamp_load (g : Generator) (source : Source) (paths : List Path) :
    (g.load source paths).2.1.timestamp = g.timestamp := by
  induction paths generalizing g with
  | nil => rfl
  | cons path paths ih =>
    rw [load]
    split
    · exact ih g
    · split
      · rfl
      · split
        · rfl
        · next r _ _ => exact ih (g.withRegistry path r)

theorem timestamp_of_load {paths : List Path} {result : Except Error Unit}
    {warnings : List Warning} (h : g.load source paths = (result, g', warnings)) :
    g'.timestamp = g.timestamp := by
  have htimestamp := g.timestamp_load source paths
  rwa [h] at htimestamp

/-- An entry of a configuration is followed in a state that the entries before it lead to. -/
def Follows (g : Generator) (source : Source) (c : Config) (run : Run) (e : Config.Entry) : Prop :=
  ∃ g₁ warnings before after, g.load source c.registries = (.ok (), g₁, warnings) ∧
    c.entries = before ++ e :: after ∧
    Run.entries { registries := g₁.registries, warnings } c g.timestamp before = (.ok (), run)

/-- A file of a run is staged by an entry that is followed. -/
theorem follows_of_mem_history {f : NamedFile} (hf : f ∈ g.history source c) :
    ∃ run e, g.Follows source c run e ∧ f ∈ run.entryFiles c g.timestamp e := by
  unfold history at hf
  split at hf
  · cases hf
  · next g₁ warnings hload =>
    obtain ⟨before, e, after, run, hentries, hbefore, hf⟩ := Run.mem_entriesFiles hf
    rw [timestamp_of_load hload] at hbefore hf
    exact ⟨run, e, ⟨g₁, warnings, before, after, hload, hentries, hbefore⟩, hf⟩

/-- All entries of a run whose files are committed succeed. -/
theorem Follows.entry_eq_ok {files : List NamedFile} {warnings : List Warning} {run : Run}
    {e : Config.Entry} (hfollows : g.Follows source c run e)
    (h : g.stage source c = (.ok files, g', warnings)) :
    ∃ run', run.entry c g.timestamp e = (.ok (), run') := by
  obtain ⟨g₁, w₁, before, after, hload, hentries, hbefore⟩ := hfollows
  obtain ⟨g₂, w₂, run₂, hload', hrun, -⟩ := stage_eq_ok h
  rw [hload] at hload'
  cases hload'
  rw [timestamp_of_load hload, hentries] at hrun
  obtain ⟨run₃, hbefore', hrest⟩ := Run.entries_append_eq_ok hrun
  rw [hbefore] at hbefore'
  cases hbefore'
  obtain ⟨run₄, hentry, -⟩ := Run.entries_cons_eq_ok hrest
  exact ⟨run₄, hentry⟩

end Generator

end ApiHeaders
