import ApiHeaders.Generator

/-!
# Staged files

A run only ever adds to the files that it has begun, and leaves the texts of the files that it has
finished alone, unless it warns that a file is generated again.

## Main definitions

* `Staged.textAt?` is the text that is staged for a place.
* `Progress` says what a part of a run may change.

## Main statements

* `Rendering.progress_renderWithin` and `Run.progress_entries` say that rendering and following
  entries makes progress.
* `Staged.find?_files` finds a staged text in the list of files that is committed.
-/

namespace ApiHeaders

variable {staged : Staged} {path : Path} {place : List Component}

namespace Staged

/-- The text that is staged for a place. -/
def textAt? (staged : Staged) (place : List Component) : Option String :=
  (staged.get? place).map (·.text)

/-- Whether all files are held under their own place. -/
def Keyed (staged : Staged) : Prop :=
  ∀ entry ∈ staged.entries, entry.2.path.components = entry.1

theorem textAt?_write (staged : Staged) (path : Path) (text : String) (place : List Component) :
    (staged.write path text).textAt? place =
      if path.components = place then some text else staged.textAt? place := by
  rw [textAt?, write, Table.get?_upsert]
  split <;> rfl

theorem mem_upsertEntry {κ ν : Type} [DecidableEq κ] {k : κ} {f : Option ν → ν}
    {l : List (κ × ν)} {e : κ × ν} (h : e ∈ Table.upsertEntry k f l) :
    e ∈ l ∨ e = (k, f none) ∨ ∃ v, (k, v) ∈ l ∧ e = (k, f (some v)) := by
  induction l with
  | nil => exact .inr (.inl (List.mem_singleton.1 h))
  | cons e' l ih =>
    obtain ⟨k', v⟩ := e'
    by_cases hk : k' = k
    · rw [Table.upsertEntry, if_pos hk] at h
      rcases List.mem_cons.1 h with rfl | h
      · exact .inr (.inr ⟨v, hk ▸ List.mem_cons_self, by rw [hk]⟩)
      · exact .inl (List.mem_cons_of_mem _ h)
    · rw [Table.upsertEntry, if_neg hk] at h
      rcases List.mem_cons.1 h with rfl | h
      · exact .inl List.mem_cons_self
      · rcases ih h with h | h | ⟨w, hw, h⟩
        · exact .inl (List.mem_cons_of_mem _ h)
        · exact .inr (.inl h)
        · exact .inr (.inr ⟨w, List.mem_cons_of_mem _ hw, h⟩)

theorem Keyed.write (h : staged.Keyed) (path : Path) (text : String) :
    (staged.write path text).Keyed := by
  intro entry hentry
  rcases mem_upsertEntry hentry with hentry | rfl | ⟨old, hold, rfl⟩
  · exact h entry hentry
  · rfl
  · have hplace := h (path.components, old) hold
    exact hplace

/-- The staged text for a place, among the files that are committed. -/
theorem find?_files (h : staged.Keyed) (place : List Component) :
    (staged.files.find? (·.path.components = place)).map (·.text) = staged.textAt? place := by
  unfold files Table.values textAt? Table.get?
  unfold Keyed at h
  generalize staged.entries = entries at h
  induction entries with
  | nil => rfl
  | cons entry entries ih =>
    obtain ⟨key, file⟩ := entry
    have hkey : file.path.components = key := h (key, file) List.mem_cons_self
    have hrest := ih fun e he => h e (List.mem_cons_of_mem _ he)
    by_cases hplace : key = place
    · simp [hkey, hplace]
    · rw [List.map_cons, List.find?_cons_of_neg (by simpa [hkey] using hplace), hrest,
        Table.lookup_cons, if_neg hplace]

end Staged

/-- The files of a run: those that were begun, the texts that are staged, and the warnings. -/
structure Ledger where
  begun : List Path
  staged : Staged
  warnings : List Warning

namespace Ledger

/-- What a part of a run does to its files: nothing that was begun, staged or warned of before is
lost. -/
structure Progress (l l' : Ledger) : Prop where
  begun : l.begun ⊆ l'.begun
  textAt? : ∀ p ∈ l.begun, l'.staged.textAt? p.components = l.staged.textAt? p.components
  keyed : l.staged.Keyed → l'.staged.Keyed
  warnings : l.warnings ⊆ l'.warnings

variable {l l₁ l₂ : Ledger}

theorem Progress.refl (l : Ledger) : l.Progress l :=
  ⟨List.Subset.refl _, fun _ _ => rfl, id, List.Subset.refl _⟩

theorem Progress.trans (h : l.Progress l₁) (h₁ : l₁.Progress l₂) : l.Progress l₂ where
  begun := List.Subset.trans h.begun h₁.begun
  textAt? p hp := (h₁.textAt? p (h.begun hp)).trans (h.textAt? p hp)
  keyed hkeyed := h₁.keyed (h.keyed hkeyed)
  warnings := List.Subset.trans h.warnings h₁.warnings

/-- A file that was not begun before may be written. -/
theorem Progress.write (h : l.Progress l₁) (hnew : ∀ p ∈ l.begun, path.components ≠ p.components)
    (text : String) : l.Progress { l₁ with staged := l₁.staged.write path text } where
  begun := h.begun
  textAt? p hp := by
    rw [Staged.textAt?_write, if_neg (hnew p hp)]
    exact h.textAt? p hp
  keyed hkeyed := (h.keyed hkeyed).write path text
  warnings := h.warnings

/-- A file may be begun. -/
theorem Progress.begin (h : l.Progress l₁) (path : Path) :
    l.Progress { l₁ with begun := l₁.begun ++ [path] } :=
  { h with begun := List.Subset.trans h.begun (List.subset_append_left _ _) }

end Ledger

def Rendering.ledger (st : Rendering Staged) : Ledger := ⟨st.produced, st.sink, st.warnings⟩

def Run.ledger (run : Run) : Ledger := ⟨run.produced, run.staged, run.warnings⟩

namespace Rendering

variable {st st' : Rendering Staged} {s : ApiSet} {t : Target}

theorem eq_of_produce {produced produced' : List Path}
    (h : produce produced path = some produced') :
    produced' = produced ++ [path] ∧ ∀ p ∈ produced, path.components ≠ p.components := by
  unfold produce at h
  split at h
  · cases h
  · next hany =>
    refine ⟨(Option.some.inj h).symm, fun p hp heq => hany ?_⟩
    exact List.any_eq_true.2 ⟨p, hp, by simp [Path.same, heq]⟩

/-- What a reservation changes, and what it checks. -/
theorem reserve_eq_ok {annex : String} (h : st.reserve t annex = .ok st') :
    st' = { st with produced := st.produced ++ [t.annexPath annex] } ∧
      (∀ p ∈ st.produced, (t.annexPath annex).components ≠ p.components) ∧
      (t.annexPath annex).components ≠ t.path.components := by
  simp only [reserve] at h
  split at h
  · cases h
  · next hfree =>
    split at h
    · cases h
    · next produced hproduced =>
      obtain ⟨hall, hnew⟩ := eq_of_produce hproduced
      refine ⟨by rw [← hall, ← Except.ok.inj h], hnew, fun heq => hfree ?_⟩
      simp [Path.same, heq]

theorem progress_renderInline (st : Rendering Staged) (s : ApiSet) (t : Target) (guard : Bool) :
    st.ledger.Progress (st.renderInline s t guard).2.ledger := by
  have hwarnings := List.subset_append_left st.warnings
    (s.inlineLines st.registry t guard).warnings
  simp only [renderInline]
  split
  · exact ⟨List.Subset.refl _, fun _ _ => rfl, id, hwarnings⟩
  · exact ⟨List.Subset.refl _, fun _ _ => rfl, id, hwarnings⟩

theorem ledger_refer (st : Rendering Staged) (s : ApiSet) (t satellite : Target) (guard : Bool) :
    (st.refer s t satellite guard).2.ledger = st.ledger := by
  unfold refer
  split <;> rfl

theorem progress_renderWithin (b : Boilerplate) (guard : Bool) (s : ApiSet) (fuel : Nat)
    (t : Target) (st : Rendering Staged) :
    st.ledger.Progress (renderWithin Staged.sink b guard s fuel t st).2.ledger := by
  fun_induction renderWithin Staged.sink b guard s fuel t st with
  | case1 fuel t st ha => exact progress_renderInline st s t guard
  | case2 t st annex ha => exact .refl _
  | case3 t st annex ha fuel e hst => exact .refl _
  | case4 t st annex ha fuel st₁ hst satellite e st₂ hinner ih =>
    obtain ⟨rfl, -, -⟩ := reserve_eq_ok hst
    rw [hinner] at ih
    exact ((Ledger.Progress.refl st.ledger).begin _).trans ih
  | case5 t st annex ha fuel st₁ hst satellite content st₂ hinner e written hwrite ih =>
    cases hwrite
  | case6 t st annex ha fuel st₁ hst satellite content st₂ hinner written hwrite lines st₃ hrefer
      ih =>
    obtain ⟨rfl, hnew, -⟩ := reserve_eq_ok hst
    rw [hinner] at ih
    have hbegun := ((Ledger.Progress.refl st.ledger).begin (t.annexPath annex)).trans ih
    have hwritten := hbegun.write hnew (satellite.file b content)
    have hledger := ledger_refer { st₂ with sink := written } s t satellite guard
    rw [hrefer] at hledger
    cases hwrite
    rw [hledger]
    exact hwritten

theorem progress_render (st : Rendering Staged) (b : Boilerplate) (name : String) (t : Target)
    (guard : Bool) : st.ledger.Progress (st.render Staged.sink b name t guard).2.ledger := by
  unfold render
  split
  · exact .refl _
  · exact progress_renderWithin ..

end Rendering

namespace Run

variable {run run' : Run}

theorem progress_renderAll (b : Boilerplate) (t : Target) (guard : Bool) (names : List String)
    (st : Rendering Staged) :
    st.ledger.Progress (renderAll Staged.sink b t guard st names).2.ledger := by
  induction names generalizing st with
  | nil => exact .refl _
  | cons name names ih =>
    have hfirst := Rendering.progress_render st b name t guard
    unfold renderAll
    cases hrender : st.render Staged.sink b name t guard with
    | mk result st₁ =>
      rw [hrender] at hfirst
      cases result with
      | error e => exact hfirst
      | ok lines =>
        have hrest := ih st₁
        cases hall : renderAll Staged.sink b t guard st₁ names with
        | mk more st₂ =>
          rw [hall] at hrest
          cases more <;> simp only [hall] <;> exact hfirst.trans hrest

/-- What beginning a file changes. A file that was begun before is warned of. -/
theorem begin_eq (run : Run) (path : Path) :
    (run.begin path = { run with produced := run.produced ++ [path] } ∧
      ∀ p ∈ run.produced, path.components ≠ p.components) ∨
    run.begin path = run.warn (.generatedAgain path) := by
  unfold begin
  split
  · next produced h =>
    obtain ⟨rfl, hnew⟩ := Rendering.eq_of_produce h
    exact .inl ⟨rfl, hnew⟩
  · exact .inr rfl

theorem progress_begin (run : Run) (path : Path) :
    run.ledger.Progress (run.begin path).ledger := by
  rcases run.begin_eq path with ⟨h, -⟩ | h
  · rw [h]
    exact (Ledger.Progress.refl run.ledger).begin path
  · rw [h]
    exact ⟨List.Subset.refl _, fun _ _ => rfl, id, List.subset_append_left _ _⟩

/-- The files of a target may be finished once they are begun. -/
theorem progress_finish {l : Ledger} (h : l.Progress run.ledger) (b : Boilerplate) (t : Target)
    (hnew : ∀ p ∈ l.begun, t.path.components ≠ p.components) (imports content : List String) :
    l.Progress (run.finish b t imports content).2.ledger := by
  simp only [finish]
  split
  · exact h.write hnew _
  · split
    · exact h
    · next produced hproduced =>
      obtain ⟨rfl, hcore⟩ := Rendering.eq_of_produce hproduced
      exact ((h.begin _).write (fun p hp => hcore p (h.begun hp)) _).write hnew _

theorem warnings_finish (run : Run) (b : Boilerplate) (t : Target)
    (imports content : List String) :
    (run.finish b t imports content).2.warnings = run.warnings := by
  simp only [finish]
  split
  · rfl
  · split <;> rfl

/-- What rendering the sets of an output starts from. -/
def rendering (run : Run) (r : Registry) : Rendering Staged where
  registry := r
  produced := run.produced
  imports := []
  sink := run.staged
  warnings := run.warnings

/-- The run after the sets of an output are rendered. -/
def rendered (run : Run) (o : Output) (st : Rendering Staged) : Run where
  registries := run.registries.insert o.registry.components st.registry
  staged := st.sink
  produced := st.produced
  warnings := st.warnings

/-- The steps of an output whose sets are selected. -/
theorem generate_of_select {c : Config} {timestamp : String} {form : Form} {o : Output}
    {r : Registry} {names : List String}
    (hr : run.registries.get? o.registry.components = some r) (hselect : select r o = .ok names) :
    run.generate c timestamp form o =
      let (content, st) := renderAll Staged.sink (boilerplate c timestamp o) (target form o)
        (form = .header) ((run.begin o.path).rendering r) names
      let run := (run.begin o.path).rendered o st
      match content with
      | .error e => (.error e, run)
      | .ok content => run.finish (boilerplate c timestamp o) (target form o) st.imports content := by
  unfold generate
  simp only [hr, hselect]
  rfl

/-- The steps of an output that succeeds. -/
theorem generate_eq_ok {c : Config} {timestamp : String} {form : Form} {o : Output}
    (h : run.generate c timestamp form o = (.ok (), run')) :
    ∃ r names content st,
      run.registries.get? o.registry.components = some r ∧ select r o = .ok names ∧
      renderAll Staged.sink (boilerplate c timestamp o) (target form o) (form = .header)
        ((run.begin o.path).rendering r) names = (.ok content, st) ∧
      ((run.begin o.path).rendered o st).finish (boilerplate c timestamp o) (target form o)
        st.imports content = (.ok (), run') := by
  unfold generate at h
  split at h
  · cases h
  · next r hr =>
    split at h
    · cases h
    · next names hselect =>
      simp only at h
      split at h
      · cases h
      · next content hcontent => exact ⟨r, names, content, _, hr, hselect, Prod.ext hcontent rfl, h⟩

theorem progress_generate {c : Config} {timestamp : String} {form : Form} {o : Output}
    (h : run.generate c timestamp form o = (.ok (), run'))
    (hagain : .generatedAgain o.path ∉ run'.warnings) : run.ledger.Progress run'.ledger := by
  obtain ⟨r, names, content, st, -, -, hrender, hfinish⟩ := generate_eq_ok h
  have hall := progress_renderAll (boilerplate c timestamp o) (target form o) (form = .header) names
    ((run.begin o.path).rendering r)
  rw [hrender] at hall
  have hprogress : run.ledger.Progress ((run.begin o.path).rendered o st).ledger :=
    (run.progress_begin o.path).trans hall
  have hwarnings := warnings_finish ((run.begin o.path).rendered o st)
    (boilerplate c timestamp o) (target form o) st.imports content
  rw [hfinish] at hwarnings
  have hnew : ∀ p ∈ run.produced, o.path.components ≠ p.components := by
    rcases run.begin_eq o.path with ⟨-, hnew⟩ | hwarned
    · exact hnew
    · refine absurd ?_ hagain
      rw [hwarnings]
      apply hall.warnings
      change .generatedAgain o.path ∈ (run.begin o.path).warnings
      rw [hwarned]
      exact List.mem_append_right _ List.mem_cons_self
  have hdone := progress_finish hprogress (boilerplate c timestamp o) (target form o) hnew
    st.imports content
  rw [hfinish] at hdone
  exact hdone

theorem progress_entry {c : Config} {timestamp : String} {entry : Config.Entry}
    (h : run.entry c timestamp entry = (.ok (), run'))
    (hagain : ∀ path, .generatedAgain path ∉ run'.warnings) : run.ledger.Progress run'.ledger := by
  cases entry with
  | output form o => exact progress_generate h (hagain o.path)
  | reset registry =>
    simp only [entry] at h
    split at h
    · cases h
      exact .refl _
    · cases h

theorem entries_cons_eq_ok {c : Config} {timestamp : String} {entry : Config.Entry}
    {entries : List Config.Entry}
    (h : run.entries c timestamp (entry :: entries) = (.ok (), run')) :
    ∃ run₁, run.entry c timestamp entry = (.ok (), run₁) ∧
      run₁.entries c timestamp entries = (.ok (), run') := by
  rw [Run.entries] at h
  split at h
  · next run₁ hentry => exact ⟨run₁, hentry, h⟩
  · cases h

theorem entries_append_eq_ok {c : Config} {timestamp : String} {before after : List Config.Entry}
    (h : run.entries c timestamp (before ++ after) = (.ok (), run')) :
    ∃ run₁, run.entries c timestamp before = (.ok (), run₁) ∧
      run₁.entries c timestamp after = (.ok (), run') := by
  induction before generalizing run with
  | nil => exact ⟨run, rfl, h⟩
  | cons entry before ih =>
    obtain ⟨run₁, hentry, hrest⟩ := entries_cons_eq_ok h
    obtain ⟨run₂, hbefore, hafter⟩ := ih hrest
    refine ⟨run₂, ?_, hafter⟩
    rw [Run.entries, hentry]
    exact hbefore

theorem progress_entries {c : Config} {timestamp : String} {entries : List Config.Entry}
    (h : run.entries c timestamp entries = (.ok (), run'))
    (hagain : ∀ path, .generatedAgain path ∉ run'.warnings) : run.ledger.Progress run'.ledger := by
  induction entries generalizing run with
  | nil =>
    cases h
    exact .refl _
  | cons entry entries ih =>
    obtain ⟨run₁, hentry, hrest⟩ := entries_cons_eq_ok h
    have hprogress := ih hrest
    have hfirst := progress_entry hentry fun path hmem => hagain path (hprogress.warnings hmem)
    exact hfirst.trans hprogress

end Run

/-- The steps of a run whose files are committed. -/
theorem Generator.stage_eq_ok {g g' : Generator} {source : Source} {c : Config}
    {files : List NamedFile} {warnings : List Warning}
    (h : g.stage source c = (.ok files, g', warnings)) :
    ∃ g₁ w₁ run, g.load source c.registries = (.ok (), g₁, w₁) ∧
      Run.entries { registries := g₁.registries, warnings := w₁ } c g₁.timestamp c.entries =
        (.ok (), run) ∧
      files = run.staged.files ∧ warnings = run.warnings := by
  unfold stage at h
  split at h
  · cases h
  · next g₁ w₁ hload =>
    cases hrun : Run.entries { registries := g₁.registries, warnings := w₁ } c g₁.timestamp
        c.entries with
    | mk outcome run =>
      simp only [hrun] at h
      cases outcome with
      | error e => cases h
      | ok u =>
        cases h
        exact ⟨g₁, w₁, run, hload, hrun, rfl, rfl⟩

end ApiHeaders
