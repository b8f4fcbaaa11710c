import ApiHeaders.Proofs.Covering

/-!
# Splitting a run

The entries of a run can be divided between two runs, the second of which starts with the registries
that the first one leaves. And if registries are reset in between, the second part does not depend
on the first one at all. Only collisions with files of the first part are lost.

## Main statements

* `run_append` divides a run into two.
* `reset_isolates` says what a part of a run that follows resets comes to.
-/

namespace ApiHeaders

variable {σ τ : Type} {g g' : Generator} {source : Source} {c : Config}
  {xs ys : List Config.Entry} {resets : List Path} {warnings : List Warning}

/-- The outputs of some entries. -/
theorem Config.mem_outputs {o : Output} :
    o ∈ c.outputs ↔ ∃ form, Config.Entry.output form o ∈ c.entries := by
  rw [outputs, List.mem_filterMap]
  constructor
  · rintro ⟨e, he, ho⟩
    cases e with
    | output form o' =>
      cases ho
      exact ⟨form, he⟩
    | reset registry => cases ho
  · rintro ⟨form, ho⟩
    exact ⟨_, ho, rfl⟩

theorem Generator.Holds.of_subset {es : List Config.Entry} (h : g.Holds { c with entries := ys })
    (hsubset : es ⊆ ys) : g.Holds { c with entries := es } := by
  intro o ho
  obtain ⟨form, ho⟩ := Config.mem_outputs.1 ho
  exact h o (Config.mem_outputs.2 ⟨form, hsubset ho⟩)

/-- A run starts with nothing begun and nothing staged, and so is covered by every run with the same
registries. -/
theorem Run.Covers.start {names : List Component → Set String} {run : Run}
    (h : Registries.Agree names run.registries g.registries) : Covers names run g.start :=
  ⟨h, fun _ hbegun => absurd hbegun (not_begun_of_produced_eq_nil rfl)⟩

/-- A run that succeeds can be split: followed by a run of the other entries, a run of the first
ones leads to the same registries, and at each place to the text that is committed there last. -/
theorem run_append {sink : Sink σ} (hsink : sink.TakesAll)
    (hholds : g.Holds { c with entries := xs ++ ys }) {s s' : σ}
    (hrun : g.run source { c with entries := xs ++ ys } sink s = (.ok (), s', g', warnings)) :
    ∃ files files₁ files₂ s₁ s₂ g₁ g₂,
      g.Commits source { c with entries := xs ++ ys } sink s files s' g' ∧
      g.Commits source { c with entries := xs } sink s files₁ s₁ g₁ ∧
      g₁.Commits source { c with entries := ys } sink s₁ files₂ s₂ g₂ ∧
      Registries.Agree (fun _ => Set.univ) g'.registries g₂.registries ∧
      ∀ place, textIn files place = (textIn files₂ place).or (textIn files₁ place) := by
  obtain ⟨files, hstage, hcommits⟩ := Generator.commits_of_run hrun
  obtain ⟨run', hentries, rfl, rfl, -⟩ := (Generator.stage_eq_ok_iff_of_holds hholds).1 hstage
  obtain ⟨run₁, hfirst, hsecond⟩ := Run.entries_append_eq_ok hentries
  let g₁ : Generator := { g with registries := run₁.registries }
  -- The second run has the registries of the first one, but begins no file that is there already.
  have hcovers : Run.Covers (fun _ => Set.univ) run₁ g₁.start := .start (.refl _ _)
  obtain ⟨run₂, hsecond', hfiles, hcovers'⟩ := hcovers.entries (fun _ _ _ => rfl) hsecond
  have hholds₁ : g.Holds { c with entries := xs } := hholds.of_subset (List.subset_append_left _ _)
  have hholds₂ : g₁.Holds { c with entries := ys } := by
    intro o ho
    have hthere := hholds.of_subset (List.subset_append_right xs ys) o ho
    exact ((Run.tables_entries hfirst).contains_eq _).trans hthere
  have hstage₁ : g.stage source { c with entries := xs } = _ :=
    (Generator.stage_eq_ok_iff_of_holds hholds₁).2 ⟨run₁, hfirst, rfl, rfl, rfl⟩
  have hstage₂ : g₁.stage source { c with entries := ys } = _ :=
    (Generator.stage_eq_ok_iff_of_holds hholds₂).2 ⟨run₂, hsecond', rfl, rfl, rfl⟩
  obtain ⟨s₁, hcommits₁⟩ := Generator.commits_of_stage hsink hstage₁ s
  obtain ⟨s₂, hcommits₂⟩ := Generator.commits_of_stage hsink hstage₂ s₁
  refine ⟨_, _, _, s₁, s₂, g₁, _, hcommits, hcommits₁, hcommits₂, hcovers'.registries, ?_⟩
  intro place
  rw [Run.textIn_staged hentries rfl, Run.textIn_staged hfirst rfl, Run.textIn_staged hsecond' rfl,
    Run.entriesFiles_append hfirst, hfiles, List.reverse_append, textIn_append]

/-- A generator that has a registry already, in which the sets `A` and `B` share a constant. -/
def sharedGenerator : Generator :=
  Generator.withRegistry { timestamp := "T" } ⟨"al.xml"⟩ (sharedConstant none)

/-- A header for one set. -/
def headerFor (set path : String) : Output where
  path := ⟨path⟩
  registry := ⟨"al.xml"⟩
  apis := ["al"]
  included := some [set]

def headerA : Config.Entry := .output .header (headerFor "A" "a.h")

def headerB : Config.Entry := .output .header (headerFor "B" "b.h")

/-- A header for `A` and one for `B` in two runs: the constant belongs to `B` then, and the second
header is that of a single run, in which `A` has written the constant before. -/
theorem constant_in_two_runs :
    ∃ files files₁ files₂ s' s₁ s₂ g' g₁ g₂,
      sharedGenerator.Commits Source.empty
        { entries := [headerA] ++ [headerB] } (recorder []) [] files s' g' ∧
      sharedGenerator.Commits Source.empty { entries := [headerA] } (recorder []) []
        files₁ s₁ g₁ ∧
      g₁.Commits Source.empty { entries := [headerB] } (recorder []) s₁ files₂ s₂ g₂ ∧
      (g₂.registries.get? [.named "al.xml"]).bind (·.writtenBy? "AL_N") = some "B" ∧
      ∀ place, textIn files place = (textIn files₂ place).or (textIn files₁ place) := by
  let c : Config := { entries := [headerA] ++ [headerB] }
  obtain ⟨files, g', warnings, r, hstage, hr, hwritten⟩ : ∃ files g' warnings r,
      sharedGenerator.stage Source.empty c = (.ok files, g', warnings) ∧
        g'.registries.get? [.named "al.xml"] = some r ∧ r.writtenBy? "AL_N" = some "B" :=
    ⟨_, _, _, _, rfl, rfl, rfl⟩
  obtain ⟨s', hcommits⟩ := Generator.commits_of_stage takesAll_recorder hstage []
  obtain ⟨warnings, hrun⟩ := hcommits.run
  have hholds : sharedGenerator.Holds c := by decide
  obtain ⟨files, files₁, files₂, s₁, s₂, g₁, g₂, hcommits, hcommits₁, hcommits₂, hagree, htexts⟩ :=
    run_append (c := c) takesAll_recorder hholds hrun
  obtain ⟨r₂, hr₂, hmemory⟩ := hagree.get?_eq_some hr
  refine ⟨files, files₁, files₂, s', s₁, s₂, g', g₁, g₂, hcommits, hcommits₁, hcommits₂, ?_, htexts⟩
  rw [hr₂]
  exact (hmemory.memory "AL_N" (Set.mem_univ _)).trans hwritten

/-! ### Resets -/

/-- Resets lead back to the memories of blank registries. -/
theorem Run.registries_resets {names : List Component → Set String} {run run' : Run}
    {timestamp : String} {rs : Table (List Component) Registry}
    (hblank : ∀ place r, rs.get? place = some r → ∀ name, r.writtenBy? name = none)
    (h : Registries.Agree names rs run.registries)
    (hentries : run.entries c timestamp (resets.map .reset) = (.ok (), run')) :
    Registries.Agree (fun place => {name | name ∈ names place ∨ ∃ p ∈ resets, p.components = place})
      rs run'.registries := by
  induction resets generalizing names run with
  | nil =>
    cases hentries
    exact h.mono fun place name hname => hname.resolve_right (by simp)
  | cons p resets ih =>
    obtain ⟨run₁, hentry, hrest⟩ := entries_cons_eq_ok hentries
    obtain ⟨-, rfl⟩ := entry_reset_eq_ok hentry
    have hfirst := h.resetWritten p.components (hblank p.components)
    refine (ih hfirst hrest).mono ?_
    rintro place name (hname | ⟨q, hq, hplace⟩)
    · exact .inl (.inl hname)
    · rcases List.mem_cons.1 hq with rfl | hq
      · exact .inl (.inr hplace)
      · exact .inr ⟨q, hq, hplace⟩

/-- After resets of all registries that they use, entries come to what they come to in a run of
their own, if all registries are there and blank: that run succeeds, and the text of each of its
files is committed at the same place by the run with the entries before and the resets. -/
theorem reset_isolates {sink : Sink σ} {sink' : Sink τ} (hsink' : sink'.TakesAll)
    (hholds : g.Holds { c with entries := xs ++ resets.map .reset ++ ys })
    (hblank : ∀ place r, g.registries.get? place = some r → ∀ name, r.writtenBy? name = none)
    (hresets : ∀ form o, .output form o ∈ ys → ∃ p ∈ resets, p.same o.registry) {s s' : σ}
    (hrun : g.run source { c with entries := xs ++ resets.map .reset ++ ys } sink s =
      (.ok (), s', g', warnings)) (u : τ) :
    ∃ files files₂ u' g₂,
      g.Commits source { c with entries := xs ++ resets.map .reset ++ ys } sink s files s' g' ∧
      g.Commits source { c with entries := ys } sink' u files₂ u' g₂ ∧
      ∀ f ∈ files₂, textIn files f.path.components = some f.text := by
  obtain ⟨files, hstage, hcommits⟩ := Generator.commits_of_run hrun
  obtain ⟨run', hentries, rfl, rfl, -⟩ := (Generator.stage_eq_ok_iff_of_holds hholds).1 hstage
  obtain ⟨run₂, hbefore, hys⟩ := Run.entries_append_eq_ok hentries
  obtain ⟨run₁, hxs, hreset⟩ := Run.entries_append_eq_ok hbefore
  -- The resets lead back to the registries that the run started with.
  have hback := Run.registries_resets hblank (Run.tables_entries hxs) hreset
  have hcovers : Run.Covers _ run₂ g.start := .start hback.symm
  obtain ⟨run₃, hys', hfiles, -⟩ := hcovers.entries
    (fun form o ho => by
      obtain ⟨p, hp, hsame⟩ := hresets form o ho
      exact Set.eq_univ_of_forall fun name => .inr ⟨p, hp, of_decide_eq_true hsame⟩) hys
  have hholds₂ := hholds.of_subset (List.subset_append_right (xs ++ resets.map .reset) ys)
  have hstage₂ : g.stage source { c with entries := ys } = _ :=
    (Generator.stage_eq_ok_iff_of_holds hholds₂).2 ⟨run₃, hys', rfl, rfl, rfl⟩
  obtain ⟨u', hcommits₂⟩ := Generator.commits_of_stage hsink' hstage₂ u
  refine ⟨_, _, u', _, hcommits, hcommits₂, ?_⟩
  intro f hf
  have hkeyed : run₃.staged.Keyed :=
    Run.staged_of_entries hys' rfl ▸ Staged.keyed_empty.putAll _
  have htext := textIn_of_mem hkeyed.nodup_components hf
  rw [Run.textIn_staged hys' rfl, hfiles] at htext
  rw [Run.textIn_staged hentries rfl, Run.entriesFiles_append hbefore, List.reverse_append,
    textIn_append, htext]
  rfl

/-- After a reset, the header for `B` is the same as without the header for `A` before. -/
theorem constant_after_reset :
    ∃ files files₂ s' s₂ g' g₂,
      sharedGenerator.Commits Source.empty
        { entries := [headerA] ++ [⟨"al.xml"⟩].map .reset ++ [headerB] }
        (recorder []) [] files s' g' ∧
      sharedGenerator.Commits Source.empty { entries := [headerB] } (recorder []) []
        files₂ s₂ g₂ ∧
      files₂.map (·.path.text) = ["b.h"] ∧
      ∀ f ∈ files₂, textIn files f.path.components = some f.text := by
  let c : Config :=
    { entries := [headerA] ++ [⟨"al.xml"⟩].map .reset ++ [headerB] }
  obtain ⟨files, g', warnings, hstage⟩ : ∃ files g' warnings,
      sharedGenerator.stage Source.empty c = (.ok files, g', warnings) := ⟨_, _, _, rfl⟩
  obtain ⟨s', hcommits⟩ := Generator.commits_of_stage takesAll_recorder hstage []
  obtain ⟨warnings, hrun⟩ := hcommits.run
  have hholds : sharedGenerator.Holds c := by decide
  have hblank : ∀ place r, sharedGenerator.registries.get? place = some r →
      ∀ name, r.writtenBy? name = none := by
    intro place r hr name
    rw [sharedGenerator, Generator.withRegistry, Table.get?_insert] at hr
    split at hr
    · cases hr
      rfl
    · cases hr
  have hresets : ∀ form o, .output form o ∈ [headerB] →
      ∃ p ∈ [(⟨"al.xml"⟩ : Path)], p.same o.registry := by
    intro form o ho
    cases List.mem_singleton.1 ho
    exact ⟨_, List.mem_singleton_self _, rfl⟩
  obtain ⟨files, files₂, s₂, g₂, hcommits, hcommits₂, htexts⟩ :=
    reset_isolates (c := c) takesAll_recorder hholds hblank hresets hrun []
  exact ⟨files, files₂, s', s₂, g', g₂, hcommits, hcommits₂, hcommits₂.paths_eq rfl, htexts⟩

end ApiHeaders
