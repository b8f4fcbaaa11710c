import ApiHeaders.Proofs.History

/-!
# Committing a run

Whether a run succeeds, and with which files, is settled before its sink is asked for the first
time. The sink is then handed these files in order, until it refuses one.

## Main definitions

* `Sink.Takes` says that a sink takes files, one after the other, `Sink.Receives` that it takes
  them until it refuses one.
* `Condenses` says that files stand for all that was staged.
* `Generator.ComesTo` says to which outcome a run comes, with every sink.

## Main statements

* `receives_commit` and `commit_eq_ok_iff` say what committing does.
* `Generator.comesTo_of_stage` says that a run comes to what it stages.
-/

namespace ApiHeaders

variable {σ : Type} {sink : Sink σ} {files : List NamedFile} {s s' : σ}

/-! ### Handing files to a sink -/

/-- A sink takes files, one after the other, and is in another state then. -/
inductive Sink.Takes (sink : Sink σ) : σ → List NamedFile → σ → Prop
  | nil (s : σ) : Takes sink s [] s
  | cons {s s₁ s₂ : σ} {f : NamedFile} {fs : List NamedFile}
      (first : sink.write s f.path f.text = (.ok (), s₁)) (rest : Takes sink s₁ fs s₂) :
      Takes sink s (f :: fs) s₂

theorem commit_eq_ok_iff :
    commit sink files s = (.ok (), s') ↔ sink.Takes s files s' := by
  constructor
  · intro h
    induction files generalizing s with
    | nil =>
      cases h
      exact .nil _
    | cons f fs ih =>
      rw [commit] at h
      split at h
      · next s₁ hwrite => exact .cons hwrite (ih h)
      · cases h
  · intro h
    induction h with
    | nil => rfl
    | cons first rest ih =>
      rw [commit, first]
      exact ih

/-- What handing files to a sink comes to: it takes all of them, or it refuses the first one after
some that it has taken, and is not asked any more. -/
inductive Sink.Receives (sink : Sink σ) (s : σ) : List NamedFile → Except Error Unit → σ → Prop
  | all {files : List NamedFile} {s' : σ} (taken : sink.Takes s files s') :
      Receives sink s files (.ok ()) s'
  | upTo {taken : List NamedFile} {f : NamedFile} {rest : List NamedFile} {s₁ s' : σ} {e : Error}
      (before : sink.Takes s taken s₁)
      (refused : sink.write s₁ f.path f.text = (.error e, s')) :
      Receives sink s (taken ++ f :: rest) (.error e) s'

theorem receives_commit (sink : Sink σ) (files : List NamedFile) (s : σ) :
    sink.Receives s files (commit sink files s).1 (commit sink files s).2 := by
  induction files generalizing s with
  | nil => exact .all (.nil s)
  | cons f fs ih =>
    rw [commit]
    cases hwrite : sink.write s f.path f.text with
    | mk result s₁ =>
      cases result with
      | error e => exact .upTo (.nil s) hwrite
      | ok =>
        have hrest := ih s₁
        simp only
        generalize (commit sink fs s₁).1 = result at hrest ⊢
        generalize (commit sink fs s₁).2 = s' at hrest ⊢
        cases hrest with
        | all taken => exact .all (.cons hwrite taken)
        | @upTo taken _ _ _ _ _ before refused =>
          rw [← List.cons_append]
          exact .upTo (.cons hwrite before) refused

/-! ### What is handed on -/

/-- Files that stand for a history: every place once, in the order in which the places first occur
and as they are spelt there, with the text that comes last. -/
structure Condenses (history files : List NamedFile) : Prop where
  nodup : (files.map (·.path.components)).Nodup
  paths : files.map (·.path) = Config.distinct (history.map (·.path))
  texts : ∀ f ∈ files, ∃ before last after, history = before ++ last :: after ∧
    last.path.same f.path ∧ last.text = f.text ∧ ∀ h ∈ after, ¬h.path.same f.path

theorem condenses_putAll (history : List NamedFile) :
    Condenses history (Staged.putAll ∅ history).files where
  nodup := (Staged.keyed_empty.putAll history).nodup_components
  paths := Staged.paths_putAll Staged.keyed_empty history
  texts f hf := by
    have hkeyed : (Staged.putAll ∅ history).Keyed := Staged.keyed_empty.putAll history
    have htext := hkeyed.textAt?_of_mem hf
    rw [Staged.textAt?_putAll] at htext
    have hempty : (∅ : Staged).textAt? f.path.components = none := rfl
    rw [hempty, Option.or_none, Option.map_eq_some_iff] at htext
    obtain ⟨last, hlast, htext⟩ := htext
    rw [List.find?_eq_some_iff_append] at hlast
    obtain ⟨hsame, after, before, hhistory, hafter⟩ := hlast
    refine ⟨before.reverse, last, after.reverse, ?_, hsame, htext, ?_⟩
    · rw [← List.reverse_reverse history, hhistory]
      simp
    · intro h hh
      simpa [Path.same] using hafter h (List.mem_reverse.1 hh)

/-- Staging comes to the files that stand for the history of the run, unless an entry fails. -/
theorem Generator.condenses_stage {g : Generator} {source : Source} {c : Config}
    (h : (g.stage source c).1 = .ok files) : Condenses (g.history source c) files := by
  unfold stage at h
  unfold history
  generalize g.load source c.registries = loaded at h ⊢
  obtain ⟨result, g₁, warnings⟩ := loaded
  cases result with
  | error => cases h
  | ok =>
    let start : Run := { registries := g₁.registries, warnings }
    have hstaged := start.staged_entries c g₁.timestamp c.entries
    simp only at h ⊢
    change (start.entries c g₁.timestamp c.entries).1.map _ = _ at h
    rw [hstaged] at h
    generalize (start.entries c g₁.timestamp c.entries).1 = outcome at h
    cases outcome with
    | error => cases h
    | ok =>
      cases h
      exact condenses_putAll _

/-! ### What a run comes to -/

namespace Generator

/-- The outcome of a run, in which its sink has no part. With an error, the sink is not asked. With
files, these are all that was staged, each place once, and the sink is handed them in order until it
refuses one. -/
inductive ComesTo (g : Generator) (source : Source) (c : Config) :
    Except Error (List NamedFile) → Prop
  | failed {e : Error} {g' : Generator} {warnings : List Warning}
      (run : ∀ {σ : Type} (sink : Sink σ) (s : σ),
        g.run source c sink s = (.error (.raised e), s, g', warnings)) :
      ComesTo g source c (.error e)
  | committed {files : List NamedFile} {g' : Generator} {warnings : List Warning}
      (condenses : Condenses (g.history source c) files)
      (run : ∀ {σ : Type} (sink : Sink σ) (s : σ), ∃ result s',
        g.run source c sink s = (result.mapError .raised, s', g', warnings) ∧
        sink.Receives s files result s' ∧ (result = .ok () ↔ ∃ s', sink.Takes s files s')) :
      ComesTo g source c (.ok files)

variable {g g' : Generator} {source : Source} {c : Config} {warnings : List Warning}
  {outcome : Except Error (List NamedFile)}

/-- What is staged is the outcome of a run. -/
theorem comesTo_of_stage (h : g.stage source c = (outcome.mapError .raised, g', warnings)) :
    g.ComesTo source c outcome := by
  cases outcome with
  | error e =>
    have hrun {σ : Type} (sink : Sink σ) (s : σ) :
        g.run source c sink s = (.error (.raised e), s, g', warnings) := by
      rw [run, h]
      rfl
    exact .failed hrun
  | ok files =>
    have hrun {σ : Type} (sink : Sink σ) (s : σ) : g.run source c sink s =
        ((commit sink files s).1.mapError .raised, (commit sink files s).2, g', warnings) := by
      rw [run, h]
      rfl
    refine .committed (condenses_stage (by rw [h]; rfl)) fun sink s =>
      ⟨_, _, hrun sink s, receives_commit sink files s, ?_⟩
    constructor
    · intro hok
      exact ⟨_, commit_eq_ok_iff.1 (Prod.ext hok rfl)⟩
    · rintro ⟨s', htakes⟩
      rw [commit_eq_ok_iff.2 htakes]

end Generator

end ApiHeaders
