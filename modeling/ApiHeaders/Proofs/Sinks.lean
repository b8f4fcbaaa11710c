import ApiHeaders.Generator
import ApiHeaders.Proofs.Resemblance

/-!
# Rendering into another sink

Rendering learns nothing from its sink but whether a file was taken. Sinks that answer alike are
handed the same files, and only their own states tell the renderings apart.

## Main definitions

* `Rendering.into` puts another sink's state into a rendering.
* `Sink.Agrees` says that two sinks answer alike, perhaps to files of different boilerplates.

## Main statements

* `Rendering.renderWithin_into` and `Run.renderAll_into` render into another sink.
-/

namespace ApiHeaders

variable {σ τ : Type} {R : σ → τ → Prop} {sink : Sink σ} {sink' : Sink τ} {b b' : Boilerplate}

/-- Two sinks that answer alike wherever a relation holds between their states, and keep it. The
files of the second one may have another boilerplate. -/
def Sink.Agrees (R : σ → τ → Prop) (sink : Sink σ) (b : Boilerplate) (sink' : Sink τ)
    (b' : Boilerplate) : Prop :=
  ∀ x y, R x y → ∀ (t : Target) (content : List String),
    ∃ y', sink'.write y t.path (t.file b' content) =
        ((sink.write x t.path (t.file b content)).1, y') ∧
      R (sink.write x t.path (t.file b content)).2 y'

namespace Rendering

/-- A rendering with the state of another sink. -/
def into (st : Rendering σ) (y : τ) : Rendering τ := { st with sink := y }

variable {st : Rendering σ} {s : ApiSet} {t : Target} {guard : Bool} {y : τ}

@[simp] theorem registry_into (st : Rendering σ) (y : τ) : (st.into y).registry = st.registry := rfl

theorem sink_refer (st : Rendering σ) (s : ApiSet) (t satellite : Target) (guard : Bool) :
    (st.refer s t satellite guard).2.sink = st.sink := by
  unfold refer
  split <;> rfl

/-- A rendering resembles itself with another sink that answers alike. -/
theorem resembles_of_agrees (hsinks : sink.Agrees R b sink' b') (guard : Bool) (s : ApiSet) :
    Resembles Eq Eq R sink sink' b b' guard s s where
  name := rfl
  annex := rfl
  opening := by rintro r _ rfl; rfl
  lines := by rintro r _ t _ rfl rfl; rfl
  marked := by rintro r _ rfl; rfl
  target := by rintro t _ rfl; rfl
  satellite := by rintro r _ t _ a rfl rfl; rfl
  taken := by
    rintro r _ t _ x y a content rfl rfl hxy
    exact hsinks x y hxy _ content

theorem Alike.eq_into {st' : Rendering τ} (h : st.Alike Eq R st') : st' = st.into st'.sink := by
  obtain ⟨registry, produced, imports, sink, warnings⟩ := st'
  obtain ⟨rfl, rfl, rfl, -, rfl⟩ := h
  rfl

/-- A set is rendered alike into sinks that answer alike. -/
theorem renderWithin_into (hsinks : sink.Agrees R b sink' b') (guard : Bool) (s : ApiSet)
    (fuel : Nat) (t : Target) (st : Rendering σ) :
    ∀ y, R st.sink y → ∃ y', renderWithin sink' b' guard s fuel t (st.into y) =
        ((renderWithin sink b guard s fuel t st).1,
          (renderWithin sink b guard s fuel t st).2.into y') ∧
      R (renderWithin sink b guard s fuel t st).2.sink y' := by
  intro y hy
  have halike : st.Alike Eq R (st.into y) := ⟨rfl, rfl, rfl, hy, rfl⟩
  obtain ⟨st', hrender, hst'⟩ :=
    renderWithin_alike (resembles_of_agrees hsinks guard s) fuel t st t (st.into y) rfl halike
  rw [hst'.eq_into] at hrender
  exact ⟨st'.sink, hrender, hst'.sink⟩

theorem render_into (hsinks : sink.Agrees R b sink' b') (st : Rendering σ) (hy : R st.sink y)
    (name : String) (t : Target) (guard : Bool) :
    ∃ y', (st.into y).render sink' b' name t guard =
        ((st.render sink b name t guard).1, (st.render sink b name t guard).2.into y') ∧
      R (st.render sink b name t guard).2.sink y' := by
  simp only [render, registry_into]
  split
  · exact ⟨y, rfl, hy⟩
  · exact renderWithin_into hsinks guard _ _ t st y hy

end Rendering

/-- Sets are rendered alike into sinks that answer alike. -/
theorem Run.renderAll_into (hsinks : sink.Agrees R b sink' b') (t : Target) (guard : Bool)
    (names : List String) (st : Rendering σ) {y : τ} (hy : R st.sink y) :
    ∃ y', renderAll sink' b' t guard (st.into y) names =
        ((renderAll sink b t guard st names).1, (renderAll sink b t guard st names).2.into y') ∧
      R (renderAll sink b t guard st names).2.sink y' := by
  induction names generalizing st y with
  | nil => exact ⟨y, rfl, hy⟩
  | cons name names ih =>
    obtain ⟨y₁, hfirst, hy₁⟩ := Rendering.render_into hsinks st hy name t guard
    rw [renderAll, renderAll, hfirst]
    cases hrender : st.render sink b name t guard with
    | mk result st₁ =>
      rw [hrender] at hy₁
      cases result with
      | error e => exact ⟨y₁, rfl, hy₁⟩
      | ok lines =>
        obtain ⟨y₂, hrest, hy₂⟩ := ih st₁ hy₁
        simp only [hrest]
        refine ⟨y₂, ?_⟩
        cases hall : renderAll sink b t guard st₁ names with
        | mk more st₂ =>
          rw [hall] at hy₂
          cases more <;> exact ⟨rfl, hy₂⟩

end ApiHeaders
