import ApiHeaders.Proofs.History

/-!
# The time of a generation

What files say about the time of their generation is the only thing in which two runs at different
times differ. Staging comes to files at the same places, with the same warnings, or to the same
failure.

## Main definitions

* `Staged.Likewise` says that the same places are staged.
* `Generator.withTime` is a generator at another time.

## Main statements

* `Generator.stage_withTime` compares staging at two times.
-/

namespace ApiHeaders

namespace Staged

/-- The same places are staged, under the same paths; the texts may differ. -/
structure Likewise (x y : Staged) : Prop where
  left : x.Keyed
  right : y.Keyed
  paths : y.files.map (·.path) = x.files.map (·.path)

theorem Likewise.write {x y : Staged} (h : x.Likewise y) (path : Path) (text text' : String) :
    (x.write path text).Likewise (y.write path text') where
  left := h.left.write path text
  right := h.right.write path text'
  paths := by
    have hx := paths_put h.left ⟨path, text⟩
    have hy := paths_put h.right ⟨path, text'⟩
    rw [h.paths] at hy
    exact hy.trans hx.symm

theorem agrees_likewise (b b' : Boilerplate) : Sink.Agrees Likewise Staged.sink b Staged.sink b' :=
  fun _ _ h _ _ => ⟨_, rfl, h.write _ _ _⟩

end Staged

namespace Run

/-- A run with other files staged. -/
def withStaged (run : Run) (y : Staged) : Run := { run with staged := y }

variable {c : Config} {y : Staged}

theorem begin_withStaged (run : Run) (path : Path) (y : Staged) :
    (run.withStaged y).begin path = (run.begin path).withStaged y := by
  simp only [begin, withStaged]
  split <;> rfl

theorem rendering_withStaged (run : Run) (r : Registry) (y : Staged) :
    (run.withStaged y).rendering r = (run.rendering r).into y := rfl

theorem finish_likewise (run : Run) (b b' : Boilerplate) (t : Target)
    (imports content : List String) (hy : run.staged.Likewise y) :
    ∃ y', (run.withStaged y).finish b' t imports content =
        ((run.finish b t imports content).1, (run.finish b t imports content).2.withStaged y') ∧
      (run.finish b t imports content).2.staged.Likewise y' := by
  simp only [finish, withStaged]
  split
  · exact ⟨_, rfl, hy.write _ _ _⟩
  · cases Rendering.produce run.produced t.core.path with
    | none => exact ⟨_, rfl, hy⟩
    | some produced => exact ⟨_, rfl, (hy.write _ _ _).write _ _ _⟩

theorem generate_likewise (run : Run) (c : Config) (time time' : String) (form : Form) (o : Output)
    (hy : run.staged.Likewise y) :
    ∃ y', (run.withStaged y).generate c time' form o =
        ((run.generate c time form o).1, (run.generate c time form o).2.withStaged y') ∧
      (run.generate c time form o).2.staged.Likewise y' := by
  cases hr : run.registries.get? o.registry.components with
  | none =>
    refine ⟨y, ?_, ?_⟩
    · simp only [generate, withStaged, hr]
    · simpa only [generate, hr] using hy
  | some r =>
    cases hselect : select r o with
    | error e =>
      refine ⟨y, ?_, ?_⟩
      · simp only [generate, withStaged, hr, hselect]
      · simpa only [generate, hr, hselect] using hy
    | ok names =>
      obtain ⟨y₁, hrender, hy₁⟩ := renderAll_into
        (Staged.agrees_likewise (boilerplate c time o) (boilerplate c time' o)) (target form o)
        (form = .header) names ((run.begin o.path).rendering r) (y := y)
        (by
          change (run.begin o.path).staged.Likewise y
          rwa [staged_begin])
      have hr' : (run.withStaged y).registries.get? o.registry.components = some r := hr
      rw [generate_of_select hr hselect, generate_of_select hr' hselect, begin_withStaged]
      rw [rendering_withStaged, hrender]
      cases hall : renderAll Staged.sink (boilerplate c time o) (target form o) (form = .header)
          ((run.begin o.path).rendering r) names with
      | mk content st =>
        rw [hall] at hy₁
        cases content with
        | error e => exact ⟨y₁, rfl, hy₁⟩
        | ok content =>
          exact finish_likewise ((run.begin o.path).rendered o st) (boilerplate c time o)
            (boilerplate c time' o) (target form o) st.imports content hy₁

theorem entry_likewise (run : Run) (c : Config) (time time' : String) (e : Config.Entry)
    (hy : run.staged.Likewise y) :
    ∃ y', (run.withStaged y).entry c time' e =
        ((run.entry c time e).1, (run.entry c time e).2.withStaged y') ∧
      (run.entry c time e).2.staged.Likewise y' := by
  cases e with
  | output form o => exact run.generate_likewise c time time' form o hy
  | reset registry =>
    have hregistries : (run.withStaged y).registries = run.registries := rfl
    refine ⟨y, ?_⟩
    simp only [entry, hregistries]
    split
    · exact ⟨rfl, hy⟩
    · exact ⟨rfl, hy⟩

theorem entries_likewise (run : Run) (c : Config) (time time' : String) (es : List Config.Entry)
    (hy : run.staged.Likewise y) :
    ∃ y', (run.withStaged y).entries c time' es =
        ((run.entries c time es).1, (run.entries c time es).2.withStaged y') ∧
      (run.entries c time es).2.staged.Likewise y' := by
  induction es generalizing run y with
  | nil => exact ⟨y, rfl, hy⟩
  | cons e es ih =>
    obtain ⟨y₁, hentry, hy₁⟩ := run.entry_likewise c time time' e hy
    rw [entries, entries, hentry]
    cases hfirst : run.entry c time e with
    | mk result run₁ =>
      rw [hfirst] at hy₁
      cases result with
      | error e => exact ⟨y₁, rfl, hy₁⟩
      | ok => exact ih run₁ hy₁

end Run

namespace Generator

/-- A generator at another time. -/
def withTime (g : Generator) (time : String) : Generator := { g with timestamp := time }

theorem load_withTime (g : Generator) (time : String) (source : Source) (paths : List Path) :
    (g.withTime time).load source paths =
      ((g.load source paths).1, (g.load source paths).2.1.withTime time,
        (g.load source paths).2.2) := by
  induction paths generalizing g with
  | nil => rfl
  | cons path paths ih =>
    have hregistries : (g.withTime time).registries = g.registries := rfl
    rw [load, load, hregistries]
    split
    · exact ih g
    · cases source path with
      | error fault => rfl
      | ok text =>
        cases hparse : Registry.parse text with
        | error e => simp only [hparse]
        | ok parsed =>
          have hswap : (g.withTime time).withRegistry path parsed.1 =
              (g.withRegistry path parsed.1).withTime time := rfl
          simp only [hparse]
          rw [hswap, ih (g.withRegistry path parsed.1)]

/-- The time of the generation changes nothing but the texts of the files. -/
theorem stage_withTime (g : Generator) (time : String) (source : Source) (c : Config) :
    ((g.withTime time).stage source c).1.map (·.map (·.path)) =
        (g.stage source c).1.map (·.map (·.path)) ∧
      ((g.withTime time).stage source c).2 =
        ((g.stage source c).2.1.withTime time, (g.stage source c).2.2) := by
  unfold stage
  rw [load_withTime]
  cases g.load source c.registries with
  | mk result more =>
    obtain ⟨g₁, warnings⟩ := more
    cases result with
    | error e => exact ⟨rfl, rfl⟩
    | ok =>
      have hempty : Staged.Likewise ∅ ∅ := ⟨Staged.keyed_empty, Staged.keyed_empty, rfl⟩
      obtain ⟨y, hentries, hy⟩ := Run.entries_likewise
        { registries := g₁.registries, warnings } c g₁.timestamp time c.entries hempty
      rw [Run.withStaged] at hentries
      simp only [withTime, hentries]
      cases hrun : Run.entries { registries := g₁.registries, warnings } c g₁.timestamp
          c.entries with
      | mk outcome run =>
        rw [hrun] at hy
        cases outcome with
        | error e => exact ⟨rfl, rfl⟩
        | ok => exact ⟨congrArg Except.ok hy.paths, rfl⟩

end Generator

end ApiHeaders
