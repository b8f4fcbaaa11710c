import ApiHeaders.FileTree
import ApiHeaders.Proofs.Loading
import ApiHeaders.Proofs.Splitting

/-!
# Exchanging two outputs

Two outputs that come one after the other can be exchanged if they have no files in common, and no
references either where they share a registry. The run commits the same texts then, and leaves the
same memories.

## Main definitions

* `Run.Apart` says that two outputs can be exchanged.

## Main statements

* `Run.Apart.exchange` exchanges two outputs of a run.
* `outputs_commute` exchanges two outputs of a configuration.
-/

namespace ApiHeaders

variable {σ τ : Type} {run run₁ run₂ : Run} {c : Config} {timestamp : String}
  {form₁ form₂ : Form} {o₁ o₂ : Output} {g g' : Generator} {source : Source}
  {before after : List Config.Entry} {warnings : List Warning} {place : List Component}

/-- Among other files, those of two lists without a common place come to the same in either
order. -/
theorem textIn_swap {xs ys : List NamedFile} (h : ∀ x ∈ xs, ∀ y ∈ ys, ¬x.path.same y.path)
    (before after : List NamedFile) (place : List Component) :
    textIn (before ++ (ys ++ xs ++ after)).reverse place =
      textIn (before ++ (xs ++ ys ++ after)).reverse place := by
  simp only [List.reverse_append, textIn_append]
  by_cases hx : ∃ x ∈ xs, x.path.components = place
  · obtain ⟨x, hmem, hx⟩ := hx
    have hnone : textIn ys.reverse place = none := by
      apply textIn_eq_none
      intro y hy hplace
      exact h x hmem y (List.mem_reverse.1 hy) (decide_eq_true (hx.trans hplace.symm))
    rw [hnone, Option.none_or, Option.or_none]
  · have hnone : textIn xs.reverse place = none := by
      apply textIn_eq_none
      intro x hmem hplace
      exact hx ⟨x, List.mem_reverse.1 hmem, hplace⟩
    rw [hnone, Option.none_or, Option.or_none]

namespace Run

/-- Two outputs that come one after the other share no files, and no references either if they share
a registry. -/
structure Apart (run : Run) (c : Config) (timestamp : String) (form₁ form₂ : Form)
    (o₁ o₂ : Output) : Prop where
  sets : o₁.registry.same o₂.registry → ∀ r,
    run.registries.get? o₁.registry.components = some r →
    ∀ s₁ ∈ r.selected o₁, ∀ s₂ ∈ r.selected o₂, s₁.references.Disjoint s₂.references
  files : ∀ f₁ ∈ run.entryFiles c timestamp (.output form₁ o₁),
    ∀ f₂ ∈ (run.entry c timestamp (.output form₁ o₁)).2.entryFiles c timestamp (.output form₂ o₂),
      ¬f₁.path.same f₂.path

theorem Apart.disjoint_files (h : run.Apart c timestamp form₁ form₂ o₁ o₂)
    (h₁ : run.entry c timestamp (.output form₁ o₁) = (.ok (), run₁)) :
    ∀ f₁ ∈ run.entryFiles c timestamp (.output form₁ o₁),
      ∀ f₂ ∈ run₁.entryFiles c timestamp (.output form₂ o₂), ¬f₁.path.same f₂.path := by
  have hfiles := h.files
  rw [h₁] at hfiles
  exact hfiles

theorem not_mem_referenced {xs ys : List ApiSet}
    (h : ∀ s₁ ∈ xs, ∀ s₂ ∈ ys, s₁.references.Disjoint s₂.references) :
    ∀ name ∈ Registry.referenced xs, name ∉ Registry.referenced ys := by
  rintro name ⟨s₁, hs₁, hname₁⟩ ⟨s₂, hs₂, hname₂⟩
  exact h s₁ hs₁ s₂ hs₂ hname₁ hname₂

/-- What the registry of the second output is before the first one, and what the two outputs leave
in either order. -/
theorem Apart.registries {r₁ q : Registry} (h : run.Apart c timestamp form₁ form₂ o₁ o₂)
    (hr₁ : run.registries.get? o₁.registry.components = some r₁)
    (hregistries : run₁.registries =
      run.registries.insert o₁.registry.components (r₁.markAll (r₁.selected o₁)))
    (hq : run₁.registries.get? o₂.registry.components = some q) :
    ∃ r₂, run.registries.get? o₂.registry.components = some r₂ ∧
      q.Agree (Registry.referenced (q.selected o₂)) r₂ ∧
      ∃ q₁, (run.registries.insert o₂.registry.components
          (r₂.markAll (r₂.selected o₂))).get? o₁.registry.components = some q₁ ∧
        r₁.Agree (Registry.referenced (r₁.selected o₁)) q₁ ∧
        Registries.Agree (fun _ => Set.univ)
          (run₁.registries.insert o₂.registry.components (q.markAll (q.selected o₂)))
          ((run.registries.insert o₂.registry.components (r₂.markAll (r₂.selected o₂))).insert
            o₁.registry.components (q₁.markAll (q₁.selected o₁))) := by
  rw [hregistries, Table.get?_insert] at hq
  by_cases hplace : o₁.registry.components = o₂.registry.components
  · rw [if_pos hplace] at hq
    cases hq
    have hdisjoint := not_mem_referenced (h.sets (decide_eq_true hplace) r₁ hr₁)
    have hselected : (r₁.markAll (r₁.selected o₁)).selected o₂ = r₁.selected o₂ :=
      (r₁.tables_markAll _).selected_eq o₂
    have hselected₁ : (r₁.markAll (r₁.selected o₂)).selected o₁ = r₁.selected o₁ :=
      (r₁.tables_markAll _).selected_eq o₁
    refine ⟨r₁, hplace ▸ hr₁, ?_, r₁.markAll (r₁.selected o₂), ?_, ?_, ?_⟩
    · rw [hselected]
      exact (r₁.agree_markAll fun name h₂ h₁ => hdisjoint name h₁ h₂).symm
    · rw [Table.get?_insert, if_pos hplace.symm]
    · exact r₁.agree_markAll hdisjoint
    · rw [hselected, hselected₁, hregistries]
      intro other
      simp only [Table.get?_insert, hplace]
      split
      · exact .some (r₁.agree_markAll_swap hdisjoint)
      · exact Registries.Agree.refl (fun _ => Set.univ) run.registries other
  · rw [if_neg hplace] at hq
    refine ⟨q, hq, .refl _ _, r₁, ?_, .refl _ _, ?_⟩
    · rw [Table.get?_insert, if_neg (Ne.symm hplace), hr₁]
    · rw [hregistries]
      apply Registries.Agree.of_get?_eq
      intro other
      simp only [Table.get?_insert]
      by_cases h₁ : o₁.registry.components = other
      · have h₂ : o₂.registry.components ≠ other := h₁ ▸ Ne.symm hplace
        rw [if_pos h₁, if_neg h₂, if_pos h₁]
      · rw [if_neg h₁, if_neg h₁]

/-- Two outputs that are apart come to the same in either order. -/
theorem Apart.exchange (h : run.Apart c timestamp form₁ form₂ o₁ o₂)
    (h₁ : run.entry c timestamp (.output form₁ o₁) = (.ok (), run₁))
    (h₂ : run₁.entry c timestamp (.output form₂ o₂) = (.ok (), run₂)) :
    ∃ run₁' run₂', run.entry c timestamp (.output form₂ o₂) = (.ok (), run₁') ∧
      run₁'.entry c timestamp (.output form₁ o₁) = (.ok (), run₂') ∧
      run.entryFiles c timestamp (.output form₂ o₂) =
        run₁.entryFiles c timestamp (.output form₂ o₂) ∧
      run₁'.entryFiles c timestamp (.output form₁ o₁) =
        run.entryFiles c timestamp (.output form₁ o₁) ∧
      Covers (fun _ => Set.univ) run₂ run₂' := by
  obtain ⟨r₁, hr₁, hregistries₁⟩ := registries_of_generate h₁
  obtain ⟨q, hq, hregistries₂⟩ := registries_of_generate h₂
  obtain ⟨r₂, hr₂, hagree₂, q₁, hq₁, hagree₁, hall⟩ := h.registries hr₁ hregistries₁ hq
  have hbegun₁ := begun_of_generate h₁
  obtain ⟨run₁', h₂', hfiles₂⟩ := generate_replay h₂ hq hr₂ hagree₂
    fun f _ hbegun => (hbegun₁ _).2 (.inl hbegun)
  have hbegun₁' := begun_of_generate h₂'
  obtain ⟨r, hr, hregistries₁'⟩ := registries_of_generate h₂'
  rw [hr₂] at hr
  cases hr
  have hold : ∀ f ∈ run.entryFiles c timestamp (.output form₁ o₁),
      run₁'.Begun f.path.components → run.Begun f.path.components := by
    intro f₁ hf₁ hbegun
    rcases (hbegun₁' _).1 hbegun with hbegun | ⟨f₂, hf₂, hplace⟩
    · exact hbegun
    · rw [hfiles₂] at hf₂
      exact absurd (decide_eq_true hplace.symm) (h.disjoint_files h₁ f₁ hf₁ f₂ hf₂)
  rw [← hregistries₁'] at hq₁
  obtain ⟨run₂', h₁', hfiles₁⟩ := generate_replay h₁ hr₁ hq₁ hagree₁ hold
  obtain ⟨r, hr, hregistries₂'⟩ := registries_of_generate h₁'
  rw [hq₁] at hr
  cases hr
  refine ⟨run₁', run₂', h₂', h₁', hfiles₂, hfiles₁, ?_, ?_⟩
  · rw [hregistries₂, hregistries₂', hregistries₁']
    exact hall
  · intro place
    rw [begun_of_generate h₁', hbegun₁', begun_of_generate h₂, hbegun₁, hfiles₁, hfiles₂]
    rintro ((hbegun | hsecond) | hfirst)
    · exact .inl (.inl hbegun)
    · exact .inr hsecond
    · exact .inl (.inr hfirst)

/-- In a run, two outputs that are apart can come in either order: the entries after them succeed as
before, and at each place the same text is staged last. -/
theorem entries_exchange {run₀ run₃ : Run}
    (hbefore : run₀.entries c timestamp before = (.ok (), run))
    (h : run.Apart c timestamp form₁ form₂ o₁ o₂)
    (hall : run₀.entries c timestamp (before ++ .output form₁ o₁ :: .output form₂ o₂ :: after) =
      (.ok (), run₃)) :
    ∃ run₃', run₀.entries c timestamp
        (before ++ .output form₂ o₂ :: .output form₁ o₁ :: after) = (.ok (), run₃') ∧
      Covers (fun _ => Set.univ) run₃ run₃' ∧
      ∀ place, textIn (run₀.entriesFiles c timestamp
          (before ++ .output form₂ o₂ :: .output form₁ o₁ :: after)).reverse place =
        textIn (run₀.entriesFiles c timestamp
          (before ++ .output form₁ o₁ :: .output form₂ o₂ :: after)).reverse place := by
  rw [entries_append hbefore] at hall
  obtain ⟨run₁, h₁, hrest⟩ := entries_cons_eq_ok hall
  obtain ⟨run₂, h₂, hafter⟩ := entries_cons_eq_ok hrest
  obtain ⟨run₁', run₂', h₂', h₁', hfiles₂, hfiles₁, hcovers⟩ := h.exchange h₁ h₂
  obtain ⟨run₃', hafter', hfiles, hcovers'⟩ := hcovers.entries (fun _ _ _ => rfl) hafter
  refine ⟨run₃', ?_, hcovers', ?_⟩
  · rw [entries_append hbefore, entries_cons h₂', entries_cons h₁', hafter']
  · intro place
    have horiginal : run₀.entriesFiles c timestamp
        (before ++ .output form₁ o₁ :: .output form₂ o₂ :: after) =
        run₀.entriesFiles c timestamp before ++
          (run.entryFiles c timestamp (.output form₁ o₁) ++
            run₁.entryFiles c timestamp (.output form₂ o₂) ++
              run₂.entriesFiles c timestamp after) := by
      rw [entriesFiles_append hbefore, entriesFiles_cons h₁, entriesFiles_cons h₂,
        List.append_assoc]
    have hswapped : run₀.entriesFiles c timestamp
        (before ++ .output form₂ o₂ :: .output form₁ o₁ :: after) =
        run₀.entriesFiles c timestamp before ++
          (run₁.entryFiles c timestamp (.output form₂ o₂) ++
            run.entryFiles c timestamp (.output form₁ o₁) ++
              run₂.entriesFiles c timestamp after) := by
      rw [entriesFiles_append hbefore, entriesFiles_cons h₂', entriesFiles_cons h₁', hfiles,
        ← hfiles₂, ← hfiles₁, List.append_assoc]
    rw [horiginal, hswapped]
    exact textIn_swap (h.disjoint_files h₁) _ _ place

end Run

/-- Two outputs of a configuration that are apart can be exchanged: the run succeeds as before,
commits the same text at every place and leaves the same memories. If they name one registry by two
spellings of its path, and are the first to name it, both spellings have to read the same. -/
theorem outputs_commute {sink : Sink σ} {sink' : Sink τ} (hsink' : sink'.TakesAll)
    (hentries : c.entries = before ++ .output form₁ o₁ :: .output form₂ o₂ :: after) {s s' : σ}
    (hrun : g.run source c sink s = (.ok (), s', g', warnings))
    (hreaches : g.Reaches source c before run)
    (hapart : run.Apart c g.timestamp form₁ form₂ o₁ o₂)
    (hspelling : o₁.registry.same o₂.registry → g.registries.contains o₁.registry.components ∨
      (∃ o ∈ Config.outputs { c with entries := before }, o.registry.same o₁.registry) ∨
      source o₂.registry = source o₁.registry) (u : τ) :
    ∃ files files' u' g'', g.Commits source c sink s files s' g' ∧
      g.Commits source
        { c with entries := before ++ .output form₂ o₂ :: .output form₁ o₁ :: after } sink' u
        files' u' g'' ∧
      Registries.Agree (fun _ => Set.univ) g'.registries g''.registries ∧
      ∀ place, textIn files' place = textIn files place := by
  obtain ⟨files, hstage, hcommits⟩ := Generator.commits_of_run hrun
  obtain ⟨run₃, ⟨g₁, w₁, hload, hall⟩, rfl, rfl, -⟩ := Generator.stage_eq_ok_iff.1 hstage
  obtain ⟨g₀, w₀, hload₀, hbefore⟩ := hreaches
  rw [hload] at hload₀
  cases hload₀
  rw [hentries] at hall
  obtain ⟨run₃', hswapped, hcovers, htexts⟩ := Run.entries_exchange hbefore hapart hall
  -- The registries of the outputs are read in the other order, too.
  let c' : Config :=
    { c with entries := before ++ .output form₂ o₂ :: .output form₁ o₁ :: after }
  let others (es : List Config.Entry) : List Path :=
    (Config.outputs { c with entries := es }).map (·.registry)
  have hregistries : c.registries =
      Config.distinct (others before ++ o₁.registry :: o₂.registry :: others after) := by
    rw [Config.registries, Config.outputs, hentries, List.filterMap_append, List.map_append]
    rfl
  have hregistries' : c'.registries =
      Config.distinct (others before ++ o₂.registry :: o₁.registry :: others after) := by
    rw [Config.registries, Config.outputs, List.filterMap_append, List.map_append]
    rfl
  rw [hregistries] at hload
  obtain ⟨g₂, w₂, hload', hsame⟩ := Generator.load_swap hload fun h => by
    refine (hspelling h).imp_right (Or.imp_left ?_)
    rintro ⟨o, ho, hsame⟩
    exact ⟨o.registry, List.mem_map_of_mem ho, hsame⟩
  have hstart : Run.Covers (fun _ => Set.univ) { registries := g₁.registries, warnings := w₁ }
      { registries := g₂.registries, warnings := w₂ } :=
    ⟨.of_get?_eq hsame, fun _ hbegun => absurd hbegun (Run.not_begun_of_produced_eq_nil rfl)⟩
  obtain ⟨run₄, hall', hfiles, hcovers'⟩ := hstart.entries (fun _ _ _ => rfl) hswapped
  have hstage' : g.stage source c' = _ :=
    Generator.stage_eq_ok_iff.2 ⟨run₄, ⟨g₂, w₂, hregistries' ▸ hload',
      (Run.entries_withEntries ..).trans hall'⟩, rfl, rfl, rfl⟩
  obtain ⟨u', hcommits'⟩ := Generator.commits_of_stage hsink' hstage' u
  refine ⟨_, _, u', _, hcommits, hcommits', hcovers.registries.trans hcovers'.registries, ?_⟩
  intro place
  rw [Run.textIn_staged hall' rfl, Run.textIn_staged hall rfl, hfiles]
  exact htexts place

/-- A registry in which the sets `A` and `B` share a constant, and `C` requires another one. -/
def thirdSet : Registry :=
  let constant : Enumerant :=
    { name := "AL_M", value := "2", property := none, groups := [], doc := none,
      deprecated := none }
  ((sharedConstant none).insert (.enumerant constant)).insertSet
    { requiringConstant "C" none with requirements := [{ names := ["AL_M"] }] }

def thirdGenerator : Generator :=
  Generator.withRegistry { timestamp := "T" } ⟨"al.xml"⟩ thirdSet

def headerC : Config.Entry := .output .header (headerFor "C" "c.h")

/-- The state after a header for `A`. -/
def afterA : Run :=
  (thirdGenerator.start.entry { entries := [headerA, headerB, headerC] } "T" headerA).2

/-- After a header for `A`, one for `B` and one for `C` can come in either order. -/
theorem headers_exchanged :
    ∃ files files' s' u' g' g'',
      thirdGenerator.Commits Source.empty { entries := [headerA, headerB, headerC] }
        (recorder []) [] files s' g' ∧
      thirdGenerator.Commits Source.empty { entries := [headerA, headerC, headerB] }
        (recorder []) [] files' u' g'' ∧
      files'.map (·.path.text) = ["a.h", "c.h", "b.h"] ∧
      (∀ place, textIn files' place = textIn files place) ∧
      (g''.registries.get? [.named "al.xml"]).map (fun r => ["AL_N", "AL_M"].map r.writtenBy?) =
        some [some "B", some "C"] := by
  let c : Config := { entries := [headerA, headerB, headerC] }
  obtain ⟨files, g', warnings, r, hstage, hr, hwritten⟩ : ∃ files g' warnings r,
      thirdGenerator.stage Source.empty c = (.ok files, g', warnings) ∧
        g'.registries.get? [.named "al.xml"] = some r ∧
        ["AL_N", "AL_M"].map r.writtenBy? = [some "B", some "C"] := ⟨_, _, _, _, rfl, rfl, rfl⟩
  obtain ⟨s', hcommits⟩ := Generator.commits_of_stage takesAll_recorder hstage []
  obtain ⟨warnings, hrun⟩ := hcommits.run
  have hentries : c.entries = [headerA] ++ .output .header (headerFor "B" "b.h") ::
      .output .header (headerFor "C" "c.h") :: [] := rfl
  have hreaches : thirdGenerator.Reaches Source.empty c [headerA] afterA := ⟨_, _, rfl, rfl⟩
  have hapart : afterA.Apart c "T" .header .header (headerFor "B" "b.h") (headerFor "C" "c.h") := by
    have hreferences : (afterA.registries.get? [.named "al.xml"]).map (fun r =>
        ((r.selected (headerFor "B" "b.h")).map (·.references),
          (r.selected (headerFor "C" "c.h")).map (·.references))) =
        some ([["AL_N"]], [["AL_M"]]) := rfl
    refine ⟨?_, by decide +kernel⟩
    intro _ r hr s₁ hs₁ s₂ hs₂
    obtain ⟨r', hr', hselected⟩ := Option.map_eq_some_iff.1 hreferences
    cases hr.symm.trans hr'
    obtain ⟨hB, hC⟩ := Prod.mk.inj hselected
    have h₁ := hB ▸ List.mem_map_of_mem (f := ApiSet.references) hs₁
    have h₂ := hC ▸ List.mem_map_of_mem (f := ApiSet.references) hs₂
    rw [List.mem_singleton.1 h₁, List.mem_singleton.1 h₂, List.singleton_disjoint]
    decide
  obtain ⟨files, files', u', g'', hcommits, hcommits', hagree, htexts⟩ :=
    outputs_commute takesAll_recorder hentries hrun hreaches hapart (fun _ => .inl rfl) []
  obtain ⟨r', hr', hmemory⟩ := hagree.get?_eq_some hr
  refine ⟨files, files', s', u', g', g'', hcommits, hcommits', hcommits'.paths_eq rfl, htexts, ?_⟩
  have hboth : r'.writtenBy? = r.writtenBy? :=
    funext fun name => hmemory.memory name (Set.mem_univ _)
  rw [hr', Option.map_some, hboth, hwritten]

/-- A file with a registry in which `A` and `B` require nothing. -/
def registryFile : FileTree :=
  ({} : FileTree).put ["al.xml"]
    (.file "<registry><feature api=\"al\" name=\"A\"/><feature api=\"al\" name=\"B\"/></registry>")

/-- A header whose path to the registry can only be that of a directory. -/
def headerOfDirectory : Output := { headerFor "B" "b.h" with registry := ⟨"al.xml/"⟩ }

/-- Two spellings of the path of a registry do not read the same: the header that comes first has to
have the right one. -/
theorem spelling_of_first_header :
    let g : Generator := { timestamp := "T" }
    let c : Config := { entries := [headerA, .output .header headerOfDirectory] }
    let c' : Config := { entries := [.output .header headerOfDirectory, headerA] }
    (g.stage registryFile.source c).1.map (·.map (·.path)) = .ok [⟨"a.h"⟩, ⟨"b.h"⟩] ∧
      (g.history registryFile.source c).map (·.path) = [⟨"a.h"⟩, ⟨"b.h"⟩] ∧
      ((g.load registryFile.source c.registries).2.1.registries.values.map fun r =>
        ((r.selected (headerFor "A" "a.h")).map (·.name),
          (r.selected headerOfDirectory).map (·.name), r.sets.values.map (·.references))) =
            [(["A"], ["B"], [[], []])] ∧
      (g.stage registryFile.source c').1 =
        .error (.raised (.file ⟨"al.xml/"⟩ .notDirectory)) := by
  decide +kernel

end ApiHeaders
