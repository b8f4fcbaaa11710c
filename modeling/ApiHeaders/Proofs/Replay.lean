import ApiHeaders.Proofs.Agreement
import ApiHeaders.Proofs.Extraction
import ApiHeaders.Proofs.Nesting
import ApiHeaders.Proofs.Selection

/-!
# Rendering somewhere else

Rendering sets adds to its state: sets are marked, files are begun and handed on. What is added is
the same in every state that the sets cannot tell apart: in one whose registry remembers the same
of what they refer to, and in which none of their files is begun.

## Main definitions

* `Growth` is what rendering adds, `Rendering.grow` adds it.
* `Rendering.Replays` says that a rendering adds the same wherever it can.

## Main statements

* `Rendering.replays_renderWithin` and `Rendering.replays_render` render one set somewhere else.
* `Rendering.Replays.followed` renders one after the other, `Rendering.replays_renderAll` renders
  several sets.
-/

namespace ApiHeaders

/-! ### What rendering adds -/

/-- What rendering adds to its state. -/
structure Growth where
  /-- The sets that are marked. -/
  sets : List ApiSet
  /-- The files that are begun. -/
  begun : List Path
  imports : List String
  /-- The files that are handed on. -/
  files : List NamedFile
  warnings : List Warning

namespace Growth

instance : Append Growth where
  append g h := ⟨g.sets ++ h.sets, g.begun ++ h.begun, g.imports ++ h.imports, g.files ++ h.files,
    g.warnings ++ h.warnings⟩

variable {g h : Growth} {produced : List Path} {path : Path}

@[simp] theorem sets_append (g h : Growth) : (g ++ h).sets = g.sets ++ h.sets := rfl

@[simp] theorem begun_append (g h : Growth) : (g ++ h).begun = g.begun ++ h.begun := rfl

@[simp] theorem files_append (g h : Growth) : (g ++ h).files = g.files ++ h.files := rfl

/-- The names that the sets refer to. -/
def names (g : Growth) : Set String := Registry.referenced g.sets

/-- None of the files was begun before. -/
def Fresh (g : Growth) (produced : List Path) : Prop :=
  ∀ p ∈ g.begun, ∀ q ∈ produced, p.components ≠ q.components

/-- What extracting a set adds, if `g` is what rendering it into the satellite adds. -/
def extracted (g : Growth) (imports : List String) (f : NamedFile) : Growth :=
  { g with begun := f.path :: g.begun, imports := g.imports ++ imports, files := g.files ++ [f] }

theorem fresh_of_begun_eq_nil (h : g.begun = []) : g.Fresh produced := by
  intro p hp
  rw [h] at hp
  cases hp

theorem fresh_append : (g ++ h).Fresh produced ↔ g.Fresh produced ∧ h.Fresh produced := by
  simp only [Fresh, begun_append, List.mem_append, or_imp, forall_and]

theorem fresh_of_append {more : List Path} :
    g.Fresh (produced ++ more) ↔ g.Fresh produced ∧ g.Fresh more := by
  simp only [Fresh, List.mem_append, or_imp, forall_and]

theorem fresh_extracted {imports : List String} {f : NamedFile} :
    (g.extracted imports f).Fresh produced ↔
      (∀ q ∈ produced, q.components ≠ f.path.components) ∧ g.Fresh produced := by
  simp only [Fresh, extracted, List.mem_cons, forall_eq_or_imp, ne_comm]

end Growth

namespace Rendering

variable {b : Boilerplate} {guard : Bool} {s : ApiSet} {t : Target} {name : String}
  {st st' : Rendering (List NamedFile)} {lines : List String} {g : Growth}

/-- A rendering with something added. -/
def grow (st : Rendering (List NamedFile)) (g : Growth) : Rendering (List NamedFile) where
  registry := st.registry.markAll g.sets
  produced := st.produced ++ g.begun
  imports := st.imports ++ g.imports
  sink := st.sink ++ g.files
  warnings := st.warnings ++ g.warnings

theorem grow_append (st : Rendering (List NamedFile)) (g g' : Growth) :
    st.grow (g ++ g') = (st.grow g).grow g' := by
  have hassoc {α : Type} (x y z : List α) : x ++ (y ++ z) = x ++ y ++ z :=
    (List.append_assoc x y z).symm
  simp only [grow, Growth.sets_append, Registry.markAll_append]
  congr 1 <;> exact hassoc _ _ _

/-- A way to render gives some lines and adds something, in the state `st` and in every other one
whose registry agrees on what the sets refer to and in which none of the files is begun. -/
structure Replays
    (render : Rendering (List NamedFile) →
      Except Failure (List String) × Rendering (List NamedFile))
    (st : Rendering (List NamedFile)) (lines : List String) (g : Growth) : Prop where
  fresh : g.Fresh st.produced
  nodup : (g.begun.map (·.components)).Nodup
  /-- The files that are handed on are those that are begun. -/
  paths : (g.files.map (·.path)).Perm g.begun
  replay : ∀ st', st.registry.Agree g.names st'.registry → g.Fresh st'.produced →
    render st' = (.ok lines, st'.grow g)

theorem Replays.render_eq
    {render : Rendering (List NamedFile) →
      Except Failure (List String) × Rendering (List NamedFile)}
    (hrender : Replays render st lines g) : render st = (.ok lines, st.grow g) :=
  hrender.replay st (.refl _ _) hrender.fresh

/-- The places of the files that are handed on are those of the files that are begun. -/
theorem Replays.begun_iff
    {render : Rendering (List NamedFile) →
      Except Failure (List String) × Rendering (List NamedFile)}
    (h : Replays render st lines g) {place : List Component} :
    (∃ p ∈ g.begun, p.components = place) ↔ ∃ f ∈ g.files, f.path.components = place := by
  simp only [← h.paths.mem_iff, List.mem_map, exists_exists_and_eq_and]

/-! ### One set -/

/-- What the lines of a set add that stay in the target. -/
theorem renderInline_replay (h : st.renderInline s t guard = (.ok lines, st')) :
    ∃ warnings, ∀ st' : Rendering (List NamedFile),
      st.registry.Agree (Registry.referenced [s]) st'.registry →
      st'.renderInline s t guard = (.ok lines, st'.grow ⟨[s], [], [], [], warnings⟩) := by
  refine ⟨(s.inlineLines st.registry t guard).warnings, ?_⟩
  intro st' hagree
  have hlines : s.inlineLines st'.registry t guard = s.inlineLines st.registry t guard := by
    apply ApiSet.inlineLines_local (hagree.alikeFor _)
    intro name hname
    exact ⟨s, List.mem_singleton_self s, hname⟩
  have hresult := renderInline_fst st s t guard
  rw [h] at hresult
  simp only [renderInline, hlines, mapError_eq_ok.1 hresult.symm, grow, List.append_nil]
  rfl

/-- Referring to a satellite comes to the same everywhere. -/
theorem refer_replay (s : ApiSet) (t satellite : Target) (guard : Bool) :
    ∃ lines imports, ∀ st : Rendering (List NamedFile),
      st.refer s t satellite guard = (lines, { st with imports := st.imports ++ imports }) := by
  cases hform : t.form with
  | header =>
    refine ⟨s.referenceLines {} guard satellite.reference, [], ?_⟩
    intro st
    rw [refer, hform, List.append_nil, ← s.referenceLines_eq st.registry]
  | module =>
    refine ⟨[], [satellite.reference], ?_⟩
    intro st
    rw [refer, hform]

/-- A rendering in which a file is begun. -/
def reserved (st : Rendering σ) (path : Path) : Rendering σ :=
  { st with produced := st.produced ++ [path] }

/-- If the file for an annex is to be had somewhere, it is so wherever it is not begun yet. -/
theorem collides_iff {st st' : Rendering σ} {a : String} (hfree : ¬st.Collides t a) :
    st'.Collides t a ↔ ∃ p ∈ st'.produced, p.components = (t.annexPath a).components := by
  have hsame (p : Path) : p.same (t.annexPath a) ↔ p.components = (t.annexPath a).components :=
    decide_eq_true_iff
  rw [Collides, or_iff_left fun hcore => hfree (.inr hcore)]
  simp only [hsame]

/-- If a set can be rendered into its satellite somewhere else, it can be extracted there. -/
theorem Replays.extracted {fuel : Nat} {a : String} {content imports : List String}
    (ha : s.annexFrom? t = some a) (hfree : ¬st.Collides t a)
    (hother : (t.annexPath a).components ≠ t.path.components)
    (hinner : Replays (renderWithin (recorder []) b guard s fuel
      (t.satellite a (s.headers st.registry))) (st.reserved (t.annexPath a)) content g)
    (hrefer : ∀ st' : Rendering (List NamedFile),
      st'.refer s t (t.satellite a (s.headers st.registry)) guard =
        (lines, { st' with imports := st'.imports ++ imports })) :
    let satellite := t.satellite a (s.headers st.registry)
    Replays (renderWithin (recorder []) b guard s (fuel + 1) t) st lines
      (g.extracted imports ⟨satellite.path, satellite.file b content⟩) := by
  intro satellite
  obtain ⟨hfresh, hfreshPath⟩ := Growth.fresh_of_append.1 hinner.fresh
  have hheaders (st' : Rendering (List NamedFile))
      (hagree : st.registry.Agree (g.extracted imports
        ⟨satellite.path, satellite.file b content⟩).names st'.registry) :
      s.headers (st'.reserved (t.annexPath a)).registry = s.headers st.registry :=
    s.headers_agree hagree
  have hreserve (st' : Rendering (List NamedFile)) (hfree' : ¬st'.Collides t a) :
      st'.reserve t a = .ok (st'.reserved (t.annexPath a)) :=
    reserve_eq_ok_iff.2 ⟨hfree', hother, rfl⟩
  have hbegun (st' : Rendering (List NamedFile)) : ¬st'.Collides t a ↔
      ∀ p ∈ st'.produced, p.components ≠ satellite.path.components := by
    rw [collides_iff hfree]
    push Not
    rfl
  refine ⟨?_, ?_, ?_, ?_⟩
  · exact Growth.fresh_extracted.2 ⟨(hbegun st).1 hfree, hfresh⟩
  · rw [Growth.extracted, List.map_cons, List.nodup_cons, List.mem_map]
    refine ⟨?_, hinner.nodup⟩
    rintro ⟨p, hp, hsame⟩
    exact hfreshPath p hp _ (List.mem_singleton_self _) hsame
  · rw [Growth.extracted, List.map_append]
    exact (List.perm_append_singleton _ _).trans (hinner.paths.cons _)
  · intro st' hagree hfresh'
    obtain ⟨hnew, hrest⟩ := Growth.fresh_extracted.1 hfresh'
    have hcontent := hinner.replay (st'.reserved (t.annexPath a)) hagree
      (Growth.fresh_of_append.2 ⟨hrest, hfreshPath⟩)
    let grown := (st'.reserved (t.annexPath a)).grow g
    have hlines := hrefer
      { grown with sink := grown.sink ++ [⟨satellite.path, satellite.file b content⟩] }
    rw [renderWithin_of_reserve ha (hreserve st' ((hbegun st').2 hnew))]
    simp only [hheaders st' hagree, hcontent]
    simp only [recorder, List.not_mem_nil, if_false]
    refine (congrArg (fun referred => (Except.ok referred.1, referred.2)) hlines).trans ?_
    simp only [grown, grow, Growth.extracted, reserved, List.append_assoc]
    rfl

/-- A set that is rendered can be rendered somewhere else, as often extracted as here. -/
theorem replays_renderWithin (b : Boilerplate) (guard : Bool) (s : ApiSet) (fuel : Nat)
    (t : Target) (st : Rendering (List NamedFile)) :
    ∀ lines st', renderWithin (recorder []) b guard s fuel t st = (.ok lines, st') →
      ∃ g, g.sets = [s] ∧ (s.annex = none → g.begun = []) ∧ g.begun.length ≤ fuel ∧
        (∀ a, s.annex = some a → t.Extracts a g.begun.length) ∧
        ∀ fuel', g.begun.length ≤ fuel' →
          Replays (renderWithin (recorder []) b guard s fuel' t) st lines g := by
  fun_induction renderWithin (recorder []) b guard s fuel t st with
  | case1 fuel t st ha =>
    intro lines st' h
    obtain ⟨warnings, hreplay⟩ := renderInline_replay h
    refine ⟨⟨[s], [], [], [], warnings⟩, rfl, fun _ => rfl, Nat.zero_le _, ?_, ?_⟩
    · intro a hannex
      apply Target.Extracts.stop
      simpa [ApiSet.annexFrom?, hannex] using ha
    · intro fuel' _
      refine ⟨Growth.fresh_of_begun_eq_nil rfl, List.nodup_nil, .nil, ?_⟩
      intro st' hagree _
      exact (renderWithin_of_none ha).trans (hreplay st' hagree)
  | case2 | case3 | case4 | case5 =>
    intro lines st' h
    cases h
  | case6 t st annex ha fuel st₁ hst satellite content st₂ hinner written hwrite lines st₃ hrefer
      ih =>
    intro lines' st' h
    cases h
    obtain ⟨hfree, hother, rfl⟩ := reserve_eq_ok_iff.1 hst
    obtain ⟨g, hsets, -, hle, hextracts, hreplays⟩ := ih content st₂ hinner
    obtain ⟨lines₀, imports, hreferAll⟩ := refer_replay s t satellite guard
    have hannex : s.annex = some annex := (Option.filter_eq_some_iff.1 ha).1
    have hnot : t.isAnnex annex = false := by
      simpa using (Option.filter_eq_some_iff.1 ha).2
    obtain rfl : lines₀ = lines := by
      rw [hreferAll { st₂ with sink := written }] at hrefer
      exact congrArg Prod.fst hrefer
    refine ⟨g.extracted imports ⟨satellite.path, satellite.file b content⟩, hsets, ?_, ?_, ?_, ?_⟩
    · intro hnone
      rw [hnone] at hannex
      cases hannex
    · exact Nat.succ_le_succ hle
    · intro a ha'
      rw [hannex] at ha'
      cases ha'
      exact .step hnot rfl (hextracts annex hannex)
    · intro fuel' hfuel
      cases fuel' with
      | zero => cases hfuel
      | succ fuel' =>
        exact .extracted ha hfree hother (hreplays fuel' (Nat.le_of_succ_le_succ hfuel)) hreferAll

/-- A set that is named and rendered can be rendered somewhere else. However many files are begun
there, it may be extracted often enough. -/
theorem replays_render (hrender : st.render (recorder []) b name t guard = (.ok lines, st')) :
    ∃ s g, st.registry.set? name = some s ∧ g.sets = [s] ∧
      Replays (fun st => st.render (recorder []) b name t guard) st lines g := by
  cases hs : st.registry.set? name with
  | none =>
    rw [render, hs] at hrender
    cases hrender
  | some s =>
    rw [render, hs] at hrender
    obtain ⟨g, hsets, hnone, -, hextracts, hreplays⟩ :=
      replays_renderWithin b guard s _ t st _ _ hrender
    have hlimit (produced : List Path) : g.begun.length ≤ extractionLimit produced t := by
      cases hannex : s.annex with
      | none =>
        rw [hnone hannex]
        exact Nat.zero_le _
      | some a =>
        have hle := (hextracts a hannex).le (slash_not_mem_of_renderWithin hannex hrender)
        unfold extractionLimit
        omega
    have hhere := hreplays _ (hlimit st.produced)
    have hset (st' : Rendering (List NamedFile)) (hagree : st.registry.Agree g.names st'.registry) :
        st'.render (recorder []) b name t guard = st'.renderSet (recorder []) b s t guard := by
      rw [render, (hagree.set?_eq name).trans hs]
    refine ⟨s, g, rfl, hsets, hhere.fresh, hhere.nodup, hhere.paths, ?_⟩
    intro st' hagree hfresh
    exact (hset st' hagree).trans ((hreplays _ (hlimit st'.produced)).replay st' hagree hfresh)

/-! ### Several sets -/

/-- Two ways to render, one after the other, until one fails. -/
def followed
    (render render' :
      Rendering (List NamedFile) → Except Failure (List String) × Rendering (List NamedFile))
    (st : Rendering (List NamedFile)) : Except Failure (List String) × Rendering (List NamedFile) :=
  match render st with
  | (.error e, st) => (.error e, st)
  | (.ok lines, st) =>
    match render' st with
    | (.error e, st) => (.error e, st)
    | (.ok more, st) => (.ok (lines ++ more), st)

theorem renderAll_cons (b : Boilerplate) (t : Target) (guard : Bool) (name : String)
    (names : List String) :
    (fun st => Run.renderAll (recorder []) b t guard st (name :: names)) =
      followed (fun st => st.render (recorder []) b name t guard)
        fun st => Run.renderAll (recorder []) b t guard st names := by
  funext st
  rw [Run.renderAll, followed]
  rcases st.render (recorder []) b name t guard with ⟨e | lines, st₁⟩
  · rfl
  · simp only
    rcases Run.renderAll (recorder []) b t guard st₁ names with ⟨e | more, st₂⟩ <;> rfl

/-- What can be rendered somewhere else can be so one after the other. -/
theorem Replays.followed
    {render render' :
      Rendering (List NamedFile) → Except Failure (List String) × Rendering (List NamedFile)}
    {more : List String} {g' : Growth} (hfirst : Replays render st lines g)
    (hmore : Replays render' (st.grow g) more g') :
    Replays (Rendering.followed render render') st (lines ++ more) (g ++ g') := by
  obtain ⟨hfresh, hother⟩ := Growth.fresh_of_append.1 hmore.fresh
  have hagrees (st' : Rendering (List NamedFile))
      (hagree : st.registry.Agree (g ++ g').names st'.registry) :
      st.registry.Agree g.names st'.registry ∧
        (st.grow g).registry.Agree g'.names (st'.grow g).registry := by
    rw [Growth.names, Growth.sets_append, Registry.referenced_append] at hagree
    exact ⟨hagree.mono Set.subset_union_left,
      (hagree.mono Set.subset_union_right).markAll g.sets⟩
  refine ⟨Growth.fresh_append.2 ⟨hfirst.fresh, hfresh⟩, ?_, ?_, ?_⟩
  · rw [Growth.begun_append, List.map_append, List.nodup_append]
    refine ⟨hfirst.nodup, hmore.nodup, ?_⟩
    intro place hplace place' hplace' heq
    obtain ⟨p, hp, rfl⟩ := List.mem_map.1 hplace
    obtain ⟨q, hq, rfl⟩ := List.mem_map.1 hplace'
    exact hother q hq p hp heq.symm
  · rw [Growth.files_append, List.map_append]
    exact hfirst.paths.append hmore.paths
  · intro st' hagree hfresh'
    obtain ⟨hfirst', hmore'⟩ := Growth.fresh_append.1 hfresh'
    obtain ⟨hagree₁, hagree₂⟩ := hagrees st' hagree
    have hrender := hfirst.replay st' hagree₁ hfirst'
    have hrest := hmore.replay (st'.grow g) hagree₂ (Growth.fresh_of_append.2 ⟨hmore', hother⟩)
    simp only [Rendering.followed, hrender, hrest, grow_append]

/-- Sets that are rendered can be rendered somewhere else. -/
theorem replays_renderAll (b : Boilerplate) (t : Target) (guard : Bool) (names : List String)
    (st : Rendering (List NamedFile)) :
    ∀ lines st', Run.renderAll (recorder []) b t guard st names = (.ok lines, st') →
      ∃ g, g.sets = names.filterMap st.registry.set? ∧
        Replays (fun st => Run.renderAll (recorder []) b t guard st names) st lines g := by
  induction names generalizing st with
  | nil =>
    intro lines st' h
    cases h
    refine ⟨⟨[], [], [], [], []⟩, rfl, Growth.fresh_of_begun_eq_nil rfl, List.nodup_nil, .nil, ?_⟩
    intro st' _ _
    simp [Run.renderAll, grow]
  | cons name names ih =>
    intro lines st' h
    rw [Run.renderAll] at h
    split at h
    · cases h
    · next first st₁ hfirst =>
      split at h
      · cases h
      · next more st₂ hmore =>
        cases h
        obtain ⟨s, g, hs, hsets, hreplays⟩ := replays_render hfirst
        have hst₁ := hreplays.render_eq
        rw [hfirst] at hst₁
        cases hst₁
        obtain ⟨g', hsets', hreplays'⟩ := ih (st.grow g) more _ hmore
        have hset? : (st.grow g).registry.set? = st.registry.set? := by
          funext name
          exact (st.registry.tables_markAll g.sets).set?_eq name
        refine ⟨g ++ g', ?_, ?_⟩
        · rw [Growth.sets_append, hsets, hsets', hset?, List.filterMap_cons, hs]
          rfl
        · rw [renderAll_cons]
          exact hreplays.followed hreplays'

end Rendering

end ApiHeaders
