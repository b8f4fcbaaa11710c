import ApiHeaders.Proofs.Neighbours
import ApiHeaders.Proofs.Staging
import ApiHeaders.Proofs.Written

/-!
# The sets of a header

The sets that are selected for a header stand in it one after the other. A set with an annex stands
in a satellite instead, which has the same guard around it as the reference in the header.

## Main definitions

* `Registry.selection` lists what is written for the sets of a header, `Writing.inHeader` is what
  the header has in the place of each.

## Main statements

* `Run.renderAll_header` gives the contents of a header and the files of its satellites.
-/

namespace ApiHeaders

/-- The target that a set of a header is written into. -/
def ApiSet.writtenInto (s : ApiSet) (r : Registry) (t : Target) : Target :=
  match s.annexFrom? t with
  | none => t
  | some annex => t.satellite annex (s.headers r)

/-- What is written for sets that are rendered into a header in turn. -/
def Registry.selection (r : Registry) (t : Target) : List String → List Writing
  | [] => []
  | name :: names =>
    match r.set? name with
    | none => []
    | some s => ⟨s, s.writtenInto r t, r⟩ :: (r.markWritten s).selection t names

namespace Writing

variable (w : Writing)

/-- The parts of the set, if all passes come to their end. -/
def items : List Item := ((w.set.items w.registry w.target).result.toOption).getD []

/-- The lines of the set. -/
def lines : List String :=
  w.set.opening w.registry true ++ w.items.flatMap Item.lines ++ w.set.closing true

/-- What a header has in the place of the set. -/
def inHeader (t : Target) : List String :=
  match w.set.annexFrom? t with
  | none => w.lines
  | some _ => w.set.referenceLines w.registry true w.target.reference

end Writing

variable {b : Boilerplate} {t : Target} {s : ApiSet} {r : Registry} {w : Writing}

namespace ApiSet

theorem writtenInto_of_none (h : s.annexFrom? t = none) : s.writtenInto r t = t := by
  rw [writtenInto, h]

theorem writtenInto_of_annex {annex : String} (h : s.annexFrom? t = some annex) :
    s.writtenInto r t = t.satellite annex (s.headers r) := by
  rw [writtenInto, h]

theorem form_writtenInto (s : ApiSet) (r : Registry) (t : Target) :
    (s.writtenInto r t).form = t.form := by
  unfold writtenInto
  split <;> rfl

theorem apis_writtenInto (s : ApiSet) (r : Registry) (t : Target) :
    (s.writtenInto r t).apis = t.apis := by
  unfold writtenInto
  split <;> rfl

end ApiSet

theorem Registry.target_of_mem_selection {names : List String} (h : w ∈ r.selection t names) :
    w.target = w.set.writtenInto w.registry t := by
  induction names generalizing r with
  | nil => cases h
  | cons name names ih =>
    unfold selection at h
    split at h
    · cases h
    · rcases List.mem_cons.1 h with rfl | h
      · rfl
      · exact ih h

namespace Writing

/-- The set was written: its passes come to their end, and if it is extracted, its satellite is
staged. -/
def Done (w : Writing) (b : Boilerplate) (t : Target) (l : Ledger) : Prop :=
  (w.set.items w.registry w.target).result = .ok w.items ∧
    ∀ a, w.set.annexFrom? t = some a → '/' ∉ a.toList ∧
      w.target.path ∈ l.begun ∧ w.target.path.components ≠ t.path.components ∧
        l.staged.textAt? w.target.path.components = some (w.target.file b w.lines)

theorem Done.of_progress {l l' : Ledger} (h : w.Done b t l) (hl : l.Progress l') :
    w.Done b t l' := by
  refine ⟨h.1, ?_⟩
  intro a ha
  obtain ⟨hslash, hbegun, hself, htext⟩ := h.2 a ha
  exact ⟨hslash, hl.begun hbegun, hself, (hl.textAt? _ hbegun).trans htext⟩

/-- The header itself may be written afterwards. -/
theorem Done.write {l : Ledger} (h : w.Done b t l) (text : String) :
    w.Done b t { l with staged := l.staged.write t.path text } := by
  refine ⟨h.1, ?_⟩
  intro a ha
  obtain ⟨hslash, hbegun, hself, htext⟩ := h.2 a ha
  refine ⟨hslash, hbegun, hself, ?_⟩
  rw [Staged.textAt?_write, if_neg hself.symm]
  exact htext

end Writing

namespace Rendering

variable {st st' : Rendering Staged} {lines : List String}

/-- A set without an annex is rendered into the target itself. -/
theorem renderInline_eq_ok {σ : Type} {st st' : Rendering σ} {guard : Bool}
    (h : st.renderInline s t guard = (.ok lines, st')) :
    let w : Writing := ⟨s, t, st.registry⟩
    (s.items st.registry t).result = .ok w.items ∧
      lines = s.opening st.registry guard ++ w.items.flatMap Item.lines ++ s.closing guard ∧
      st' = { st with registry := st.registry.markWritten s, warnings := st'.warnings } := by
  intro w
  have hfst := renderInline_fst st s t guard
  rw [h, ApiSet.result_inlineLines] at hfst
  obtain ⟨items, hitems, hlines⟩ := map_eq_ok.1 (mapError_eq_ok.1 hfst.symm)
  have hw : w.items = items := by
    simp [w, Writing.items, hitems, Except.toOption]
  refine ⟨by rw [hw, hitems], by rw [← hlines, hw], ?_⟩
  simp only [renderInline] at h
  split at h
  · cases h
    rfl
  · cases h

/-- Rendering a set whose annex has a slash comes to no end, as no file is called by the annex. -/
theorem slash_not_mem_of_renderWithin {σ : Type} {sink : Sink σ} {guard : Bool} {a : String}
    (ha : s.annex = some a) {fuel : Nat} {t : Target} {st st' : Rendering σ}
    (h : renderWithin sink b guard s fuel t st = (.ok lines, st')) : '/' ∉ a.toList := by
  intro hslash
  have hannex (t : Target) : s.annexFrom? t = some a := by
    rw [ApiSet.annexFrom?, ha, Option.filter_some, t.isAnnex_of_slash hslash]
    rfl
  induction fuel generalizing t st lines st' with
  | zero =>
    rw [renderWithin, hannex] at h
    cases h
  | succ fuel ih =>
    rw [renderWithin, hannex] at h
    simp only at h
    split at h
    · cases h
    · split at h
      · cases h
      · next hinner => exact ih hinner

/-- What rendering a set into a header comes to. -/
structure Takes (st : Rendering Staged) (w : Writing) (b : Boilerplate) (t : Target)
    (lines : List String) (st' : Rendering Staged) : Prop where
  done : w.Done b t st'.ledger
  lines : lines = w.inHeader t
  registry : st'.registry = st.registry.markWritten w.set
  imports : st'.imports = st.imports

theorem takes_inline {fuel : Nat} (ha : s.annexFrom? t = none)
    (h : renderWithin Staged.sink b true s fuel t st = (.ok lines, st')) :
    st.Takes ⟨s, t, st.registry⟩ b t lines st' := by
  rw [renderWithin_of_none ha] at h
  obtain ⟨hitems, hlines, hst⟩ := renderInline_eq_ok h
  refine ⟨⟨hitems, ?_⟩, ?_, by rw [hst], by rw [hst]⟩
  · intro a ha'
    cases ha.symm.trans ha'
  · rw [hlines, Writing.inHeader, ha]
    rfl

/-- A set that is extracted, but not a second time. -/
theorem takes_extracted {fuel : Nat} {a : String} (hform : t.form = .header)
    (ha : s.annexFrom? t = some a)
    (hstop : s.annexFrom? (t.satellite a (s.headers st.registry)) = none)
    (h : renderWithin Staged.sink b true s (fuel + 1) t st = (.ok lines, st')) :
    st.Takes ⟨s, t.satellite a (s.headers st.registry), st.registry⟩ b t lines st' := by
  have hslash := slash_not_mem_of_renderWithin (Option.filter_eq_some_iff.1 ha).1 h
  rw [renderWithin, ha] at h
  simp only at h
  cases hreserve : st.reserve t a with
  | error e =>
    rw [hreserve] at h
    cases h
  | ok st₁ =>
    obtain ⟨rfl, -, hself⟩ := reserve_eq_ok hreserve
    rw [hreserve] at h
    simp only [renderWithin_of_none hstop] at h
    split at h
    · cases h
    · next content st₂ hinner =>
      obtain ⟨hitems, hlines, hst⟩ := renderInline_eq_ok hinner
      simp only [Staged.sink, refer, hform] at h
      cases h
      refine ⟨⟨hitems, ?_⟩, ?_, by rw [hst], by rw [hst]⟩
      · intro a' ha'
        cases ha.symm.trans ha'
        refine ⟨hslash, ?_, hself, ?_⟩
        · rw [hst]
          exact List.mem_append_right _ List.mem_cons_self
        · change Staged.textAt? (Staged.write _ _ _) _ = _
          rw [Staged.textAt?_write, if_pos rfl, hlines]
          rfl
      · rw [Writing.inHeader, ha, hst]
        rfl

/-- A set that is rendered into a header. -/
theorem render_header {name : String} (hform : t.form = .header)
    (hannex : ∀ s a, st.registry.set? name = some s → s.annexFrom? t = some a →
      '/' ∉ a.toList → s.annexFrom? (t.satellite a (s.headers st.registry)) = none)
    (h : st.render Staged.sink b name t true = (.ok lines, st')) :
    ∃ s, st.registry.set? name = some s ∧
      st.Takes ⟨s, s.writtenInto st.registry t, st.registry⟩ b t lines st' := by
  unfold render at h
  split at h
  · cases h
  · next s hs =>
    refine ⟨s, hs, ?_⟩
    have hlimit : extractionLimit st.produced t ≠ 0 := by
      unfold extractionLimit
      omega
    obtain ⟨fuel, hfuel⟩ := Nat.exists_eq_succ_of_ne_zero hlimit
    rw [renderSet, hfuel] at h
    cases ha : s.annexFrom? t with
    | none =>
      rw [ApiSet.writtenInto_of_none ha]
      exact takes_inline ha h
    | some a =>
      have hslash := slash_not_mem_of_renderWithin (Option.filter_eq_some_iff.1 ha).1 h
      rw [ApiSet.writtenInto_of_annex ha]
      exact takes_extracted hform ha (hannex s a hs ha hslash) h

end Rendering

/-- The sets of a header, one after the other. -/
theorem Run.renderAll_header (hform : t.form = .header) (names : List String)
    {st st' : Rendering Staged} {content : List String}
    (hannex : ∀ w ∈ st.registry.selection t names, ∀ a, w.set.annexFrom? t = some a →
      '/' ∉ a.toList → w.set.annexFrom? (t.satellite a (w.set.headers w.registry)) = none)
    (h : Run.renderAll Staged.sink b t true st names = (.ok content, st')) :
    List.Forall₂ (fun name w => w.registry.set? name = some w.set) names
        (st.registry.selection t names) ∧
      content = (st.registry.selection t names).flatMap (·.inHeader t) ∧
      st'.imports = st.imports ∧
      ∀ w ∈ st.registry.selection t names, w.Done b t st'.ledger := by
  induction names generalizing st content with
  | nil =>
    cases h
    exact ⟨.nil, rfl, rfl, nofun⟩
  | cons name names ih =>
    rw [Run.renderAll] at h
    split at h
    · cases h
    · next lines st₁ hfirst =>
      split at h
      · cases h
      · next more st₂ hrest =>
        cases h
        cases hs : st.registry.set? name with
        | none =>
          rw [Rendering.render, hs] at hfirst
          cases hfirst
        | some s =>
          have hselection : st.registry.selection t (name :: names) =
              ⟨s, s.writtenInto st.registry t, st.registry⟩ ::
                (st.registry.markWritten s).selection t names := by
            rw [Registry.selection, hs]
          rw [hselection] at hannex ⊢
          obtain ⟨s', hs', hdone, hlines, hregistry, himports⟩ :=
            Rendering.render_header hform (fun s' a hs' ha hslash => by
              rw [hs] at hs'
              cases hs'
              exact hannex _ List.mem_cons_self a ha hslash) hfirst
          rw [hs] at hs'
          cases hs'
          rw [← hregistry] at hannex ⊢
          obtain ⟨hnames, hmore, himports', hall⟩ :=
            ih (fun w hw => hannex w (List.mem_cons_of_mem _ hw)) hrest
          have hprogress := Run.progress_renderAll b t true names st₁
          rw [hrest] at hprogress
          refine ⟨.cons hs hnames, by rw [hlines, hmore, List.flatMap_cons],
            himports'.trans himports, fun w hw => ?_⟩
          rcases List.mem_cons.1 hw with rfl | hw
          · exact hdone.of_progress hprogress
          · exact hall w hw

/-- What a run that succeeds has staged for a header in the end, and for its satellites. -/
theorem Run.entries_header {run run' : Run} {c : Config} {timestamp : String} {o : Output}
    {before after : List Config.Entry}
    (h : run.entries c timestamp (before ++ .output .header o :: after) = (.ok (), run'))
    (hagain : ∀ path, .generatedAgain path ∉ run'.warnings) :
    ∃ run₁ r names, run.entries c timestamp before = (.ok (), run₁) ∧
      run₁.registries.get? o.registry.components = some r ∧ select r o = .ok names ∧
      let t := Run.target .header o
      let b := Run.boilerplate c timestamp o
      let ws := r.selection t names
      ((∀ w ∈ ws, ∀ a, w.set.annexFrom? t = some a → '/' ∉ a.toList →
          w.set.annexFrom? (t.satellite a (w.set.headers w.registry)) = none) →
        List.Forall₂ (fun name w => w.registry.set? name = some w.set) names ws ∧
          run'.staged.textAt? t.path.components = some (t.file b (ws.flatMap (·.inHeader t))) ∧
          ∀ w ∈ ws, w.Done b t run'.ledger) := by
  obtain ⟨run₁, hbefore, hrest⟩ := entries_append_eq_ok h
  obtain ⟨run₂, hentry, hafter⟩ := entries_cons_eq_ok hrest
  obtain ⟨r, names, content, st, hr, hselect, hrender, hfinish⟩ := generate_eq_ok hentry
  refine ⟨run₁, r, names, hbefore, hr, hselect, ?_⟩
  intro t b ws hannex
  have hpath : t.path = o.path := rfl
  change renderAll Staged.sink b t true ((run₁.begin o.path).rendering r) names =
    (.ok content, st) at hrender
  obtain ⟨hnames, hcontent, himports, hdone⟩ :=
    renderAll_header (t := t) rfl names hannex hrender
  have hprogress := progress_entries hafter hagain
  have himports' : st.imports = [] := himports
  rw [finish, if_pos himports'] at hfinish
  obtain rfl : { (run₁.begin o.path).rendered o st with
      staged := st.sink.write t.path (t.file b content) } = run₂ := (Prod.mk.inj hfinish).2
  have hbegun : o.path ∈ st.produced := by
    have hall := progress_renderAll b t true names ((run₁.begin o.path).rendering r)
    rw [hrender] at hall
    apply hall.begun
    rcases run₁.begin_eq o.path with ⟨hbegin, -⟩ | hwarned
    · change o.path ∈ (run₁.begin o.path).produced
      rw [hbegin]
      exact List.mem_append_right _ List.mem_cons_self
    · refine absurd (hprogress.warnings (hall.warnings ?_)) (hagain o.path)
      change .generatedAgain o.path ∈ (run₁.begin o.path).warnings
      rw [hwarned]
      exact List.mem_append_right _ List.mem_cons_self
  have htext := hprogress.textAt? o.path hbegun
  refine ⟨hnames, ?_, fun w hw => ((hdone w hw).write (t.file b content)).of_progress hprogress⟩
  apply htext.trans
  change Staged.textAt? (Staged.write _ _ _) _ = _
  rw [Staged.textAt?_write, if_pos (congrArg Path.components hpath), hcontent]
  rfl

end ApiHeaders
