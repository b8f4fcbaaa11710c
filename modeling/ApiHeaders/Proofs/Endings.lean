import ApiHeaders.Proofs.Extraction
import ApiHeaders.Proofs.Nesting

/-!
# Every extraction ends

A set that is rendered into a target is extracted into a satellite, unless the target is the file of
its annex already, and then it is rendered into that. This comes to an end, because the satellites
run into a file of the annex, into a file that was begun before or into themselves.

## Main definitions

* `Target.EndsWithin` bounds the satellites that paths lead to.
* `Rendering.ExtractsTo` renders a set by as many extractions as it takes, and counts them.

## Main statements

* `Target.endsWithin` bounds them by the length of the path.
* `Target.EndsWithin.exists_extractsTo` says that rendering comes to an end as paths do.
* `extraction_ends` says so of the renderer.
-/

namespace ApiHeaders

/-! ### Where paths lead -/

namespace Path

theorem text_join_ne_empty {p q : Path} (h : q.text ≠ "") : (p.join q).text ≠ "" := by
  rw [join]
  split
  · exact h
  · split <;> simp [h]

end Path

namespace Target

variable {t t' : Target} {a ext : String} {m n : Nat}

/-- Rendering a set with the annex `a` into `t` leads to the file of the annex or to a file that
would be extracted into itself, and takes at most `n` satellites to tell. -/
inductive EndsWithin (a : String) : Nat → Target → Prop
  | annex {n : Nat} {t : Target} (h : t.isAnnex a) : EndsWithin a n t
  | collides {n : Nat} {t : Target} (h : (t.annexPath a).components = t.path.components) :
      EndsWithin a (n + 1) t
  | step {n : Nat} {t : Target} (rest : ∀ t' : Target, t'.path = t.annexPath a → EndsWithin a n t') :
      EndsWithin a (n + 1) t

theorem EndsWithin.mono (h : t.EndsWithin a m) (hle : m ≤ n) : t.EndsWithin a n := by
  induction h generalizing n with
  | annex hannex => exact .annex hannex
  | collides hsame =>
    obtain ⟨k, rfl⟩ := Nat.exists_eq_succ_of_ne_zero (Nat.ne_zero_of_lt hle)
    exact .collides hsame
  | step _ ih =>
    obtain ⟨k, rfl⟩ := Nat.exists_eq_succ_of_ne_zero (Nat.ne_zero_of_lt hle)
    exact .step fun t' hpath => ih t' hpath (Nat.le_of_succ_le_succ hle)

/-- Below an extension, the satellite is the file of the annex. -/
theorem endsWithin_one (hext : t.path.extension? = some ext) (hextempty : ext ≠ "")
    (hslash : '/' ∉ a.toList) (hempty : a ≠ "") : t.EndsWithin a 1 := by
  obtain ⟨file, hfile, -⟩ := Path.eq_of_extension? hext
  have hfits : t.Fits a := fits_of_extension hext hextempty hempty
  refine .step fun t' hpath => .annex ?_
  rw [isAnnex, hpath, stem_annexPath hfile hfits hslash]
  exact decide_eq_true rfl

/-- An annex that makes a step leads to its file or into itself. -/
theorem endsWithin_two (hslash : '/' ∉ a.toList) (hempty : a ≠ "") (hdot : a ≠ ".") :
    t.EndsWithin a 2 := by
  refine .step fun t₁ hpath => ?_
  cases hext : t.path.extension? with
  | some ext => exact .annex (isAnnex_of_extension hext hslash hempty hdot hpath)
  | none =>
    have hname : t.annexName a = a := annexName_of_none hext
    by_cases hup : a = ".."
    · -- A step up from a directory above is that directory again.
      subst hup
      have hplace : t₁.path.components = t.path.components.dropLast ++ [.up] := by
        rw [hpath, t.components_annexPath_of_step hslash (by rw [hname]; rfl), hname]
        rfl
      have hnone : t₁.path.fileName? = none := by
        rw [Path.fileName?, hplace, List.getLast?_concat]
      have hname₁ : t₁.annexName ".." = ".." := annexName_of_none (extension?_eq_none hnone)
      refine .collides ?_
      rw [t₁.components_annexPath_of_step hslash (by rw [hname₁]; rfl), hname₁, hplace,
        List.dropLast_concat]
      rfl
    · have hisName : Path.IsName (t.annexName a) := by
        rw [hname]
        exact isName_of_ne hslash hempty hdot hup
      have hfile := t.fileName?_annexPath_of_isName hslash hisName
      rw [← hpath, hname] at hfile
      cases hext₁ : t₁.path.extension? with
      | none => exact .annex (isAnnex_of_extension?_eq_none hfile hext₁)
      | some ext =>
        -- The annex has an extension of its own, which its second satellite has as well.
        exact .step fun t₂ hpath₂ =>
          .annex (isAnnex_of_extension hext₁ hslash hempty hdot hpath₂)

/-! ### Annexes that are none -/

theorem text_annexPath_ne_empty (h : t.annexName a ≠ "") : (t.annexPath a).text ≠ "" := by
  rw [annexPath]
  split
  · exact Path.text_join_ne_empty h
  · exact h

/-- Where paths start, the annex `.` stands for the same place. -/
theorem components_annexPath_of_isOutset (ht : t.IsOutset) :
    (t.annexPath ".").components = [.here] := by
  have hname : t.annexName "." = "." :=
    annexName_of_none (extension?_eq_none ht.fileName?_eq_none)
  have hnil : t.path.components.dropLast = [] := by
    rcases ht with ht | ht <;> rw [ht] <;> rfl
  have hne : (t.annexPath ".").components ≠ [] := by
    intro hplace
    refine text_annexPath_ne_empty (a := ".") ?_ (Path.text_eq_empty_of_components hplace)
    rw [hname]
    decide
  have hplace := t.components_annexPath_of_idle (a := ".") (by decide) (by rw [hname]; rfl)
  rw [hnil] at hplace
  exact (hplace.resolve_left hne).resolve_left hne

theorem endsWithin_of_isOutset (ha : IsIdleAnnex a) (ht : t.IsOutset) : t.EndsWithin a 2 := by
  rcases ha with rfl | rfl
  · refine .annex ?_
    rw [isAnnex_eq_of_fileName?_eq_none ht.fileName?_eq_none]
    rfl
  · refine .step fun t' hpath => .collides ?_
    have ht' : t'.path.components = [.here] := by rw [hpath, components_annexPath_of_isOutset ht]
    rw [components_annexPath_of_isOutset (.inr ht'), ht']

/-- Every second satellite is in the directory of the one before. -/
theorem endsWithin_of_isIdleAnnex (ha : IsIdleAnnex a) (ht : t.path.components ≠ [])
    (hn : 2 * t.path.components.length + (if Path.isIdle (t.annexName a).toList then 1 else 2) ≤ n) :
    t.EndsWithin a n := by
  induction n generalizing t with
  | zero => split at hn <;> omega
  | succ n ih =>
    have hpos := List.length_pos_iff.2 ht
    refine .step fun t' hpath => ?_
    by_cases ht' : t'.IsOutset
    · exact (endsWithin_of_isOutset ha ht').mono (by split at hn <;> omega)
    have hne : t'.path.components ≠ [] := fun hnil => ht' (.inl hnil)
    by_cases hidle : Path.isIdle (t.annexName a).toList
    · have hlength := length_components_of_idle ha hidle hpath ht'
      rw [if_pos hidle] at hn
      exact ih hne (by split <;> omega)
    · rw [Bool.not_eq_true] at hidle
      have hlength := length_components_of_step ha hidle hpath ht
      rw [hidle] at hn
      rcases idle_or_isAnnex ha hidle hpath with hidle' | hannex
      · refine ih hne ?_
        rw [if_pos hidle', hlength]
        simp only [Bool.false_eq_true, if_false] at hn
        omega
      · exact .annex hannex

/-- The number of satellites is bounded by the length of the path. -/
theorem endsWithin (t : Target) (hslash : '/' ∉ a.toList) :
    t.EndsWithin a (2 * t.path.components.length + 2) := by
  by_cases ha : IsIdleAnnex a
  · by_cases ht : t.path.components = []
    · exact (endsWithin_of_isOutset ha (.inl ht)).mono (Nat.le_add_left 2 _)
    · exact endsWithin_of_isIdleAnnex ha ht (by split <;> omega)
  · rw [IsIdleAnnex, not_or] at ha
    exact (endsWithin_two hslash ha.1 ha.2).mono (Nat.le_add_left 2 _)

end Target

/-! ### What rendering comes to -/

variable {σ : Type} {sink : Sink σ} {b : Boilerplate} {guard : Bool} {s : ApiSet} {t : Target}
  {name a : String} {m n fuel : Nat}

namespace Rendering

variable {st : Rendering σ} {out out' : Except Failure (List String) × Rendering σ}

/-- Hands the file of a satellite to the sink, if its set was rendered, and lets the target refer to
it. -/
def conclude (sink : Sink σ) (b : Boilerplate) (guard : Bool) (s : ApiSet) (t satellite : Target) :
    Except Failure (List String) × Rendering σ → Except Failure (List String) × Rendering σ
  | (.error e, st) => (.error e, st)
  | (.ok content, st) =>
    match sink.write st.sink satellite.path (satellite.file b content) with
    | (.error e, written) => (.error (.raised e), { st with sink := written })
    | (.ok (), written) =>
      let (lines, st) := { st with sink := written }.refer s t satellite guard
      (.ok lines, st)

theorem renderWithin_eq_conclude {st₁ : Rendering σ} (h : s.annexFrom? t = some a)
    (hst : st.reserve t a = .ok st₁) :
    renderWithin sink b guard s (fuel + 1) t st =
      conclude sink b guard s t (t.satellite a (s.headers st₁.registry))
        (renderWithin sink b guard s fuel (t.satellite a (s.headers st₁.registry)) st₁) := by
  rw [renderWithin_of_reserve h hst]
  dsimp only
  rcases renderWithin sink b guard s fuel (t.satellite a (s.headers st₁.registry)) st₁ with
    ⟨_ | content, st₂⟩ <;> rfl

/-- `ExtractsTo sink b guard s st t n out` says that rendering `s` into `t` comes to `out`, and that
`n` satellites are asked for on the way. The last of them may be refused. -/
inductive ExtractsTo (sink : Sink σ) (b : Boilerplate) (guard : Bool) (s : ApiSet) :
    Rendering σ → Target → Nat → Except Failure (List String) × Rendering σ → Prop
  | inline {st : Rendering σ} {t : Target} (h : s.annexFrom? t = none) :
      ExtractsTo sink b guard s st t 0 (st.renderInline s t guard)
  | refused {st : Rendering σ} {t : Target} {a : String} {e : Error}
      (h : s.annexFrom? t = some a) (hst : st.reserve t a = .error e) :
      ExtractsTo sink b guard s st t 1 (.error (.raised e), st)
  | extracted {st st₁ : Rendering σ} {t : Target} {a : String} {n : Nat}
      {out : Except Failure (List String) × Rendering σ}
      (h : s.annexFrom? t = some a) (hst : st.reserve t a = .ok st₁)
      (rest : ExtractsTo sink b guard s st₁ (t.satellite a (s.headers st₁.registry)) n out) :
      ExtractsTo sink b guard s st t (n + 1)
        (conclude sink b guard s t (t.satellite a (s.headers st₁.registry)) out)

/-- Rendering comes to one end only. -/
theorem ExtractsTo.unique (h : ExtractsTo sink b guard s st t n out)
    (h' : ExtractsTo sink b guard s st t m out') : m = n ∧ out' = out := by
  induction h generalizing m out' with
  | inline hnone =>
    cases h' with
    | inline => exact ⟨rfl, rfl⟩
    | refused hsome | extracted hsome => cases hnone.symm.trans hsome
  | refused hsome hst =>
    cases h' with
    | inline hnone => cases hnone.symm.trans hsome
    | refused hsome' hst' =>
      cases hsome.symm.trans hsome'
      cases hst.symm.trans hst'
      exact ⟨rfl, rfl⟩
    | extracted hsome' hst' =>
      cases hsome.symm.trans hsome'
      cases hst.symm.trans hst'
  | extracted hsome hst _ ih =>
    cases h' with
    | inline hnone => cases hnone.symm.trans hsome
    | refused hsome' hst' =>
      cases hsome.symm.trans hsome'
      cases hst.symm.trans hst'
    | extracted hsome' hst' rest' =>
      cases hsome.symm.trans hsome'
      cases hst.symm.trans hst'
      obtain ⟨rfl, rfl⟩ := ih rest'
      exact ⟨rfl, rfl⟩

/-- The renderer comes to the same, if it may extract as many files from one another. -/
theorem ExtractsTo.renderWithin_eq (h : ExtractsTo sink b guard s st t n out) (hfuel : n ≤ fuel) :
    renderWithin sink b guard s fuel t st = out := by
  induction h generalizing fuel with
  | inline hnone => exact renderWithin_of_none hnone
  | refused hsome hst =>
    obtain ⟨fuel, rfl⟩ := Nat.exists_eq_succ_of_ne_zero (Nat.ne_zero_of_lt hfuel)
    exact renderWithin_of_error hsome hst
  | extracted hsome hst _ ih =>
    obtain ⟨fuel, rfl⟩ := Nat.exists_eq_succ_of_ne_zero (Nat.ne_zero_of_lt hfuel)
    rw [renderWithin_eq_conclude hsome hst, ih (Nat.le_of_succ_le_succ hfuel)]

/-- A set with an annex stays in a target or is extracted from it. -/
theorem annexFrom?_eq_or (hannex : s.annex = some a) (t : Target) :
    s.annexFrom? t = none ∨ s.annexFrom? t = some a := by
  rw [ApiSet.annexFrom?, hannex, Option.filter_some]
  split
  · exact .inr rfl
  · exact .inl rfl

/-- Rendering comes to an end as the paths do, if not before. -/
theorem exists_extractsTo (hannex : s.annex = some a) (h : t.EndsWithin a n) (st : Rendering σ) :
    ∃ m ≤ n, ∃ out, ExtractsTo sink b guard s st t m out := by
  induction h generalizing st with
  | @annex n t h =>
    have hnone : s.annexFrom? t = none := by
      rw [ApiSet.annexFrom?, hannex, Option.filter_some, h]
      rfl
    exact ⟨0, Nat.zero_le _, _, .inline hnone⟩
  | @collides n t hsame =>
    rcases annexFrom?_eq_or hannex t with hnone | hsome
    · exact ⟨0, Nat.zero_le _, _, .inline hnone⟩
    · have hst : st.reserve t a = .error (.annexCollision a (t.annexPath a)) := by
        simp [reserve, Path.same, hsame]
      exact ⟨1, Nat.le_add_left 1 n, _, .refused hsome hst⟩
  | @step n t _ ih =>
    rcases annexFrom?_eq_or hannex t with hnone | hsome
    · exact ⟨0, Nat.zero_le _, _, .inline hnone⟩
    · cases hst : st.reserve t a with
      | error e => exact ⟨1, Nat.le_add_left 1 n, _, .refused hsome hst⟩
      | ok st₁ =>
        obtain ⟨m, hm, out, hrest⟩ := ih (t.satellite a (s.headers st₁.registry)) rfl st₁
        exact ⟨m + 1, Nat.succ_le_succ hm, _, .extracted hsome hst hrest⟩

end Rendering

/-- Rendering a set always ends, and what it comes to is what the renderer returns: whatever the
annex without a slash and wherever the target is, no more satellites are extracted from one another
than the path has room for. A satellite next to a file with an extension is the only one. -/
theorem extraction_ends {st : Rendering σ} (hs : st.registry.set? name = some s)
    (hslash : ∀ a ∈ s.annex, '/' ∉ a.toList) (sink : Sink σ) (b : Boilerplate) (t : Target)
    (guard : Bool) :
    ∃ n, Rendering.ExtractsTo sink b guard s st t n (st.render sink b name t guard) ∧
      (∀ m out, Rendering.ExtractsTo sink b guard s st t m out →
        m = n ∧ out = st.render sink b name t guard) ∧
      n ≤ 2 * t.path.components.length + 4 ∧
      ∀ a ext, s.annex = some a → a ≠ "" → t.path.extension? = some ext → ext ≠ "" → n ≤ 1 := by
  have hends : ∃ n ≤ 2 * t.path.components.length + 4, ∃ out,
      Rendering.ExtractsTo sink b guard s st t n out := by
    cases ha : s.annex with
    | none =>
      have hnone : s.annexFrom? t = none := by rw [ApiSet.annexFrom?, ha, Option.filter_none]
      exact ⟨0, Nat.zero_le _, _, .inline hnone⟩
    | some a =>
      have hpath := (Target.endsWithin t (hslash a ha)).mono (Nat.le_add_right _ 2)
      exact Rendering.exists_extractsTo ha hpath st
  obtain ⟨n, hn, out, hout⟩ := hends
  have hfuel : n ≤ Rendering.extractionLimit st.produced t := by
    unfold Rendering.extractionLimit
    omega
  have hrender : st.render sink b name t guard = out := by
    rw [Rendering.render, hs]
    exact hout.renderWithin_eq hfuel
  rw [hrender]
  refine ⟨n, hout, fun m out' h' => hout.unique h', hn, ?_⟩
  intro a ext ha hempty hext hextempty
  obtain ⟨m, hm, out', hone⟩ := Rendering.exists_extractsTo ha
    (Target.endsWithin_one hext hextempty (hslash a ha) hempty) st
  rwa [(hout.unique hone).1] at hm

/-- The set `B` is to be extracted into a file without a name. -/
def extractingUpwards : Rendering (List NamedFile) where
  registry := (sharedConstant none).insertSet { requiringConstant "B" none with annex := some "" }
  produced := []
  imports := []
  sink := []
  warnings := []

/-- Every second file is the directory of the one before, and the last one is the empty path. -/
theorem upwards_extraction_ends :
    let t := Target.of ⟨"a.x/al.h"⟩ ["al"] .header
    let s : ApiSet := { requiringConstant "B" none with annex := some "" }
    let out := extractingUpwards.render (recorder []) {} "B" t true
    (∃ n ≤ 8, Rendering.ExtractsTo (recorder []) {} true s extractingUpwards t n out) ∧
      out.2.produced.map (·.text) = ["a.x/.h", "a.x/", ".x", ""] := by
  intro t s out
  have hslash : ∀ a ∈ s.annex, '/' ∉ a.toList := by decide
  have hs : extractingUpwards.registry.set? "B" = some s := rfl
  obtain ⟨n, hout, -, hn, -⟩ := extraction_ends hs hslash (recorder []) {} t true
  have hlength : t.path.components.length = 2 := by decide
  rw [hlength] at hn
  exact ⟨⟨n, hn, hout⟩, by decide +kernel⟩

end ApiHeaders
