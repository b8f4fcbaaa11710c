import ApiHeaders.Proofs.Splitting

/-!
# Requirements for other API families

A set is rendered once as it is and once without the requirements that do not apply to the target.
Lines, errors, imports and paths are the same. A satellite tells the two apart by one thing: it
includes the headers that the set refers to in any of its requirements, also in those for other API
families.

## Main definitions

* `ApiSet.within` drops the requirements that do not apply to some API families.
* `ApiSet.includes` is the text by which a satellite includes the headers of a set.
* `NamedFile.SameBut` compares two files that differ in copies of one text only.
* `Rendering.satelliteFiles` lists the satellites of a set.

## Main statements

* `Rendering.render_taken` says what a sink that takes every file is handed.
* `Rendering.render_within` runs the two renderings side by side.
* `restriction_leaves_headers` says when their satellites are the same.
-/

namespace ApiHeaders

variable {σ : Type} {r r' : Registry} {s : ApiSet} {t t' : Target} {b : Boilerplate} {guard : Bool}
  {name a : String} {apis : List String} {f f' : NamedFile} {files files' : List NamedFile}

/-! ### Copies of a text -/

/-- A text several times over. -/
def copies (n : Nat) (text : String) : String := String.join (List.replicate n text)

theorem copies_succ (n : Nat) (text : String) : copies (n + 1) text = text ++ copies n text := by
  rw [copies, List.replicate_succ, String.join_cons, copies]

theorem length_copies (n : Nat) (text : String) : (copies n text).length = n * text.length := by
  induction n with
  | zero => rw [Nat.zero_mul]; rfl
  | succ n ih => rw [copies_succ, String.length_append, ih, Nat.succ_mul, Nat.add_comm]

/-- Copies tell texts apart. -/
theorem copies_succ_inj {n : Nat} {text text' : String} :
    copies (n + 1) text' = copies (n + 1) text ↔ text' = text := by
  refine ⟨fun h => ?_, fun h => congrArg _ h⟩
  have hlength : text'.toList.length = text.toList.length := by
    have hall := congrArg String.length h
    rw [length_copies, length_copies] at hall
    exact Nat.eq_of_mul_eq_mul_left n.succ_pos hall
  rw [copies_succ, copies_succ, ← String.toList_inj, String.toList_append,
    String.toList_append] at h
  exact String.toList_inj.1 (List.append_inj h hlength).1

/-- Two files at one path, with the same text but for copies of `text` in a row, which are copies of
`text'` in the other one. -/
structure NamedFile.SameBut (text text' : String) (f f' : NamedFile) : Prop where
  path : f'.path = f.path
  texts : ∃ (before after : String) (n : Nat),
    f.text = before ++ copies (n + 1) text ++ after ∧
    f'.text = before ++ copies (n + 1) text' ++ after

namespace NamedFile.SameBut

variable {text text' : String}

theorem eq_iff (h : f.SameBut text text' f') : f' = f ↔ text' = text := by
  obtain ⟨path, content⟩ := f
  obtain ⟨path', content'⟩ := f'
  obtain ⟨rfl, before, after, n, rfl, rfl⟩ := h
  rw [NamedFile.mk.injEq, String.append_left_inj, String.append_right_inj, copies_succ_inj]
  exact and_iff_right rfl

/-- Lists of such files are equal if they are empty or the two texts are. -/
theorem eq_iff_of_forall₂ (h : List.Forall₂ (SameBut text text') files files') :
    files' = files ↔ files = [] ∨ text' = text := by
  induction h with
  | nil => simp only [true_or]
  | cons hfirst hrest ih =>
    rw [List.cons.injEq, hfirst.eq_iff, ih]
    simp only [reduceCtorEq, false_or, and_iff_left_iff_imp]
    exact Or.inr

end NamedFile.SameBut

/-! ### Sets without requirements for other families -/

namespace ApiSet

/-- A set without the requirements that do not apply where the families `apis` are targeted. -/
def within (s : ApiSet) (apis : List String) : ApiSet :=
  { s with requirements := s.requirements.filter (·.appliesTo apis) }

/-- The text by which a satellite includes the headers of a set. -/
def includes (s : ApiSet) (r : Registry) : String :=
  String.join ((s.headers r).map fun h => "#include <" ++ h ++ ">\n")

theorem references_within_subset (s : ApiSet) (apis : List String) :
    ∀ name ∈ (s.within apis).references, name ∈ s.references := by
  intro name hname
  obtain ⟨req, hreq, hname⟩ := List.mem_flatMap.1 hname
  exact List.mem_flatMap.2 ⟨req, List.mem_of_mem_filter hreq, hname⟩

/-- No pass shows a requirement that does not apply. -/
theorem items_within (s : ApiSet) (r : Registry) (t : Target) :
    (s.within t.apis).items r t = s.items r t := by
  have hsections (p : Pass) : (s.within t.apis).sections r t p = s.sections r t p := by
    simp only [sections, within, List.filter_filter, Bool.and_self]
    rfl
  simp only [items, hsections]
  rfl

theorem inlineLines_within (s : ApiSet) (r : Registry) (t : Target) (guard : Bool) :
    (s.within t.apis).inlineLines r t guard = s.inlineLines r t guard := by
  rw [inlineLines, items_within]
  rfl

end ApiSet

/-- A registry in which a set has only the requirements that apply to some families. -/
def Registry.within (r : Registry) (name : String) (apis : List String) : Registry :=
  { r with sets := r.sets.modify name (·.within apis) }

theorem Registry.set?_within (h : r.set? name = some s) :
    (r.within name apis).set? name = some (s.within apis) := by
  have hget : r.sets.get? name = some s := h
  simp [within, set?, hget]

theorem Registry.alikeFor_within (r : Registry) (s : ApiSet) (name : String) (apis : List String) :
    r.AlikeFor s (r.within name apis) :=
  ⟨fun _ _ => rfl, fun _ _ _ _ _ _ => rfl, fun _ _ _ _ => rfl, fun _ _ => rfl⟩

/-! ### Both targets -/

namespace Target

/-- The preamble stands in one place of a file, and nothing else depends on it. -/
theorem file_around (t : Target) (b : Boilerplate) (content : List String) :
    ∃ before after, ∀ preamble,
      ({ t with preamble } : Target).file b content = before ++ preamble ++ after := by
  have haround (before after : List String) (preamble : String) :
      b.licenseBlock ++ String.join ((before ++ preamble :: after).map (· ++ "\n")) =
        b.licenseBlock ++ String.join (before.map (· ++ "\n")) ++ preamble ++
          ("\n" ++ String.join (after.map (· ++ "\n"))) := by
    simp only [List.map_append, List.map_cons, String.join_append, String.join_cons,
      String.append_assoc]
  obtain ⟨path, apis, form, preamble, moduleName, imports⟩ := t
  cases form with
  | header =>
    let lines := headerLines ⟨path, apis, .header, "", moduleName, imports⟩ b (Text.unlines content)
    exact ⟨_, _, haround (lines.take 10) (lines.drop 11)⟩
  | module =>
    let lines := moduleLines ⟨path, apis, .module, "", moduleName, imports⟩ b (Text.unlines content)
    exact ⟨_, _, haround (lines.take 8) (lines.drop 9)⟩

/-- Two targets for the families `apis` that differ in copies of one text at the beginning of their
preambles only. -/
structure SameBut (apis : List String) (text text' : String) (n : Nat) (t t' : Target) : Prop where
  apis : t.apis = apis
  rest : t' = { t with preamble := t'.preamble }
  preambles : ∃ after, t.preamble = copies n text ++ after ∧ t'.preamble = copies n text' ++ after

namespace SameBut

variable {text text' : String} {n : Nat}

theorem refl (t : Target) (text text' : String) : t.SameBut t.apis text text' 0 t where
  apis := rfl
  rest := rfl
  preambles := ⟨t.preamble, String.empty_append.symm, String.empty_append.symm⟩

/-- A satellite starts with the headers. A satellite module has the preamble after them, which may
start with copies itself. -/
theorem satellite {headers headers' : List String} (h : t.SameBut apis text text' n t')
    (htext : text = String.join (headers.map fun h => "#include <" ++ h ++ ">\n"))
    (htext' : text' = String.join (headers'.map fun h => "#include <" ++ h ++ ">\n")) (a : String) :
    ∃ m, (t.satellite a headers).SameBut apis text text' (m + 1) (t'.satellite a headers') := by
  obtain ⟨path, _, form, preamble, moduleName, imports⟩ := t
  obtain ⟨hapis, hrest, after, hpreamble, hpreamble'⟩ := h
  rw [hrest]
  cases form with
  | header =>
    refine ⟨0, hapis, rfl, satellitePreamble ⟨path, apis, .header, "", "", []⟩, ?_, ?_⟩
    · rw [copies_succ, htext]
      exact congrArg (· ++ _) String.append_empty.symm
    · rw [copies_succ, htext']
      exact congrArg (· ++ _) String.append_empty.symm
  | module =>
    refine ⟨n, hapis, rfl, after, ?_, ?_⟩
    · rw [copies_succ, String.append_assoc, htext, ← htext, ← hpreamble, htext]
      rfl
    · rw [copies_succ, String.append_assoc, ← hpreamble', htext']
      rfl

/-- The files for two such targets are the same but for the copies. -/
theorem file (h : t.SameBut apis text text' (n + 1) t') (b : Boilerplate) (content : List String) :
    NamedFile.SameBut text text' ⟨t.path, t.file b content⟩ ⟨t'.path, t'.file b content⟩ := by
  obtain ⟨-, hrest, after, hpreamble, hpreamble'⟩ := h
  obtain ⟨before, behind, hfile⟩ := t.file_around b content
  refine ⟨by rw [hrest], before, after ++ behind, n, ?_, ?_⟩
  · refine (hfile t.preamble).trans ?_
    simp only [hpreamble, String.append_assoc]
  · rw [hrest, hfile]
    simp only [hpreamble', String.append_assoc]

end SameBut

end Target

/-! ### Both renderings -/

/-- A set resembles itself without the requirements for other families, if satellites may include
other headers. -/
theorem ApiSet.resembles_within (s : ApiSet) (apis : List String) (text text' : String)
    (b : Boilerplate) (guard : Bool) :
    Resembles
      (fun r r' => s.includes r = text ∧ (s.within apis).includes r' = text' ∧
        r.AlikeFor (s.within apis) r')
      (fun t t' => ∃ n, t.SameBut apis text text' n t')
      (List.Forall₂ (NamedFile.SameBut text text'))
      (recorder []) (recorder []) b b guard s (s.within apis) where
  name := rfl
  annex := rfl
  opening _ := (s.within apis).opening_eq _ _ guard
  lines := by
    rintro r r' t t' ⟨-, -, halike⟩ ⟨n, hapis, hrest, -⟩
    have hlines : (s.within apis).inlineLines r' t' guard =
        (s.within apis).inlineLines r' t guard := by
      rw [hrest]
      rfl
    rw [hlines, inlineLines_local halike, ← hapis, inlineLines_within]
  marked := by
    rintro r r' ⟨htext, htext', halike⟩
    refine ⟨htext, htext', halike.markWritten rfl fun name hname => ?_⟩
    exact iff_of_true hname (s.references_within_subset apis name hname)
  target := by
    rintro t t' ⟨n, h⟩
    exact h.rest
  satellite := by
    rintro r r' t t' a ⟨htext, htext', -⟩ ⟨n, h⟩
    obtain ⟨m, hsatellite⟩ := h.satellite htext.symm htext'.symm a
    exact ⟨m + 1, hsatellite⟩
  taken := by
    rintro r r' t t' files files' a content ⟨htext, htext', -⟩ ⟨n, h⟩ hfiles
    obtain ⟨m, hsatellite⟩ := h.satellite htext.symm htext'.symm a
    exact ⟨_, rfl, List.rel_append hfiles (.cons (hsatellite.file b content) .nil)⟩

namespace Rendering

variable {sink : Sink σ} {st : Rendering σ}

/-- The satellites of a set, in the order in which rendering it into a target hands them to a sink
that takes every file. -/
def satelliteFiles (st : Rendering σ) (b : Boilerplate) (name : String) (t : Target)
    (guard : Bool) : List NamedFile :=
  ((st.into []).render (recorder []) b name t guard).2.sink

end Rendering

theorem Sink.Takes.concat {sink : Sink σ} {x y z : σ} (h : sink.Takes x files y)
    (hwrite : sink.write y f.path f.text = (.ok (), z)) : sink.Takes x (files ++ [f]) z := by
  induction h with
  | nil => exact .cons hwrite (.nil _)
  | cons first rest ih => exact .cons first (ih hwrite)

namespace Rendering

variable {sink : Sink σ} {st : Rendering σ}

/-- A sink that takes every file is handed the satellites, and the outcome is that of listing
them. -/
theorem render_taken (hsink : sink.TakesAll) (st : Rendering σ) (b : Boilerplate) (name : String)
    (t : Target) (guard : Bool) :
    ∃ y, sink.Takes st.sink (st.satelliteFiles b name t guard) y ∧
      st.render sink b name t guard =
        (((st.into []).render (recorder []) b name t guard).1,
          ((st.into []).render (recorder []) b name t guard).2.into y) := by
  have hagrees : (recorder []).Agrees (sink.Takes st.sink) b sink b := by
    intro files y hfiles t content
    have hwrite : sink.write y t.path (t.file b content) =
        (.ok (), (sink.write y t.path (t.file b content)).2) := Prod.ext (hsink ..) rfl
    exact ⟨_, hwrite, hfiles.concat hwrite⟩
  obtain ⟨y, hrender, hy⟩ := render_into hagrees (st.into []) (Sink.Takes.nil st.sink) name t guard
  exact ⟨y, hy, hrender⟩

/-- Without the requirements for other families, a rendering has the same outcome, and its
satellites differ in the headers that they include only. -/
theorem render_within (st : Rendering (List NamedFile)) (hst : st.sink = [])
    (hs : st.registry.set? name = some s) (b : Boilerplate) (t : Target) (guard : Bool) :
    ∃ st', (st.withRegistry (st.registry.within name t.apis)).render (recorder []) b name t guard =
        ((st.render (recorder []) b name t guard).1, st') ∧
      st'.imports = (st.render (recorder []) b name t guard).2.imports ∧
      st'.produced = (st.render (recorder []) b name t guard).2.produced ∧
      List.Forall₂
        (NamedFile.SameBut (s.includes st.registry) ((s.within t.apis).includes st.registry))
        (st.render (recorder []) b name t guard).2.sink st'.sink := by
  have hs' : (st.withRegistry (st.registry.within name t.apis)).registry.set? name =
      some (s.within t.apis) := Registry.set?_within hs
  have hresembles := s.resembles_within t.apis (s.includes st.registry)
    ((s.within t.apis).includes st.registry) b guard
  have hsinks : List.Forall₂ (NamedFile.SameBut (s.includes st.registry)
      ((s.within t.apis).includes st.registry)) st.sink st.sink := by
    rw [hst]
    exact .nil
  obtain ⟨st', hrender, hst'⟩ :=
    renderWithin_alike hresembles (extractionLimit st.produced t) t st t
      (st.withRegistry (st.registry.within name t.apis)) ⟨0, .refl t _ _⟩
      ⟨⟨rfl, rfl, st.registry.alikeFor_within ..⟩, rfl, rfl, hsinks, rfl⟩
  rw [render_eq hs, render_eq hs']
  exact ⟨st', hrender, hst'.imports, hst'.produced, hst'.sink⟩

end Rendering

/-- Without the requirements for other API families, a set is rendered into the same lines or the
same error, with the same imports and satellites at the same paths. The texts of the satellites are
the same only if there are none or the set refers to no further headers in those requirements. -/
theorem restriction_leaves_headers {sink : Sink σ} (hsink : sink.TakesAll) {st : Rendering σ}
    (hs : st.registry.set? name = some s) (b : Boilerplate) (t : Target) (guard : Bool) :
    let st' := st.withRegistry (st.registry.within name t.apis)
    let x := st.render sink b name t guard
    let y := st'.render sink b name t guard
    let files := st.satelliteFiles b name t guard
    let files' := st'.satelliteFiles b name t guard
    let text := s.includes st.registry
    let text' := (s.within t.apis).includes st.registry
    sink.Takes st.sink files x.2.sink ∧ sink.Takes st.sink files' y.2.sink ∧
      y.1 = x.1 ∧ y.2.imports = x.2.imports ∧ y.2.produced = x.2.produced ∧
      List.Forall₂ (NamedFile.SameBut text text') files files' ∧
      (files' = files ↔ files = [] ∨ text' = text) := by
  intro st'
  obtain ⟨sunk, htaken, hrender⟩ := Rendering.render_taken hsink st b name t guard
  obtain ⟨sunk', htaken', hrender'⟩ := Rendering.render_taken hsink st' b name t guard
  obtain ⟨after, hboth, himports, hproduced, hfiles⟩ :=
    Rendering.render_within (st.into []) rfl hs b t guard
  have hlisted : (st'.into []).render (recorder []) b name t guard =
      (((st.into []).render (recorder []) b name t guard).1, after) := hboth
  have hfiles' : List.Forall₂
      (NamedFile.SameBut (s.includes st.registry) ((s.within t.apis).includes st.registry))
      (st.satelliteFiles b name t guard) (st'.satelliteFiles b name t guard) := by
    rw [Rendering.satelliteFiles, Rendering.satelliteFiles, hlisted]
    exact hfiles
  rw [hlisted] at hrender'
  rw [hrender, hrender']
  exact ⟨htaken, htaken', rfl, himports, hproduced, hfiles',
    NamedFile.SameBut.eq_iff_of_forall₂ hfiles'⟩

/-- An extension that requires a constant for all families and a header for another one. -/
def headerForOther : ApiSet where
  kind := .extension
  name := "AL_EXT_X"
  apis := ["al"]
  requirements := [{ names := ["stddef.h"], api := some "alc" }, { names := ["AL_N"] }]
  annex := some "efx"
  doc := none

/-- The satellite of the extension includes the header, and does not without the requirement for the
other family. -/
theorem other_header_included :
    let r := ((sharedConstant none).insert (.header "stddef.h")).insertSet headerForOther
    let st : Rendering (List NamedFile) :=
      { registry := r, produced := [], imports := [], sink := [], warnings := [] }
    let st' := st.withRegistry (r.within "AL_EXT_X" ["al"])
    let t := Target.of ⟨"al.h"⟩ ["al"] .header
    (recorder []).TakesAll ∧ r.set? "AL_EXT_X" = some headerForOther ∧
      (st'.render (recorder []) {} "AL_EXT_X" t true).1 =
        (st.render (recorder []) {} "AL_EXT_X" t true).1 ∧
      (headerForOther.includes r, (headerForOther.within ["al"]).includes r) =
        ("#include <stddef.h>\n", "") ∧
      st'.satelliteFiles {} "AL_EXT_X" t true ≠ st.satelliteFiles {} "AL_EXT_X" t true := by
  intro r st st' t
  have hs : st.registry.set? "AL_EXT_X" = some headerForOther := by decide
  have htext : headerForOther.includes r = "#include <stddef.h>\n" := by decide
  have htext' : (headerForOther.within ["al"]).includes r = "" := by decide
  have hsome : st.satelliteFiles {} "AL_EXT_X" t true ≠ [] := by decide
  obtain ⟨-, -, hresult, -, -, -, hsame⟩ :=
    restriction_leaves_headers takesAll_recorder hs {} t true
  refine ⟨takesAll_recorder, hs, hresult, Prod.ext htext htext', fun heq => ?_⟩
  rcases hsame.1 heq with hnone | heq
  · exact hsome hnone
  · exact absurd (htext'.symm.trans (heq.trans htext)) (by decide)

end ApiHeaders
