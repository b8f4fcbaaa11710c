import ApiHeaders.Proofs.Passes

/-!
# The warnings of a set

Every pass looks at all references of a set, and yet a reference that is worth a warning gets only
one: from the first pass that takes declarations of its kind. A reference to nothing is left to the
pass over types.

## Main definitions

* `ApiSet.remark?` is what there is to say of a reference.
* `ApiSet.remarks` says it of several.

## Main statements

* `Block.warnings_ofReference` says which pass warns of a reference.
* `warned_once` lists the warnings of a set that is rendered into its target.
-/

namespace ApiHeaders

variable {σ : Type} {r : Registry} {s : ApiSet} {t : Target} {p : Pass} {name : String}

/-! ### Warnings of computations -/

namespace Logged

variable {α β : Type}

@[simp] theorem warnings_pure (a : α) : (pure a : Logged α).warnings = [] := rfl

theorem warnings_bind {x : Logged α} {a : α} (h : x.result = .ok a) (f : α → Logged β) :
    (x >>= f).warnings = x.warnings ++ (f a).warnings :=
  congrArg warnings (bind_ok h f)

/-- A traversal that succeeds has the warnings of all its steps. -/
theorem warnings_traverse {f : α → Logged β} {as : List α} {bs : List β}
    (h : (traverse f as).result = .ok bs) :
    (traverse f as).warnings = as.flatMap fun a => (f a).warnings := by
  induction as generalizing bs with
  | nil => rfl
  | cons a as ih =>
    rw [traverse] at h ⊢
    obtain ⟨b, hb, h⟩ := result_bind_eq_ok.1 h
    obtain ⟨bs', hbs, -⟩ := result_bind_eq_ok.1 h
    rw [warnings_bind hb, warnings_bind hbs, ih hbs]
    simp

end Logged

/-! ### Warnings of references -/

/-- Whether a name stands for a command. -/
def Registry.isCommand (r : Registry) (name : String) : Bool := (r.find? name).any (·.isCommand)

/-- What there is to say of a reference: that there is no such declaration, or that another set has
written it before. -/
def ApiSet.remark? (s : ApiSet) (r : Registry) (name : String) : Option Warning :=
  match r.find? name with
  | none => some (.unavailable name s.name)
  | some (.header _) => none
  | some _ =>
    match r.writtenBy? name with
    | none => none
    | some writer => if writer = s.name then none else some (.alreadyWritten name s.name writer)

/-- What there is to say of several references, in order. -/
def ApiSet.remarks (s : ApiSet) (r : Registry) (names : List String) : List Warning :=
  names.filterMap (s.remark? r)

/-- The pass that warns of a reference. -/
def ApiSet.reporter (s : ApiSet) (r : Registry) (name : String) : Pass :=
  if r.isCommand name then .leading s.kind else .types

/-- A pass that takes a declaration warns first, if that is up to it. -/
theorem Block.warnings_ofReference_of_accepts {d : Declaration} (hd : r.find? name = some d)
    (h : p.accepts d) :
    (ofReference r s t p name).warnings =
      if p.warns s.kind then
        ((r.otherWriter? s name).map (.alreadyWritten name s.name)).toList
      else [] := by
  simp only [ofReference, hd, h, if_true]
  split
  · cases r.otherWriter? s name <;> cases of r t p _ d <;> rfl
  · cases of r t p (r.otherWriter? s name) d <;> rfl

/-- The pass that takes a declaration and warns of it is the one that reports it. -/
theorem Pass.accepts_and_warns_iff {d : Declaration} (hd : r.find? name = some d) :
    p.accepts d ∧ p.warns s.kind ↔ d.isHeader = false ∧ p = s.reporter r name := by
  have hcommand : r.isCommand name = d.isCommand := by rw [Registry.isCommand, hd]; rfl
  rw [ApiSet.reporter, hcommand, accepts, warns]
  generalize d.isHeader = header
  generalize d.isCommand = command
  generalize s.kind = kind
  cases header <;> cases command <;> cases kind <;> cases p <;> decide

theorem ApiSet.remark?_of_some {d : Declaration} (hd : r.find? name = some d) :
    s.remark? r name =
      if d.isHeader then none
      else (r.otherWriter? s name).map (.alreadyWritten name s.name) := by
  rw [remark?, hd, Registry.otherWriter?]
  cases hw : r.writtenBy? name with
  | none => cases d <;> rfl
  | some writer =>
    by_cases hs : writer = s.name <;> cases d <;>
      simp [hs, Declaration.isHeader, Option.filter_some]

/-- Only one pass warns of a reference. -/
theorem Block.warnings_ofReference :
    (ofReference r s t p name).warnings =
      if p = s.reporter r name then (s.remark? r name).toList else [] := by
  cases hd : r.find? name with
  | none =>
    simp only [ofReference, ApiSet.reporter, ApiSet.remark?, Registry.isCommand, hd]
    cases p <;> rfl
  | some d =>
    have hreports := Pass.accepts_and_warns_iff (p := p) (s := s) hd
    rw [ApiSet.remark?_of_some hd]
    by_cases haccepts : p.accepts d
    · rw [warnings_ofReference_of_accepts hd haccepts]
      grind
    · have hsilent : (ofReference r s t p name).warnings = [] := by
        simp [ofReference, hd, haccepts]
      grind

/-! ### Warnings of a set -/

theorem Requirement.warnings_section {req : Requirement} {sec : Section}
    (h : (req.section r s t p).result = .ok sec) :
    (req.section r s t p).warnings =
      req.names.flatMap fun name => (Block.ofReference r s t p name).warnings := by
  obtain ⟨blocks, hblocks, -⟩ := Logged.result_bind_eq_ok.1 h
  rw [Requirement.section, Logged.warnings_bind hblocks, Logged.warnings_traverse hblocks]
  simp

/-- A pass warns of the references that it reports, in order. -/
theorem ApiSet.warnings_sections {sections : List Section}
    (h : (s.sections r t p).result = .ok sections) :
    (s.sections r t p).warnings =
      s.remarks r ((s.targeted t).filter (p = s.reporter r ·)) := by
  have hsection : ∀ req ∈ s.requirements.filter (·.appliesTo t.apis),
      (req.section r s t p).warnings =
        req.names.flatMap fun name => (Block.ofReference r s t p name).warnings := by
    intro req hreq
    obtain ⟨sec, hsec⟩ := Logged.exists_of_traverse h hreq
    exact Requirement.warnings_section hsec
  calc
    _ = (s.requirements.filter (·.appliesTo t.apis)).flatMap
          fun req => (req.section r s t p).warnings := Logged.warnings_traverse h
    _ = (s.targeted t).flatMap fun name => (Block.ofReference r s t p name).warnings := by
      rw [List.flatMap_congr hsection, targeted, List.flatMap_assoc]
    _ = _ := by
      rw [remarks, List.filterMap_filter, List.filterMap_eq_flatMap_toList]
      refine List.flatMap_congr fun name _ => ?_
      rw [Block.warnings_ofReference]
      by_cases hp : p = s.reporter r name <;> simp [hp]

/-- Only the first two passes warn, the first one of all that is not about commands. -/
theorem ApiSet.warnings_items {items : List Item} (h : (s.items r t).result = .ok items) :
    (s.items r t).warnings =
      s.remarks r ((s.targeted t).filter (!r.isCommand ·))
        ++ s.remarks r ((s.targeted t).filter r.isCommand) := by
  obtain ⟨passes, hpasses, -⟩ := Logged.result_bind_eq_ok.1 h
  have hpass : ∀ p ∈ Pass.order s.kind,
      (do return p.items s.kind (← s.sections r t p) : Logged (List Item)).warnings =
        s.remarks r ((s.targeted t).filter (p = s.reporter r ·)) := by
    intro p hp
    obtain ⟨sections, hsec⟩ := sections_of_items h hp
    rw [Logged.warnings_bind hsec, warnings_sections hsec]
    simp
  have hfilter (p : Pass) (q : String → Bool) (hq : ∀ name, p = s.reporter r name ↔ q name) :
      (s.targeted t).filter (p = s.reporter r ·) = (s.targeted t).filter q :=
    List.filter_congr fun name _ => by simp [hq]
  have htypes := hfilter .types (!r.isCommand ·) fun name => by
    rw [reporter]
    cases r.isCommand name <;> cases s.kind <;> decide
  have hleading := hfilter (.leading s.kind) r.isCommand fun name => by
    rw [reporter]
    cases r.isCommand name <;> cases s.kind <;> decide
  have htrailing := hfilter (.trailing s.kind) (fun _ => false) fun name => by
    rw [reporter]
    cases r.isCommand name <;> cases s.kind <;> decide
  rw [ApiSet.items, Logged.warnings_bind hpasses, Logged.warnings_traverse hpasses,
    List.flatMap_congr hpass, Pass.order]
  simp [htypes, hleading, htrailing, remarks]

/-- A set that is rendered into its target warns once of every occurrence of a name that has no
declaration, or one that another set has written, in a requirement that applies to the target. The
warnings about commands come last, and otherwise they are in order. -/
theorem warned_once {st : Rendering σ} {guard : Bool} {lines : List String}
    (h : (st.renderInline s t guard).1 = .ok lines) :
    let r := st.registry
    let others := (s.targeted t).filter (!r.isCommand ·)
    let commands := (s.targeted t).filter r.isCommand
    (st.renderInline s t guard).2.warnings =
        st.warnings ++ (s.remarks r others ++ s.remarks r commands) ∧
      (s.remarks r others ++ s.remarks r commands).Perm (s.remarks r (s.targeted t)) := by
  intro r others commands
  rw [Rendering.renderInline_fst, mapError_eq_ok] at h
  obtain ⟨items, hitems, -⟩ := ApiSet.inlineLines_eq_ok h
  have hlines : (s.inlineLines r t guard).warnings = (s.items r t).warnings := by
    rw [ApiSet.inlineLines, Logged.warnings_bind hitems]
    exact List.append_nil _
  constructor
  · rw [← ApiSet.warnings_items hitems, ← hlines]
    simp only [Rendering.renderInline, h, r]
  · have hsplit : (commands ++ others).Perm (s.targeted t) := List.filter_append_perm r.isCommand _
    have hremarks := (List.perm_append_comm.trans hsplit).filterMap (s.remark? r)
    rwa [List.filterMap_append] at hremarks

/-- Each occurrence is warned about once, that of the command last. -/
theorem borrowed_warned_once :
    let st : Rendering (List NamedFile) :=
      { registry := lendingRegistry, produced := [], imports := [], sink := [], warnings := [] }
    let rendered := st.renderInline borrowingFeature (Target.of ⟨"al.h"⟩ ["al"] .header) true
    ∃ lines, rendered.1 = .ok lines ∧
      rendered.2.warnings = [
        .unavailable "alMissing" "B", .alreadyWritten "AL_N" "B" "A", .unavailable "alMissing" "B",
        .alreadyWritten "alPlay" "B" "A"] := by
  intro st rendered
  obtain ⟨lines, h⟩ : ∃ lines, rendered.1 = .ok lines := ⟨_, rfl⟩
  exact ⟨lines, h, (warned_once h).1.trans (by decide)⟩

end ApiHeaders
