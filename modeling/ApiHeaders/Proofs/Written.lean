import ApiHeaders.Proofs.Blocks
import ApiHeaders.Renderer

/-!
# What counts as written

A registry remembers for each name the set that last wrote it. Here this memory is compared with
what was rendered: the sets that were written since the last reset, in order, whether the call
that wrote them succeeded in the end or not.

## Main definitions

* `Writing` is a set that was written into a target, with all its passes.
* `Call` is a call of the renderer on a registry, `Call.writing?` the set that it writes.
* `Registry.Use` is a call or a reset, `Registry.history` what was written since the last reset.
* `lastWriter` is the last set among several that refers to a name.

## Main statements

* `Rendering.registry_renderWithin` says what rendering a set does to the registry.
* `written_state_law` says what the memory of a registry holds after any uses of it, and what this
  means for a set that is rendered then.
-/

namespace ApiHeaders

variable {σ : Type} {r : Registry} {s : ApiSet} {t : Target} {name : String}

/-- The lines of a set are those of its parts between the opening and the closing. -/
theorem ApiSet.result_inlineLines (guard : Bool) :
    (s.inlineLines r t guard).result = (s.items r t).result.map fun items =>
      s.opening r guard ++ items.flatMap Item.lines ++ s.closing guard := by
  unfold inlineLines
  rw [Logged.result_bind]
  cases (s.items r t).result <;> rfl

namespace Rendering

/-- The target that a set ends up in when it is rendered into `t`: `t` itself, or the last of the
satellites that are extracted from one another. There is none if one cannot be reserved. -/
def destination (st : Rendering σ) (s : ApiSet) : Nat → Target → Option Target
  | fuel, t =>
    match s.annexFrom? t with
    | none => some t
    | some annex =>
      match fuel with
      | 0 => none
      | fuel + 1 =>
        match st.reserve t annex with
        | .error _ => none
        | .ok st => destination st s fuel (t.satellite annex (s.headers st.registry))

/-- Reserving a file changes nothing but the list of files. -/
theorem eq_of_reserve {st st' : Rendering σ} {annex : String} (h : st.reserve t annex = .ok st') :
    st' = { st with produced := st'.produced } := by
  simp only [reserve] at h
  split at h
  · cases h
  · split at h
    · cases h
    · cases h
      rfl

theorem destination_of_annex {st st' : Rendering σ} {annex : String} (fuel : Nat)
    (ha : s.annexFrom? t = some annex) (hst : st.reserve t annex = .ok st') :
    st.destination s (fuel + 1) t
      = st'.destination s fuel (t.satellite annex (s.headers st.registry)) := by
  rw [destination, ha]
  simp only [hst]
  rw [eq_of_reserve hst]

theorem renderInline_fst (st : Rendering σ) (s : ApiSet) (t : Target) (guard : Bool) :
    (st.renderInline s t guard).1 =
      (s.inlineLines st.registry t guard).result.mapError .raised := by
  simp only [renderInline]
  cases (s.inlineLines st.registry t guard).result <;> rfl

/-- What a rendering into a target does to the registry. -/
theorem registry_renderInline (st : Rendering σ) (s : ApiSet) (t : Target) (guard : Bool) :
    (st.renderInline s t guard).2.registry =
      match (s.items st.registry t).result.toOption with
      | some _ => st.registry.markWritten s
      | none => st.registry := by
  simp only [renderInline, s.result_inlineLines]
  cases (s.items st.registry t).result <;> rfl

theorem registry_refer (st : Rendering σ) (s : ApiSet) (t satellite : Target) (guard : Bool) :
    (st.refer s t satellite guard).2.registry = st.registry := by
  unfold refer
  split <;> rfl

/-- Rendering a set changes the registry exactly if all passes over the set come to their end. -/
theorem registry_renderWithin (sink : Sink σ) (b : Boilerplate) (guard : Bool) (s : ApiSet)
    (fuel : Nat) (t : Target) (st : Rendering σ) :
    (renderWithin sink b guard s fuel t st).2.registry =
      match (st.destination s fuel t).bind fun t' => (s.items st.registry t').result.toOption with
      | some _ => st.registry.markWritten s
      | none => st.registry := by
  fun_induction renderWithin sink b guard s fuel t st with
  | case1 fuel t st ha =>
    rw [registry_renderInline, destination, ha]
    rfl
  | case2 t st annex ha => simp [destination, ha]
  | case3 t st annex ha fuel e hst => simp [destination, ha, hst]
  | case4 t st annex ha fuel st₁ hst satellite e st₂ hinner ih =>
    have hr : st₁.registry = st.registry := by rw [eq_of_reserve hst]
    rw [destination_of_annex fuel ha hst, ← hr]
    simpa [hinner] using ih
  | case5 t st annex ha fuel st₁ hst satellite content st₂ hinner e written hwrite ih =>
    have hr : st₁.registry = st.registry := by rw [eq_of_reserve hst]
    rw [destination_of_annex fuel ha hst, ← hr]
    simpa [hinner] using ih
  | case6 t st annex ha fuel st₁ hst satellite content st₂ hinner written hwrite lines st₃ hrefer
      ih =>
    have hr : st₁.registry = st.registry := by rw [eq_of_reserve hst]
    rw [destination_of_annex fuel ha hst, ← hr]
    have href := registry_refer { st₂ with sink := written } s t satellite guard
    rw [hrefer] at href
    rw [hinner] at ih
    exact href.trans ih

/-- A set that is rendered without failing is written into its destination: its lines are what
rendering returns, or the contents of a file that the sink has taken. -/
theorem written_of_renderWithin (sink : Sink σ) (b : Boilerplate) (guard : Bool) (s : ApiSet)
    (fuel : Nat) (t : Target) (st : Rendering σ) :
    ∀ lines, (renderWithin sink b guard s fuel t st).1 = .ok lines →
      ∃ t' content, st.destination s fuel t = some t' ∧
        (s.inlineLines st.registry t' guard).result = .ok content ∧
        (t' = t ∧ lines = content ∨
          ∃ state, (sink.write state t'.path (t'.file b content)).1 = .ok ()) := by
  fun_induction renderWithin sink b guard s fuel t st with
  | case1 fuel t st ha =>
    intro lines h
    rw [renderInline_fst] at h
    exact ⟨t, lines, by rw [destination, ha], mapError_eq_ok.1 h, .inl ⟨rfl, rfl⟩⟩
  | case2 => nofun
  | case3 => nofun
  | case4 => nofun
  | case5 => nofun
  | case6 t st annex ha fuel st₁ hst satellite content st₂ hinner written hwrite lines' st₃ hrefer
      ih =>
    intro lines h
    have hr : st₁.registry = st.registry := by rw [eq_of_reserve hst]
    obtain ⟨t', content', hdest, hlines, hout⟩ := ih content (by rw [hinner])
    rw [destination_of_annex fuel ha hst, ← hr]
    refine ⟨t', content', hdest, hlines, .inr ?_⟩
    rcases hout with ⟨rfl, rfl⟩ | htaken
    · exact ⟨st₂.sink, by rw [hwrite]⟩
    · exact htaken

end Rendering

/-! ### Calls -/

/-- A set that was written into a target, with all its passes. -/
structure Writing where
  set : ApiSet
  target : Target
  /-- The registry right before. -/
  registry : Registry

/-- A call of the renderer on a registry. -/
structure Call where
  {State : Type}
  sink : Sink State
  boilerplate : Boilerplate
  /-- What is rendered on. Its registry gives way to the one that the call is made on. -/
  context : Rendering State
  name : String
  target : Target
  guard : Bool

namespace Call

def start (c : Call) (r : Registry) : Rendering c.State := { c.context with registry := r }

def run (c : Call) (r : Registry) : Except Failure (List String) × Rendering c.State :=
  (c.start r).render c.sink c.boilerplate c.name c.target c.guard

/-- The target that a set ends up in. -/
def destination? (c : Call) (r : Registry) (s : ApiSet) : Option Target :=
  (c.start r).destination s (Rendering.extractionLimit c.context.produced c.target) c.target

/-- What a call writes. It writes nothing if there is no such set, if a file for it cannot be
reserved, or if a pass fails. -/
def writing? (c : Call) (r : Registry) : Option Writing := do
  let s ← r.set? c.name
  let t ← c.destination? r s
  let _ ← (s.items r t).result.toOption
  return ⟨s, t, r⟩

/-- A call brings out what is written: the lines are what it returns, or the contents of a file
that its sink has taken. -/
def Emits (c : Call) (r : Registry) (w : Writing) : Prop :=
  w.registry = r ∧ ∃ content, (w.set.inlineLines r w.target c.guard).result = .ok content ∧
    (w.target = c.target ∧ (c.run r).1 = .ok content ∨
      ∃ state, (c.sink.write state w.target.path (w.target.file c.boilerplate content)).1 = .ok ())

theorem run_of_none {c : Call} (hs : r.set? c.name = none) :
    c.run r = (.error (.raised (.unknownSet c.name c.target.path)), c.start r) := by
  simp [run, Rendering.render, start, hs]

theorem run_of_some {c : Call} (hs : r.set? c.name = some s) :
    c.run r = Rendering.renderWithin c.sink c.boilerplate c.guard s
      (Rendering.extractionLimit c.context.produced c.target) c.target (c.start r) := by
  simp [run, Rendering.render, Rendering.renderSet, start, hs]

/-- A call changes the registry exactly if it writes a set. -/
theorem registry_run (c : Call) (r : Registry) :
    (c.run r).2.registry =
      match c.writing? r with
      | some w => r.markWritten w.set
      | none => r := by
  cases hs : r.set? c.name with
  | none => simp [run_of_none hs, writing?, hs, start]
  | some s =>
    rw [run_of_some hs, Rendering.registry_renderWithin, ← destination?]
    simp only [writing?, hs, Option.bind_eq_bind, Option.bind_some]
    cases c.destination? r s with
    | none => rfl
    | some t =>
      simp only [start, Option.bind_some]
      cases (s.items r t).result <;> rfl

/-- A call that succeeds has written a set. -/
theorem emits_of_run {c : Call} {lines : List String} (h : (c.run r).1 = .ok lines) :
    ∃ w, c.writing? r = some w ∧ c.Emits r w := by
  cases hs : r.set? c.name with
  | none =>
    rw [run_of_none hs] at h
    cases h
  | some s =>
    have hrun := h
    rw [run_of_some hs] at h
    obtain ⟨t, content, hdest, hlines, hout⟩ := Rendering.written_of_renderWithin _ _ _ _ _ _ _ _ h
    change c.destination? r s = some t at hdest
    change (s.inlineLines r t c.guard).result = _ at hlines
    obtain ⟨items, hitems, -⟩ := map_eq_ok.1 (ApiSet.result_inlineLines c.guard ▸ hlines)
    refine ⟨⟨s, t, r⟩, by simp [writing?, hs, hdest, hitems, Except.toOption], rfl, content,
      hlines, ?_⟩
    rcases hout with ⟨rfl, rfl⟩ | htaken
    · exact .inl ⟨rfl, hrun⟩
    · exact .inr htaken

end Call

/-! ### Uses of a registry -/

/-- Something that is done with a registry. -/
inductive Registry.Use where
  | render (call : Call)
  | reset

def Registry.Use.isReset : Use → Bool
  | render _ => false
  | reset => true

/-- The last set among several writings that refers to a name. -/
def lastWriter (ws : List Writing) (name : String) : Option String :=
  (ws.reverse.find? (name ∈ ·.set.references)).map (·.set.name)

@[simp] theorem lastWriter_nil (name : String) : lastWriter [] name = none := rfl

@[simp] theorem lastWriter_concat (ws : List Writing) (w : Writing) (name : String) :
    lastWriter (ws ++ [w]) name =
      if name ∈ w.set.references then some w.set.name else lastWriter ws name := by
  by_cases h : name ∈ w.set.references <;> simp [lastWriter, h]

namespace Registry

/-- A registry after one use. -/
def use (r : Registry) : Use → Registry
  | .render c => (c.run r).2.registry
  | .reset => r.resetWritten

/-- A registry after several uses. -/
def after (r : Registry) (uses : List Use) : Registry := uses.foldl use r

/-- What was written since the last reset, in order, if it was `ws` before the given uses. -/
def history (r : Registry) (ws : List Writing) : List Use → List Writing
  | [] => ws
  | .render c :: uses => (r.use (.render c)).history (ws ++ (c.writing? r).toList) uses
  | .reset :: uses => (r.use .reset).history [] uses

@[simp] theorem after_nil (r : Registry) : r.after [] = r := rfl

@[simp] theorem after_cons (r : Registry) (u : Use) (uses : List Use) :
    r.after (u :: uses) = (r.use u).after uses := rfl

/-- A use changes nothing but the memory. -/
theorem use_eq (r : Registry) (u : Use) : r.use u = { r with written := (r.use u).written } := by
  cases u with
  | reset => rfl
  | render c =>
    simp only [use, Call.registry_run]
    split <;> rfl

theorem after_eq (r : Registry) (uses : List Use) :
    r.after uses = { r with written := (r.after uses).written } := by
  induction uses generalizing r with
  | nil => rfl
  | cons u uses ih =>
    rw [after_cons, ih (r.use u), use_eq r u]

/-- The memory of a registry names the last of the sets that were written, and otherwise what it
named before. -/
theorem writtenBy?_after (start : String → Option String) (ws : List Writing) (r : Registry)
    (h : ∀ name, r.writtenBy? name = (lastWriter ws name).or (start name)) (uses : List Use)
    (name : String) :
    (r.after uses).writtenBy? name =
      (lastWriter (r.history ws uses) name).or
        (if uses.any Use.isReset then none else start name) := by
  induction uses generalizing r ws start with
  | nil => simpa [history] using h name
  | cons u uses ih =>
    rw [after_cons]
    cases u with
    | reset =>
      rw [ih (fun _ => none) [] _ (by simp [use])]
      simp [history, Use.isReset]
    | render c =>
      rw [ih start (ws ++ (c.writing? r).toList) _ ?_]
      · simp [history, Use.isReset]
      · intro n
        simp only [use, Call.registry_run]
        cases c.writing? r with
        | none => simpa using h n
        | some w =>
          simp only [writtenBy?_markWritten, Option.toList_some, lastWriter_concat, h n]
          split <;> rfl

end Registry

/-! ### The law -/

/-- How the memory of a registry decides about a block: it is commented out exactly if `last` is a
set other than `s`, and has the lines of the declaration or of its bare form accordingly. -/
def Block.Follows (b : Block) (last : Option String) (s : ApiSet) (r : Registry) (t : Target)
    (p : Pass) (name : String) : Prop :=
  r.find? name = some b.declaration ∧
    (b.isLive = false ↔ ∃ w, last = some w ∧ w ≠ s.name) ∧
    ∃ text,
      if b.isLive then
        b.declaration.render (decide (p = .pointers)) r t = .ok text ∧ b.lines = Text.lines text
      else
        b.declaration.withoutDoc.render (decide (p = .pointers)) r t = .ok text ∧
          b.lines = suppressed text

theorem Block.follows_of_mem_emissions {p : Pass} {b : Block}
    (h : (name, b) ∈ s.emissions r t p) :
    b.Follows (r.writtenBy? name) s r t p name := by
  obtain ⟨d, hd, hb⟩ := ApiSet.writes_of_mem_emissions h
  obtain ⟨text, htext, rfl⟩ := Block.of_eq_ok.1 hb
  have hfind := (Option.filter_eq_some_iff.1 (ApiSet.mem_resolved.1 hd).2).1
  refine ⟨hfind, ?_, text, ?_⟩
  · cases hw : r.writtenBy? name with
    | none => simp [isLive, Registry.otherWriter?, hw]
    | some w => by_cases hs : w = s.name <;> simp [isLive, Registry.otherWriter?, hw, hs]
  · cases hw : r.otherWriter? s name with
    | none => simpa [isLive, hw] using htext
    | some w => simpa [isLive, hw] using htext

/-- After any uses of a registry, successful or not, its tables are what they were, and it names as
the writer of a name the last set since the last reset that refers to it, among those whose passes
all came to their end. A set that is rendered then writes every reference that resolves, commented
out exactly if that last set exists and is another one, which is the same in all passes. -/
theorem written_state_law (r : Registry) (uses : List Registry.Use) :
    let r' := r.after uses
    let last name := (lastWriter (r.history [] uses) name).or
      (if uses.any (·.isReset) then none else r.writtenBy? name)
    r' = { r with written := r'.written } ∧
    (∀ name, r'.writtenBy? name = last name) ∧
    (∀ (c : Call) (lines : List String), (c.run r').1 = .ok lines →
      ∃ w, c.writing? r' = some w ∧ c.Emits r' w) ∧
    (∀ (s : ApiSet) (t : Target) (items : List Item), (s.items r' t).result = .ok items →
      (items.filterMap Item.block? =
        (Pass.order s.kind).flatMap fun p => (s.emissions r' t p).map Prod.snd) ∧
      ∀ p ∈ Pass.order s.kind,
        (s.emissions r' t p).map Prod.fst = (s.resolved r' t p).map Prod.fst) ∧
    (∀ (s : ApiSet) (t : Target) (p : Pass) (name : String) (b : Block),
      (name, b) ∈ s.emissions r' t p → b.Follows (last name) s r' t p name) ∧
    ∀ (s : ApiSet) (t : Target) (p q : Pass) (name : String) (b c : Block),
      (name, b) ∈ s.emissions r' t p → (name, c) ∈ s.emissions r' t q → b.isLive = c.isLive := by
  intro r' last
  have hlast : ∀ name, r'.writtenBy? name = last name :=
    Registry.writtenBy?_after r.writtenBy? [] r (by simp) uses
  have hfollows : ∀ (s : ApiSet) (t : Target) (p : Pass) (name : String) (b : Block),
      (name, b) ∈ s.emissions r' t p → b.Follows (last name) s r' t p name :=
    fun s t p name b h => hlast name ▸ Block.follows_of_mem_emissions h
  refine ⟨r.after_eq uses, hlast, fun c lines h => Call.emits_of_run h, ?_, hfollows, ?_⟩
  · intro s t items h
    refine ⟨ApiSet.blocks_items h, ?_⟩
    intro p hp
    obtain ⟨sections, hsec⟩ := ApiSet.sections_of_items h hp
    exact ApiSet.map_fst_emissions hsec
  · intro s t p q name b c hb hc
    have hiff := (hfollows s t p name b hb).2.1.trans (hfollows s t q name c hc).2.1.symm
    cases hlive : b.isLive <;> cases hlive' : c.isLive <;> simp_all

/-- A set that requires the constant `AL_N`, for one API family or for all. -/
def requiringConstant (name : String) (api : Option String) : ApiSet where
  kind := .feature
  name
  apis := ["al"]
  requirements := [{ names := ["AL_N"], api }]
  annex := none
  doc := none

/-- A registry in which the sets `A` and `B` require the same constant, `A` perhaps for one API
family only. -/
def sharedConstant (api : Option String) : Registry :=
  let constant : Enumerant :=
    { name := "AL_N", value := "1", property := none, groups := [], doc := none, deprecated := none }
  (({} : Registry).insert (.enumerant constant)).insertSet (requiringConstant "A" api)
    |>.insertSet (requiringConstant "B" none)

/-- Renders a set into the header `al.h`. -/
def intoHeader (name : String) : Call where
  sink := recorder []
  boilerplate := {}
  context := { registry := {}, produced := [], imports := [], sink := [], warnings := [] }
  name
  target := Target.of ⟨"al.h"⟩ ["al"] .header
  guard := true

/-- A constant that two sets require counts as written by the second one, until the reset. -/
theorem written_state_of_shared_constant :
    let r := sharedConstant none
    let uses := [.render (intoHeader "A"), .render (intoHeader "B")]
    (r.after uses).writtenBy? "AL_N" = some "B" ∧
      (r.after (uses ++ [.reset])).writtenBy? "AL_N" = none :=
  ⟨(written_state_law _ _).2.1 "AL_N", (written_state_law _ _).2.1 "AL_N"⟩

end ApiHeaders
