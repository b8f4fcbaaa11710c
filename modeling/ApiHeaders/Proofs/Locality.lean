import ApiHeaders.Proofs.Resemblance

/-!
# What a set takes from its registry

The lines of a set show the declarations that it refers to, the groups that these name as their
ranges, the widths of their namespaces and the sets that have written them before. Whatever else a
registry holds can be added or replaced without a trace in the set.

## Main definitions

* `Registry.AlikeFor` says that two registries hold the same of what a set refers to.
* `Registry.Item.Spares` says that something new in a registry is not among that.

## Main statements

* `ApiSet.inlineLines_local` says what the lines of a set depend on.
* `rendering_local` says the same of rendering the set, with all that it leaves behind.
-/

namespace ApiHeaders

variable {r r' : Registry} {s : ApiSet} {t : Target} {p : Pass} {name : String} {d : Declaration}
  {guard pointer : Bool}

/-! ### Declarations -/

/-- The items of an enumerant's range, each of which may name a group. -/
def Enumerant.rangeItems (e : Enumerant) : List String :=
  match e.property.bind (·.range) with
  | none => []
  | some range => (Text.pieces ',' range).map Text.trimmed

namespace Registry

/-- Two registries hold the same of what the text of a declaration refers to. -/
structure AlikeAt (d : Declaration) (r r' : Registry) : Prop where
  groups : ∀ e, d = .enumerant e → ∀ group ∈ e.rangeItems, r'.group? group = r.group? group
  widths : ∀ c, d = .command c → r'.returnWidth c.scope = r.returnWidth c.scope

theorem AlikeAt.withoutDoc (h : r.AlikeAt d r') : r.AlikeAt d.withoutDoc r' where
  groups e he := by
    cases d <;> cases he
    case enumerant e => exact h.groups e rfl
  widths c hc := by
    cases d <;> cases hc
    case command c => exact h.widths c rfl

end Registry

namespace Doc

variable {groups groups' : Table String (List String)}

/-- The values of a range depend on the groups that its items name. -/
theorem rangeValues_congr {range : String}
    (h : ∀ item ∈ (Text.pieces ',' range).map Text.trimmed, groups'.get? item = groups.get? item) :
    rangeValues groups' range = rangeValues groups range := by
  unfold rangeValues
  apply List.flatMap_congr
  intro item hitem
  rw [h item hitem]

theorem render_congr {property : Option Property}
    (h : ∀ range, property.bind (·.range) = some range →
      rangeValues groups' range = rangeValues groups range) (doc : Option (List String)) :
    render groups' property doc = render groups property doc := by
  have hproperty : property.map (propertyLines groups') = property.map (propertyLines groups) := by
    cases property with
    | none => rfl
    | some p =>
      have hrange : p.range.map (rangeLines groups' (labelColumns p)) =
          p.range.map (rangeLines groups (labelColumns p)) := by
        cases hrange : p.range with
        | none => rfl
        | some range => simp only [Option.map_some, rangeLines, h range hrange]
      simp only [Option.map_some, propertyLines, hrange]
  have hlines (doc : List String) : lines groups' property doc = lines groups property doc := by
    cases doc with
    | nil => rfl
    | cons first rest => simp only [lines, hproperty]
  rw [render, render, hlines]

/-- Without a property, documentation does not refer to groups. -/
theorem render_none (groups groups' : Table String (List String)) (doc : Option (List String)) :
    render groups' none doc = render groups none doc := by
  apply render_congr
  rintro range ⟨⟩

end Doc

/-- The text of a declaration depends on the groups of its range and the width of its
namespace. -/
theorem Declaration.render_local (h : r.AlikeAt d r') :
    d.render pointer r' t = d.render pointer r t := by
  cases d with
  | command c =>
    have hprototype : c.prototype r' t = c.prototype r t := by
      rw [Command.prototype, Doc.render_none r.groups]
      rfl
    have hpointer : c.pointerType r' t.form = c.pointerType r t.form := by
      unfold Command.pointerType
      rw [h.widths c rfl]
    simp only [render, hprototype, hpointer]
  | enumerant e =>
    have hdoc : Doc.render r'.groups e.property e.doc = Doc.render r.groups e.property e.doc := by
      apply Doc.render_congr
      intro range hrange
      apply Doc.rangeValues_congr
      intro item hitem
      apply h.groups e rfl
      rwa [Enumerant.rangeItems, hrange]
    simp only [render, Enumerant.render, hdoc]
  | typedef d => simp only [render, Typedef.render, Doc.render_none r.groups r'.groups]
  | verbatim v => simp only [render, Verbatim.render, Doc.render_none r.groups r'.groups]
  | header name => rfl

/-! ### Sets -/

/-- Two registries hold the same of what a set refers to. -/
structure Registry.AlikeFor (s : ApiSet) (r r' : Registry) : Prop where
  declarations : ∀ name ∈ s.references, r'.find? name = r.find? name
  groups : ∀ name ∈ s.references, ∀ e, r.find? name = some (.enumerant e) →
    ∀ group ∈ e.rangeItems, r'.group? group = r.group? group
  widths : ∀ name ∈ s.references, ∀ c, r.find? name = some (.command c) →
    r'.returnWidth c.scope = r.returnWidth c.scope
  memory : ∀ name ∈ s.references, r'.writtenBy? name = r.writtenBy? name

namespace Registry.AlikeFor

theorem refl (s : ApiSet) (r : Registry) : r.AlikeFor s r :=
  ⟨fun _ _ => rfl, fun _ _ _ _ _ _ => rfl, fun _ _ _ _ => rfl, fun _ _ => rfl⟩

theorem alikeAt (h : r.AlikeFor s r') (hname : name ∈ s.references) (hd : r.find? name = some d) :
    r.AlikeAt d r' := by
  refine ⟨?_, ?_⟩
  · rintro e rfl
    exact h.groups name hname e hd
  · rintro c rfl
    exact h.widths name hname c hd

theorem markWritten (h : r.AlikeFor s r') {w w' : ApiSet} (hname : w'.name = w.name)
    (hrefs : ∀ name ∈ s.references, name ∈ w'.references ↔ name ∈ w.references) :
    (r.markWritten w).AlikeFor s (r'.markWritten w') where
  declarations := h.declarations
  groups := h.groups
  widths := h.widths
  memory name hs := by
    simp only [writtenBy?_markWritten, hname, hrefs name hs, h.memory name hs]

end Registry.AlikeFor

/-- The block of a reference depends on what the registry holds of it. -/
theorem Block.ofReference_local (h : r.AlikeFor s r') (hname : name ∈ s.references) :
    ofReference r' s t p name = ofReference r s t p name := by
  have hwriter : r'.otherWriter? s name = r.otherWriter? s name := by
    rw [Registry.otherWriter?, Registry.otherWriter?, h.memory name hname]
  rw [ofReference, ofReference, h.declarations name hname, hwriter]
  cases hd : r.find? name with
  | none => rfl
  | some d =>
    have hat := h.alikeAt hname hd
    have hof (writer : Option String) : of r' t p writer d = of r t p writer d := by
      simp only [of, Declaration.render_local hat, Declaration.render_local hat.withoutDoc]
    simp only [hof]

theorem Logged.traverse_congr {α β : Type} {f g : α → Logged β} {as : List α}
    (h : ∀ a ∈ as, f a = g a) : traverse f as = traverse g as := by
  induction as with
  | nil => rfl
  | cons a as ih =>
    rw [traverse, traverse, h a List.mem_cons_self,
      ih fun b hb => h b (List.mem_cons_of_mem a hb)]

namespace ApiSet

theorem items_local (h : r.AlikeFor s r') : s.items r' t = s.items r t := by
  have hsections (p : Pass) : s.sections r' t p = s.sections r t p := by
    apply Logged.traverse_congr
    intro req hreq
    have hblocks : Logged.traverse (Block.ofReference r' s t p) req.names =
        Logged.traverse (Block.ofReference r s t p) req.names := by
      apply Logged.traverse_congr
      intro name hname
      apply Block.ofReference_local h
      exact List.mem_flatMap.2 ⟨req, List.mem_of_mem_filter hreq, hname⟩
    rw [Requirement.section, hblocks]
    rfl
  simp only [items, hsections]

/-- What opens a set does not depend on the registry. -/
theorem opening_eq (s : ApiSet) (r r' : Registry) (guard : Bool) :
    s.opening r' guard = s.opening r guard := by
  rw [opening, Doc.render_none r.groups]
  rfl

theorem referenceLines_eq (s : ApiSet) (r r' : Registry) (guard : Bool) (reference : String) :
    s.referenceLines r' guard reference = s.referenceLines r guard reference := by
  rw [referenceLines, s.opening_eq r]
  rfl

/-- The lines of a set depend on what the registry holds of what the set refers to. -/
theorem inlineLines_local (h : r.AlikeFor s r') :
    s.inlineLines r' t guard = s.inlineLines r t guard := by
  rw [inlineLines, items_local h, s.opening_eq r r']
  rfl

theorem headers_local (h : ∀ name ∈ s.references, r'.find? name = r.find? name) :
    s.headers r' = s.headers r := by
  unfold headers
  congr 1
  apply List.filterMap_congr
  intro name hname
  rw [h name hname]

end ApiSet

/-! ### Additions to a registry -/

/-- Something new for a registry that is none of what a set refers to: not a declaration of a name
that it lists, not a return type wider than those of a namespace that its commands are in, not a
set of its name, and not a member of a group that its ranges name. -/
def Registry.Item.Spares (name : String) (s : ApiSet) (r : Registry) : Item → Prop
  | .declaration d =>
    d.name ∉ s.references ∧ ∀ c, d = .command c → ∀ n ∈ s.references, ∀ c',
      r.find? n = some (.command c') → c'.scope = c.scope →
      c.returnType.utf8ByteSize ≤ r.returnWidth c.scope
  | .set s' => s'.name ≠ name
  | .member group _ =>
    ∀ n ∈ s.references, ∀ e, r.find? n = some (.enumerant e) → group ∉ e.rangeItems
  | .skipped _ => True

namespace Registry

theorem returnWidth_insert (r : Registry) (d : Declaration) (scope : String) :
    (r.insert d).returnWidth scope =
      match d with
      | .command c =>
        if c.scope = scope then max (r.returnWidth c.scope) c.returnType.utf8ByteSize
        else r.returnWidth scope
      | _ => r.returnWidth scope := by
  cases d with
  | command c =>
    simp only [insert, returnWidth, widen, Table.get?_upsert]
    split <;> rfl
  | _ => rfl

/-- What spares a set can be taken up without a change to what the set refers to. -/
theorem AlikeFor.take {item : Item} (h : r.AlikeFor s r') (hitem : item.Spares name s r) :
    r.AlikeFor s (r'.take item) := by
  cases item with
  | declaration d =>
    obtain ⟨hd, hwidth⟩ := hitem
    refine ⟨?_, h.groups, ?_, h.memory⟩
    · intro n hn
      have hne : d.name ≠ n := fun heq => hd (heq ▸ hn)
      have hfind : (r'.insert d).find? n = r'.find? n := by
        simp only [insert, find?, Table.get?_insert, if_neg hne]
      exact hfind.trans (h.declarations n hn)
    · intro n hn c' hc'
      refine (r'.returnWidth_insert d c'.scope).trans ?_
      cases d with
      | command c =>
        simp only
        split
        · next hscope =>
          have hle := hwidth c rfl n hn c' hc' hscope.symm
          rw [hscope] at hle ⊢
          rw [h.widths n hn c' hc', Nat.max_eq_left hle]
        · exact h.widths n hn c' hc'
      | _ => exact h.widths n hn c' hc'
  | set s' => exact ⟨h.declarations, h.groups, h.widths, h.memory⟩
  | member group m =>
    refine ⟨h.declarations, ?_, h.widths, h.memory⟩
    intro n hn e he item hmem
    have hne : group ≠ item := fun heq => hitem n hn e he (heq ▸ hmem)
    have hgroup : (r'.addMember group m).group? item = r'.group? item := by
      simp only [addMember, group?, Table.get?_upsert, if_neg hne]
    exact hgroup.trans (h.groups n hn e he item hmem)
  | skipped w => exact h

theorem set?_take {item : Item} (hitem : item.Spares name s r) :
    (r'.take item).set? name = r'.set? name := by
  cases item with
  | set s' =>
    have hne : s'.name ≠ name := hitem
    simp only [take, insertSet, set?, Table.get?_insert, if_neg hne]
  | _ => rfl

theorem AlikeFor.takeAll {items : List Item} (h : r.AlikeFor s r')
    (hitems : ∀ item ∈ items, item.Spares name s r) :
    r.AlikeFor s (r'.takeAll items).1 ∧ (r'.takeAll items).1.set? name = r'.set? name := by
  induction items generalizing r' with
  | nil => exact ⟨h, rfl⟩
  | cons item items ih =>
    obtain ⟨hitem, hitems⟩ := List.forall_mem_cons.1 hitems
    obtain ⟨hall, hset⟩ := ih (h.take hitem) hitems
    exact ⟨hall, hset.trans (set?_take hitem)⟩

end Registry

/-! ### Rendering -/

namespace Rendering

variable {σ : Type} {sink : Sink σ} {b : Boilerplate} {st : Rendering σ}

/-- A rendering with another registry. -/
def withRegistry (st : Rendering σ) (r : Registry) : Rendering σ := { st with registry := r }

/-- Two outcomes of rendering a set that differ in nothing but what their registries hold beside
the set. -/
structure SameOutcome (s : ApiSet) (x y : Except Failure (List String) × Rendering σ) : Prop where
  result : y.1 = x.1
  produced : y.2.produced = x.2.produced
  imports : y.2.imports = x.2.imports
  sink : y.2.sink = x.2.sink
  warnings : y.2.warnings = x.2.warnings
  memory : ∀ name ∈ s.references, y.2.registry.writtenBy? name = x.2.registry.writtenBy? name

/-- Rendering a set resembles rendering it with a registry that holds the same of it. -/
theorem resembles_of_alikeFor (sink : Sink σ) (b : Boilerplate) (guard : Bool) (s : ApiSet) :
    Resembles (Registry.AlikeFor s) Eq Eq sink sink b b guard s s where
  name := rfl
  annex := rfl
  opening _ := s.opening_eq _ _ guard
  lines := by
    rintro r r' t _ h rfl
    exact ApiSet.inlineLines_local h
  marked h := h.markWritten rfl fun _ _ => Iff.rfl
  target := by
    rintro t _ rfl
    rfl
  satellite := by
    rintro r r' t _ a h rfl
    rw [ApiSet.headers_local h.declarations]
  taken := by
    rintro r r' t _ x _ a content h rfl rfl
    simp only [ApiSet.headers_local h.declarations]
    exact ⟨_, rfl, rfl⟩

theorem render_eq (hs : st.registry.set? name = some s) :
    st.render sink b name t guard =
      renderWithin sink b guard s (extractionLimit st.produced t) t st := by
  rw [render, hs]
  rfl

theorem render_local (hs : st.registry.set? name = some s) (hs' : r'.set? name = some s)
    (h : st.registry.AlikeFor s r') :
    SameOutcome s (st.render sink b name t guard)
      ((st.withRegistry r').render sink b name t guard) := by
  have halike : st.Alike (Registry.AlikeFor s) Eq (st.withRegistry r') := ⟨h, rfl, rfl, rfl, rfl⟩
  obtain ⟨st', hrender, hst'⟩ := renderWithin_alike (resembles_of_alikeFor sink b guard s)
    (extractionLimit st.produced t) t st t (st.withRegistry r') rfl halike
  have hset : (st.withRegistry r').registry.set? name = some s := hs'
  have hrender' : (st.withRegistry r').render sink b name t guard = _ :=
    (render_eq hset).trans hrender
  rw [hrender', render_eq hs]
  exact ⟨rfl, hst'.produced, hst'.imports, hst'.sink.symm, hst'.warnings, hst'.registry.memory⟩

end Rendering

/-- Rendering a set is local: with two registries that hold the same of what the set refers to, it
gives the same lines or the same error, hands the same files to its sink and remembers the same of
these references. So whatever else is taken up into a registry leaves no trace in the set. -/
theorem rendering_local {σ : Type} {sink : Sink σ} {st : Rendering σ}
    (hs : st.registry.set? name = some s) (b : Boilerplate) (t : Target) (guard : Bool) :
    (∀ r', r'.set? name = some s → st.registry.AlikeFor s r' →
      Rendering.SameOutcome s (st.render sink b name t guard)
        ((st.withRegistry r').render sink b name t guard)) ∧
    ∀ items : List Registry.Item, (∀ item ∈ items, item.Spares name s st.registry) →
      Rendering.SameOutcome s (st.render sink b name t guard)
        ((st.withRegistry (st.registry.takeAll items).1).render sink b name t guard) := by
  refine ⟨fun r' hs' h => Rendering.render_local hs hs' h, ?_⟩
  intro items hitems
  obtain ⟨halike, hset⟩ := (Registry.AlikeFor.refl s st.registry).takeAll hitems
  exact Rendering.render_local hs (hset.trans hs) halike

/-- Things that the set `A` does not refer to: a function, a member of a group and another set. -/
def besideConstant : List Registry.Item :=
  let command : Command :=
    { name := "alF", scope := "AL", returnType := "void", parameters := [], pointerName := "LPALF",
      exportedOn := none, noexcept := false, doc := none, deprecated := none }
  [.declaration (.command command), .member "G" "AL_N", .set (requiringConstant "C" none)]

/-- The header of a set with a constant is the same without the other set that requires it, and with
a function, a group and a third set. -/
theorem constant_rendered_locally :
    let s := requiringConstant "A" none
    let st : Rendering (List NamedFile) :=
      { registry := sharedConstant none, produced := [], imports := [], sink := [], warnings := [] }
    let r' := { sharedConstant none with sets := (∅ : Table String ApiSet).insert "A" s }
    let more := (sharedConstant none |>.takeAll besideConstant).1
    let t := Target.of ⟨"al.h"⟩ ["al"] .header
    st.registry.set? "A" = some s ∧ r'.set? "A" = some s ∧ st.registry.AlikeFor s r' ∧
      (∀ item ∈ besideConstant, item.Spares "A" s st.registry) ∧
      ((st.withRegistry r').render (recorder []) {} "A" t true).1 =
        (st.render (recorder []) {} "A" t true).1 ∧
      ((st.withRegistry more).render (recorder []) {} "A" t true).1 =
        (st.render (recorder []) {} "A" t true).1 := by
  intro s st r' more t
  have hs : st.registry.set? "A" = some s := by decide
  have hs' : r'.set? "A" = some s := by decide
  have halike : st.registry.AlikeFor s r' := by
    exact ⟨fun _ _ => rfl, fun _ _ _ _ _ _ => rfl, fun _ _ _ _ => rfl, fun _ _ => rfl⟩
  have hspares : ∀ item ∈ besideConstant, item.Spares "A" s st.registry := by
    have hconstant : ∀ n ∈ s.references, ∃ e : Enumerant,
        st.registry.find? n = some (.enumerant e) ∧ e.rangeItems = [] := by
      intro n hn
      obtain rfl : n = "AL_N" := List.mem_singleton.1 hn
      exact ⟨_, rfl, rfl⟩
    intro item hitem
    simp only [besideConstant, List.mem_cons, List.not_mem_nil, or_false] at hitem
    rcases hitem with rfl | rfl | rfl
    · refine ⟨by decide, ?_⟩
      intro c _ n hn c' hc'
      obtain ⟨e, he, -⟩ := hconstant n hn
      rw [he] at hc'
      cases hc'
    · intro n hn e he
      obtain ⟨e', he', hitems⟩ := hconstant n hn
      rw [he'] at he
      cases he
      rw [hitems]
      exact List.not_mem_nil
    · exact (by decide : "C" ≠ "A")
  exact ⟨hs, hs', halike, hspares, ((rendering_local hs {} t true).1 r' hs' halike).result,
    ((rendering_local hs {} t true).2 besideConstant hspares).result⟩

end ApiHeaders
