import ApiHeaders.Proofs.HeaderParts
import ApiHeaders.Proofs.Passes
import ApiHeaders.Proofs.Prototypes
import Mathlib.Data.List.Chain
import Mathlib.Data.List.Infix

/-!
# Where the declarations of a set stand

The prototypes of a set stand in the blocks of their namespaces, the other declarations in none of
them. This is said of the lines of a rendered set, which are read like a header: the directives of
conditionals tell what a line stands in.

## Main definitions

* `ApiSet.Unconditional` says that no text of a set has conditionals of its own.

## Main statements

* `ApiSet.exists_runs` says that the prototypes of a set are laid out in runs.
* `ApiSet.exists_layout` says which lines of a set are blocks of prototypes.
* `prototypes_fenced` says where the blocks of a set stand, and what a block of prototypes holds.
-/

namespace ApiHeaders

open Text (physicalLines)

variable {r : Registry} {s : ApiSet} {t : Target} {p : Pass} {name : String} {guard : Bool}
  {items : List Item}

/-! ### Blocks have lines -/

theorem Text.lines_ne_nil {text : String} (h : text ≠ "") : Text.lines text ≠ [] := by
  intro hnil
  obtain hsplit | ⟨init, last, hsplit⟩ := List.eq_nil_or_concat (splitOn '\n' text.toList)
  · exact splitOn_ne_nil '\n' text.toList hsplit
  · simp only [lines, hsplit, List.concat_eq_append, List.dropLast_concat,
      List.getLast?_concat] at hnil
    obtain ⟨rfl, rfl⟩ : init = [] ∧ last = [] := by simpa using hnil
    have htext : ['\n'].intercalate (splitOn '\n' text.toList) = text.toList :=
      intercalate_splitOn text.toList
    rw [hsplit] at htext
    exact h (String.toList_eq_nil_iff.1 htext.symm)

theorem suppressed_ne_nil (text : String) : suppressed text ≠ [] := by
  unfold suppressed
  split <;> simp

/-- A prototype ends with a semicolon. -/
theorem Command.render_ne_empty {c : Command} {text : String}
    (h : (Declaration.command c).render false r t = .ok text) : text ≠ "" := by
  obtain rfl : dropFinalBreaks (c.prototype r t) = text := Except.ok.inj h
  intro hempty
  have hlist := congrArg String.toList hempty
  rw [dropFinalBreaks_eq, prototype, String.toList_ofList, String.toList_append] at hlist
  have hend : ";".toList = [';'] := rfl
  rw [hend, Text.rdropWhile_append_cons (by simp)] at hlist
  simp at hlist

theorem Pass.prototypes_mem_order (kind : SetKind) : prototypes ∈ order kind := by
  cases kind <;> decide

namespace ApiSet

/-- What the block of a name holds. -/
theorem blockFor?_eq_some {b : Block} (h : s.blockFor? r t p name = some b) :
    r.find? name = some b.declaration ∧ p.accepts b.declaration ∧
      ((∃ text, b.declaration.render (decide (p = .pointers)) r t = .ok text ∧
          b.lines = Text.lines text) ∨
        ∃ text, b.lines = suppressed text) := by
  obtain ⟨d, hd, h⟩ := Option.bind_eq_some_iff.1 h
  have htext {d' : Declaration} {text : String} (h : p.text? d' r t = some text) :
      p.accepts d' ∧ d'.render (decide (p = .pointers)) r t = .ok text := by
    rw [Pass.text?_eq, Option.ite_none_right_eq_some] at h
    cases hr : d'.render (decide (p = .pointers)) r t with
    | error e =>
      rw [hr] at h
      cases h.2
    | ok text' =>
      rw [hr] at h
      exact ⟨h.1, congrArg Except.ok (Option.some.inj h.2)⟩
  split at h
  · obtain ⟨text, ht, hb⟩ := Option.bind_eq_some_iff.1 h
    obtain rfl := Option.some.inj hb
    obtain ⟨haccepts, hrender⟩ := htext ht
    exact ⟨hd, haccepts, .inl ⟨text, hrender, rfl⟩⟩
  · obtain ⟨text, ht, hb⟩ := Option.bind_eq_some_iff.1 h
    obtain rfl := Option.some.inj hb
    have haccepts := (htext ht).1
    rw [Pass.accepts_withoutDoc] at haccepts
    exact ⟨hd, haccepts, .inr ⟨text, by dsimp only⟩⟩

/-- The pass over prototypes has blocks of commands only. -/
theorem exists_command {b : Block} (h : s.blockFor? r t .prototypes name = some b) :
    ∃ c, b.declaration = .command c ∧ r.find? name = some (.command c) := by
  obtain ⟨hfind, haccepts, -⟩ := blockFor?_eq_some h
  cases hd : b.declaration with
  | command c => exact ⟨c, rfl, hd ▸ hfind⟩
  | enumerant | typedef | verbatim | header =>
    rw [hd] at haccepts
    cases haccepts

/-- What a pass shows comes from a requirement. -/
theorem mem_passItems {item : Item} (h : (s.items r t).result = .ok items)
    (hp : p ∈ Pass.order s.kind) (hitem : item ∈ s.passItems r t p) (hcontent : item.isContent) :
    item = .heading ∨ ∃ req ∈ s.requirements.filter (·.appliesTo t.apis),
      (∃ text ∈ req.comment, item = .comment text) ∨
        ∃ name ∈ req.names, ∃ b, s.blockFor? r t p name = some b ∧ item = .block b := by
  have hmem : item ∈ s.contents r t p := by
    rw [← filter_passItems h hp]
    exact List.mem_filter.2 ⟨hitem, hcontent⟩
  rw [contents] at hmem
  rcases List.mem_append.1 hmem with hmem | hmem
  · split at hmem
    · exact .inl (List.mem_singleton.1 hmem)
    · cases hmem
  · obtain ⟨req, hreq, hmem⟩ := List.mem_flatMap.1 hmem
    refine .inr ⟨req, hreq, ?_⟩
    rw [Requirement.contents] at hmem
    rcases List.mem_append.1 hmem with hmem | hmem
    · split at hmem
      · cases hmem
      · obtain ⟨text, htext, rfl⟩ := Option.map_eq_some_iff.1 (Option.mem_toList.1 hmem)
        exact .inl ⟨text, htext, rfl⟩
    · obtain ⟨b, hb, rfl⟩ := List.mem_map.1 hmem
      obtain ⟨name, hname, hblock⟩ := List.mem_filterMap.1 hb
      exact .inr ⟨name, hname, b, hblock, rfl⟩

/-- A block of a pass stands for a name of the set. -/
theorem exists_of_block_mem {b : Block} (h : (s.items r t).result = .ok items)
    (hp : p ∈ Pass.order s.kind) (hb : .block b ∈ s.passItems r t p) :
    ∃ name ∈ s.targeted t, s.blockFor? r t p name = some b := by
  obtain heq | ⟨req, hreq, ⟨text, -, heq⟩ | ⟨name, hname, b', hblock, heq⟩⟩ :=
    mem_passItems h hp hb rfl
  · cases heq
  · cases heq
  · cases heq
    exact ⟨name, List.mem_flatMap.2 ⟨req, hreq, hname⟩, hblock⟩

/-- A comment in a pass stands in the set. -/
theorem exists_of_comment_mem {text : String} (h : (s.items r t).result = .ok items)
    (hp : p ∈ Pass.order s.kind) (hc : .comment text ∈ s.passItems r t p) :
    ∃ req ∈ s.requirements, text ∈ req.comment := by
  obtain heq | ⟨req, hreq, ⟨text, htext, heq⟩ | ⟨name, -, b, -, heq⟩⟩ :=
    mem_passItems h hp hc rfl
  · cases heq
  · cases heq
    exact ⟨req, (List.mem_filter.1 hreq).1, htext⟩
  · cases heq

/-! ### Texts without conditionals -/

/-- What the place of a declaration relies on: names and namespaces hold no line break, and no text
has conditionals of its own. -/
structure Unconditional (s : ApiSet) (r : Registry) (t : Target) : Prop where
  name : '\n' ∉ s.name.toList
  scope : ∀ name ∈ s.targeted t, ∀ c, r.find? name = some (.command c) → '\n' ∉ c.scope.toList
  doc : Quiet (Text.lines (Doc.render r.groups none s.doc))
  comment : ∀ req ∈ s.requirements, ∀ text ∈ req.comment,
    Quiet (physicalLines (Item.comment text).lines)
  text : ∀ name ∈ s.targeted t, ∀ d, r.find? name = some d → ∀ pointer text,
    d.render pointer r t = .ok text → Quiet (Text.lines text)

namespace Unconditional

/-- The lines of a block belong to no conditional, also where they are commented out. -/
theorem quiet_block {b : Block} (hs : s.Unconditional r t) (hname : name ∈ s.targeted t)
    (hb : s.blockFor? r t p name = some b) : Quiet b.lines ∧ physicalLines b.lines = b.lines := by
  obtain ⟨hfind, -, ⟨text, hrender, hlines⟩ | ⟨text, hlines⟩⟩ := blockFor?_eq_some hb
  · rw [hlines]
    exact ⟨hs.text name hname _ hfind _ text hrender, Text.physicalLines_lines text⟩
  · rw [hlines]
    exact ⟨fun line hline =>
        not_isConditional_of_isCommentLine (isCommentLine_of_mem_suppressed hline).1,
      Text.physicalLines_of_not_mem fun line hline => (isCommentLine_of_mem_suppressed hline).2⟩

/-- Only the directives around prototypes belong to a conditional. -/
theorem quiet_item (hs : s.Unconditional r t) (h : (s.items r t).result = .ok items)
    (hp : p ∈ Pass.order s.kind) {item : Item} (hitem : item ∈ s.passItems r t p)
    (hnone : item.prototypeMacro? = none) : Quiet (physicalLines item.lines) := by
  cases item with
  | openPrototypes | closePrototypes => cases hnone
  | heading => decide
  | blank => decide
  | comment text =>
    obtain ⟨req, hreq, htext⟩ := exists_of_comment_mem h hp hitem
    exact hs.comment req hreq text htext
  | block b =>
    obtain ⟨name, hname, hb⟩ := exists_of_block_mem h hp hitem
    obtain ⟨hquiet, hlines⟩ := hs.quiet_block hname hb
    rwa [Item.lines, hlines]

theorem quiet_items (hs : s.Unconditional r t) (h : (s.items r t).result = .ok items)
    (hp : p ∈ Pass.order s.kind) {part : List Item} (hpart : part ⊆ s.passItems r t p)
    (hnone : ∀ item ∈ part, item.prototypeMacro? = none) :
    Quiet (physicalLines (part.flatMap Item.lines)) := by
  rw [physicalLines, List.flatMap_assoc]
  exact .flatMap fun item hitem => hs.quiet_item h hp (hpart hitem) (hnone item hitem)

end Unconditional

/-! ### The passes over a set -/

/-- Only the pass over prototypes has directives around them. -/
theorem prototypeMacro?_of_mem_passItems (h : (s.items r t).result = .ok items)
    (hp : p ∈ Pass.order s.kind) (hne : p ≠ .prototypes) :
    ∀ item ∈ s.passItems r t p, item.prototypeMacro? = none := by
  obtain ⟨sections, hsec⟩ := sections_of_items h hp
  have hentries : ∀ item ∈ (sections.flatMap (·.entries)).flatMap (·.items),
      item.prototypeMacro? = none := by
    intro item hitem
    obtain ⟨e, -, he⟩ := List.mem_flatMap.1 hitem
    exact Entry.prototypeMacro?_of_mem he
  rw [passItems, hsec]
  cases p with
  | types => exact hentries
  | prototypes => exact absurd rfl hne
  | pointers =>
    refine List.forall_mem_append.2 ⟨?_, hentries⟩
    split <;> simp [Item.prototypeMacro?]

/-- The runs that the prototypes of a set are laid out in. -/
structure HasRuns (s : ApiSet) (r : Registry) (t : Target) (gs : List PrototypeRun) : Prop where
  passItems_eq : s.passItems r t .prototypes = gs.flatMap (·.items)
  isChain : gs.IsChain (·.scope ≠ ·.scope)
  exists_name : ∀ g ∈ gs, ∀ e ∈ g.entries,
    ∃ name ∈ s.targeted t, s.blockFor? r t .prototypes name = some e.block

theorem exists_runs (h : (s.items r t).result = .ok items) : ∃ gs, s.HasRuns r t gs := by
  have hp : .prototypes ∈ Pass.order s.kind := Pass.prototypes_mem_order s.kind
  obtain ⟨sections, hsec⟩ := sections_of_items h hp
  have hitems : s.passItems r t .prototypes =
      (PrototypeRun.ofEntries (sections.flatMap (·.entries))).flatMap (·.items) := by
    rw [← fencedItems_eq, passItems, hsec]
    rfl
  refine ⟨_, hitems, PrototypeRun.isChain_ofEntries _, fun g hg e he => ?_⟩
  have hblock : .block e.block ∈ e.items := by simp [Entry.items]
  have hrun : .block e.block ∈ g.items :=
    List.mem_cons_of_mem _ (List.mem_append_left _ (List.mem_flatMap.2 ⟨e, he, hblock⟩))
  exact exists_of_block_mem h hp (hitems ▸ List.mem_flatMap.2 ⟨g, hg, hrun⟩)

/-- The lines of a pass. -/
def passLines (s : ApiSet) (r : Registry) (t : Target) (p : Pass) : List String :=
  physicalLines ((s.passItems r t p).flatMap Item.lines)

/-- The line that opens the conditional around a set, if it has one. -/
def guardLine (s : ApiSet) (guard : Bool) : List String :=
  if guard then ["#ifndef " ++ s.name] else []

theorem filterMap_guardLine (hname : ¬"_NO_PROTOTYPES".toList <:+ s.name.toList) :
    (s.guardLine guard).filterMap prototypeScope? = [] := by
  cases guard with
  | false => rfl
  | true => exact List.filterMap_cons_none (prototypeScope?_ifndef hname)

theorem physicalLines_passes (ps : List Pass) :
    physicalLines ((ps.flatMap fun p => (s.passItems r t p).map (p, ·)).flatMap (·.2.lines)) =
      ps.flatMap (s.passLines r t) := by
  simp only [physicalLines, List.flatMap_assoc, List.flatMap_map]
  exact List.flatMap_congr fun p _ => by rw [passLines, physicalLines, List.flatMap_assoc]

/-- An item of a set belongs to a pass. -/
theorem exists_pass_of_placed_eq {xs ys : List (Pass × Item)} {item : Item}
    (h : s.placed r t = xs ++ (p, item) :: ys) :
    ∃ ps₁ ps₂ items₁ items₂, Pass.order s.kind = ps₁ ++ p :: ps₂ ∧
      s.passItems r t p = items₁ ++ item :: items₂ ∧
      physicalLines (xs.flatMap (·.2.lines)) =
        ps₁.flatMap (s.passLines r t) ++ physicalLines (items₁.flatMap Item.lines) ∧
      physicalLines (ys.flatMap (·.2.lines)) =
        physicalLines (items₂.flatMap Item.lines) ++ ps₂.flatMap (s.passLines r t) := by
  obtain ⟨ps₁, p', ps₂, us, vs, horder, hpass, rfl, rfl⟩ := exists_of_flatMap_eq h
  obtain ⟨items₁, rest, hitems, rfl, hrest⟩ := List.map_eq_append_iff.1 hpass
  obtain ⟨item', items₂, rfl, hitem, rfl⟩ := List.map_eq_cons_iff.1 hrest
  obtain ⟨rfl, rfl⟩ := Prod.mk.inj hitem
  refine ⟨ps₁, ps₂, items₁, items₂, horder, hitems, ?_, ?_⟩
  · rw [List.flatMap_append, Text.physicalLines_append, physicalLines_passes, List.flatMap_map]
  · rw [List.flatMap_append, Text.physicalLines_append, physicalLines_passes, List.flatMap_map]

namespace Unconditional

/-- A set is opened by its guard, if it has one. -/
theorem exists_opening (hs : s.Unconditional r t) (guard : Bool) :
    ∃ rest, Quiet rest ∧ physicalLines (s.opening r guard) = s.guardLine guard ++ rest := by
  rw [opening, Text.physicalLines_append, Text.physicalLines_lines]
  cases guard with
  | false => exact ⟨_, hs.doc, rfl⟩
  | true =>
    have hdefine : Quiet ["#define " ++ s.name ++ " 1"] := by
      rw [Quiet, List.forall_mem_singleton, isConditional, String.append_assoc,
        Directive.of?_define_text _ List.mem_cons_self]
      rfl
    refine ⟨_, hdefine.append hs.doc, ?_⟩
    rw [if_pos rfl, Text.physicalLines_of_not_mem (by simp [hs.name])]
    rfl

theorem conditionalsAfter_opening (hs : s.Unconditional r t) (lines : List String) :
    conditionalsAfter [] (physicalLines (s.opening r guard) ++ lines) =
      conditionalsAfter (s.guardLine guard) lines := by
  obtain ⟨rest, hrest, hopening⟩ := hs.exists_opening guard
  rw [hopening, List.append_assoc, conditionalsAfter_append, conditionalsAfter_append,
    hrest.balanced]
  cases guard with
  | false => rfl
  | true =>
    rw [guardLine, if_pos rfl, conditionalsAfter_ifndef]
    rfl

theorem filterMap_opening (hs : s.Unconditional r t)
    (hname : ¬"_NO_PROTOTYPES".toList <:+ s.name.toList) :
    (physicalLines (s.opening r guard)).filterMap prototypeScope? = [] := by
  obtain ⟨rest, hrest, hopening⟩ := hs.exists_opening guard
  rw [hopening, List.filterMap_append, filterMap_guardLine hname, hrest.filterMap_prototypeScope?]
  rfl

theorem filterMap_closing (hs : s.Unconditional r t) :
    (physicalLines (s.closing guard)).filterMap prototypeScope? = [] := by
  cases guard with
  | false => rfl
  | true =>
    have hblank : prototypeScope? "" = none := by decide
    rw [closing, if_pos rfl, Text.physicalLines_of_not_mem (by simp [hs.name]),
      List.filterMap_cons_none (prototypeScope?_endif _), List.filterMap_cons_none hblank,
      List.filterMap_nil]

variable {g : PrototypeRun} {gs : List PrototypeRun}

/-- The namespace of a run of prototypes holds no line break. -/
theorem break_not_mem_scope (hs : s.Unconditional r t) (hgs : s.HasRuns r t gs) (hg : g ∈ gs) :
    '\n' ∉ g.scope.toList := by
  obtain ⟨e, he⟩ := List.exists_mem_of_ne_nil _ g.entries_ne_nil
  obtain ⟨name, hname, hb⟩ := hgs.exists_name g hg e he
  obtain ⟨c, hc, hfind⟩ := exists_command hb
  have hscope : e.block.scope = c.scope := by rw [Block.scope, hc]
  rw [← g.scope_eq e he, hscope]
  exact hs.scope name hname c hfind

/-- A block of prototypes holds no other conditional. -/
theorem quiet_of_subset_run (hs : s.Unconditional r t) (h : (s.items r t).result = .ok items)
    (hgs : s.HasRuns r t gs) (hg : g ∈ gs) {part : List Item}
    (hpart : part ⊆ g.entries.flatMap (·.items)) :
    Quiet (physicalLines (part.flatMap Item.lines)) := by
  refine hs.quiet_items h (Pass.prototypes_mem_order s.kind) (fun item hitem => ?_)
    (fun item hitem => ?_)
  · rw [hgs.passItems_eq]
    exact List.mem_flatMap.2
      ⟨g, hg, List.mem_cons_of_mem _ (List.mem_append_left _ (hpart hitem))⟩
  · obtain ⟨e, -, he⟩ := List.mem_flatMap.1 (hpart hitem)
    exact Entry.prototypeMacro?_of_mem he

theorem quiet_content (hs : s.Unconditional r t) (h : (s.items r t).result = .ok items)
    (hgs : s.HasRuns r t gs) (hg : g ∈ gs) : Quiet g.content :=
  hs.quiet_of_subset_run h hgs hg (List.Subset.refl _)

theorem physicalLines_runs (hs : s.Unconditional r t) (hgs : s.HasRuns r t gs)
    {part : List PrototypeRun} (hpart : part ⊆ gs) :
    physicalLines ((part.flatMap (·.items)).flatMap Item.lines) = part.flatMap (·.lines) := by
  rw [physicalLines, List.flatMap_assoc, List.flatMap_assoc]
  refine List.flatMap_congr fun g hg => ?_
  rw [← List.flatMap_assoc]
  exact PrototypeRun.physicalLines_items (hs.break_not_mem_scope hgs (hpart hg))

theorem balanced_runs (hs : s.Unconditional r t) (h : (s.items r t).result = .ok items)
    (hgs : s.HasRuns r t gs) {part : List PrototypeRun} (hpart : part ⊆ gs) :
    Balanced (part.flatMap (·.lines)) :=
  .flatMap fun _ hg => PrototypeRun.balanced_lines (hs.quiet_content h hgs (hpart hg))

theorem quiet_passLines (hs : s.Unconditional r t) (h : (s.items r t).result = .ok items)
    (hp : p ∈ Pass.order s.kind) (hne : p ≠ .prototypes) : Quiet (s.passLines r t p) :=
  hs.quiet_items h hp (List.Subset.refl _) (prototypeMacro?_of_mem_passItems h hp hne)

/-- A pass closes the conditionals that it opens. -/
theorem balanced_passLines (hs : s.Unconditional r t) (h : (s.items r t).result = .ok items)
    (hp : p ∈ Pass.order s.kind) : Balanced (s.passLines r t p) := by
  by_cases hne : p = .prototypes
  · obtain ⟨gs, hgs⟩ := exists_runs h
    rw [hne, passLines, hgs.passItems_eq, hs.physicalLines_runs hgs (List.Subset.refl gs)]
    exact hs.balanced_runs h hgs (List.Subset.refl gs)
  · exact (hs.quiet_passLines h hp hne).balanced

/-- A block of prototypes is open at the prototypes in it, and closed below them. -/
theorem exists_run_of_block (hs : s.Unconditional r t) (h : (s.items r t).result = .ok items)
    {items₁ items₂ : List Item} {b : Block}
    (hpass : s.passItems r t .prototypes = items₁ ++ .block b :: items₂) :
    ∃ above inner₁ inner₂ below, Balanced above ∧ Quiet inner₁ ∧ Quiet inner₂ ∧
      physicalLines (items₁.flatMap Item.lines) =
        above ++ ("#ifndef " ++ (b.scope ++ "_NO_PROTOTYPES")) :: inner₁ ∧
      physicalLines (items₂.flatMap Item.lines) =
        inner₂ ++ ("#endif /* " ++ (b.scope ++ "_NO_PROTOTYPES") ++ " */") :: below := by
  obtain ⟨gs, hgs⟩ := exists_runs h
  obtain ⟨gs₁, g, gs₂, us, vs, rfl, hg, rfl, rfl⟩ :=
    exists_of_flatMap_eq (hgs.passItems_eq ▸ hpass)
  obtain ⟨hscope, us, vs, hentries, rfl, rfl⟩ := PrototypeRun.eq_of_items_eq hg
  have hmem : g ∈ gs₁ ++ g :: gs₂ := List.mem_append_right _ List.mem_cons_self
  have hfirst : gs₁ ⊆ gs₁ ++ g :: gs₂ := List.subset_append_left ..
  have hmacro : '\n' ∉ (b.scope ++ "_NO_PROTOTYPES").toList := by
    simpa [← hscope] using hs.break_not_mem_scope hgs hmem
  have hquiet {part : List Item} (hpart : part ⊆ us ++ .block b :: vs) :
      Quiet (physicalLines (part.flatMap Item.lines)) :=
    hs.quiet_of_subset_run h hgs hmem (hentries ▸ hpart)
  refine ⟨gs₁.flatMap (·.lines), physicalLines (us.flatMap Item.lines),
    physicalLines (vs.flatMap Item.lines),
    "" :: physicalLines ((gs₂.flatMap (·.items)).flatMap Item.lines), hs.balanced_runs h hgs hfirst,
    hquiet (List.subset_append_left ..),
    hquiet (List.subset_append_of_subset_right _ (List.subset_cons_self ..)), ?_, ?_⟩
  · simp [hs.physicalLines_runs hgs hfirst, Item.physicalLines_openPrototypes hmacro]
  · simp [Item.physicalLines_closePrototypes hmacro]

/-- The block of a declaration stands on lines of its own. -/
theorem block_of_placed (hs : s.Unconditional r t) (h : (s.items r t).result = .ok items)
    {xs ys : List (Pass × Item)} {b : Block} (hplace : s.placed r t = xs ++ (p, .block b) :: ys) :
    ∃ name ∈ s.targeted t, s.blockFor? r t p name = some b ∧ Quiet b.lines ∧
      physicalLines b.lines = b.lines := by
  obtain ⟨ps₁, ps₂, items₁, items₂, horder, hpass, -, -⟩ := exists_pass_of_placed_eq hplace
  obtain ⟨name, hname, hb⟩ := exists_of_block_mem h
    (horder ▸ List.mem_append_right _ List.mem_cons_self)
    (hpass ▸ List.mem_append_right _ List.mem_cons_self)
  exact ⟨name, hname, hb, hs.quiet_block hname hb⟩

/-- What stands around the block of a declaration. -/
theorem conditionalsAfter_block (hs : s.Unconditional r t) (h : (s.items r t).result = .ok items)
    {xs ys : List (Pass × Item)} {b : Block} (hplace : s.placed r t = xs ++ (p, .block b) :: ys) :
    conditionalsAfter [] (physicalLines (s.opening r guard ++ xs.flatMap (·.2.lines))) =
      (if p = .prototypes then ["#ifndef " ++ (b.scope ++ "_NO_PROTOTYPES")] else [])
        ++ s.guardLine guard := by
  obtain ⟨ps₁, ps₂, items₁, items₂, horder, hpass, hxs, -⟩ := exists_pass_of_placed_eq hplace
  have hp : p ∈ Pass.order s.kind := horder ▸ List.mem_append_right _ List.mem_cons_self
  have hpasses : Balanced (ps₁.flatMap (s.passLines r t)) :=
    .flatMap fun p hp => hs.balanced_passLines h (horder ▸ List.mem_append_left _ hp)
  have hguard : conditionalsAfter (s.guardLine guard) [] = s.guardLine guard := rfl
  rw [Text.physicalLines_append, hs.conditionalsAfter_opening, hxs, conditionalsAfter_append,
    hpasses]
  split
  · next heq =>
    subst heq
    obtain ⟨above, inner, _, _, habove, hinner, -, hlines, -⟩ := hs.exists_run_of_block h hpass
    rw [hlines, conditionalsAfter_append, habove, conditionalsAfter_ifndef, hinner.balanced]
    rfl
  · next hne =>
    refine (hs.quiet_items h hp (hpass ▸ List.subset_append_left ..) fun item hitem => ?_).balanced _
    exact prototypeMacro?_of_mem_passItems h hp hne item (hpass ▸ List.mem_append_left _ hitem)

/-- Below a prototype, its block is closed. -/
theorem exists_close_of_block (hs : s.Unconditional r t) (h : (s.items r t).result = .ok items)
    {xs ys : List (Pass × Item)} {b : Block}
    (hplace : s.placed r t = xs ++ (.prototypes, .block b) :: ys) :
    ∃ inner rest, Quiet inner ∧ physicalLines (ys.flatMap (·.2.lines)) =
      inner ++ ("#endif /* " ++ (b.scope ++ "_NO_PROTOTYPES") ++ " */") :: rest := by
  obtain ⟨_, ps, _, _, -, hpass, -, hys⟩ := exists_pass_of_placed_eq hplace
  obtain ⟨_, _, inner, rest, -, -, hinner, -, hend⟩ := hs.exists_run_of_block h hpass
  refine ⟨inner, rest ++ ps.flatMap (s.passLines r t), hinner, ?_⟩
  rw [hys, hend, List.append_assoc, List.cons_append]

/-- Which lines of a set are blocks of prototypes. -/
theorem exists_layout (hs : s.Unconditional r t) (h : (s.items r t).result = .ok items)
    (hname : ¬"_NO_PROTOTYPES".toList <:+ s.name.toList) (hgs : s.HasRuns r t gs) (guard : Bool) :
    ∃ above below, physicalLines
        (s.opening r guard ++ (s.placed r t).flatMap (·.2.lines) ++ s.closing guard) =
        above ++ gs.flatMap (·.lines) ++ below ∧
      above.filterMap prototypeScope? = [] ∧ below.filterMap prototypeScope? = [] := by
  obtain ⟨ps, qs, horder, hps, hqs⟩ : ∃ ps qs, Pass.order s.kind = ps ++ .prototypes :: qs ∧
      .prototypes ∉ ps ∧ .prototypes ∉ qs := by
    cases s.kind with
    | feature => exact ⟨[.types], [.pointers], rfl, by decide, by decide⟩
    | extension => exact ⟨[.types, .pointers], [], rfl, by decide, by decide⟩
  have hquiet {part : List Pass} (hpart : part ⊆ Pass.order s.kind) (hnot : .prototypes ∉ part) :
      Quiet (part.flatMap (s.passLines r t)) :=
    .flatMap fun p hp => hs.quiet_passLines h (hpart hp) fun heq => hnot (heq ▸ hp)
  have hfirst := hquiet (horder ▸ List.subset_append_left ..) hps
  have hlast := hquiet
    (horder ▸ List.subset_append_of_subset_right _ (List.subset_cons_self ..)) hqs
  have hruns : s.passLines r t .prototypes = gs.flatMap (·.lines) := by
    rw [passLines, hgs.passItems_eq, hs.physicalLines_runs hgs (List.Subset.refl gs)]
  refine ⟨physicalLines (s.opening r guard) ++ ps.flatMap (s.passLines r t),
    qs.flatMap (s.passLines r t) ++ physicalLines (s.closing guard), ?_, ?_, ?_⟩
  · rw [Text.physicalLines_append, Text.physicalLines_append, placed, physicalLines_passes, horder,
      List.flatMap_append, List.flatMap_cons, hruns]
    simp only [List.append_assoc]
  · rw [List.filterMap_append, hs.filterMap_opening hname, hfirst.filterMap_prototypeScope?]
    rfl
  · rw [List.filterMap_append, hlast.filterMap_prototypeScope?, hs.filterMap_closing]
    rfl

end Unconditional

/-- A prototype has lines, also where it is commented out. -/
theorem lines_ne_nil_of_prototype {b : Block} (h : s.blockFor? r t .prototypes name = some b) :
    b.lines ≠ [] := by
  obtain ⟨c, hc, -⟩ := exists_command h
  obtain ⟨-, -, ⟨text, hrender, hlines⟩ | ⟨text, hlines⟩⟩ := blockFor?_eq_some h
  · rw [hlines]
    exact Text.lines_ne_nil (Command.render_ne_empty (hc ▸ hrender))
  · rw [hlines]
    exact suppressed_ne_nil text

end ApiSet

/-- In a set that is rendered into its target, the lines of a prototype stand in a block of its
namespace and in no other, and those of other declarations in no such block. A block of prototypes
goes up to its own directive and holds a prototype, and two that follow one another differ. -/
theorem prototypes_fenced {lines : List String} (h : (s.inlineLines r t guard).result = .ok lines)
    (hs : s.Unconditional r t) (hname : ¬"_NO_PROTOTYPES".toList <:+ s.name.toList) :
    (∀ xs ys p b us line vs, s.placed r t = xs ++ (p, .block b) :: ys →
      b.lines = us ++ line :: vs →
      let above := physicalLines (s.opening r guard ++ xs.flatMap (·.2.lines)) ++ us
      let below := vs ++ physicalLines (ys.flatMap (·.2.lines) ++ s.closing guard)
      physicalLines lines = above ++ line :: below ∧
      if p = .prototypes then
        ∃ c inner rest, b.declaration = .command c ∧
          conditionalsAfter [] above =
            ("#ifndef " ++ (c.scope ++ "_NO_PROTOTYPES")) :: s.guardLine guard ∧
          below = inner ++ ("#endif /* " ++ (c.scope ++ "_NO_PROTOTYPES") ++ " */") :: rest ∧
          Quiet inner
      else conditionalsAfter [] above = s.guardLine guard) ∧
    (s.guardLine guard).filterMap prototypeScope? = [] ∧
    (∀ xs line ys scope, physicalLines lines = xs ++ line :: ys →
      prototypeScope? line = some scope →
      ∃ inner rest, ys = inner ++ ("#endif /* " ++ (scope ++ "_NO_PROTOTYPES") ++ " */") :: rest ∧
        Quiet inner ∧
        ∃ name ∈ s.targeted t, ∃ b, s.blockFor? r t .prototypes name = some b ∧
          b.scope = scope ∧ b.lines ≠ [] ∧ b.lines <:+: inner) ∧
    ((physicalLines lines).filterMap prototypeScope?).IsChain (· ≠ ·) := by
  obtain ⟨items, hitems, rfl⟩ := ApiSet.inlineLines_eq_ok h
  obtain ⟨gs, hgs⟩ := ApiSet.exists_runs hitems
  obtain ⟨above, below, hlayout, habove, hbelow⟩ :=
    hs.exists_layout hitems hname hgs guard
  have hquiet : ∀ g ∈ gs, Quiet g.content := fun g hg => hs.quiet_content hitems hgs hg
  refine ⟨?_, ApiSet.filterMap_guardLine hname, ?_, ?_⟩
  · intro xs ys p b us line vs hplace hb above below
    obtain ⟨name, -, hblock, hlines, hphysical⟩ := hs.block_of_placed hitems hplace
    rw [hb] at hlines
    have hus : Quiet us := fun l hl => hlines l (List.mem_append_left _ hl)
    have hvs : Quiet vs := fun l hl =>
      hlines l (List.mem_append_right _ (List.mem_cons_of_mem _ hl))
    have hopen : conditionalsAfter [] above =
        (if p = .prototypes then ["#ifndef " ++ (b.scope ++ "_NO_PROTOTYPES")] else [])
          ++ s.guardLine guard := by
      rw [conditionalsAfter_append, hs.conditionalsAfter_block hitems hplace, hus.balanced]
    refine ⟨?_, ?_⟩
    · have hitem : physicalLines (Item.block b).lines = us ++ line :: vs := hphysical.trans hb
      simp [above, below, hplace, hitem]
    · split
      · next heq =>
        subst heq
        obtain ⟨c, hc, -⟩ := ApiSet.exists_command hblock
        have hscope : b.scope = c.scope := by rw [Block.scope, hc]
        obtain ⟨inner, rest, hinner, hend⟩ := hs.exists_close_of_block hitems hplace
        rw [hscope] at hopen hend
        refine ⟨c, vs ++ inner, rest ++ physicalLines (s.closing guard), hc, hopen, ?_,
          hvs.append hinner⟩
        simp [below, hend]
      · next hne => rwa [if_neg hne] at hopen
  · intro xs line ys scope heq hline
    obtain ⟨g, hg, rfl, rest, rfl⟩ := PrototypeRun.exists_of_line habove hbelow hquiet
      (hlayout ▸ heq) hline
    refine ⟨g.content, rest, rfl, hquiet g hg, ?_⟩
    obtain ⟨e, he⟩ := List.exists_mem_of_ne_nil _ g.entries_ne_nil
    obtain ⟨name, hname, hb⟩ := hgs.exists_name g hg e he
    refine ⟨name, hname, e.block, hb, g.scope_eq e he, ApiSet.lines_ne_nil_of_prototype hb, ?_⟩
    rw [← (hs.quiet_block hname hb).2]
    exact PrototypeRun.infix_content he
  · have hscopes : (gs.flatMap (·.lines)).filterMap prototypeScope? = gs.map (·.scope) := by
      rw [List.filterMap_flatMap, List.flatMap_congr fun g hg =>
        PrototypeRun.filterMap_lines (hquiet g hg), List.map_eq_flatMap]
    rw [hlayout, List.filterMap_append, List.filterMap_append, habove, hbelow, hscopes,
      List.nil_append, List.append_nil, List.isChain_map]
    exact hgs.isChain

/-- A registry with commands of two namespaces. -/
def twoNamespaces : Registry :=
  (({} : Registry).insert (.command (borrowedCommand "p" "P"))).insert
    (.command { borrowedCommand "q" "Q" with scope := "B" })

/-- An extension whose commands change the namespace within a requirement and between two. -/
def alternatingSet : ApiSet :=
  { borrowingFeature with
    kind := .extension
    name := "D"
    requirements := [{ names := ["p", "q"] }, { names := ["p"] }] }

theorem unconditional_alternatingSet :
    alternatingSet.Unconditional twoNamespaces (.of ⟨"al.h"⟩ ["al"] .header) where
  name := by decide
  scope := by
    have hscopes : ∀ name ∈ alternatingSet.targeted (.of ⟨"al.h"⟩ ["al"] .header),
        ∀ d ∈ twoNamespaces.find? name, '\n' ∉ (Block.mk d none []).scope.toList := by
      decide +kernel
    exact fun name hname c hc => hscopes name hname _ hc
  doc := by decide
  comment := by decide
  text := by
    have htexts : ∀ name ∈ alternatingSet.targeted (.of ⟨"al.h"⟩ ["al"] .header),
        ∀ d ∈ twoNamespaces.find? name, ∀ pointer,
        ∀ text ∈ (d.render pointer twoNamespaces (.of ⟨"al.h"⟩ ["al"] .header)).toOption,
          Quiet (Text.lines text) := by decide +kernel
    exact fun name hname d hd pointer text h => htexts name hname d hd pointer text (by rw [h]; rfl)

/-- The second prototype stands in a block of its own namespace, inside the guard of the set. -/
theorem alternating_prototypes_fenced :
    let t := Target.of ⟨"al.h"⟩ ["al"] .header
    ∃ lines above below, (alternatingSet.inlineLines twoNamespaces t true).result = .ok lines ∧
      physicalLines lines = above ++ "B_API void B_APIENTRY q(void);" :: below ∧
      conditionalsAfter [] above = ["#ifndef B_NO_PROTOTYPES", "#ifndef D"] ∧
      ((physicalLines lines).filterMap prototypeScope?).IsChain (· ≠ ·) := by
  intro t
  obtain ⟨lines, h⟩ : ∃ lines,
      (alternatingSet.inlineLines twoNamespaces t true).result = .ok lines := ⟨_, rfl⟩
  obtain ⟨hblocks, -, -, hchain⟩ := prototypes_fenced h unconditional_alternatingSet (by decide)
  let q : Command := { borrowedCommand "q" "Q" with scope := "B" }
  have hplace : alternatingSet.placed twoNamespaces t =
      (alternatingSet.placed twoNamespaces t).take 9
        ++ (.prototypes, .block ⟨.command q, none, ["B_API void B_APIENTRY q(void);"]⟩)
          :: (alternatingSet.placed twoNamespaces t).drop 10 := by decide +kernel
  obtain ⟨hlines, hopen⟩ := hblocks _ _ _ _ [] _ [] hplace rfl
  obtain ⟨c, inner, rest, hc, hopen, -⟩ := (if_pos rfl).mp hopen
  obtain rfl : q = c := Declaration.command.inj hc
  exact ⟨lines, _, _, h, hlines, hopen, hchain⟩

end ApiHeaders
