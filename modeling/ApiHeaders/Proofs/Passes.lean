import ApiHeaders.Proofs.Written

/-!
# What the passes show

The passes over a set are compared with a list of what a set has to show: for each requirement that
applies to the target, in order, its comment and the blocks of its names. Spaces and the directives
around prototypes are left out of the comparison.

## Main definitions

* `ApiSet.placed` lists the items of a set with the passes that they belong to.
* `ApiSet.blockFor?` is the block that a set has for a name in a pass.
* `Requirement.contents` and `ApiSet.contents` list what is to be shown.

## Main statements

* `passes_exhaustive` says that the passes show all of it, once, in order.
-/

namespace ApiHeaders

variable {r : Registry} {s : ApiSet} {t : Target} {p : Pass} {name : String}

/-! ### Items and passes -/

/-- The items of a pass. -/
def ApiSet.passItems (s : ApiSet) (r : Registry) (t : Target) (p : Pass) : List Item :=
  match (s.sections r t p).result with
  | .ok sections => p.items s.kind sections
  | .error _ => []

/-- The items of a set, each with the pass that it belongs to. -/
def ApiSet.placed (s : ApiSet) (r : Registry) (t : Target) : List (Pass × Item) :=
  (Pass.order s.kind).flatMap fun p => (s.passItems r t p).map (p, ·)

theorem ApiSet.map_snd_placed {items : List Item} (h : (s.items r t).result = .ok items) :
    (s.placed r t).map Prod.snd = items := by
  obtain ⟨passes, hpasses, hitems⟩ := Logged.result_bind_eq_ok.1 h
  obtain rfl : passes.flatten = items := Except.ok.inj hitems
  rw [Logged.traverse_eq_ok] at hpasses
  rw [placed]
  clear h hitems
  generalize Pass.order s.kind = order at hpasses
  induction hpasses with
  | nil => rfl
  | @cons p pass ps passes hp _ ih =>
    obtain ⟨sections, hsec, hpass⟩ := Logged.result_bind_eq_ok.1 hp
    obtain rfl : p.items s.kind sections = pass := Except.ok.inj hpass
    have hitems : s.passItems r t p = p.items s.kind sections := by rw [passItems, hsec]
    rw [List.flatMap_cons, List.map_append, ih, hitems, List.flatten_cons]
    simp [Function.comp_def]

/-- The lines of a set are those of its items between the opening and the closing. -/
theorem ApiSet.inlineLines_eq_ok {guard : Bool} {lines : List String}
    (h : (s.inlineLines r t guard).result = .ok lines) :
    ∃ items, (s.items r t).result = .ok items ∧
      lines = s.opening r guard ++ (s.placed r t).flatMap (·.2.lines) ++ s.closing guard := by
  obtain ⟨items, hitems, rfl⟩ := map_eq_ok.1 (ApiSet.result_inlineLines guard ▸ h)
  refine ⟨items, hitems, ?_⟩
  rw [← map_snd_placed hitems, List.flatMap_map]

/-! ### What is to be shown -/

/-- Whether an item shows something. The others are space, and the directives around prototypes. -/
def Item.isContent : Item → Bool
  | heading | comment _ | block _ => true
  | openPrototypes _ | closePrototypes _ | blank => false

/-- Whether a pass shows what a name stands for. -/
def Pass.Shows (p : Pass) : Option Declaration → Prop
  | none | some (.header _) => False
  | some (.command _) => p ≠ .types
  | some (.enumerant _) | some (.typedef _) | some (.verbatim _) => p = .types

/-- The text that a pass has for a declaration. A command has a prototype in one pass and a function
pointer type in the other. -/
def Pass.text? (p : Pass) (d : Declaration) (r : Registry) (t : Target) : Option String :=
  match p, d with
  | _, .header _ | .types, .command _ => none
  | .types, d => (d.render false r t).toOption
  | .prototypes, .command c => (Declaration.render (.command c) false r t).toOption
  | .pointers, .command c => (Declaration.render (.command c) true r t).toOption
  | _, _ => none

/-- The block that a set has for a name in a pass. What another set has written is commented out,
without its documentation. -/
def ApiSet.blockFor? (s : ApiSet) (r : Registry) (t : Target) (p : Pass) (name : String) :
    Option Block := do
  let d ← r.find? name
  match (r.writtenBy? name).filter (· ≠ s.name) with
  | none => return ⟨d, none, Text.lines (← p.text? d r t)⟩
  | some writer => return ⟨d, some writer, suppressed (← p.text? d.withoutDoc r t)⟩

/-- What a pass has to show of a requirement. Where it has blocks, its comment stands above them,
except above function pointer types. -/
def Requirement.contents (req : Requirement) (s : ApiSet) (r : Registry) (t : Target) (p : Pass) :
    List Item :=
  let blocks := req.names.filterMap (s.blockFor? r t p)
  (if p = .pointers ∨ blocks = [] then [] else (req.comment.map .comment).toList)
    ++ blocks.map .block

/-- What a pass has to show of a set. Features have a heading above their function pointer types. -/
def ApiSet.contents (s : ApiSet) (r : Registry) (t : Target) (p : Pass) : List Item :=
  let blocks := (s.targeted t).filterMap (s.blockFor? r t p)
  (if p = .pointers ∧ s.kind = .feature ∧ blocks ≠ [] then [.heading] else [])
    ++ (s.requirements.filter (·.appliesTo t.apis)).flatMap (·.contents s r t p)

/-! ### The block of a name -/

theorem Pass.text?_eq (p : Pass) (d : Declaration) (r : Registry) (t : Target) :
    p.text? d r t =
      if p.accepts d then (d.render (decide (p = .pointers)) r t).toOption else none := by
  cases p <;> cases d <;> rfl

theorem Pass.accepts_withoutDoc (p : Pass) (d : Declaration) :
    p.accepts d.withoutDoc = p.accepts d := by
  cases d <;> rfl

theorem Pass.shows_iff {d : Option Declaration} : p.Shows d ↔ (d.filter p.accepts).isSome := by
  rcases d with - | (_ | _ | _ | _ | _) <;> cases p <;>
    simp [Shows, accepts, Declaration.isHeader, Declaration.isCommand, Option.filter_some]

/-- The block of a name is what the pass makes of it. -/
theorem ApiSet.blockFor?_of_ok {b : Option Block}
    (h : (Block.ofReference r s t p name).result = .ok b) : s.blockFor? r t p name = b := by
  have hwriter : (r.writtenBy? name).filter (· ≠ s.name) = r.otherWriter? s name := rfl
  rw [Block.result_ofReference, Registry.accepted?] at h
  cases hd : r.find? name with
  | none =>
    rw [hd] at h
    rw [blockFor?, hd]
    exact Except.ok.inj h
  | some d =>
    rw [hd, Option.filter_some] at h
    simp only [blockFor?, hd, hwriter, Option.bind_eq_bind, Option.bind_some]
    by_cases haccepts : p.accepts d
    · rw [if_pos haccepts] at h
      obtain ⟨b', hb', rfl⟩ := map_eq_ok.1 h
      obtain ⟨text, htext, rfl⟩ := Block.of_eq_ok.1 hb'
      cases hw : r.otherWriter? s name <;> rw [hw] at htext <;>
        simp_all [Pass.text?_eq, Pass.accepts_withoutDoc, Except.toOption]
    · rw [if_neg haccepts] at h
      rw [← Except.ok.inj h]
      cases r.otherWriter? s name <;>
        simp [Pass.text?_eq, Pass.accepts_withoutDoc, haccepts]

/-- A set that can be laid out has a block, or none, for each of its references. -/
theorem ApiSet.exists_ofReference {items : List Item} (h : (s.items r t).result = .ok items)
    (hp : p ∈ Pass.order s.kind) (hname : name ∈ s.targeted t) :
    ∃ b, (Block.ofReference r s t p name).result = .ok b := by
  obtain ⟨sections, hsec⟩ := sections_of_items h hp
  obtain ⟨req, hreq, hname⟩ := List.mem_flatMap.1 hname
  obtain ⟨sec, hsec⟩ := Logged.exists_of_traverse hsec hreq
  obtain ⟨blocks, hblocks, -⟩ := Logged.result_bind_eq_ok.1 hsec
  exact Logged.exists_of_traverse hblocks hname

/-- What a set has a block for in a pass. -/
theorem ApiSet.isSome_blockFor?_iff {items : List Item} (h : (s.items r t).result = .ok items)
    (hp : p ∈ Pass.order s.kind) (hname : name ∈ s.targeted t) :
    (s.blockFor? r t p name).isSome ↔ p.Shows (r.find? name) := by
  obtain ⟨b, hb⟩ := exists_ofReference h hp hname
  rw [blockFor?_of_ok hb, Pass.shows_iff]
  rw [Block.result_ofReference, Registry.accepted?] at hb
  cases haccepted : (r.find? name).filter p.accepts with
  | none =>
    rw [haccepted] at hb
    rw [← Except.ok.inj hb]
    simp
  | some d =>
    rw [haccepted] at hb
    obtain ⟨b', -, rfl⟩ := map_eq_ok.1 hb
    simp

/-! ### The sections of a pass -/

theorem Requirement.section_eq {req : Requirement} {sec : Section}
    (h : (req.section r s t p).result = .ok sec) :
    sec = ⟨if p = .pointers then none else req.comment,
      req.names.filterMap (s.blockFor? r t p)⟩ := by
  obtain ⟨blocks, hblocks, hsec⟩ := Logged.result_bind_eq_ok.1 h
  rw [Logged.eq_map_of_traverse (fun _ _ => ApiSet.blockFor?_of_ok) hblocks] at hsec
  rw [← Except.ok.inj hsec, List.filterMap_map]
  rfl

/-- The sections of a pass hold the blocks of all names, by the requirements that list them. -/
theorem ApiSet.sections_eq {sections : List Section}
    (h : (s.sections r t p).result = .ok sections) :
    sections = (s.requirements.filter (·.appliesTo t.apis)).map fun req =>
      ⟨if p = .pointers then none else req.comment, req.names.filterMap (s.blockFor? r t p)⟩ :=
  Logged.eq_map_of_traverse (fun _ _ hsec => (Requirement.section_eq hsec).symm) h

/-! ### The contents of a pass -/

@[simp] theorem Entry.filter_items (e : Entry) :
    e.items.filter Item.isContent = (e.comment.map .comment).toList ++ [.block e.block] := by
  cases hc : e.comment <;> cases hs : e.spaced <;>
    simp [Entry.items, Item.isContent, hc, hs, List.filter_cons]

theorem filter_fencedItems (opened : Option String) (es : List Entry) :
    (fencedItems opened es).filter Item.isContent =
      (es.flatMap (·.items)).filter Item.isContent := by
  induction es generalizing opened with
  | nil => cases opened <;> rfl
  | cons e es ih =>
    rw [fencedItems]
    split
    · simp [ih]
    · cases opened <;> simp [ih, Item.isContent]

/-- The comment of a section stands above its first block. -/
theorem Section.filter_entries (sec : Section) :
    (sec.entries.flatMap (·.items)).filter Item.isContent =
      (if sec.blocks = [] then [] else (sec.comment.map .comment).toList)
        ++ sec.blocks.map .block := by
  have hbare (bs : List Block) :
      ((entriesFrom none bs).flatMap (·.items)).filter Item.isContent = bs.map .block := by
    induction bs with
    | nil => rfl
    | cons b bs ih => simp [entriesFrom, ih]
  rw [entries]
  cases sec.blocks with
  | nil => rfl
  | cons b bs => simp [entriesFrom, hbare]

/-- A pass shows its sections, function pointer types of a feature below a heading. -/
theorem Pass.filter_items (kind : SetKind) (sections : List Section) :
    (p.items kind sections).filter Item.isContent =
      (if p = .pointers ∧ kind = .feature ∧ sections.flatMap (·.blocks) ≠ [] then [.heading] else [])
        ++ sections.flatMap fun sec =>
          (if sec.blocks = [] then [] else (sec.comment.map .comment).toList)
            ++ sec.blocks.map .block := by
  have hsections : ((sections.flatMap (·.entries)).flatMap (·.items)).filter Item.isContent =
      sections.flatMap fun sec => (if sec.blocks = [] then [] else
        (sec.comment.map .comment).toList) ++ sec.blocks.map .block := by
    rw [List.flatMap_assoc, List.filter_flatMap]
    exact List.flatMap_congr fun sec _ => sec.filter_entries
  have hblocks : sections.flatMap (·.blocks) = (sections.flatMap (·.entries)).map (·.block) := by
    simp [List.map_flatMap]
  cases p with
  | types => exact hsections
  | prototypes => exact (filter_fencedItems none _).trans hsections
  | pointers =>
    rw [hblocks, items, List.filter_append, hsections]
    congr 1
    cases kind <;> cases sections.flatMap (·.entries) <;> simp [Item.isContent]

/-- A pass shows all that it has to show. -/
theorem ApiSet.filter_passItems {items : List Item} (h : (s.items r t).result = .ok items)
    (hp : p ∈ Pass.order s.kind) :
    (s.passItems r t p).filter Item.isContent = s.contents r t p := by
  obtain ⟨sections, hsec⟩ := sections_of_items h hp
  have hitems : s.passItems r t p = p.items s.kind sections := by rw [passItems, hsec]
  rw [hitems, Pass.filter_items, sections_eq hsec, contents, targeted, List.filterMap_flatMap,
    List.flatMap_map, List.flatMap_map]
  congr 1
  refine List.flatMap_congr fun req _ => ?_
  rw [Requirement.contents]
  by_cases hp : p = .pointers <;> simp [hp]

/-- The passes over a set that is rendered into its target show all that it has to show, in order:
first what is no command, then the commands, once as prototypes and once as function pointer types.
Every reference has its block in a pass that shows what it stands for. -/
theorem passes_exhaustive {guard : Bool} {lines : List String}
    (h : (s.inlineLines r t guard).result = .ok lines) :
    let order : List Pass := match s.kind with
      | .feature => [.types, .prototypes, .pointers]
      | .extension => [.types, .pointers, .prototypes]
    lines = s.opening r guard ++ (s.placed r t).flatMap (·.2.lines) ++ s.closing guard ∧
    (s.placed r t).filter (·.2.isContent) =
      (order.flatMap fun p => (s.contents r t p).map (p, ·)) ∧
    ∀ p, ∀ name ∈ s.targeted t, (s.blockFor? r t p name).isSome ↔ p.Shows (r.find? name) := by
  intro order
  obtain ⟨items, hitems, hlines⟩ := ApiSet.inlineLines_eq_ok h
  have horder : Pass.order s.kind = order := by
    simp only [order]
    cases s.kind <;> rfl
  refine ⟨hlines, ?_, ?_⟩
  · rw [← horder, ApiSet.placed, List.filter_flatMap]
    refine List.flatMap_congr fun p hp => ?_
    rw [← ApiSet.filter_passItems hitems hp, List.filter_map]
    rfl
  · intro p name hname
    refine ApiSet.isSome_blockFor?_iff hitems ?_ hname
    cases p <;> cases s.kind <;> decide

def borrowedCommand (name pointerName : String) : Command where
  name
  scope := "AL"
  returnType := "void"
  parameters := []
  pointerName
  exportedOn := none
  noexcept := false
  doc := none
  deprecated := none

/-- A feature that requires a command and a constant of another one, a command of its own, and one
that does not exist. -/
def borrowingFeature : ApiSet where
  kind := .feature
  name := "B"
  apis := ["al"]
  requirements := [
    { names := ["alPlay", "alMissing", "AL_N"], comment := some "Playback" },
    { names := ["alLost"], api := some "alc" },
    { names := ["alMissing", "alStop"] }]
  annex := none
  doc := none

/-- A registry in which the feature `A` has written a command and a constant. -/
def lendingRegistry : Registry :=
  let constant : Enumerant :=
    { name := "AL_N", value := "1", property := none, groups := [], doc := none, deprecated := none }
  let lender : ApiSet :=
    { borrowingFeature with name := "A", requirements := [{ names := ["alPlay", "AL_N"] }] }
  (({} : Registry).insert (.enumerant constant)).insert (.command (borrowedCommand "alPlay" "LPALPLAY"))
    |>.insert (.command (borrowedCommand "alStop" "LPALSTOP"))
    |>.markWritten lender

/-- The comment is shown above the constant and above the prototype, the heading above the function
pointer types. -/
theorem borrowed_passes_exhaustive :
    let t := Target.of ⟨"al.h"⟩ ["al"] .header
    ∃ lines, (borrowingFeature.inlineLines lendingRegistry t true).result = .ok lines ∧
      ((borrowingFeature.placed lendingRegistry t).filter (·.2.isContent)).map
          (fun x => (x.1, x.2.lines)) = [
        (.types, ["/* Playback */"]),
        (.types, ["/* #define AL_N                                     1 */"]),
        (.prototypes, ["/* Playback */"]),
        (.prototypes, ["/* AL_API void AL_APIENTRY alPlay(void); */"]),
        (.prototypes, ["AL_API void AL_APIENTRY alStop(void);"]),
        (.pointers, Item.heading.lines),
        (.pointers, ["/* typedef void (AL_APIENTRY *LPALPLAY)(void); */"]),
        (.pointers, ["typedef void (AL_APIENTRY *LPALSTOP)(void);"])] := by
  intro t
  obtain ⟨lines, h⟩ : ∃ lines,
      (borrowingFeature.inlineLines lendingRegistry t true).result = .ok lines := ⟨_, rfl⟩
  refine ⟨lines, h, ?_⟩
  rw [(passes_exhaustive h).2.1]
  decide +kernel

end ApiHeaders
