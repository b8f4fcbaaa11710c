import ApiHeaders.ApiSet.Layout
import ApiHeaders.Proofs.Success
import Mathlib.Data.List.Forall2

/-!
# The blocks of a rendered set

A pass resolves the names that the applying requirements list and writes a block for each
declaration that it accepts. The layout sets these blocks apart and drops none of them.

## Main definitions

* `ApiSet.targeted` lists the names that a set refers to in a target.
* `ApiSet.resolved` lists those that a pass writes, each with its declaration.
* `ApiSet.emissions` lists the blocks of a pass, each with the name that it was written for.

## Main statements

* `ApiSet.forall₂_sections` gives the block of every reference.
* `ApiSet.blocks_items` says that a laid out set consists of the blocks of its passes.
-/

namespace ApiHeaders

variable {r : Registry} {s : ApiSet} {t : Target} {p : Pass} {name : String}

namespace Logged

variable {α β : Type}

@[simp] theorem result_pure (a : α) : (pure a : Logged α).result = .ok a := rfl

theorem result_bind (x : Logged α) (f : α → Logged β) :
    (x >>= f).result = x.result.bind fun a => (f a).result := by
  change (Logged.bind x f).result = _
  cases h : x.result <;> simp [Logged.bind, h, Except.bind]

@[simp] theorem result_warn_bind (w : Warning) (f : Unit → Logged β) :
    (warn w >>= f).result = (f ()).result := rfl

theorem result_bind_eq_ok {x : Logged α} {f : α → Logged β} {b : β} :
    (x >>= f).result = .ok b ↔ ∃ a, x.result = .ok a ∧ (f a).result = .ok b := by
  change (Logged.bind x f).result = .ok b ↔ _
  cases h : x.result with
  | error e => simp [Logged.bind, h]
  | ok a => simp [Logged.bind, h]

theorem result_bind_eq_error {x : Logged α} {f : α → Logged β} {e : Error} :
    (x >>= f).result = .error e ↔
      x.result = .error e ∨ ∃ a, x.result = .ok a ∧ (f a).result = .error e := by
  rw [result_bind]
  cases x.result <;> simp [Except.bind]

theorem result_bind_pure_eq_error {x : Logged α} {f : α → β} {e : Error} :
    (x >>= fun a => pure (f a)).result = .error e ↔ x.result = .error e := by
  simp [result_bind_eq_error]

/-- A traversal succeeds exactly if it does at every element. -/
theorem traverse_eq_ok {f : α → Logged β} {as : List α} {bs : List β} :
    (traverse f as).result = .ok bs ↔ List.Forall₂ (fun a b => (f a).result = .ok b) as bs := by
  induction as generalizing bs with
  | nil =>
    rw [List.forall₂_nil_left_iff]
    simp [traverse, eq_comm]
  | cons a as ih =>
    simp only [traverse, result_bind_eq_ok, result_pure, ih, List.forall₂_cons_left_iff]
    constructor
    · rintro ⟨b, hb, bs', hbs, h⟩
      cases h
      exact ⟨b, bs', hb, hbs, rfl⟩
    · rintro ⟨b, bs', hb, hbs, rfl⟩
      exact ⟨b, hb, bs', hbs, rfl⟩

theorem exists_of_traverse {f : α → Logged β} {as : List α} {bs : List β}
    (h : (traverse f as).result = .ok bs) {a : α} (ha : a ∈ as) : ∃ b, (f a).result = .ok b := by
  rw [traverse_eq_ok] at h
  induction h with
  | nil => cases ha
  | cons hb _ ih =>
    rcases List.mem_cons.1 ha with rfl | ha
    · exact ⟨_, hb⟩
    · exact ih ha

/-- A traversal fails at one of its elements. -/
theorem exists_of_traverse_eq_error {f : α → Logged β} {as : List α} {e : Error}
    (h : (traverse f as).result = .error e) : ∃ a ∈ as, (f a).result = .error e := by
  induction as with
  | nil => cases h
  | cons a as ih =>
    rcases result_bind_eq_error.1 h with hfirst | ⟨b, -, hrest⟩
    · exact ⟨a, List.mem_cons_self, hfirst⟩
    · obtain ⟨a', ha', he⟩ := ih (result_bind_pure_eq_error.1 hrest)
      exact ⟨a', List.mem_cons_of_mem a ha', he⟩

/-- A traversal by steps whose values are known. -/
theorem eq_map_of_traverse {f : α → Logged β} {g : α → β}
    (hg : ∀ a b, (f a).result = .ok b → g a = b) {as : List α} {bs : List β}
    (h : (traverse f as).result = .ok bs) : bs = as.map g := by
  rw [traverse_eq_ok] at h
  induction h with
  | nil => rfl
  | cons hb _ ih => rw [List.map_cons, hg _ _ hb, ih]

end Logged

/-! ### The blocks of a pass -/

/-- The names that a set refers to in a target: those of the requirements that apply to it. -/
def ApiSet.targeted (s : ApiSet) (t : Target) : List String :=
  (s.requirements.filter (·.appliesTo t.apis)).flatMap (·.names)

theorem ApiSet.targeted_subset_references : s.targeted t ⊆ s.references := by
  intro name h
  obtain ⟨req, hreq, hname⟩ := List.mem_flatMap.1 h
  exact List.mem_flatMap.2 ⟨req, (List.mem_filter.1 hreq).1, hname⟩

/-- What a name stands for in a pass, if the pass writes it. -/
def Registry.accepted? (r : Registry) (p : Pass) (name : String) : Option Declaration :=
  (r.find? name).filter p.accepts

/-- The names that a pass writes, in order, each with what it stands for. -/
def ApiSet.resolved (s : ApiSet) (r : Registry) (t : Target) (p : Pass) :
    List (String × Declaration) :=
  (s.targeted t).filterMap fun name => (r.accepted? p name).map (name, ·)

theorem ApiSet.mem_resolved {d : Declaration} :
    (name, d) ∈ s.resolved r t p ↔ name ∈ s.targeted t ∧ r.accepted? p name = some d := by
  simp only [resolved, List.mem_filterMap, Option.map_eq_some_iff, Prod.mk.injEq]
  constructor
  · rintro ⟨n, hn, d', hd, rfl, rfl⟩
    exact ⟨hn, hd⟩
  · rintro ⟨hn, hd⟩
    exact ⟨name, hn, d, hd, rfl, rfl⟩

/-- A reference gives the block of what it stands for, if the pass writes that. -/
theorem Block.result_ofReference :
    (ofReference r s t p name).result =
      match r.accepted? p name with
      | none => .ok none
      | some d => (of r t p (r.otherWriter? s name) d).map some := by
  unfold ofReference Registry.accepted?
  cases r.find? name with
  | none => by_cases hp : p = .types <;> simp [hp]
  | some d =>
    by_cases hd : p.accepts d
    · have hpure : (do return some (← Logged.ofExcept (of r t p (r.otherWriter? s name) d)) :
          Logged (Option Block)).result = (of r t p (r.otherWriter? s name) d).map some := by
        rw [Logged.result_bind]
        cases of r t p (r.otherWriter? s name) d <;> rfl
      simp only [hd, if_true, Option.filter_some, ← hpure]
      split
      · split <;> simp
      · rfl
    · simp [hd, Option.filter_some]

/-- The block that a pass writes for a resolved reference. -/
def ApiSet.Writes (s : ApiSet) (r : Registry) (t : Target) (p : Pass)
    (reference : String × Declaration) (b : Block) : Prop :=
  Block.of r t p (r.otherWriter? s reference.1) reference.2 = .ok b

/-- The blocks of some names are those of the names that are resolved. -/
theorem forall₂_writes {names : List String} {bs : List (Option Block)}
    (h : List.Forall₂ (fun name b => (Block.ofReference r s t p name).result = .ok b) names bs) :
    List.Forall₂ (s.Writes r t p)
      (names.filterMap fun name => (r.accepted? p name).map (name, ·)) (bs.filterMap id) := by
  induction h with
  | nil => exact .nil
  | @cons name b names bs hb _ ih =>
    rw [Block.result_ofReference] at hb
    cases hd : r.accepted? p name with
    | none =>
      simp only [hd, Except.ok.injEq] at hb
      simpa [hd, ← hb] using ih
    | some d =>
      simp only [hd] at hb
      obtain ⟨b', hb', rfl⟩ := map_eq_ok.1 hb
      simp only [List.filterMap_cons, hd, Option.map_some, id_eq]
      exact .cons hb' ih

/-- The sections of a pass hold the blocks of all resolved references, in order. -/
theorem ApiSet.forall₂_sections {sections : List Section}
    (h : (s.sections r t p).result = .ok sections) :
    List.Forall₂ (s.Writes r t p) (s.resolved r t p) (sections.flatMap (·.blocks)) := by
  unfold ApiSet.sections at h
  unfold resolved targeted
  rw [Logged.traverse_eq_ok] at h
  generalize s.requirements.filter _ = reqs at h ⊢
  induction h with
  | nil => exact .nil
  | @cons req sec reqs secs hsec _ ih =>
    obtain ⟨bs, hbs, hsec⟩ := Logged.result_bind_eq_ok.1 hsec
    simp only [Logged.result_pure, Except.ok.injEq] at hsec
    rw [List.flatMap_cons, List.filterMap_append, List.flatMap_cons, ← hsec]
    exact List.rel_append (forall₂_writes (Logged.traverse_eq_ok.1 hbs)) ih

/-- A set that can be laid out has the sections of each pass. -/
theorem ApiSet.sections_of_items {items : List Item} (h : (s.items r t).result = .ok items)
    (hp : p ∈ Pass.order s.kind) : ∃ sections, (s.sections r t p).result = .ok sections := by
  obtain ⟨passes, hpasses, -⟩ := Logged.result_bind_eq_ok.1 h
  obtain ⟨pass, hpass⟩ := Logged.exists_of_traverse hpasses hp
  obtain ⟨sections, hsec, -⟩ := Logged.result_bind_eq_ok.1 hpass
  exact ⟨sections, hsec⟩

/-- The blocks of a pass, each with the name that it was written for. -/
def ApiSet.emissions (s : ApiSet) (r : Registry) (t : Target) (p : Pass) :
    List (String × Block) :=
  match (s.sections r t p).result with
  | .ok sections => ((s.resolved r t p).map Prod.fst).zip (sections.flatMap (·.blocks))
  | .error _ => []

theorem ApiSet.map_fst_emissions {sections : List Section}
    (h : (s.sections r t p).result = .ok sections) :
    (s.emissions r t p).map Prod.fst = (s.resolved r t p).map Prod.fst := by
  have hlen := (forall₂_sections h).length_eq
  simp [emissions, h, List.map_fst_zip, hlen]

/-- What a pass writes has a block in it. -/
theorem ApiSet.exists_mem_emissions {items : List Item} {d : Declaration}
    (h : (s.items r t).result = .ok items) (hp : p ∈ Pass.order s.kind)
    (hd : (name, d) ∈ s.resolved r t p) : ∃ b, (name, b) ∈ s.emissions r t p := by
  obtain ⟨sections, hsec⟩ := sections_of_items h hp
  have hfst : name ∈ (s.emissions r t p).map Prod.fst := by
    rw [map_fst_emissions hsec]
    exact List.mem_map_of_mem hd
  obtain ⟨⟨_, b⟩, hb, rfl⟩ := List.mem_map.1 hfst
  exact ⟨b, hb⟩

/-- Every block of a pass stands for a reference that the pass writes. -/
theorem ApiSet.writes_of_mem_emissions {b : Block} (h : (name, b) ∈ s.emissions r t p) :
    ∃ d, (name, d) ∈ s.resolved r t p ∧ s.Writes r t p (name, d) b := by
  unfold emissions at h
  split at h
  · next sections hsec =>
    have hblocks := forall₂_sections hsec
    rw [List.zip_map_left] at h
    obtain ⟨⟨⟨n, d⟩, b'⟩, hmem, heq⟩ := List.mem_map.1 h
    cases heq
    exact ⟨d, (List.of_mem_zip hmem).1, List.forall₂_zip hblocks hmem⟩
  · cases h

/-- A block is commented out exactly if its declaration has another writer. -/
theorem Block.of_eq_ok {writer : Option String} {d : Declaration} {b : Block} :
    of r t p writer d = .ok b ↔
      ∃ text,
        (if writer.isSome then d.withoutDoc else d).render (decide (p = .pointers)) r t = .ok text ∧
        ⟨d, writer, if writer.isSome then suppressed text else Text.lines text⟩ = b := by
  cases writer <;> simp [of, map_eq_ok]

/-! ### The layout of the blocks -/

/-- The block that an item is. -/
def Item.block? : Item → Option Block
  | .block b => some b
  | _ => none

@[simp] theorem Entry.filterMap_items (e : Entry) : e.items.filterMap Item.block? = [e.block] := by
  cases hc : e.comment <;> cases hs : e.spaced <;>
    simp [Entry.items, Item.block?, hc, hs, List.filterMap_cons]

@[simp] theorem filterMap_flatMap_items (es : List Entry) :
    (es.flatMap (·.items)).filterMap Item.block? = es.map (·.block) := by
  induction es with
  | nil => rfl
  | cons e es ih => simp [ih]

@[simp] theorem filterMap_fencedItems (opened : Option String) (es : List Entry) :
    (fencedItems opened es).filterMap Item.block? = es.map (·.block) := by
  induction es generalizing opened with
  | nil => cases opened <;> simp [fencedItems, Item.block?]
  | cons e es ih =>
    rw [fencedItems]
    split
    · simp [ih]
    · cases opened <;> simp [ih, Item.block?, List.filterMap_cons]

@[simp] theorem Section.map_entries (sec : Section) : sec.entries.map (·.block) = sec.blocks := by
  unfold Section.entries
  generalize sec.comment = c
  induction sec.blocks generalizing c with
  | nil => rfl
  | cons b bs ih => simp [entriesFrom, ih]

/-- A laid out pass consists of the blocks of its sections. -/
theorem Pass.blocks_items (kind : SetKind) (sections : List Section) :
    (p.items kind sections).filterMap Item.block? = sections.flatMap (·.blocks) := by
  have hblocks : (sections.flatMap (·.entries)).map (·.block) = sections.flatMap (·.blocks) := by
    simp [List.map_flatMap]
  cases p with
  | types => simp [items, hblocks]
  | prototypes => simp [items, hblocks]
  | pointers =>
    simp only [items, List.filterMap_append, filterMap_flatMap_items, hblocks]
    split <;> simp [Item.block?]

/-- A laid out set consists of the blocks of its passes. -/
theorem ApiSet.blocks_items {items : List Item} (h : (s.items r t).result = .ok items) :
    items.filterMap Item.block? =
      (Pass.order s.kind).flatMap fun p => (s.emissions r t p).map Prod.snd := by
  obtain ⟨passes, hpasses, hitems⟩ := Logged.result_bind_eq_ok.1 h
  simp only [Logged.result_pure, Except.ok.injEq] at hitems
  subst hitems
  rw [Logged.traverse_eq_ok] at hpasses
  clear h
  generalize Pass.order s.kind = order at hpasses ⊢
  induction hpasses with
  | nil => rfl
  | @cons p pass ps passes hp _ ih =>
    obtain ⟨sections, hsec, hpass⟩ := Logged.result_bind_eq_ok.1 hp
    simp only [Logged.result_pure, Except.ok.injEq] at hpass
    have hlen := (ApiSet.forall₂_sections hsec).length_eq
    rw [List.flatten_cons, List.filterMap_append, ih, List.flatMap_cons, ← hpass,
      Pass.blocks_items]
    simp [emissions, hsec, List.map_snd_zip, hlen]

theorem ApiSet.block_mem_items {items : List Item} (h : (s.items r t).result = .ok items)
    (hp : p ∈ Pass.order s.kind) {b : Block} (hb : (name, b) ∈ s.emissions r t p) :
    .block b ∈ items := by
  have hmem : b ∈ items.filterMap Item.block? := by
    rw [blocks_items h]
    exact List.mem_flatMap.2 ⟨p, hp, List.mem_map_of_mem hb⟩
  obtain ⟨item, hitem, hblock⟩ := List.mem_filterMap.1 hmem
  cases item with
  | block b' =>
    obtain rfl : b' = b := Option.some.inj hblock
    exact hitem
  | openPrototypes | closePrototypes | heading | comment | blank => cases hblock

end ApiHeaders
