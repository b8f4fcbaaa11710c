import ApiHeaders.Generator
import ApiHeaders.Proofs.Locality
import Mathlib.Data.Set.Basic

/-!
# Registries that agree

Rendering a set reads the tables of a registry and what it remembers of the names that the set
refers to, and nothing else of it. So two registries with the same tables can stand for one another
as far as they remember the same.

## Main definitions

* `Registry.Agree` says that two registries agree on some names.
* `Registry.markAll` marks several sets, `Registry.referenced` are the names that they refer to.
* `Registries.Agree` compares the registries of two generators.

## Main statements

* `Registry.Agree.alikeFor` and `select_agree` say what the lines of a set and the selection of an
  output depend on.
* `Registry.agree_markAll_swap` marks sets that have no references in common in another order.
-/

namespace ApiHeaders

variable {names names' : Set String} {r r' r'' : Registry} {s : ApiSet} {name : String}

namespace Registry

/-- Two registries with the same tables that remember the same of some names. -/
structure Agree (names : Set String) (r r' : Registry) : Prop where
  tables : r' = { r with written := r'.written }
  memory : ∀ name ∈ names, r'.writtenBy? name = r.writtenBy? name

namespace Agree

theorem refl (names : Set String) (r : Registry) : r.Agree names r :=
  ⟨rfl, fun _ _ => rfl⟩

theorem symm (h : r.Agree names r') : r'.Agree names r where
  tables := by
    rw [h.tables]
  memory name hname := (h.memory name hname).symm

theorem trans (h : r.Agree names r') (h' : r'.Agree names r'') : r.Agree names r'' where
  tables := by
    rw [h'.tables, h.tables]
  memory name hname := (h'.memory name hname).trans (h.memory name hname)

theorem mono (h : r.Agree names r') (hsubset : names' ⊆ names) : r.Agree names' r' :=
  ⟨h.tables, fun name hname => h.memory name (hsubset hname)⟩

theorem find?_eq (h : r.Agree names r') (name : String) : r'.find? name = r.find? name := by
  rw [h.tables]
  rfl

theorem set?_eq (h : r.Agree names r') (name : String) : r'.set? name = r.set? name := by
  rw [h.tables]
  rfl

end Agree

/-! ### What changes the memory -/

/-- Notes that several sets have written all that they refer to, one after the other. -/
def markAll (r : Registry) (sets : List ApiSet) : Registry := sets.foldl markWritten r

@[simp] theorem markAll_nil (r : Registry) : r.markAll [] = r := rfl

@[simp] theorem markAll_cons (r : Registry) (s : ApiSet) (sets : List ApiSet) :
    r.markAll (s :: sets) = (r.markWritten s).markAll sets := rfl

theorem markAll_append (r : Registry) (xs ys : List ApiSet) :
    r.markAll (xs ++ ys) = (r.markAll xs).markAll ys :=
  List.foldl_append

theorem markAll_eq (r : Registry) (sets : List ApiSet) :
    r.markAll sets = { r with written := (r.markAll sets).written } := by
  induction sets generalizing r with
  | nil => rfl
  | cons s sets ih =>
    rw [markAll_cons, ih (r.markWritten s)]
    rfl

/-- After several sets are marked, the last of them that refers to a name is its writer. -/
theorem writtenBy?_markAll (r : Registry) (sets : List ApiSet) (name : String) :
    (r.markAll sets).writtenBy? name =
      ((sets.reverse.find? (name ∈ ·.references)).map (·.name)).or (r.writtenBy? name) := by
  induction sets generalizing r with
  | nil => rfl
  | cons s sets ih =>
    rw [markAll_cons, ih, writtenBy?_markWritten, List.reverse_cons, List.find?_append]
    cases sets.reverse.find? (name ∈ ·.references) with
    | some w => rfl
    | none => by_cases hs : name ∈ s.references <;> simp [hs]

/-- The names that several sets refer to. -/
def referenced (sets : List ApiSet) : Set String := {name | ∃ s ∈ sets, name ∈ s.references}

theorem referenced_append (xs ys : List ApiSet) :
    referenced (xs ++ ys) = referenced xs ∪ referenced ys := by
  ext name
  simp only [referenced, List.mem_append, Set.mem_ofPred_eq, Set.mem_union, or_and_right, exists_or]

theorem Agree.markAll (h : r.Agree names r') (sets : List ApiSet) :
    (r.markAll sets).Agree names (r'.markAll sets) where
  tables := by
    rw [r'.markAll_eq, r.markAll_eq, h.tables]
  memory name hname := by
    rw [writtenBy?_markAll, writtenBy?_markAll, h.memory name hname]

theorem find?_eq_none_of_not_referenced {sets : List ApiSet} (h : name ∉ referenced sets) :
    sets.reverse.find? (name ∈ ·.references) = none := by
  rw [List.find?_eq_none]
  intro s hs hname
  exact h ⟨s, List.mem_reverse.1 hs, of_decide_eq_true hname⟩

/-- Marking sets does not touch what they do not refer to. -/
theorem agree_markAll (r : Registry) {sets : List ApiSet}
    (h : ∀ name ∈ names, name ∉ referenced sets) : r.Agree names (r.markAll sets) where
  tables := r.markAll_eq sets
  memory name hname := by
    rw [writtenBy?_markAll, find?_eq_none_of_not_referenced (h name hname)]
    rfl

/-- Marking sets changes nothing but the memory. -/
theorem tables_markAll (r : Registry) (sets : List ApiSet) : r.Agree ∅ (r.markAll sets) :=
  r.agree_markAll fun name hname => absurd hname (Set.notMem_empty name)

/-- Sets without common references can be marked in either order. -/
theorem agree_markAll_swap (r : Registry) {xs ys : List ApiSet}
    (h : ∀ name ∈ referenced xs, name ∉ referenced ys) :
    ((r.markAll xs).markAll ys).Agree Set.univ ((r.markAll ys).markAll xs) where
  tables := by
    rw [markAll_eq (r.markAll ys), markAll_eq (r.markAll xs), r.markAll_eq ys, r.markAll_eq xs]
  memory name _ := by
    simp only [writtenBy?_markAll]
    by_cases hx : name ∈ referenced xs
    · rw [find?_eq_none_of_not_referenced (h name hx)]
      rfl
    · rw [find?_eq_none_of_not_referenced hx]
      rfl

/-- A registry without memory is what a reset leads to. -/
theorem Agree.resetWritten (h : r.Agree names r') (hblank : ∀ name, r.writtenBy? name = none) :
    r.Agree Set.univ r'.resetWritten where
  tables := by
    rw [h.tables]
    rfl
  memory name _ := (writtenBy?_resetWritten r' name).trans (hblank name).symm

theorem Agree.reset (h : r.Agree names r') : r.resetWritten.Agree Set.univ r'.resetWritten where
  tables := by
    rw [h.tables]
    rfl
  memory _ _ := rfl

end Registry

open Registry (Agree)

/-! ### What reads a registry -/

theorem Registry.Agree.alikeFor (h : r.Agree names r')
    (hnames : ∀ name ∈ s.references, name ∈ names) : r.AlikeFor s r' where
  declarations name _ := h.find?_eq name
  groups _ _ _ _ _ _ := by
    rw [h.tables]
    rfl
  widths _ _ _ _ := by
    rw [h.tables]
    rfl
  memory name hname := h.memory name (hnames name hname)

theorem ApiSet.headers_agree (h : r.Agree names r') : s.headers r' = s.headers r :=
  headers_local fun name _ => h.find?_eq name

theorem select_agree (h : r.Agree names r') (o : Output) : select r' o = select r o := by
  rw [h.tables]
  rfl

/-! ### The registries of a generator -/

theorem rel_mono {α β : Type} {R S : α → β → Prop} {x : Option α} {y : Option β}
    (h : ∀ a b, R a b → S a b) (hxy : Option.Rel R x y) : Option.Rel S x y := by
  cases hxy with
  | none => exact .none
  | some hab => exact .some (h _ _ hab)

theorem rel_trans {α β γ : Type} {R : α → β → Prop} {S : β → γ → Prop} {T : α → γ → Prop}
    {x : Option α} {y : Option β} {z : Option γ} (h : ∀ a b c, R a b → S b c → T a c)
    (hxy : Option.Rel R x y) (hyz : Option.Rel S y z) : Option.Rel T x z := by
  cases hxy with
  | none =>
    cases hyz with
    | none => exact .none
  | some hab =>
    cases hyz with
    | some hbc => exact .some (h _ _ _ hab hbc)

theorem rel_symm {α : Type} {R : α → α → Prop} {x y : Option α} (h : ∀ a b, R a b → R b a)
    (hxy : Option.Rel R x y) : Option.Rel R y x := by
  cases hxy with
  | none => exact .none
  | some hab => exact .some (h _ _ hab)

/-- The registries at the same places agree, each pair on some names. -/
def Registries.Agree (names : List Component → Set String)
    (rs rs' : Table (List Component) Registry) : Prop :=
  ∀ place, Option.Rel (Registry.Agree (names place)) (rs.get? place) (rs'.get? place)

namespace Registries

variable {names names' : List Component → Set String}
  {rs rs' rs'' : Table (List Component) Registry} {place : List Component}

theorem Agree.of_get?_eq (h : ∀ place, rs'.get? place = rs.get? place) : Agree names rs rs' := by
  intro place
  rw [h place]
  cases rs.get? place with
  | none => exact .none
  | some r => exact .some (.refl _ r)

theorem Agree.refl (names : List Component → Set String) (rs : Table (List Component) Registry) :
    Agree names rs rs :=
  of_get?_eq fun _ => rfl

theorem Agree.trans (h : Agree names rs rs') (h' : Agree names rs' rs'') : Agree names rs rs'' :=
  fun place => rel_trans (fun _ _ _ hfirst hsecond => hfirst.trans hsecond) (h place) (h' place)

theorem Agree.symm (h : Agree names rs rs') : Agree names rs' rs :=
  fun place => rel_symm (fun _ _ hagree => hagree.symm) (h place)

theorem Agree.mono (h : Agree names rs rs') (hsubset : ∀ place, names' place ⊆ names place) :
    Agree names' rs rs' :=
  fun place => rel_mono (fun _ _ hagree => hagree.mono (hsubset place)) (h place)

theorem Agree.get?_eq_some (h : Agree names rs rs') (hr : rs.get? place = some r) :
    ∃ r', rs'.get? place = some r' ∧ r.Agree (names place) r' := by
  have hplace := h place
  rw [hr] at hplace
  generalize rs'.get? place = found at hplace
  cases hplace with
  | some hagree => exact ⟨_, rfl, hagree⟩

theorem Agree.contains_eq (h : Agree names rs rs') (place : List Component) :
    rs'.contains place = rs.contains place := by
  have hplace := h place
  unfold Table.contains
  generalize rs.get? place = x at hplace ⊢
  generalize rs'.get? place = y at hplace ⊢
  cases hplace <;> rfl

/-- Registries still agree when those at one place are replaced. -/
theorem Agree.insert (h : Agree names rs rs') (hr : r.Agree (names place) r') :
    Agree names (rs.insert place r) (rs'.insert place r') := by
  intro other
  rw [Table.get?_insert, Table.get?_insert]
  by_cases hother : place = other
  · subst hother
    simpa using Option.Rel.some hr
  · rw [if_neg hother, if_neg hother]
    exact h other

/-- Registries still agree after those at one place are reset. -/
theorem Agree.reset (h : Agree names rs rs') (place : List Component) :
    Agree names (rs.modify place Registry.resetWritten)
      (rs'.modify place Registry.resetWritten) := by
  intro other
  rw [Table.get?_modify, Table.get?_modify]
  by_cases hother : place = other
  · subst hother
    rw [if_pos rfl, if_pos rfl]
    have hplace := h place
    generalize rs.get? place = x at hplace ⊢
    generalize rs'.get? place = y at hplace ⊢
    cases hplace with
    | none => exact .none
    | some hagree => exact .some (hagree.reset.mono (Set.subset_univ _))
  · rw [if_neg hother, if_neg hother]
    exact h other

/-- After a reset at one place, registries agree there with those whose memory is blank. -/
theorem Agree.resetWritten (h : Agree names rs rs') (place : List Component)
    (hblank : ∀ r, rs.get? place = some r → ∀ name, r.writtenBy? name = none) :
    Agree (fun other => {name | name ∈ names other ∨ place = other}) rs
      (rs'.modify place Registry.resetWritten) := by
  intro other
  rw [Table.get?_modify]
  by_cases hother : place = other
  · subst hother
    rw [if_pos rfl]
    have hplace := h place
    generalize rs.get? place = x at hplace hblank ⊢
    generalize rs'.get? place = y at hplace ⊢
    cases hplace with
    | none => exact .none
    | some hagree => exact .some ((hagree.resetWritten (hblank _ rfl)).mono (Set.subset_univ _))
  · rw [if_neg hother]
    apply rel_mono _ (h other)
    intro r r' hagree
    exact hagree.mono fun name hname => hname.resolve_right hother

end Registries

end ApiHeaders
