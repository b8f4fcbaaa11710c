import ApiHeaders.Proofs.Loading

/-!
# Registries that were read

A registry that was read from a document holds every set under its own name, so the sets that an
output selects are there when they are looked up again.

## Main definitions

* `Registry.Parsed` says that a registry was read from a document, whatever it remembers.
* `Registries.Parsed` says so of all registries of a generator.

## Main statements

* `Registry.Parsed.keyed` says under which names a registry holds its sets.
* `exists_set?_of_select` looks up what an output selects.
-/

namespace ApiHeaders

theorem Table.get?_of_mem {κ ν : Type} [DecidableEq κ] {t : Table κ ν} {k : κ} {v : ν}
    (h : (k, v) ∈ t.entries) : t.get? k = some v :=
  lookup_of_mem t.nodup_keys h

theorem Table.mem_entries_iff {κ ν : Type} [DecidableEq κ] {t : Table κ ν} {k : κ} {v : ν} :
    (k, v) ∈ t.entries ↔ t.get? k = some v := by
  refine ⟨get?_of_mem, fun h => ?_⟩
  obtain ⟨before, after, hentries, -⟩ := List.lookup_eq_some_iff.1 h
  simp [hentries]

namespace Registry

variable {r r' : Registry} {s : ApiSet} {names : Set String}

/-- Whether all sets are held under their own name. -/
def Keyed (r : Registry) : Prop := ∀ entry ∈ r.sets.entries, entry.2.name = entry.1

theorem Keyed.set?_name (h : r.Keyed) (hs : s ∈ r.sets.values) : r.set? s.name = some s := by
  obtain ⟨⟨key, s'⟩, hentry, rfl⟩ := List.mem_map.1 hs
  have hkey : s'.name = key := h (key, s') hentry
  rw [hkey]
  exact Table.get?_of_mem hentry

theorem Keyed.take (h : r.Keyed) (item : Item) : (r.take item).Keyed := by
  cases item with
  | set s =>
    intro entry hentry
    rcases Staged.mem_upsertEntry hentry with hold | rfl | ⟨s', -, rfl⟩
    · exact h entry hold
    · rfl
    · rfl
  | declaration | member | skipped => exact h

/-- What is computed from a registry that was read shows that it was read. -/
theorem exists_of_parse {α : Type} {document : String} {f : Registry × List Warning → α} {a : α}
    (h : (parse document).toOption.map f = some a) :
    ∃ r warnings, parse document = .ok (r, warnings) ∧ f (r, warnings) = a := by
  cases hparse : parse document with
  | error e =>
    rw [hparse] at h
    cases h
  | ok parsed =>
    rw [hparse] at h
    exact ⟨parsed.1, parsed.2, rfl, Option.some.inj h⟩

/-- A registry that was read from a document and may have been written since. -/
def Parsed (r : Registry) : Prop :=
  ∃ document r₀ warnings, parse document = .ok (r₀, warnings) ∧ r₀.Agree ∅ r

/-- A registry that was read has whatever holds at first, is kept when an item is taken up, and does
not depend on what is written. -/
theorem Parsed.invariant {P : Registry → Prop} (h : r.Parsed) (hempty : P {})
    (htake : ∀ r item, P r → P (r.take item)) (hwritten : ∀ r w, P r → P { r with written := w }) :
    P r := by
  have htakeAll (items : List Item) (r : Registry) (hr : P r) : P (r.takeAll items).1 := by
    rw [takeAll_fst]
    induction items generalizing r with
    | nil => exact hr
    | cons item items ih => exact ih _ (htake r item hr)
  obtain ⟨document, r₀, warnings, hparse, hagree⟩ := h
  obtain ⟨root, -, hroot⟩ := map_eq_ok.1 hparse
  have hr₀ : P (ofElement root).1 := htakeAll (items root) {} hempty
  rw [hroot] at hr₀
  rw [hagree.tables]
  exact hwritten r₀ r.written hr₀

theorem Parsed.keyed (h : r.Parsed) : r.Keyed :=
  h.invariant nofun (fun _ item hr => Keyed.take hr item) fun _ _ hr => hr

theorem Parsed.of_agree (h : r.Parsed) (hagree : r.Agree names r') : r'.Parsed := by
  obtain ⟨document, r₀, warnings, hparse, hr⟩ := h
  exact ⟨document, r₀, warnings, hparse, hr.trans (hagree.mono (Set.empty_subset _))⟩

end Registry

/-! ### The sets of an output -/

section Selection

variable {r : Registry} {o : Output} {names : List String} {name : String} {e : Error}

/-- The sets that an output selects are there. -/
theorem exists_set?_of_select (h : r.Keyed) (hselect : select r o = .ok names)
    (hname : name ∈ names) : ∃ s, r.set? name = some s := by
  rw [select] at hselect
  split at hselect
  · split at hselect
    · cases hselect
    · next hfound =>
      cases hselect
      have hthere := List.find?_eq_none.1 hfound name hname
      rw [Option.isNone_iff_eq_none] at hthere
      exact Option.ne_none_iff_exists'.1 hthere
  · cases hselect
    obtain ⟨s, hs, rfl⟩ := List.mem_map.1 hname
    exact ⟨s, h.set?_name (List.mem_of_mem_filter hs)⟩

/-- A selection fails only if the output lists a set that is not there. -/
theorem unknown_of_select (h : select r o = .error e) :
    ∃ names name, o.included = some names ∧ name ∈ names ∧ r.set? name = none ∧
      e = .unknownSet name o.path := by
  rw [select] at h
  split at h
  · next names hincluded =>
    split at h
    · next name hfind =>
      cases h
      have hnone := List.find?_some hfind
      exact ⟨names, name, hincluded, List.mem_of_find?_eq_some hfind,
        Option.isNone_iff_eq_none.1 hnone, rfl⟩
    · cases h
  · cases h

end Selection

/-! ### The registries of a generator -/

/-- All registries were read from documents. -/
def Registries.Parsed (rs : Table (List Component) Registry) : Prop :=
  ∀ place r, rs.get? place = some r → r.Parsed

theorem Source.parsed_of_registry? {source : Source} {path : Path} {r : Registry}
    (h : source.registry? path = some r) : r.Parsed := by
  rw [Source.registry?, Option.bind_eq_some_iff] at h
  obtain ⟨document, -, h⟩ := h
  obtain ⟨⟨r', warnings⟩, hparse, rfl⟩ := Option.map_eq_some_iff.1 h
  refine ⟨document, r', warnings, ?_, .refl ∅ r'⟩
  cases hresult : Registry.parse document with
  | error e => simp [hresult, Except.toOption] at hparse
  | ok parsed => simpa [hresult, Except.toOption] using hparse

/-- Reading registries does not change that all were read. -/
theorem Generator.parsed_load {g g₁ : Generator} {source : Source} {paths : List Path}
    {warnings : List Warning} (hg : Registries.Parsed g.registries)
    (h : g.load source paths = (.ok (), g₁, warnings)) : Registries.Parsed g₁.registries := by
  intro place r hr
  rw [get?_load h] at hr
  rcases Option.or_eq_some_iff.1 hr with hthere | ⟨-, hread⟩
  · exact hg place r hthere
  · obtain ⟨path, -, hpath⟩ := Option.bind_eq_some_iff.1 hread
    exact Source.parsed_of_registry? hpath

end ApiHeaders
