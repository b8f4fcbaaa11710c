import ApiHeaders.Proofs.Covering

/-!
# Reading registries

Of several paths to one place, the first one is read, unless the registry is there already. So the
order of the paths does not matter as long as it is the same path that comes first at each place.

## Main definitions

* `Source.registry?` is the registry that a path leads to.

## Main statements

* `Generator.load_congr` says that only the texts at the given paths matter.
* `Generator.get?_load` and `Generator.load_of_readable` say what reading comes to.
* `Generator.load_swap` reads two registries in the other order.
-/

namespace ApiHeaders

variable {g g₁ : Generator} {source : Source} {path : Path} {paths : List Path}
  {place : List Component} {warnings : List Warning}

/-- The registry that can be read at a path. -/
def Source.registry? (source : Source) (path : Path) : Option Registry :=
  (source path).toOption.bind fun text => (Registry.parse text).toOption.map (·.1)

/-- The first path at a place stays when those that name the place again are left out. -/
theorem Config.find?_distinct (paths : List Path) (place : List Component) :
    (distinct paths).find? (·.components = place) = paths.find? (·.components = place) := by
  have hfold (seen paths : List Path) :
      (paths.foldl (fun seen p => if seen.any (·.same p) then seen else seen ++ [p]) seen).find?
          (·.components = place) =
        (seen ++ paths).find? (·.components = place) := by
    induction paths generalizing seen with
    | nil => rw [List.foldl_nil, List.append_nil]
    | cons p paths ih =>
      rw [List.foldl_cons, ih]
      split
      · next hany =>
        obtain ⟨q, hq, hsame⟩ := List.any_eq_true.1 hany
        have hplace : q.components = p.components := of_decide_eq_true hsame
        simp only [List.find?_append, List.find?_cons]
        by_cases hp : p.components = place
        · have hfound : (seen.find? (·.components = place)).isSome :=
            List.find?_isSome.2 ⟨q, hq, decide_eq_true (hplace.trans hp)⟩
          obtain ⟨q', hq'⟩ := Option.isSome_iff_exists.1 hfound
          rw [hq']
          rfl
        · simp [hp]
      · rw [List.append_assoc, List.singleton_append]
  exact hfold [] paths

/-- No place is named twice. -/
theorem Config.nodup_distinct (paths : List Path) :
    ((distinct paths).map (·.components)).Nodup := by
  have hfold (seen paths : List Path) (h : (seen.map (·.components)).Nodup) :
      ((paths.foldl (fun seen p => if seen.any (·.same p) then seen else seen ++ [p]) seen).map
        (·.components)).Nodup := by
    induction paths generalizing seen with
    | nil => exact h
    | cons p paths ih =>
      rw [List.foldl_cons]
      refine ih _ ?_
      split
      · exact h
      · next hnone =>
        have hnew : p.components ∉ seen.map (·.components) := by
          simpa [Path.same] using hnone
        rw [List.map_append, List.map_singleton, ← List.concat_eq_append]
        exact h.concat hnew
  exact hfold [] paths List.nodup_nil

namespace Generator

/-! ### One path -/

/-- What reading a path and others after it takes. -/
theorem load_cons_eq_ok (h : g.load source (path :: paths) = (.ok (), g₁, warnings)) :
    (g.registries.contains path.components ∧ g.load source paths = (.ok (), g₁, warnings)) ∨
    g.registries.get? path.components = none ∧ ∃ r w, source.registry? path = some r ∧
      (g.withRegistry path r).load source paths = (.ok (), g₁, w) := by
  rw [load] at h
  split at h
  · next hthere => exact .inl ⟨hthere, h⟩
  · next hmissing =>
    right
    have hnone : g.registries.get? path.components = none := by
      simpa [Table.contains] using hmissing
    refine ⟨hnone, ?_⟩
    cases hsource : source path with
    | error fault =>
      rw [hsource] at h
      cases h
    | ok text =>
      rw [hsource] at h
      cases hparse : Registry.parse text with
      | error e =>
        simp only [hparse] at h
        cases h
      | ok parsed =>
        obtain ⟨r, remarks⟩ := parsed
        simp only [hparse] at h
        cases hload : (g.withRegistry path r).load source paths with
        | mk outcome more =>
          obtain ⟨g₂, w⟩ := more
          rw [hload] at h
          cases h
          refine ⟨r, w, ?_, hload⟩
          rw [Source.registry?, hsource]
          simp [Except.toOption, hparse]

/-- A path that can be read is read. -/
theorem exists_load_cons {r : Registry} (hnone : g.registries.get? path.components = none)
    (hr : source.registry? path = some r) {w : List Warning}
    (hload : (g.withRegistry path r).load source paths = (.ok (), g₁, w)) :
    ∃ warnings, g.load source (path :: paths) = (.ok (), g₁, warnings) := by
  rw [Source.registry?, Option.bind_eq_some_iff] at hr
  obtain ⟨text, htext, hr⟩ := hr
  obtain ⟨⟨r', remarks⟩, hparsed, rfl⟩ := Option.map_eq_some_iff.1 hr
  have hsource : source path = .ok text := by
    cases hsource : source path with
    | error fault => simp [hsource, Except.toOption] at htext
    | ok text' => simpa [hsource, Except.toOption] using htext
  have hparse : Registry.parse text = .ok (r', remarks) := by
    cases hparse : Registry.parse text with
    | error e => simp [hparse, Except.toOption] at hparsed
    | ok parsed => simpa [hparse, Except.toOption] using hparsed
  refine ⟨remarks ++ w, ?_⟩
  have hmissing : g.registries.contains path.components = false := by
    simp [Table.contains, hnone]
  rw [load, hmissing]
  simp only [Bool.false_eq_true, if_false, hsource, hparse, hload]

/-! ### All paths -/

/-- Only the texts at the given paths matter. -/
theorem load_congr {source' : Source} (g : Generator) (h : ∀ p ∈ paths, source' p = source p) :
    g.load source' paths = g.load source paths := by
  induction paths generalizing g with
  | nil => rfl
  | cons path paths ih =>
    have hrest (g : Generator) : g.load source' paths = g.load source paths :=
      ih g fun p hp => h p (List.mem_cons_of_mem path hp)
    simp only [load, h path List.mem_cons_self, hrest]

/-- After reading, a registry that was there is the same, and any other is what the first path to
its place leads to. -/
theorem get?_load (h : g.load source paths = (.ok (), g₁, warnings)) (place : List Component) :
    g₁.registries.get? place = (g.registries.get? place).or
      ((paths.find? (·.components = place)).bind source.registry?) := by
  induction paths generalizing g warnings with
  | nil =>
    cases h
    simp
  | cons path paths ih =>
    rcases load_cons_eq_ok h with ⟨hthere, hload⟩ | ⟨hnone, r, w, hr, hload⟩
    · rw [ih hload]
      by_cases hplace : path.components = place
      · obtain ⟨r, hr⟩ := Option.isSome_iff_exists.1 hthere
        rw [← hplace, hr]
        rfl
      · simp [hplace]
    · rw [ih hload, withRegistry, Table.get?_insert]
      by_cases hplace : path.components = place
      · rw [hplace] at hnone
        simp [hplace, hnone, hr]
      · simp [hplace]

/-- After reading, the registries of all paths are there. -/
theorem contains_load (h : g.load source paths = (.ok (), g₁, warnings)) (hpath : path ∈ paths) :
    (g₁.registries.get? path.components).isSome := by
  induction paths generalizing g warnings with
  | nil => cases hpath
  | cons first paths ih =>
    rcases load_cons_eq_ok h with ⟨hthere, hload⟩ | ⟨-, r, w, -, hload⟩
    · rcases List.mem_cons.1 hpath with rfl | hpath
      · rw [get?_load hload, Option.isSome_or]
        rw [Table.contains] at hthere
        rw [hthere]
        rfl
      · exact ih hload hpath
    · rcases List.mem_cons.1 hpath with rfl | hpath
      · rw [get?_load hload, withRegistry, Table.get?_insert, if_pos rfl]
        rfl
      · exact ih hload hpath

/-- Registries can be read if the first path to each place can. -/
theorem load_of_readable
    (h : ∀ place path, g.registries.get? place = none →
      paths.find? (·.components = place) = some path → (source.registry? path).isSome) :
    ∃ g₁ warnings, g.load source paths = (.ok (), g₁, warnings) := by
  induction paths generalizing g with
  | nil => exact ⟨g, [], rfl⟩
  | cons path paths ih =>
    cases hget : g.registries.get? path.components with
    | some r =>
      have hthere : g.registries.contains path.components := by
        rw [Table.contains, hget]
        rfl
      obtain ⟨g₁, warnings, hload⟩ := ih fun place path' hnone hfind => by
        refine h place path' hnone ?_
        have hplace : path.components ≠ place := by
          rintro rfl
          rw [hget] at hnone
          cases hnone
        simpa [List.find?_cons, hplace] using hfind
      refine ⟨g₁, warnings, ?_⟩
      rw [load, if_pos hthere]
      exact hload
    | none =>
      obtain ⟨r, hr⟩ := Option.isSome_iff_exists.1 (h path.components path hget (by simp))
      obtain ⟨g₁, w, hload⟩ := ih (g := g.withRegistry path r) fun place path' hnone hfind => by
        rw [withRegistry, Table.get?_insert] at hnone
        split at hnone
        · cases hnone
        · next hplace => exact h place path' hnone (by simpa [List.find?_cons, hplace] using hfind)
      obtain ⟨warnings, hall⟩ := exists_load_cons hget hr hload
      exact ⟨g₁, warnings, hall⟩

/-! ### Two paths in the other order -/

/-- What the first path at a place leads to when two paths come in the other order. -/
theorem find?_bind_swap {β : Type} (f : Path → Option β) {before after : List Path} {k₁ k₂ : Path}
    (h : k₁.components = place → k₂.components = place →
      (∃ p ∈ before, p.components = place) ∨ f k₂ = f k₁) :
    ((before ++ k₂ :: k₁ :: after).find? (·.components = place)).bind f =
      ((before ++ k₁ :: k₂ :: after).find? (·.components = place)).bind f := by
  rw [List.find?_append, List.find?_append]
  cases hbefore : before.find? (·.components = place) with
  | some p => rfl
  | none =>
    by_cases h₁ : k₁.components = place <;> by_cases h₂ : k₂.components = place
    · rcases h h₁ h₂ with ⟨p, hp, hplace⟩ | hsame
      · exact absurd (decide_eq_true hplace) (List.find?_eq_none.1 hbefore p hp)
      · simp [h₁, h₂, hsame]
    all_goals simp [h₁, h₂]

/-- Two paths can be read in the other order, and lead to the same registries. If they are two
spellings of one place that is not there yet, both have to read the same. -/
theorem load_swap {before after : List Path} {k₁ k₂ : Path}
    (h : g.load source (Config.distinct (before ++ k₁ :: k₂ :: after)) = (.ok (), g₁, warnings))
    (hsame : k₁.same k₂ → g.registries.contains k₁.components ∨ (∃ p ∈ before, p.same k₁) ∨
      source k₂ = source k₁) :
    ∃ g₂ w, g.load source (Config.distinct (before ++ k₂ :: k₁ :: after)) = (.ok (), g₂, w) ∧
      ∀ place, g₂.registries.get? place = g₁.registries.get? place := by
  have hfirst (place : List Component) (hnone : g.registries.get? place = none) :
      ((before ++ k₂ :: k₁ :: after).find? (·.components = place)).bind source.registry? =
        ((before ++ k₁ :: k₂ :: after).find? (·.components = place)).bind source.registry? := by
    apply find?_bind_swap
    rintro rfl h₂
    rcases hsame (decide_eq_true h₂.symm) with hthere | ⟨p, hp, hplace⟩ | hsource
    · rw [Table.contains, hnone] at hthere
      cases hthere
    · exact .inl ⟨p, hp, of_decide_eq_true hplace⟩
    · right
      rw [Source.registry?, Source.registry?, hsource]
  have hreadable : ∀ place path, g.registries.get? place = none →
      (Config.distinct (before ++ k₂ :: k₁ :: after)).find? (·.components = place) = some path →
      (source.registry? path).isSome := by
    intro place path hnone hpath
    rw [Config.find?_distinct] at hpath
    have hmem : path ∈ before ++ k₁ :: k₂ :: after := by
      have hperm : (before ++ k₂ :: k₁ :: after).Perm (before ++ k₁ :: k₂ :: after) :=
        (List.Perm.swap k₁ k₂ after).append_left before
      exact hperm.mem_iff.1 (List.mem_of_find?_eq_some hpath)
    have hplace : path.components = place := by simpa using List.find?_some hpath
    have hfound := hfirst place hnone
    rw [hpath, Option.bind_some] at hfound
    -- The registry at the place was read before, be it at this path or at another one.
    have hthere := get?_load h place
    rw [hnone, Option.none_or, Config.find?_distinct, ← hfound] at hthere
    rw [← hthere]
    cases hfind : (Config.distinct (before ++ k₁ :: k₂ :: after)).find? (·.components = place) with
    | none =>
      rw [Config.find?_distinct] at hfind
      exact absurd (decide_eq_true hplace) (List.find?_eq_none.1 hfind path hmem)
    | some q =>
      have hq : q.components = place := by simpa using List.find?_some hfind
      exact hq ▸ contains_load h (List.mem_of_find?_eq_some hfind)
  obtain ⟨g₂, w, hload⟩ := load_of_readable hreadable
  refine ⟨g₂, w, hload, ?_⟩
  intro place
  rw [get?_load hload, get?_load h, Config.find?_distinct, Config.find?_distinct]
  cases hget : g.registries.get? place with
  | some r => rfl
  | none => rw [hfirst place hget]

end Generator

end ApiHeaders
