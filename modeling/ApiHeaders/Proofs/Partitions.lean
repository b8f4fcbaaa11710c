import ApiHeaders.Proofs.Covering

/-!
# The partitions of a module

A module from which sets are extracted is written as several files. The declarations of its other
sets move to the core partition, each extracted set is a partition that imports the core, and the
file of the module itself exports them all.

## Main definitions

* `Filled` is a target with its lines.
* `Target.extracted` are the files that sets of a module are extracted into, `Target.retained` the
  lines of the others.
* `ModuleUnit` is what the file of a module or of a partition says.
* `Output.IsWrittenAs` says which units the files of a module are.

## Main statements

* `Run.renderAll_module` says what rendering the sets of a module comes to.
* `Target.file_eq_text` says that the file of a target is that of a unit.
* `partitions_closed` says which units a module is written as.
-/

namespace ApiHeaders

variable {σ : Type} {b : Boilerplate} {t : Target} {s : ApiSet} {r : Registry} {w : Writing}
  {ws : List Writing} {name a file : String}

/-- A target with its lines. -/
structure Filled where
  target : Target
  content : List String

/-- The file of a target. -/
def Filled.named (b : Boilerplate) (f : Filled) : NamedFile :=
  ⟨f.target.path, f.target.file b f.content⟩

/-- The lines of a set in a module, where it has no guard. -/
def Writing.unguarded (w : Writing) : List String :=
  w.set.opening w.registry false ++ w.items.flatMap Item.lines

theorem Writing.result_unguarded (hitems : (w.set.items w.registry w.target).result = .ok w.items) :
    (w.set.inlineLines w.registry w.target false).result = .ok w.unguarded := by
  rw [ApiSet.result_inlineLines, hitems]
  simp [ApiSet.closing, Writing.unguarded, Except.map]

namespace Target

/-- The annexes that sets are extracted into. -/
def annexes (t : Target) (ws : List Writing) : List String :=
  ws.filterMap (·.set.annexFrom? t)

/-- The files that sets of a module are extracted into. -/
def extracted (t : Target) (ws : List Writing) : List Filled :=
  (ws.filter fun w => (w.set.annexFrom? t).isSome).map fun w => ⟨w.target, w.unguarded⟩

/-- The lines of the sets that are not extracted from a module. -/
def retained (t : Target) (ws : List Writing) : List String :=
  (ws.filter fun w => (w.set.annexFrom? t).isNone).flatMap (·.unguarded)

section Cons

theorem annexes_cons_of_none (h : w.set.annexFrom? t = none) :
    t.annexes (w :: ws) = t.annexes ws := by simp [annexes, h]

theorem annexes_cons_of_some (h : w.set.annexFrom? t = some a) :
    t.annexes (w :: ws) = a :: t.annexes ws := by simp [annexes, h]

theorem extracted_cons_of_none (h : w.set.annexFrom? t = none) :
    t.extracted (w :: ws) = t.extracted ws := by simp [extracted, h]

theorem extracted_cons_of_some (h : w.set.annexFrom? t = some a) :
    t.extracted (w :: ws) = ⟨w.target, w.unguarded⟩ :: t.extracted ws := by simp [extracted, h]

theorem retained_cons_of_none (h : w.set.annexFrom? t = none) :
    t.retained (w :: ws) = w.unguarded ++ t.retained ws := by simp [retained, h]

theorem retained_cons_of_some (h : w.set.annexFrom? t = some a) :
    t.retained (w :: ws) = t.retained ws := by simp [retained, h]

end Cons

/-- A module refers to a partition by an import that exports it. -/
theorem reference_satellite (hform : t.form = .module) (hcolon : ':' ∉ a.toList)
    (headers : List String) :
    (t.satellite a headers).reference = "export import :" ++ a ++ ";" := by
  have hpartition : partitionName (t.moduleName ++ ":" ++ a) = a := by
    have hsplit : (t.moduleName ++ ":" ++ a).toList = t.moduleName.toList ++ ':' :: a.toList := by
      simp
    rw [partitionName, hsplit, Text.breakAtLast?_append hcolon]
    simp
  have hmodule : (t.satellite a headers).form = .module := hform
  have hname : (t.satellite a headers).moduleName = t.moduleName ++ ":" ++ a := rfl
  rw [reference, hmodule, hname, hpartition]

end Target

namespace Rendering

variable {st st' : Rendering σ} {sink : Sink σ} {lines : List String}

/-- A set that is not extracted is rendered into the module. -/
theorem render_retained (hs : st.registry.set? name = some s) (ha : s.annexFrom? t = none)
    (h : st.render sink b name t false = (.ok lines, st')) :
    let w : Writing := ⟨s, t, st.registry⟩
    (s.items st.registry t).result = .ok w.items ∧ lines = w.unguarded ∧
      st' = { st with registry := st.registry.markWritten s, warnings := st'.warnings } := by
  intro w
  obtain ⟨fuel, hrender⟩ := render_of_set? hs sink b t false
  rw [hrender, renderWithin_of_none ha] at h
  obtain ⟨hitems, hlines, hst⟩ := renderInline_eq_ok h
  refine ⟨hitems, ?_, hst⟩
  rw [hlines]
  simp [ApiSet.closing, Writing.unguarded, w]

/-- A set that is extracted from a module makes a file and an import. -/
theorem render_extracted {st st' : Rendering (List NamedFile)} (hform : t.form = .module)
    (hfile : t.path.fileName? = some file) (hs : st.registry.set? name = some s)
    (ha : s.annexFrom? t = some a) (hfits : t.Fits a) (hslash : '/' ∉ a.toList)
    (hcolon : ':' ∉ a.toList) (h : st.render (recorder []) b name t false = (.ok lines, st')) :
    let w : Writing := ⟨s, t.satellite a (s.headers st.registry), st.registry⟩
    (s.items st.registry w.target).result = .ok w.items ∧ lines = [] ∧ ¬st.Collides t a ∧
      st' = { registry := st.registry.markWritten s
              produced := st.produced ++ [w.target.path]
              imports := st.imports ++ ["export import :" ++ a ++ ";"]
              sink := st.sink ++ [Filled.named b ⟨w.target, w.unguarded⟩]
              warnings := st'.warnings } := by
  intro w
  have hsatellite := Target.isAnnex_satellite hfile hfits hslash (s.headers st.registry)
  have hstem : t.path.stem ≠ a := by
    have hother := (Option.filter_eq_some_iff.1 ha).2
    simpa [Target.isAnnex] using hother
  have hother := Target.components_annexPath_ne hfile hfits hslash hstem
  have hparts : s.items st.registry w.target = s.items st.registry t :=
    ApiSet.items_congr rfl rfl
  have hw : w.items = (⟨s, t, st.registry⟩ : Writing).items := by
    change ((s.items st.registry w.target).result.toOption).getD [] = _
    rw [hparts]
    rfl
  obtain ⟨fuel, hrender⟩ := render_of_set? hs (recorder []) b t false
  rw [hrender, renderWithin_extracted ha hsatellite] at h
  by_cases hcollides : st.Collides t a
  · rw [reserve_of_collides hcollides] at h
    cases h
  · rw [reserve_of_not_collides hcollides hother] at h
    simp only at h
    split at h
    · cases h
    · next content st₂ hinline =>
      obtain ⟨hitems, hlines, hst⟩ := renderInline_eq_ok hinline
      have hcontent : content = w.unguarded := by
        rw [hlines, Writing.unguarded, hw]
        simp [ApiSet.closing, w]
      simp only [recorder, List.not_mem_nil, if_false, refer, hform] at h
      cases h
      refine ⟨by rw [hparts, hw]; exact hitems, rfl, hcollides, ?_⟩
      rw [Target.reference_satellite hform hcolon, hst, hcontent]
      rfl

end Rendering

/-! ### The sets of a module -/

/-- What rendering the sets of a module comes to. -/
structure Rendering.Gathers (st : Rendering (List NamedFile)) (b : Boilerplate) (t : Target)
    (ws : List Writing) (content : List String) (st' : Rendering (List NamedFile)) : Prop where
  items : ∀ w ∈ ws, (w.set.items w.registry w.target).result = .ok w.items
  content : content = t.retained ws
  sink : st'.sink = st.sink ++ (t.extracted ws).map (·.named b)
  imports : st'.imports = st.imports ++ (t.annexes ws).map ("export import :" ++ · ++ ";")
  produced : st'.produced = st.produced ++ (t.extracted ws).map (·.target.path)
  core : corePartition ∉ t.annexes ws
  nodup : ((t.extracted ws).map (·.target.path.components)).Nodup
  fresh : ∀ f ∈ t.extracted ws, ∀ p ∈ st.produced, p.components ≠ f.target.path.components

namespace Rendering

variable {st st₁ st' : Rendering (List NamedFile)} {content : List String}

theorem gathers_nil (st : Rendering (List NamedFile)) (b : Boilerplate) (t : Target) :
    st.Gathers b t [] [] st where
  items := nofun
  content := rfl
  sink := (List.append_nil _).symm
  imports := (List.append_nil _).symm
  produced := (List.append_nil _).symm
  core := List.not_mem_nil
  nodup := List.nodup_nil
  fresh := nofun

/-- A set that is not extracted adds its lines. -/
theorem Gathers.retain (h : st₁.Gathers b t ws content st') (ha : w.set.annexFrom? t = none)
    (hitems : (w.set.items w.registry w.target).result = .ok w.items)
    (hst : st₁ = { st with registry := st₁.registry, warnings := st₁.warnings }) :
    st.Gathers b t (w :: ws) (w.unguarded ++ content) st' where
  items := List.forall_mem_cons.2 ⟨hitems, h.items⟩
  content := by rw [Target.retained_cons_of_none ha, h.content]
  sink := by rw [Target.extracted_cons_of_none ha, h.sink, hst]
  imports := by rw [Target.annexes_cons_of_none ha, h.imports, hst]
  produced := by rw [Target.extracted_cons_of_none ha, h.produced, hst]
  core := by
    rw [Target.annexes_cons_of_none ha]
    exact h.core
  nodup := by
    rw [Target.extracted_cons_of_none ha]
    exact h.nodup
  fresh := by
    rw [Target.extracted_cons_of_none ha]
    rw [hst] at h
    exact h.fresh

/-- A set that is extracted adds its file and an import. -/
theorem Gathers.extract (h : st₁.Gathers b t ws content st') (ha : w.set.annexFrom? t = some a)
    (hitems : (w.set.items w.registry w.target).result = .ok w.items)
    (hform : t.form = .module) (hpath : w.target.path = t.annexPath a)
    (hcollides : ¬st.Collides t a)
    (hst : st₁ = { registry := st₁.registry
                   produced := st.produced ++ [w.target.path]
                   imports := st.imports ++ ["export import :" ++ a ++ ";"]
                   sink := st.sink ++ [Filled.named b ⟨w.target, w.unguarded⟩]
                   warnings := st₁.warnings }) :
    st.Gathers b t (w :: ws) content st' := by
  rw [Collides, not_or, ← hpath] at hcollides
  obtain ⟨hproduced, hcore⟩ := hcollides
  have hproduced' : st₁.produced = st.produced ++ [w.target.path] := by rw [hst]
  have hfresh := h.fresh
  rw [hproduced'] at hfresh
  constructor
  case items => exact List.forall_mem_cons.2 ⟨hitems, h.items⟩
  case content => rw [Target.retained_cons_of_some ha, h.content]
  case sink =>
    rw [Target.extracted_cons_of_some ha, h.sink, hst]
    simp
  case imports =>
    rw [Target.annexes_cons_of_some ha, h.imports, hst]
    simp
  case produced =>
    rw [Target.extracted_cons_of_some ha, h.produced, hst]
    simp
  case core =>
    rw [Target.annexes_cons_of_some ha, List.mem_cons, not_or]
    exact ⟨fun heq => hcore ⟨hform, heq.symm⟩, h.core⟩
  case nodup =>
    rw [Target.extracted_cons_of_some ha, List.map_cons, List.nodup_cons]
    refine ⟨?_, h.nodup⟩
    intro hmem
    obtain ⟨f, hf, hsame⟩ := List.mem_map.1 hmem
    exact hfresh f hf w.target.path (List.mem_append_right _ List.mem_cons_self) hsame.symm
  case fresh =>
    rw [Target.extracted_cons_of_some ha]
    intro f hf p hp
    rcases List.mem_cons.1 hf with rfl | hf
    · exact fun hsame => hproduced ⟨p, hp, by simpa [Path.same] using hsame⟩
    · exact hfresh f hf p (List.mem_append_left _ hp)

end Rendering

/-- The sets of a module, one after the other. -/
theorem Run.renderAll_module (hform : t.form = .module) (hfile : t.path.fileName? = some file)
    (names : List String) {st st' : Rendering (List NamedFile)} {content : List String}
    (hannex : ∀ w ∈ st.registry.selection t names, ∀ a, w.set.annexFrom? t = some a →
      t.Fits a ∧ '/' ∉ a.toList ∧ ':' ∉ a.toList)
    (h : Run.renderAll (recorder []) b t false st names = (.ok content, st')) :
    List.Forall₂ (fun name w => st.registry.set? name = some w.set) names
        (st.registry.selection t names) ∧
      st.Gathers b t (st.registry.selection t names) content st' := by
  induction names generalizing st content with
  | nil =>
    cases h
    exact ⟨.nil, Rendering.gathers_nil _ b t⟩
  | cons name names ih =>
    rw [Run.renderAll] at h
    split at h
    · cases h
    · next lines st₁ hfirst =>
      split at h
      · cases h
      · next more st₂ hrest =>
        cases h
        cases hs : st.registry.set? name with
        | none =>
          rw [Rendering.render, hs] at hfirst
          cases hfirst
        | some s =>
          have hselection : st.registry.selection t (name :: names) =
              ⟨s, s.writtenInto st.registry t, st.registry⟩ ::
                (st.registry.markWritten s).selection t names := by
            rw [Registry.selection, hs]
          rw [hselection] at hannex ⊢
          -- The sets that follow find the same registry, with this set marked as written.
          have hmore (hregistry : st₁.registry = st.registry.markWritten s) :
              List.Forall₂ (fun name w => st.registry.set? name = some w.set) names
                  ((st.registry.markWritten s).selection t names) ∧
                st₁.Gathers b t ((st.registry.markWritten s).selection t names) more st' := by
            have hset (name : String) : st₁.registry.set? name = st.registry.set? name := by
              rw [hregistry]
              rfl
            rw [← hregistry] at hannex ⊢
            simp only [← hset]
            exact ih (fun w hw => hannex w (List.mem_cons_of_mem _ hw)) hrest
          cases ha : s.annexFrom? t with
          | none =>
            obtain ⟨hitems, rfl, hst⟩ := Rendering.render_retained hs ha hfirst
            have hregistry : st₁.registry = st.registry.markWritten s := by rw [hst]
            obtain ⟨hnames, hgathers⟩ := hmore hregistry
            rw [ApiSet.writtenInto_of_none ha]
            refine ⟨.cons hs hnames, hgathers.retain ha hitems ?_⟩
            rw [hregistry]
            exact hst
          | some a =>
            obtain ⟨hfits, hslash, hcolon⟩ := hannex _ List.mem_cons_self a ha
            obtain ⟨hitems, rfl, hcollides, hst⟩ :=
              Rendering.render_extracted hform hfile hs ha hfits hslash hcolon hfirst
            have hregistry : st₁.registry = st.registry.markWritten s := by rw [hst]
            obtain ⟨hnames, hgathers⟩ := hmore hregistry
            rw [ApiSet.writtenInto_of_annex ha]
            refine ⟨.cons hs hnames, hgathers.extract ha hitems hform rfl hcollides ?_⟩
            rw [hregistry]
            exact hst

/-! ### The units of a module -/

/-- A module or one of its partitions, as a file says it. -/
structure ModuleUnit where
  place : List Component
  /-- What stands before the name. -/
  preamble : String
  /-- The name that is declared. -/
  name : String
  /-- The import lines. -/
  imports : List String
  /-- The lines that are exported. -/
  content : List String
  deriving DecidableEq

namespace ModuleUnit

/-- The lines of a file: where it comes from, the preamble, the name, the imports, and a block of
what is exported. There is no block if that is nothing. -/
def lines (b : Boilerplate) (u : ModuleUnit) : List String :=
  b.banner ++ ["", "module;", "", u.preamble, "export module " ++ u.name ++ ";"]
    ++ (if u.imports = [] then [] else "" :: u.imports)
    ++ (if Text.unlines u.content = "" then []
        else ["", "export extern \"C\" \x7b"] ++ u.content ++ ["\x7d /* extern \"C\" */"])

def text (b : Boilerplate) (u : ModuleUnit) : String :=
  b.licenseBlock ++ String.join ((u.lines b).map (· ++ "\n"))

/-- Whether a partition is imported. -/
def Imports (u : ModuleUnit) (partition : String) : Prop :=
  "import :" ++ partition ++ ";" ∈ u.imports ∨ "export import :" ++ partition ++ ";" ∈ u.imports

end ModuleUnit

/-- What a filled target says as a file of a module. -/
def Filled.unit (f : Filled) : ModuleUnit where
  place := f.target.path.components
  preamble := f.target.preamble
  name := f.target.moduleName
  imports := f.target.imports
  content := f.content

/-- The file of a target is that of the unit. -/
theorem Target.file_eq_text (hform : t.form = .module) (b : Boilerplate) (content : List String) :
    t.file b content = (Filled.unit ⟨t, content⟩).text b := by
  have hblock : String.join ((if Text.unlines content = "" then []
        else ["", "export extern \"C\" \x7b", Text.unlines content,
          "\x7d /* extern \"C\" */"]).map (· ++ "\n")) =
      String.join ((if Text.unlines content = "" then []
        else ["", "export extern \"C\" \x7b"] ++ content ++
          ["\x7d /* extern \"C\" */"]).map (· ++ "\n")) := by
    split
    · rfl
    · next hempty =>
      have hne : content ≠ [] := fun hnil => hempty (hnil ▸ rfl)
      simp [Text.join_breaks hne, String.append_assoc]
  have hlines (before : List String) {block block' : List String}
      (h : String.join (block.map (· ++ "\n")) = String.join (block'.map (· ++ "\n"))) :
      String.join ((before ++ block).map (· ++ "\n")) =
        String.join ((before ++ block').map (· ++ "\n")) := by
    rw [List.map_append, String.join_append, h, ← String.join_append, ← List.map_append]
  rw [file, hform]
  exact congrArg (b.licenseBlock ++ ·) (hlines _ hblock)

/-- The name of a module: the one that is asked for, or that of the file. -/
def Output.unitName (o : Output) : String := o.moduleName.getD o.path.stem

namespace Target

/-- The files of a module from which sets are extracted, in order: the partitions, the core
partition, and the file of the module itself. -/
def units (t : Target) (ws : List Writing) : List Filled :=
  let exports := (corePartition :: t.annexes ws).map ("export import :" ++ · ++ ";")
  t.extracted ws ++ [⟨t.core, t.retained ws⟩, ⟨{ t with imports := exports }, []⟩]

theorem eq_of_import {p q : String} (h : "import :" ++ p ++ ";" = "import :" ++ q ++ ";") :
    p = q := by
  simpa [← String.toList_inj] using h

theorem eq_of_export {p q : String}
    (h : "export import :" ++ p ++ ";" = "export import :" ++ q ++ ";") : p = q := by
  simpa [← String.toList_inj] using h

theorem import_ne_export {p q : String} :
    "import :" ++ p ++ ";" ≠ "export import :" ++ q ++ ";" := by
  simp [← String.toList_inj]

/-- What the files that sets are extracted into have in common with the annexes. -/
theorem map_extracted {β : Type} {f : Filled → β} {g : String → β}
    (h : ∀ w ∈ ws, ∀ a, w.set.annexFrom? t = some a → f ⟨w.target, w.unguarded⟩ = g a) :
    (t.extracted ws).map f = (t.annexes ws).map g := by
  induction ws with
  | nil => rfl
  | cons w ws ih =>
    have hrest := ih fun w hw => h w (List.mem_cons_of_mem _ hw)
    cases ha : w.set.annexFrom? t with
    | none => rw [extracted_cons_of_none ha, annexes_cons_of_none ha, hrest]
    | some a =>
      rw [extracted_cons_of_some ha, annexes_cons_of_some ha, List.map_cons, List.map_cons, hrest,
        h w List.mem_cons_self a ha]

theorem extracted_eq_nil (h : t.annexes ws = []) : t.extracted ws = [] := by
  rw [annexes, List.filterMap_eq_nil_iff] at h
  rw [extracted, List.map_eq_nil_iff, List.filter_eq_nil_iff]
  intro w hw
  simp [h w hw]

/-- The core partition has a file of its own next to the module. -/
theorem core_neighbour {ext : String} (hext : t.path.extension? = some ext) (hempty : ext ≠ "") :
    t.Fits (t.path.stem ++ "-" ++ corePartition) ∧
      '/' ∉ (t.path.stem ++ "-" ++ corePartition).toList ∧
      t.path.stem ≠ t.path.stem ++ "-" ++ corePartition := by
  refine ⟨fits_of_extension hext hempty ?_, ?_, ?_⟩
  · simp [corePartition]
  · have hslash := t.path.slash_not_mem_stem
    simp [corePartition, hslash]
  · simp [← String.toList_inj]

theorem annexFrom?_of_mem_annexes (h : a ∈ t.annexes ws) :
    ∃ w ∈ ws, w.set.annexFrom? t = some a := List.mem_filterMap.1 h

theorem mem_annexes (hw : w ∈ ws) (ha : w.set.annexFrom? t = some a) : a ∈ t.annexes ws :=
  List.mem_filterMap.2 ⟨w, hw, ha⟩

section Units

variable (htargets : ∀ w ∈ ws, w.target = w.set.writtenInto w.registry t)

include htargets

/-- What holds of a satellite for each annex holds of the files that sets are extracted into. -/
theorem map_extracted_of_satellite {β : Type} {f : Target → β} {g : String → β}
    (h : ∀ a ∈ t.annexes ws, ∀ headers, f (t.satellite a headers) = g a) :
    (t.extracted ws).map (fun u => f u.target) = (t.annexes ws).map g := by
  refine map_extracted fun w hw a ha => ?_
  rw [htargets w hw, ApiSet.writtenInto_of_annex ha]
  exact h a (mem_annexes hw ha) _

theorem components_extracted {ext : String} (hext : t.path.extension? = some ext)
    (hempty : ext ≠ "") (hannexes : ∀ a ∈ t.annexes ws, a ≠ "" ∧ '/' ∉ a.toList) :
    (t.extracted ws).map (·.target.path.components) =
      (t.annexes ws).map fun a => t.path.components.dropLast ++ [.named (a ++ "." ++ ext)] := by
  refine map_extracted_of_satellite htargets (f := (·.path.components)) fun a ha _ => ?_
  obtain ⟨hne, hslash⟩ := hannexes a ha
  exact components_annexPath_of_extension hext (fits_of_extension hext hempty hne) hslash

theorem form_units {u : Filled} (hu : u ∈ t.units ws) : u.target.form = t.form := by
  rcases List.mem_append.1 hu with hu | hu
  · have hforms := map_extracted_of_satellite htargets (f := (·.form)) (g := fun _ => t.form)
      fun a _ _ => rfl
    have hmem := List.mem_map_of_mem (f := fun u : Filled => u.target.form) hu
    rw [hforms] at hmem
    obtain ⟨_, -, hform⟩ := List.mem_map.1 hmem
    exact hform.symm
  · rcases List.mem_pair.1 hu with rfl | rfl <;> rfl

theorem components_units {ext : String} (hext : t.path.extension? = some ext)
    (hempty : ext ≠ "") (hannexes : ∀ a ∈ t.annexes ws, a ≠ "" ∧ '/' ∉ a.toList) :
    (t.units ws).map (·.target.path.components) =
      (t.annexes ws ++ [t.path.stem ++ "-" ++ corePartition]).map
          (fun a => t.path.components.dropLast ++ [.named (a ++ "." ++ ext)]) ++
        [t.path.components] := by
  obtain ⟨hfits, hslash, -⟩ := core_neighbour hext hempty
  have hcore : t.core.path.components = _ :=
    components_annexPath_of_extension hext hfits hslash
  simp [units, components_extracted htargets hext hempty hannexes, hcore]

/-- The files of a module are different ones. -/
theorem nodup_components_units {ext : String} (hext : t.path.extension? = some ext)
    (hempty : ext ≠ "") (hannexes : ∀ a ∈ t.annexes ws, a ≠ "" ∧ '/' ∉ a.toList)
    (hnodup : ((t.extracted ws).map (·.target.path.components)).Nodup)
    (hcore : ∀ u ∈ t.extracted ws, t.core.path.components ≠ u.target.path.components) :
    ((t.units ws).map (·.target.path.components)).Nodup := by
  obtain ⟨file, hfile, -⟩ := Path.eq_of_extension? hext
  obtain ⟨hfits, hslash, hstem⟩ := core_neighbour hext hempty
  have hself : t.core.path.components ≠ t.path.components :=
    components_annexPath_ne hfile hfits hslash hstem
  have hothers : t.path.components ∉ (t.extracted ws).map (·.target.path.components) := by
    rw [components_extracted htargets hext hempty hannexes]
    intro hmem
    obtain ⟨a, ha, hsame⟩ := List.mem_map.1 hmem
    obtain ⟨w, -, hw⟩ := annexFrom?_of_mem_annexes ha
    obtain ⟨hne, hslash⟩ := hannexes a ha
    have hfits := fits_of_extension hext hempty hne
    have hstem : t.path.stem ≠ a := by
      have hother := (Option.filter_eq_some_iff.1 hw).2
      simpa [isAnnex] using hother
    rw [← components_annexPath_of_extension hext hfits hslash] at hsame
    exact components_annexPath_ne hfile hfits hslash hstem hsame
  simp only [units, List.map_append, List.map_cons, List.map_nil]
  refine List.nodup_append.2 ⟨hnodup, List.nodup_cons.2 ⟨?_, List.nodup_singleton _⟩, ?_⟩
  · rw [List.mem_singleton]
    exact hself
  · rintro place hplace _ hmem rfl
    rcases List.mem_pair.1 hmem with rfl | rfl
    · obtain ⟨u, hu, hsame⟩ := List.mem_map.1 hplace
      exact hcore u hu hsame.symm
    · exact hothers hplace

theorem moduleName_units : (t.units ws).map (·.target.moduleName) =
    (t.annexes ws ++ [corePartition]).map (t.moduleName ++ ":" ++ ·) ++ [t.moduleName] := by
  have hextracted := map_extracted_of_satellite htargets (f := (·.moduleName))
    (g := (t.moduleName ++ ":" ++ ·)) fun a _ _ => rfl
  simp only [units, List.map_append, hextracted]
  simp [core]

theorem imports_units (hform : t.form = .module) : (t.units ws).map (·.target.imports) =
    (t.annexes ws).map (fun _ => ["import :" ++ corePartition ++ ";"]) ++
      [[], (corePartition :: t.annexes ws).map ("export import :" ++ · ++ ";")] := by
  have hextracted := map_extracted_of_satellite htargets (f := (·.imports))
    (g := fun _ => ["import :" ++ corePartition ++ ";"]) fun a _ _ => by simp [satellite, hform]
  simp only [units, List.map_append, hextracted]
  simp [core, of]

/-- No two files of a module declare the same. -/
theorem nodup_moduleName_units (hnodup : (t.annexes ws).Nodup)
    (hcore : corePartition ∉ t.annexes ws) : ((t.units ws).map (·.target.moduleName)).Nodup := by
  rw [moduleName_units htargets, List.nodup_append]
  refine ⟨?_, List.nodup_singleton _, ?_⟩
  · refine List.Nodup.map (fun p q h => ?_)
      (List.nodup_append.2 ⟨hnodup, List.nodup_singleton _, ?_⟩)
    · simpa [← String.toList_inj] using h
    · rintro a ha _ hmem rfl
      exact hcore (List.mem_singleton.1 hmem ▸ ha)
  · rintro _ hmem _ hself rfl
    obtain ⟨p, -, hp⟩ := List.mem_map.1 hmem
    rw [List.mem_singleton] at hself
    rw [hself] at hp
    simp [← String.toList_inj] at hp

/-- Only the partitions of the module itself are imported. -/
theorem mem_of_imports_units (hform : t.form = .module) {u : Filled} {p : String}
    (hu : u ∈ t.units ws) (h : u.unit.Imports p) : p ∈ t.annexes ws ++ [corePartition] := by
  have himports : u.target.imports ∈ (t.units ws).map (·.target.imports) :=
    List.mem_map_of_mem hu
  rw [imports_units htargets hform, List.mem_append] at himports
  rcases himports with hextracted | hrest
  · obtain ⟨a, -, ha⟩ := List.mem_map.1 hextracted
    rw [ModuleUnit.Imports, Filled.unit, ← ha, List.mem_singleton, List.mem_singleton] at h
    rcases h with himport | hexport
    · rw [eq_of_import himport]
      exact List.mem_append_right _ List.mem_cons_self
    · exact absurd hexport.symm import_ne_export
  · rcases List.mem_pair.1 hrest with hcore | hself
    · rw [ModuleUnit.Imports, Filled.unit, hcore] at h
      exact absurd h (by simp)
    · rw [ModuleUnit.Imports, Filled.unit, hself, List.mem_map, List.mem_map] at h
      rcases h with ⟨q, -, himport⟩ | ⟨q, hq, hexport⟩
      · exact absurd himport.symm import_ne_export
      · rw [← eq_of_export hexport]
        exact List.mem_append.2 ((List.mem_cons.1 hq).symm.imp id (List.mem_singleton.2 ·))

/-- What a file of the module imports is declared by one file of it. -/
theorem count_moduleName_units (hform : t.form = .module) (hnodup : (t.annexes ws).Nodup)
    (hcore : corePartition ∉ t.annexes ws) {u : Filled} {p : String} (hu : u ∈ t.units ws)
    (h : u.unit.Imports p) :
    ((t.units ws).map (·.target.moduleName)).count (t.moduleName ++ ":" ++ p) = 1 := by
  refine List.count_eq_one_of_mem (nodup_moduleName_units htargets hnodup hcore) ?_
  rw [moduleName_units htargets]
  exact List.mem_append_left _ (List.mem_map_of_mem (mem_of_imports_units htargets hform hu h))

end Units

end Target

/-- What the files of a module output say whose sets are written as `ws`. The sets with annexes are
extracted, unless the file is called by the annex. -/
structure Output.IsWrittenAs (o : Output) (ext : String) (b : Boilerplate) (ws : List Writing)
    (written : List NamedFile) (units : List ModuleUnit) : Prop where
  /-- Every file is a unit at its place. -/
  files : written.map (fun f => (f.path.components, f.text)) =
    units.map fun u => (u.place, u.text b)
  /-- If no set is extracted, there is one unit, with the lines of all sets and without imports. -/
  whole : (Run.target .module o).annexes ws = [] →
    units = [⟨o.path.components, o.preambleText, o.unitName, [],
      (Run.target .module o).retained ws⟩]
  /-- Otherwise there is a unit next to the file for every set that is extracted, then the core
  partition and the file itself. -/
  places : (Run.target .module o).annexes ws ≠ [] → units.map (·.place) =
    ((Run.target .module o).annexes ws ++ [o.path.stem ++ "-core"]).map
        (fun a => o.path.components.dropLast ++ [.named (a ++ "." ++ ext)]) ++
      [o.path.components]
  names : (Run.target .module o).annexes ws ≠ [] → units.map (·.name) =
    ((Run.target .module o).annexes ws ++ ["core"]).map (o.unitName ++ ":" ++ ·) ++ [o.unitName]
  imports : (Run.target .module o).annexes ws ≠ [] → units.map (·.imports) =
    ((Run.target .module o).annexes ws).map (fun _ => ["import :core;"]) ++
      [[], ("core" :: (Run.target .module o).annexes ws).map ("export import :" ++ · ++ ";")]
  /-- The file itself exports nothing of its own then. -/
  contents : (Run.target .module o).annexes ws ≠ [] → units.map (·.content) =
    ((Run.target .module o).extracted ws).map (·.content) ++
      [(Run.target .module o).retained ws, []]
  distinct : (units.map (·.place)).Nodup
  /-- What one of the units imports is declared by exactly one of them. -/
  closed : ∀ u ∈ units, ∀ partition, u.Imports partition →
    (units.map (·.name)).count (o.unitName ++ ":" ++ partition) = 1

section WrittenAs

variable {o : Output} {ext : String} {written : List NamedFile}

/-- A module from which no set is extracted is one unit. -/
theorem Output.isWrittenAs_whole (has : (Run.target .module o).annexes ws = [])
    (hwritten : written =
      [Filled.named b ⟨Run.target .module o, (Run.target .module o).retained ws⟩]) :
    o.IsWrittenAs ext b ws written [⟨o.path.components, o.preambleText, o.unitName, [],
      (Run.target .module o).retained ws⟩] where
  files := by
    have htext := (Run.target .module o).file_eq_text rfl b ((Run.target .module o).retained ws)
    rw [hwritten, List.map_singleton, List.map_singleton, Filled.named, htext]
    rfl
  whole _ := rfl
  places hsome := absurd has hsome
  names hsome := absurd has hsome
  imports hsome := absurd has hsome
  contents hsome := absurd has hsome
  distinct := List.nodup_singleton _
  closed u hu partition himports := by
    rw [List.mem_singleton.1 hu, ModuleUnit.Imports] at himports
    simp at himports

/-- A module from which sets are extracted is several units. -/
theorem Output.isWrittenAs_units (has : (Run.target .module o).annexes ws ≠ [])
    (htargets : ∀ w ∈ ws, w.target = w.set.writtenInto w.registry (Run.target .module o))
    (hext : o.path.extension? = some ext) (hempty : ext ≠ "")
    (hannexes : ∀ a ∈ (Run.target .module o).annexes ws, a ≠ "" ∧ '/' ∉ a.toList)
    (hnodup : (((Run.target .module o).extracted ws).map (·.target.path.components)).Nodup)
    (hfresh : ∀ u ∈ (Run.target .module o).extracted ws,
      (Run.target .module o).core.path.components ≠ u.target.path.components)
    (hcore : corePartition ∉ (Run.target .module o).annexes ws)
    (hwritten : written = ((Run.target .module o).units ws).map (·.named b)) :
    o.IsWrittenAs ext b ws written (((Run.target .module o).units ws).map (·.unit)) where
  files := by
    rw [hwritten, List.map_map, List.map_map]
    refine List.map_congr_left fun f hf => Prod.ext rfl ?_
    exact f.target.file_eq_text (Target.form_units htargets hf) b f.content
  whole hnil := absurd hnil has
  places _ := by
    have hcore : o.path.stem ++ "-" ++ corePartition = o.path.stem ++ "-core" :=
      String.append_assoc ..
    rw [List.map_map, ← hcore]
    exact Target.components_units htargets hext hempty hannexes
  names _ := by
    rw [List.map_map]
    exact Target.moduleName_units htargets
  imports _ := by
    rw [List.map_map]
    exact Target.imports_units htargets rfl
  contents _ := by
    simp [Target.units, Filled.unit, Function.comp_def]
  distinct := by
    rw [List.map_map]
    exact Target.nodup_components_units htargets hext hempty hannexes hnodup hfresh
  closed u hu partition himported := by
    obtain ⟨f, hf, rfl⟩ := List.mem_map.1 hu
    have hannexes : ((Run.target .module o).annexes ws).Nodup := by
      rw [Target.components_extracted htargets hext hempty hannexes] at hnodup
      exact hnodup.of_map _
    rw [List.map_map]
    exact Target.count_moduleName_units htargets rfl hannexes hcore hf himported

end WrittenAs

/-- The files of a module that is generated are units that import nothing but one another. Without
extracted sets it is one file. Otherwise every extracted set is a partition of its own that imports
the core partition, the core partition holds the other sets and imports nothing, and the file of the
module exports them all. -/
theorem partitions_closed {g g' : Generator} {source : Source} {c : Config}
    {files : List NamedFile} {warnings : List Warning} {before after : List Config.Entry}
    {o : Output} {ext : String} (h : g.stage source c = (.ok files, g', warnings))
    (hentries : c.entries = before ++ .output .module o :: after)
    (hext : o.path.extension? = some ext) (hempty : ext ≠ "") :
    ∃ run run' r names, g.Reaches source c before run ∧
      run.entry c g.timestamp (.output .module o) = (.ok (), run') ∧
      run'.staged = run.staged.putAll (run.outputFiles c g.timestamp .module o) ∧
      run.registries.get? o.registry.components = some r ∧ select r o = .ok names ∧
      let t := Run.target .module o
      let ws := r.selection t names
      (∀ a ∈ t.annexes ws, a ≠ "" ∧ '/' ∉ a.toList ∧ ':' ∉ a.toList) →
        List.Forall₂ (fun name w => r.set? name = some w.set) names ws ∧
        (∀ w ∈ ws, (w.set.inlineLines w.registry w.target false).result = .ok w.unguarded) ∧
        ∃ units, o.IsWrittenAs ext (Run.boilerplate c g.timestamp o) ws
          (run.outputFiles c g.timestamp .module o) units := by
  obtain ⟨run, run₁, hreaches, hrest, -, -⟩ := Generator.reaches_of_stage h hentries
  obtain ⟨run', hentry, -⟩ := Run.entries_cons_eq_ok hrest
  obtain ⟨r, names, content, st, hr, hselect, hrecorded, hfiles, hcore⟩ :=
    Run.outputFiles_of_generate hentry
  have hstaged := run.staged_generate c g.timestamp .module o
  have hgenerate : run.generate c g.timestamp .module o = (.ok (), run') := hentry
  rw [hgenerate] at hstaged
  refine ⟨run, run', r, names, hreaches, hentry, hstaged, hr, hselect, ?_⟩
  intro t ws hannexes
  let b := Run.boilerplate c g.timestamp o
  have hform : t.form = .module := rfl
  have hext : t.path.extension? = some ext := hext
  obtain ⟨file, hfile, -⟩ := Path.eq_of_extension? hext
  have htargets : ∀ w ∈ ws, w.target = w.set.writtenInto w.registry t :=
    fun w hw => Registry.target_of_mem_selection hw
  obtain ⟨hnames, hgathers⟩ := Run.renderAll_module hform hfile names
    (fun w hw a ha => by
      obtain ⟨hne, hslash, hcolon⟩ := hannexes a (Target.mem_annexes hw ha)
      exact ⟨Target.fits_of_extension hext hempty hne, hslash, hcolon⟩) hrecorded
  have hgathers : (((run.begin o.path).rendering r).into []).Gathers b t ws content st := hgathers
  have hsink : st.sink = (t.extracted ws).map (·.named b) := hgathers.sink
  have himports : st.imports = (t.annexes ws).map ("export import :" ++ · ++ ";") :=
    hgathers.imports
  refine ⟨hnames, fun w hw => w.result_unguarded (hgathers.items w hw), ?_⟩
  by_cases has : t.annexes ws = []
  · have hnoimports : st.imports = [] := by rw [himports, has, List.map_nil]
    have hwritten : run.outputFiles c g.timestamp .module o =
        [Filled.named b ⟨t, t.retained ws⟩] := by
      rw [Target.extracted_eq_nil has] at hsink
      rw [← hgathers.content, hfiles, hsink, Run.finishedFiles, if_pos hnoimports]
      rfl
    exact ⟨_, Output.isWrittenAs_whole has hwritten⟩
  · have hannexes' : ∀ a ∈ t.annexes ws, a ≠ "" ∧ '/' ∉ a.toList :=
      fun a ha => ⟨(hannexes a ha).1, (hannexes a ha).2.1⟩
    have hsomeimports : st.imports ≠ [] := by
      rw [himports]
      exact fun hnil => has (List.map_eq_nil_iff.1 hnil)
    obtain ⟨produced, hproduced⟩ := hcore.resolve_left hsomeimports
    obtain ⟨-, hfresh⟩ := Rendering.eq_of_produce hproduced
    rw [hgathers.produced] at hfresh
    have hwritten : run.outputFiles c g.timestamp .module o = (t.units ws).map (·.named b) := by
      rw [Target.units, List.map_append, ← hsink, ← hgathers.content]
      rw [hfiles, Run.finishedFiles_of_produce hsomeimports hproduced, himports]
      rfl
    exact ⟨_, Output.isWrittenAs_units has htargets hext hempty hannexes' hgathers.nodup
      (fun u hu => hfresh _ (List.mem_append_right _ (List.mem_map_of_mem hu))) hgathers.core
      hwritten⟩

/-- A module for the sets `A` and `B`, of which `B` is extracted. -/
def moduleAB : Output where
  path := ⟨"modules/al.cppm"⟩
  registry := ⟨"al.xml"⟩
  apis := ["al"]

def moduleConfig : Config where
  entries := [.output .module moduleAB]

/-- A generator that has the registry of the sets already. -/
def moduleGenerator : Generator :=
  Generator.withRegistry { timestamp := "T" } ⟨"al.xml"⟩ extractingB.registry

/-- The module is written as a partition for `B`, the core partition with `A`, and the file that
exports both. -/
theorem partitions_of_extracted_set :
    ∃ (run : Run) (units : List ModuleUnit),
      (run.outputFiles moduleConfig "T" .module moduleAB).map (·.text) =
          units.map (·.text (Run.boilerplate moduleConfig "T" moduleAB)) ∧
        units.map (·.name) = ["al:efx", "al:core", "al"] ∧
        units.map (·.imports) =
          [["import :core;"], [], ["export import :core;", "export import :efx;"]] := by
  obtain ⟨files, g', warnings, h⟩ : ∃ files g' warnings,
      moduleGenerator.stage Source.empty moduleConfig = (.ok files, g', warnings) := ⟨_, _, _, rfl⟩
  have hentries : moduleConfig.entries = [] ++ .output .module moduleAB :: [] := rfl
  have hext : moduleAB.path.extension? = some "cppm" := by decide
  obtain ⟨run, run', r, names, hreaches, -, -, hr, hselect, hall⟩ :=
    partitions_closed h hentries hext (by decide)
  obtain rfl : moduleGenerator.start = run := Generator.Reaches.unique ⟨_, _, rfl, rfl⟩ hreaches
  obtain rfl : extractingB.registry = r := Option.some.inj hr
  obtain rfl : ["A", "B"] = names := Except.ok.inj hselect
  let t := Run.target .module moduleAB
  let ws := extractingB.registry.selection t ["A", "B"]
  have has : t.annexes ws = ["efx"] := by decide
  have hannexes : ∀ a ∈ t.annexes ws, a ≠ "" ∧ '/' ∉ a.toList ∧ ':' ∉ a.toList := by
    rw [has]
    decide
  obtain ⟨-, -, units, hwritten⟩ := hall hannexes
  have hsome : t.annexes ws ≠ [] := by
    rw [has]
    exact nofun
  have hfiles := congrArg (List.map Prod.snd) hwritten.files
  have hnames := hwritten.names hsome
  have himports := hwritten.imports hsome
  rw [List.map_map, List.map_map] at hfiles
  rw [has] at hnames himports
  exact ⟨_, units, hfiles, hnames.trans (by decide), himports⟩

end ApiHeaders
