import ApiHeaders.Proofs.Endings
import Mathlib.Data.List.MinMax
import Mathlib.Dynamics.PeriodicPts.Defs

/-!
# Extractions without an end

An annex with a slash is below a directory of its own. Its satellites come back to a place where one
of them was before, or else their places become longer and longer. So the renderer cuts off nothing
but what never ends.

## Main definitions

* `Path.follow` gives the place of the file for such an annex.
* `Returns` says that places are repeated, `Grows` that they become longer.
* `Asks` says which places a set is extracted to until one of them is refused.

## Main statements

* `Path.returns_or_grows` says that every annex with a slash does one or the other.
* `Rendering.ExtractsTo.le_extractionLimit` says that no rendering that ends is cut off.
* `Rendering.ExtractsTo.render_eq` says that the renderer returns what rendering comes to, and
  `Rendering.render_endless_iff` that it finds no end where there is none.
-/

namespace ApiHeaders

/-! ### Going on and on -/

section Iterate

variable {α : Type} {f : List α → List α} {x : List α} {k n : Nat}

/-- One of the places that `f` leads to from `x` within `n` steps is that of an earlier one, or that
of `x` again right at the first step. -/
def Returns (f : List α → List α) (x : List α) (n : Nat) : Prop :=
  ∃ i j, i < j ∧ j ≤ n ∧ (i = 0 → j = 1) ∧ f^[i] x = f^[j] x

theorem Returns.mono (h : Returns f x k) (hle : k ≤ n) : Returns f x n := by
  obtain ⟨i, j, hij, hj, hfirst, hsame⟩ := h
  exact ⟨i, j, hij, Nat.le_trans hj hle, hfirst, hsame⟩

theorem returns_of_fixed (h : f (f^[k] x) = f^[k] x) : Returns f x (k + 1) := by
  refine ⟨k, k + 1, Nat.lt_succ_self k, Nat.le_refl _, fun hk => by rw [hk], ?_⟩
  rw [Function.iterate_succ_apply', h]

theorem Returns.of_iterate (h : Returns f (f^[k] x) n) : Returns f x (n + k) := by
  obtain ⟨i, j, hij, hj, hfirst, hsame⟩ := h
  refine ⟨i + k, j + k, by omega, by omega, by omega, ?_⟩
  rw [Function.iterate_add_apply, hsame, Function.iterate_add_apply]

/-- The places that `f` leads to from `x` become longer within two steps. -/
def Grows (f : List α → List α) (x : List α) : Prop :=
  ∀ i, (f^[i] x).length < (f^[i + 2] x).length

theorem grows_of_invariant {P : List α → Prop} (hx : P x) (hstep : ∀ y, P y → P (f y))
    (hlonger : ∀ y, P y → y.length < (f (f y)).length) : Grows f x := by
  intro i
  have hall : ∀ i, P (f^[i] x) := by
    intro i
    induction i with
    | zero => exact hx
    | succ i ih =>
      rw [Function.iterate_succ_apply']
      exact hstep _ ih
  rw [Function.iterate_succ_apply', Function.iterate_succ_apply']
  exact hlonger _ (hall i)

theorem Grows.length_add_le (h : Grows f x) (i d : Nat) :
    (f^[i] x).length + d ≤ (f^[i + 2 * d] x).length := by
  induction d with
  | zero => exact Nat.le_refl _
  | succ d ih =>
    have hlonger := h (i + 2 * d)
    have hindex : i + 2 * (d + 1) = i + 2 * d + 2 := by omega
    rw [hindex]
    omega

/-- Places that become longer are never repeated. -/
theorem Grows.ne (h : Grows f x) {i j : Nat} (hij : i < j) : f^[i] x ≠ f^[j] x := by
  intro hsame
  obtain ⟨d, rfl⟩ := Nat.exists_eq_add_of_lt hij
  have hperiod : Function.IsPeriodicPt f (d + 1) (f^[i] x) := by
    rw [Function.IsPeriodicPt, Function.IsFixedPt, ← Function.iterate_add_apply, hsame]
    congr 1
    omega
  have hagain : f^[i + 2 * (d + 1)] x = f^[i] x := by
    rw [Nat.add_comm, Function.iterate_add_apply]
    exact hperiod.const_mul 2
  have hlonger := h.length_add_le i (d + 1)
  rw [hagain] at hlonger
  omega

theorem Grows.le_length (h : Grows f x) (n : Nat) : n ≤ 2 * (f^[n] x).length + 1 := by
  have hlonger := h.length_add_le (n % 2) (n / 2)
  rw [Nat.mod_add_div] at hlonger
  omega

end Iterate

/-! ### Annexes with a slash -/

namespace Path

/-- What follows the last dot in the name that steps lead to. -/
def extensionOf (place : List Component) : Option String :=
  match place.getLast? with
  | some (.named name) => (cutExtension name).2
  | _ => none

/-- A name with an extension. -/
def withExtension (name : String) (extension : Option String) : String :=
  name ++ (extension.map ("." ++ ·)).getD ""

/-- The directory that the file for an annex is in, if the annex is `init` and a name and the target
is in `directory`. -/
def annexDirectory (init : String) (directory : List Component) : List Component :=
  if (⟨init ++ "/"⟩ : Path).isAbsolute ∨ directory = [] then (⟨init ++ "/"⟩ : Path).components
  else directory ++ steps init

/-- The place of the file for the annex `init/last`, if the target is at `place`. -/
def follow (init last : String) (place : List Component) : List Component :=
  annexDirectory init place.dropLast ++ stepOf (withExtension last (extensionOf place))

variable {p : Path} {place directory before after : List Component} {init last ext : String}

theorem extension?_eq (p : Path) : p.extension? = extensionOf p.components := by
  unfold extension? fileName? extensionOf
  rcases p.components.getLast? with _ | _ | _ | _ | name <;> rfl

theorem extensionOf_append (h : after ≠ []) :
    extensionOf (before ++ after) = extensionOf after := by
  rw [extensionOf, List.getLast?_append_of_ne_nil _ h, extensionOf]

theorem dot_not_mem_extensionOf (h : extensionOf place = some ext) : '.' ∉ ext.toList := by
  unfold extensionOf cutExtension at h
  split at h
  · split at h
    · cases h
    · cases h
    · next hbreak =>
      cases h
      rw [String.toList_ofList]
      exact (Text.eq_of_breakAtLast? hbreak).2
  · cases h

theorem toList_withExtension (name ext : String) :
    (withExtension name (some ext)).toList = name.toList ++ '.' :: ext.toList := by
  simp [withExtension]

theorem withExtension_none (name : String) : withExtension name none = name := by
  simp [withExtension]

/-- An annex with a slash is a directory and a name. -/
theorem exists_of_slash_mem {a : String} (h : '/' ∈ a.toList) :
    ∃ init last, a = init ++ "/" ++ last ∧ '/' ∉ last.toList := by
  obtain ⟨after, before, ha, hafter⟩ := List.eq_append_cons_of_mem (List.mem_reverse.2 h)
  refine ⟨.ofList before.reverse, .ofList after.reverse, ?_, by simpa using hafter⟩
  rw [← String.toList_inj]
  simpa using congrArg List.reverse ha

/-! #### Its directory -/

theorem isAbsolute_of_root (h : p.decompose.1 = .root) : p.isAbsolute := by
  unfold decompose at h
  split at h
  · next heq => simp [isAbsolute, heq]
  · cases h
  · cases h
  · cases h

/-- An annex that leads to a directory of its own, or that stays in that of the target. -/
def Rests (init : String) : Prop := (⟨init ++ "/"⟩ : Path).isAbsolute ∨ steps init = []

theorem steps_append (init name : String) (h : '/' ∉ name.toList) :
    steps (init ++ "/" ++ name) = steps init ++ stepOf name := by
  have htext : (init ++ "/" ++ name).toList = init.toList ++ '/' :: name.toList := by simp
  rw [steps, htext, Text.splitOn_append_cons, List.filter_append, List.map_append,
    ← steps_of_not_mem h]
  rfl

theorem components_slash (init : String) :
    (⟨init ++ "/"⟩ : Path).components =
      (⟨init ++ "/"⟩ : Path).decompose.1.components ++ steps init := by
  have hnone := steps_append init "" List.not_mem_nil
  have hidle : stepOf "" = [] := rfl
  rw [String.append_empty, hidle, List.append_nil] at hnone
  rw [components_eq, hnone]

theorem annexDirectory_of_rests (h : Rests init) :
    annexDirectory init (annexDirectory init directory) = annexDirectory init directory := by
  by_cases habsolute : (⟨init ++ "/"⟩ : Path).isAbsolute
  · simp [annexDirectory, habsolute]
  · have hnil : steps init = [] := h.resolve_left habsolute
    by_cases hdirectory : directory = []
    · simp [annexDirectory, hdirectory, hnil]
    · simp [annexDirectory, hdirectory, habsolute, hnil]

/-- From such a directory, an annex leads to the directory again, or further up. -/
theorem annexDirectory_dropLast_of_rests (h : Rests init) (directory : List Component) :
    annexDirectory init (annexDirectory init directory).dropLast = annexDirectory init directory ∨
      directory ≠ [] ∧ annexDirectory init directory = directory := by
  by_cases habsolute : (⟨init ++ "/"⟩ : Path).isAbsolute
  · left
    simp [annexDirectory, habsolute]
  · have hnil : steps init = [] := h.resolve_left habsolute
    by_cases hdirectory : directory = []
    · left
      have hanchor : (⟨init ++ "/"⟩ : Path).components.dropLast = [] := by
        rw [components_slash, hnil, List.append_nil]
        cases (⟨init ++ "/"⟩ : Path).decompose.1 <;> rfl
      simp [annexDirectory, hdirectory, hanchor]
    · right
      simp [annexDirectory, hdirectory, habsolute, hnil]

section Moving

variable (h : ¬Rests init)

include h

theorem length_annexDirectory (directory : List Component) :
    directory.length + (steps init).length ≤ (annexDirectory init directory).length := by
  rw [Rests, not_or] at h
  by_cases hdirectory : directory = []
  · simp [annexDirectory, hdirectory, components_slash init]
  · simp [annexDirectory, hdirectory, h.1]

theorem extensionOf_annexDirectory (directory : List Component) :
    extensionOf (annexDirectory init directory) = extensionOf (steps init) := by
  rw [Rests, not_or] at h
  by_cases hdirectory : directory = []
  · simp [annexDirectory, hdirectory, components_slash init, extensionOf_append h.2]
  · simp [annexDirectory, hdirectory, h.1, extensionOf_append h.2]

/-- A directory that is one step further is the directory for the file at that step, too. -/
theorem annexDirectory_dropLast (hone : (steps init).length = 1) (directory : List Component) :
    annexDirectory init (annexDirectory init directory).dropLast =
      annexDirectory init directory := by
  rw [Rests, not_or] at h
  obtain ⟨step, hstep⟩ := List.length_eq_one_iff.1 hone
  by_cases hdirectory : directory = []
  · have hplace := components_slash init
    rw [hstep] at hplace
    cases hanchor : (⟨init ++ "/"⟩ : Path).decompose.1 with
    | root => exact absurd (isAbsolute_of_root hanchor) h.1
    | here =>
      rw [hanchor] at hplace
      simp [annexDirectory, hdirectory, hplace, Anchor.components, h.1, hstep]
    | none =>
      rw [hanchor] at hplace
      simp [annexDirectory, hdirectory, hplace, Anchor.components]
  · simp [annexDirectory, hdirectory, h.1, hstep]

end Moving

/-! #### Its name -/

/-- A name with an extension makes no step, or one with the extension. Where the name alone makes no
step, it may have none. -/
theorem stepOf_withExtension (last : String) (hdot : '.' ∉ ext.toList) :
    stepOf (withExtension last (some ext)) = [] ∨
      ∃ step, stepOf (withExtension last (some ext)) = [step] ∧
        (extensionOf [step] = some ext ∨ isIdle last.toList ∧ extensionOf [step] = none) := by
  have htext := toList_withExtension last ext
  by_cases hidle : isIdle (withExtension last (some ext)).toList
  · exact .inl (if_pos hidle)
  refine .inr ⟨_, if_neg hidle, ?_⟩
  by_cases hup : (withExtension last (some ext)).toList = ['.', '.']
  · right
    rw [hup]
    rw [htext, List.append_eq_cons_iff] at hup
    rcases hup with ⟨-, hup⟩ | ⟨rest, hlast, hup⟩
    · rw [(List.cons.inj hup).2] at hdot
      exact absurd List.mem_cons_self hdot
    · cases rest with
      | nil => exact ⟨by rw [hlast]; rfl, rfl⟩
      | cons c rest => simp at hup
  · have hstep : Component.ofPiece (withExtension last (some ext)).toList =
        .named (withExtension last (some ext)) := by
      rw [Component.ofPiece, if_neg hup, String.ofList_toList]
    have hcut : extensionOf [.named (withExtension last (some ext))] =
        (cutExtension (withExtension last (some ext))).2 := rfl
    rw [hstep, hcut, cutExtension, htext, Text.breakAtLast?_append hdot]
    cases last.toList with
    | nil => exact .inr ⟨rfl, rfl⟩
    | cons => exact .inl (congrArg some String.ofList_toList)

/-- A name that makes a step makes one with any extension. -/
theorem stepOf_of_not_isIdle (h : isIdle last.toList = false) (extension : Option String) :
    ∃ step, stepOf (withExtension last extension) = [step] := by
  refine ⟨_, if_neg ?_⟩
  cases extension with
  | none => simp [withExtension_none, h]
  | some ext =>
    rw [toList_withExtension]
    cases hlast : last.toList with
    | nil =>
      rw [hlast] at h
      cases h
    | cons => simp [isIdle]

theorem stepOf_of_isIdle (h : isIdle last.toList) : stepOf (withExtension last none) = [] := by
  rw [withExtension_none]
  exact if_pos h

/-! #### Where it leads -/

section Follow

theorem dropLast_follow (init : String) {step : Component}
    (h : stepOf (withExtension last (extensionOf place)) = [step]) :
    (follow init last place).dropLast = annexDirectory init place.dropLast ∧
      extensionOf (follow init last place) = extensionOf [step] := by
  rw [follow, h]
  exact ⟨List.dropLast_concat, extensionOf_append (List.cons_ne_nil _ _)⟩

theorem follow_of_nil (h : stepOf (withExtension last (extensionOf place)) = []) :
    follow init last place = annexDirectory init place.dropLast := by
  rw [follow, h, List.append_nil]

/-- A file with the extension of the file before, in a directory that is not left, is that one. -/
theorem follow_follow_of_rests (h : Rests init) {step : Component}
    (hstep : stepOf (withExtension last (extensionOf place)) = [step])
    (hsame : extensionOf [step] = extensionOf place) :
    follow init last (follow init last place) = follow init last place := by
  obtain ⟨hdirectory, hextension⟩ := dropLast_follow init hstep
  rw [follow, hdirectory, hextension, hsame, annexDirectory_of_rests h, follow]

/-- A file with a name of its own keeps the extension of the file before. -/
theorem extensionOf_of_name (hname : isIdle last.toList = false) {step : Component}
    (hext : extensionOf place = some ext)
    (hstep : stepOf (withExtension last (extensionOf place)) = [step]) :
    extensionOf [step] = extensionOf place := by
  rw [hext] at hstep ⊢
  rcases stepOf_withExtension last (dot_not_mem_extensionOf hext) with
    hnil | ⟨step', hstep', hsame⟩
  · cases hnil.symm.trans hstep
  · cases hstep'.symm.trans hstep
    exact hsame.resolve_right fun h => by simp [hname] at h

/-- In a directory that is not left, all files with a name are one from the third on. -/
theorem returns_of_name (h : Rests init) (hname : isIdle last.toList = false)
    (place : List Component) : Returns (follow init last) place 3 := by
  obtain ⟨step, hstep⟩ := stepOf_of_not_isIdle hname (extensionOf place)
  by_cases hsame : extensionOf [step] = extensionOf place
  · exact (returns_of_fixed (k := 1) (follow_follow_of_rests h hstep hsame)).mono (by decide)
  · obtain ⟨next, hnext⟩ := stepOf_of_not_isIdle hname (extensionOf (follow init last place))
    obtain ⟨-, hextension⟩ := dropLast_follow init hstep
    refine returns_of_fixed (k := 2) (follow_follow_of_rests h hnext ?_)
    cases hplace : extensionOf place with
    | some ext => exact absurd (extensionOf_of_name hname hplace hstep) hsame
    | none =>
      cases hfirst : extensionOf [step] with
      | none => exact absurd (hfirst.trans hplace.symm) hsame
      | some ext => exact extensionOf_of_name hname (hextension.trans hfirst) hnext

/-- Without a name, the directory is reached after two files, or the second one is the first one. -/
theorem reaches_annexDirectory (h : Rests init) (hidle : isIdle last.toList)
    (place : List Component) :
    follow init last (follow init last place) = follow init last place ∨
      ∃ k, 0 < k ∧ k ≤ 2 ∧
        (follow init last)^[k] place = annexDirectory init place.dropLast := by
  cases hext : extensionOf place with
  | none =>
    have hnil : stepOf (withExtension last (extensionOf place)) = [] := by
      rw [hext, stepOf_of_isIdle hidle]
    exact .inr ⟨1, by decide, by decide, follow_of_nil hnil⟩
  | some ext =>
    rcases stepOf_withExtension last (dot_not_mem_extensionOf hext) with
      hnil | ⟨step, hstep, hsame | ⟨-, hnone⟩⟩
    · exact .inr ⟨1, by decide, by decide, follow_of_nil (by rw [hext, hnil])⟩
    · rw [← hext] at hstep hsame
      exact .inl (follow_follow_of_rests h hstep hsame)
    · rw [← hext] at hstep
      obtain ⟨hdirectory, hextension⟩ := dropLast_follow init hstep
      refine .inr ⟨2, by decide, by decide, ?_⟩
      have hnil : stepOf (withExtension last (extensionOf (follow init last place))) = [] := by
        rw [hextension, hnone, stepOf_of_isIdle hidle]
      rw [Function.iterate_succ_apply', Function.iterate_one, follow_of_nil hnil, hdirectory,
        annexDirectory_of_rests h]

/-- Without a name, files go up from directory to directory, and come back to the last one. -/
theorem returns_of_isIdle (h : Rests init) (hidle : isIdle last.toList) (place : List Component) :
    Returns (follow init last) place (2 * place.length + 4) := by
  induction hn : place.length using Nat.strongRecOn generalizing place with
  | ind n ih =>
    rcases reaches_annexDirectory h hidle place with hsame | ⟨k, hpos, hk, hreached⟩
    · exact (returns_of_fixed (k := 1) hsame).mono (by omega)
    rcases annexDirectory_dropLast_of_rests h place.dropLast with
      hdirectory | ⟨hne, hdirectory⟩
    · rw [← hreached] at hdirectory
      rcases reaches_annexDirectory h hidle ((follow init last)^[k] place) with
        hsame | ⟨l, hpos', hl, hreached'⟩
      · exact (returns_of_fixed (k := 1) hsame).of_iterate.mono (by omega)
      · rw [hdirectory, ← Function.iterate_add_apply] at hreached'
        exact ⟨k, l + k, by omega, by omega, by omega, hreached'.symm⟩
    · have hlength : place.dropLast.length + 1 = n := by
        have hpos := List.length_pos_iff.2 hne
        rw [List.length_dropLast] at hpos ⊢
        omega
      have hup : Returns (follow init last) ((follow init last)^[k] place)
          (2 * place.dropLast.length + 4) := by
        rw [hreached, hdirectory]
        exact ih _ (by omega) place.dropLast rfl
      exact hup.of_iterate.mono (by omega)

/-! #### Directories that are left -/

section Moving

variable (h : ¬Rests init)

include h

theorem le_length_follow (last : String) (place : List Component) :
    place.length + (steps init).length +
        (stepOf (withExtension last (extensionOf place))).length ≤
      (follow init last place).length + 1 := by
  have hlength := length_annexDirectory h place.dropLast
  rw [List.length_dropLast] at hlength
  rw [follow, List.length_append]
  omega

theorem length_steps_pos : 0 < (steps init).length :=
  List.length_pos_iff.2 fun hnil => h (.inr hnil)

/-- Files with a name, or that are two directories further, have longer and longer places. -/
theorem grows_of_longer
    (hlonger : ∀ extension,
      1 < (steps init).length + (stepOf (withExtension last extension)).length)
    (place : List Component) : Grows (follow init last) place := by
  refine grows_of_invariant (P := fun _ => True) trivial (fun _ _ => trivial) fun place _ => ?_
  have hfirst := le_length_follow h last place
  have hsecond := le_length_follow h last (follow init last place)
  have hplace := hlonger (extensionOf place)
  have hfollow := hlonger (extensionOf (follow init last place))
  omega

/-- One directory further, the name comes back with the extension of that. -/
theorem grows_of_extension (hone : (steps init).length = 1)
    (hstep : stepOf (withExtension last (extensionOf (steps init))) ≠ [])
    (place : List Component) : Grows (follow init last) place := by
  refine grows_of_invariant (P := fun _ => True) trivial (fun _ _ => trivial) fun place _ => ?_
  have hfirst := le_length_follow h last place
  have hsecond := le_length_follow h last (follow init last place)
  by_cases hnil : stepOf (withExtension last (extensionOf place)) = []
  · have hextension := extensionOf_annexDirectory h place.dropLast
    rw [follow_of_nil hnil, hextension, ← follow_of_nil hnil] at hsecond
    have hpos := List.length_pos_iff.2 hstep
    omega
  · have hpos := List.length_pos_iff.2 hnil
    omega

/-- One directory further and without a name, that directory is reached, or the extension is kept
for ever. -/
theorem returns_or_grows_of_isIdle (hone : (steps init).length = 1) (hidle : isIdle last.toList)
    (place : List Component) :
    Returns (follow init last) place 3 ∨ Grows (follow init last) place := by
  by_cases hstep : stepOf (withExtension last (extensionOf (steps init))) = []
  swap
  · exact .inr (grows_of_extension h hone hstep place)
  have hfixed (place : List Component)
      (hnil : stepOf (withExtension last (extensionOf place)) = []) :
      follow init last (follow init last place) = follow init last place := by
    have hplace : follow init last place = annexDirectory init place.dropLast := follow_of_nil hnil
    rw [hplace, follow_of_nil (by rw [extensionOf_annexDirectory h, hstep]),
      annexDirectory_dropLast h hone]
  cases hext : extensionOf place with
  | none =>
    have hnil : stepOf (withExtension last (extensionOf place)) = [] := by
      rw [hext, stepOf_of_isIdle hidle]
    exact .inl ((returns_of_fixed (k := 1) (hfixed place hnil)).mono (by decide))
  | some ext =>
    rcases stepOf_withExtension last (dot_not_mem_extensionOf hext) with
      hnil | ⟨step, hname, hsame | ⟨-, hnone⟩⟩
    · rw [← hext] at hnil
      exact .inl ((returns_of_fixed (k := 1) (hfixed place hnil)).mono (by decide))
    · right
      refine grows_of_invariant (P := fun place => extensionOf place = some ext) hext ?_ ?_
      · intro place hplace
        rw [← hplace] at hname
        rw [(dropLast_follow init hname).2, hsame]
      · intro place hplace
        rw [← hplace] at hname
        have hfirst := le_length_follow h last place
        have hsecond := le_length_follow h last (follow init last place)
        rw [hname, List.length_singleton] at hfirst
        omega
    · rw [← hext] at hname
      obtain ⟨-, hextension⟩ := dropLast_follow init hname
      refine .inl (returns_of_fixed (k := 2) (hfixed (follow init last place) ?_))
      rw [hextension, hnone, stepOf_of_isIdle hidle]

end Moving

/-- The files for an annex with a slash come back to a place where one of them was before, or their
places become longer for ever. -/
theorem returns_or_grows (init last : String) (place : List Component) :
    Returns (follow init last) place (2 * place.length + 4) ∨ Grows (follow init last) place := by
  by_cases h : Rests init
  · left
    by_cases hidle : isIdle last.toList
    · exact returns_of_isIdle h hidle place
    · exact (returns_of_name h (by simpa using hidle) place).mono (by omega)
  · by_cases hidle : isIdle last.toList
    · by_cases hone : (steps init).length = 1
      · exact (returns_or_grows_of_isIdle h hone hidle place).imp_left fun hreturns =>
          hreturns.mono (by omega)
      · have hpos := length_steps_pos h
        exact .inr (grows_of_longer h (fun _ => by omega) place)
    · right
      refine grows_of_longer h (fun extension => ?_) place
      obtain ⟨step, hstep⟩ := stepOf_of_not_isIdle (by simpa using hidle) extension
      have hpos := length_steps_pos h
      rw [hstep, List.length_singleton]
      omega

end Follow

end Path

namespace Target

variable {t : Target} {init last : String}

/-- The place of the file for an annex with a slash. -/
theorem components_annexPath_of_slash (t : Target) (init : String) (hlast : '/' ∉ last.toList) :
    (t.annexPath (init ++ "/" ++ last)).components =
      Path.follow init last t.path.components := by
  have hname : t.annexName (init ++ "/" ++ last) = init ++ "/" ++ t.annexName last := by
    simp only [annexName, String.append_assoc]
  have hfile : t.annexName last = Path.withExtension last (Path.extensionOf t.path.components) := by
    rw [← Path.extension?_eq]
    rfl
  have hslash := t.slash_not_mem_annexName hlast
  have hrelative := Path.isAbsolute_of_not_mem hslash
  have halone : (⟨init ++ "/" ++ t.annexName last⟩ : Path).components =
      (⟨init ++ "/"⟩ : Path).components ++ Path.stepOf (t.annexName last) := by
    have hjoin : (⟨init ++ "/"⟩ : Path).join ⟨t.annexName last⟩ =
        ⟨init ++ "/" ++ t.annexName last⟩ := by
      simp [Path.join, hrelative]
    rw [← hjoin, Path.components_join (by simp) hrelative, Path.steps_of_not_mem hslash]
  have habsolute : (⟨t.annexName (init ++ "/" ++ last)⟩ : Path).isAbsolute =
      (⟨init ++ "/"⟩ : Path).isAbsolute := by
    rw [hname]
    cases hinit : init.toList <;> simp [Path.isAbsolute, hinit]
  rw [Path.follow, ← hfile]
  by_cases hroot : (⟨init ++ "/"⟩ : Path).isAbsolute
  · have hpath : t.annexPath (init ++ "/" ++ last) = ⟨t.annexName (init ++ "/" ++ last)⟩ := by
      rw [annexPath]
      split
      · exact if_pos (habsolute.trans hroot)
      · rfl
    rw [hpath, hname, halone, Path.annexDirectory, if_pos (.inl hroot)]
  · rw [Bool.not_eq_true] at hroot
    rcases t.components_annexPath_or (habsolute.trans hroot) with ⟨hne, hplace⟩ | ⟨hnil, hplace⟩
    · rw [hplace, hname, Path.steps_append _ _ hslash, ← List.append_assoc, Path.annexDirectory,
        if_neg (by simp [hroot, hne])]
    · rw [hplace, hname, halone, Path.annexDirectory, if_pos (.inr hnil)]

end Target

/-! ### Renderings that end -/

/-- A set is extracted to the places that `f` leads to from `place`, and the one after `n` steps is
the first to be refused. -/
structure Asks (produced : List Path) (f : List Component → List Component)
    (place : List Component) (n : Nat) : Prop where
  pos : 0 < n
  fresh : ∀ j, 0 < j → j < n → ∀ p ∈ produced, p.components ≠ f^[j] place
  apart : ∀ i j, i < j → j < n → (i = 0 → j = 1) → f^[i] place ≠ f^[j] place
  refused : (∃ p ∈ produced, p.components = f^[n] place) ∨
    ∃ i < n, (i = 0 → n = 1) ∧ f^[i] place = f^[n] place

section Asks

variable {produced : List Path} {f : List Component → List Component} {place : List Component}
  {n k : Nat}

theorem Asks.step {p : Path} (hp : p.components = f place) (hother : f place ≠ place)
    (hfresh : ∀ q ∈ produced, q.components ≠ f place) (h : Asks (produced ++ [p]) f (f place) n) :
    Asks produced f place (n + 1) where
  pos := Nat.succ_pos n
  fresh j hpos hj q hq := by
    obtain ⟨j, rfl⟩ := Nat.exists_eq_succ_of_ne_zero (Nat.ne_of_gt hpos)
    cases j with
    | zero => exact hfresh q hq
    | succ j => exact h.fresh (j + 1) (Nat.succ_pos j) (by omega) q (List.mem_append_left _ hq)
  apart i j hij hj hfirst := by
    obtain ⟨j, rfl⟩ := Nat.exists_eq_succ_of_ne_zero (Nat.ne_zero_of_lt hij)
    cases i with
    | zero =>
      cases hfirst rfl
      exact hother.symm
    | succ i =>
      rw [Function.iterate_succ_apply, Function.iterate_succ_apply]
      by_cases hi : i = 0 ∧ j ≠ 1
      · obtain ⟨rfl, hj⟩ := hi
        have hlast := h.fresh j (by omega) (by omega) p (by simp)
        rw [hp] at hlast
        exact hlast
      · exact h.apart i j (by omega) (by omega) (by omega)
  refused := by
    rcases h.refused with ⟨q, hq, hsame⟩ | ⟨i, hi, hfirst, hsame⟩
    · rcases List.mem_append.1 hq with hq | hq
      · exact .inl ⟨q, hq, hsame⟩
      · rw [List.mem_singleton.1 hq, hp] at hsame
        exact .inr ⟨1, by have := h.pos; omega, nofun, hsame⟩
    · exact .inr ⟨i + 1, by omega, nofun, hsame⟩

theorem Asks.le_of_returns (h : Asks produced f place n) (hreturns : Returns f place k) :
    n ≤ k := by
  obtain ⟨i, j, hij, hj, hfirst, hsame⟩ := hreturns
  by_contra hlt
  exact h.apart i j hij (by omega) hfirst hsame

/-- Places that become longer are refused because a file was begun there before. -/
theorem Asks.exists_mem_of_grows (h : Asks produced f place n) (hgrows : Grows f place) :
    ∃ p ∈ produced, n ≤ 2 * p.components.length + 1 := by
  rcases h.refused with ⟨p, hp, hsame⟩ | ⟨i, hi, -, hsame⟩
  · refine ⟨p, hp, ?_⟩
    rw [hsame]
    exact hgrows.le_length n
  · exact absurd hsame (hgrows.ne hi)

end Asks

namespace Rendering

variable {σ : Type} {sink : Sink σ} {b : Boilerplate} {guard : Bool} {s : ApiSet} {t : Target}
  {name init last : String} {n : Nat} {st : Rendering σ}
  {out : Except Failure (List String) × Rendering σ}

/-- A set whose annex has a slash is extracted until a place is refused. -/
theorem ExtractsTo.asks (hannex : s.annex = some (init ++ "/" ++ last))
    (hlast : '/' ∉ last.toList) (h : ExtractsTo sink b guard s st t n out) :
    Asks st.produced (Path.follow init last) t.path.components n := by
  have hslash : '/' ∈ (init ++ "/" ++ last).toList := by simp
  have hsome (t : Target) : s.annexFrom? t = some (init ++ "/" ++ last) := by
    rw [ApiSet.annexFrom?, hannex, Option.filter_some, t.isAnnex_of_slash hslash]
    rfl
  induction h with
  | @inline st t hnone => cases hnone.symm.trans (hsome t)
  | @refused st t a e ha hst =>
    cases ha.symm.trans (hsome t)
    have hplace := t.components_annexPath_of_slash init hlast
    have hrefused : st.Collides t (init ++ "/" ++ last) ∨
        (t.annexPath (init ++ "/" ++ last)).components = t.path.components := by
      by_contra hnot
      rw [not_or] at hnot
      cases hst.symm.trans (reserve_of_not_collides hnot.1 hnot.2)
    refine ⟨Nat.one_pos, by omega, by omega, ?_⟩
    rcases hrefused with (⟨p, hp, hsame⟩ | ⟨-, hcore⟩) | hsame
    · exact .inl ⟨p, hp, (of_decide_eq_true hsame).trans hplace⟩
    · rw [hcore] at hslash
      exact absurd hslash (by decide)
    · exact .inr ⟨0, Nat.one_pos, fun _ => rfl, hsame.symm.trans hplace⟩
  | @extracted st st₁ t a n out ha hst _ ih =>
    cases ha.symm.trans (hsome t)
    obtain ⟨hfree, hother, rfl⟩ := reserve_eq_ok_iff.1 hst
    have hplace := t.components_annexPath_of_slash init hlast
    rw [hplace] at hother
    refine Asks.step hplace hother ?_ ?_
    · intro q hq hsame
      exact hfree (.inl ⟨q, hq, decide_eq_true (hsame.trans hplace.symm)⟩)
    · have hrest : Asks (st.produced ++ [t.annexPath (init ++ "/" ++ last)])
          (Path.follow init last) (t.annexPath (init ++ "/" ++ last)).components n := ih
      rwa [hplace] at hrest

/-- A rendering that ends is not cut off. -/
theorem ExtractsTo.le_extractionLimit (h : ExtractsTo sink b guard s st t n out) :
    n ≤ extractionLimit st.produced t := by
  unfold extractionLimit
  cases hannex : s.annex with
  | none =>
    have hnone (t : Target) : s.annexFrom? t = none := by
      rw [ApiSet.annexFrom?, hannex, Option.filter_none]
    cases h with
    | inline => exact Nat.zero_le _
    | refused hsome | extracted hsome => cases (hnone t).symm.trans hsome
  | some a =>
    by_cases hslash : '/' ∈ a.toList
    · obtain ⟨init, last, rfl, hlast⟩ := Path.exists_of_slash_mem hslash
      have hasks := h.asks hannex hlast
      rcases Path.returns_or_grows init last t.path.components with hreturns | hgrows
      · have hle := hasks.le_of_returns hreturns
        omega
      · obtain ⟨p, hp, hle⟩ := hasks.exists_mem_of_grows hgrows
        have hmax := List.le_max_of_le' 0
          (List.mem_map_of_mem (f := fun q : Path => q.components.length) hp) (Nat.le_refl _)
        omega
    · obtain ⟨m, hm, out', hends⟩ : ∃ m ≤ _, ∃ out', ExtractsTo sink b guard s st t m out' :=
        exists_extractsTo hannex (t.endsWithin hslash) st
      rw [← (h.unique hends).1]
      omega

/-- The renderer returns what rendering comes to, whenever it comes to something. -/
theorem ExtractsTo.render_eq (hs : st.registry.set? name = some s)
    (h : ExtractsTo sink b guard s st t n out) : st.render sink b name t guard = out := by
  rw [render, hs]
  exact h.renderWithin_eq h.le_extractionLimit

/-- A rendering that ends by itself does not end in being cut off. -/
theorem ExtractsTo.ne_endless (h : ExtractsTo sink b guard s st t n out) :
    out.1 ≠ .error .endless := by
  induction h with
  | inline =>
    intro he
    rw [renderInline_fst, mapError_eq_error] at he
    obtain ⟨e, -, he⟩ := he
    cases he
  | refused => exact nofun
  | @extracted _ _ _ _ _ out _ _ _ ih =>
    obtain ⟨outcome, st₂⟩ := out
    cases outcome with
    | error e => exact ih
    | ok content =>
      intro he
      rw [conclude] at he
      split at he
      · cases he
      · cases he

theorem exists_extractsTo_of_renderWithin (sink : Sink σ) (b : Boilerplate) (guard : Bool)
    (s : ApiSet) (fuel : Nat) (t : Target) (st : Rendering σ) :
    (renderWithin sink b guard s fuel t st).1 = .error .endless ∨
      ∃ n out, ExtractsTo sink b guard s st t n out := by
  fun_induction renderWithin sink b guard s fuel t st with
  | case1 fuel t st ha => exact .inr ⟨0, _, .inline ha⟩
  | case2 => exact .inl rfl
  | case3 t st a ha fuel e hst => exact .inr ⟨1, _, .refused ha hst⟩
  | case4 t st a ha fuel st₁ hst satellite e st₂ hinner ih =>
    rw [hinner] at ih
    rcases ih with hendless | ⟨n, out, h⟩
    · exact .inl hendless
    · exact .inr ⟨n + 1, _, .extracted ha hst h⟩
  | case5 t st a ha fuel st₁ hst satellite content st₂ hinner e written hwrite ih =>
    rw [hinner] at ih
    rcases ih with hendless | ⟨n, out, h⟩
    · cases hendless
    · exact .inr ⟨n + 1, _, .extracted ha hst h⟩
  | case6 t st a ha fuel st₁ hst satellite content st₂ hinner written hwrite lines st₃ hrefer ih =>
    rw [hinner] at ih
    rcases ih with hendless | ⟨n, out, h⟩
    · cases hendless
    · exact .inr ⟨n + 1, _, .extracted ha hst h⟩

/-- The renderer finds no end exactly where there is none. -/
theorem render_endless_iff (hs : st.registry.set? name = some s) :
    (st.render sink b name t guard).1 = .error .endless ↔
      ∀ n out, ¬ExtractsTo sink b guard s st t n out := by
  constructor
  · intro hendless n out h
    rw [h.render_eq hs] at hendless
    exact h.ne_endless hendless
  · intro hnone
    rw [render, hs]
    rcases exists_extractsTo_of_renderWithin sink b guard s _ t st with hendless | ⟨n, out, h⟩
    · exact hendless
    · exact absurd h (hnone n out)

end Rendering

end ApiHeaders
