import ApiHeaders.Proofs.Directories

/-!
# How often a set is extracted

A set is extracted until it is in a file that is called by its annex. Most satellites are called so
at once. An annex that makes no step of its own leads to the directory of the file, and from there
to the directory of that, so that the number of extractions is bounded by the length of the path.

## Main definitions

* `Target.Extracts` counts how often a set is extracted.

## Main statements

* `Target.Extracts.le` bounds the number of extractions.
-/

namespace ApiHeaders

namespace Target

variable {t t' : Target} {a ext : String} {n : Nat}

/-- A set with the annex `a` that is rendered into `t` is extracted `n` times, from satellite to
satellite. -/
inductive Extracts (a : String) : Target → Nat → Prop
  | stop {t : Target} (h : t.isAnnex a) : Extracts a t 0
  | step {t t' : Target} {n : Nat} (h : t.isAnnex a = false) (path : t'.path = t.annexPath a)
      (rest : Extracts a t' n) : Extracts a t (n + 1)

theorem Extracts.eq_zero (h : t.Extracts a n) (hannex : t.isAnnex a) : n = 0 := by
  cases h with
  | stop => rfl
  | step hother => simp [hother] at hannex

theorem isAnnex_of_fileName {file : String} (hfile : t.path.fileName? = some file)
    (hcut : (Path.cutExtension file).1 = a) : t.isAnnex a := by
  simp [isAnnex, Path.stem, Path.stem?, hfile, hcut]

theorem extension?_eq_none (h : t.path.fileName? = none) : t.path.extension? = none := by
  rw [Path.extension?, h]
  rfl

theorem isAnnex_eq_of_fileName?_eq_none (h : t.path.fileName? = none) :
    t.isAnnex a = decide ("" = a) := by
  simp [isAnnex, Path.stem, Path.stem?, h]

/-! ### Annexes that are names -/

theorem cutExtension_annexName (hext : t.path.extension? = some ext) (ha : a ≠ "") :
    Path.cutExtension (t.annexName a) = (a, some ext) := by
  obtain ⟨-, -, -, hdot⟩ := Path.eq_of_extension? hext
  obtain ⟨c, cs, hcs⟩ :=
    List.exists_cons_of_ne_nil fun hnil => ha (String.toList_eq_nil_iff.1 hnil)
  rw [Path.cutExtension, annexName_of_some a hext, Text.breakAtLast?_append hdot]
  simp [hcs, ← String.toList_inj]

/-- Below an extension, all but a few annexes make the name of a file. -/
theorem isName_of_extension (hext : t.path.extension? = some ext) (hslash : '/' ∉ a.toList)
    (hempty : a ≠ "") (hdot : a ≠ ".") : Path.IsName (t.annexName a) := by
  have htext := annexName_of_some a hext
  obtain ⟨c, cs, hcs⟩ :=
    List.exists_cons_of_ne_nil fun hnil => hempty (String.toList_eq_nil_iff.1 hnil)
  refine ⟨t.slash_not_mem_annexName hslash, ?_, ?_⟩
  · rw [Path.isIdle, htext, hcs]
    simp
  · intro hup
    rw [htext, hcs, List.cons_append, List.cons.injEq] at hup
    obtain ⟨rfl, hrest⟩ := hup
    cases cs with
    | nil => exact hdot (String.toList_inj.1 hcs)
    | cons c cs => simp at hrest

/-- The satellite of a target with an extension is called by the annex. -/
theorem isAnnex_of_extension (hext : t.path.extension? = some ext) (hslash : '/' ∉ a.toList)
    (hempty : a ≠ "") (hdot : a ≠ ".") (hpath : t'.path = t.annexPath a) : t'.isAnnex a := by
  have hfile := t.fileName?_annexPath_of_isName hslash
    (isName_of_extension hext hslash hempty hdot)
  rw [← hpath] at hfile
  exact isAnnex_of_fileName hfile (by rw [cutExtension_annexName hext hempty])

/-- An annex that is no step of its own kind is a name. -/
theorem isName_of_ne (hslash : '/' ∉ a.toList) (hempty : a ≠ "") (hdot : a ≠ ".") (hup : a ≠ "..") :
    Path.IsName a := by
  refine ⟨hslash, ?_, fun heq => hup (String.toList_inj.1 heq)⟩
  rw [Path.isIdle, Bool.or_eq_false_iff, decide_eq_false_iff_not, decide_eq_false_iff_not]
  exact ⟨fun heq => hempty (String.toList_inj.1 heq), fun heq => hdot (String.toList_inj.1 heq)⟩

/-- A file without an extension is called by its name. -/
theorem isAnnex_of_extension?_eq_none (hfile : t.path.fileName? = some a)
    (hext : t.path.extension? = none) : t.isAnnex a := by
  refine isAnnex_of_fileName hfile ?_
  rw [Path.extension?, hfile, Option.bind_some, Path.cutExtension] at hext
  rw [Path.cutExtension]
  split at hext <;> simp_all

/-- From a target without an extension, the parent directory is never left. -/
theorem not_extracts_up (hnone : t.path.fileName? = none) : ¬t.Extracts ".." n := by
  intro h
  induction h with
  | stop hannex => simp [isAnnex_eq_of_fileName?_eq_none hnone] at hannex
  | @step t t' n _ hpath _ ih =>
    refine ih ?_
    have hname : t.annexName ".." = ".." := annexName_of_none (extension?_eq_none hnone)
    have hplace := t.components_annexPath_of_step (a := "..") (by decide) (by rw [hname]; rfl)
    rw [Path.fileName?, hpath, hplace, hname, List.getLast?_concat]
    rfl

/-- An annex that makes a step is extracted into at most two satellites. -/
theorem Extracts.le_two (hslash : '/' ∉ a.toList) (hempty : a ≠ "") (hdot : a ≠ ".")
    (h : t.Extracts a n) : n ≤ 2 := by
  cases h with
  | stop => exact Nat.zero_le 2
  | @step _ t₁ n _ hpath rest =>
    cases hext : t.path.extension? with
    | some ext =>
      have hannex := isAnnex_of_extension hext hslash hempty hdot hpath
      rw [rest.eq_zero hannex]
      decide
    | none =>
      have hname : t.annexName a = a := annexName_of_none hext
      by_cases hup : a = ".."
      · subst hup
        have hplace := t.components_annexPath_of_step hslash (by rw [hname]; rfl)
        have hnone : t₁.path.fileName? = none := by
          rw [Path.fileName?, hpath, hplace, hname, List.getLast?_concat]
          rfl
        exact absurd rest (not_extracts_up hnone)
      · have hisName : Path.IsName (t.annexName a) := by
          rw [hname]
          exact isName_of_ne hslash hempty hdot hup
        have hfile := t.fileName?_annexPath_of_isName hslash hisName
        rw [← hpath, hname] at hfile
        -- The annex has an extension of its own, which its second satellite has as well.
        cases hext₁ : t₁.path.extension? with
        | none =>
          have hzero := rest.eq_zero (isAnnex_of_extension?_eq_none hfile hext₁)
          omega
        | some ext =>
          cases rest with
          | stop => decide
          | step _ hpath₁ rest =>
            have hzero := rest.eq_zero (isAnnex_of_extension hext₁ hslash hempty hdot hpath₁)
            omega

/-! ### Annexes that are none -/

/-- An annex that makes no step of its own. -/
def IsIdleAnnex (a : String) : Prop := a = "" ∨ a = "."

theorem IsIdleAnnex.slash_not_mem (h : IsIdleAnnex a) : '/' ∉ a.toList := by
  rcases h with rfl | rfl <;> decide

/-- A path without a step, or with nothing but the place where it starts. -/
def IsOutset (t : Target) : Prop := t.path.components = [] ∨ t.path.components = [.here]

theorem IsOutset.fileName?_eq_none (h : t.IsOutset) : t.path.fileName? = none := by
  rcases h with h | h <;> rw [Path.fileName?, h] <;> rfl

/-- Where paths start, a set is not extracted any more, or for ever. -/
theorem Extracts.eq_zero_of_isOutset (ha : IsIdleAnnex a) (ht : t.IsOutset) (h : t.Extracts a n) :
    n = 0 := by
  rcases ha with rfl | rfl
  · refine h.eq_zero ?_
    rw [isAnnex_eq_of_fileName?_eq_none ht.fileName?_eq_none]
    rfl
  · exfalso
    induction h with
    | stop hannex => simp [isAnnex_eq_of_fileName?_eq_none ht.fileName?_eq_none] at hannex
    | @step t t' n _ hpath _ ih =>
      refine ih ?_
      have hname : t.annexName "." = "." :=
        annexName_of_none (extension?_eq_none ht.fileName?_eq_none)
      have hplace := t.components_annexPath_of_idle (a := ".") (by decide) (by rw [hname]; rfl)
      rw [IsOutset, hpath]
      rcases hplace with hplace | hplace
      · left
        rcases ht with ht | ht <;> rw [hplace, ht] <;> rfl
      · exact hplace

/-- A satellite in the directory of its target has its own satellite further up. -/
theorem idle_or_isAnnex (ha : IsIdleAnnex a) (hstep : Path.isIdle (t.annexName a).toList = false)
    (hpath : t'.path = t.annexPath a) :
    Path.isIdle (t'.annexName a).toList ∨ t'.isAnnex a := by
  have hidle : Path.isIdle a.toList := by rcases ha with rfl | rfl <;> rfl
  cases hext : t.path.extension? with
  | none =>
    rw [annexName_of_none hext, hidle] at hstep
    cases hstep
  | some ext =>
    obtain ⟨-, -, hextslash, hdot⟩ := Path.eq_of_extension? hext
    have htext := annexName_of_some a hext
    have hplace := t.components_annexPath_of_step ha.slash_not_mem hstep
    rcases ha with rfl | rfl
    · have hname : Path.IsName (t.annexName "") := by
        refine ⟨t.slash_not_mem_annexName (by decide), hstep, ?_⟩
        intro hup
        have hlist : ext.toList = ['.'] := by simpa [htext] using hup
        rw [hlist] at hdot
        exact hdot List.mem_cons_self
      have hfile := t.fileName?_annexPath_of_isName (a := "") (by decide) hname
      have hnone : t'.path.extension? = none := by
        rw [hpath, Path.extension?, hfile, Option.bind_some, Path.cutExtension, htext]
        rw [Text.breakAtLast?_append hdot]
        rfl
      left
      rw [annexName_of_none hnone]
      rfl
    · by_cases hempty : ext = ""
      · have hup : (t.annexName ".").toList = ['.', '.'] := by
          rw [htext, hempty]
          rfl
        have hnone : t'.path.fileName? = none := by
          rw [Path.fileName?, hpath, hplace, hup, List.getLast?_concat]
          rfl
        left
        rw [annexName_of_none (extension?_eq_none hnone)]
        rfl
      · have hfits : t.Fits "." := fits_of_extension hext hempty (by decide)
        have hfile := t.fileName?_annexPath_of_isName (by decide) (hfits.isName (by decide))
        rw [← hpath] at hfile
        exact .inr (isAnnex_of_fileName hfile hfits.cutExtension)

theorem length_components_of_idle (ha : IsIdleAnnex a) (hidle : Path.isIdle (t.annexName a).toList)
    (hpath : t'.path = t.annexPath a) (ht' : ¬t'.IsOutset) :
    t'.path.components.length = t.path.components.length - 1 := by
  have hplace := (t.components_annexPath_of_idle ha.slash_not_mem hidle).resolve_right
    fun h => ht' (by rwa [IsOutset, hpath])
  rw [hpath, hplace, List.length_dropLast]

theorem length_components_of_step (ha : IsIdleAnnex a)
    (hstep : Path.isIdle (t.annexName a).toList = false) (hpath : t'.path = t.annexPath a)
    (ht : t.path.components ≠ []) :
    t'.path.components.length = t.path.components.length := by
  have hplace := t.components_annexPath_of_step ha.slash_not_mem hstep
  have hpos := List.length_pos_iff.2 ht
  rw [hpath, hplace, List.length_append, List.length_dropLast, List.length_singleton]
  omega

/-- Every second satellite is in the directory of the one before. -/
theorem Extracts.le_of_isIdleAnnex (ha : IsIdleAnnex a) (h : t.Extracts a n) :
    n ≤ 2 * t.path.components.length +
      (if Path.isIdle (t.annexName a).toList then 1 else 2) := by
  induction h with
  | stop => exact Nat.zero_le _
  | @step t t' n hother hpath rest ih =>
    by_cases ht : t.IsOutset
    · cases (Extracts.step hother hpath rest).eq_zero_of_isOutset ha ht
    by_cases ht' : t'.IsOutset
    · rw [rest.eq_zero_of_isOutset ha ht']
      split <;> omega
    have hne : t.path.components ≠ [] := fun hnil => ht (.inl hnil)
    have hpos := List.length_pos_iff.2 hne
    by_cases hidle : Path.isIdle (t.annexName a).toList
    · have hlength := length_components_of_idle ha hidle hpath ht'
      rw [if_pos hidle]
      split at ih <;> omega
    · rw [Bool.not_eq_true] at hidle
      have hlength := length_components_of_step ha hidle hpath hne
      rw [hidle]
      rcases idle_or_isAnnex ha hidle hpath with hidle' | hannex
      · rw [if_pos hidle', hlength] at ih
        simp only [Bool.false_eq_true, if_false]
        omega
      · rw [rest.eq_zero hannex]
        simp only [Bool.false_eq_true, if_false]
        omega

/-- The number of extractions is bounded by the length of the path. -/
theorem Extracts.le (hslash : '/' ∉ a.toList) (h : t.Extracts a n) :
    n ≤ 2 * t.path.components.length + 2 := by
  by_cases ha : IsIdleAnnex a
  · have hle := h.le_of_isIdleAnnex ha
    split at hle <;> omega
  · rw [IsIdleAnnex, not_or] at ha
    have hle := h.le_two hslash ha.1 ha.2
    omega

end Target

end ApiHeaders
