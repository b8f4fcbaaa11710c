import ApiHeaders.Config.Basic
import ApiHeaders.Proofs.Fence

/-!
# Platform macros and guards

The platform macros of a header close their conditionals and stay away from guards.

## Main definitions

* `platformMacros` are the macros that they define.

## Main statements

* `tame_preambleText` says that an output's own preamble decides what its platform macros disturb.
-/

namespace ApiHeaders

variable {kept files : List String} {scope : String}

/-- The macros that the platform macros of a namespace define. -/
def platformMacros (scope : String) : List String :=
  ["_CPLUSPLUS", "_API_NOEXCEPT", "_API_NOEXCEPT17", "_API", "_APIENTRY"].map (scope ++ ·)

theorem nested_platformLines (scope : String) : Nested (platformLines scope) := by
  obtain ⟨new, hnew⟩ := Directive.of?_if (scope ++ "_CPLUSPLUS >= 201103L")
  obtain ⟨old, hold⟩ := Directive.of?_if (scope ++ "_CPLUSPLUS >= 201703L")
  have hdefine := Directive.of?_define_text "#define " (by simp)
  have hinner := Directive.of?_define_text " #define " (by simp)
  have hinmost := Directive.of?_define_text "  #define " (by simp)
  simp only [platformLines, Nested, depthAfter, String.append_assoc, hnew, hold, hdefine, hinner,
    hinmost, Directive.of?_undef_text, Directive.of?_ifndef_text]
  rfl

theorem tame_platformLines (hscope : Directive.isWord scope)
    (hkept : ∀ m ∈ platformMacros scope, m ∉ kept) : Tame kept files (platformLines scope) := by
  obtain ⟨new, hnew⟩ := Directive.of?_if (scope ++ "_CPLUSPLUS >= 201103L")
  obtain ⟨old, hold⟩ := Directive.of?_if (scope ++ "_CPLUSPLUS >= 201703L")
  rw [← String.append_assoc] at hnew hold
  have hundef := Directive.of?_undef (Directive.isWord_append hscope "_CPLUSPLUS" rfl)
  have hifndef := Directive.of?_ifndef (Directive.isWord_append hscope "_API" rfl)
  rw [← String.append_assoc] at hundef hifndef
  have hdefine := Directive.of?_define_append hscope "#define " (by simp)
  have hinner := Directive.of?_define_append hscope " #define " (by simp)
  have hinmost := Directive.of?_define_append hscope "  #define " (by simp)
  simp only [platformMacros, List.map_cons, List.forall_mem_cons] at hkept
  obtain ⟨hcplusplus, hnoexcept, hnoexcept17, hapi, hentry, -⟩ := hkept
  refine ⟨nested_platformLines scope, ?_⟩
  simp only [platformLines, List.forall_mem_cons, isHarmless, hnew, hold,
    hundef, hifndef, hdefine "_CPLUSPLUS" "_CPLUSPLUS _MSVC_LANG" rfl,
    hdefine "_CPLUSPLUS" "_CPLUSPLUS __cplusplus" rfl,
    hdefine "_API_NOEXCEPT" "_API_NOEXCEPT noexcept" rfl,
    hdefine "_API_NOEXCEPT" "_API_NOEXCEPT" rfl,
    hdefine "_API_NOEXCEPT17" "_API_NOEXCEPT17 noexcept" rfl,
    hdefine "_API_NOEXCEPT17" "_API_NOEXCEPT17" rfl, hinmost "_API" "_API" rfl,
    hinmost "_API" "_API __declspec(dllimport)" rfl, hinmost "_API" "_API extern" rfl,
    hinner "_APIENTRY" "_APIENTRY __cdecl" rfl, hinner "_APIENTRY" "_APIENTRY" rfl,
    Option.all_some, Directive.isHarmless, hcplusplus, hnoexcept, hnoexcept17, hapi, hentry,
    not_false_eq_true, decide_true, true_and]
  and_intros <;> first | rfl | exact List.forall_mem_nil _

theorem physicalLines_platformLines (hscope : '\n' ∉ scope.toList) :
    Text.physicalLines (platformLines scope) = platformLines scope := by
  apply Text.physicalLines_of_not_mem
  simp [platformLines, hscope]

/-- The platform macros of an output stand before the lines of its own preamble. -/
theorem pieces_preambleText {o : Output} (h : ∀ scope ∈ o.platformScope, '\n' ∉ scope.toList) :
    Text.pieces '\n' o.preambleText =
      (o.platformScope.map platformLines).getD [] ++ Text.pieces '\n' (o.preamble.getD "") := by
  unfold Output.preambleText
  cases hplatform : o.platformScope with
  | none =>
    rw [Option.map_none, Option.getD_none, String.empty_append]
    rfl
  | some scope =>
    rw [Option.map_some, Option.getD_some, platformPreamble, Text.pieces_join_append,
      physicalLines_platformLines (h scope hplatform)]
    rfl

/-- The preamble of an output is tame if its own part is, and the platform macros are no guards. -/
theorem tame_preambleText {o : Output} (hscope : ∀ scope ∈ o.platformScope, Directive.isWord scope)
    (hkept : ∀ scope ∈ o.platformScope, ∀ m ∈ platformMacros scope, m ∉ kept)
    (hown : Tame kept files (Text.pieces '\n' (o.preamble.getD ""))) :
    Tame kept files (Text.pieces '\n' o.preambleText) := by
  rw [pieces_preambleText fun scope h => Directive.break_not_mem (hscope scope h)]
  refine Tame.append ?_ hown
  cases hplatform : o.platformScope with
  | none => exact ⟨rfl, List.forall_mem_nil _⟩
  | some scope => exact tame_platformLines (hscope scope hplatform) (hkept scope hplatform)

end ApiHeaders
