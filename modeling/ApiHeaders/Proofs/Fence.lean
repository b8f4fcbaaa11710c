import ApiHeaders.Proofs.Harmless

/-!
# Fences

Lines between the directives of a guard, and texts that can be read without harm.

## Main definitions

* `fence` puts lines between the directives of a guard.
* `Tame` is a condition on texts.

## Main statements

* `Tame.keeps` says that tame texts keep the macros.
* `readText_fence_of_mem` and `readText_fence_of_not_mem` read a fence, `keeps_fence` says what it
  keeps.
-/

namespace ApiHeaders

theorem depthAfter_add {lines : List String} {depth n : Nat} (h : depthAfter depth lines = some n)
    (more : Nat) : depthAfter (depth + more) lines = some (n + more) := by
  induction lines generalizing depth with
  | nil =>
    have hn : depth = n := Option.some.inj h
    rw [← hn]
    rfl
  | cons line lines ih =>
    rw [depthAfter, Option.bind_eq_some_iff] at h ⊢
    obtain ⟨d, hd, hrest⟩ := h
    refine ⟨d + more, ?_, ih hrest⟩
    cases hl : Directive.of? line with
    | none =>
      rw [hl] at hd
      rw [← Option.some.inj hd]
      rfl
    | some directive =>
      rw [hl] at hd
      cases directive <;>
        simp only [Directive.depthAfter, Option.some.injEq,
          Option.ite_none_left_eq_some] at hd ⊢ <;>
        omega

theorem Nested.append {xs ys : List String} (hx : Nested xs) (hy : Nested ys) :
    Nested (xs ++ ys) := by
  rw [Nested, depthAfter_append, hx]
  exact hy

theorem nested_flatMap {α : Type} {f : α → List String} {as : List α}
    (h : ∀ a ∈ as, Nested (f a)) : Nested (as.flatMap f) := by
  induction as with
  | nil => rfl
  | cons a as ih =>
    rw [List.flatMap_cons]
    exact (h a List.mem_cons_self).append (ih fun b hb => h b (List.mem_cons_of_mem _ hb))

theorem depthAfter_of_not_isConditional {lines : List String}
    (h : ∀ line ∈ lines, isConditional line = false) (depth : Nat) :
    depthAfter depth lines = some depth := by
  induction lines with
  | nil => rfl
  | cons line lines ih =>
    have hline : Directive.depthAfter depth (Directive.of? line) = some depth := by
      have hfirst := h line List.mem_cons_self
      unfold isConditional at hfirst
      cases hd : Directive.of? line with
      | none => rfl
      | some d =>
        rw [hd, Option.any_some] at hfirst
        cases d <;> first | rfl | cases hfirst
    rw [depthAfter, hline]
    exact ih fun l hl => h l (List.mem_cons_of_mem _ hl)

theorem nested_of_not_isConditional {lines : List String}
    (h : ∀ line ∈ lines, isConditional line = false) : Nested lines :=
  depthAfter_of_not_isConditional h 0

theorem not_isConditional_of_isPlain {kept files : List String} {line : String}
    (h : isPlain kept files line) : isConditional line = false := by
  unfold isPlain at h
  unfold isConditional
  cases hd : Directive.of? line with
  | none => rfl
  | some d =>
    rw [hd, Option.all_some] at h
    rw [Option.any_some]
    cases d <;> first | rfl | cases h

/-- Lines between the directives of a guard. -/
def fence (guard : String) (lines : List String) : List String :=
  ("#ifndef " ++ guard) :: (lines ++ ["#endif /* " ++ guard ++ " */"])

@[simp] theorem length_fence (guard : String) (lines : List String) :
    (fence guard lines).length = lines.length + 2 := by
  simp [fence]

theorem nested_fence (guard : String) {lines : List String} (h : Nested lines) :
    Nested (fence guard lines) := by
  have hinner : depthAfter 1 lines = some 1 := depthAfter_add h 1
  simp [Nested, fence, depthAfter, depthAfter_append, Directive.of?_ifndef_text,
    Directive.of?_endif, Directive.depthAfter, hinner]

theorem nested_define (guard : String) {lines : List String} (h : Nested lines) :
    Nested (("#define " ++ guard) :: lines) := by
  rw [Nested, depthAfter, Directive.of?_define_text _ List.mem_cons_self]
  exact h

theorem nested_define_one (guard : String) {lines : List String} (h : Nested lines) :
    Nested (("#define " ++ guard ++ " 1") :: lines) := by
  rw [String.append_assoc]
  exact nested_define (guard ++ " 1") h

theorem nested_include (file : String) : Nested ["#include \"" ++ file ++ "\""] := by
  rw [Nested, depthAfter, Directive.of?_include_text]
  cases Text.breakAt? '"' (file.toList ++ ['"']) <;> rfl

/-- A text that closes its own conditionals, changes none of the macros in `kept` and includes
nothing but `files`. -/
structure Tame (kept files lines : List String) : Prop where
  nested : Nested lines
  harmless : ∀ line ∈ lines, isHarmless kept files line

theorem Tame.append {kept files xs ys : List String} (hx : Tame kept files xs)
    (hy : Tame kept files ys) : Tame kept files (xs ++ ys) := by
  refine ⟨hx.nested.append hy.nested, ?_⟩
  intro line hline
  rcases List.mem_append.1 hline with hline | hline
  · exact hx.harmless line hline
  · exact hy.harmless line hline

theorem tame_blank (kept files : List String) : Tame kept files [""] :=
  ⟨rfl, List.forall_mem_singleton.2 rfl⟩

theorem Tame.mono {kept kept' files files' lines : List String} (h : Tame kept' files lines)
    (hkept : kept ⊆ kept') (hfiles : files ⊆ files') : Tame kept files' lines :=
  ⟨h.nested, fun line hline => isHarmless_mono hkept hfiles (h.harmless line hline)⟩

section Fence

variable {holds : List String → String → Bool}
  {load : String → List String → List Place × List String}
  {file guard : String} {n : Nat} {lines macros : List String}

theorem numbered_fence : numbered file n (fence guard lines) =
    (⟨file, n⟩, "#ifndef " ++ guard) :: (numbered file (n + 1) lines
      ++ [(⟨file, n + 1 + lines.length⟩, "#endif /* " ++ guard ++ " */")]) := by
  rw [fence, numbered, numbered_append]
  rfl

theorem readText_numbered_append {xs ys : List String} (h : Nested xs) (macros : List String) :
    readText holds load (numbered file n (xs ++ ys)) macros =
      ((readText holds load (numbered file n xs) macros).1
          ++ (readText holds load (numbered file (n + xs.length) ys)
            (readText holds load (numbered file n xs) macros).2).1,
        (readText holds load (numbered file (n + xs.length) ys)
          (readText holds load (numbered file n xs) macros).2).2) := by
  rw [numbered_append, readText_append]
  rwa [map_snd_numbered]

theorem readText_fence_of_mem (hguard : Directive.isWord guard) (h : Nested lines)
    (hmem : guard ∈ macros) :
    readText holds load (numbered file n (fence guard lines)) macros = ([⟨file, n⟩], macros) := by
  rw [numbered_fence]
  exact readText_of_mem (Directive.of?_ifndef hguard) (Directive.of?_endif guard)
    (by rwa [map_snd_numbered]) hmem

theorem readText_fence_of_not_mem (hguard : Directive.isWord guard) (h : Nested lines)
    (hmem : guard ∉ macros) :
    readText holds load (numbered file n (fence guard lines)) macros =
      (⟨file, n⟩ :: (readText holds load (numbered file (n + 1) lines) macros).1
          ++ [⟨file, n + 1 + lines.length⟩],
        (readText holds load (numbered file (n + 1) lines) macros).2) := by
  rw [numbered_fence]
  exact readText_of_not_mem (Directive.of?_ifndef hguard) (Directive.of?_endif guard)
    (by rwa [map_snd_numbered]) hmem

/-- Tame lines at places that are not hidden keep the macros. -/
theorem Tame.keeps {kept files : List String} {hidden : Place → Prop} (h : Tame kept files lines)
    (hcalm : Calm kept files hidden load macros)
    (hplaces : ∀ i < lines.length, ¬hidden ⟨file, n + i⟩) :
    Keeps kept hidden macros (readText holds load (numbered file n lines) macros) := by
  refine keeps_readText hcalm ?_ ?_
  · intro x hx
    obtain ⟨hfile, hn, hlt⟩ := place_of_mem_numbered hx
    have hx1 : x.1 = ⟨file, n + (x.1.line - n)⟩ := by
      rw [← hfile, Nat.add_sub_cancel' hn]
    rw [hx1]
    exact hplaces _ (by omega)
  · intro x hx
    have hmem : x.2 ∈ (numbered file n lines).map Prod.snd := List.mem_map_of_mem hx
    rw [map_snd_numbered] at hmem
    exact h.harmless x.2 hmem

theorem readText_define {name : String} (hname : Directive.isWord name) (place : Place)
    (lines : List (Place × String)) (macros : List String) :
    readText holds load ((place, "#define " ++ name) :: lines) macros =
      (place :: (readText holds load lines (name :: macros)).1,
        (readText holds load lines (name :: macros)).2) := by
  simp [readText, readLines, Reader.step, Directive.of?_define hname, Reader.follow,
    Reader.active]

theorem readText_define_one {name : String} (hname : Directive.isWord name) (place : Place)
    (lines : List (Place × String)) (macros : List String) :
    readText holds load ((place, "#define " ++ name ++ " 1") :: lines) macros =
      (place :: (readText holds load lines (name :: macros)).1,
        (readText holds load lines (name :: macros)).2) := by
  simp [readText, readLines, Reader.step, Directive.of?_define_one hname, Reader.follow,
    Reader.active]

theorem readText_include {file : String} (hfile : '"' ∉ file.toList) (place : Place)
    (macros : List String) :
    readText holds load [(place, "#include \"" ++ file ++ "\"")] macros =
      (place :: (load file macros).1, (load file macros).2) := by
  simp [readText, readLines, Reader.step, Directive.of?_include hfile, Reader.follow,
    Reader.active]

theorem readText_blank (file : String)
    (n : Nat) (macros : List String) :
    readText holds load (numbered file n [""]) macros = ([⟨file, n⟩], macros) := rfl

theorem keeps_numbered_append {kept : List String} {hidden : Place → Prop} {file : String}
    {n : Nat} {xs ys : List String} (hxs : Nested xs)
    (hx : Keeps kept hidden macros (readText holds load (numbered file n xs) macros))
    (hy : ∀ macros', SameOn kept macros macros' →
      Keeps kept hidden macros' (readText holds load (numbered file (n + xs.length) ys) macros')) :
    Keeps kept hidden macros (readText holds load (numbered file n (xs ++ ys)) macros) := by
  rw [readText_numbered_append hxs]
  exact hx.append (hy _ hx.same)

theorem keeps_fence {kept : List String} {hidden : Place → Prop} {file guard : String} {n : Nat}
    {lines : List String} (hguard : Directive.isWord guard) (hlines : Nested lines)
    (hfirst : ¬hidden ⟨file, n⟩) (hlast : ¬hidden ⟨file, n + 1 + lines.length⟩)
    (hinner : guard ∉ macros →
      Keeps kept hidden macros (readText holds load (numbered file (n + 1) lines) macros)) :
    Keeps kept hidden macros
      (readText holds load (numbered file n (fence guard lines)) macros) := by
  by_cases hmem : guard ∈ macros
  · rw [readText_fence_of_mem hguard hlines hmem]
    exact .single hfirst
  · rw [readText_fence_of_not_mem hguard hlines hmem]
    have hread := (Keeps.single hfirst).append ((hinner hmem).append (Keeps.single hlast))
    exact hread

end Fence

end ApiHeaders
