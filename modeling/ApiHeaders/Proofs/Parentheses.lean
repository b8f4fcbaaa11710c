import ApiHeaders.Declaration.FunctionPointer
import Mathlib.Data.List.Basic

/-!
# Parentheses

The parameters of a function pointer type end with the parenthesis that closes the first one,
however many stand in between.

## Main definitions

* `FunctionPointer.Enclosed` says that a text starts with a parenthesis and ends with the one that
  closes it.
* `FunctionPointer.Closes` says so of what follows an open parenthesis.

## Main statements

* `FunctionPointer.cutParentheses_eq_some_iff` says which text is cut off.
-/

namespace ApiHeaders.FunctionPointer

variable {cs inner rest : List Char} {depth : Nat} {c : Char}

/-- A text that starts with a parenthesis, and ends with the one that closes it. -/
structure Enclosed (cs : List Char) : Prop where
  opens : cs.head? = some '('
  closes : cs.count ')' = cs.count '('
  inside : ∀ pre post, cs = pre ++ post → pre ≠ [] → post ≠ [] → pre.count ')' < pre.count '('

/-- A text that ends with the parenthesis which closes one in front of it, inside which `depth`
others are open. -/
structure Closes (depth : Nat) (cs : List Char) : Prop where
  closes : cs.count ')' = cs.count '(' + depth + 1
  inside : ∀ pre post, cs = pre ++ post → post ≠ [] → pre.count ')' ≤ pre.count '(' + depth

theorem not_closes_nil : ¬Closes depth [] := fun h => by
  have hcloses := h.closes
  simp at hcloses

/-- The only parenthesis that is open is closed by the next one. -/
theorem closes_zero_cons_iff : Closes 0 (')' :: cs) ↔ cs = [] := by
  constructor
  · intro h
    by_contra hne
    have hinside := h.inside [')'] cs rfl hne
    simp at hinside
  · rintro rfl
    refine ⟨rfl, fun pre post heq hne => ?_⟩
    obtain rfl : pre = [] := by
      have hlength := congrArg List.length heq
      have hpos := List.length_pos_iff.2 hne
      simp only [List.length_singleton, List.length_append] at hlength
      exact List.length_eq_zero_iff.1 (by omega)
    simp

/-- Unless a character closes the last open parenthesis, some number of others is open after it. -/
theorem exists_depth (h : ¬(c = ')' ∧ depth = 0)) :
    ∃ depth', depth' + [c].count ')' = depth + [c].count '(' := by
  by_cases hclose : c = ')'
  · obtain ⟨depth', rfl⟩ := Nat.exists_eq_succ_of_ne_zero fun hzero => h ⟨hclose, hzero⟩
    exact ⟨depth', by simp [hclose]⟩
  · exact ⟨depth + [c].count '(', by simp [hclose]⟩

theorem closes_cons_iff {depth' : Nat}
    (h : depth' + [c].count ')' = depth + [c].count '(') :
    Closes depth (c :: cs) ↔ Closes depth' cs := by
  have hcount (d : Char) (ds : List Char) : (c :: ds).count d = [c].count d + ds.count d := by
    rw [← List.count_append, List.singleton_append]
  constructor
  · intro hcloses
    refine ⟨?_, fun pre post heq hne => ?_⟩
    · have htotal := hcloses.closes
      rw [hcount ')' cs, hcount '(' cs] at htotal
      omega
    · have hinside := hcloses.inside (c :: pre) post (by rw [heq, List.cons_append]) hne
      rw [hcount ')' pre, hcount '(' pre] at hinside
      omega
  · intro hcloses
    refine ⟨?_, fun pre post heq hne => ?_⟩
    · have htotal := hcloses.closes
      rw [hcount ')' cs, hcount '(' cs]
      omega
    · cases pre with
      | nil => simp
      | cons d pre =>
        rw [List.cons_append] at heq
        obtain ⟨rfl, rfl⟩ := List.cons.inj heq
        have hinside := hcloses.inside pre post rfl hne
        rw [hcount ')' pre, hcount '(' pre]
        omega

/-- A character is passed over, unless it closes the last open parenthesis. -/
theorem closeParenthesis_cons {depth' : Nat}
    (h : depth' + [c].count ')' = depth + [c].count '(') :
    closeParenthesis depth (c :: cs) =
      (closeParenthesis depth' cs).map fun (inner, rest) => (c :: inner, rest) := by
  by_cases hopen : c = '('
  · subst hopen
    obtain rfl : depth' = depth + 1 := by simpa using h
    rfl
  · by_cases hclose : c = ')'
    · subst hclose
      obtain rfl : depth = depth' + 1 := by simpa using h.symm
      rfl
    · obtain rfl : depth' = depth := by simpa [hopen, hclose] using h
      rw [closeParenthesis]
      · exact hopen
      · exact fun _ => hclose
      · exact fun _ _ => hclose

theorem closeParenthesis_eq_some_iff :
    closeParenthesis depth cs = some (inner, rest) ↔ cs = inner ++ rest ∧ Closes depth inner := by
  induction cs generalizing depth inner with
  | nil =>
    simp only [closeParenthesis, reduceCtorEq, false_iff, not_and]
    intro hnil
    rw [(List.append_eq_nil_iff.1 hnil.symm).1]
    exact not_closes_nil
  | cons c cs ih =>
    cases inner with
    | nil =>
      refine ⟨fun h => ?_, fun h => absurd h.2 not_closes_nil⟩
      by_cases hlast : c = ')' ∧ depth = 0
      · obtain ⟨rfl, rfl⟩ := hlast
        cases h
      · obtain ⟨depth', hdepth⟩ := exists_depth hlast
        rw [closeParenthesis_cons hdepth] at h
        simp at h
    | cons d inner =>
      rw [List.cons_append, List.cons.injEq]
      by_cases hlast : c = ')' ∧ depth = 0
      · obtain ⟨rfl, rfl⟩ := hlast
        rw [closeParenthesis]
        constructor
        · intro h
          cases h
          exact ⟨⟨rfl, rfl⟩, closes_zero_cons_iff.2 rfl⟩
        · rintro ⟨⟨rfl, rfl⟩, hcloses⟩
          rw [closes_zero_cons_iff.1 hcloses]
          rfl
      · obtain ⟨depth', hdepth⟩ := exists_depth hlast
        rw [closeParenthesis_cons hdepth, Option.map_eq_some_iff]
        constructor
        · rintro ⟨⟨inner', rest'⟩, hfound, heq⟩
          cases heq
          obtain ⟨rfl, hcloses⟩ := ih.1 hfound
          exact ⟨⟨rfl, rfl⟩, (closes_cons_iff hdepth).2 hcloses⟩
        · rintro ⟨⟨rfl, rfl⟩, hcloses⟩
          exact ⟨(inner, rest), ih.2 ⟨rfl, (closes_cons_iff hdepth).1 hcloses⟩, rfl⟩

theorem enclosed_cons_iff : Enclosed ('(' :: cs) ↔ Closes 0 cs := by
  constructor
  · intro h
    refine ⟨?_, fun pre post heq hne => ?_⟩
    · have htotal := h.closes
      simpa using htotal
    · have hinside := h.inside ('(' :: pre) post (by rw [heq, List.cons_append])
        (List.cons_ne_nil _ _) hne
      simp only [List.count_cons] at hinside
      simpa [Nat.lt_succ_iff] using hinside
  · intro h
    refine ⟨rfl, ?_, fun pre post heq hpre hpost => ?_⟩
    · simpa using h.closes
    · obtain ⟨d, pre, rfl⟩ := List.exists_cons_of_ne_nil hpre
      rw [List.cons_append] at heq
      obtain ⟨rfl, rfl⟩ := List.cons.inj heq
      have hinside := h.inside pre post rfl hpost
      simpa [Nat.lt_succ_iff] using hinside

/-- What is cut off a text is enclosed in parentheses. -/
theorem cutParentheses_eq_some_iff :
    cutParentheses cs = some (inner, rest) ↔ cs = inner ++ rest ∧ Enclosed inner := by
  constructor
  · intro h
    unfold cutParentheses at h
    split at h
    · obtain ⟨⟨inner', rest'⟩, hclose, heq⟩ := Option.map_eq_some_iff.1 h
      cases heq
      obtain ⟨rfl, hcloses⟩ := closeParenthesis_eq_some_iff.1 hclose
      exact ⟨rfl, enclosed_cons_iff.2 hcloses⟩
    · cases h
  · rintro ⟨rfl, hinner⟩
    obtain ⟨inner, rfl⟩ := List.head?_eq_some_iff.1 hinner.opens
    have hclose := closeParenthesis_eq_some_iff.2
      ⟨(rfl : inner ++ rest = inner ++ rest), enclosed_cons_iff.1 hinner⟩
    rw [List.cons_append, cutParentheses, hclose]
    rfl

end ApiHeaders.FunctionPointer
