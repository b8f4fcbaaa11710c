import ApiHeaders.Text.Pieces
import Mathlib.Data.List.Basic

/-!
# Pieces of a text

## Main definitions

* `Text.physicalLines` are the lines of a file that lines of text come to.

## Main statements

* `Text.splitOn_append_cons` and `Text.splitOn_intercalate` say how a separator cuts a text.
* `Text.breakAt?_append` says where it occurs first.
-/

namespace ApiHeaders

namespace Text

variable {sep : Char}

theorem splitOn_of_not_mem {cs : List Char} (h : sep ∉ cs) : splitOn sep cs = [cs] := by
  induction cs with
  | nil => rfl
  | cons c cs ih =>
    obtain ⟨hc, hcs⟩ := List.ne_and_not_mem_of_not_mem_cons h
    simp [splitOn, hc.symm, ih hcs]

theorem splitOn_append_cons (xs ys : List Char) :
    splitOn sep (xs ++ sep :: ys) = splitOn sep xs ++ splitOn sep ys := by
  induction xs with
  | nil => simp [splitOn]
  | cons x xs ih =>
    by_cases hx : x = sep
    · simp [splitOn, hx, ih]
    · rw [List.cons_append, splitOn, splitOn, if_neg hx, if_neg hx, ih]
      cases hxs : splitOn sep xs with
      | nil => exact absurd hxs (splitOn_ne_nil sep xs)
      | cons piece pieces => rfl

theorem splitOn_intercalate {pieces : List (List Char)} (hne : pieces ≠ [])
    (h : ∀ piece ∈ pieces, sep ∉ piece) : splitOn sep ([sep].intercalate pieces) = pieces := by
  induction pieces with
  | nil => exact absurd rfl hne
  | cons piece pieces ih =>
    have hpiece : sep ∉ piece := h piece List.mem_cons_self
    by_cases hp : pieces = []
    · rw [hp, List.intercalate_singleton, splitOn_of_not_mem hpiece]
    · have hrest := ih hp fun p hmem => h p (List.mem_cons_of_mem _ hmem)
      rw [List.intercalate_cons_of_ne_nil hp, List.append_assoc, List.singleton_append,
        splitOn_append_cons, splitOn_of_not_mem hpiece, hrest, List.singleton_append]

theorem not_mem_of_mem_splitOn {cs piece : List Char} (h : piece ∈ splitOn sep cs) :
    sep ∉ piece := by
  induction cs generalizing piece with
  | nil =>
    rw [List.mem_singleton.1 h]
    exact List.not_mem_nil
  | cons c cs ih =>
    by_cases hc : c = sep
    · rw [splitOn, if_pos hc] at h
      rcases List.mem_cons.1 h with rfl | h
      · exact List.not_mem_nil
      · exact ih h
    · rw [splitOn, if_neg hc] at h
      cases hcs : splitOn sep cs with
      | nil => exact absurd hcs (splitOn_ne_nil sep cs)
      | cons first rest =>
        rw [hcs] at h ih
        rcases List.mem_cons.1 h with rfl | h
        · intro hmem
          rcases List.mem_cons.1 hmem with heq | hmem
          · exact hc heq.symm
          · exact ih List.mem_cons_self hmem
        · exact ih (List.mem_cons_of_mem _ h)

theorem intercalate_splitOn (cs : List Char) :
    [sep].intercalate (splitOn sep cs) = cs := by
  induction cs with
  | nil => rfl
  | cons c cs ih =>
    have hne := splitOn_ne_nil sep cs
    by_cases hc : c = sep
    · rw [splitOn, if_pos hc, List.intercalate_cons_of_ne_nil hne, ih, hc]
      rfl
    · rw [splitOn, if_neg hc]
      cases hcs : splitOn sep cs with
      | nil => exact absurd hcs hne
      | cons piece pieces =>
        rw [hcs] at ih
        cases pieces with
        | nil =>
          rw [List.intercalate_singleton] at ih ⊢
          rw [ih]
        | cons next rest =>
          rw [List.intercalate_cons_cons] at ih ⊢
          rw [← ih]
          rfl

theorem intercalate_concat {pieces : List (List Char)} (hne : pieces ≠ [])
    (last : List Char) :
    [sep].intercalate (pieces ++ [last]) = [sep].intercalate pieces ++ sep :: last := by
  induction pieces with
  | nil => exact absurd rfl hne
  | cons piece pieces ih =>
    rw [List.cons_append, List.intercalate_cons_of_ne_nil (by simp)]
    cases pieces with
    | nil => simp [List.intercalate_singleton]
    | cons next rest =>
      rw [ih (List.cons_ne_nil next rest), List.intercalate_cons_cons]
      simp only [List.append_assoc]

theorem breakAt?_append {sep : Char} {cs : List Char} (h : sep ∉ cs) (rest : List Char) :
    breakAt? sep (cs ++ sep :: rest) = some (cs, rest) := by
  induction cs with
  | nil => simp [breakAt?]
  | cons c cs ih =>
    obtain ⟨hc, hcs⟩ := List.ne_and_not_mem_of_not_mem_cons h
    simp [breakAt?, hc.symm, ih hcs]

theorem breakAtLast?_append {sep : Char} {cs : List Char} (h : sep ∉ cs)
    (before : List Char) : breakAtLast? sep (before ++ sep :: cs) = some (before, cs) := by
  have hreverse : sep ∉ cs.reverse := fun hmem => h (List.mem_reverse.1 hmem)
  have hbreak := breakAt?_append hreverse before.reverse
  rw [breakAtLast?, List.reverse_append, List.reverse_cons, List.append_assoc,
    List.singleton_append, hbreak]
  simp

theorem breakAtLast?_of_not_mem {sep : Char} {cs : List Char} (h : sep ∉ cs) :
    breakAtLast? sep cs = none := by
  cases hbreak : breakAtLast? sep cs with
  | none => rfl
  | some parts =>
    obtain ⟨hcs, -⟩ := eq_of_breakAtLast? hbreak
    exact absurd (hcs ▸ by simp) h

/-- The lines of a file that lines of text come to: one of them may hold several. -/
def physicalLines (ls : List String) : List String := ls.flatMap (pieces '\n')

@[simp] theorem physicalLines_append (xs ys : List String) :
    physicalLines (xs ++ ys) = physicalLines xs ++ physicalLines ys :=
  List.flatMap_append

theorem physicalLines_cons (x : String) (xs : List String) :
    physicalLines (x :: xs) = pieces '\n' x ++ physicalLines xs :=
  List.flatMap_cons

theorem pieces_of_not_mem {s : String} (h : '\n' ∉ s.toList) : pieces '\n' s = [s] := by
  rw [pieces, splitOn_of_not_mem h, List.map_singleton, String.ofList_toList]

theorem physicalLines_of_not_mem {ls : List String} (h : ∀ l ∈ ls, '\n' ∉ l.toList) :
    physicalLines ls = ls := by
  induction ls with
  | nil => rfl
  | cons l ls ih =>
    rw [physicalLines_cons, pieces_of_not_mem (h l List.mem_cons_self),
      ih fun l' hl' => h l' (List.mem_cons_of_mem _ hl'), List.singleton_append]

theorem pieces_append_break (a b : String) :
    pieces '\n' (a ++ "\n" ++ b) = pieces '\n' a ++ pieces '\n' b := by
  have hsplit : (a ++ "\n" ++ b).toList = a.toList ++ '\n' :: b.toList := by
    simp [String.toList_append]
  rw [pieces, hsplit, splitOn_append_cons, List.map_append]
  rfl

/-- Lines that are all ended by a line feed. -/
theorem pieces_join_append (ls : List String) (rest : String) :
    pieces '\n' (String.join (ls.map (· ++ "\n")) ++ rest) =
      physicalLines ls ++ pieces '\n' rest := by
  induction ls with
  | nil => rw [List.map_nil, String.join_nil, String.empty_append]; rfl
  | cons l ls ih =>
    rw [List.map_cons, String.join_cons, String.append_assoc, pieces_append_break, ih,
      physicalLines_cons, List.append_assoc]

theorem pieces_join (ls : List String) :
    pieces '\n' (String.join (ls.map (· ++ "\n"))) = physicalLines ls ++ [""] := by
  have h := pieces_join_append ls ""
  rw [String.append_empty] at h
  exact h

/-- Lines that are all ended are joined lines with an end. -/
theorem join_breaks {ls : List String} (h : ls ≠ []) :
    String.join (ls.map (· ++ "\n")) = unlines ls ++ "\n" := by
  induction ls with
  | nil => exact absurd rfl h
  | cons l ls ih =>
    by_cases hls : ls = []
    · simp [hls, unlines]
    · rw [List.map_cons, String.join_cons, ih hls, unlines, unlines,
        String.intercalate_cons_of_ne_nil hls]
      simp only [String.append_assoc]

theorem pieces_unlines {ls : List String} (h : ls ≠ []) :
    pieces '\n' (unlines ls) = physicalLines ls := by
  induction ls with
  | nil => exact absurd rfl h
  | cons l ls ih =>
    by_cases hls : ls = []
    · rw [hls, unlines, String.intercalate_singleton, physicalLines_cons]
      exact (List.append_nil _).symm
    · rw [unlines, String.intercalate_cons_of_ne_nil hls, pieces_append_break, physicalLines_cons]
      rw [unlines] at ih
      rw [ih hls]

end Text

end ApiHeaders
