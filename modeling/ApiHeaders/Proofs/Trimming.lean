import ApiHeaders.Declaration.Render
import Mathlib.Data.List.DropRight

/-!
# Blanks around texts

Trimming takes the blanks off both ends of a text. A text may consist of pieces with any blanks
around and between them.

## Main definitions

* `Text.AllBlank` and `Text.IsTrimmed` say which texts trimming takes off and which it leaves.
* `Text.Spaced` says that a text consists of pieces and blanks.

## Main statements

* `Text.spaced_around_iff` divides such a text at one of its pieces.
* `Text.trim_eq_iff` says what trimming comes to.
-/

namespace ApiHeaders

namespace Text

variable {p : Char → Bool} {c : Char} {cs ds blank piece x : List Char} {xs ys : List (List Char)}

theorem rdropWhile_append_cons (hc : p c = false) (xs ys : List Char) :
    (xs ++ c :: ys).rdropWhile p = xs ++ c :: ys.rdropWhile p := by
  have hreverse : (xs ++ c :: ys).reverse = ys.reverse ++ c :: xs.reverse := by simp
  rw [List.rdropWhile, List.rdropWhile, hreverse, List.dropWhile_append,
    List.dropWhile_cons_of_neg (by simp [hc])]
  split
  · next hempty => simp [List.isEmpty_iff.1 hempty]
  · simp

theorem rdropWhile_append (h : ds.rdropWhile p ≠ []) (cs : List Char) :
    (cs ++ ds).rdropWhile p = cs ++ ds.rdropWhile p := by
  have hne : ¬(ds.reverse.dropWhile p).isEmpty := by
    rw [List.rdropWhile] at h
    simpa using h
  rw [List.rdropWhile, List.reverse_append, List.dropWhile_append, if_neg hne, List.reverse_append,
    List.reverse_reverse, List.rdropWhile]

/-! ### Blanks at the ends -/

/-- Nothing but blanks. -/
def AllBlank (cs : List Char) : Prop := ∀ c ∈ cs, isBlank c

instance : DecidablePred AllBlank := fun cs => List.decidableBAll _ cs

theorem AllBlank.append (h : AllBlank cs) (h' : AllBlank ds) : AllBlank (cs ++ ds) :=
  List.forall_mem_append.2 ⟨h, h'⟩

theorem AllBlank.not_mem (h : AllBlank cs) (hc : isBlank c = false) : c ∉ cs := fun hmem =>
  Bool.false_ne_true (hc.symm.trans (h c hmem))

/-- No blank at either end. -/
structure IsTrimmed (cs : List Char) : Prop where
  head : ∀ c ∈ cs.head?, isBlank c = false
  last : ∀ c ∈ cs.getLast?, isBlank c = false

theorem isTrimmed_iff :
    IsTrimmed cs ↔ cs.head?.all (!isBlank ·) ∧ cs.getLast?.all (!isBlank ·) := by
  simp only [Option.all_eq_true, Bool.not_eq_true']
  exact ⟨fun h => ⟨h.head, h.last⟩, fun h => ⟨h.1, h.2⟩⟩

instance : DecidablePred IsTrimmed := fun _ => decidable_of_iff _ isTrimmed_iff.symm

theorem isTrimmed_cons_concat {d : Char} (hc : isBlank c = false) (hd : isBlank d = false)
    (cs : List Char) : IsTrimmed (c :: (cs ++ [d])) where
  head := by simpa using hc
  last := by
    rw [← List.cons_append, List.getLast?_concat]
    simpa using hd

theorem trimStart_append (h : AllBlank blank) (cs : List Char) :
    trimStart (blank ++ cs) = trimStart cs :=
  List.dropWhile_append_of_pos h

theorem trimStart_of_head (h : ∀ c ∈ cs.head?, isBlank c = false) : trimStart cs = cs := by
  cases cs with
  | nil => rfl
  | cons c cs => exact List.dropWhile_cons_of_neg (by simp [h c rfl])

theorem trimStart_append_of_head (h : AllBlank blank) (hc : isBlank c = false) (cs : List Char) :
    trimStart (blank ++ c :: cs) = c :: cs := by
  rw [trimStart_append h, trimStart_of_head (by simpa using hc)]

/-- Behind a character that is no blank, blanks are left alone. -/
theorem trimStart_append_cons (hc : isBlank c = false) (cs ds : List Char) :
    trimStart (cs ++ c :: ds) = trimStart cs ++ c :: ds := by
  rw [trimStart, List.dropWhile_append]
  split
  · next hempty =>
    rw [List.dropWhile_cons_of_neg (by simp [hc]), trimStart, List.isEmpty_iff.1 hempty,
      List.nil_append]
  · rfl

theorem exists_trimStart (cs : List Char) :
    ∃ blank, AllBlank blank ∧ cs = blank ++ trimStart cs :=
  ⟨cs.takeWhile isBlank, fun _ hc => List.mem_takeWhile_imp hc,
    List.takeWhile_append_dropWhile.symm⟩

theorem head_trimStart (cs : List Char) : ∀ c ∈ (trimStart cs).head?, isBlank c = false := by
  intro c hc
  have hhead := List.head?_dropWhile_not isBlank cs
  rw [trimStart] at hc
  rw [hc] at hhead
  simpa using hhead

theorem trimEnd_eq (cs : List Char) : trimEnd cs = (trimStart cs.reverse).reverse := rfl

theorem trimEnd_eq_rdropWhile (cs : List Char) : trimEnd cs = cs.rdropWhile isBlank := rfl

theorem trimEnd_append (h : AllBlank blank) (cs : List Char) :
    trimEnd (cs ++ blank) = trimEnd cs := by
  have hreverse : AllBlank blank.reverse := fun c hc => h c (List.mem_reverse.1 hc)
  rw [trimEnd_eq, List.reverse_append, trimStart_append hreverse, ← trimEnd_eq]

theorem trimEnd_of_last (h : ∀ c ∈ cs.getLast?, isBlank c = false) : trimEnd cs = cs := by
  rw [trimEnd_eq, trimStart_of_head, List.reverse_reverse]
  rwa [List.head?_reverse]

theorem exists_trimEnd (cs : List Char) : ∃ blank, AllBlank blank ∧ cs = trimEnd cs ++ blank := by
  obtain ⟨blank, hblank, hcs⟩ := exists_trimStart cs.reverse
  refine ⟨blank.reverse, fun c hc => hblank c (List.mem_reverse.1 hc), ?_⟩
  rw [trimEnd_eq, ← List.reverse_append, ← hcs, List.reverse_reverse]

theorem last_trimEnd (cs : List Char) : ∀ c ∈ (trimEnd cs).getLast?, isBlank c = false := by
  rw [trimEnd_eq, List.getLast?_reverse]
  exact head_trimStart cs.reverse

theorem isTrimmed_trim (cs : List Char) : IsTrimmed (trim cs) where
  head c hc := by
    obtain ⟨blank, -, hend⟩ := exists_trimEnd (trimStart cs)
    refine head_trimStart cs c ?_
    rw [hend]
    exact List.mem_head?_append_of_mem_head? hc
  last := last_trimEnd (trimStart cs)

/-- Blanks at the end do not matter to trimming. -/
theorem trim_append (h : AllBlank blank) (cs : List Char) : trim (cs ++ blank) = trim cs := by
  rw [trim, trimStart, List.dropWhile_append]
  split
  · next hempty =>
    rw [List.dropWhile_eq_nil_iff.2 h, trim, trimStart, List.isEmpty_iff.1 hempty]
  · exact trimEnd_append h _

theorem trim_trimStart (cs : List Char) : trim (trimStart cs) = trim cs := by
  rw [trim, trimStart_of_head (head_trimStart cs), trim]

/-- A text that ends with a character which is no blank is trimmed at its start only. -/
theorem trim_concat (hc : isBlank c = false) (cs : List Char) :
    trim (cs ++ [c]) = trimStart cs ++ [c] := by
  rw [trim, trimStart_append_cons hc, trimEnd_eq_rdropWhile, rdropWhile_append_cons hc]
  rfl

/-! ### Blanks between pieces -/

/-- A text consists of some pieces, in order, with any blanks around and between them. -/
inductive Spaced : List (List Char) → List Char → Prop
  | nil {blank : List Char} (hblank : AllBlank blank) : Spaced [] blank
  | cons {blank piece text : List Char} {pieces : List (List Char)} (hblank : AllBlank blank)
      (rest : Spaced pieces text) : Spaced (piece :: pieces) (blank ++ piece ++ text)

theorem spaced_nil_iff : Spaced [] cs ↔ AllBlank cs := by
  refine ⟨fun h => ?_, .nil⟩
  cases h with
  | nil hblank => exact hblank

theorem spaced_cons_iff : Spaced (piece :: ys) cs ↔
    ∃ blank text, AllBlank blank ∧ cs = blank ++ piece ++ text ∧ Spaced ys text := by
  constructor
  · intro h
    cases h with
    | cons hblank rest => exact ⟨_, _, hblank, rfl, rest⟩
  · rintro ⟨blank, text, hblank, rfl, rest⟩
    exact .cons hblank rest

theorem Spaced.exact (piece : List Char) : Spaced [piece] piece := by
  have h : Spaced [piece] ([] ++ piece ++ []) := .cons nofun (.nil nofun)
  simpa using h

theorem Spaced.blank_append (hblank : AllBlank blank) (h : Spaced ys cs) :
    Spaced ys (blank ++ cs) := by
  cases h with
  | nil hnil => exact .nil (hblank.append hnil)
  | cons hblank' rest =>
    rw [← List.append_assoc, ← List.append_assoc]
    exact .cons (hblank.append hblank') rest

theorem Spaced.append (h : Spaced xs cs) (h' : Spaced ys ds) : Spaced (xs ++ ys) (cs ++ ds) := by
  induction h with
  | nil hblank => exact h'.blank_append hblank
  | cons hblank _ ih =>
    rw [List.append_assoc]
    exact .cons hblank ih

/-- The pieces before and after one of them stand on either side of it. -/
theorem spaced_around_iff (xs : List (List Char)) : Spaced (xs ++ piece :: ys) cs ↔
    ∃ left right, cs = left ++ piece ++ right ∧ Spaced xs left ∧ Spaced ys right := by
  constructor
  · intro h
    induction xs generalizing cs with
    | nil =>
      obtain ⟨blank, text, hblank, rfl, rest⟩ := spaced_cons_iff.1 h
      exact ⟨blank, text, rfl, .nil hblank, rest⟩
    | cons x xs ih =>
      obtain ⟨blank, text, hblank, rfl, rest⟩ := spaced_cons_iff.1 h
      obtain ⟨left, right, rfl, hleft, hright⟩ := ih rest
      exact ⟨blank ++ x ++ left, right, by simp only [List.append_assoc], .cons hblank hleft,
        hright⟩
  · rintro ⟨left, right, rfl, hleft, hright⟩
    rw [List.append_assoc]
    exact hleft.append ((Spaced.exact piece).append hright)

theorem Spaced.subset (h : Spaced xs cs) (hpiece : piece ∈ xs) : piece ⊆ cs := by
  obtain ⟨before, after, rfl⟩ := List.append_of_mem hpiece
  obtain ⟨left, right, rfl, -, -⟩ := (spaced_around_iff before).1 h
  intro c hc
  simp [hc]

/-- A character that is no blank is in one of the pieces. -/
theorem Spaced.not_mem (h : Spaced xs cs) (hc : isBlank c = false) (hxs : ∀ x ∈ xs, c ∉ x) :
    c ∉ cs := by
  induction h with
  | nil hblank => exact hblank.not_mem hc
  | cons hblank _ ih =>
    obtain ⟨hpiece, hpieces⟩ := List.forall_mem_cons.1 hxs
    simp [hblank.not_mem hc, hpiece, ih hpieces]

/-! ### Trimming -/

theorem Spaced.of_trimStart (h : Spaced ys (trimStart cs)) : Spaced ys cs := by
  obtain ⟨blank, hblank, hcs⟩ := exists_trimStart cs
  rw [hcs]
  exact h.blank_append hblank

theorem Spaced.of_trim (h : Spaced ys (trim cs)) : Spaced ys cs := by
  obtain ⟨blank, hblank, hend⟩ := exists_trimEnd (trimStart cs)
  have hstart : Spaced (ys ++ []) (trimStart cs) := by
    rw [hend]
    exact h.append (.nil hblank)
  rw [List.append_nil] at hstart
  exact hstart.of_trimStart

/-- Trimming comes to a text without blanks at its ends, by taking blanks off. -/
theorem trim_eq_iff : trim cs = x ↔ IsTrimmed x ∧ Spaced [x] cs := by
  constructor
  · rintro rfl
    exact ⟨isTrimmed_trim cs, (Spaced.exact (trim cs)).of_trim⟩
  · rintro ⟨hx, hspaced⟩
    obtain ⟨blank, blank', hblank, rfl, hblank'⟩ := spaced_cons_iff.1 hspaced
    rw [trim_append (spaced_nil_iff.1 hblank'), trim, trimStart_append hblank,
      trimStart_of_head hx.head, trimEnd_of_last hx.last]

theorem isTrimmed_trimmed (s : String) : IsTrimmed (trimmed s).toList := by
  rw [trimmed, String.toList_ofList]
  exact isTrimmed_trim s.toList

theorem trimmed_trimmed (s : String) : trimmed (trimmed s) = trimmed s := by
  have htrim : trim (trimmed s).toList = (trimmed s).toList :=
    trim_eq_iff.2 ⟨isTrimmed_trimmed s, .exact _⟩
  rw [trimmed, htrim, String.ofList_toList]

end Text

theorem dropFinalBreaks_eq (s : String) :
    dropFinalBreaks s = .ofList (s.toList.rdropWhile (· = '\n')) := rfl

end ApiHeaders
