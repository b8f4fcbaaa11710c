import ApiHeaders.Text.Blank
import ApiHeaders.Text.Layout
import ApiHeaders.Text.Pieces
import Mathlib.Data.List.DropRight
import Mathlib.Data.List.Infix

/-!
# Block comments

A block comment goes up to the first `*/`. Where a text is put together from pieces, a `*/` stands
in one of the pieces if the characters between them are neither `*` nor `/`.

## Main definitions

* `Text.HasTerminator` says that a text holds a `*/`, `Text.AnyTerminator` that one of several
  texts does.
* `Text.IsComment` says that a text is one block comment, which ends where the text does.

## Main statements

* `Text.hasTerminator_append_cons` and its companions look for the `*/` of a text in its pieces.
* `Text.isComment_iff` says when a text between `/*` and `*/` is one comment.
* `Text.not_hasTerminator_breakTerminator` says that no `*/` is left where each was broken.
-/

namespace ApiHeaders.Text

variable {p : Char → Bool} {c d : Char} {cs xs ys start : List Char}

/-- The end of a block comment stands in a text. -/
def HasTerminator (cs : List Char) : Prop := ['*', '/'] <:+: cs

instance : DecidablePred HasTerminator := fun cs => inferInstanceAs (Decidable (['*', '/'] <:+: cs))

@[simp] theorem not_hasTerminator_nil : ¬HasTerminator [] := by decide

theorem hasTerminator_cons :
    HasTerminator (c :: cs) ↔ c = '*' ∧ cs.head? = some '/' ∨ HasTerminator cs := by
  have hhead : ['/'] <+: cs ↔ cs.head? = some '/' := by
    cases cs with
    | nil => simp
    | cons d ds => simp [List.cons_prefix_cons, eq_comm (a := '/')]
  rw [HasTerminator, List.infix_cons_iff, List.cons_prefix_cons, hhead, eq_comm, HasTerminator]

@[simp] theorem hasTerminator_cons_of_ne (hc : c ≠ '*') :
    HasTerminator (c :: cs) ↔ HasTerminator cs := by
  simp [hasTerminator_cons, hc]

/-- A text without `*` in front does not matter. -/
theorem hasTerminator_append_left (h : '*' ∉ xs) :
    HasTerminator (xs ++ ys) ↔ HasTerminator ys := by
  induction xs with
  | nil => rfl
  | cons x xs ih =>
    obtain ⟨hx, hxs⟩ := List.ne_and_not_mem_of_not_mem_cons h
    rw [List.cons_append, hasTerminator_cons_of_ne hx.symm, ih hxs]

/-- Between two texts stands a character that belongs to no terminator. -/
theorem hasTerminator_append_cons (hstar : c ≠ '*') (hslash : c ≠ '/') :
    HasTerminator (xs ++ c :: ys) ↔ HasTerminator xs ∨ HasTerminator ys := by
  induction xs with
  | nil => simp [hstar]
  | cons x xs ih =>
    rw [List.cons_append, hasTerminator_cons, hasTerminator_cons, ih, or_assoc]
    cases xs <;> simp [hslash]

/-- Between two texts stands another one, without the characters of a terminator. -/
theorem hasTerminator_append_append {ws : List Char} (hne : ws ≠ []) (hstar : '*' ∉ ws)
    (hslash : '/' ∉ ws) :
    HasTerminator (xs ++ (ws ++ ys)) ↔ HasTerminator xs ∨ HasTerminator ys := by
  obtain ⟨w, ws, rfl⟩ := List.exists_cons_of_ne_nil hne
  obtain ⟨hwstar, hstar⟩ := List.ne_and_not_mem_of_not_mem_cons hstar
  obtain ⟨hwslash, -⟩ := List.ne_and_not_mem_of_not_mem_cons hslash
  rw [List.cons_append, hasTerminator_append_cons hwstar.symm hwslash.symm,
    hasTerminator_append_left hstar]

/-- A text without `/` behind does not matter. -/
theorem hasTerminator_append_right (h : '/' ∉ ys) :
    HasTerminator (xs ++ ys) ↔ HasTerminator xs := by
  induction xs with
  | nil =>
    refine iff_of_false (fun hmem => h ?_) not_hasTerminator_nil
    exact hmem.subset (by simp)
  | cons x xs ih =>
    rw [List.cons_append, hasTerminator_cons, hasTerminator_cons, ih]
    cases xs with
    | nil =>
      have hhead : ys.head? ≠ some '/' := fun hhead => h (List.mem_of_head? hhead)
      simp [hhead]
    | cons y xs => rfl

theorem hasTerminator_toList_append_left {s t : String} (h : '*' ∉ s.toList) :
    HasTerminator (s ++ t).toList ↔ HasTerminator t.toList := by
  rw [String.toList_append]
  exact hasTerminator_append_left h

theorem hasTerminator_toList_append_right {s t : String} (h : '/' ∉ t.toList) :
    HasTerminator (s ++ t).toList ↔ HasTerminator s.toList := by
  rw [String.toList_append]
  exact hasTerminator_append_right h

theorem hasTerminator_rdropWhile (hp : p '/' = false) :
    HasTerminator (cs.rdropWhile p) ↔ HasTerminator cs := by
  have hcs : cs.rdropWhile p ++ (cs.reverse.takeWhile p).reverse = cs := by
    rw [List.rdropWhile, ← List.reverse_append, List.takeWhile_append_dropWhile,
      List.reverse_reverse]
  have htail : '/' ∉ (cs.reverse.takeWhile p).reverse := by
    intro hmem
    have hslash := List.mem_takeWhile_imp (List.mem_reverse.1 hmem)
    rw [hp] at hslash
    cases hslash
  conv_rhs => rw [← hcs]
  exact (hasTerminator_append_right htail).symm

theorem hasTerminator_starred (l : String) :
    HasTerminator (" * " ++ l).toList ↔ HasTerminator l.toList := by
  have hstar : (" * " ++ l).toList = [' ', '*'] ++ ' ' :: l.toList := by
    rw [String.toList_append]
    rfl
  have hnone : ¬HasTerminator [' ', '*'] := by decide
  rw [hstar, hasTerminator_append_cons (by decide) (by decide), or_iff_right hnone]

/-- The end of a block comment stands in one of several texts. -/
def AnyTerminator (ls : List String) : Prop := ∃ l ∈ ls, HasTerminator l.toList

@[simp] theorem anyTerminator_nil : ¬AnyTerminator [] := by simp [AnyTerminator]

@[simp] theorem anyTerminator_cons {l : String} {ls : List String} :
    AnyTerminator (l :: ls) ↔ HasTerminator l.toList ∨ AnyTerminator ls := by
  simp [AnyTerminator]

@[simp] theorem anyTerminator_append {ls ms : List String} :
    AnyTerminator (ls ++ ms) ↔ AnyTerminator ls ∨ AnyTerminator ms := by
  simp [AnyTerminator, or_and_right, exists_or]

/-- A terminator in lines that are all ended stands in one of the lines. -/
theorem hasTerminator_join {ls : List String} :
    HasTerminator (String.join (ls.map (· ++ "\n"))).toList ↔ AnyTerminator ls := by
  induction ls with
  | nil => simp
  | cons l ls ih =>
    have hbreak : "\n".toList = ['\n'] := rfl
    rw [List.map_cons, String.join_cons, String.toList_append, String.toList_append, hbreak,
      List.append_assoc, List.singleton_append,
      hasTerminator_append_cons (by decide) (by decide), ih, anyTerminator_cons]

/-! ### Comments -/

/-- One block comment, from the start of a text to its end: no other `*/` stands in it. -/
structure IsComment (cs : List Char) : Prop where
  delimited : ∃ body, cs = ['/', '*'] ++ body ++ ['*', '/']
  once : ∀ pre post, cs = pre ++ ['*', '/'] ++ post → post = []

/-- All but the last `/` of a comment is without a terminator. -/
theorem isComment_concat_iff (hopens : ['/', '*'] <+: cs) :
    IsComment (cs ++ ['*', '/']) ↔ ¬HasTerminator (cs ++ ['*']) := by
  have hend : cs ++ ['*', '/'] = cs ++ ['*'] ++ ['/'] := by simp
  constructor
  · rintro ⟨-, honce⟩ ⟨pre, post, hmem⟩
    have hnil := honce pre (post ++ ['/']) (by rw [hend, ← hmem, List.append_assoc])
    simp at hnil
  · intro hnone
    obtain ⟨body, hbody⟩ := hopens
    refine ⟨⟨body, by rw [hbody]⟩, fun pre post heq => ?_⟩
    rcases List.eq_nil_or_concat post with rfl | ⟨init, last, rfl⟩
    · rfl
    · rw [hend, List.concat_eq_append, ← List.append_assoc] at heq
      exact absurd ⟨pre, init, (List.append_inj_left' heq rfl).symm⟩ hnone

/-- What stands, set apart, between the start and the end of a comment must hold no terminator. -/
theorem isComment_iff (hopens : ['/', '*'] <+: start) (hstart : ¬HasTerminator start)
    (hc : c ≠ '*' ∧ c ≠ '/') (hd : d ≠ '*' ∧ d ≠ '/') :
    IsComment (start ++ c :: (cs ++ d :: ['*', '/'])) ↔ ¬HasTerminator cs := by
  have hend : start ++ c :: (cs ++ d :: ['*', '/']) =
      (start ++ c :: (cs ++ [d])) ++ ['*', '/'] := by simp
  have hbody : start ++ c :: (cs ++ [d]) ++ ['*'] = start ++ c :: (cs ++ d :: ['*']) := by simp
  rw [hend, isComment_concat_iff (hopens.trans (List.prefix_append ..)), hbody,
    hasTerminator_append_cons hc.1 hc.2, hasTerminator_append_cons hd.1 hd.2]
  have hstar : ¬HasTerminator ['*'] := by decide
  simp [hstart, hstar]

/-! ### Broken terminators -/

theorem head?_breakTerminator (cs : List Char) : (breakTerminator cs).head? = cs.head? := by
  fun_cases breakTerminator cs <;> rfl

/-- Where every terminator was broken, none is left. -/
theorem not_hasTerminator_breakTerminator (cs : List Char) :
    ¬HasTerminator (breakTerminator cs) := by
  fun_induction breakTerminator cs with
  | case1 cs ih => simpa [hasTerminator_cons] using ih
  | case2 c cs hc ih =>
    rw [hasTerminator_cons, head?_breakTerminator]
    rintro (⟨rfl, hhead⟩ | hmem)
    · obtain ⟨ds, rfl⟩ := List.head?_eq_some_iff.1 hhead
      exact hc ds rfl rfl
    · exact ih hmem
  | case3 => exact not_hasTerminator_nil

end ApiHeaders.Text
